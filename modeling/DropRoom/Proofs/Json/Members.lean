import DropRoom.Json.Record
import DropRoom.Proofs.Json.Trees
import Mathlib.Data.List.Forall2

namespace DropRoom.Json

/-!
# The members of an object

What a record takes from the members of an object, as statements in which their order does not
count.

* `Record.Gives`, `Record.givenField?` — the field that a member is for;
* `Record.checkMembers_ofTrees_iff` — when the members of an object pass its check;
* `Record.slotOf_of_gives`, `Record.slotOf_of_not_gives` — what an object holds for a field.
-/

/-! ### Lists related entry by entry -/

section

variable {α β γ : Type} {S : α → β → Prop} {as : List α} {bs : List β}

/-- What is matched has a partner. -/
theorem exists_of_forall₂ (h : List.Forall₂ S as bs) {a : α} (ha : a ∈ as) : ∃ b ∈ bs, S a b := by
  induction h with
  | nil => cases ha
  | @cons first b _ _ hfirst _ ih =>
    rcases List.mem_cons.mp ha with rfl | ha
    · exact ⟨b, List.mem_cons_self, hfirst⟩
    · obtain ⟨other, hother, hrelated⟩ := ih ha
      exact ⟨other, List.mem_cons_of_mem _ hother, hrelated⟩

/-- Partners that are mapped alike make one list. -/
theorem map_eq_map_of_forall₂ (h : List.Forall₂ S as bs) {f : α → γ} {g : β → γ}
    (hsame : ∀ a ∈ as, ∀ b ∈ bs, S a b → f a = g b) : as.map f = bs.map g := by
  induction h with
  | nil => rfl
  | @cons a b as bs hfirst _ ih =>
    rw [List.map_cons, List.map_cons, hsame a List.mem_cons_self b List.mem_cons_self hfirst,
      ih fun a ha b hb => hsame a (List.mem_cons_of_mem _ ha) b (List.mem_cons_of_mem _ hb)]

end

/-! ### What members give -/

namespace Record

/-- A member bears a name of a field. -/
def Gives (field : Field) (m : Text × Reading) : Prop :=
  ∃ name, m.1 = .plain name ∧ name ∈ field.names

/-- The field of a member, by its name in messages. -/
def givenField? (fields : List Field) (m : Text × Reading) : Option String :=
  match m.1 with
  | .plain name => (find? fields name).map Field.name
  | .unpaired _ => none

/-- A member has a name; if it is that of a field then the value is of the type of the field, and
otherwise the value can be passed over. -/
def Passes (fields : List Field) (source : Source) (m : Text × Reading) : Prop :=
  ∃ name, m.1 = .plain name ∧
    match find? fields name with
    | none => m.2.skip = .ok ()
    | some field => field.check source m.2 = .ok ()

/-- **The check of an object.** Every member passes, and no field is given twice. -/
theorem checkMembers_ofTrees_iff {fields : List Field} {source : Source} {seen : List String}
    {ms : List (Text × Reading)} :
    checkMembers fields source seen (Members.ofTrees ms) = .ok () ↔
      (∀ m ∈ ms, Passes fields source m) ∧ (ms.filterMap (givenField? fields)).Nodup ∧
        ∀ name ∈ ms.filterMap (givenField? fields), name ∉ seen := by
  -- on the members; `seen` grows by the name of each field that is given
  induction ms generalizing seen with
  | nil => simp [Members.ofTrees, checkMembers]
  | cons m ms ih =>
    obtain ⟨name, value⟩ := m
    rw [Members.ofTrees, checkMembers, List.forall_mem_cons]
    cases name with
    | unpaired later => simp [Text.read, Passes]
    | plain name =>
      cases hfound : find? fields name with
      | none =>
        have hgiven : givenField? fields (.plain name, value) = none := by
          simp [givenField?, hfound]
        rw [List.filterMap_cons_none hgiven]
        cases hskip : value.skip with
        | error f => simp [Text.read, Passes, hfound, hskip]
        | ok u => simp [Text.read, Passes, hfound, hskip, ih]
      | some field =>
        have hgiven : givenField? fields (.plain name, value) = some field.name := by
          simp [givenField?, hfound]
        rw [List.filterMap_cons_some hgiven, List.nodup_cons, List.forall_mem_cons]
        -- a field that was seen is refused before its value is looked at
        by_cases hseen : field.name ∈ seen
        · simp [Text.read, hfound, hseen]
        cases hcheck : field.check source value with
        | error e => simp [Text.read, Passes, hfound, hcheck, hseen]
        | ok u =>
          have hnew : seen.contains field.name = false := by simpa using hseen
          simp only [Text.read, hfound, hnew, hcheck, ih, Passes, Bool.false_eq_true, if_false]
          constructor
          · rintro ⟨hpasses, hnodup, hnot⟩
            have hfirst : field.name ∉ ms.filterMap (givenField? fields) :=
              fun hmem => hnot _ hmem List.mem_cons_self
            exact ⟨⟨⟨name, rfl, by rw [hfound]; exact hcheck⟩, hpasses⟩, ⟨hfirst, hnodup⟩, hseen,
              fun other hother hmem => hnot other hother (List.mem_cons_of_mem _ hmem)⟩
          · rintro ⟨⟨_, hpasses⟩, ⟨hfirst, hnodup⟩, _, hnot⟩
            refine ⟨hpasses, hnodup, fun other hother hmem => ?_⟩
            rcases List.mem_cons.mp hmem with rfl | hmem
            · exact hfirst hother
            · exact hnot other hother hmem

/-- The field of a name is the one that has the name, where no name is that of two fields. -/
theorem find?_of_mem {fields : List Field} (hnames : (fields.flatMap Field.names).Nodup)
    {field : Field} (hfield : field ∈ fields) {name : String} (hname : name ∈ field.names) :
    find? fields name = some field := by
  induction fields with
  | nil => cases hfield
  | cons first fields ih =>
    rw [List.flatMap_cons, List.nodup_append] at hnames
    rw [find?]
    rcases List.mem_cons.mp hfield with rfl | hfield
    · rw [List.find?_cons_of_pos (by simpa using hname)]
    · have hother : name ∉ first.names := fun hmem =>
        hnames.2.2 name hmem name (List.mem_flatMap.mpr ⟨field, hfield, hname⟩) rfl
      rw [List.find?_cons_of_neg (by simpa using hother)]
      exact ih hnames.2.1 hfield

/-- A member that gives a field gives no other, as names are distinct. -/
theorem Gives.givenField? {fields : List Field} (hnames : (fields.flatMap Field.names).Nodup)
    {field : Field} (hfield : field ∈ fields) {m : Text × Reading} (h : Gives field m) :
    givenField? fields m = some field.name := by
  obtain ⟨name, hm, hname⟩ := h
  simp [Record.givenField?, hm, find?_of_mem hnames hfield hname]

/-- What an object holds for a field that it gives once. -/
theorem slotOf_of_gives {fields : List Field} (hnames : (fields.flatMap Field.names).Nodup)
    {field : Field} (hfield : field ∈ fields) {ms : List (Text × Reading)}
    (hplain : ∀ m ∈ ms, ∃ name, m.1 = .plain name)
    (hgiven : (ms.filterMap (givenField? fields)).Nodup) {m : Text × Reading} (hm : m ∈ ms)
    (h : Gives field m) : slotOf field (Members.ofTrees ms) = .given m.2 := by
  induction ms with
  | nil => cases hm
  | cons first ms ih =>
    obtain ⟨name, hname⟩ := hplain first List.mem_cons_self
    rw [Members.ofTrees, slotOf]
    simp only [hname, Text.read]
    by_cases hfirst : name ∈ field.names
    · -- a second member of the field would give it twice
      have hsame : first = m := by
        rcases List.mem_cons.mp hm with rfl | hm
        · rfl
        · have hgives : Gives field first := ⟨name, hname, hfirst⟩
          rw [List.filterMap_cons_some (hgives.givenField? hnames hfield), List.nodup_cons] at hgiven
          exact absurd (List.mem_filterMap.mpr ⟨m, hm, h.givenField? hnames hfield⟩) hgiven.1
      simp [hfirst, hsame]
    · have hrest : m ∈ ms := by
        rcases List.mem_cons.mp hm with rfl | hm
        · obtain ⟨other, hother, hmem⟩ := h
          rw [hname] at hother
          cases hother
          exact absurd hmem hfirst
        · exact hm
      have hnodup := (List.Sublist.filterMap (givenField? fields) (List.sublist_cons_self first ms)).nodup
        hgiven
      simp only [List.contains_eq_mem, hfirst, decide_false, Bool.false_eq_true, if_false]
      exact ih (fun other hother => hplain other (List.mem_cons_of_mem _ hother)) hnodup hrest

/-- What an object holds for a field that it does not give. -/
theorem slotOf_of_not_gives {field : Field} {ms : List (Text × Reading)}
    (hplain : ∀ m ∈ ms, ∃ name, m.1 = .plain name) (h : ∀ m ∈ ms, ¬ Gives field m) :
    slotOf field (Members.ofTrees ms) = .absent := by
  induction ms with
  | nil => rfl
  | cons first ms ih =>
    obtain ⟨name, hname⟩ := hplain first List.mem_cons_self
    have hfirst : name ∉ field.names := fun hmem => h first List.mem_cons_self ⟨name, hname, hmem⟩
    rw [Members.ofTrees, slotOf]
    simp only [hname, Text.read, List.contains_eq_mem, hfirst, decide_false, Bool.false_eq_true,
      if_false]
    exact ih (fun other hother => hplain other (List.mem_cons_of_mem _ hother))
      fun other hother => h other (List.mem_cons_of_mem _ hother)

end Record

end DropRoom.Json
