import DropRoom.Proofs.Json.Members

namespace DropRoom.Json

/-!
# The order of members does not matter

An object is decoded as a record whatever the order of its members is, and whatever members of other
names stand between them.

* `Record.Rearranges` — the same members in another order, with others between them;
* `Decoder.Tolerates`, `Record.Tolerant` — what a decoder makes of a value stays when the value varies;
* `Record.decoder_of_rearranges` — a rearranged object is decoded as the same record;
* `tolerates_list` — the items of an array may vary if each of them is decoded as before;
* `ObjectRearranged` — the text of an object whose members are rearranged;
* `Record.Tolerant.decoder_treeOf` — it is decoded as the record that the object is decoded as;
* `decodeText_document` — a text is decoded as the tree of its value.
-/

variable {α β : Type} {R : Reading → Reading → Prop}

/-- A decoder makes the same of a value that varies. -/
def Decoder.Tolerates (R : Reading → Reading → Prop) (decode : Decoder α) : Prop :=
  ∀ source r r' a, R r r' → decode source r = .ok a → decode source r' = .ok a

/-- A decoder that takes none of the values that vary. -/
theorem Decoder.tolerates_of_rejects {decode : Decoder α}
    (h : ∀ source r r', R r r' → ∃ e, decode source r = .error e) : Tolerates R decode := by
  intro source r r' a hvaries hok
  obtain ⟨e, he⟩ := h source r r' hvaries
  rw [he] at hok
  cases hok

/-- Values in the place of a field, of which the second is the first or varies it. -/
inductive Slot.Varies (R : Reading → Reading → Prop) : Slot → Slot → Prop
  | same (slot : Slot) : Varies R slot slot
  | given {r r' : Reading} : R r r' → Varies R (.given r) (.given r')

namespace Record

/-! ### Rearranged objects -/

/-- A member is kept: it has its name, and its value, or one that varies it if it is that of a
field. -/
def Keeps (fields : List Field) (R : Reading → Reading → Prop) (m k : Text × Reading) : Prop :=
  k.1 = m.1 ∧ (k.2 = m.2 ∨ ((givenField? fields m).isSome ∧ R m.2 k.2))

/-- A member of a name that no field has. -/
def Surplus (fields : List Field) (m : Text × Reading) : Prop :=
  ∃ name, m.1 = .plain name ∧ find? fields name = none ∧ m.2.skip = .ok ()

/-- The members of an object in another order, with members of other names between them. -/
def Rearranges (fields : List Field) (R : Reading → Reading → Prop)
    (ms ms' : List (Text × Reading)) : Prop :=
  ∃ kept added, List.Forall₂ (Keeps fields R) ms kept ∧ ms'.Perm (kept ++ added) ∧
    ∀ m ∈ added, Surplus fields m

/-- The checks and the construction of a record stay when the values of its fields vary. -/
structure Tolerant (R : Reading → Reading → Prop) (r : Record α) : Prop where
  check : ∀ field ∈ r.fields, ∀ source x x', R x x' → field.check source x = .ok () →
    field.check source x' = .ok ()
  build : ∀ {source slots slots' a more}, List.Forall₂ (Slot.Varies R) slots slots' →
    r.build source slots = .ok (a, more) →
    ∃ more', r.build source slots' = .ok (a, more') ∧ List.Forall₂ (Slot.Varies R) more more'

/-- A record without fields tolerates everything. -/
theorem tolerant_start (a : α) : Tolerant R (.start a) where
  check _ h := absurd h List.not_mem_nil
  build hslots hbuild := by
    obtain ⟨rfl, rfl⟩ := Prod.mk.inj (Except.ok.inj hbuild)
    exact ⟨_, rfl, hslots⟩

section Fields

variable {r : Record (β → α)} {name : String} {decode : Decoder β}

/-- A field may be added whose check and whose value tolerate the variation. -/
theorem Tolerant.field (h : Tolerant R r) {names : List String}
    {check : Source → Reading → Except DecodeError Unit} {take : Source → Slot → Except DecodeError β}
    (hcheck : ∀ source x x', R x x' → check source x = .ok () → check source x' = .ok ())
    (htake : ∀ source x x' b, R x x' → take source (.given x) = .ok b →
      take source (.given x') = .ok b) : Tolerant R (r.field names check take) where
  check field hfield := by
    rcases List.mem_append.mp hfield with hfield | hfield
    · exact h.check field hfield
    · obtain rfl := List.mem_singleton.mp hfield
      exact hcheck
  -- the new field is the last one, so its slot is the first that the record has left over
  build := by
    intro source slots slots' a more hslots hbuild
    rw [Record.field] at hbuild
    dsimp only at hbuild
    split at hbuild
    · cases hbuild
    · cases hbuild
    · rename_i f slot rest hr
      obtain ⟨more', hr', hmore'⟩ := h.build hslots hr
      obtain ⟨slot', rest', hslot, hrest, rfl⟩ := List.forall₂_cons_left_iff.mp hmore'
      cases htaken : take source slot with
      | error e =>
        rw [htaken] at hbuild
        cases hbuild
      | ok b =>
        have htaken' : take source slot' = .ok b := by
          cases hslot with
          | same => exact htaken
          | given hvaries => exact htake source _ _ b hvaries htaken
        rw [htaken] at hbuild
        obtain ⟨rfl, rfl⟩ := Prod.mk.inj (Except.ok.inj hbuild)
        refine ⟨rest', ?_, hrest⟩
        simp only [Record.field, hr', htaken', Except.map]

/-- The check of a field tolerates what its decoder does. -/
theorem checkOf_of_tolerates (h : Decoder.Tolerates R decode) (source : Source) (x x' : Reading)
    (hvaries : R x x') (hcheck : checkOf decode source x = .ok ()) :
    checkOf decode source x' = .ok () := by
  rw [checkOf] at hcheck ⊢
  cases hok : decode source x with
  | error e =>
    rw [hok] at hcheck
    cases hcheck
  | ok b =>
    rw [h source x x' b hvaries hok]
    rfl

/-- A required field is tolerant if its decoder is. -/
theorem Tolerant.required (h : Tolerant R r) (hdecode : Decoder.Tolerates R decode) :
    Tolerant R (r.required name decode) :=
  h.field (checkOf_of_tolerates hdecode) hdecode

/-- So is a field with a default. -/
theorem Tolerant.defaulted (h : Tolerant R r) {default : β} (hdecode : Decoder.Tolerates R decode) :
    Tolerant R (r.defaulted name decode default) :=
  h.field (checkOf_of_tolerates hdecode) hdecode

end Fields

/-! ### Rearranged objects are decoded alike -/

section Rearranged

variable {fields : List Field} {source : Source} {ms ms' kept added : List (Text × Reading)}

/-- A member that varies gives the field that it gave. -/
theorem Keeps.givenField? {m k : Text × Reading} (h : Keeps fields R m k) :
    givenField? fields k = givenField? fields m := by
  rw [Record.givenField?, Record.givenField?, h.1]

/-- It gives no other. -/
theorem Keeps.gives_iff {m k : Text × Reading} (h : Keeps fields R m k) (field : Field) :
    Gives field k ↔ Gives field m := by
  rw [Gives, Gives, h.1]

/-- It passes where it passed. -/
theorem Keeps.passes {m k : Text × Reading} (h : Keeps fields R m k)
    (hcheck : ∀ field ∈ fields, ∀ x x', R x x' → field.check source x = .ok () →
      field.check source x' = .ok ()) (hpasses : Passes fields source m) :
    Passes fields source k := by
  obtain ⟨name, hname, hvalue⟩ := hpasses
  refine ⟨name, h.1.trans hname, ?_⟩
  rcases h.2 with hsame | ⟨hgiven, hvaries⟩
  · rw [hsame]
    exact hvalue
  · cases hfound : find? fields name with
    | none => simp [Record.givenField?, hname, hfound] at hgiven
    | some field =>
      rw [hfound] at hvalue
      exact hcheck field (List.mem_of_find?_eq_some hfound) _ _ hvaries hvalue

/-- A surplus member passes, as no field checks it. -/
theorem Surplus.passes {m : Text × Reading} (h : Surplus fields m) : Passes fields source m := by
  obtain ⟨name, hname, hfound, hskip⟩ := h
  refine ⟨name, hname, ?_⟩
  rw [hfound]
  exact hskip

/-- A surplus member gives no field. -/
theorem Surplus.givenField? {m : Text × Reading} (h : Surplus fields m) :
    givenField? fields m = none := by
  obtain ⟨name, hname, hfound, _⟩ := h
  simp [Record.givenField?, hname, hfound]

/-- It gives none of the fields. -/
theorem Surplus.not_gives {m : Text × Reading} (h : Surplus fields m) {field : Field}
    (hfield : field ∈ fields) : ¬ Gives field m := by
  rintro ⟨name, hname, hmem⟩
  obtain ⟨other, hother, hfound, _⟩ := h
  rw [hname] at hother
  obtain rfl := Text.plain.inj hother
  have hnone := List.find?_eq_none.mp hfound field hfield
  simp [hmem] at hnone

/-- The fields that a rearranged object gives, in their order. -/
theorem filterMap_givenField? (hkept : List.Forall₂ (Keeps fields R) ms kept)
    (hadded : ∀ m ∈ added, Surplus fields m) :
    (kept ++ added).filterMap (givenField? fields) = ms.filterMap (givenField? fields) := by
  have hnone : added.filterMap (givenField? fields) = [] :=
    List.filterMap_eq_nil_iff.mpr fun m hm => (hadded m hm).givenField?
  rw [List.filterMap_append, hnone, List.append_nil]
  induction hkept with
  | nil => rfl
  | cons hfirst _ ih => rw [List.filterMap_cons, List.filterMap_cons, hfirst.givenField?, ih]

/-- **Members.** A rearranged object passes the check. -/
theorem checkMembers_of_rearranges
    (hcheck : ∀ field ∈ fields, ∀ x x', R x x' → field.check source x = .ok () →
      field.check source x' = .ok ())
    (h : Rearranges fields R ms ms')
    (hok : checkMembers fields source [] (Members.ofTrees ms) = .ok ()) :
    checkMembers fields source [] (Members.ofTrees ms') = .ok () := by
  obtain ⟨kept, added, hkept, hperm, hadded⟩ := h
  obtain ⟨hpasses, hnodup, _⟩ := checkMembers_ofTrees_iff.mp hok
  refine checkMembers_ofTrees_iff.mpr ⟨?_, ?_, fun _ _ => List.not_mem_nil⟩
  · intro m hm
    rcases List.mem_append.mp (hperm.mem_iff.mp hm) with hmem | hmem
    · obtain ⟨original, horiginal, hkeeps⟩ := exists_of_forall₂ hkept.flip hmem
      exact Keeps.passes hkeeps hcheck (hpasses original horiginal)
    · exact (hadded m hmem).passes
  · rw [(hperm.filterMap _).nodup_iff, filterMap_givenField? hkept hadded]
    exact hnodup

/-- **Fields.** A rearranged object holds the same for every field, but for what varies. -/
theorem slotOf_of_rearranges (hnames : (fields.flatMap Field.names).Nodup)
    (h : Rearranges fields R ms ms')
    (hok : checkMembers fields source [] (Members.ofTrees ms) = .ok ())
    (hok' : checkMembers fields source [] (Members.ofTrees ms') = .ok ()) {field : Field}
    (hfield : field ∈ fields) :
    Slot.Varies R (slotOf field (Members.ofTrees ms)) (slotOf field (Members.ofTrees ms')) := by
  obtain ⟨kept, added, hkept, hperm, hadded⟩ := h
  obtain ⟨hpasses, hnodup, _⟩ := checkMembers_ofTrees_iff.mp hok
  obtain ⟨hpasses', hnodup', _⟩ := checkMembers_ofTrees_iff.mp hok'
  have hplain (m) (hm : m ∈ ms) : ∃ name, m.1 = .plain name :=
    (hpasses m hm).imp fun _ => And.left
  have hplain' (m) (hm : m ∈ ms') : ∃ name, m.1 = .plain name :=
    (hpasses' m hm).imp fun _ => And.left
  -- where a member gives the field, its rearranged copy is the only one that does, since both
  -- objects pass their check
  by_cases hgiven : ∃ m ∈ ms, Gives field m
  · obtain ⟨m, hm, hgives⟩ := hgiven
    obtain ⟨k, hk, hkeeps⟩ := exists_of_forall₂ hkept hm
    have hk' : k ∈ ms' := hperm.mem_iff.mpr (List.mem_append_left _ hk)
    rw [slotOf_of_gives hnames hfield hplain hnodup hm hgives,
      slotOf_of_gives hnames hfield hplain' hnodup' hk' ((hkeeps.gives_iff field).mpr hgives)]
    rcases hkeeps.2 with hsame | ⟨_, hvaries⟩
    · rw [hsame]
      exact .same _
    · exact .given hvaries
  · have hnot : ∀ m ∈ ms, ¬ Gives field m := fun m hm hgives => hgiven ⟨m, hm, hgives⟩
    -- a copy gives what its original gives, and what was added gives no field
    have hnot' : ∀ m ∈ ms', ¬ Gives field m := by
      intro m hm hgives
      rcases List.mem_append.mp (hperm.mem_iff.mp hm) with hmem | hmem
      · obtain ⟨original, horiginal, hkeeps⟩ := exists_of_forall₂ hkept.flip hmem
        exact hnot original horiginal ((Keeps.gives_iff hkeeps field).mp hgives)
      · exact (hadded m hmem).not_gives hfield hgives
    rw [slotOf_of_not_gives hplain hnot, slotOf_of_not_gives hplain' hnot']
    exact .same _

/-- **Records.** A rearranged object is decoded as the record that the object is decoded as. -/
theorem decoder_of_rearranges {r : Record α} (htolerant : Tolerant R r)
    (hnames : (r.fields.flatMap Field.names).Nodup) (h : Rearranges r.fields R ms ms') {a : α}
    (hok : r.decoder source (.object (Members.ofTrees ms)) = .ok a) :
    r.decoder source (.object (Members.ofTrees ms')) = .ok a := by
  rw [decoder] at hok ⊢
  cases hcheck : checkMembers r.fields source [] (Members.ofTrees ms) with
  | error e =>
    rw [hcheck] at hok
    cases hok
  | ok u =>
    -- first the check of the rearranged object, then its slots, and from both the record
    have hcheck' := checkMembers_of_rearranges
      (fun field hfield => htolerant.check field hfield source) h hcheck
    have hslots : List.Forall₂ (Slot.Varies R)
        (r.fields.map fun field => slotOf field (Members.ofTrees ms))
        (r.fields.map fun field => slotOf field (Members.ofTrees ms')) := by
      rw [List.forall₂_map_left_iff, List.forall₂_map_right_iff, List.forall₂_same]
      exact fun field hfield => slotOf_of_rearranges hnames h hcheck hcheck' hfield
    rw [hcheck] at hok
    rw [hcheck']
    dsimp only at hok ⊢
    cases hbuild : r.build source (r.fields.map fun field => slotOf field (Members.ofTrees ms)) with
    | error e =>
      rw [hbuild] at hok
      cases hok
    | ok built =>
      obtain ⟨more', hbuild', _⟩ := htolerant.build hslots hbuild
      rw [hbuild] at hok
      rw [hbuild', ← hok]
      rfl

end Rearranged

end Record

/-! ### Arrays -/

/-- Arrays with as many items, each of which is decoded as the one in its place. -/
def ItemsVary (decode : Decoder α) (r r' : Reading) : Prop :=
  ∃ items items', r = .array (Items.ofTrees items) ∧ r' = .array (Items.ofTrees items') ∧
    List.Forall₂ (fun item item' => ∀ source a, decode source item = .ok a →
      decode source item' = .ok a) items items'

/-- Items that decode alike one by one decode to one list. -/
theorem listItems_of_forall₂ {decode : Decoder α} {source : Source} {items items' : List Reading}
    (h : List.Forall₂ (fun item item' => ∀ source a, decode source item = .ok a →
      decode source item' = .ok a) items items') {as : List α}
    (hok : Decoder.listItems decode source (Items.ofTrees items) = .ok as) :
    Decoder.listItems decode source (Items.ofTrees items') = .ok as := by
  induction h generalizing as with
  | nil => exact hok
  | @cons item item' items items' hfirst _ ih =>
    rw [Items.ofTrees, Decoder.listItems] at hok ⊢
    split at hok
    · cases hok
    · rename_i a ha
      rw [hfirst source a ha]
      cases hrest : Decoder.listItems decode source (Items.ofTrees items) with
      | error e =>
        rw [hrest] at hok
        cases hok
      | ok rest =>
        rw [hrest] at hok
        rw [ih hrest]
        exact hok

/-- A list tolerates what its items do. -/
theorem tolerates_list (decode : Decoder α) :
    Decoder.Tolerates (ItemsVary decode) (.list decode) := by
  rintro source r r' as ⟨items, items', rfl, rfl, hitems⟩ hok
  exact listItems_of_forall₂ hitems hok

/-! ### Texts of objects -/

/-- A member as JSON has it. -/
structure Member.WellFormed (m : Member) : Prop where
  proper : m.Proper
  value : IsValue m.content.value

/-- A member whose name spells a text that is none of these. -/
structure Member.Surplus (names : List String) (m : Member) : Prop where
  wellFormed : m.WellFormed
  name : ∃ chars, Spells m.name chars ∧ String.ofList chars ∉ names

/-- A member is kept: between its parts may be other blanks, and its value may vary, as its name
allows. -/
structure Member.Keeps (Varies : List Char → List Char → List Char → Prop) (m k : Member) : Prop where
  proper : k.Proper
  name : k.name = m.name
  value : k.content.value = m.content.value ∨ Varies m.name m.content.value k.content.value

/-- The text of an object with the members of another in any order, and any members of other names
between them. -/
def ObjectRearranged (names : List String) (Varies : List Char → List Char → List Char → Prop)
    (cs cs' : List Char) : Prop :=
  ∃ ms kept added ms', cs = objectChars ms ∧ cs' = objectChars ms' ∧ (∀ m ∈ ms, m.WellFormed) ∧
    List.Forall₂ (Member.Keeps Varies) ms kept ∧ (∀ m ∈ added, m.Surplus names) ∧
    ms'.Perm (kept ++ added)

section Objects

variable {names : List String} {Varies : List Char → List Char → List Char → Prop}
  {ms kept added ms' : List Member} {cs cs' : List Char}

/-- A member whose value varies stays well formed. -/
theorem Member.Keeps.wellFormed {m k : Member} (h : m.Keeps Varies k)
    (hvaries : ∀ {name v v'}, Varies name v v' → IsValue v') (hm : m.WellFormed) : k.WellFormed := by
  refine ⟨h.proper, ?_⟩
  rcases h.value with hsame | hvalue
  · rw [hsame]
    exact hm.value
  · exact hvaries hvalue

/-- So do all members of a rearranged object. -/
theorem wellFormed_of_perm (hvaries : ∀ {name v v'}, Varies name v v' → IsValue v')
    (hms : ∀ m ∈ ms, m.WellFormed) (hkept : List.Forall₂ (Member.Keeps Varies) ms kept)
    (hadded : ∀ m ∈ added, m.Surplus names) (hperm : ms'.Perm (kept ++ added)) :
    ∀ m ∈ ms', m.WellFormed := by
  intro m hm
  rcases List.mem_append.mp (hperm.mem_iff.mp hm) with hmem | hmem
  · obtain ⟨original, horiginal, hkeeps⟩ := exists_of_forall₂ hkept.flip hmem
    exact Member.Keeps.wellFormed hkeeps hvaries (hms original horiginal)
  · exact (hadded m hmem).wellFormed

/-- Well-formed members make an object. -/
theorem isValue_objectChars (h : ∀ m ∈ ms, m.WellFormed) : IsValue (objectChars ms) :=
  .object (fun m hm => (h m hm).proper) fun m hm => (h m hm).value

/-- The text of a rearranged object is one of an object. -/
theorem ObjectRearranged.isValue (hvaries : ∀ {name v v'}, Varies name v v' → IsValue v')
    (h : ObjectRearranged names Varies cs cs') : IsValue cs ∧ IsValue cs' := by
  obtain ⟨ms, kept, added, ms', rfl, rfl, hms, hkept, hadded, hperm⟩ := h
  exact ⟨isValue_objectChars hms,
    isValue_objectChars (wellFormed_of_perm hvaries hms hkept hadded hperm)⟩

/-- A member whose name is none of those of the fields is passed over. -/
theorem Member.Surplus.tree {fields : List Field} {m : Member}
    (h : m.Surplus (fields.flatMap Field.names)) (depth : Nat) :
    Record.Surplus fields (textOf m.name, treeOf depth m.content.value) := by
  obtain ⟨chars, hspells, hnot⟩ := h.name
  refine ⟨_, hspells.textOf, ?_, h.wellFormed.value.skip_treeOf depth⟩
  rw [Record.find?, List.find?_eq_none]
  intro field hfield hmem
  exact hnot (List.mem_flatMap.mpr ⟨field, hfield, by simpa using hmem⟩)

/-- The trees of the members of a rearranged object are rearranged. -/
theorem ObjectRearranged.trees {fields : List Field} {depth : Nat}
    (hvaries : ∀ {name v v'}, Varies name v v' → IsValue v' ∧
      (∃ chars, Spells name chars ∧ String.ofList chars ∈ fields.flatMap Field.names) ∧
      R (treeOf (depth + 1) v) (treeOf (depth + 1) v'))
    (h : ObjectRearranged (fields.flatMap Field.names) Varies cs cs') :
    ∃ trees trees', treeOf depth cs = .atDepth (depth + 1) (.object (Members.ofTrees trees)) ∧
      treeOf depth cs' = .atDepth (depth + 1) (.object (Members.ofTrees trees')) ∧
      Record.Rearranges fields R trees trees' := by
  obtain ⟨ms, kept, added, ms', rfl, rfl, hms, hkept, hadded, hperm⟩ := h
  have hms' := wellFormed_of_perm (fun hv => (hvaries hv).1) hms hkept hadded hperm
  refine ⟨_, _, treeOf_objectChars (fun m hm => (hms m hm).proper) (fun m hm => (hms m hm).value) depth,
    treeOf_objectChars (fun m hm => (hms' m hm).proper) (fun m hm => (hms' m hm).value) depth,
    memberTrees (depth + 1) kept, memberTrees (depth + 1) added, ?_, ?_, ?_⟩
  · rw [memberTrees, memberTrees, List.forall₂_map_left_iff, List.forall₂_map_right_iff]
    refine hkept.imp fun m k hkeeps => ⟨by rw [hkeeps.name], ?_⟩
    rcases hkeeps.value with hsame | hvalue
    · exact .inl (by rw [hsame])
    · obtain ⟨_, ⟨chars, hspells, hmem⟩, hrelated⟩ := hvaries hvalue
      refine .inr ⟨?_, hrelated⟩
      obtain ⟨field, hfield, hname⟩ := List.mem_flatMap.mp hmem
      have hfound : (Record.find? fields (String.ofList chars)).isSome :=
        List.find?_isSome.mpr ⟨field, hfield, by simpa using hname⟩
      simpa [Record.givenField?, hspells.textOf] using hfound
  · rw [memberTrees, memberTrees, memberTrees, ← List.map_append]
    exact hperm.map _
  · intro tree htree
    obtain ⟨m, hm, rfl⟩ := List.mem_map.mp htree
    exact (hadded m hm).tree (depth + 1)

/-- **Objects.** A rearranged object is decoded as the record that the object is decoded as, at
whatever depth they stand. -/
theorem Record.Tolerant.decoder_treeOf {r : Record α} (htolerant : r.Tolerant R)
    (hnames : (r.fields.flatMap Field.names).Nodup) {depth : Nat}
    (hvaries : ∀ {name v v'}, Varies name v v' → IsValue v' ∧
      (∃ chars, Spells name chars ∧ String.ofList chars ∈ r.fields.flatMap Field.names) ∧
      R (treeOf (depth + 1) v) (treeOf (depth + 1) v'))
    (h : ObjectRearranged (r.fields.flatMap Field.names) Varies cs cs') {source : Source} {a : α}
    (hok : r.decoder source (treeOf depth cs) = .ok a) :
    r.decoder source (treeOf depth cs') = .ok a := by
  obtain ⟨trees, trees', htree, htree', hrearranged⟩ := h.trees hvaries
  rw [htree, Reading.atDepth] at hok
  rw [htree', Reading.atDepth]
  split at hok
  · rename_i hdepth
    rw [if_pos hdepth]
    exact decoder_of_rearranges htolerant hnames hrearranged hok
  · cases hok

end Objects

/-- **Documents.** A text that is one value between blanks is decoded as the tree of the value. -/
theorem decodeText_document (decode : Decoder α) {document : Spaced} (hproper : document.Proper)
    (hvalue : IsValue document.value) :
    decodeText decode (String.ofList document.chars) = decode .text (treeOf 0 document.value) := by
  rw [decodeText, read_document hproper hvalue]
  dsimp only
  split
  · rename_i e he
    rw [he]
  · rename_i hfault
    cases hfault
  · rename_i a ha _
    rw [ha]

/-- Without blanks around it, a value is its own text. -/
theorem Spaced.chars_bare (cs : List Char) : Spaced.chars ⟨[], cs, []⟩ = cs := by
  rw [Spaced.chars, List.nil_append, List.append_nil]

/-- There need not be blanks around the value. -/
theorem decodeText_value (decode : Decoder α) {cs : List Char} (h : IsValue cs) :
    decodeText decode (String.ofList cs) = decode .text (treeOf 0 cs) := by
  have hproper : Spaced.Proper ⟨[], cs, []⟩ := ⟨blank_nil, blank_nil⟩
  have hread := decodeText_document decode hproper h
  rw [Spaced.chars_bare] at hread
  exact hread

end DropRoom.Json
