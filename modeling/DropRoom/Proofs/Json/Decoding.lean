import DropRoom.Proofs.Json.Members
import DropRoom.Proofs.Json.RoundTrip

namespace DropRoom.Json

/-!
# Documents are decoded as they are written

A decoder gives back what a value was written for, wherever the value comes from.

* `Reads` — a decoder reads a value as something;
* `Reads.list`, `Reads.optional`, `reads_uint64` and the like — the decoders of lists, of what may be
  missing, of numbers and texts;
* `Record.Fits` — the members of an object are the fields of a record, in their order;
* `Record.Fits.reads_of_perm` — such an object is decoded as the record, in whatever order;
* `reads_tagged` — an object with a tag is decoded as the variant of the tag;
* `parse_render` — the text of a value is that value;
* `decodeText_of_parse` — a text of a value is decoded as what the value was written for;
* `decodeText_render` — so is the text that is written of it.
-/

variable {α β : Type}

/-- A decoder reads a value as something, wherever the value comes from. -/
def Reads (decode : Decoder α) (j : Json) (a : α) : Prop :=
  ∀ source, decode source (Reading.ofJson j) = .ok a

/-! ### Texts, truth values and numbers -/

/-- A text is read back as it is. -/
theorem reads_string (s : String) : Reads .string (.string s) s :=
  fun _ => rfl

/-- So is a truth value. -/
theorem reads_bool (b : Bool) : Reads .bool (.bool b) b :=
  fun _ => rfl

/-- So is a natural number within its bound. -/
theorem reads_natBelow {n bound : Nat} (h : n < bound) : Reads (.natBelow bound) (.nat n) n := by
  intro source
  have hrange : (0 : Int) ≤ n ∧ (n : Int) ≤ bound - 1 := by omega
  show (if (0 : Int) ≤ n ∧ (n : Int) ≤ bound - 1 then Except.ok (n : Int)
    else Except.error (Reading.number (.integer n)).reject).map Int.toNat = .ok n
  rw [if_pos hrange]
  rfl

theorem reads_uint8 (n : UInt8) : Reads .uint8 (.nat n.toNat) n := by
  intro source
  rw [Decoder.uint8, reads_natBelow n.toNat_lt source, Except.map, UInt8.ofNat_toNat]

theorem reads_uint32 (n : UInt32) : Reads .uint32 (.nat n.toNat) n := by
  intro source
  rw [Decoder.uint32, reads_natBelow n.toNat_lt source, Except.map, UInt32.ofNat_toNat]

theorem reads_uint64 (n : UInt64) : Reads .uint64 (.nat n.toNat) n := by
  intro source
  rw [Decoder.uint64, reads_natBelow n.toNat_lt source, Except.map, UInt64.ofNat_toNat]

/-- A text that is one of a table of names. -/
theorem reads_name {table : List (String × α)} {name : String} {a : α}
    (h : Decoder.lookup table name = .ok a) : Reads (.name table) (.string name) a :=
  fun _ => h

/-! ### Lists, missing values and conversions -/

/-- What is read may be looked at further. -/
theorem Reads.bind {decode : Decoder α} {j : Json} {a : α} (h : Reads decode j a)
    {next : α → Except DecodeError β} {b : β} (hnext : next a = .ok b) :
    Reads (.bind decode next) j b := by
  intro source
  rw [Decoder.bind, h source]
  exact hnext

/-- What is read may be made into something else. -/
theorem Reads.map {decode : Decoder α} {j : Json} {a : α} (h : Reads decode j a) (f : α → β) :
    Reads (.map f decode) j (f a) := by
  intro source
  rw [Decoder.map, h source, Except.map]

/-- Only the null reads as a null. -/
theorem eq_null_of_ofJson {j : Json} (h : Reading.ofJson j = .null) : j = .null := by
  cases j with
  | null => rfl
  | _ => cases h

/-- What may be missing is read back, if what is there is never written as a null. -/
theorem Reads.optional {decode : Decoder α} {write : α → Json} (h : ∀ a, Reads decode (write a) a)
    (hnull : ∀ a, write a ≠ .null) (o : Option α) :
    Reads (.nullable decode) (.optional write o) o := by
  intro source
  cases o with
  | none => rfl
  | some a =>
    have hdecode := h a source
    show Decoder.nullable decode source (Reading.ofJson (write a)) = _
    rw [Decoder.nullable, hdecode, Except.map]
    intro hread
    exact hnull a (eq_null_of_ofJson hread)

/-- The items of an array are read one by one. -/
theorem Reads.list_map {decode : Decoder β} {write : α → Json} {read : α → β}
    (h : ∀ a, Reads decode (write a) (read a)) (as : List α) :
    Reads (.list decode) (.array (as.map write)) (as.map read) := by
  intro source
  show Decoder.listItems decode source (Items.ofList (as.map write)) = _
  induction as with
  | nil => rfl
  | cons a as ih =>
    rw [List.map_cons, Items.ofList, Decoder.listItems, h a source]
    simp only [ih, Except.map, List.map_cons]

/-- A list is read back where its items are. -/
theorem Reads.list {decode : Decoder α} {write : α → Json} (h : ∀ a, Reads decode (write a) a)
    (as : List α) : Reads (.list decode) (.array (as.map write)) as := by
  have hlist := Reads.list_map (fun a => h a) as
  rwa [List.map_id'] at hlist

/-! ### Records -/

namespace Record

/-- The members of an object are the fields of a record in their order, and the record is built of
their values. -/
structure Fits (r : Record α) (ms : List (String × Json)) (a : α) : Prop where
  fields : List.Forall₂ (fun field m => field.names = [m.1] ∧
    ∀ source, field.check source (Reading.ofJson m.2) = .ok ()) r.fields ms
  build : ∀ source more, r.build source
    (ms.map (fun m => .given (Reading.ofJson m.2)) ++ more) = .ok (a, more)

/-- A record without fields takes no members. -/
theorem fits_start (a : α) : Fits (.start a) [] a where
  fields := .nil
  build _ _ := rfl

variable {r : Record (β → α)} {ms : List (String × Json)} {f : β → α} {name : String} {j : Json}
  {b : β} {decode : Decoder β}

/-- One field more, of the next member. -/
theorem Fits.field (h : Fits r ms f) {check : Source → Reading → Except DecodeError Unit}
    {take : Source → Slot → Except DecodeError β}
    (hcheck : ∀ source, check source (Reading.ofJson j) = .ok ())
    (htake : ∀ source, take source (.given (Reading.ofJson j)) = .ok b) :
    Fits (r.field [name] check take) (ms ++ [(name, j)]) (f b) where
  fields := List.rel_append h.fields (.cons ⟨rfl, hcheck⟩ .nil)
  build source more := by
    rw [List.map_append, List.append_assoc, List.map_singleton, List.singleton_append]
    simp only [Record.field, h.build, htake source, Except.map]

/-- What is decoded passes the check of its field. -/
theorem checkOf_ok (h : Reads decode j b) (source : Source) :
    checkOf decode source (Reading.ofJson j) = .ok () := by
  rw [checkOf, h source, Except.map]

/-- A required field takes one member more. -/
theorem Fits.required (h : Fits r ms f) (hread : Reads decode j b) :
    Fits (r.required name decode) (ms ++ [(name, j)]) (f b) :=
  h.field (checkOf_ok hread) hread

/-- So does a field with a default. -/
theorem Fits.defaulted (h : Fits r ms f) {default : β} (hread : Reads decode j b) :
    Fits (r.defaulted name decode default) (ms ++ [(name, j)]) (f b) :=
  h.field (checkOf_ok hread) hread

/-- So does a field that may be null. -/
theorem Fits.nullable {r : Record (Option β → α)} {f : Option β → α} (h : Fits r ms f)
    {b : Option β} (hread : Reads (.nullable decode) j b) :
    Fits (r.nullable name decode) (ms ++ [(name, j)]) (f b) :=
  h.field (checkOf_ok hread) hread

/-- Where fields stand for members one by one, they have their names. -/
theorem flatMap_names {P : Field → String × Json → Prop} {fields : List Field}
    (h : List.Forall₂ (fun field m => field.names = [m.1] ∧ P field m) fields ms) :
    fields.flatMap Field.names = ms.map (·.1) := by
  induction h with
  | nil => rfl
  | cons hfield _ ih =>
    rw [List.flatMap_cons, hfield.1, ih]
    rfl

/-- Members that are the fields of a record pass its check, in whatever order. -/
theorem Fits.checkMembers {r : Record α} {ms' : List (String × Json)} {a : α} (h : Fits r ms a)
    (hnames : (ms.map (·.1)).Nodup) (hperm : ms'.Perm ms) (source : Source) :
    (ms'.map fun m => (Text.plain m.1, Reading.ofJson m.2)).filterMap (givenField? r.fields) =
        ms'.map (·.1) ∧
      checkMembers r.fields source [] (Members.ofList ms') = .ok () := by
  have hfields : (r.fields.flatMap Field.names).Nodup := by
    rw [flatMap_names h.fields]
    exact hnames
  -- the field of a member is found by the name of the member
  have hfound (m : String × Json) (hm : m ∈ ms') : ∃ field, find? r.fields m.1 = some field ∧
      field.name = m.1 ∧ ∀ source, field.check source (Reading.ofJson m.2) = .ok () := by
    obtain ⟨field, hfield, hname, hcheck⟩ := exists_of_forall₂ h.fields.flip (hperm.mem_iff.mp hm)
    have hmem : m.1 ∈ field.names := by
      rw [hname]
      exact List.mem_singleton_self _
    exact ⟨field, find?_of_mem hfields hfield hmem, by rw [Field.name, hname]; rfl, hcheck⟩
  have hgiven : (ms'.map fun m => (Text.plain m.1, Reading.ofJson m.2)).filterMap
      (givenField? r.fields) = ms'.map (·.1) := by
    rw [List.filterMap_map, ← List.filterMap_eq_map]
    refine List.filterMap_congr fun m hm => ?_
    obtain ⟨field, hfind, hname, _⟩ := hfound m hm
    simp [givenField?, hfind, hname]
  refine ⟨hgiven, ?_⟩
  rw [← ofTrees_members]
  refine checkMembers_ofTrees_iff.mpr ⟨fun tree htree => ?_, ?_, fun _ _ => List.not_mem_nil⟩
  · obtain ⟨m, hm, rfl⟩ := List.mem_map.mp htree
    obtain ⟨field, hfind, _, hcheck⟩ := hfound m hm
    refine ⟨m.1, rfl, ?_⟩
    rw [hfind]
    exact hcheck source
  · rw [hgiven]
    exact (hperm.map _).nodup_iff.mpr hnames

/-- **Records.** An object whose members are the fields of a record, in any order, is decoded as the
record. -/
theorem Fits.reads_of_perm {r : Record α} {ms' : List (String × Json)} {a : α} (h : Fits r ms a)
    (hnames : (ms.map (·.1)).Nodup) (hperm : ms'.Perm ms) : Reads r.decoder (.object ms') a := by
  intro source
  have hfields : (r.fields.flatMap Field.names).Nodup := by
    rw [flatMap_names h.fields]
    exact hnames
  obtain ⟨hgiven, hcheck⟩ := h.checkMembers hnames hperm source
  have hnodup : ((ms'.map fun m => (Text.plain m.1, Reading.ofJson m.2)).filterMap
      (givenField? r.fields)).Nodup := by
    rw [hgiven]
    exact (hperm.map _).nodup_iff.mpr hnames
  have hplain (tree : Text × Reading)
      (htree : tree ∈ ms'.map fun m => (Text.plain m.1, Reading.ofJson m.2)) :
      ∃ name, tree.1 = .plain name := by
    obtain ⟨m, _, rfl⟩ := List.mem_map.mp htree
    exact ⟨m.1, rfl⟩
  -- each field finds its own member, so the order of the members is lost in the slots
  have hslots : (r.fields.map fun field => slotOf field (Members.ofList ms')) =
      ms.map fun m => .given (Reading.ofJson m.2) := by
    refine map_eq_map_of_forall₂ h.fields fun field hfield m hm hname => ?_
    have hgives : Gives field (.plain m.1, Reading.ofJson m.2) :=
      ⟨m.1, rfl, by rw [hname.1]; exact List.mem_singleton_self _⟩
    rw [← ofTrees_members]
    exact slotOf_of_gives hfields hfield hplain hnodup
      (List.mem_map_of_mem (hperm.mem_iff.mpr hm)) hgives
  have hbuild := h.build source []
  rw [List.append_nil] at hbuild
  show decoder r source (.object (Members.ofList ms')) = _
  rw [decoder]
  simp only [hcheck, hslots, hbuild, Except.map]

/-- A record whose fields stand for the members of an object decodes it. -/
theorem Fits.reads {r : Record α} {ms : List (String × Json)} {a : α} (h : Fits r ms a)
    (hnames : (ms.map (·.1)).Nodup) : Reads r.decoder (.object ms) a :=
  h.reads_of_perm hnames (.refl ms)

end Record

/-! ### Values that are held back -/

mutual

/-- Whether all numbers of a value are within the range of a double. -/
def finite : Json → Bool
  | .number n => !n.overflows
  | .array items => itemsFinite items
  | .object members => membersFinite members
  | _ => true

/-- Whether all numbers of the items of an array are. -/
def itemsFinite : List Json → Bool
  | [] => true
  | item :: items => finite item && itemsFinite items

/-- Whether all numbers of the members of an object are. -/
def membersFinite : List (String × Json) → Bool
  | [] => true
  | (_, value) :: members => finite value && membersFinite members

end

mutual

/-- A value whose numbers are finite can be held back. -/
theorem complete_ofJson : (j : Json) → finite j = true → (Reading.ofJson j).complete = .ok j
  | .null, _ => rfl
  | .bool _, _ => rfl
  | .number n, h => by
    have hrange : n.overflows = false := by simpa [finite] using h
    rw [Reading.ofJson, Reading.complete, hrange]
    rfl
  | .string _, _ => rfl
  | .array items, h => by
    rw [Reading.ofJson, Reading.complete, completeItems_ofList items h]
    rfl
  | .object members, h => by
    rw [Reading.ofJson, Reading.complete, completeMembers_ofList members h]
    rfl

theorem completeItems_ofList : (js : List Json) → itemsFinite js = true →
    (Items.ofList js).complete = .ok js
  | [], _ => rfl
  | item :: items, h => by
    obtain ⟨hitem, hitems⟩ := Bool.and_eq_true_iff.mp h
    rw [Items.ofList, Items.complete, complete_ofJson item hitem, completeItems_ofList items hitems]
    rfl

theorem completeMembers_ofList : (ms : List (String × Json)) → membersFinite ms = true →
    (Members.ofList ms).complete = .ok ms
  | [], _ => rfl
  | (name, value) :: members, h => by
    obtain ⟨hvalue, hmembers⟩ := Bool.and_eq_true_iff.mp h
    rw [Members.ofList, Members.complete, complete_ofJson value hvalue,
      completeMembers_ofList members hmembers]
    rfl

end

/-- An unsigned number of 64 bits is within the range of a double. -/
theorem finite_nat {n : Nat} (h : n < UInt64.size) : finite (.nat n) = true := by
  have hlimit : UInt64.size ≤ doubleLimit := by decide +kernel
  have hrange : ¬ doubleLimit ≤ n := by omega
  simp [finite, nat, Numeral.overflows, hrange]

/-- Items that are written with finite numbers are finite together. -/
theorem itemsFinite_map {write : α → Json} (h : ∀ a, finite (write a) = true) (as : List α) :
    itemsFinite (as.map write) = true := by
  induction as with
  | nil => rfl
  | cons a as ih => rw [List.map_cons, itemsFinite, h a, ih]; rfl

/-- What may be missing is finite if what is there is. -/
theorem finite_optional {write : α → Json} (h : ∀ a, finite (write a) = true) (o : Option α) :
    finite (.optional write o) = true := by
  cases o with
  | none => rfl
  | some a => exact h a

/-! ### Variants -/

/-- An object without the tag is held back as a whole. -/
theorem splitTag_ofList {tag : String} (variants : List (String × Decoder α)) (source : Source)
    (found : Option (Decoder α)) {ms : List (String × Json)} (htag : ∀ m ∈ ms, m.1 ≠ tag)
    (hfinite : membersFinite ms = true) :
    splitTag tag variants source found (Members.ofList ms) = .ok (found, ms) := by
  induction ms with
  | nil => rfl
  | cons m ms ih =>
    obtain ⟨hvalue, hmembers⟩ := Bool.and_eq_true_iff.mp hfinite
    have hrest := ih (fun other hother => htag other (List.mem_cons_of_mem _ hother)) hmembers
    rw [Members.ofList]
    unfold splitTag
    simp only [Text.read, if_neg (htag m List.mem_cons_self), complete_ofJson m.2 hvalue, hrest]

/-- What stands beside a tag can be held back if the whole can. -/
theorem finite_of_tagged {tag name : String} {ms : List (String × Json)}
    (h : finite (.object ((tag, .string name) :: ms)) = true) : finite (.object ms) = true := by
  rw [finite, membersFinite, Bool.and_eq_true] at h
  rw [finite]
  exact h.2

/-- **Variants.** An object that starts with a tag is decoded as the variant of the tag. -/
theorem reads_tagged {tag name : String} {variants : List (String × Decoder α)} {variant : Decoder α}
    {ms : List (String × Json)} {a : α} (hvariant : Decoder.lookup variants name = .ok variant)
    (htag : ∀ m ∈ ms, m.1 ≠ tag) (hfinite : finite (.object ms) = true)
    (h : Reads variant (.object ms) a) :
    Reads (tagged tag variants) (.object ((tag, .string name) :: ms)) a := by
  intro source
  -- a tag that is a text means the same wherever it comes from
  have hnamed : variantOf variants source (Reading.ofJson (.string name)) = .ok variant := by
    cases source with
    | text => exact hvariant
    | value => exact hvariant
    | held => exact hvariant
  show tagged tag variants source
    (.object (.cons (.plain tag) (Reading.ofJson (.string name)) (Members.ofList ms))) = _
  rw [tagged, splitTag]
  simp only [Text.read, if_true, hnamed, splitTag_ofList variants source _ htag hfinite, h .held]

/-! ### Texts of documents -/

mutual

/-- A tree that is complete is that of its value. -/
theorem eq_ofJson_of_complete : (r : Reading) → (j : Json) → r.complete = .ok j → r = .ofJson j
  | .null, _, h => by
    obtain rfl := Except.ok.inj h
    rfl
  | .bool _, _, h => by
    obtain rfl := Except.ok.inj h
    rfl
  | .number n, _, h => by
    rw [Reading.complete] at h
    split at h
    · cases h
    · obtain rfl := Except.ok.inj h
      rfl
  | .text (.plain _), _, h => by
    obtain rfl := Except.ok.inj h
    rfl
  | .text (.unpaired _), _, h => by cases h
  | .array items, j, h => by
    rw [Reading.complete] at h
    cases hitems : items.complete with
    | error f =>
      rw [hitems] at h
      cases h
    | ok js =>
      rw [hitems] at h
      obtain rfl := Except.ok.inj h
      rw [eq_ofList_of_completeItems items js hitems]
      rfl
  | .object members, j, h => by
    rw [Reading.complete] at h
    cases hmembers : members.complete with
    | error f =>
      rw [hmembers] at h
      cases h
    | ok ms =>
      rw [hmembers] at h
      obtain rfl := Except.ok.inj h
      rw [eq_ofList_of_completeMembers members ms hmembers]
      rfl
  | .deep _, _, h => by cases h
  | .broken _, _, h => by cases h

/-- Items that are read as a list were that list. -/
theorem eq_ofList_of_completeItems : (items : Items) → (js : List Json) → items.complete = .ok js →
    items = .ofList js
  | .close, _, h => by
    obtain rfl := Except.ok.inj h
    rfl
  | .broken _, _, h => by cases h
  | .cons item rest, js, h => by
    rw [Items.complete] at h
    cases hitem : item.complete with
    | error f =>
      rw [hitem] at h
      cases h
    | ok j =>
      cases hrest : rest.complete with
      | error f =>
        rw [hitem, hrest] at h
        cases h
      | ok more =>
        rw [hitem, hrest] at h
        obtain rfl := Except.ok.inj h
        rw [eq_ofJson_of_complete item j hitem, eq_ofList_of_completeItems rest more hrest]
        rfl

/-- Members that are read as a list were that list. -/
theorem eq_ofList_of_completeMembers : (members : Members) → (ms : List (String × Json)) →
    members.complete = .ok ms → members = .ofList ms
  | .close, _, h => by
    obtain rfl := Except.ok.inj h
    rfl
  | .broken _, _, h => by cases h
  | .cons (.unpaired _) _ _, _, h => by cases h
  | .cons (.plain name) value rest, ms, h => by
    rw [Members.complete] at h
    cases hvalue : value.complete with
    | error f =>
      rw [hvalue] at h
      cases h
    | ok j =>
      cases hrest : rest.complete with
      | error f =>
        rw [hvalue, hrest] at h
        cases h
      | ok more =>
        rw [hvalue, hrest] at h
        obtain rfl := Except.ok.inj h
        rw [eq_ofJson_of_complete value j hvalue, eq_ofList_of_completeMembers rest more hrest]
        rfl

end

/-- A text that is a value is decoded as the value is, however it is written. -/
theorem decodeText_of_parse {decode : Decoder α} {text : String} {j : Json} {a : α}
    (hparse : parse text = .ok j) (h : Reads decode j a) : decodeText decode text = .ok a := by
  rw [parse] at hparse
  split at hparse
  rename_i tree trailing hread
  split at hparse
  · cases hparse
  · cases hparse
  · rename_i value hcomplete
    obtain rfl := Except.ok.inj hparse
    rw [decodeText, hread, eq_ofJson_of_complete tree value hcomplete]
    simp only [h .text]

/-- The text of a value is that value and nothing else, where it is not nested too deeply and its
numbers are within the range of a double. -/
theorem parse_render {j : Json} (hnesting : nesting j < depthLimit) (hfinite : finite j = true) :
    parse (render j) = .ok j := by
  rw [parse, read_render hnesting]
  simp only [complete_ofJson j hfinite]

/-- **Documents.** The text of a value that is not nested too deeply is decoded as the value is. -/
theorem decodeText_render {decode : Decoder α} {j : Json} {a : α} (h : Reads decode j a)
    (hnesting : nesting j < depthLimit) : decodeText decode (render j) = .ok a := by
  rw [decodeText, read_render hnesting]
  simp only [h .text]

/-- Items are nested as deeply as the deepest of them. -/
theorem itemsNesting_map_le {write : α → Json} {most : Nat} (h : ∀ a, nesting (write a) ≤ most)
    (as : List α) : itemsNesting (as.map write) ≤ most := by
  induction as with
  | nil => exact Nat.zero_le _
  | cons a as ih =>
    rw [List.map_cons, itemsNesting]
    exact Nat.max_le.mpr ⟨h a, ih⟩

end DropRoom.Json
