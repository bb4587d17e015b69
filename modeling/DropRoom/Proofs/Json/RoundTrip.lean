import DropRoom.Json.Printer
import DropRoom.Proofs.Json.Trees

namespace DropRoom.Json

/-!
# Values are read as they are written

A value that is not nested too deeply is read back from its text as the tree of that value, with
nothing left over.

* `nesting` — how many containers of a value are nested;
* `spells_flatMap_escaped` — a text is spelled by its escapes;
* `chars_number` — a number is written in parts that denote it;
* `chars_array`, `chars_object` — containers are written without blanks;
* `stands_chars` — every value is read back;
* `read_render` — the whole text of a value is the tree of the value.
-/

open DropRoom.Text

/-! ### Nesting -/

mutual

/-- How many containers of a value are nested. -/
def nesting : Json → Nat
  | .array items => itemsNesting items + 1
  | .object members => membersNesting members + 1
  | _ => 0

/-- The greatest nesting of the items of an array. -/
def itemsNesting : List Json → Nat
  | [] => 0
  | item :: items => max (nesting item) (itemsNesting items)

/-- The greatest nesting of the members of an object. -/
def membersNesting : List (String × Json) → Nat
  | [] => 0
  | (_, value) :: members => max (nesting value) (membersNesting members)

end

/-! ### Texts -/

/-- A control character is read back from its four digits. -/
theorem hex4?_of_control {c : Char} (h : c.toNat < 32) :
    hex4? '0' '0' (hexDigitLower (c.toNat / 16)) (hexDigitLower (c.toNat % 16)) = some c.toNat := by
  have hzero : hexValue? '0' = some 0 := rfl
  rw [hex4?, hzero, hexValue?_hexDigitLower (by omega), hexValue?_hexDigitLower (by omega)]
  show some _ = _
  congr 1
  omega

/-- Whatever is written for a character spells it. -/
theorem Spells.escaped {cs s : List Char} (h : Spells cs s) (c : Char) :
    Spells (escaped c ++ cs) (c :: s) := by
  have hcode {n : Nat} (h : c.toNat = n) : c = Char.ofNat n := by rw [← h, Char.ofNat_toNat]
  rw [Json.escaped]
  -- the branches stand in the order of `Json.escaped`: the short escapes, then a code, else the
  -- character itself
  split
  · rename_i hquote
    rw [hquote]
    exact .short rfl h
  split
  · rename_i hslash
    rw [hslash]
    exact .short rfl h
  split
  · rename_i hfeed
    rw [hfeed]
    exact .short rfl h
  split
  · rename_i hreturn
    rw [hreturn]
    exact .short rfl h
  split
  · rename_i htab
    rw [htab]
    exact .short rfl h
  split
  · rename_i hback
    rw [hcode hback]
    exact .short rfl h
  split
  · rename_i hpage
    rw [hcode hpage]
    exact .short rfl h
  split
  · rename_i hlow
    have hspells := Spells.code (hex4?_of_control hlow) (by omega) h
    rw [Char.ofNat_toNat] at hspells
    exact hspells
  · rename_i hquote hslash _ _ _ _ _ hlow
    exact .plain hquote hslash (by omega) h

/-- An escaped text spells the text. -/
theorem spells_flatMap_escaped (cs : List Char) : Spells (cs.flatMap escaped) cs := by
  induction cs with
  | nil => exact .nil
  | cons c cs ih =>
    rw [List.flatMap_cons]
    exact ih.escaped c

/-- A text between quotes is read as that text. -/
theorem stands_quoted (depth : Nat) (s : String) : Stands depth (quoted s) (.text (.plain s)) := by
  have hspells := spells_flatMap_escaped s.toList
  have hstands := stands_text depth hspells.isText
  rw [hspells.textOf, String.ofList_toList] at hstands
  exact hstands

/-! ### Numbers -/

/-- A natural number is written with digits. -/
theorem isDigits_digitsOf (n : Nat) : IsDigits (digitsOf n) :=
  ⟨digitsOf_ne_nil n, fun _ => isDigit_of_mem_digitsOf⟩

/-- It is written without zeros at the front. -/
theorem isWhole_digitsOf (n : Nat) : IsWhole (digitsOf n) := by
  rcases digitsOf_leading n with hzero | ⟨c, cs, hcs, hc⟩
  · exact .inl hzero
  · refine .inr ⟨isDigits_digitsOf n, fun hhead => hc ?_⟩
    rw [hcs] at hhead
    exact Option.some.inj hhead

/-- An exponent is written with its sign where it is negative. -/
theorem isExponent_integerChars (exponent : Int) :
    IsExponent ('e' :: integerChars exponent) ∧ power? ('e' :: integerChars exponent) = some exponent := by
  have hdigits := isDigits_digitsOf exponent.natAbs
  rw [integerChars]
  split
  · have hvalue : -(exponent.natAbs : Int) = exponent := by omega
    refine ⟨.inr ⟨'e', ['-'], _, rfl, .inl rfl, .inr (.inr rfl), hdigits⟩, ?_⟩
    rw [power?, digitsValue_digitsOf, hvalue]
  · have hvalue : (exponent.natAbs : Int) = exponent := by omega
    refine ⟨.inr ⟨'e', [], _, rfl, .inl rfl, .inl rfl, hdigits⟩, ?_⟩
    obtain ⟨c, cs, hcs, hc⟩ := digitsOf_eq_cons exponent.natAbs
    have hpower : power? ('e' :: c :: cs) = some (digitsValue (c :: cs) : Int) := by
      rw [power?]
      · exact fun _ heq => ne_of_isDigit hc rfl (List.cons.inj heq).1
      · exact fun _ heq => ne_of_isDigit hc rfl (List.cons.inj heq).1
    rw [hcs, hpower, ← hcs, digitsValue_digitsOf, hvalue]

/-- A number is written with a sign where it is negative, its digits, and its exponent if it has one. -/
theorem chars_number (n : Numeral) : ∃ (negative : Bool) (whole exponent : List Char),
    n.chars = (if negative then ['-'] else []) ++ (whole ++ exponent) ∧ IsWhole whole ∧
      IsExponent exponent ∧ numeralOf negative whole [] exponent = n := by
  cases n with
  | integer value =>
    refine ⟨decide (value < 0), digitsOf value.natAbs, [], ?_, isWhole_digitsOf _, .inl rfl, ?_⟩
    · rw [Numeral.chars, integerChars, List.append_nil]
      split
      · rename_i hnegative
        simp [hnegative]
      · rename_i hnegative
        simp [hnegative]
    -- only a zero with a sign would be read as a decimal
    · have hsign : ¬ (decide (value < 0) = true ∧ value.natAbs = 0) := by
        simp only [decide_eq_true_eq]
        omega
      rw [numeralOf, digitsValue_digitsOf, if_pos ⟨rfl, rfl, hsign⟩]
      congr 1
      split
      · rename_i hnegative
        have := of_decide_eq_true hnegative
        omega
      · rename_i hnegative
        have := mt decide_eq_true hnegative
        omega
  | decimal negative coefficient exponent =>
    obtain ⟨hexponent, hpower⟩ := isExponent_integerChars exponent
    refine ⟨negative, digitsOf coefficient, _, ?_, isWhole_digitsOf _, hexponent, ?_⟩
    · rw [Numeral.chars, List.append_assoc]
    · rw [numeralOf, if_neg fun hnone => List.cons_ne_nil _ _ hnone.2.1, hpower, List.tail_nil,
        List.append_nil, digitsValue_digitsOf]
      simp

/-- A numeral is read back as it is. -/
theorem stands_numeral (depth : Nat) (n : Numeral) : Stands depth n.chars (.number n) := by
  obtain ⟨negative, whole, exponent, hchars, hwhole, hexponent, hn⟩ := chars_number n
  rw [hchars]
  refine stands_number depth ⟨_, whole, [], exponent, rfl, ?_, hwhole, .inl rfl, hexponent⟩ ?_
  · cases negative with
    | true => exact .inr rfl
    | false => exact .inl rfl
  · intro rest hrest
    have hscan := scanNumber_append negative hwhole (.inl rfl) hexponent hrest
    rw [hn, List.nil_append] at hscan
    rw [List.append_assoc, List.append_assoc]
    exact hscan

/-! ### Containers -/

/-- An item as it is written, without blanks. -/
def bareItem (j : Json) : Spaced :=
  ⟨[], chars j, []⟩

/-- A member as it is written, without blanks. -/
def bareMember (m : String × Json) : Member :=
  ⟨[], m.1.toList.flatMap escaped, [], bareItem m.2⟩

theorem chars_bareItem (j : Json) : (bareItem j).chars = chars j :=
  List.append_nil _

/-- An item is written without blanks, so these are as they must be. -/
theorem proper_bareItem (j : Json) : (bareItem j).Proper :=
  ⟨blank_nil, blank_nil⟩

theorem chars_bareMember (name : String) (j : Json) :
    (bareMember (name, j)).chars = quoted name ++ ':' :: chars j := by
  simp [Member.chars, bareMember, chars_bareItem, quoted]

/-- So are those of a member. -/
theorem proper_bareMember (m : String × Json) : (bareMember m).Proper :=
  ⟨blank_nil, (spells_flatMap_escaped _).isText, blank_nil, proper_bareItem m.2⟩

/-- The items after the first have commas in front. -/
theorem moreItems_eq (js : List Json) :
    moreItems js = following ']' ((js.map bareItem).map Spaced.chars) := by
  induction js with
  | nil => rfl
  | cons j js ih =>
    rw [List.map_cons, List.map_cons, following, chars_bareItem, ← ih]
    rfl

/-- So have the members. -/
theorem moreMembers_eq (ms : List (String × Json)) :
    moreMembers ms = following '}' ((ms.map bareMember).map Member.chars) := by
  induction ms with
  | nil => rfl
  | cons m ms ih =>
    rw [List.map_cons, List.map_cons, following, chars_bareMember, ← ih]
    rfl

/-- An array is written as the grammar has it. -/
theorem chars_array (js : List Json) : chars (.array js) = arrayChars (js.map bareItem) := by
  cases js with
  | nil => rfl
  | cons j js =>
    rw [arrayChars, List.map_cons, List.map_cons, enclosed, chars_bareItem, ← moreItems_eq]
    rfl

/-- So is an object. -/
theorem chars_object (ms : List (String × Json)) :
    chars (.object ms) = objectChars (ms.map bareMember) := by
  cases ms with
  | nil => rfl
  | cons m ms =>
    rw [objectChars, List.map_cons, List.map_cons, enclosed, chars_bareMember, ← moreMembers_eq]
    rfl

/-- The trees of items are those of the list. -/
theorem ofTrees_ofJson (js : List Json) : Items.ofTrees (js.map Reading.ofJson) = Items.ofList js := by
  induction js with
  | nil => rfl
  | cons j js ih => rw [List.map_cons, Items.ofTrees, ih, Items.ofList]

/-- So are the trees of members. -/
theorem ofTrees_members (ms : List (String × Json)) :
    Members.ofTrees (ms.map fun m => (.plain m.1, Reading.ofJson m.2)) = Members.ofList ms := by
  induction ms with
  | nil => rfl
  | cons m ms ih => rw [List.map_cons, Members.ofTrees, ih, Members.ofList]

/-- An array is read back if its items are. -/
theorem stands_chars_array {depth : Nat} {js : List Json} (hdepth : depth + 1 < depthLimit)
    (h : ∀ j ∈ js, Stands (depth + 1) (chars j) (Reading.ofJson j)) :
    Stands depth (chars (.array js)) (Reading.ofJson (.array js)) := by
  have hstands : ∀ item ∈ js.map bareItem,
      Stands (depth + 1) item.value (treeOf (depth + 1) item.value) := by
    intro item hitem
    obtain ⟨j, hj, rfl⟩ := List.mem_map.mp hitem
    rw [show treeOf (depth + 1) (bareItem j).value = _ from (h j hj).treeOf]
    exact h j hj
  have hproper : ∀ item ∈ js.map bareItem, item.Proper := by
    intro item hitem
    obtain ⟨j, _, rfl⟩ := List.mem_map.mp hitem
    exact proper_bareItem j
  have htrees : (js.map bareItem).map (fun item => treeOf (depth + 1) item.value) =
      js.map Reading.ofJson := by
    rw [List.map_map]
    exact List.map_congr_left fun j hj => (h j hj).treeOf
  have harray := stands_array hproper hstands
  rw [htrees, ofTrees_ofJson, atDepth_of_lt hdepth, ← chars_array] at harray
  exact harray

/-- An object is read back if the values of its members are. -/
theorem stands_chars_object {depth : Nat} {ms : List (String × Json)}
    (hdepth : depth + 1 < depthLimit)
    (h : ∀ m ∈ ms, Stands (depth + 1) (chars m.2) (Reading.ofJson m.2)) :
    Stands depth (chars (.object ms)) (Reading.ofJson (.object ms)) := by
  have hstands : ∀ m ∈ ms.map bareMember,
      Stands (depth + 1) m.content.value (treeOf (depth + 1) m.content.value) := by
    intro member hmember
    obtain ⟨m, hm, rfl⟩ := List.mem_map.mp hmember
    rw [show treeOf (depth + 1) (bareMember m).content.value = _ from (h m hm).treeOf]
    exact h m hm
  have hproper : ∀ m ∈ ms.map bareMember, m.Proper := by
    intro member hmember
    obtain ⟨m, _, rfl⟩ := List.mem_map.mp hmember
    exact proper_bareMember m
  have htrees : (ms.map bareMember).map
      (fun m => (textOf m.name, treeOf (depth + 1) m.content.value)) =
        ms.map fun m => (.plain m.1, Reading.ofJson m.2) := by
    rw [List.map_map]
    refine List.map_congr_left fun m hm => ?_
    have hname : textOf (bareMember m).name = .plain m.1 := by
      rw [← String.ofList_toList (s := m.1)]
      exact (spells_flatMap_escaped m.1.toList).textOf
    exact Prod.ext hname (h m hm).treeOf
  have hobject := stands_object hproper hstands
  rw [htrees, ofTrees_members, atDepth_of_lt hdepth, ← chars_object] at hobject
  exact hobject

/-! ### All values -/

mutual

/-- **Reading back.** Every value that is not nested too deeply is read back from its text. -/
theorem stands_chars : (j : Json) → {depth : Nat} → depth + nesting j < depthLimit →
    Stands depth (chars j) (Reading.ofJson j)
  | .null, depth, _ => stands_null depth
  | .bool true, depth, _ => stands_true depth
  | .bool false, depth, _ => stands_false depth
  | .number n, depth, _ => stands_numeral depth n
  | .string s, depth, _ => stands_quoted depth s
  | .array items, depth, h => by
    rw [nesting] at h
    exact stands_chars_array (by omega) (stands_items items (by omega))
  | .object members, depth, h => by
    rw [nesting] at h
    exact stands_chars_object (by omega) (stands_members members (by omega))

/-- Every item of an array is read back, however deep it is within the limit. -/
theorem stands_items : (js : List Json) → {depth : Nat} → depth + itemsNesting js < depthLimit →
    ∀ j ∈ js, Stands depth (chars j) (Reading.ofJson j)
  | [], _, _ => fun _ h => absurd h List.not_mem_nil
  | item :: items, depth, h => by
    rw [itemsNesting] at h
    exact List.forall_mem_cons.mpr ⟨stands_chars item (by omega), stands_items items (by omega)⟩

/-- So is every member of an object. -/
theorem stands_members : (ms : List (String × Json)) → {depth : Nat} →
    depth + membersNesting ms < depthLimit →
    ∀ m ∈ ms, Stands depth (chars m.2) (Reading.ofJson m.2)
  | [], _, _ => fun _ h => absurd h List.not_mem_nil
  | (_, value) :: members, depth, h => by
    rw [membersNesting] at h
    exact List.forall_mem_cons.mpr ⟨stands_chars value (by omega), stands_members members (by omega)⟩

end

/-- **Documents.** The text of a value that is not nested too deeply is read as the tree of the
value, and nothing follows. -/
theorem read_render {j : Json} (h : nesting j < depthLimit) :
    read (render j) = (Reading.ofJson j, none) := by
  have hstands : Stands 0 (bareItem j).value (Reading.ofJson j) := stands_chars j (by omega)
  have hread := read_of_stands (proper_bareItem j) hstands
  rw [chars_bareItem] at hread
  exact hread

end DropRoom.Json
