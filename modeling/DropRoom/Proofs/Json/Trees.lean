import DropRoom.Proofs.Json.Scanning

namespace DropRoom.Json

/-!
# Every JSON text is read

The reader finds the end of every value, however it is written, and makes a tree of it that does not
depend on what follows.

* `Items.ofTrees`, `Members.ofTrees` — the parts of a container;
* `Stands` — the reader makes a tree of the text of a value;
* `stands_array`, `stands_object` — the trees of containers are those of their parts;
* `treeOf`, `IsValue.stands` — every value has its tree;
* `IsValue.skip_treeOf` — and can be passed over;
* `read_of_stands` — a text that is a value between blanks is read as its tree.
-/

open DropRoom.Text

/-! ### Blanks and steps -/

/-- What is no blank is not skipped. -/
theorem skipSpace_cons {c : Char} (hc : isSpace c = false) (cs : List Char) :
    skipSpace (c :: cs) = c :: cs := by
  rw [skipSpace, List.dropWhile_cons_of_neg (by rw [hc]; exact Bool.false_ne_true)]

/-- Blanks are skipped. -/
theorem skipSpace_append {blanks : List Char} (h : Blank blanks) (rest : List Char) :
    skipSpace (blanks ++ rest) = skipSpace rest :=
  List.dropWhile_append_of_pos h

/-- Blanks before a value make no difference. -/
theorem value_append {blanks : List Char} (h : Blank blanks) (fuel depth : Nat) (rest : List Char) :
    value fuel depth (blanks ++ rest) = value fuel depth rest := by
  cases fuel with
  | zero => rw [value, value]
  | succ fuel => rw [value, value, skipSpace_append h]

/-- Nor do those before an item. -/
theorem items_append {blanks : List Char} (h : Blank blanks) (fuel depth : Nat) (first : Bool)
    (rest : List Char) : items fuel depth first (blanks ++ rest) = items fuel depth first rest := by
  cases fuel with
  | zero => rw [items, items]
  | succ fuel => rw [items, items, skipSpace_append h]

/-- Nor do those before a member. -/
theorem members_append {blanks : List Char} (h : Blank blanks) (fuel depth : Nat) (first : Bool)
    (rest : List Char) :
    members fuel depth first (blanks ++ rest) = members fuel depth first rest := by
  cases fuel with
  | zero => rw [members, members]
  | succ fuel => rw [members, members, skipSpace_append h]

/-- Where a character is left, three steps are left for it. -/
theorem exists_fuel {cs : List Char} {fuel : Nat} (hcs : cs ≠ []) (h : 3 * cs.length ≤ fuel) :
    ∃ less, fuel = less + 3 := by
  have hpos := List.length_pos_iff.mpr hcs
  exact ⟨fuel - 3, by omega⟩

/-- Within the limit a container is what it is. -/
theorem atDepth_of_lt {depth : Nat} (h : depth < depthLimit) (container : Reading) :
    Reading.atDepth depth container = container :=
  if_pos h

/-! ### Values -/

/-- The items of trees. -/
def Items.ofTrees : List Reading → Items
  | [] => .close
  | item :: items => .cons item (Items.ofTrees items)

/-- The members of named trees. -/
def Members.ofTrees : List (Text × Reading) → Members
  | [] => .close
  | (name, value) :: members => .cons name value (Members.ofTrees members)

/-- The reader makes a tree of the text of a value inside `depth` containers, whatever follows it.
Its first character ends neither an array nor the blanks before it. -/
structure Stands (depth : Nat) (cs : List Char) (tree : Reading) : Prop where
  front : ∃ c more, cs = c :: more ∧ isSpace c = false ∧ c ≠ ']'
  read : ∀ {fuel : Nat} {rest : List Char}, 3 * cs.length ≤ fuel → Ends rest →
    value fuel depth (cs ++ rest) = (tree, rest)

/-- The three words are values. -/
theorem stands_null (depth : Nat) : Stands depth ['n', 'u', 'l', 'l'] .null where
  front := ⟨_, _, rfl, rfl, by decide⟩
  read := by
    intro fuel rest hfuel hrest
    obtain ⟨fuel, rfl⟩ := exists_fuel (List.cons_ne_nil _ _) hfuel
    show value (fuel + 3) depth ('n' :: 'u' :: 'l' :: 'l' :: rest) = _
    rw [value]
    rfl

theorem stands_true (depth : Nat) : Stands depth ['t', 'r', 'u', 'e'] (.bool true) where
  front := ⟨_, _, rfl, rfl, by decide⟩
  read := by
    intro fuel rest hfuel hrest
    obtain ⟨fuel, rfl⟩ := exists_fuel (List.cons_ne_nil _ _) hfuel
    show value (fuel + 3) depth ('t' :: 'r' :: 'u' :: 'e' :: rest) = _
    rw [value]
    rfl

theorem stands_false (depth : Nat) : Stands depth ['f', 'a', 'l', 's', 'e'] (.bool false) where
  front := ⟨_, _, rfl, rfl, by decide⟩
  read := by
    intro fuel rest hfuel hrest
    obtain ⟨fuel, rfl⟩ := exists_fuel (List.cons_ne_nil _ _) hfuel
    show value (fuel + 3) depth ('f' :: 'a' :: 'l' :: 's' :: 'e' :: rest) = _
    rw [value]
    rfl

/-- A sign or a digit starts a number, and no other value. -/
theorem value_of_number {c : Char} (hc : c = '-' ∨ isDigit c = true) (fuel depth : Nat)
    {cs rest : List Char} {n : Numeral} (h : scanNumber (c :: cs) = .ok (n, rest)) :
    value (fuel + 1) depth (c :: cs) = (.number n, rest) := by
  have hother {mark : Char} {more : List Char} (heq : c :: cs = mark :: more)
      (hmark : ¬ (mark = '-' ∨ isDigit mark = true)) : False :=
    hmark ((List.cons.inj heq).1 ▸ hc)
  rw [value, skipSpace_cons (isSpace_of_number hc)]
  split
  · rename_i heq
    cases heq
  · rename_i heq
    exact (hother heq (by decide)).elim
  · rename_i heq
    exact (hother heq (by decide)).elim
  · rename_i heq
    exact (hother heq (by decide)).elim
  · rename_i heq
    exact (hother heq (by decide)).elim
  · rename_i heq
    exact (hother heq (by decide)).elim
  · rename_i heq
    exact (hother heq (by decide)).elim
  · rename_i heq
    rw [← (List.cons.inj heq).1, ← (List.cons.inj heq).2, if_pos hc, h]

/-- A number is a value that ends where it can. -/
theorem stands_number (depth : Nat) {cs : List Char} {n : Numeral} (h : IsNumber cs)
    (hscan : ∀ rest, Ends rest → scanNumber (cs ++ rest) = .ok (n, rest)) :
    Stands depth cs (.number n) := by
  obtain ⟨c, more, rfl, hc⟩ := h.front
  refine ⟨⟨c, more, rfl, isSpace_of_number hc, ?_⟩, ?_⟩
  · rintro rfl
    revert hc
    decide
  · intro fuel rest hfuel hrest
    obtain ⟨fuel, rfl⟩ := exists_fuel (List.cons_ne_nil _ _) hfuel
    exact value_of_number hc _ depth (hscan rest hrest)

/-- A text is a value. -/
theorem stands_text (depth : Nat) {cs : List Char} (h : IsText cs) :
    Stands depth ('"' :: (cs ++ ['"'])) (.text (textOf cs)) where
  front := ⟨_, _, rfl, rfl, by decide⟩
  read := by
    intro fuel rest hfuel hrest
    obtain ⟨fuel, rfl⟩ := exists_fuel (List.cons_ne_nil _ _) hfuel
    have hscan := h.scanText rest
    rw [List.cons_append, List.append_assoc, List.singleton_append, value, skipSpace_cons rfl]
    simp only [hscan]

/-! ### Arrays -/

/-- A number may end where items or members go on, or come to their end. -/
theorem ends_following {closing : Char} (hclosing : closing = ']' ∨ closing = '}')
    (texts : List (List Char)) (rest : List Char) : Ends (following closing texts ++ rest) := by
  intro c hc
  cases texts with
  | nil =>
    obtain rfl := Option.some.inj hc
    rcases hclosing with rfl | rfl
    · exact .inr (.inr (.inl rfl))
    · exact .inr (.inr (.inr rfl))
  | cons cs texts => exact .inr (.inl (Option.some.inj hc).symm)

/-- After an item there is at least what closes the list. -/
theorem following_ne_nil (closing : Char) (texts : List (List Char)) :
    following closing texts ≠ [] := by
  cases texts with
  | nil => exact List.cons_ne_nil _ _
  | cons cs texts => exact List.cons_ne_nil _ _

/-- A value is read between its blanks; those after it are left. -/
theorem Stands.spaced {depth : Nat} {item : Spaced} {tree : Reading}
    (h : Stands depth item.value tree) (hproper : item.Proper) (fuel : Nat) {rest : List Char}
    (hfuel : 3 * item.chars.length ≤ fuel) (hrest : Ends rest) :
    value fuel depth (item.chars ++ rest) = (tree, item.after ++ rest) := by
  have hlength : item.value.length ≤ item.chars.length := by
    simp only [Spaced.chars, List.length_append]
    omega
  rw [Spaced.chars, List.append_assoc, List.append_assoc, value_append hproper.before]
  exact h.read (by omega) (hrest.append hproper.after)

variable {depth : Nat} {tree : List Char → Reading}

/-- The rest of an array: every item follows a comma. -/
theorem items_following {elements : List Spaced} (hproper : ∀ item ∈ elements, item.Proper)
    (h : ∀ item ∈ elements, Stands depth item.value (tree item.value)) (fuel : Nat) (rest : List Char)
    (hfuel : 3 * (following ']' (elements.map Spaced.chars)).length ≤ fuel) :
    items fuel depth false (following ']' (elements.map Spaced.chars) ++ rest) =
      (Items.ofTrees (elements.map fun item => tree item.value), rest) := by
  induction elements generalizing fuel with
  | nil =>
    obtain ⟨fuel, rfl⟩ := exists_fuel (List.cons_ne_nil _ _) hfuel
    show items (fuel + 3) depth false (']' :: rest) = _
    rw [items, skipSpace_cons rfl]
    rfl
  | cons item elements ih =>
    obtain ⟨fuel, rfl⟩ := exists_fuel (following_ne_nil _ _) hfuel
    have hlength : (following ']' ((item :: elements).map Spaced.chars)).length =
        1 + (item.chars.length + (following ']' (elements.map Spaced.chars)).length) := by
      rw [List.map_cons, following, List.length_cons, List.length_append, Nat.add_comm]
    have hvalue := (h item List.mem_cons_self).spaced (hproper item List.mem_cons_self)
      (fuel + 2) (by omega) (ends_following (.inl rfl) (elements.map Spaced.chars) rest)
    -- the comma pays for this step, and the rest has what is left of it
    have hmore := ih (fun other hother => hproper other (List.mem_cons_of_mem _ hother))
      (fun other hother => h other (List.mem_cons_of_mem _ hother)) (fuel + 2) (by omega)
    rw [List.map_cons, following, List.cons_append, List.append_assoc, items, skipSpace_cons rfl]
    simp only [Char.reduceEq, Bool.false_eq_true, if_false, if_true, hvalue,
      items_append (hproper item List.mem_cons_self).after, hmore]
    rfl

/-- The first item of an array stands without a comma. -/
theorem items_enclosed {item : Spaced} {elements : List Spaced}
    (hproper : ∀ other ∈ item :: elements, other.Proper)
    (h : ∀ other ∈ item :: elements, Stands depth other.value (tree other.value)) (fuel : Nat)
    (rest : List Char)
    (hfuel : 3 * (item.chars.length + (following ']' (elements.map Spaced.chars)).length) ≤ fuel) :
    items (fuel + 1) depth true
        (item.chars ++ (following ']' (elements.map Spaced.chars) ++ rest)) =
      (Items.ofTrees ((item :: elements).map fun item => tree item.value), rest) := by
  have hfirst := h item List.mem_cons_self
  have hblanks := hproper item List.mem_cons_self
  have hvalue := hfirst.spaced hblanks fuel (by omega)
    (ends_following (.inl rfl) (elements.map Spaced.chars) rest)
  have hmore := items_following (fun other hother => hproper other (List.mem_cons_of_mem _ hother))
    (fun other hother => h other (List.mem_cons_of_mem _ hother)) fuel rest (by omega)
  -- the first character of the value tells that the array does not end here
  obtain ⟨c, more, hchars, hspace, hbracket⟩ := hfirst.front
  rw [Spaced.chars, List.append_assoc, List.append_assoc, value_append hblanks.before] at hvalue
  rw [Spaced.chars, List.append_assoc, List.append_assoc, items_append hblanks.before]
  rw [hchars, List.cons_append] at hvalue ⊢
  rw [items, skipSpace_cons hspace]
  simp only [if_neg hbracket, if_true, hvalue, items_append hblanks.after, hmore]
  rw [← hchars]
  rfl

/-- An array may hold nothing but blanks. -/
theorem stands_emptyArray (depth : Nat) {blanks : List Char} (h : Blank blanks) :
    Stands depth ('[' :: (blanks ++ [']'])) (.atDepth (depth + 1) (.array .close)) where
  front := ⟨_, _, rfl, rfl, by decide⟩
  read := by
    intro fuel rest hfuel hrest
    obtain ⟨fuel, rfl⟩ := exists_fuel (List.cons_ne_nil _ _) hfuel
    have hclose : items (fuel + 2) (depth + 1) true (']' :: rest) = (.close, rest) := by
      rw [items, skipSpace_cons rfl]
      rfl
    rw [List.cons_append, List.append_assoc, List.singleton_append, value, skipSpace_cons rfl]
    simp only [items_append h, hclose]

/-- **Arrays.** The tree of an array holds the trees of its items. -/
theorem stands_array {elements : List Spaced} (hproper : ∀ item ∈ elements, item.Proper)
    (h : ∀ item ∈ elements, Stands (depth + 1) item.value (tree item.value)) :
    Stands depth (arrayChars elements)
      (.atDepth (depth + 1) (.array (Items.ofTrees (elements.map fun item => tree item.value)))) := by
  cases elements with
  | nil => exact stands_emptyArray depth blank_nil
  | cons item elements =>
    refine ⟨⟨_, _, rfl, rfl, by decide⟩, ?_⟩
    intro fuel rest hfuel hrest
    have hchars : arrayChars (item :: elements) =
        '[' :: (item.chars ++ following ']' (elements.map Spaced.chars)) := rfl
    rw [hchars] at hfuel ⊢
    obtain ⟨fuel, rfl⟩ := exists_fuel (List.cons_ne_nil _ _) hfuel
    rw [List.length_cons, List.length_append] at hfuel
    have hitems := items_enclosed hproper h (fuel + 1) rest (by omega)
    rw [List.cons_append, List.append_assoc, value, skipSpace_cons rfl]
    simp only [hitems]

/-! ### Objects -/

/-- Blanks before the value of a member make no difference. -/
theorem member_append {blanks : List Char} (h : Blank blanks) (fuel depth : Nat) (rest : List Char) :
    member fuel depth (blanks ++ rest) = member fuel depth rest := by
  cases fuel with
  | zero => rw [member, member]
  | succ fuel => rw [member, member, skipSpace_append h]

/-- A member is its name, a colon and its value, and the other members follow. -/
theorem member_chars {m : Member} {content : Reading} (hproper : m.Proper)
    (h : Stands depth m.content.value content) (fuel : Nat) {rest left : List Char} {more : Members}
    (hfuel : 3 * m.chars.length ≤ fuel) (hrest : Ends rest)
    (hmore : members fuel depth false rest = (more, left)) :
    member (fuel + 1) depth (m.chars ++ rest) = (.cons (textOf m.name) content more, left) := by
  have hlength : m.content.chars.length ≤ m.chars.length := by
    simp only [Member.chars, List.length_append, List.length_cons]
    omega
  have hvalue := h.spaced hproper.content fuel (by omega) hrest
  have hname := hproper.name.scanText (m.after ++ ':' :: (m.content.chars ++ rest))
  have hchars : m.chars ++ rest =
      m.before ++ '"' :: (m.name ++ '"' :: (m.after ++ ':' :: (m.content.chars ++ rest))) := by
    simp [Member.chars]
  rw [hchars, member_append hproper.before, member, skipSpace_cons rfl]
  simp only [hname, skipSpace_append hproper.after, skipSpace_cons (rfl : isSpace ':' = false), hvalue,
    members_append hproper.content.after, hmore]

/-- The rest of an object: every member follows a comma. -/
theorem members_following {ms : List Member} (hproper : ∀ m ∈ ms, m.Proper)
    (h : ∀ m ∈ ms, Stands depth m.content.value (tree m.content.value)) (fuel : Nat) (rest : List Char)
    (hfuel : 3 * (following '}' (ms.map Member.chars)).length ≤ fuel) :
    members fuel depth false (following '}' (ms.map Member.chars) ++ rest) =
      (Members.ofTrees (ms.map fun m => (textOf m.name, tree m.content.value)), rest) := by
  induction ms generalizing fuel with
  | nil =>
    obtain ⟨fuel, rfl⟩ := exists_fuel (List.cons_ne_nil _ _) hfuel
    show members (fuel + 3) depth false ('}' :: rest) = _
    rw [members, skipSpace_cons rfl]
    rfl
  | cons m ms ih =>
    obtain ⟨fuel, rfl⟩ := exists_fuel (following_ne_nil _ _) hfuel
    have hlength : (following '}' ((m :: ms).map Member.chars)).length =
        1 + (m.chars.length + (following '}' (ms.map Member.chars)).length) := by
      rw [List.map_cons, following, List.length_cons, List.length_append, Nat.add_comm]
    have hmore := ih (fun other hother => hproper other (List.mem_cons_of_mem _ hother))
      (fun other hother => h other (List.mem_cons_of_mem _ hother)) (fuel + 1) (by omega)
    have hmember := member_chars (hproper m List.mem_cons_self) (h m List.mem_cons_self) (fuel + 1)
      (by omega) (ends_following (.inr rfl) (ms.map Member.chars) rest) hmore
    rw [List.map_cons, following, List.cons_append, List.append_assoc, members, skipSpace_cons rfl]
    simp only [Char.reduceEq, Bool.false_eq_true, if_false, if_true, hmember]
    rfl

/-- The first member of an object stands without a comma. -/
theorem members_enclosed {m : Member} {ms : List Member} (hproper : ∀ other ∈ m :: ms, other.Proper)
    (h : ∀ other ∈ m :: ms, Stands depth other.content.value (tree other.content.value)) (fuel : Nat)
    (rest : List Char)
    (hfuel : 3 * (m.chars.length + (following '}' (ms.map Member.chars)).length) ≤ fuel) :
    members (fuel + 2) depth true (m.chars ++ (following '}' (ms.map Member.chars) ++ rest)) =
      (Members.ofTrees ((m :: ms).map fun m => (textOf m.name, tree m.content.value)), rest) := by
  have hblanks := (hproper m List.mem_cons_self).before
  have hmore := members_following
    (fun other hother => hproper other (List.mem_cons_of_mem _ hother))
    (fun other hother => h other (List.mem_cons_of_mem _ hother)) fuel rest (by omega)
  have hmember := member_chars (hproper m List.mem_cons_self) (h m List.mem_cons_self) fuel
    (by omega) (ends_following (.inr rfl) (ms.map Member.chars) rest) hmore
  rw [Member.chars, List.append_assoc] at hmember ⊢
  rw [member_append hblanks] at hmember
  rw [members_append hblanks, List.cons_append, members, skipSpace_cons rfl]
  exact hmember

/-- An object may hold nothing but blanks. -/
theorem stands_emptyObject (depth : Nat) {blanks : List Char} (h : Blank blanks) :
    Stands depth ('{' :: (blanks ++ ['}'])) (.atDepth (depth + 1) (.object .close)) where
  front := ⟨_, _, rfl, rfl, by decide⟩
  read := by
    intro fuel rest hfuel hrest
    obtain ⟨fuel, rfl⟩ := exists_fuel (List.cons_ne_nil _ _) hfuel
    have hclose : members (fuel + 2) (depth + 1) true ('}' :: rest) = (.close, rest) := by
      rw [members, skipSpace_cons rfl]
      rfl
    rw [List.cons_append, List.append_assoc, List.singleton_append, value, skipSpace_cons rfl]
    simp only [members_append h, hclose]

/-- **Objects.** The tree of an object holds the names and the trees of its members. -/
theorem stands_object {ms : List Member} (hproper : ∀ m ∈ ms, m.Proper)
    (h : ∀ m ∈ ms, Stands (depth + 1) m.content.value (tree m.content.value)) :
    Stands depth (objectChars ms)
      (.atDepth (depth + 1)
        (.object (Members.ofTrees (ms.map fun m => (textOf m.name, tree m.content.value))))) := by
  cases ms with
  | nil => exact stands_emptyObject depth blank_nil
  | cons m ms =>
    refine ⟨⟨_, _, rfl, rfl, by decide⟩, ?_⟩
    intro fuel rest hfuel hrest
    have hchars : objectChars (m :: ms) =
        '{' :: (m.chars ++ following '}' (ms.map Member.chars)) := rfl
    rw [hchars] at hfuel ⊢
    obtain ⟨fuel, rfl⟩ := exists_fuel (List.cons_ne_nil _ _) hfuel
    rw [List.length_cons, List.length_append] at hfuel
    have hmembers := members_enclosed hproper h fuel rest (by omega)
    rw [List.cons_append, List.append_assoc, value, skipSpace_cons rfl]
    simp only [hmembers]

/-! ### All values -/

/-- A container is passed over as if it were not too deep. -/
theorem skip_atDepth (depth : Nat) (container : Reading) :
    (Reading.atDepth depth container).skip = container.skip := by
  rw [Reading.atDepth]
  split
  · rfl
  · rfl

/-- Items are passed over together if each of them is. -/
theorem skip_ofTrees_items {trees : List Reading} (h : ∀ item ∈ trees, item.skip = .ok ()) :
    (Items.ofTrees trees).skip = .ok () := by
  induction trees with
  | nil => rfl
  | cons item trees ih =>
    rw [Items.ofTrees, Items.skip, h item List.mem_cons_self]
    exact ih fun other hother => h other (List.mem_cons_of_mem _ hother)

/-- So are members. -/
theorem skip_ofTrees_members {trees : List (Text × Reading)}
    (h : ∀ m ∈ trees, m.1.skip = .ok () ∧ m.2.skip = .ok ()) :
    (Members.ofTrees trees).skip = .ok () := by
  induction trees with
  | nil => rfl
  | cons m trees ih =>
    obtain ⟨hname, hvalue⟩ := h m List.mem_cons_self
    simp only [Members.ofTrees, Members.skip, hname, hvalue]
    exact ih fun other hother => h other (List.mem_cons_of_mem _ hother)

/-- The tree of the text of a value inside `depth` containers. -/
def treeOf (depth : Nat) (cs : List Char) : Reading :=
  (value (3 * cs.length) depth cs).1

/-- What a text is read as is its tree. -/
theorem Stands.treeOf {depth : Nat} {cs : List Char} {tree : Reading} (h : Stands depth cs tree) :
    treeOf depth cs = tree := by
  have hread := h.read (Nat.le_refl _) ends_nil
  rw [List.append_nil] at hread
  rw [Json.treeOf, hread]

/-- Every value has a tree that can be passed over, at whatever depth. -/
theorem exists_stands {cs : List Char} (h : IsValue cs) (depth : Nat) :
    ∃ tree, Stands depth cs tree ∧ tree.skip = .ok () := by
  -- on the value; what is inside stands one level deeper, so the depth is general
  induction h generalizing depth with
  | null => exact ⟨_, stands_null depth, rfl⟩
  | true => exact ⟨_, stands_true depth, rfl⟩
  | false => exact ⟨_, stands_false depth, rfl⟩
  | number hnumber =>
    obtain ⟨n, hn⟩ := exists_scanNumber hnumber
    exact ⟨_, stands_number depth hnumber hn, rfl⟩
  | text htext => exact ⟨_, stands_text depth htext, htext.skip_textOf⟩
  | emptyArray hblank => exact ⟨_, stands_emptyArray depth hblank, skip_atDepth _ _⟩
  | emptyObject hblank => exact ⟨_, stands_emptyObject depth hblank, skip_atDepth _ _⟩
  | @array elements hproper _ ih =>
    have hitems : ∀ item ∈ elements, Stands (depth + 1) item.value (treeOf (depth + 1) item.value) ∧
        (treeOf (depth + 1) item.value).skip = .ok () := by
      intro item hitem
      obtain ⟨tree, htree, hskip⟩ := ih item hitem (depth + 1)
      rw [htree.treeOf]
      exact ⟨htree, hskip⟩
    refine ⟨_, stands_array hproper fun item hitem => (hitems item hitem).1, ?_⟩
    rw [skip_atDepth]
    refine skip_ofTrees_items fun tree htree => ?_
    obtain ⟨item, hitem, rfl⟩ := List.mem_map.mp htree
    exact (hitems item hitem).2
  | @object ms hproper _ ih =>
    have hmembers : ∀ m ∈ ms,
        Stands (depth + 1) m.content.value (treeOf (depth + 1) m.content.value) ∧
          (treeOf (depth + 1) m.content.value).skip = .ok () := by
      intro m hm
      obtain ⟨tree, htree, hskip⟩ := ih m hm (depth + 1)
      rw [htree.treeOf]
      exact ⟨htree, hskip⟩
    refine ⟨_, stands_object hproper fun m hm => (hmembers m hm).1, ?_⟩
    rw [skip_atDepth]
    refine skip_ofTrees_members fun tree htree => ?_
    obtain ⟨m, hm, rfl⟩ := List.mem_map.mp htree
    exact ⟨(hproper m hm).name.skip_textOf, (hmembers m hm).2⟩

/-- **Values.** The reader makes one tree of a value, whatever follows it. -/
theorem IsValue.stands {cs : List Char} (h : IsValue cs) (depth : Nat) :
    Stands depth cs (treeOf depth cs) := by
  obtain ⟨tree, htree, _⟩ := exists_stands h depth
  rw [htree.treeOf]
  exact htree

/-- Every value can be passed over. -/
theorem IsValue.skip_treeOf {cs : List Char} (h : IsValue cs) (depth : Nat) :
    (treeOf depth cs).skip = .ok () := by
  obtain ⟨tree, htree, hskip⟩ := exists_stands h depth
  rw [htree.treeOf]
  exact hskip

/-- The names and the trees of the members of an object. -/
def memberTrees (depth : Nat) (ms : List Member) : List (Text × Reading) :=
  ms.map fun m => (textOf m.name, treeOf depth m.content.value)

/-- The tree of an array has the trees of its items. -/
theorem treeOf_arrayChars {elements : List Spaced} (hproper : ∀ item ∈ elements, item.Proper)
    (h : ∀ item ∈ elements, IsValue item.value) (depth : Nat) :
    treeOf depth (arrayChars elements) = .atDepth (depth + 1)
      (.array (Items.ofTrees (elements.map fun item => treeOf (depth + 1) item.value))) :=
  (stands_array hproper fun item hitem => (h item hitem).stands (depth + 1)).treeOf

/-- The tree of an object has those of its members. -/
theorem treeOf_objectChars {ms : List Member} (hproper : ∀ m ∈ ms, m.Proper)
    (h : ∀ m ∈ ms, IsValue m.content.value) (depth : Nat) :
    treeOf depth (objectChars ms) = .atDepth (depth + 1)
      (.object (Members.ofTrees (memberTrees (depth + 1) ms))) :=
  (stands_object hproper fun m hm => (h m hm).stands (depth + 1)).treeOf

/-- **Documents.** A text that is one value between blanks is read as the tree of the value. -/
theorem read_of_stands {document : Spaced} {tree : Reading} (hproper : document.Proper)
    (h : Stands 0 document.value tree) : read (String.ofList document.chars) = (tree, none) := by
  have hvalue := h.spaced hproper (3 * (document.chars.length + 1)) (by omega) ends_nil
  have hafter : skipSpace document.after = [] := by
    have hskip := skipSpace_append hproper.after []
    rw [List.append_nil] at hskip
    exact hskip
  rw [List.append_nil, List.append_nil] at hvalue
  rw [read, String.toList_ofList]
  simp only [hvalue, hafter]

/-- A document is read to its end, as the tree of its value. -/
theorem read_document {document : Spaced} (hproper : document.Proper) (h : IsValue document.value) :
    read (String.ofList document.chars) = (treeOf 0 document.value, none) :=
  read_of_stands hproper (h.stands 0)

end DropRoom.Json
