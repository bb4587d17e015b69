import DropRoom.Settings.Yaml
import Mathlib.Data.List.Nodup

namespace DropRoom

/-!
# Mappings with keys left out or values changed

What is read of a mapping is read of its entries by the texts of their keys.  So it can be told what
is read when entries are left out, or when the value of a key is another one.

* `Yaml.Node.same_iff` — when two nodes are the same, which is decidable;
* `Yaml.Node.without`, `Yaml.Node.change` — a mapping without some keys, or with a value changed;
* `Yaml.fields?_without`, `Yaml.fields?_change` — its entries;
* `Yaml.field?_without`, `Yaml.field?_change` — the value under a key;
* `Yaml.required_without`, `Yaml.defaulted_without` — what is read of a key.
-/

namespace Yaml

/-! ### Equality -/

mutual

/-- Whether two nodes are the same. -/
def Node.same : Node → Node → Bool
  | .scalar text style tag, .scalar text' style' tag' =>
    text == text' && style == style' && tag == tag'
  | .sequence items tag, .sequence items' tag' => sameItems items items' && tag == tag'
  | .mapping entries tag, .mapping entries' tag' => sameEntries entries entries' && tag == tag'
  | _, _ => false

/-- Whether two lists have the same nodes. -/
def sameItems : List Node → List Node → Bool
  | [], [] => true
  | item :: items, item' :: items' => item.same item' && sameItems items items'
  | _, _ => false

/-- Whether two lists have the same entries. -/
def sameEntries : List (Node × Node) → List (Node × Node) → Bool
  | [], [] => true
  | (key, value) :: entries, (key', value') :: entries' =>
    key.same key' && value.same value' && sameEntries entries entries'
  | _, _ => false

end

mutual

/-- The comparison of nodes is right: it tells the same only of equal ones. -/
theorem Node.same_iff : (node other : Node) → (node.same other = true ↔ node = other)
  | .scalar .., .scalar .. => by simp [Node.same, and_assoc]
  | .sequence items _, .sequence items' _ => by
    rw [Node.same, Bool.and_eq_true, sameItems_iff items items', beq_iff_eq, Node.sequence.injEq]
  | .mapping entries _, .mapping entries' _ => by
    rw [Node.same, Bool.and_eq_true, sameEntries_iff entries entries', beq_iff_eq,
      Node.mapping.injEq]
  | .scalar .., .sequence .. => by simp [Node.same]
  | .scalar .., .mapping .. => by simp [Node.same]
  | .sequence .., .scalar .. => by simp [Node.same]
  | .sequence .., .mapping .. => by simp [Node.same]
  | .mapping .., .scalar .. => by simp [Node.same]
  | .mapping .., .sequence .. => by simp [Node.same]

/-- So is that of items. -/
theorem sameItems_iff : (items others : List Node) →
    (sameItems items others = true ↔ items = others)
  | [], [] => by simp [sameItems]
  | item :: items, other :: others => by
    rw [sameItems, Bool.and_eq_true, Node.same_iff item other, sameItems_iff items others,
      List.cons.injEq]
  | [], _ :: _ => by simp [sameItems]
  | _ :: _, [] => by simp [sameItems]

/-- So is that of entries. -/
theorem sameEntries_iff : (entries others : List (Node × Node)) →
    (sameEntries entries others = true ↔ entries = others)
  | [], [] => by simp [sameEntries]
  | (key, value) :: entries, (key', value') :: others => by
    rw [sameEntries, Bool.and_eq_true, Bool.and_eq_true, Node.same_iff key key',
      Node.same_iff value value', sameEntries_iff entries others, List.cons.injEq, Prod.mk.injEq]
  | [], _ :: _ => by simp [sameEntries]
  | _ :: _, [] => by simp [sameEntries]

end

instance : DecidableEq Node :=
  fun node other => decidable_of_iff _ (Node.same_iff node other)

/-! ### Entries -/

/-- A mapping without the entries of some keys. -/
def Node.without (keys : List String) : Node → Node
  | .mapping entries tag =>
    .mapping (entries.filter fun entry => entry.1.text?.all (!keys.contains ·)) tag
  | node => node

/-- A mapping with the value of a key changed. -/
def Node.change (name : String) (f : Node → Node) : Node → Node
  | .mapping entries tag =>
    .mapping (entries.map fun entry =>
      if entry.1.text? = some name then (entry.1, f entry.2) else entry) tag
  | node => node

/-- The entries of a mapping by the texts of their keys. -/
def keyed? (entries : List (Node × Node)) : Option (List (String × Node)) :=
  entries.mapM fun entry => entry.1.text?.map fun key => (key, entry.2)

/-- Entries have keys that are texts if the first has one and the rest have. -/
theorem keyed?_cons_eq_some {entry : Node × Node} {entries : List (Node × Node)}
    {fields : List (String × Node)} :
    keyed? (entry :: entries) = some fields ↔
      ∃ key rest, entry.1.text? = some key ∧ keyed? entries = some rest ∧
        fields = (key, entry.2) :: rest := by
  rw [keyed?, List.mapM_cons, ← keyed?]
  cases entry.1.text? with
  | none => simp
  | some key =>
    cases keyed? entries with
    | none => simp
    | some rest => simp [eq_comm]

/-- The fields of a mapping are its entries by their keys, of which none that is known is there
twice. -/
theorem fields?_mapping {known : List String} {entries : List (Node × Node)} {tag : Option String}
    {fields : List (String × Node)} :
    (Node.mapping entries tag).fields? known = some fields ↔
      keyed? entries = some fields ∧ ((fields.map (·.1)).filter known.contains).Nodup := by
  rw [Node.fields?, ← keyed?]
  cases keyed? entries with
  | none => simp
  | some found =>
    simp only [Option.bind_eq_bind, Option.bind_some, Option.ite_none_right_eq_some,
      Option.some.injEq]
    constructor
    · rintro ⟨hnodup, rfl⟩
      exact ⟨rfl, hnodup⟩
    · rintro ⟨rfl, hnodup⟩
      exact ⟨hnodup, rfl⟩

/-- Entries that are left out are left out of the fields. -/
theorem keyed?_filter {entries : List (Node × Node)} {fields : List (String × Node)}
    (h : keyed? entries = some fields) (p : String → Bool) :
    keyed? (entries.filter fun entry => entry.1.text?.all p) =
      some (fields.filter fun field => p field.1) := by
  induction entries generalizing fields with
  | nil =>
    cases h
    rfl
  | cons entry entries ih =>
    obtain ⟨key, rest, hkey, hrest, rfl⟩ := keyed?_cons_eq_some.mp h
    have hall : entry.1.text?.all p = p key := by rw [hkey, Option.all_some]
    rw [List.filter_cons, List.filter_cons, hall]
    cases p key with
    | false => exact ih hrest
    | true => exact keyed?_cons_eq_some.mpr ⟨key, _, hkey, ih hrest, rfl⟩

/-- Entries that are changed are changed in the fields. -/
theorem keyed?_change {entries : List (Node × Node)} {fields : List (String × Node)}
    (h : keyed? entries = some fields) (name : String) (f : Node → Node) :
    keyed? (entries.map fun entry =>
        if entry.1.text? = some name then (entry.1, f entry.2) else entry) =
      some (fields.map fun field => if field.1 = name then (field.1, f field.2) else field) := by
  induction entries generalizing fields with
  | nil =>
    cases h
    rfl
  | cons entry entries ih =>
    obtain ⟨key, rest, hkey, hrest, rfl⟩ := keyed?_cons_eq_some.mp h
    rw [List.map_cons, List.map_cons]
    by_cases hname : key = name
    · subst hname
      rw [if_pos hkey, if_pos rfl]
      exact keyed?_cons_eq_some.mpr ⟨key, _, hkey, ih hrest, rfl⟩
    · have hother : entry.1.text? ≠ some name := by
        rw [hkey]
        exact fun heq => hname (Option.some.inj heq)
      rw [if_neg hother, if_neg hname]
      exact keyed?_cons_eq_some.mpr ⟨key, _, hkey, ih hrest, rfl⟩

/-! ### Mappings -/

variable {known : List String} {node : Node} {fields : List (String × Node)}

/-- A scalar that is left out has no entries. -/
theorem fields?_scalar {text : String} {style : Style} {tag : Option String}
    (h : (Node.scalar text style tag).fields? known = some fields) : fields = [] := by
  rw [Node.fields?] at h
  · split at h
    · exact (Option.some.inj h).symm
    · cases h
  · nofun

/-- A mapping without some keys has the other fields. -/
theorem fields?_without (h : node.fields? known = some fields) (keys : List String) :
    (node.without keys).fields? known = some (fields.filter fun field => !keys.contains field.1) := by
  cases node with
  | mapping entries tag =>
    obtain ⟨hkeyed, hnodup⟩ := fields?_mapping.mp h
    refine fields?_mapping.mpr ⟨keyed?_filter hkeyed _, hnodup.sublist ?_⟩
    exact (List.filter_sublist.map _).filter _
  | sequence items tag => cases h
  | scalar text style tag =>
    obtain rfl := fields?_scalar h
    exact h

/-- A mapping whose value of a key is changed has the changed field. -/
theorem fields?_change (h : node.fields? known = some fields) (name : String) (f : Node → Node) :
    (node.change name f).fields? known =
      some (fields.map fun field => if field.1 = name then (field.1, f field.2) else field) := by
  cases node with
  | mapping entries tag =>
    obtain ⟨hkeyed, hnodup⟩ := fields?_mapping.mp h
    have hkeys : (fields.map fun field => if field.1 = name then (field.1, f field.2) else field).map
        (·.1) = fields.map (·.1) := by
      rw [List.map_map]
      refine List.map_congr_left fun field _ => ?_
      rw [Function.comp_apply]
      split
      · rfl
      · rfl
    refine fields?_mapping.mpr ⟨keyed?_change hkeyed name f, ?_⟩
    rw [hkeys]
    exact hnodup
  | sequence items tag => cases h
  | scalar text style tag =>
    obtain rfl := fields?_scalar h
    exact h

/-! ### Values -/

/-- The first field of a name counts. -/
theorem field?_cons (field : String × Node) (fields : List (String × Node)) (name : String) :
    field? (field :: fields) name = if field.1 = name then some field.2 else field? fields name := by
  rw [field?, List.find?_cons]
  by_cases hname : field.1 = name
  · rw [beq_iff_eq.mpr hname, if_pos hname]
    rfl
  · rw [beq_eq_false_iff_ne.mpr hname, if_neg hname]
    rfl

/-- Keys that are left out have no field. -/
theorem field?_without (keys : List String) (fields : List (String × Node)) (name : String) :
    field? (fields.filter fun field => !keys.contains field.1) name =
      if name ∈ keys then none else field? fields name := by
  induction fields with
  | nil => exact (ite_self none).symm
  | cons field fields ih =>
    rw [List.filter_cons, field?_cons]
    by_cases hname : field.1 = name
    · rw [if_pos hname, hname]
      by_cases hmem : name ∈ keys
      · have hleft : (!keys.contains name) = false := by simp [hmem]
        rw [if_neg (Bool.not_eq_true _ ▸ hleft), ih, if_pos hmem, if_pos hmem]
      · have hkept : (!keys.contains name) = true := by simp [hmem]
        rw [if_pos hkept, field?_cons, if_pos hname, if_neg hmem]
    · rw [if_neg hname]
      split
      · rw [field?_cons, if_neg hname, ih]
      · exact ih

/-- The field of a changed key is changed, and no other. -/
theorem field?_change (fields : List (String × Node)) (name : String) (f : Node → Node)
    (other : String) :
    field? (fields.map fun field => if field.1 = name then (field.1, f field.2) else field) other =
      if other = name then (field? fields name).map f else field? fields other := by
  induction fields with
  | nil => exact (ite_self none).symm
  | cons field fields ih =>
    rw [List.map_cons, field?_cons, field?_cons, field?_cons, ih]
    by_cases hname : field.1 = name
    · subst hname
      by_cases hother : other = field.1
      · simp [hother]
      · simp [hother, Ne.symm hother]
    · by_cases hother : other = name
      · simp [hname, hother]
      · simp [hname, hother]

section

variable {α : Type} {name : String} {read : Node → Option α} {value : α}

/-- What is required and read is there. -/
theorem field?_of_required (h : required fields name read = some value) :
    field? fields name ≠ none := by
  intro hnone
  rw [required, hnone] at h
  cases h

/-- A value that must be given cannot be left out. -/
theorem required_without (h : required fields name read = some value) (keys : List String) :
    required (fields.filter fun field => !keys.contains field.1) name read =
      if name ∈ keys then none else some value := by
  rw [required, field?_without]
  split
  · rfl
  · exact h

/-- A value that has a default takes it where it is left out. -/
theorem defaulted_without {default : α} (h : defaulted fields name read default = some value)
    (keys : List String) :
    defaulted (fields.filter fun field => !keys.contains field.1) name read default =
      some (if name ∈ keys then default else value) := by
  rw [defaulted, field?_without]
  by_cases hmem : name ∈ keys
  · rw [if_pos hmem, if_pos hmem]
  · rw [if_neg hmem, if_neg hmem]
    exact h

/-- What is required is read as before where another key is changed. -/
theorem required_change (other : String) (f : Node → Node) (h : name ≠ other) :
    required (fields.map fun field => if field.1 = other then (field.1, f field.2) else field) name
        read =
      required fields name read := by
  rw [required, field?_change, if_neg h, required]

/-- So is what has a default. -/
theorem defaulted_change (other : String) (f : Node → Node) (h : name ≠ other) (default : α) :
    defaulted (fields.map fun field => if field.1 = other then (field.1, f field.2) else field) name
        read default =
      defaulted fields name read default := by
  rw [defaulted, field?_change, if_neg h, defaulted]

end

end Yaml

end DropRoom
