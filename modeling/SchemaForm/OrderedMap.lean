/-!
# Ordered maps

Finite maps from names to values that keep the order in which their names first came in:

* `Entries` — look-up, replacement and removal on a plain list of named values, such as the members
  of an object that was just read;
* `OrderedMap` — a list of named values in which no name occurs twice.

Writing to a name that is present keeps its place, writing to a new one puts it last. The view of a
map is its `entries`; the lemmas say what each operation does to `keys` and to `get?`.
-/

namespace SchemaForm

variable {α β : Type}

/-! ## Plain lists of named values -/

namespace Entries

/-- The value of the first entry of that name. -/
def get? (name : String) : List (String × α) → Option α
  | [] => none
  | (key, value) :: rest => if key = name then some value else get? name rest

/-- Replaces the value of the first entry of that name, or adds an entry at the end. -/
def set (name : String) (value : α) : List (String × α) → List (String × α)
  | [] => [(name, value)]
  | (key, old) :: rest =>
    if key = name then (key, value) :: rest else (key, old) :: set name value rest

/-- Removes every entry of that name. -/
def erase (name : String) (entries : List (String × α)) : List (String × α) :=
  entries.filter fun entry => entry.1 ≠ name

/-- The names, in order. -/
def keys (entries : List (String × α)) : List String := entries.map Prod.fst

@[simp] theorem keys_nil : keys ([] : List (String × α)) = [] := rfl

@[simp] theorem keys_cons (entry : String × α) (rest : List (String × α)) :
    keys (entry :: rest) = entry.1 :: keys rest := rfl

@[simp] theorem get?_nil (name : String) : get? name ([] : List (String × α)) = none := rfl

theorem get?_cons (name key : String) (value : α) (rest : List (String × α)) :
    get? name ((key, value) :: rest) = if key = name then some value else get? name rest := rfl

/-- A name has a value exactly if it is one of the keys. -/
theorem get?_isSome_iff {name : String} {entries : List (String × α)} :
    (get? name entries).isSome ↔ name ∈ keys entries := by
  induction entries with
  | nil => simp
  | cons entry rest ih =>
    obtain ⟨key, value⟩ := entry
    by_cases h : key = name
    · simp [get?_cons, h]
    · simp [get?_cons, h, ih, Ne.symm h]

theorem get?_eq_none_iff {name : String} {entries : List (String × α)} :
    get? name entries = none ↔ name ∉ keys entries := by
  rw [← get?_isSome_iff]
  cases get? name entries <;> simp

/-- Writing to a name is seen under this name alone. -/
theorem get?_set (name other : String) (value : α) (entries : List (String × α)) :
    get? other (set name value entries) =
      if other = name then some value else get? other entries := by
  induction entries with
  | nil => simp [set, get?_cons, eq_comm]
  | cons entry rest ih =>
    obtain ⟨key, old⟩ := entry
    by_cases hk : key = name
    · subst hk
      by_cases h : other = key <;> simp [set, get?_cons, h, eq_comm]
    · by_cases ho : key = other
      · subst ho
        simp [set, hk, get?_cons]
      · simp [set, hk, get?_cons, ho, ih]

/-- So is removing it. -/
theorem get?_erase (name other : String) (entries : List (String × α)) :
    get? other (erase name entries) = if other = name then none else get? other entries := by
  induction entries with
  | nil => simp [erase]
  | cons entry rest ih =>
    obtain ⟨key, value⟩ := entry
    rw [erase] at ih ⊢
    by_cases hk : key = name
    · subst hk
      by_cases ho : other = key
      · subst ho
        simpa [List.filter_cons] using ih
      · simpa [List.filter_cons, ho, get?_cons, Ne.symm ho] using ih
    · by_cases ho : key = other
      · subst ho
        simp [hk, get?_cons]
      · simp only [ne_eq, decide_not] at ih
        simp [hk, get?_cons, ho, ih]

theorem keys_set_of_mem {name : String} {value : α} {entries : List (String × α)}
    (h : name ∈ keys entries) : keys (set name value entries) = keys entries := by
  induction entries with
  | nil => simp at h
  | cons entry rest ih =>
    obtain ⟨key, old⟩ := entry
    by_cases hk : key = name
    · simp [set, hk]
    · have : name ∈ keys rest := by simpa [Ne.symm hk] using h
      simp [set, hk, ih this]

theorem keys_set_of_not_mem {name : String} {value : α} {entries : List (String × α)}
    (h : name ∉ keys entries) : keys (set name value entries) = keys entries ++ [name] := by
  induction entries with
  | nil => simp [set]
  | cons entry rest ih =>
    obtain ⟨key, old⟩ := entry
    simp only [keys_cons, List.mem_cons, not_or] at h
    simp [set, Ne.symm h.1, ih h.2]

theorem nodup_set {name : String} {value : α} {entries : List (String × α)}
    (h : (keys entries).Nodup) : (keys (set name value entries)).Nodup := by
  by_cases hm : name ∈ keys entries
  · rwa [keys_set_of_mem hm]
  · rw [keys_set_of_not_mem hm, List.nodup_append]
    refine ⟨h, by simp, ?_⟩
    intro a ha b hb
    simp only [List.mem_singleton] at hb
    exact fun hab => hm (hb ▸ hab ▸ ha)

theorem nodup_erase {name : String} {entries : List (String × α)}
    (h : (keys entries).Nodup) : (keys (erase name entries)).Nodup :=
  h.sublist (List.filter_sublist.map _)

end Entries

/-! ## Maps -/

/-- Named values in order, each name once. -/
@[ext] structure OrderedMap (α : Type) where
  entries : List (String × α)
  nodup : (Entries.keys entries).Nodup

namespace OrderedMap

/-- The map without entries. -/
def empty : OrderedMap α := ⟨[], by simp⟩

instance : EmptyCollection (OrderedMap α) := ⟨empty⟩
instance : Inhabited (OrderedMap α) := ⟨empty⟩

/-- The names, in order. -/
def keys (m : OrderedMap α) : List String := Entries.keys m.entries

/-- The value of a name. -/
def get? (m : OrderedMap α) (name : String) : Option α := Entries.get? name m.entries

/-- Whether a name has a value. -/
def contains (m : OrderedMap α) (name : String) : Bool := (m.get? name).isSome

/-- The number of names. -/
def size (m : OrderedMap α) : Nat := m.entries.length

/-- Whether there is no name. -/
def isEmpty (m : OrderedMap α) : Bool := m.entries.isEmpty

/-- Writes a value: in place if the name is present, else at the end. -/
def insert (m : OrderedMap α) (name : String) (value : α) : OrderedMap α :=
  ⟨Entries.set name value m.entries, Entries.nodup_set m.nodup⟩

/-- Removes a name. -/
def erase (m : OrderedMap α) (name : String) : OrderedMap α :=
  ⟨Entries.erase name m.entries, Entries.nodup_erase m.nodup⟩

/-- The map of a list of entries: of two entries of one name the later gives the value and the
earlier the place. -/
def ofList (entries : List (String × α)) : OrderedMap α :=
  entries.foldl (fun m entry => m.insert entry.1 entry.2) empty

/-- Changes every value, with the name at hand. -/
def map (f : String → α → β) (m : OrderedMap α) : OrderedMap β :=
  ⟨m.entries.map fun entry => (entry.1, f entry.1 entry.2), by
    have : Entries.keys (m.entries.map fun entry => (entry.1, f entry.1 entry.2)) =
        Entries.keys m.entries := by simp [Entries.keys, Function.comp_def]
    rw [this]; exact m.nodup⟩

/-- The entries of a list of names to which `f` gives a value. -/
def collect (names : List String) (h : names.Nodup) (f : String → Option β) : OrderedMap β :=
  ⟨names.filterMap fun name => (f name).map (name, ·), by
    have : ∀ l : List String,
        (Entries.keys (l.filterMap fun name => (f name).map (name, ·))).Sublist l := by
      intro l
      induction l with
      | nil => simp
      | cons a l ih => cases hf : f a <;> simp [hf, ih]
    exact h.sublist (this names)⟩

@[simp] theorem get?_empty (name : String) : (empty : OrderedMap α).get? name = none := rfl

theorem get?_insert (m : OrderedMap α) (name other : String) (value : α) :
    (m.insert name value).get? other = if other = name then some value else m.get? other :=
  Entries.get?_set name other value m.entries

theorem get?_erase (m : OrderedMap α) (name other : String) :
    (m.erase name).get? other = if other = name then none else m.get? other :=
  Entries.get?_erase name other m.entries

theorem mem_keys_iff {m : OrderedMap α} {name : String} :
    name ∈ m.keys ↔ (m.get? name).isSome := Entries.get?_isSome_iff.symm

theorem contains_iff {m : OrderedMap α} {name : String} :
    m.contains name = true ↔ name ∈ m.keys := mem_keys_iff.symm

theorem keys_insert_of_mem {m : OrderedMap α} {name : String} {value : α}
    (h : name ∈ m.keys) : (m.insert name value).keys = m.keys := Entries.keys_set_of_mem h

@[simp] theorem keys_map (f : String → α → β) (m : OrderedMap α) : (m.map f).keys = m.keys := by
  simp [keys, map, Entries.keys, Function.comp_def]

theorem get?_map (f : String → α → β) (m : OrderedMap α) (name : String) :
    (m.map f).get? name = (m.get? name).map (f name) := by
  obtain ⟨entries, h⟩ := m
  simp only [get?, map]
  clear h
  induction entries with
  | nil => rfl
  | cons entry rest ih =>
    obtain ⟨key, value⟩ := entry
    by_cases hk : key = name
    · simp [Entries.get?_cons, hk]
    · simp [Entries.get?_cons, hk, ih]

theorem get?_collect {names : List String} {h : names.Nodup} {f : String → Option β}
    {name : String} : (collect names h f).get? name = if name ∈ names then f name else none := by
  simp only [get?, collect]
  clear h
  induction names with
  | nil => rfl
  | cons a l ih =>
    by_cases ha : a = name
    · subst ha
      cases hf : f a with
      | none =>
        simp only [List.filterMap_cons, hf, Option.map_none, List.mem_cons, true_or, if_true]
        rw [ih, hf]
        split <;> rfl
      | some b => simp [hf, Entries.get?_cons]
    · cases hf : f a with
      | none => simp [hf, ih, Ne.symm ha]
      | some b => simp [hf, Entries.get?_cons, ha, ih, Ne.symm ha]

end OrderedMap

end SchemaForm
