import SchemaForm.Proofs.Json.Limits

/-!
# How deep values are nested

A list or an object is nested one level deeper than the deepest of its parts. What is true of a value for
how little it is nested, or for how short its whole numbers are, is true of its parts as well; so both are
kept by whatever takes a value apart.

* `Value.nesting` — how many lists and objects stand inside each other;
* `Value.Inherited` — a property that goes from a value to its parts;
* `Value.inherited_short`, `Value.inherited_nesting` — the two properties that are used.
-/

namespace SchemaForm

namespace Value

mutual

/-- How many lists and objects stand inside each other in a value. -/
def nesting : Value → Nat
  | .list items => nestingOfItems items + 1
  | .object members => nestingOfMembers members + 1
  | _ => 0

/-- The same of the parts of a list. -/
def nestingOfItems : List Value → Nat
  | [] => 0
  | v :: rest => max (nesting v) (nestingOfItems rest)

/-- The same of the members of an object. -/
def nestingOfMembers : List (String × Value) → Nat
  | [] => 0
  | (_, v) :: rest => max (nesting v) (nestingOfMembers rest)

end

variable {items : List Value} {members : List (String × Value)}

/-- A part of a list is nested no deeper than the parts together. -/
theorem nesting_le_of_mem_items {v : Value} (h : v ∈ items) : v.nesting ≤ nestingOfItems items := by
  induction items with
  | nil => cases h
  | cons first rest ih =>
    rw [nestingOfItems]
    rcases List.mem_cons.mp h with rfl | hrest
    · exact Nat.le_max_left _ _
    · exact (ih hrest).trans (Nat.le_max_right _ _)

/-- The names of members do not matter. -/
theorem nestingOfMembers_eq : nestingOfMembers members = nestingOfItems (members.map (·.2)) := by
  induction members with
  | nil => rfl
  | cons member rest ih => rw [nestingOfMembers, List.map_cons, nestingOfItems, ih]

/-- A property that goes from a list and an object to what is in it, and that whatever has no parts has, as
long as it can be displayed. -/
structure Inherited (Q : Value → Prop) : Prop where
  atom : ∀ {v : Value}, v.Short → v.nesting = 0 → Q v
  items : ∀ {items : List Value}, Q (.list items) → ∀ v ∈ items, Q v
  members : ∀ {members : List (String × Value)}, Q (.object members) → ∀ member ∈ members, Q member.2

theorem inherited_short : Inherited Short where
  atom hshort _ := hshort
  items h := by rwa [Short, shortItems_iff] at h
  members h := by rwa [Short, shortMembers_iff] at h

theorem inherited_nesting (bound : Nat) : Inherited fun v => v.nesting ≤ bound where
  atom _ hflat := hflat ▸ Nat.zero_le bound
  items h v hmem := by
    rw [nesting] at h
    have hpart := nesting_le_of_mem_items hmem
    omega
  members h member hmem := by
    rw [nesting, nestingOfMembers_eq] at h
    have hpart := nesting_le_of_mem_items (List.mem_map_of_mem (f := (·.2)) hmem)
    omega

namespace Inherited

variable {Q : Value → Prop} (hQ : Inherited Q)
include hQ

theorem null : Q .null := hQ.atom (by simp [Short]) (by simp [nesting])

theorem text (s : String) : Q (.text s) := hQ.atom (by simp [Short]) (by simp [nesting])

theorem flag (b : Bool) : Q (.bool b) := hQ.atom (by simp [Short]) (by simp [nesting])

end Inherited

end Value

end SchemaForm
