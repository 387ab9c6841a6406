import SchemaForm.Store

/-!
# Snapshots

The state of a form at one moment (`FormState`), for a host that takes decisions on it.

* `Snapshot.read` — from JSON;
* `Store.snapshot` — of a store (`snapshot`);
* `Snapshot.errorCount`, `Snapshot.visibleError` — `error_count` and `visible_error`;
* `Snapshot.assign` — a snapshot is frozen, and its fields cannot be written to.
-/

namespace SchemaForm

/-- The state of a form at one moment. -/
structure Snapshot where
  values : OrderedMap Value
  /-- Messages by property. -/
  errors : OrderedMap String
  touched : OrderedMap Bool
  submitting : Bool
  valid : Bool

namespace Snapshot

/-- Reads the fields of a snapshot. -/
def readFields (members : List (String × Value)) : Checked Snapshot :=
  Snapshot.mk
    <$> optional ["values"] ∅ (readObject readAny) members
    <*> optional ["errors"] ∅ (readObject readText) members
    <*> optional ["touched"] ∅ (readObject readFlag) members
    <*> optional ["is_submitting"] false readFlag members
    <*> optional ["is_valid"] true readFlag members

/-- Reads a snapshot. -/
def read : Value → Checked Snapshot := readModel "FormState" readFields

/-- `error_count`: how many properties have a message. -/
def errorCount (s : Snapshot) : Nat := s.errors.size

/-- `visible_error`: the message for a name that was touched. -/
def visibleError (s : Snapshot) (name : String) : Option String :=
  if (s.touched.get? name).getD false then s.errors.get? name else none

/-- Whether a name is private to the host; no field of a snapshot has such a name. -/
def isPrivateName (name : String) : Bool := name.toList.head? == some '_'

/-- Writes to an attribute of a snapshot. Only a name that is private to the host can be written to, and
that does not change the snapshot. -/
def assign (s : Snapshot) (name : String) : Checked Snapshot :=
  if isPrivateName name then .ok s else (Checked.fail .frozen).under (.field name)

end Snapshot

/-- `snapshot`: the fields of a store as they are now. -/
def Store.snapshot (s : Store) : Snapshot :=
  { values := s.values
    errors := s.messages
    touched := .ofList (s.touched.map (·, true))
    submitting := s.submitting
    valid := s.valid }

end SchemaForm
