import SchemaForm.View

/-!
# Widget registries

Which class of widget shows which kind of field (`WidgetRegistry`). A host may add kinds, and take some away;
a kind that is not registered is shown by the class of the fallback.

* `Registry` — the table and the fallback; `Registry.standard` is `default_registry`;
* `Registry.register`, `unregister`, `copy` — the methods of those names; `Registry.Edit` — a call of one, or
  a new fallback;
* `Registry.resolve` — the class for a kind (`resolve`); `MissingFallback` — why there is none;
* `Registry.create` — the widget for a field (`create`).

A class makes a widget of whatever it is given: factories of a host that raise are no part of this library.
-/

namespace SchemaForm

/-- Classes of widgets by the kind of field that they show. -/
structure Registry where
  classes : OrderedMap WidgetClass := ∅
  /-- The kind that stands in for those that are not registered. -/
  fallback : String := Kind.text.name

/-- Why `resolve` finds nothing: a kind is not registered, and neither is this fallback. -/
structure MissingFallback where
  kind : String
  deriving DecidableEq, Repr

namespace Registry

/-- `default_registry`: the built-in widgets under their kinds. -/
def standard : Registry :=
  { classes := .ofList
      [(Kind.text.name, .text), (Kind.email.name, .text), (Kind.number.name, .number),
        (Kind.textarea.name, .textarea), (Kind.select.name, .select),
        (Kind.checkbox.name, .checkbox)] }

/-- `register`: a kind that was registered before keeps its place. -/
def register (r : Registry) (kind : String) (cls : WidgetClass) : Registry :=
  { r with classes := r.classes.insert kind cls }

/-- `unregister`: a kind that is not registered is passed over. -/
def unregister (r : Registry) (kind : String) : Registry :=
  { r with classes := r.classes.erase kind }

/-- `copy`: a registry of its own with the same classes and the same fallback. -/
def copy (r : Registry) : Registry :=
  { classes := .ofList r.classes.entries
    fallback := r.fallback }

/-- What a host does to a registry. After a copy it goes on with the copy. -/
inductive Edit where
  | register (kind : String) (cls : WidgetClass)
  | unregister (kind : String)
  | copy
  | setFallback (kind : String)

/-- The registry after an edit. -/
def edit (r : Registry) : Edit → Registry
  | .register kind cls => r.register kind cls
  | .unregister kind => r.unregister kind
  | .copy => r.copy
  | .setFallback kind => { r with fallback := kind }

/-- The registry after several edits, one after the other. -/
def edited (r : Registry) (edits : List Edit) : Registry := edits.foldl edit r

/-- Whether a kind is registered. -/
def contains (r : Registry) (kind : String) : Bool := r.classes.contains kind

/-- The registered kinds, in order. -/
def kinds (r : Registry) : List String := r.classes.keys

/-- `resolve`: the class for a kind, or the one of the fallback if the kind is not registered. -/
def resolve (r : Registry) (kind : String) : Except MissingFallback WidgetClass :=
  match r.classes.get? kind with
  | some cls => .ok cls
  | none =>
    match r.classes.get? r.fallback with
    | some cls => .ok cls
    | none => .error ⟨r.fallback⟩

/-- `create`: the widget for a field, by its kind. -/
def create (r : Registry) (b : Binding) : Except MissingFallback Widget :=
  (r.resolve b.kind).map (⟨·, b⟩)

/-- Nothing is found exactly if neither the kind nor the fallback is registered. -/
theorem resolve_eq_error_iff {r : Registry} {kind : String} {e : MissingFallback} :
    r.resolve kind = .error e ↔
      kind ∉ r.kinds ∧ r.fallback ∉ r.kinds ∧ e = ⟨r.fallback⟩ := by
  simp only [kinds, OrderedMap.mem_keys_iff, resolve]
  cases r.classes.get? kind <;> cases r.classes.get? r.fallback <;> simp [eq_comm]

end Registry

end SchemaForm
