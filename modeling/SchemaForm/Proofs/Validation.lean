import SchemaForm.Validation

/-!
# The order of the rules

A `PropertyRule` stacks its validators around that of the type, each around the ones before it. This module
writes out what that amounts to: which of the rules comes first.

* `Property.reader_eq` — the checks in the order in which they refuse a value;
* `Property.violation?_eq` — the rules in the order in which they are reported;
* `PropertyType.convert?_convert?` — reading what was read changes nothing;
* `Property.message_in_order` — the message of every value; for a value that is not empty it depends
  neither on whether one is required nor on the spelling.
-/

namespace SchemaForm

/-! ## Readers -/

namespace PropertyType

/-- With true and false set aside for numbers, both ways to read a value are one. -/
theorem convert?_eq (type : PropertyType) (v : Value) :
    type.convert? v = if type.isNumeric && v.isFlag then none else type.lax? v := by
  cases type <;> cases v <;> rfl

theorem lax?_ne_null {type : PropertyType} {v : Value} : type.lax? v ≠ some .null := by
  cases type <;> cases v <;> simp [lax?, convert?, convertNumber?, convertInteger?, finite?]

end PropertyType

theorem Reader.orNull_of_ne_null {reader : Reader} {v : Value} (h : v ≠ .null) :
    reader.orNull v = reader v := by
  cases v with
  | null => exact absurd rfl h
  | _ => rfl

/-! ## The checks in their order -/

namespace Property

/-- The innermost check tells null and the empty text from what has to be read. -/
theorem ofFilled_bind (required : Bool) (reader : Reader) (v : Value) :
    (Reader.ofFilled required v >>= reader.orNull) =
      if v.isEmpty then (if required then .error .missing else .ok .null) else reader v := by
  unfold Reader.ofFilled
  by_cases hempty : v.isEmpty = true
  · simp only [hempty, if_true]
    cases required <;> rfl
  · have hnull : v ≠ .null := by
      rintro rfl
      exact hempty rfl
    simp only [hempty, Bool.false_eq_true, if_false]
    exact Reader.orNull_of_ne_null hnull

/-- No value is both empty and true or false, so that the check for the one may come after that for the
other. -/
theorem ofNumber_bind (required : Bool) (reader : Reader) (v : Value) :
    (Reader.ofNumber v >>= fun v =>
        if v.isEmpty then (if required then .error .missing else .ok .null) else reader v) =
      if v.isEmpty then (if required then .error .missing else .ok .null)
      else if v.isFlag then .error .flag else reader v := by
  cases v <;> rfl

/-- The reader without the check of the choices. -/
theorem foldl_checksBefore (p : Property) (required : Bool) :
    (p.checksBefore required).foldl Reader.within (Reader.ofType p.type).orNull = fun v =>
      if v.isEmpty then (if required then .error .missing else .ok .null)
      else if p.isNumeric && v.isFlag then .error .flag else Reader.ofType p.type v := by
  funext v
  cases hnumeric : p.isNumeric with
  | false =>
    simp only [checksBefore, hnumeric, Bool.false_eq_true, if_false, List.foldl_cons, List.foldl_nil,
      Reader.within, ofFilled_bind, Bool.false_and]
  | true =>
    simp only [checksBefore, hnumeric, if_true, List.foldl_cons, List.foldl_nil, Reader.within,
      ofFilled_bind, Bool.true_and, ofNumber_bind]

/-- How a value is read, with the checks in the order in which they refuse it. -/
theorem reader_eq (p : Property) (required : Bool) (v : Value) :
    p.reader required v =
      if v.isEmpty then (if required then .error .missing else .ok .null)
      else if p.isNumeric && v.isFlag then .error .flag
      else match p.type.lax? v with
        | none => .error .unreadable
        | some read => if p.isClosedChoice && !p.lists read then .error .unlisted else .ok read := by
  rw [reader, List.foldl_append, foldl_checksBefore, checksAfter]
  cases p.isClosedChoice with
  | false =>
    simp only [Bool.false_eq_true, if_false, List.foldl_nil, Reader.ofType, Bool.false_and]
    cases p.type.lax? v <;> rfl
  | true =>
    simp only [if_true, List.foldl_cons, List.foldl_nil, Reader.within, Bool.true_and]
    cases v.isEmpty with
    | true => cases required <;> rfl
    | false =>
      cases p.isNumeric && v.isFlag with
      | true => rfl
      | false =>
        simp only [Bool.false_eq_true, if_false, Reader.ofType]
        -- the check of the choices lets null pass, but nothing is read as null
        have hnull := @PropertyType.lax?_ne_null p.type v
        cases hread : p.type.lax? v with
        | none => rfl
        | some read =>
          have hne : read ≠ .null := fun h => hnull (hread.trans (congrArg some h))
          show p.ofListed.orNull read = _
          rw [Reader.orNull_of_ne_null hne, ofListed]
          dsimp only
          cases p.lists read <;> rfl

/-! ## The rules in their order -/

theorem violation?_eq (p : Property) (required : Bool) (v : Value) :
    p.violation? required v =
      if v.isEmpty then (if required then some .required else none)
      else match p.type.convert? v with
        | none => some (.wrongType p.type)
        | some read => if p.isClosedChoice && !p.lists read then some .notAllowed else none := by
  rw [violation?, reader_eq, PropertyType.convert?_eq]
  by_cases hempty : v.isEmpty = true
  · simp only [hempty, if_true]
    cases required <;> rfl
  · simp only [hempty, Bool.false_eq_true, if_false]
    by_cases hflag : (p.isNumeric && v.isFlag) = true
    · have hflag' : (p.type.isNumeric && v.isFlag) = true := hflag
      simp only [hflag, hflag', if_true]
      rfl
    · have hflag' : ¬ (p.type.isNumeric && v.isFlag) = true := hflag
      simp only [hflag, hflag', Bool.false_eq_true, if_false]
      cases p.type.lax? v with
      | none => rfl
      | some read =>
        dsimp only
        cases p.isClosedChoice && !p.lists read <;> rfl

/-- For a value that is not empty it does not matter whether one is required. -/
theorem violation?_of_not_isEmpty {p : Property} {v : Value} (h : v.isEmpty = false)
    (required other : Bool) : p.violation? required v = p.violation? other v := by
  simp [violation?_eq, h]

/-- Two values that are read alike are judged alike. -/
theorem violation?_congr {p : Property} {v w : Value} (hv : v.isEmpty = false) (hw : w.isEmpty = false)
    (h : p.type.convert? v = p.type.convert? w) (required : Bool) :
    p.violation? required v = p.violation? required w := by
  simp only [violation?_eq, hv, hw, h]

/-- A value that is accepted and not empty can be read as its type. -/
theorem exists_convert?_of_accepted {p : Property} {required : Bool} {v : Value}
    (hfilled : v.isEmpty = false) (h : p.violation? required v = none) :
    ∃ read, p.type.convert? v = some read := by
  cases hread : p.type.convert? v with
  | some read => exact ⟨read, rfl⟩
  | none =>
    rw [violation?_eq, hfilled, hread] at h
    exact absurd h (by simp)

end Property

/-! ## Reading twice -/

theorem isFinite_of_typedNumber? {s : String} {x : Binary64} (h : typedNumber? s = some x) :
    x.isFinite = true := by
  obtain ⟨d, -, hx⟩ := Option.bind_eq_some_iff.mp h
  dsimp only at hx
  split at hx
  · next hfinite => exact Option.some.inj hx ▸ hfinite
  · exact absurd hx (by simp)

namespace PropertyType

theorem finite?_eq_some_iff {x : Binary64} {v : Value} :
    finite? x = some v ↔ x.isFinite = true ∧ v = .float x := by
  unfold finite?
  split
  · next h => simp [h, eq_comm]
  · next h => simp [h]

/-- What is read as a number is a finite one. -/
theorem convertNumber?_eq_some {v read : Value} (h : convertNumber? v = some read) :
    ∃ x : Binary64, x.isFinite = true ∧ read = .float x := by
  cases v with
  | int n => exact ⟨_, finite?_eq_some_iff.mp h⟩
  | float x => exact ⟨_, finite?_eq_some_iff.mp h⟩
  | text s =>
    obtain ⟨x, hx, hread⟩ := Option.map_eq_some_iff.mp h
    exact ⟨x, isFinite_of_typedNumber? hx, hread.symm⟩
  | _ => exact absurd h (by simp [convertNumber?])

/-- What is read as a whole number is one. -/
theorem convertInteger?_eq_some {v read : Value} (h : convertInteger? v = some read) :
    ∃ n : Int, read = .int n := by
  cases v with
  | int n => exact ⟨n, (Option.some.inj h).symm⟩
  | float x =>
    obtain ⟨n, -, hread⟩ := Option.map_eq_some_iff.mp h
    exact ⟨n, hread.symm⟩
  | text s =>
    obtain ⟨n, -, hread⟩ := Option.map_eq_some_iff.mp h
    exact ⟨n, hread.symm⟩
  | _ => exact absurd h (by simp [convertInteger?])

/-- What was read is read as itself. -/
theorem convert?_convert? {type : PropertyType} {v read : Value} (h : type.convert? v = some read) :
    type.convert? read = some read := by
  cases type with
  | number =>
    obtain ⟨x, hfinite, rfl⟩ := convertNumber?_eq_some h
    exact finite?_eq_some_iff.mpr ⟨hfinite, rfl⟩
  | integer =>
    obtain ⟨n, rfl⟩ := convertInteger?_eq_some h
    rfl
  | string =>
    cases v with
    | text s => obtain rfl := Option.some.inj h; rfl
    | _ => exact absurd h (by simp [convert?])
  | boolean =>
    cases v with
    | bool flag => obtain rfl := Option.some.inj h; rfl
    | _ => exact absurd h (by simp [convert?])

/-- Only an empty value is read as one. -/
theorem isEmpty_of_convert? {type : PropertyType} {v read : Value} (h : type.convert? v = some read)
    (hfilled : v.isEmpty = false) : read.isEmpty = false := by
  cases type with
  | number => obtain ⟨x, -, rfl⟩ := convertNumber?_eq_some h; rfl
  | integer => obtain ⟨n, rfl⟩ := convertInteger?_eq_some h; rfl
  | string =>
    cases v with
    | text s => obtain rfl := Option.some.inj h; exact hfilled
    | _ => exact absurd h (by simp [convert?])
  | boolean =>
    cases v with
    | bool flag => obtain rfl := Option.some.inj h; rfl
    | _ => exact absurd h (by simp [convert?])

end PropertyType

/-! ## Messages -/

namespace Property

theorem not_lists_eq_all (p : Property) (v : Value) :
    (!p.lists v) = p.allowed.all fun choice => !v.same choice := by
  rw [lists, List.not_any_eq_all_not]

/-- **The first rule that fails gives the message.** A value that is empty is refused exactly if one is
required. Any other value has to be readable as its type, and true and false are no numbers; what was
read has to be one of the choices of a closed choice. So it does not matter to a value that is not empty
whether one is required, nor whether it is given as it is or as it is read. -/
theorem message_in_order (p : Property) (v : Value) :
    (∀ required, (p.violation? required v).map Violation.message =
      if v.isEmpty then
        if required then some Violation.required.message else none
      else if p.isNumeric && v.isFlag then some (Violation.wrongType p.type).message
      else match p.type.lax? v with
        | none => some (Violation.wrongType p.type).message
        | some read =>
          if p.isClosedChoice && p.allowed.all fun choice => !read.same choice then
            some Violation.notAllowed.message
          else none) ∧
      (v.isEmpty = false → ∀ required other, p.violation? required v = p.violation? other v) ∧
      (v.isEmpty = false → ∀ required read, p.type.convert? v = some read →
        p.violation? required v = p.violation? required read) := by
  refine ⟨fun required => ?_, fun hfilled => violation?_of_not_isEmpty hfilled, ?_⟩
  · rw [violation?, reader_eq]
    cases v.isEmpty with
    | true => cases required <;> rfl
    | false =>
      cases p.isNumeric && v.isFlag with
      | true => rfl
      | false =>
        cases p.type.lax? v with
        | none => rfl
        | some read =>
          simp only [Bool.false_eq_true, if_false, not_lists_eq_all]
          cases p.isClosedChoice && p.allowed.all fun choice => !read.same choice <;> rfl
  · intro hfilled required read hread
    have hread' := PropertyType.convert?_convert? hread
    exact violation?_congr hfilled (PropertyType.isEmpty_of_convert? hread hfilled)
      (hread.trans hread'.symm) required

/-- A whole number of which only two are allowed. -/
def singleOrPair : Property := { type := .integer, enum := some [.int 1, .int 2] }

theorem message_in_order_text :
    (Value.text " 2.0").isEmpty = false ∧
      singleOrPair.type.convert? (.text " 2.0") = some (.int 2) ∧
      singleOrPair.violation? true (.text " 2.0") = singleOrPair.violation? false (.text " 2.0") ∧
      singleOrPair.violation? true (.text " 2.0") = singleOrPair.violation? true (.int 2) := by
  have hread : typedInteger? " 2.0" = some 2 := by decide +kernel
  have hconvert : singleOrPair.type.convert? (.text " 2.0") = some (.int 2) := by
    simp only [singleOrPair, PropertyType.convert?, PropertyType.convertInteger?, hread]
    rfl
  obtain ⟨-, hrequired, hspelling⟩ := message_in_order singleOrPair (.text " 2.0")
  exact ⟨rfl, hconvert, hrequired rfl true false, hspelling rfl true _ hconvert⟩

end Property

end SchemaForm
