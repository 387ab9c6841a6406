import SchemaForm.Proofs.Validation
import SchemaForm.Proofs.Value.Equality

/-!
# The choices of a property as its values

`_check_choice` compares the choices of a property as they are declared with a value as its type reads it. This
module says which choices survive that.

* `PropertyType.Keeps` — the values that are the same after reading: no text that is read as a number,
  and no whole number that is rounded on the way;
* `PropertyType.same_self_iff_keeps`, `PropertyType.same_of_keeps` — exactly these are the same as what
  is read of them, and they are the same as the same values;
* `Property.accepts_own_choice_iff` — a choice that is kept is accepted whenever its type accepts it; any
  other choice only if what is read of it happens to be another choice.
-/

namespace SchemaForm

/-! ## Values that are kept -/

namespace PropertyType

/-- Whether a value is the same after it was read as its type. -/
def Keeps : PropertyType → Value → Prop
  | .number, .int n => Binary64.HasShortMantissa n.natAbs
  | type, .text _ => type.isNumeric = false
  | _, _ => True

instance (type : PropertyType) (v : Value) : Decidable (type.Keeps v) := by
  cases type <;> cases v <;> unfold Keeps <;> infer_instance

variable {type : PropertyType} {v read : Value}

/-- A value that can be read is the same as itself. -/
theorem same_self_of_convert? (hread : type.convert? v = some read) : v.same v = true := by
  cases v with
  | bool flag => simp [Value.same, Value.standsFor, Value.number?, Number.same]
  | int n => simp [Value.same, Value.standsFor, Value.number?, Number.same]
  | text s => simp [Value.same]
  | float x =>
    have hx : x ≠ .nan := by
      rintro rfl
      cases type <;> exact absurd hread (by simp [convert?, convertNumber?, convertInteger?, finite?,
        Binary64.isFinite, Binary64.toInt?])
    simp [Value.same, Value.standsFor, Value.number?, Number.same, Binary64.sameNumber_self hx]
  | _ => cases type <;> exact absurd hread (by simp [convert?, convertNumber?, convertInteger?])

/-- What is kept is the same as the same values as before. -/
theorem same_of_keeps (hread : type.convert? v = some read) (hkeeps : type.Keeps v) (w : Value) :
    read.same w = v.same w := by
  cases type with
  | number =>
    cases v with
    | int n =>
      -- a whole number is read as the nearest one of the format, which is the number itself if it is kept
      obtain ⟨hfinite, rfl⟩ := finite?_eq_some_iff.mp hread
      have hexact : (Binary64.ofInt n).toInt? = some n :=
        Binary64.toInt?_ofInt_eq_self_iff.mpr ⟨Binary64.isFinite_ofInt_iff.mp hfinite, hkeeps⟩
      exact Value.same_float_of_toInt? hexact w
    | float x =>
      obtain ⟨-, rfl⟩ := finite?_eq_some_iff.mp hread
      rfl
    | text s => exact absurd hkeeps (by simp [Keeps, isNumeric])
    | _ => exact absurd hread (by simp [convert?, convertNumber?])
  | integer =>
    cases v with
    | int n =>
      obtain rfl := Option.some.inj hread
      rfl
    | float x =>
      obtain ⟨n, hn, rfl⟩ := Option.map_eq_some_iff.mp hread
      exact (Value.same_float_of_toInt? (Option.filter_eq_some_iff.mp hn).1 w).symm
    | text s => exact absurd hkeeps (by simp [Keeps, isNumeric])
    | _ => exact absurd hread (by simp [convert?, convertInteger?])
  | string =>
    cases v with
    | text s => obtain rfl := Option.some.inj hread; rfl
    | _ => exact absurd hread (by simp [convert?])
  | boolean =>
    cases v with
    | bool flag => obtain rfl := Option.some.inj hread; rfl
    | _ => exact absurd hread (by simp [convert?])

/-- Exactly what is kept is the same as what is read of it. -/
theorem same_self_iff_keeps (hread : type.convert? v = some read) :
    read.same v = true ↔ type.Keeps v := by
  constructor
  · intro hsame
    cases type with
    | number =>
      cases v with
      | int n =>
        obtain ⟨-, rfl⟩ := finite?_eq_some_iff.mp hread
        have hexact : (Binary64.ofInt n).toInt? = some n := by
          simpa [Value.same, Value.standsFor, Value.number?, Number.same] using hsame
        exact (Binary64.toInt?_ofInt_eq_self_iff.mp hexact).2
      | text s =>
        obtain ⟨x, -, rfl⟩ := convertNumber?_eq_some (v := .text s) hread
        exact absurd hsame (by simp [Value.same, Value.standsFor, Value.number?])
      | _ => trivial
    | integer =>
      cases v with
      | text s =>
        obtain ⟨n, rfl⟩ := convertInteger?_eq_some (v := .text s) hread
        exact absurd hsame (by simp [Value.same, Value.standsFor, Value.number?])
      | _ => trivial
    | string => cases v <;> first | rfl | trivial
    | boolean => cases v <;> first | rfl | trivial
  · intro hkeeps
    rw [same_of_keeps hread hkeeps]
    exact same_self_of_convert? hread

end PropertyType

/-! ## Choices -/

namespace Property

variable {p : Property} {required : Bool} {v read : Value}

theorem lists_iff : p.lists v = true ↔ ∃ choice ∈ p.allowed, v.same choice = true := List.any_eq_true

theorem isClosedChoice_of_mem (h : v ∈ p.allowed) : p.isClosedChoice = true := by
  by_contra hopen
  rw [allowed_eq_nil (eq_false_of_ne_true hopen)] at h
  exact List.not_mem_nil h

/-- What is kept is listed if it was listed before. -/
theorem lists_of_keeps (hread : p.type.convert? v = some read) (hkeeps : p.type.Keeps v) :
    p.lists read = p.lists v := by
  have hsame : read.same = v.same := funext (PropertyType.same_of_keeps hread hkeeps)
  rw [lists, lists, hsame]

/-- The property without its choices: any value of its type may stand there. -/
def withoutChoices (p : Property) : Property := { p with enum := none, oneOf := none }

/-- Without choices it is enough that a value can be read. -/
theorem violation?_withoutChoices (hfilled : v.isEmpty = false) :
    p.withoutChoices.violation? required v = none ↔ ∃ read, p.type.convert? v = some read := by
  have hopen : p.withoutChoices.isClosedChoice = false := rfl
  have htype : p.withoutChoices.type = p.type := rfl
  rw [violation?_eq, hfilled, hopen, htype]
  cases p.type.convert? v with
  | none => simp
  | some read => simp

/-- In a closed choice what is read has to be listed. -/
theorem violation?_eq_none_iff_lists (hclosed : p.isClosedChoice = true) (hfilled : v.isEmpty = false)
    (hread : p.type.convert? v = some read) :
    p.violation? required v = none ↔ p.lists read = true := by
  rw [violation?_eq, hfilled, hread, hclosed]
  simp

/-- **Whether a choice is accepted as a value.** A choice that its type can read is accepted if it is
kept. A choice that is not kept is no longer the same as itself, and is accepted only if what is read of
it is another choice. -/
theorem accepts_own_choice_iff (hmem : v ∈ p.allowed) (hfilled : v.isEmpty = false)
    (haccepted : p.withoutChoices.violation? required v = none) :
    ∃ read, p.type.convert? v = some read ∧ (read.same v = true ↔ p.type.Keeps v) ∧
      (p.type.Keeps v → p.violation? required v = none) ∧
      (¬ p.type.Keeps v →
        (p.violation? required v = none ↔ ∃ other ∈ p.allowed, read.same other = true)) := by
  obtain ⟨read, hread⟩ := (violation?_withoutChoices hfilled).mp haccepted
  have hclosed := isClosedChoice_of_mem hmem
  have hlisted : p.violation? required v = none ↔ p.lists read = true :=
    violation?_eq_none_iff_lists hclosed hfilled hread
  refine ⟨read, hread, PropertyType.same_self_iff_keeps hread, fun hkeeps => ?_, fun _ => ?_⟩
  · rw [hlisted, lists_of_keeps hread hkeeps, lists_iff]
    exact ⟨v, hmem, PropertyType.same_self_of_convert? hread⟩
  · rw [hlisted, lists_iff]

/-- A number of which two are allowed, the one a whole number of more than 53 binary digits. -/
def longOrText : Property :=
  { type := .number, enum := some [.int 9007199254740994, .text "2"] }

theorem accepts_own_choice_iff_long :
    .int 9007199254740994 ∈ longOrText.allowed ∧ (Value.int 9007199254740994).isEmpty = false ∧
      longOrText.withoutChoices.violation? true (.int 9007199254740994) = none ∧
      ∃ read, longOrText.type.convert? (.int 9007199254740994) = some read ∧
        (read.same (.int 9007199254740994) = true ↔ longOrText.type.Keeps (.int 9007199254740994)) ∧
        (longOrText.type.Keeps (.int 9007199254740994) →
          longOrText.violation? true (.int 9007199254740994) = none) ∧
        (¬ longOrText.type.Keeps (.int 9007199254740994) →
          (longOrText.violation? true (.int 9007199254740994) = none ↔
            ∃ other ∈ longOrText.allowed, read.same other = true)) := by
  have hmem : .int 9007199254740994 ∈ longOrText.allowed := List.mem_cons_self ..
  have haccepted : longOrText.withoutChoices.violation? true (.int 9007199254740994) = none := by
    decide +kernel
  exact ⟨hmem, rfl, haccepted, accepts_own_choice_iff hmem rfl haccepted⟩

/-- A number of which one is allowed: a whole number that has one binary digit more than the mantissa. -/
def oddAndLong : Property := { type := .number, enum := some [.int 9007199254740993] }

/-- Two choices that their type accepts and the property refuses: a whole number that is rounded, and a
text that is read as a number. -/
theorem own_choice_refused :
    (.text "2" ∈ longOrText.allowed ∧ (Value.text "2").isEmpty = false ∧
      longOrText.withoutChoices.violation? true (.text "2") = none ∧
      longOrText.violation? true (.text "2") = some .notAllowed) ∧
    (.int 9007199254740993 ∈ oddAndLong.allowed ∧ (Value.int 9007199254740993).isEmpty = false ∧
      oddAndLong.withoutChoices.violation? true (.int 9007199254740993) = none ∧
      oddAndLong.violation? true (.int 9007199254740993) = some .notAllowed) := by
  refine ⟨⟨?_, rfl, by decide +kernel, by decide +kernel⟩,
    ⟨List.mem_cons_self .., rfl, by decide +kernel, by decide +kernel⟩⟩
  exact List.mem_cons_of_mem _ (List.mem_cons_self ..)

end Property

end SchemaForm
