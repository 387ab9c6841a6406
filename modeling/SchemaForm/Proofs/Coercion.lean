import SchemaForm.Proofs.Number.Readers
import SchemaForm.Proofs.OrderedMap
import SchemaForm.Proofs.Validation

/-!
# Texts that were accepted as numbers

A numeric field may hold a text. `validate_property` reads it to decide whether it may stand in the form, and
`parse_number` reads it to hand on a number, each in its own way. This module says when the two agree.

* `Property.Readable` — the spellings, among those that are accepted, that coercion can read too:
  separators between digits only, and no whole number with a point that is too large for the 64-bit
  format;
* `coerce_eq_number_iff` — exactly those become numbers, and exactly the others are reported;
* `coerce_same_iff` — the number is the one that validation has read, except for whole numbers that are
  written with a point and have more than 53 binary digits.
-/

namespace SchemaForm

/-! ## Accepted texts -/

namespace Property

variable {p : Property} {required : Bool} {s : String}

/-- An accepted text of a numeric property was read as a number of one of the two kinds. -/
theorem read_of_accepted (hnumeric : p.isNumeric = true) (hfilled : s ≠ "")
    (h : p.violation? required (.text s) = none) :
    (p.type = .number ∧ ∃ x, typedNumber? s = some x) ∨
      (p.type = .integer ∧ ∃ n, typedInteger? s = some n) := by
  obtain ⟨read, hread⟩ := exists_convert?_of_accepted (by simpa [Value.isEmpty] using hfilled) h
  rw [isNumeric] at hnumeric
  cases htype : p.type with
  | number =>
    rw [htype] at hread
    obtain ⟨x, hx, -⟩ := Option.map_eq_some_iff.mp hread
    exact Or.inl ⟨rfl, x, hx⟩
  | integer =>
    rw [htype] at hread
    obtain ⟨n, hn, -⟩ := Option.map_eq_some_iff.mp hread
    exact Or.inr ⟨rfl, n, hn⟩
  | string => rw [htype] at hnumeric; exact absurd hnumeric (by decide)
  | boolean => rw [htype] at hnumeric; exact absurd hnumeric (by decide)

theorem number?_of_typedNumber? {x : Binary64} (htype : p.type = .number)
    (h : typedNumber? s = some x) :
    p.number? (.text s) = if separatesDigits false s.toList then some (.float x) else none := by
  have hnumeric : p.isNumeric = true := by rw [isNumeric, htype]; rfl
  have hinteger : (p.type == .integer) = false := by rw [htype]; rfl
  simp only [number?, hnumeric, hinteger, if_true]
  exact readNumber?_of_typedNumber? h

theorem number?_of_typedInteger? {n : Int} (htype : p.type = .integer)
    (h : typedInteger? s = some n) :
    p.number? (.text s) =
      if '.' ∈ s.toList then (Binary64.ofInt n).toInt?.map .int else some (.int n) := by
  have hnumeric : p.isNumeric = true := by rw [isNumeric, htype]; rfl
  have hinteger : (p.type == .integer) = true := by rw [htype]; rfl
  simp only [number?, hnumeric, hinteger, if_true]
  exact readNumber?_of_typedInteger? h

/-- Whether coercion can read a text that was accepted. -/
def Readable (p : Property) (s : String) : Prop :=
  (p.type = .number → separatesDigits false s.toList = true) ∧
    (p.type = .integer → '.' ∈ s.toList →
      ∀ n, typedInteger? s = some n → n.natAbs < Binary64.finiteBound)

/-- An accepted text is replaced by a number exactly if coercion can read it. -/
theorem isSome_number?_iff (hnumeric : p.isNumeric = true) (hfilled : s ≠ "")
    (h : p.violation? required (.text s) = none) :
    (p.number? (.text s)).isSome = true ↔ p.Readable s := by
  rcases read_of_accepted hnumeric hfilled h with ⟨htype, x, hx⟩ | ⟨htype, n, hn⟩
  · rw [number?_of_typedNumber? htype hx, Readable, htype]
    by_cases hbetween : separatesDigits false s.toList = true
    · simp [hbetween]
    · simp [hbetween]
  · rw [number?_of_typedInteger? htype hn, Readable, htype]
    by_cases hpoint : '.' ∈ s.toList
    · rw [if_pos hpoint, Option.isSome_map, Binary64.isSome_toInt?_ofInt]
      simp [hpoint, hn]
    · simp [hpoint]

end Property

/-! ## Values that are handed on -/

theorem Number.toValue_ne_text (number : Number) (s : String) : number.toValue ≠ .text s := by
  cases number <;> simp [toValue]

theorem Number.toValue_inj {m n : Number} (h : m.toValue = n.toValue) : m = n := by
  cases m <;> cases n <;> simp_all [toValue]

theorem typedNumber?_ne_nan {s : String} {x : Binary64} (h : typedNumber? s = some x) : x ≠ .nan := by
  obtain ⟨d, -, hx⟩ := Option.bind_eq_some_iff.mp h
  rintro rfl
  dsimp only at hx
  split at hx
  · next hfinite =>
    rw [Option.some.inj hx] at hfinite
    exact absurd hfinite (by decide)
  · exact absurd hx (by simp)

section

variable {schema : Schema} {values : OrderedMap Value} {name s : String} {p : Property}

theorem get?_coerce (hdeclared : schema.property? name = some p)
    (hstored : values.get? name = some (.text s)) :
    (schema.coerce values).get? name = some (p.coerce (.text s)) := by
  rw [Schema.coerce, OrderedMap.get?_map, hstored, Option.map_some, Schema.coerceValue, hdeclared]

/-- A text is replaced exactly by what coercion reads. -/
theorem get?_coerce_eq_number_iff (hdeclared : schema.property? name = some p)
    (hstored : values.get? name = some (.text s)) {number : Number} :
    (schema.coerce values).get? name = some number.toValue ↔ p.number? (.text s) = some number := by
  rw [get?_coerce hdeclared hstored, Option.some.injEq, Property.coerce]
  cases hread : p.number? (.text s) with
  | none => simpa using Ne.symm (Number.toValue_ne_text number s)
  | some other =>
    rw [Option.some.injEq]
    exact ⟨Number.toValue_inj, congrArg Number.toValue⟩

/-- A text that stays is reported, under the name of its property. -/
theorem keptText_mem_coerceEvents_iff (hdeclared : schema.property? name = some p)
    (hstored : values.get? name = some (.text s)) :
    Event.keptText name ∈ schema.coerceEvents values ↔ p.keepsText (.text s) = true := by
  unfold Schema.coerceEvents
  rw [List.mem_filterMap]
  constructor
  · rintro ⟨⟨other, q⟩, hmem, hevent⟩
    dsimp only at hevent
    split at hevent
    · next hkeeps =>
      obtain rfl : other = name := by simpa using hevent
      have hq : schema.property? other = some q := OrderedMap.get?_eq_some_iff.mpr hmem
      obtain rfl : q = p := Option.some.inj (hq.symm.trans hdeclared)
      simpa [hstored] using hkeeps
    · exact absurd hevent (by simp)
  · intro hkeeps
    exact ⟨(name, p), OrderedMap.get?_eq_some_iff.mp hdeclared, by simp [hstored, hkeeps]⟩

/-- **What becomes a number.** Of the texts that were accepted as numbers exactly the readable ones are
replaced by numbers, and exactly the others are reported as texts that stay. -/
theorem coerce_eq_number_iff (hdeclared : schema.property? name = some p)
    (hnumeric : p.isNumeric = true) (hstored : values.get? name = some (.text s)) (hfilled : s ≠ "")
    (haccepted : schema.violation? name (.text s) = none) :
    ((∃ number : Number, (schema.coerce values).get? name = some number.toValue) ↔ p.Readable s) ∧
      (Event.keptText name ∈ schema.coerceEvents values ↔ ¬ p.Readable s) := by
  have haccepted' : p.violation? (schema.isRequired name) (.text s) = none := by
    simpa [Schema.violation?, hdeclared] using haccepted
  have hreadable := Property.isSome_number?_iff hnumeric hfilled haccepted'
  constructor
  · simp only [get?_coerce_eq_number_iff hdeclared hstored]
    rw [← hreadable, Option.isSome_iff_exists]
  · rw [keptText_mem_coerceEvents_iff hdeclared hstored, ← hreadable]
    simp [Property.keepsText, hnumeric, hfilled]

/-- A form with a whole number and another number, neither of which has to be given. -/
def measurements : Schema :=
  { title := none
    description := none
    properties := .ofList [("count", { type := .integer }), ("weight", { type := .number })]
    required := [] }

/-- The values of such a form, as they were typed in. -/
def typedMeasurements (count weight : String) : OrderedMap Value :=
  .ofList [("count", .text count), ("weight", .text weight)]

theorem coerce_eq_number_iff_grouped :
    measurements.property? "weight" = some { type := .number } ∧
      ({ type := .number } : Property).isNumeric = true ∧
      (typedMeasurements "" " -1_000.5e-3").get? "weight" = some (.text " -1_000.5e-3") ∧
      " -1_000.5e-3" ≠ "" ∧ measurements.violation? "weight" (.text " -1_000.5e-3") = none ∧
      ((∃ number : Number, (measurements.coerce (typedMeasurements "" " -1_000.5e-3")).get? "weight" =
        some number.toValue) ↔ ({ type := .number } : Property).Readable " -1_000.5e-3") ∧
      (Event.keptText "weight" ∈ measurements.coerceEvents (typedMeasurements "" " -1_000.5e-3") ↔
        ¬ ({ type := .number } : Property).Readable " -1_000.5e-3") := by
  have hdeclared : measurements.property? "weight" = some { type := .number } := rfl
  have hstored : (typedMeasurements "" " -1_000.5e-3").get? "weight" =
      some (.text " -1_000.5e-3") := rfl
  have haccepted : measurements.violation? "weight" (.text " -1_000.5e-3") = none := by
    decide +kernel
  exact ⟨hdeclared, rfl, hstored, by decide, haccepted,
    coerce_eq_number_iff hdeclared rfl hstored (by decide) haccepted⟩

/-- A text that was accepted and stays a text: it has a separator in front of its exponent. -/
theorem coerce_keeps_accepted_text :
    measurements.violation? "weight" (.text "1_e5") = none ∧
      (measurements.coerce (typedMeasurements "" "1_e5")).get? "weight" = some (.text "1_e5") := by
  have hread : ({ type := .number } : Property).number? (.text "1_e5") = none := by decide +kernel
  refine ⟨by decide +kernel, ?_⟩
  rw [get?_coerce (p := { type := .number }) (s := "1_e5") rfl rfl, Property.coerce, hread]

/-- **The number that was accepted is the number that is handed on**, unless it is a whole number that is
written with a point and does not fit into the mantissa of the 64-bit format. -/
theorem coerce_same_iff (hdeclared : schema.property? name = some p)
    (hnumeric : p.isNumeric = true) (hstored : values.get? name = some (.text s)) (hfilled : s ≠ "")
    (haccepted : schema.violation? name (.text s) = none) {number : Number}
    (hreplaced : (schema.coerce values).get? name = some number.toValue) :
    ∃ read, p.type.convert? (.text s) = some read ∧
      (number.toValue.same read = true ↔
        (p.type = .integer → '.' ∈ s.toList →
          ∀ n, read = .int n → Binary64.HasShortMantissa n.natAbs)) := by
  have haccepted' : p.violation? (schema.isRequired name) (.text s) = none := by
    simpa [Schema.violation?, hdeclared] using haccepted
  have hread := (get?_coerce_eq_number_iff hdeclared hstored).mp hreplaced
  rcases Property.read_of_accepted hnumeric hfilled haccepted' with ⟨htype, x, hx⟩ | ⟨htype, n, hn⟩
  · refine ⟨.float x, by simp [htype, PropertyType.convert?, PropertyType.convertNumber?, hx], ?_⟩
    rw [Property.number?_of_typedNumber? htype hx] at hread
    split at hread
    · obtain rfl := Option.some.inj hread
      have hsame : (Value.float x).same (.float x) = true :=
        Binary64.sameNumber_self (typedNumber?_ne_nan hx)
      simp [Number.toValue, hsame, htype]
    · exact absurd hread (by simp)
  · refine ⟨.int n, by simp [htype, PropertyType.convert?, PropertyType.convertInteger?, hn], ?_⟩
    rw [Property.number?_of_typedInteger? htype hn] at hread
    have hsame : ∀ m : Int, (Value.int m).same (.int n) = true ↔ m = n := by
      intro m
      simp [Value.same, Value.standsFor, Value.number?, Number.same]
    split at hread
    · next hpoint =>
      -- with a point in it the text is read as a floating point number first
      obtain ⟨m, hm, rfl⟩ := Option.map_eq_some_iff.mp hread
      have hfits : n.natAbs < Binary64.finiteBound :=
        Binary64.isSome_toInt?_ofInt.mp (by rw [hm]; rfl)
      have hexact : m = n ↔ Binary64.HasShortMantissa n.natAbs := by
        have := Binary64.toInt?_ofInt_eq_self_iff (n := n)
        rw [hm, Option.some.injEq] at this
        simpa [hfits] using this
      rw [Number.toValue, hsame, hexact]
      simp [htype, hpoint]
    · next hpoint =>
      obtain rfl := Option.some.inj hread
      rw [Number.toValue, hsame]
      simp [hpoint]

theorem coerce_same_iff_pointed :
    measurements.property? "count" = some { type := .integer } ∧
      ({ type := .integer } : Property).isNumeric = true ∧
      (typedMeasurements "+9_007_199_254_740_994.00" "").get? "count" =
        some (.text "+9_007_199_254_740_994.00") ∧
      "+9_007_199_254_740_994.00" ≠ "" ∧
      measurements.violation? "count" (.text "+9_007_199_254_740_994.00") = none ∧
      (measurements.coerce (typedMeasurements "+9_007_199_254_740_994.00" "")).get? "count" =
        some (Number.int 9007199254740994).toValue ∧
      ∃ read, PropertyType.integer.convert? (.text "+9_007_199_254_740_994.00") = some read ∧
        ((Number.int 9007199254740994).toValue.same read = true ↔
          (PropertyType.integer = .integer → '.' ∈ "+9_007_199_254_740_994.00".toList →
            ∀ n, read = .int n → Binary64.HasShortMantissa n.natAbs)) := by
  have hdeclared : measurements.property? "count" = some { type := .integer } := rfl
  have hstored : (typedMeasurements "+9_007_199_254_740_994.00" "").get? "count" =
      some (.text "+9_007_199_254_740_994.00") := rfl
  have haccepted : measurements.violation? "count" (.text "+9_007_199_254_740_994.00") = none := by
    decide +kernel
  have hreplaced : (measurements.coerce (typedMeasurements "+9_007_199_254_740_994.00" "")).get?
      "count" = some (Number.int 9007199254740994).toValue :=
    (get?_coerce_eq_number_iff hdeclared hstored).mpr (by decide +kernel)
  exact ⟨hdeclared, rfl, hstored, by decide, haccepted, hreplaced,
    coerce_same_iff hdeclared rfl hstored (by decide) haccepted hreplaced⟩

/-- A whole number that was accepted as it stands and is handed on as another: it has one binary digit
more than the mantissa. -/
theorem coerce_rounds_accepted_number :
    measurements.violation? "count" (.text "9007199254740993.0") = none ∧
      PropertyType.integer.convert? (.text "9007199254740993.0") = some (.int 9007199254740993) ∧
      (measurements.coerce (typedMeasurements "9007199254740993.0" "")).get? "count" =
        some (Number.int 9007199254740992).toValue ∧
      (Number.int 9007199254740992).toValue.same (.int 9007199254740993) = false := by
  have hdeclared : measurements.property? "count" = some { type := .integer } := rfl
  have hread : typedInteger? "9007199254740993.0" = some 9007199254740993 := by decide +kernel
  refine ⟨by decide +kernel, ?_, ?_, by decide +kernel⟩
  · rw [PropertyType.convert?, PropertyType.convertInteger?, hread]
    rfl
  · exact (get?_coerce_eq_number_iff hdeclared rfl).mpr (by decide +kernel)

end

end SchemaForm
