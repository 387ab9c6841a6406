import SchemaForm.Proofs.Choice.Member
import SchemaForm.Proofs.Coercion
import SchemaForm.Proofs.Html.Views
import SchemaForm.Proofs.Number.Written

/-!
# Choices that come back as texts

A list of choices offers each choice under its text (`_display_value`), and the text is what comes back when
the choice is taken. This module says what `validate_property` and `coerce_values` make of it.

* `PropertyType.SpelledOut` — the values whose texts their type accepts. On an integer property these are the
  whole numbers of up to `maxDigits` characters, a minus sign among them, and the floating point numbers that
  are written without an exponent;
* `PropertyType.ReadsNumber` — what validation reads from a number;
* `PropertyType.convert?_displayValue` — validation reads the text of such a number as the number itself;
* `PropertyType.readNumber?_displayValue` — coercion does so with any number that can be displayed;
* `posted_text` — the text of an accepted value is accepted as the value is, unless it is true or false,
  which are never accepted as texts; and the text of a number is handed on as the number that was accepted.
-/

namespace SchemaForm

open Html

/-! ## Texts of values -/

namespace Html

theorem displayValue_int {n : Int} (hshort : (Value.int n).Short) :
    displayValue (.int n) = .ok (intText n) := by
  rw [Value.Short] at hshort
  simp only [displayValue, display, Value.display, Value.displayInside, Value.displayInt, if_pos hshort]
  rfl

theorem displayValue_float (x : Binary64) : displayValue (.float x) = .ok x.shown := by
  simp only [displayValue, display, Value.display, Value.displayInside]
  rfl

theorem displayValue_bool (flag : Bool) :
    displayValue (.bool flag) = .ok (if flag then "True" else "False") := by
  simp only [displayValue, display, Value.display, Value.displayInside]
  rfl

end Html

namespace PropertyType

/-- Whether the text of a value is one that its type accepts. The sign of a whole number counts as one of its
characters. -/
def SpelledOut : PropertyType → Value → Prop
  | .integer, .int n => (intText n).length ≤ maxDigits
  | .integer, .float x => ∀ n, x.toInt? = some n → n.natAbs < 10 ^ 16
  | _, _ => True

variable {type : PropertyType} {c read : Value} {text : String}

/-- What validation reads from a value that is a number itself. -/
inductive ReadsNumber : PropertyType → Value → Value → Prop where
  | nearest {n : Int} (hfinite : (Binary64.ofInt n).isFinite = true) :
      ReadsNumber .number (.int n) (.float (.ofInt n))
  | finite {x : Binary64} (hfinite : x.isFinite = true) : ReadsNumber .number (.float x) (.float x)
  | whole (n : Int) : ReadsNumber .integer (.int n) (.int n)
  | integral {x : Binary64} {n : Int} (hwhole : x.toInt? = some n) : ReadsNumber .integer (.float x) (.int n)

/-- Validation reads nothing else from a number than these four things. -/
theorem readsNumber_of_convert? (hnumeric : type.isNumeric = true) (hread : type.convert? c = some read)
    (hnumber : ∀ s, c ≠ .text s) : ReadsNumber type c read := by
  cases type with
  | string => exact absurd hnumeric (by decide)
  | boolean => exact absurd hnumeric (by decide)
  | number =>
    cases c with
    | int n =>
      obtain ⟨hfinite, rfl⟩ := finite?_eq_some_iff.mp hread
      exact .nearest hfinite
    | float x =>
      obtain ⟨hfinite, rfl⟩ := finite?_eq_some_iff.mp hread
      exact .finite hfinite
    | text s => exact absurd rfl (hnumber s)
    | _ => exact absurd hread (by simp [convert?, convertNumber?])
  | integer =>
    cases c with
    | int n =>
      obtain rfl := Option.some.inj hread
      exact .whole n
    | float x =>
      obtain ⟨n, hn, rfl⟩ := Option.map_eq_some_iff.mp hread
      exact .integral (Option.filter_eq_some_iff.mp hn).1
    | text s => exact absurd rfl (hnumber s)
    | _ => exact absurd hread (by simp [convert?, convertInteger?])

/-- Validation reads the text of a number as the number itself. -/
theorem convert?_displayValue (hread : ReadsNumber type c read) (hshort : c.Short)
    (hspelled : type.SpelledOut c) (hdisplay : displayValue c = .ok text) :
    type.convert? (.text text) = some read := by
  cases hread with
  | nearest hfinite =>
    obtain rfl := Except.ok.inj ((displayValue_int hshort).symm.trans hdisplay)
    rw [convert?, convertNumber?, typedNumber?_intText hfinite, Option.map_some]
  | finite hfinite =>
    obtain rfl := Except.ok.inj ((displayValue_float _).symm.trans hdisplay)
    rw [convert?, convertNumber?, typedNumber?_shown hfinite, Option.map_some]
  | whole n =>
    obtain rfl := Except.ok.inj ((displayValue_int hshort).symm.trans hdisplay)
    rw [Value.Short] at hshort
    rw [convert?, convertInteger?, typedInteger?_intText hshort, Option.map_some]
  | integral hwhole =>
    obtain rfl := Except.ok.inj ((displayValue_float _).symm.trans hdisplay)
    rw [convert?, convertInteger?, typedInteger?_shown hwhole (hspelled _ hwhole), Option.map_some]

/-- Coercion reads it so, too, also where validation refuses the text. -/
theorem readNumber?_displayValue (hread : ReadsNumber type c read) (hshort : c.Short)
    (hdisplay : displayValue c = .ok text) :
    ∃ number : Number, readNumber? (type == .integer) text = some number ∧ number.toValue = read := by
  cases hread with
  | nearest hfinite =>
    obtain rfl := Except.ok.inj ((displayValue_int hshort).symm.trans hdisplay)
    exact ⟨_, readNumber?_false_intText hfinite, rfl⟩
  | finite hfinite =>
    obtain rfl := Except.ok.inj ((displayValue_float _).symm.trans hdisplay)
    exact ⟨_, readNumber?_shown hfinite, rfl⟩
  | whole n =>
    obtain rfl := Except.ok.inj ((displayValue_int hshort).symm.trans hdisplay)
    rw [Value.Short] at hshort
    exact ⟨_, readNumber?_true_intText hshort, rfl⟩
  | integral hwhole =>
    obtain rfl := Except.ok.inj ((displayValue_float _).symm.trans hdisplay)
    exact ⟨_, readNumber?_true_shown hwhole, rfl⟩

/-- The empty text is no number. -/
theorem ne_empty_of_convert? (hnumeric : type.isNumeric = true)
    (hread : type.convert? (.text text) = some read) : (Value.text text).isEmpty = false := by
  by_contra hempty
  have htext : text = "" := by simpa [Value.isEmpty] using hempty
  subst htext
  cases type with
  | string => exact absurd hnumeric (by decide)
  | boolean => exact absurd hnumeric (by decide)
  | number =>
    have hnone : typedNumber? "" = none := by decide
    rw [convert?, convertNumber?, hnone] at hread
    exact absurd hread (by simp)
  | integer =>
    have hnone : typedInteger? "" = none := by decide
    rw [convert?, convertInteger?, hnone] at hread
    exact absurd hread (by simp)

end PropertyType

/-! ## Texts that come back -/

namespace Property

variable {p : Property} {required : Bool} {c : Value} {text : String}

/-- No text is accepted for true or false. -/
theorem violation?_text_of_boolean (htype : p.type = .boolean) (htext : text ≠ "") :
    p.violation? required (.text text) = some (.wrongType .boolean) := by
  have hfilled : (Value.text text).isEmpty = false := by simpa [Value.isEmpty] using htext
  have hnone : p.type.convert? (.text text) = none := by rw [htype]; rfl
  rw [violation?_eq, hfilled, hnone, htype]
  rfl

/-- The text of an accepted value is accepted, except for true and false. -/
theorem accepts_text (htype : p.type ≠ .boolean) (hfilled : c.isEmpty = false) (hshort : c.Short)
    (hspelled : p.type.SpelledOut c) (haccepted : p.violation? required c = none)
    (hdisplay : displayValue c = .ok text) : p.violation? required (.text text) = none := by
  by_cases htext : ∃ s, c = .text s
  · obtain ⟨s, rfl⟩ := htext
    obtain rfl : s = text := Except.ok.inj hdisplay
    exact haccepted
  · have hnumber : ∀ s, c ≠ .text s := fun s hs => htext ⟨s, hs⟩
    obtain ⟨read, hread⟩ := exists_convert?_of_accepted hfilled haccepted
    -- a string property accepts no number, hence the property is numeric
    have hnumeric : p.type.isNumeric = true := by
      cases hkind : p.type with
      | number => rfl
      | integer => rfl
      | boolean => exact absurd hkind htype
      | string =>
        rw [hkind] at hread
        cases c with
        | text s => exact absurd rfl (hnumber s)
        | _ => exact absurd hread (by simp [PropertyType.convert?])
    -- the text is read as the number itself was, so the same rules hold of it
    have hread' := PropertyType.convert?_displayValue
      (PropertyType.readsNumber_of_convert? hnumeric hread hnumber) hshort hspelled hdisplay
    have hfilled' := PropertyType.ne_empty_of_convert? hnumeric hread'
    rw [← haccepted]
    exact violation?_congr hfilled' hfilled (hread'.trans hread.symm) required

end Property

section

variable {schema : Schema} {name : String} {p : Property} {c : Value}

/-- **What a list of choices posts.** The text of an accepted value is accepted as well, unless it is true
or false: no text is accepted for these. An integer property accepts it if it has up to `maxDigits`
characters and no exponent. The text of a number is handed on as the number that validation has read, whatever
it looks like; this is the value itself unless it was rounded. -/
theorem posted_text (hdeclared : schema.property? name = some p) (hfilled : c.isEmpty = false)
    (hshort : c.Short) (haccepted : schema.violation? name c = none) :
    ∃ text, displayValue c = .ok text ∧
      (p.type = .boolean → schema.violation? name (.text text) = some (.wrongType .boolean)) ∧
      (p.type ≠ .boolean → p.type.SpelledOut c → schema.violation? name (.text text) = none) ∧
      (p.isNumeric = true → (∀ s, c ≠ .text s) →
        ∃ read, p.type.convert? c = some read ∧ (read.same c = true ↔ p.type.Keeps c) ∧
          ∀ values : OrderedMap Value, values.get? name = some (.text text) →
            (schema.coerce values).get? name = some read) := by
  have hviolation : ∀ v, schema.violation? name v = p.violation? (schema.isRequired name) v := by
    intro v
    rw [Schema.violation?, hdeclared, Option.bind_some]
  rw [hviolation] at haccepted
  obtain ⟨read, hread⟩ := Property.exists_convert?_of_accepted hfilled haccepted
  have hdisplay := displayValue_of_short hshort
  refine ⟨shownValue c, hdisplay, fun htype => ?_, fun htype hspelled => ?_,
    fun hnumeric hnumber => ?_⟩
  · rw [hviolation]
    refine Property.violation?_text_of_boolean htype ?_
    rw [htype] at hread
    cases c with
    | bool flag =>
      have htext := Except.ok.inj ((displayValue_bool flag).symm.trans hdisplay)
      rw [← htext]
      cases flag <;> decide
    | _ => exact absurd hread (by simp [PropertyType.convert?])
  · rw [hviolation]
    exact Property.accepts_text htype hfilled hshort hspelled haccepted hdisplay
  · -- coercion does not ask what validation accepts, so no bound is needed here
    obtain ⟨number, hnumber', rfl⟩ := PropertyType.readNumber?_displayValue
      (PropertyType.readsNumber_of_convert? hnumeric hread hnumber) hshort hdisplay
    refine ⟨_, hread, PropertyType.same_self_iff_keeps hread, fun values hstored => ?_⟩
    rw [get?_coerce_eq_number_iff hdeclared hstored, Property.number?, if_pos hnumeric]
    exact hnumber'

/-- Numbers to choose from, of which one has a binary digit more than the mantissa. -/
def offeredAmount : Property :=
  { type := .number,
    enum := some [.int 9007199254740992, .int 9007199254740993, .float (.ofInt 2)] }

/-- A whole number and its text to choose from. -/
def offeredCount : Property := { type := .integer, enum := some [.text "2", .int 2] }

/-- A form with these choices, and with flags to choose from. -/
def offers : Schema :=
  { title := none
    description := none
    properties := .ofList
      [("agreed", { type := .boolean, enum := some [.bool true, .bool false] }),
        ("amount", offeredAmount), ("count", offeredCount),
        ("total", { type := .integer, enum := some [.float (.ofInt 10000000000000000)] })]
    required := [] }

theorem posted_text_amount :
    offers.property? "amount" = some offeredAmount ∧ (Value.float (.ofInt 2)).isEmpty = false ∧
      (Value.float (.ofInt 2)).Short ∧ offers.violation? "amount" (.float (.ofInt 2)) = none ∧
      ∃ text, displayValue (.float (.ofInt 2)) = .ok text ∧
        (offeredAmount.type = .boolean →
          offers.violation? "amount" (.text text) = some (.wrongType .boolean)) ∧
        (offeredAmount.type ≠ .boolean → offeredAmount.type.SpelledOut (.float (.ofInt 2)) →
          offers.violation? "amount" (.text text) = none) ∧
        (offeredAmount.isNumeric = true →
          (∀ s, Value.float (.ofInt 2) ≠ .text s) →
          ∃ read, offeredAmount.type.convert? (.float (.ofInt 2)) = some read ∧
            (read.same (.float (.ofInt 2)) = true ↔
              offeredAmount.type.Keeps (.float (.ofInt 2))) ∧
            ∀ values : OrderedMap Value, values.get? "amount" = some (.text text) →
              (offers.coerce values).get? "amount" = some read) := by
  have hdeclared : offers.property? "amount" = some offeredAmount := rfl
  have hshort : (Value.float (.ofInt 2)).Short := by simp [Value.Short]
  have haccepted : offers.violation? "amount" (.float (.ofInt 2)) = none := by decide +kernel
  exact ⟨hdeclared, rfl, hshort, haccepted, posted_text hdeclared rfl hshort haccepted⟩

/-- Four choices that are accepted and do not come back: true, whose text is refused, a whole number that
is rounded, a text for which a number is handed on, and a whole number that is written with an exponent. -/
theorem choices_not_coming_back :
    (offers.violation? "agreed" (.bool true) = none ∧ displayValue (.bool true) = .ok "True" ∧
      offers.violation? "agreed" (.text "True") = some (.wrongType .boolean)) ∧
    (offers.violation? "amount" (.int 9007199254740993) = none ∧
      displayValue (.int 9007199254740993) = .ok "9007199254740993" ∧
      (offers.coerce (.ofList [("amount", .text "9007199254740993")])).get? "amount" =
        some (.float (.ofInt 9007199254740992)) ∧
      (Value.float (.ofInt 9007199254740992)).same (.int 9007199254740993) = false) ∧
    (offers.violation? "count" (.text "2") = none ∧ displayValue (.text "2") = .ok "2" ∧
      (offers.coerce (.ofList [("count", .text "2")])).get? "count" = some (.int 2) ∧
      (Value.int 2).same (.text "2") = false) ∧
    (offers.violation? "total" (.float (.ofInt 10000000000000000)) = none ∧
      displayValue (.float (.ofInt 10000000000000000)) = .ok "1e+16" ∧
      offers.violation? "total" (.text "1e+16") = some (.wrongType .integer)) := by
  refine ⟨⟨by decide +kernel, displayValue_bool true, by decide +kernel⟩,
    ⟨by decide +kernel, ?_, ?_, by decide +kernel⟩, ⟨by decide +kernel, rfl, ?_, by decide +kernel⟩,
    ⟨by decide +kernel, ?_, by decide +kernel⟩⟩
  · have hshort : (Value.int 9007199254740993).Short := by
      rw [Value.Short]
      decide
    have htext : intText 9007199254740993 = "9007199254740993" := by decide
    rw [displayValue_int hshort, htext]
  · have hdeclared : offers.property? "amount" = some offeredAmount := rfl
    have hread : offeredAmount.number? (.text "9007199254740993") =
        some (.float (.ofInt 9007199254740992)) := by decide +kernel
    exact (get?_coerce_eq_number_iff hdeclared rfl).mpr hread
  · have hdeclared : offers.property? "count" = some offeredCount := rfl
    have hread : offeredCount.number? (.text "2") = some (.int 2) := by decide +kernel
    exact (get?_coerce_eq_number_iff hdeclared rfl).mpr hread
  · have htext : (Binary64.ofInt 10000000000000000).shown = "1e+16" := by decide +kernel
    rw [displayValue_float, htext]

end

end SchemaForm
