import SchemaForm.Proofs.Coercion

/-!
# What coercion changes

`coerce_values` goes through the properties one by one, and reads and writes a copy of the values on the way.
This module says what the copy has become at the end of the walk.

* `Schema.coerceNext` — one step of the walk; `Schema.foldl_coerceNext` — all of them, in any order of the
  properties, are the map that coercion is;
* `Schema.Converts` — a text that writes a number, and the number that is handed on instead;
* `coerced_values` — nothing but such texts is changed, and a second walk changes nothing at all.
-/

namespace SchemaForm

/-! ## Readers -/

theorem isFinite_of_floatOfNumeral? {text : List Char} {x : Binary64}
    (h : floatOfNumeral? text = some x) : x.isFinite = true := by
  obtain ⟨d, -, hx⟩ := Option.bind_eq_some_iff.mp h
  dsimp only at hx
  split at hx
  · next hfinite => exact Option.some.inj hx ▸ hfinite
  · exact absurd hx (by simp)

theorem wholeIfIntegral_eq_float_iff {x y : Binary64} :
    wholeIfIntegral x = .float y ↔ x = y ∧ x.toInt? = none := by
  rw [wholeIfIntegral]
  cases hx : x.toInt? <;> simp

/-- What is read as a floating point number is finite, and where a whole number is wanted it is none. -/
theorem float_of_readNumber? {integer : Bool} {s : String} {x : Binary64}
    (h : readNumber? integer s = some (.float x)) :
    x.isFinite = true ∧ (integer = true → x.toInt? = none) := by
  rw [readNumber?] at h
  cases integer with
  | false =>
    obtain ⟨y, hread, hy⟩ := Option.map_eq_some_iff.mp h
    cases hy
    exact ⟨isFinite_of_floatOfNumeral? hread, fun hinteger => absurd hinteger Bool.false_ne_true⟩
  | true =>
    rw [if_pos rfl] at h
    split at h
    · cases h
    · obtain ⟨y, hread, hy⟩ := Option.map_eq_some_iff.mp h
      obtain ⟨rfl, hfraction⟩ := wholeIfIntegral_eq_float_iff.mp hy
      exact ⟨isFinite_of_floatOfNumeral? hread, fun _ => hfraction⟩

namespace Property

variable {p : Property}

/-- Nothing but the text of a numeric property is read. -/
theorem number?_eq_some_iff {v : Value} {number : Number} :
    p.number? v = some number ↔
      p.isNumeric = true ∧ ∃ text, v = .text text ∧ readNumber? (p.type == .integer) text = some number := by
  cases v with
  | text s =>
    rw [number?]
    cases p.isNumeric <;> simp
  | _ => simp [number?]

/-- A number is no text, and is not read again. -/
theorem number?_toValue (number : Number) : p.number? number.toValue = none := by
  cases number <;> rfl

theorem coerce_coerce (v : Value) : p.coerce (p.coerce v) = p.coerce v := by
  cases hread : p.number? v with
  | some number => simp only [coerce, hread, number?_toValue]
  | none => simp only [coerce, hread]

end Property

namespace Schema

variable {s : Schema} {values : OrderedMap Value} {name : String}

/-! ## Walks -/

/-- The values after one property more was coerced. -/
def coerceNext (values : OrderedMap Value) (entry : String × Property) : OrderedMap Value :=
  match (values.get? entry.1).bind entry.2.number? with
  | some number => values.insert entry.1 number.toValue
  | none => values

/-- A step writes under a name that is there, and so leaves the names as they are. -/
theorem keys_coerceNext (values : OrderedMap Value) (entry : String × Property) :
    (coerceNext values entry).keys = values.keys := by
  rw [coerceNext]
  split
  · next number hread =>
    obtain ⟨v, hv, -⟩ := Option.bind_eq_some_iff.mp hread
    exact OrderedMap.keys_insert_of_mem (OrderedMap.mem_keys_iff.mpr (Option.isSome_of_eq_some hv))
  · rfl

/-- A step reads and writes the value of its own property only. -/
theorem get?_coerceNext (values : OrderedMap Value) (entry : String × Property) (name : String) :
    (coerceNext values entry).get? name =
      if name = entry.1 then (values.get? name).map entry.2.coerce else values.get? name := by
  rw [coerceNext]
  split
  · next number hread =>
    obtain ⟨v, hv, hnumber⟩ := Option.bind_eq_some_iff.mp hread
    rw [OrderedMap.get?_insert]
    by_cases hname : name = entry.1
    · rw [if_pos hname, if_pos hname, hname, hv, Option.map_some, Property.coerce, hnumber]
    · rw [if_neg hname, if_neg hname]
  · next hnone =>
    by_cases hname : name = entry.1
    · rw [if_pos hname, hname]
      cases hv : values.get? entry.1 with
      | none => rfl
      | some v =>
        rw [hv, Option.bind_some] at hnone
        rw [Option.map_some, Property.coerce, hnone]
    · rw [if_neg hname]

theorem keys_foldl_coerceNext (entries : List (String × Property)) (values : OrderedMap Value) :
    (entries.foldl coerceNext values).keys = values.keys := by
  induction entries generalizing values with
  | nil => rfl
  | cons entry rest ih => rw [List.foldl_cons, ih, keys_coerceNext]

/-- A walk coerces the value of each property that it comes to, once, as it was at the beginning: no later
step has the same name. -/
theorem get?_foldl_coerceNext {entries : List (String × Property)} (hnodup : (Entries.keys entries).Nodup)
    (values : OrderedMap Value) (name : String) :
    (entries.foldl coerceNext values).get? name =
      (values.get? name).map fun v => ((Entries.get? name entries).map (·.coerce v)).getD v := by
  induction entries generalizing values with
  | nil => simp
  | cons entry rest ih =>
    obtain ⟨key, p⟩ := entry
    rw [Entries.keys_cons, List.nodup_cons] at hnodup
    rw [List.foldl_cons, ih hnodup.2, get?_coerceNext, Entries.get?_cons]
    by_cases hname : name = key
    · have hlater : Entries.get? name rest = none := Entries.get?_eq_none_iff.mpr (hname ▸ hnodup.1)
      rw [if_pos hname, if_pos hname.symm, hlater, Option.map_map]
      rfl
    · rw [if_neg hname, if_neg (Ne.symm hname)]

/-- The walk through all properties. -/
theorem foldl_coerceNext (s : Schema) (values : OrderedMap Value) :
    s.properties.entries.foldl coerceNext values = s.coerce values := by
  refine OrderedMap.ext_get? ?_ fun name => ?_
  · rw [keys_foldl_coerceNext, keys_coerce]
  · rw [get?_foldl_coerceNext s.properties.nodup, coerce, OrderedMap.get?_map]
    refine congrArg (Option.map · (values.get? name)) (funext fun v => ?_)
    show ((s.property? name).map (·.coerce v)).getD v = s.coerceValue name v
    rw [coerceValue]
    cases s.property? name <;> rfl

/-! ## Texts that write numbers -/

/-- The name is declared as a number or a whole number, the value is a text that writes one, and this is
what is handed on. -/
def Converts (s : Schema) (name : String) (v w : Value) : Prop :=
  ∃ p text number, s.property? name = some p ∧ p.isNumeric = true ∧ v = .text text ∧
    readNumber? (p.type == .integer) text = some number ∧ w = number.toValue

/-- A value is converted exactly if its property is declared and reads a number in it. -/
theorem converts_iff {v w : Value} :
    s.Converts name v w ↔
      ∃ number, (s.property? name).bind (·.number? v) = some number ∧ w = number.toValue := by
  constructor
  · rintro ⟨p, text, number, hp, hnumeric, rfl, hread, rfl⟩
    rw [hp, Option.bind_some]
    exact ⟨number, Property.number?_eq_some_iff.mpr ⟨hnumeric, text, rfl, hread⟩, rfl⟩
  · rintro ⟨number, hfound, rfl⟩
    obtain ⟨p, hp, hnumber⟩ := Option.bind_eq_some_iff.mp hfound
    obtain ⟨hnumeric, text, rfl, hread⟩ := Property.number?_eq_some_iff.mp hnumber
    exact ⟨p, text, number, hp, hnumeric, rfl, hread, rfl⟩

/-- What is handed on for a value: the number that it writes, or else the value. -/
theorem coerceValue_eq_iff {v w : Value} :
    s.coerceValue name v = w ↔ s.Converts name v w ∨ w = v ∧ ∀ u, ¬ s.Converts name v u := by
  have hvalue : s.coerceValue name v =
      (((s.property? name).bind (·.number? v)).map Number.toValue).getD v := by
    rw [coerceValue]
    cases s.property? name with
    | none => rfl
    | some p =>
      dsimp only [Option.bind_some]
      rw [Property.coerce]
      cases p.number? v <;> rfl
  simp only [hvalue, converts_iff]
  cases (s.property? name).bind (·.number? v) with
  | none => simp [eq_comm]
  | some number => simp [eq_comm]

/-- Coercion is done once: no number is coerced again. -/
theorem coerce_coerce (s : Schema) (values : OrderedMap Value) :
    s.coerce (s.coerce values) = s.coerce values := by
  have hvalue : ∀ name v, s.coerceValue name (s.coerceValue name v) = s.coerceValue name v := by
    intro name v
    simp only [coerceValue]
    cases s.property? name with
    | none => rfl
    | some p => exact p.coerce_coerce v
  refine OrderedMap.ext_get? ((s.keys_coerce _).trans rfl) fun name => ?_
  simp only [coerce, OrderedMap.get?_map, Option.map_map]
  exact congrArg (Option.map · (values.get? name)) (funext (hvalue name))

/-- **Coercion puts numbers in the place of the texts that write them, and changes nothing else.** Whatever
the values are, valid or not, and whether their names are declared or not: what the walk through the
properties leaves has the same names in the same order. Under each of them is the number that the text of a
numeric property writes, and in every other case the value that was there. A second walk changes nothing.
What becomes a floating point number is finite, and for a whole number property it is equal to no whole
number. -/
theorem coerced_values (s : Schema) (values : OrderedMap Value) :
    s.properties.entries.foldl coerceNext values = s.coerce values ∧
    (s.coerce values).keys = values.keys ∧
    (∀ name v w, values.get? name = some v →
      ((s.coerce values).get? name = some w ↔
        s.Converts name v w ∨ w = v ∧ ∀ u, ¬ s.Converts name v u)) ∧
    s.coerce (s.coerce values) = s.coerce values ∧
    ∀ name p x, s.property? name = some p → (s.coerce values).get? name = some (.float x) →
      values.get? name ≠ some (.float x) →
        x.isFinite = true ∧ (p.type = .integer → ∀ n, (Value.float x).same (.int n) = false) := by
  have hentry : ∀ name v w, values.get? name = some v →
      ((s.coerce values).get? name = some w ↔
        s.Converts name v w ∨ w = v ∧ ∀ u, ¬ s.Converts name v u) := by
    intro name v w hv
    rw [coerce, OrderedMap.get?_map, hv, Option.map_some, Option.some.injEq, coerceValue_eq_iff]
  refine ⟨s.foldl_coerceNext values, s.keys_coerce values, hentry, s.coerce_coerce values, ?_⟩
  intro name p x hp hfloat hchanged
  obtain ⟨v, hv⟩ : ∃ v, values.get? name = some v := by
    rw [coerce, OrderedMap.get?_map] at hfloat
    exact (Option.map_eq_some_iff.mp hfloat).imp fun _ h => h.1
  rcases (hentry name v _ hv).mp hfloat with hconverts | ⟨hsame, -⟩
  · obtain ⟨q, text, number, hq, -, -, hread, hnumber⟩ := hconverts
    obtain rfl : q = p := Option.some.inj (hq.symm.trans hp)
    obtain rfl : number = .float x := Number.toValue_inj hnumber.symm
    obtain ⟨hfinite, hfraction⟩ := float_of_readNumber? hread
    refine ⟨hfinite, fun htype n => ?_⟩
    have hnone : x.toInt? = none := hfraction (by rw [htype]; rfl)
    simp [Value.same, Value.standsFor, Value.number?, Number.same, hnone]
  · exact absurd (hsame ▸ hv) hchanged

/-- Values of which one has no property, one writes no number, and one writes a number that its property
does not admit. -/
def mixedValues : OrderedMap Value :=
  .ofList [("note", .text "7"), ("weight", .text "1e400"), ("count", .text " 2.5 ")]

theorem coerced_values_mixed :
    (measurements.coerce mixedValues).keys = ["note", "weight", "count"] ∧
      mixedValues.get? "note" = some (.text "7") ∧
      (measurements.coerce mixedValues).get? "note" = some (.text "7") ∧
      mixedValues.get? "count" = some (.text " 2.5 ") ∧
      measurements.property? "count" = some { type := .integer } ∧
      (measurements.coerce mixedValues).get? "count" = some (.float (.ofRatio false 5 2)) ∧
      (Binary64.ofRatio false 5 2).isFinite = true ∧
      ∀ n, (Value.float (.ofRatio false 5 2)).same (.int n) = false := by
  obtain ⟨-, hkeys, hentry, -, hfloat⟩ := coerced_values measurements mixedValues
  have hread : readNumber? true " 2.5 " = some (.float (.ofRatio false 5 2)) := by decide +kernel
  have hcount : (measurements.coerce mixedValues).get? "count" =
      some (.float (.ofRatio false 5 2)) :=
    (hentry "count" (.text " 2.5 ") _ rfl).mpr (.inl ⟨_, _, _, rfl, rfl, rfl, hread, rfl⟩)
  have hnote : (measurements.coerce mixedValues).get? "note" = some (.text "7") := by
    refine (hentry "note" (.text "7") _ rfl).mpr (.inr ⟨rfl, fun u hu => ?_⟩)
    obtain ⟨p, -, -, hp, -⟩ := hu
    have hundeclared : measurements.property? "note" = none := rfl
    exact absurd (hundeclared.symm.trans hp) nofun
  have hchanged : mixedValues.get? "count" ≠ some (.float (.ofRatio false 5 2)) := by
    intro hsame
    have htext : mixedValues.get? "count" = some (.text " 2.5 ") := rfl
    exact absurd (htext.symm.trans hsame) nofun
  obtain ⟨hfinite, hfraction⟩ := hfloat "count" { type := .integer } _ rfl hcount hchanged
  exact ⟨hkeys, rfl, hnote, rfl, rfl, hcount, hfinite, hfraction rfl⟩

end Schema

end SchemaForm
