import SchemaForm.Proofs.Definition
import SchemaForm.Proofs.Value.Nesting
import SchemaForm.Proofs.View.ShownMessages

/-!
# Definitions whose forms have HTML

The values of a form come from the data and from the schema, and both were read from a file. What is true
of the file and goes down to the parts of values is true of them, too. Whole numbers also come in as hints of
the layout. If all of them were read from values that can be displayed, then so can all that the widgets
show, and the form has HTML.

* `Carries` — a reader that makes something with one property of what has another, with one lemma for each
  way of putting readers together;
* `Property.Within`, `Schema.Within`, `Definition.Within` — the values of a schema and of a definition;
* `Layout.Short`, `Definition.Short` — what can be displayed;
* `Definition.within_of_ofPayload`, `Definition.short_of_ofPayload` — a definition that was read;
* `Schema.Within.initialValues`, `Schema.coerce_inherited` — the values of a form, and those it hands on;
* `Form.exists_html` — the HTML of a form.
-/

namespace SchemaForm

open Value

variable {α : Type}

/-! ## Readers -/

/-- Whatever is read of a value with the one property has the other. -/
structure Carries (Q : Value → Prop) (P : α → Prop) (read : Value → Checked α) : Prop where
  holds : ∀ {v a}, Q v → read v = .ok a → P a

namespace Carries

variable {Q : Value → Prop} {P : α → Prop} {read : Value → Checked α} {members : List (String × Value)}
  {names : List String}

theorem readAny : Carries Q Q readAny where
  holds hv h := by
    cases h
    exact hv

theorem present {name : String} {v : Value} (hmembers : ∀ member ∈ members, Q member.2)
    (h : firstPresent? names members = some (name, v)) : Q v := by
  obtain ⟨other, -, hother⟩ := List.exists_of_findSome?_eq_some h
  obtain ⟨found, hfound, heq⟩ := Option.map_eq_some_iff.mp hother
  cases heq
  exact hmembers _ (Entries.mem_of_get? hfound)

/-- What a field has that must be there. -/
theorem required (hread : Carries Q P read) (hmembers : ∀ member ∈ members, Q member.2) {a : α}
    (h : SchemaForm.required names read members = .ok a) : P a := by
  rw [SchemaForm.required] at h
  split at h
  · next hpresent => exact hread.holds (present hmembers hpresent) (Checked.under_eq_ok_iff.mp h)
  · cases Checked.under_eq_ok_iff.mp h

/-- What a field has that may be missing. -/
theorem optional (hread : Carries Q P read) (hmembers : ∀ member ∈ members, Q member.2) {absent a : α}
    (habsent : P absent) (h : SchemaForm.optional names absent read members = .ok a) : P a := by
  rw [SchemaForm.optional] at h
  split at h
  · next hpresent => exact hread.holds (present hmembers hpresent) (Checked.under_eq_ok_iff.mp h)
  · cases h
    exact habsent

theorem readNullable (hread : Carries Q P read) :
    Carries Q (fun found => ∀ a ∈ found, P a) (readNullable read) where
  holds hv h a hmem := by
    rw [Option.mem_def.mp hmem] at h
    exact hread.holds hv (ok_of_readNullable h).2

/-- What a field has that may be missing or null. -/
theorem nullable (hread : Carries Q P read) (hmembers : ∀ member ∈ members, Q member.2) {found : Option α}
    (h : SchemaForm.nullable names read members = .ok found) : ∀ a ∈ found, P a :=
  hread.readNullable.optional hmembers (by simp) h

/-- All parts of a list have the property if each of them is read so. -/
theorem mapIdx (hread : Carries Q P read) {items : List Value} (hitems : ∀ v ∈ items, Q v) {i : Nat}
    {parts : List α} (h : Checked.mapIdx read i items = .ok parts) : ∀ a ∈ parts, P a := by
  induction items generalizing i parts with
  | nil =>
    cases h
    simp
  | cons v rest ih =>
    obtain ⟨hv, hrest⟩ := List.forall_mem_cons.mp hitems
    simp only [Checked.mapIdx, Checked.map_eq, Checked.seq_eq, Checked.apply_eq_ok_iff, Checked.map_eq_ok_iff,
      Checked.under_eq_ok_iff] at h
    obtain ⟨_, others, ⟨a, hfirst, rfl⟩, hothers, rfl⟩ := h
    exact List.forall_mem_cons.mpr ⟨hread.holds hv hfirst, ih hrest hothers⟩

/-- All entries of an object have it, too. -/
theorem readEntries (hread : Carries Q P read) (hmembers : ∀ member ∈ members, Q member.2)
    {entries : List (String × α)} (h : readEntries read members = .ok entries) :
    ∀ entry ∈ entries, P entry.2 := by
  induction members generalizing entries with
  | nil =>
    cases h
    simp
  | cons member rest ih =>
    obtain ⟨name, v⟩ := member
    obtain ⟨hv, hrest⟩ := List.forall_mem_cons.mp hmembers
    simp only [SchemaForm.readEntries, Checked.map_eq, Checked.seq_eq, Checked.apply_eq_ok_iff,
      Checked.map_eq_ok_iff, Checked.under_eq_ok_iff] at h
    obtain ⟨_, others, ⟨a, hfirst, rfl⟩, hothers, rfl⟩ := h
    exact List.forall_mem_cons.mpr ⟨hread.holds hv hfirst, ih hrest hothers⟩

theorem ofList {entries : List (String × α)} (h : ∀ entry ∈ entries, P entry.2) :
    ∀ entry ∈ (OrderedMap.ofList entries).entries, P entry.2 := by
  intro entry hmem
  obtain ⟨other, hother, heq⟩ := OrderedMap.mem_of_mem_ofList hmem
  exact heq ▸ h other hother

variable (hQ : Inherited Q)
include hQ

theorem readList (hread : Carries Q P read) :
    Carries Q (fun parts => ∀ a ∈ parts, P a) (readList read) where
  holds {v parts} hv h := by
    cases v
    case list items => exact hread.mapIdx (hQ.items hv) h
    all_goals cases h

theorem readObject (hread : Carries Q P read) :
    Carries Q (fun m => ∀ entry ∈ m.entries, P entry.2) (readObject read) where
  holds {v m} hv h := by
    cases v
    case object members =>
      obtain ⟨entries, hentries, rfl⟩ := Checked.map_eq_ok_iff.mp h
      exact ofList (hread.readEntries (hQ.members hv) hentries)
    all_goals cases h

/-- A model has it if its fields are read so. -/
theorem readModel {model : String} {readFields : List (String × Value) → Checked α}
    (h : ∀ {members a}, (∀ member ∈ members, Q member.2) → readFields members = .ok a → P a) :
    Carries Q P (readModel model readFields) where
  holds {v a} hv hread := by
    cases v
    case object members => exact h (hQ.members hv) hread
    all_goals cases hread

end Carries

/-! ## Schemas -/

/-- What a property may be, and what it is without data, has the property of values. -/
structure Property.Within (Q : Value → Prop) (p : Property) : Prop where
  default : ∀ v ∈ p.default, Q v
  choices : ∀ choice ∈ p.choiceList, Q choice.value

/-- All properties of the schema. -/
def Schema.Within (Q : Value → Prop) (s : Schema) : Prop := ∀ entry ∈ s.properties.entries, entry.2.Within Q

section Within

variable {Q : Value → Prop} (hQ : Inherited Q)
include hQ

/-- A choice has no other value than the one that was given. -/
theorem Choice.carries_read : Carries Q (fun choice => Q choice.value) Choice.read :=
  .readModel hQ fun hmembers h => Carries.readAny.required hmembers (readFields_eq_ok_iff.mp h).1

/-- A property has no other default and no other choices than those that were given. -/
theorem Property.carries_read : Carries Q (Within Q) Property.read := by
  refine .readModel hQ fun {members p} hmembers h => ?_
  obtain ⟨-, -, -, hdefault, -, henum, honeOf⟩ := readFields_eq_ok_iff.mp h
  refine ⟨Carries.readAny.nullable hmembers hdefault, ?_⟩
  have hvalues := (Carries.readAny.readList hQ).nullable hmembers henum
  have hchoices := ((Choice.carries_read hQ).readList hQ).nullable hmembers honeOf
  rw [choiceList]
  -- the choices are the values of `enum`, and those of `oneOf` only if there is no `enum`
  cases henum : p.enum with
  | some values =>
    rw [List.forall_mem_map]
    exact hvalues values henum
  | none =>
    cases honeOf : p.oneOf with
    | some choices => exact hchoices choices honeOf
    | none => simp

theorem Property.Within.blank {p : Property} (h : p.Within Q) : Q p.blank := by
  rw [Property.blank]
  cases hdefault : p.default with
  | some v => exact h.default v hdefault
  | none =>
    cases p.type with
    | string => exact hQ.text ""
    | boolean => exact hQ.flag false
    | _ => exact hQ.null

/-- A schema has no other values than those of its properties. -/
theorem Schema.carries_read : Carries Q (Within Q) Schema.read := by
  refine .readModel hQ fun {members s} hmembers h => ?_
  obtain ⟨⟨-, -, hproperties, -⟩, -⟩ := readFields_eq_ok_iff.mp h
  exact ((Property.carries_read hQ).readObject hQ).optional hmembers
    (fun _ hmem => absurd hmem List.not_mem_nil) hproperties

/-- The values that a form starts with come from the data or from the schema. -/
theorem Schema.Within.initialValues {s : Schema} (h : s.Within Q) {data : OrderedMap Value}
    (hdata : ∀ entry ∈ data.entries, Q entry.2) : ∀ entry ∈ (s.initialValues data).entries, Q entry.2 := by
  refine List.forall_mem_map.mpr fun entry hmem => ?_
  show Q ((data.get? entry.1).getD entry.2.blank)
  cases hget : data.get? entry.1 with
  | none => exact (h entry hmem).blank hQ
  | some v => exact hdata (entry.1, v) (OrderedMap.get?_eq_some_iff.mp hget)

end Within

/-! ## Layouts -/

theorem short_of_inWordRange {n : Int} (h : inWordRange n = true) : (Value.int n).Short := by
  rw [inWordRange, Bool.and_eq_true] at h
  have hlow : -wordBound < n := of_decide_eq_true h.1
  have hhigh : n < wordBound := of_decide_eq_true h.2
  have hword : n.natAbs < 10 ^ 19 := by
    rw [wordBound] at hlow hhigh
    omega
  rw [short_int_iff]
  exact hword.trans (Nat.pow_lt_pow_right (by decide) (by decide))

/-- A hint for the number of lines can be displayed: as a text it has up to `maxDigits` digits, and as a floating
point number it is one of 64 bits. -/
theorem carries_readInteger : Carries Value.Short (fun n => (Value.int n).Short) readInteger where
  holds {v n} hv h := by
    cases v
    case bool flag =>
      cases h
      cases flag <;> exact short_of_inWordRange (by decide)
    case int =>
      cases h
      exact hv
    -- three tests: it is finite, it is whole, and it is one of 64 bits
    case float x =>
      rw [readInteger] at h
      split at h
      · cases h
      split at h
      · split at h
        · next hrange =>
          cases h
          exact short_of_inWordRange hrange
        · cases h
      · cases h
    case text s =>
      rw [readInteger] at h
      split at h
      · next found htyped =>
        cases h
        obtain ⟨sign, negative, grouped, digits, fraction, hwhole, -, rfl⟩ :=
          wholeText_of_typedInteger? (congrArg Except.toOption htyped)
        exact short_int_of_digits hwhole.isDigits hwhole.short (natAbs_withSign negative _)
      · cases h
      · cases h
    all_goals cases h

/-- The number of lines that the options ask for can be displayed. -/
def ControlOptions.Short (options : ControlOptions) : Prop := ∀ rows ∈ options.rows, (Value.int rows).Short

theorem ControlOptions.carries_read : Carries Value.Short ControlOptions.Short ControlOptions.read := by
  refine .readModel inherited_short fun {members options} hmembers h => ?_
  obtain ⟨-, -, hrows, -⟩ := readFields_eq_ok_iff.mp h
  exact carries_readInteger.nullable hmembers hrows

/-- The same of the options of a control, if it has any. -/
def Control.Short (control : Control) : Prop := ∀ options ∈ control.options, options.Short

theorem Control.short_of_readFields {members : List (String × Value)} {control : Control}
    (hmembers : ∀ member ∈ members, member.2.Short) (h : readFields members = .ok control) : control.Short := by
  obtain ⟨-, -, -, hoptions⟩ := readFields_eq_ok_iff.mp h
  exact ControlOptions.carries_read.nullable hmembers hoptions

namespace Layout

/-- The same of all controls. -/
def Short (layout : Layout) : Prop := ∀ control ∈ layout.controls, control.Short

theorem handsDown_short : HandsDown Value.Short Control.Short where
  items := inherited_short.items
  members := inherited_short.members
  control h hread := Control.short_of_readFields (inherited_short.members h) hread

/-- The hints of a layout were read of values that can be displayed. -/
theorem carries_read : Carries Value.Short Layout.Short Layout.read := ⟨controls_of_read handsDown_short⟩

theorem short_default (names : List String) : (Layout.default names).Short := by
  intro control hcontrol options hmem
  rw [options_default names control hcontrol] at hmem
  cases hmem

end Layout

/-! ## Definitions -/

namespace Definition

/-- The values of the definition have the property: those of its schema, and the data that it comes with. -/
structure Within (Q : Value → Prop) (d : Definition) : Prop where
  schema : d.schema.Within Q
  data : ∀ data ∈ d.data?, ∀ entry ∈ data.entries, Q entry.2

/-- All that a form of the definition may show can be displayed. -/
structure Short (d : Definition) : Prop extends d.Within Value.Short where
  layout : d.layout.Short

section Within

variable {Q : Value → Prop} (hQ : Inherited Q) {members : List (String × Value)}
include hQ

theorem inherited_memberOf (hmembers : ∀ member ∈ members, Q member.2) (name : String) :
    Q (memberOf members name) := by
  rw [memberOf]
  cases hget : Entries.get? name members with
  | none => exact hQ.null
  | some v => exact hmembers _ (Entries.mem_of_get? hget)

theorem inherited_contentMembers {content : Value} (hcontent : Q content)
    (h : contentMembers content = .ok members) : ∀ member ∈ members, Q member.2 := by
  unfold contentMembers at h
  split at h
  · cases h
    simp
  · split at h
    · cases h
      exact hQ.members hcontent
    · cases h

/-- The flat shape of a payload has no other values than the payload, null and the default id apart. -/
theorem inherited_flatten {flat : List (String × Value)} (hmembers : ∀ member ∈ members, Q member.2)
    (h : flatten members = .ok flat) : ∀ member ∈ flat, Q member.2 := by
  rw [flatten] at h
  cases hcontent : Entries.get? "content" members with
  | none =>
    rw [hcontent] at h
    cases h
    exact hmembers
  | some content =>
    rw [hcontent] at h
    obtain ⟨inner, hinner, h⟩ := exists_of_bind_ok h
    cases h
    have hcontentWithin : Q content := hmembers _ (Entries.mem_of_get? hcontent)
    have hinnerWithin := inherited_contentMembers hQ hcontentWithin hinner
    have hid : Q ((Entries.get? "formId" members).getD (.text defaultId)) := by
      cases hget : Entries.get? "formId" members with
      | none => exact hQ.text defaultId
      | some v => exact hmembers _ (Entries.mem_of_get? hget)
    simp [hid, inherited_memberOf hQ hmembers, inherited_memberOf hQ hinnerWithin]

theorem within_of_readFields {d : Definition} (hmembers : ∀ member ∈ members, Q member.2)
    (h : readFields members = .ok d) : d.Within Q := by
  obtain ⟨-, -, hschema, -, hdata⟩ := readFields_eq_ok_iff.mp h
  exact ⟨(Schema.carries_read hQ).required hmembers hschema,
    (Carries.readAny.readObject hQ).nullable hmembers hdata⟩

/-- A definition has no other values than the payload that it was read of. -/
theorem within_of_ofPayload {d : Definition} {payload : Value} (hpayload : Q payload)
    (h : ofPayload payload = .ok d) : d.Within Q := by
  cases payload
  case object members =>
    obtain ⟨flat, hflat, hread⟩ := ofPayload_eq_ok_iff.mp h
    exact within_of_readFields hQ (inherited_flatten hQ (hQ.members hpayload) hflat) hread
  all_goals cases h

end Within

theorem short_layout_of_readFields {d : Definition} {members : List (String × Value)}
    (hmembers : ∀ member ∈ members, member.2.Short) (h : readFields members = .ok d) : d.layout.Short := by
  obtain ⟨-, -, -, hlayout, -⟩ := readFields_eq_ok_iff.mp h
  rw [layout]
  cases hgiven : d.layout? with
  | none => exact Layout.short_default _
  | some given => exact Layout.carries_read.nullable hmembers hlayout given hgiven

theorem short_of_ofPayload {d : Definition} {payload : Value} (hpayload : payload.Short)
    (h : ofPayload payload = .ok d) : d.Short := by
  refine ⟨within_of_ofPayload inherited_short hpayload h, ?_⟩
  cases payload
  case object members =>
    obtain ⟨flat, hflat, hread⟩ := ofPayload_eq_ok_iff.mp h
    exact short_layout_of_readFields
      (inherited_flatten inherited_short (inherited_short.members hpayload) hflat) hread
  all_goals cases h

end Definition

/-! ## Coerced values -/

theorem mul_power_lt {mantissa : Nat} {exponent : Int} (hmantissa : mantissa < 2 ^ 53)
    (hexponent : exponent ≤ 971) :
    mantissa * power 2 exponent < 10 ^ maxDigits := by
  have hdigits : 53 + exponent.toNat ≤ maxDigits := by
    rw [maxDigits]
    omega
  calc mantissa * power 2 exponent < 2 ^ 53 * 2 ^ exponent.toNat :=
        Nat.mul_lt_mul_of_pos_right hmantissa (Nat.pow_pos (by decide))
    _ = 2 ^ (53 + exponent.toNat) := (Nat.pow_add ..).symm
    _ ≤ 10 ^ (53 + exponent.toNat) := Nat.pow_le_pow_left (by decide) _
    _ ≤ 10 ^ maxDigits := Nat.pow_le_pow_right (by decide) hdigits

/-- A finite number has less digits than a whole number that is typed in may have. -/
theorem Binary64.short_of_toInt? {x : Binary64} {n : Int} (h : x.toInt? = some n) : (Value.int n).Short := by
  cases x with
  | finite negative mantissa exponent hcanonical =>
    have hmantissa : mantissa < 2 ^ 53 := hcanonical.1
    have hexponent : exponent ≤ 971 := hcanonical.2.2.1
    rw [toInt?] at h
    obtain ⟨_, hlifted, rfl⟩ := Option.map_eq_some_iff.mp h
    obtain ⟨magnitude, hmagnitude, hlift⟩ := Option.bind_eq_some_iff.mp hlifted
    cases hlift
    rw [short_int_iff]
    refine lt_of_eq_of_lt (natAbs_withSign negative magnitude) ?_
    split at hmagnitude
    · cases hmagnitude
      exact mul_power_lt hmantissa hexponent
    · split at hmagnitude
      · cases hmagnitude
        have hsmall : mantissa * power 2 0 < 10 ^ maxDigits := mul_power_lt hmantissa (by decide)
        exact lt_of_le_of_lt (Nat.div_le_self ..) (Nat.mul_one mantissa ▸ hsmall)
      · cases hmagnitude
  | infinite negative => cases h
  | nan => cases h

/-- A numeral that is read exactly has up to `maxDigits` digits. -/
theorem short_of_integerOfNumeral {text : List Char} {n : Int} (h : integerOfNumeral text = .ok n) :
    (Value.int n).Short := by
  rw [integerOfNumeral] at h
  split at h
  · cases h
  split at h
  · cases h
  · next hparse =>
    dsimp only at h
    split at h
    · cases h
    · next hlong =>
      cases h
      unfold parseInt? at hparse
      dsimp only at hparse
      split at hparse
      · next hdigits =>
        rw [Bool.and_eq_true, List.all_eq_true] at hdigits
        have hn := Option.some.inj hparse
        refine short_int_of_digits hdigits.2 (not_lt.mp hlong) ?_
        rw [← hn]
        exact natAbs_withSign _ _
      · cases hparse

/-- The number that coercion puts in the place of a text can be displayed. -/
theorem short_of_readNumber? {integer : Bool} {s : String} {number : Number}
    (h : readNumber? integer s = some number) : number.toValue.Short := by
  have hwhole : ∀ x : Binary64, (wholeIfIntegral x).toValue.Short := by
    intro x
    rw [wholeIfIntegral]
    cases hread : x.toInt? with
    | some n => exact x.short_of_toInt? hread
    | none => simp [Number.toValue, Value.Short]
  rw [readNumber?] at h
  split at h
  · split at h
    · next hread =>
      cases h
      exact short_of_integerOfNumeral hread
    · obtain ⟨x, -, rfl⟩ := Option.map_eq_some_iff.mp h
      exact hwhole x
  · obtain ⟨x, -, rfl⟩ := Option.map_eq_some_iff.mp h
    simp [Number.toValue, Value.Short]

/-- What is handed on is the value itself or a number. -/
theorem Property.coerce_inherited {Q : Value → Prop} (hQ : Inherited Q) (p : Property) {v : Value} (hv : Q v) :
    Q (p.coerce v) := by
  rw [coerce]
  cases hread : p.number? v with
  | none => exact hv
  | some number =>
    cases v
    case text s =>
      rw [number?] at hread
      split at hread
      · exact hQ.atom (short_of_readNumber? hread) (by cases number <;> simp [Number.toValue, nesting])
      · cases hread
    all_goals cases hread

/-- A coercion puts nothing in the place of a text but a number. -/
theorem Schema.coerce_inherited {Q : Value → Prop} (hQ : Inherited Q) (s : Schema) {values : OrderedMap Value}
    (h : ∀ entry ∈ values.entries, Q entry.2) : ∀ entry ∈ (s.coerce values).entries, Q entry.2 := by
  refine List.forall_mem_map.mpr fun entry hmem => ?_
  show Q (s.coerceValue entry.1 entry.2)
  rw [coerceValue]
  cases s.property? entry.1 with
  | none => exact h entry hmem
  | some p => exact p.coerce_inherited hQ (h entry hmem)

/-! ## Forms -/

/-- The number of lines comes from the options or is the one of the library. -/
theorem Binding.short_rows {b : Binding} (h : ∀ options ∈ b.field.options, options.Short) :
    (Value.int b.rows).Short := by
  have hdefault : (Value.int defaultRows).Short := short_of_inWordRange (by decide)
  rw [rows]
  cases hrows : b.field.options.bind (·.rows) with
  | none => exact hdefault
  | some rows =>
    obtain ⟨options, hoptions, hfound⟩ := Option.bind_eq_some_iff.mp hrows
    dsimp only
    split
    · exact hdefault
    · exact h options hoptions rows hfound

/-- What the widget of a control shows comes from the values, the schema and the layout. -/
theorem Context.short_drawn {c : Context} {control : Control} {field : Field}
    (hfield : control.field? c.schema = some field) (hschema : c.schema.Within Value.Short)
    (hcontrol : control.Short)
    (hvalues : ∀ entry ∈ c.values.entries, entry.2.Short) : (c.drawn field).binding.Short := by
  obtain ⟨property, hproperty, rfl⟩ := Option.map_eq_some_iff.mp hfield
  refine ⟨?_, Binding.short_rows hcontrol, (hschema _ (OrderedMap.get?_eq_some_iff.mp hproperty)).choices⟩
  show ((c.values.get? control.propertyName).getD .null).Short
  cases hget : c.values.get? control.propertyName with
  | none => simp [Value.Short]
  | some v => exact hvalues (_, v) (OrderedMap.get?_eq_some_iff.mp hget)

/-- A form with the standard registry has HTML if all that it may show can be displayed. -/
theorem Form.exists_html {f : Form} (hregistry : f.registry = .standard) (hschema : f.schema.Within Value.Short)
    (hlayout : f.layout.Short) (hvalues : ∀ entry ∈ f.store.values.entries, entry.2.Short) :
    ∃ html, f.toHtml = .ok html := by
  obtain ⟨view, hview, hwidgets⟩ := f.exists_view hregistry
  have hshort : ∀ w ∈ view.widgets, w.binding.Short := by
    intro w hmem
    rw [hwidgets] at hmem
    obtain ⟨control, hcontrol, hdrawn⟩ := List.mem_filterMap.mp hmem
    obtain ⟨field, hfield, rfl⟩ := Option.map_eq_some_iff.mp hdrawn
    exact Context.short_drawn hfield hschema (hlayout control hcontrol) hvalues
  have hbuilt := builtIn_view (hregistry ▸ Registry.builtIn_standard) hview
  obtain ⟨html, hhtml⟩ := View.exists_toHtml hbuilt hshort
  exact ⟨html, toHtml_eq_ok_iff.mpr ⟨view, hview, hhtml⟩⟩

end SchemaForm
