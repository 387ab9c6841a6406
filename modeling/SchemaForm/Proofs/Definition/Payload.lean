import SchemaForm.Proofs.Definition

/-!
# Payloads that are no definition

`from_payload` may be given anything. This module says for which payloads it raises a `FormDefinitionError`, and
for which it raises something else: a content without members, unless it counts as false.

* `Checked.Explained` — a reader that gives no result gives at least one issue; all readers of a definition
  are of this kind;
* `Definition.Fault.Documented` — the two faults of which a host is told;
* `Value.HasBareContent` — the payloads with a content that has no members and does not count as false;
* `Definition.ofPayload_documented_iff` — all other payloads have a definition or a documented fault.
-/

namespace SchemaForm

variable {α β : Type}

/-! ## Results without a reason -/

namespace Checked

/-- If there is no result, then there is an issue. -/
def Explained (x : Checked α) : Prop := x ≠ .bad []

namespace Explained

theorem ok (a : α) : Explained (.ok a) := nofun

theorem fail (problem : Problem) : Explained (fail problem : Checked α) := nofun

theorem map (f : α → β) {x : Checked α} (h : x.Explained) : (x.map f).Explained := by
  cases x with
  | ok a => exact ok (f a)
  | bad issues => exact fun hbad => h (congrArg Checked.bad (Checked.bad.inj hbad))

/-- Issues of both sides are explained if those of each side are. -/
theorem apply {f : Checked (α → β)} {x : Checked α} (hf : f.Explained) (hx : x.Explained) :
    (f.apply x).Explained := by
  cases f with
  | ok g =>
    have happly : Checked.apply (.ok g) x = x.map g := by cases x <;> rfl
    exact happly ▸ map g hx
  | bad issues =>
    have hissues : issues ≠ [] := fun hnil => hf (congrArg Checked.bad hnil)
    cases x with
    | ok a => exact fun hbad => hissues (Checked.bad.inj hbad)
    | bad more => exact fun hbad => hissues (List.append_eq_nil_iff.mp (Checked.bad.inj hbad)).1

theorem andThen {f : α → Checked β} {x : Checked α} (hx : x.Explained) (hf : ∀ a, (f a).Explained) :
    (x.andThen f).Explained := by
  cases x with
  | ok a => exact hf a
  | bad issues => exact fun hbad => hx (congrArg Checked.bad (Checked.bad.inj hbad))

theorem under {x : Checked α} (h : x.Explained) (step : Step) : (x.under step).Explained := by
  cases x with
  | ok a => exact ok a
  | bad issues =>
    exact fun hbad => h (congrArg Checked.bad (List.map_eq_nil_iff.mp (Checked.bad.inj hbad)))

theorem mapIdx {read : α → Checked β} (h : ∀ a, (read a).Explained) (items : List α) (i : Nat) :
    (mapIdx read i items).Explained := by
  induction items generalizing i with
  | nil => exact ok []
  | cons a rest ih => exact apply (map _ (under (h a) _)) (ih (i + 1))

end Explained

end Checked

open Checked (Explained)

/-! ## Readers -/

section Readers

variable {read : Value → Checked α}

theorem explained_readText (v : Value) : (readText v).Explained := by
  cases v <;> first | exact .ok _ | exact .fail _

theorem explained_flagOfInt (n : Int) : (flagOfInt n).Explained := by
  unfold flagOfInt
  repeat' split
  all_goals first | exact .ok _ | exact .fail _

theorem explained_readFlag (v : Value) : (readFlag v).Explained := by
  unfold readFlag
  repeat' split
  all_goals first | exact .ok _ | exact .fail _ | exact explained_flagOfInt _

theorem explained_readInteger (v : Value) : (readInteger v).Explained := by
  unfold readInteger
  repeat' split
  all_goals first | exact .ok _ | exact .fail _

theorem explained_readList (h : ∀ v, (read v).Explained) (v : Value) : (readList read v).Explained := by
  cases v with
  | list items => exact .mapIdx h items 0
  | _ => exact .fail _

theorem explained_readEntries (h : ∀ v, (read v).Explained) (members : List (String × Value)) :
    (readEntries read members).Explained := by
  induction members with
  | nil => exact .ok []
  | cons member rest ih => exact .apply (.map _ (.under (h member.2) _)) ih

theorem explained_readObject (h : ∀ v, (read v).Explained) (v : Value) : (readObject read v).Explained := by
  cases v with
  | object members => exact .map _ (explained_readEntries h members)
  | _ => exact .fail _

theorem explained_readNullable (h : ∀ v, (read v).Explained) (v : Value) :
    (readNullable read v).Explained := by
  unfold readNullable
  split
  · exact .ok none
  · exact .map some (h v)

theorem explained_required (names : List String) (h : ∀ v, (read v).Explained)
    (members : List (String × Value)) : (required names read members).Explained := by
  unfold required
  split
  · exact .under (h _) _
  · exact .under (.fail _) _

theorem explained_optional (names : List String) (absent : α) (h : ∀ v, (read v).Explained)
    (members : List (String × Value)) : (optional names absent read members).Explained := by
  unfold optional
  split
  · exact .under (h _) _
  · exact .ok absent

theorem explained_nullable (names : List String) (h : ∀ v, (read v).Explained)
    (members : List (String × Value)) : (nullable names read members).Explained :=
  explained_optional names none (explained_readNullable h) members

theorem explained_readModel {model : String} {readFields : List (String × Value) → Checked α}
    (h : ∀ members, (readFields members).Explained) (v : Value) : (readModel model readFields v).Explained := by
  cases v with
  | object members => exact h members
  | _ => exact .fail _

end Readers

/-! ## Schemas -/

theorem explained_readType (v : Value) : (PropertyType.read v).Explained := by
  unfold PropertyType.read
  dsimp only
  split
  · exact .ok _
  · exact .fail _

theorem explained_readChoice (v : Value) : (Choice.read v).Explained :=
  explained_readModel (fun members => .apply
    (.map _ (explained_required _ (fun v => .ok v) members))
    (explained_nullable _ explained_readText members)) v

theorem explained_readProperty : ∀ v : Value, (Property.read v).Explained := by
  have hany : ∀ v : Value, (readAny v).Explained := fun v => .ok v
  have htext : ∀ names members, (nullable names readText members).Explained :=
    fun names members => explained_nullable names explained_readText members
  refine explained_readModel fun members => ?_
  have htype := explained_optional ["type"] .string explained_readType members
  have hdefault := explained_nullable ["default"] hany members
  have henum : (nullable ["enum"] Property.readValues members).Explained :=
    explained_nullable ["enum"] (explained_readList hany) members
  have honeOf := explained_nullable ["oneOf", "one_of"] (explained_readList explained_readChoice) members
  exact .apply (.apply (.apply (.apply (.apply (.apply (.map _ htype) (htext _ members))
    (htext _ members)) hdefault) (htext _ members)) henum) honeOf

theorem explained_check (s : Schema) : s.check.Explained := by
  unfold Schema.check
  split
  · exact .ok s
  · exact .fail _

theorem explained_readSchema : ∀ v : Value, (Schema.read v).Explained := by
  refine explained_readModel fun members => .andThen ?_ explained_check
  have htext : ∀ names, (nullable names readText members).Explained :=
    fun names => explained_nullable names explained_readText members
  have hproperties :=
    explained_optional ["properties"] ∅ (explained_readObject explained_readProperty) members
  have hrequired := explained_optional ["required"] [] (explained_readList explained_readText) members
  exact .apply (.apply (.apply (.map _ (htext _)) (htext _)) hproperties) hrequired

/-! ## Layouts -/

theorem explained_readOptions : ∀ v : Value, (ControlOptions.read v).Explained := by
  refine explained_readModel fun members => ?_
  have hformat := explained_nullable ["format"] explained_readText members
  have hmulti := explained_nullable ["multi"] explained_readFlag members
  have hrows := explained_nullable ["rows"] explained_readInteger members
  exact .apply (.apply (.apply (.map _ hformat) hmulti) hrows) (.ok _)

theorem explained_readLabelSetting (v : Value) : (LabelSetting.read v).Explained := by
  unfold LabelSetting.read
  repeat' split
  all_goals first | exact .ok _ | exact nofun

theorem explained_readControl (members : List (String × Value)) : (Control.readFields members).Explained := by
  have htag : ∀ v, (Control.readTag v).Explained := by
    intro v
    unfold Control.readTag
    repeat' split
    all_goals first | exact .ok _ | exact .fail _
  have htype := explained_optional ["type"] () htag members
  have hscope := explained_required ["scope"] explained_readText members
  have hlabel := explained_optional ["label"] .unset explained_readLabelSetting members
  have hoptions := explained_nullable ["options"] explained_readOptions members
  exact .apply (.apply (.apply (.map _ htype) hscope) hlabel) hoptions

namespace Layout

theorem explained_readTag (members : List (String × Value)) : (Tag.read members).Explained := by
  unfold Tag.read
  split
  · exact .fail .noTag
  · dsimp only
    split
    · exact .ok _
    · exact .fail _

/-- A node has its label and its elements. -/
theorem explained_node (node : Option String → List Layout → Layout) {members : List (String × Value)}
    (helements : (readElements members).Explained) :
    (node <$> readLabel members <*> readElements members).Explained :=
  .apply (.map _ (explained_nullable ["label"] explained_readText members)) helements

mutual

/-- By recursion on the value that is read. -/
theorem explained_read : ∀ v : Value, (read v).Explained
  | .object members => by
    have helements := explained_readElements members
    rw [read]
    cases htag : Tag.read members with
    | bad issues => exact fun hbad => explained_readTag members (htag.trans (congrArg _ (Checked.bad.inj hbad)))
    | ok tag =>
      refine .under ?_ _
      cases tag with
      | verticalLayout => exact explained_node _ helements
      | horizontalLayout => exact explained_node _ helements
      | group => exact explained_node _ helements
      | control => exact .map _ (explained_readControl members)
      | label => exact .map _ (explained_required _ explained_readText members)
  | .null => .fail _
  | .bool _ => .fail _
  | .int _ => .fail _
  | .float _ => .fail _
  | .text _ => .fail _
  | .list _ => .fail _

theorem explained_readElements : ∀ members : List (String × Value), (readElements members).Explained
  | [] => by
    rw [readElements]
    exact .ok []
  | (name, v) :: rest => by
    rw [readElements]
    split
    · exact .under (explained_readElementList v) _
    · exact explained_readElements rest

theorem explained_readElementList : ∀ v : Value, (readElementList v).Explained
  | .list items => by
    rw [readElementList]
    exact explained_readNodes items 0
  | .null => .fail _
  | .bool _ => .fail _
  | .int _ => .fail _
  | .float _ => .fail _
  | .text _ => .fail _
  | .object _ => .fail _

theorem explained_readNodes : ∀ (items : List Value) (i : Nat), (readNodes i items).Explained
  | [], _ => by
    rw [readNodes]
    exact .ok []
  | v :: rest, i => by
    rw [readNodes]
    exact .apply (.map _ (.under (explained_read v) _)) (explained_readNodes rest (i + 1))

end

end Layout

/-! ## Contents -/

namespace Value

/-- The content of a payload, if it has one. -/
def content? : Value → Option Value
  | .object members => Entries.get? "content" members
  | _ => none

/-- The value has no members, and it does not count as false either. -/
def IsBare (v : Value) : Prop := v.isTruthy = true ∧ ∀ members, v ≠ .object members

/-- Nothing can be looked up in the content of the payload. -/
def HasBareContent (payload : Value) : Prop := ∃ content ∈ payload.content?, content.IsBare

end Value

/-! ## Definitions -/

namespace Definition

variable {members : List (String × Value)} {content : Value}

theorem explained_readFields (members : List (String × Value)) : (readFields members).Explained := by
  have hid := explained_optional ["formId", "form_id"] defaultId explained_readText members
  have htitle := explained_nullable ["title"] explained_readText members
  have hschema := explained_required ["jsonSchema", "json_schema"] explained_readSchema members
  have hlayout := explained_nullable ["uiSchema", "ui_schema"] Layout.explained_read members
  have hdata := explained_nullable ["formData", "form_data"]
    (explained_readObject fun v => .ok v) members
  exact .apply (.apply (.apply (.apply (.map _ hid) htitle) hschema) hlayout) hdata

/-- A content is looked into unless it is bare. -/
theorem contentMembers_eq_error_iff {fault : Fault} :
    contentMembers content = .error fault ↔
      content.IsBare ∧ fault = .contentWithoutMembers content.typeName := by
  unfold contentMembers
  cases htruthy : content.isTruthy with
  | false => simp [Value.IsBare, htruthy]
  | true =>
    cases content with
    | object members => simp [Value.IsBare]
    | _ => simp [Value.IsBare, htruthy, eq_comm]

/-- A payload that is an object has a flat shape unless its content is bare. -/
theorem flatten_eq_error_iff {fault : Fault} :
    flatten members = .error fault ↔
      ∃ content ∈ (Value.object members).content?,
        content.IsBare ∧ fault = .contentWithoutMembers content.typeName := by
  rw [flatten, Value.content?]
  cases hcontent : Entries.get? "content" members with
  | none => simp
  | some content =>
    have hcontents : (∃ other ∈ some content, other.IsBare ∧ fault = .contentWithoutMembers other.typeName) ↔
        contentMembers content = .error fault := by
      simpa using contentMembers_eq_error_iff.symm
    rw [hcontents]
    dsimp only
    cases contentMembers content with
    | error other => exact Iff.rfl
    | ok inner => exact iff_of_false nofun nofun

/-- An object is read in its flat shape, if it has one. -/
theorem ofPayload_object (members : List (String × Value)) :
    ofPayload (.object members) =
      match flatten members with
      | .error fault => .error fault
      | .ok flat =>
        match readFields flat with
        | .ok d => .ok d
        | .bad issues => .error (.invalid issues) := by
  rw [ofPayload]
  cases flatten members with
  | error fault => rfl
  | ok flat =>
    dsimp only [bind, Except.bind]
    cases readFields flat <;> rfl

theorem ofPayload_of_bare (hcontent : content ∈ (Value.object members).content?) (hbare : content.IsBare) :
    ofPayload (.object members) = .error (.contentWithoutMembers content.typeName) := by
  have hflat : flatten members = .error (.contentWithoutMembers content.typeName) :=
    flatten_eq_error_iff.mpr ⟨content, hcontent, hbare, rfl⟩
  rw [ofPayload_object, hflat]

/-- A bare content, and nothing else, is told to have no members. -/
theorem ofPayload_eq_error_iff {payload : Value} {typeName : String} :
    ofPayload payload = .error (.contentWithoutMembers typeName) ↔
      ∃ content ∈ payload.content?, content.IsBare ∧ typeName = content.typeName := by
  constructor
  · intro h
    cases payload with
    | object members =>
      rw [ofPayload_object] at h
      cases hflat : flatten members with
      | error fault =>
        rw [hflat] at h
        obtain ⟨content, hcontent, hbare, hfault⟩ := flatten_eq_error_iff.mp hflat
        exact ⟨content, hcontent, hbare, Fault.contentWithoutMembers.inj ((Except.error.inj h).symm.trans hfault)⟩
      | ok flat =>
        rw [hflat] at h
        dsimp only at h
        split at h <;> cases h
    | _ => cases h
  · rintro ⟨content, hcontent, hbare, rfl⟩
    cases payload with
    | object members => exact ofPayload_of_bare hcontent hbare
    | _ => cases hcontent

/-- The faults of which a host is told: the payload is no object, or something is wrong with its fields. -/
inductive Fault.Documented (payload : Value) : Fault → Prop where
  | notObject (h : ∀ members, payload ≠ .object members) :
      Documented payload (.notObject payload.typeName)
  | invalid {members flat : List (String × Value)} {issues : List Issue}
      (hobject : payload = .object members) (hflat : flatten members = .ok flat)
      (hread : readFields flat = .bad issues) (hissues : issues ≠ []) : Documented payload (.invalid issues)

/-- There is no third kind of fault beside the documented ones and that of a bare content. -/
theorem documented_of_ofPayload {payload : Value} {fault : Fault} (h : ofPayload payload = .error fault) :
    fault.Documented payload ∨ ∃ typeName, fault = .contentWithoutMembers typeName := by
  cases payload with
  | object members =>
    rw [ofPayload_object] at h
    cases hflat : flatten members with
    | error other =>
      obtain ⟨content, -, -, rfl⟩ := flatten_eq_error_iff.mp hflat
      rw [hflat] at h
      cases h
      exact .inr ⟨_, rfl⟩
    | ok flat =>
      rw [hflat] at h
      dsimp only at h
      cases hread : readFields flat with
      | ok d =>
        rw [hread] at h
        cases h
      | bad issues =>
        rw [hread] at h
        cases h
        have hissues : issues ≠ [] := fun hnil =>
          explained_readFields flat (hread.trans (congrArg Checked.bad hnil))
        exact .inl (.invalid rfl hflat hread hissues)
  | _ =>
    cases h
    exact .inl (.notObject nofun)

/-- **Which payloads are answered as documented.** A payload gives a definition or a documented fault
exactly if its content can be looked into. Every fault in the fields comes with an issue at least. A bare
content is a fault of another kind. -/
theorem ofPayload_documented_iff (payload : Value) :
    (((∃ d, ofPayload payload = .ok d) ∨
        ∃ fault, ofPayload payload = .error fault ∧ fault.Documented payload) ↔
      ¬ payload.HasBareContent) ∧
    ∀ content ∈ payload.content?, content.IsBare →
      ofPayload payload = .error (.contentWithoutMembers content.typeName) := by
  have hbad : ∀ content ∈ payload.content?, content.IsBare →
      ofPayload payload = .error (.contentWithoutMembers content.typeName) :=
    fun content hcontent hbare => ofPayload_eq_error_iff.mpr ⟨content, hcontent, hbare, rfl⟩
  refine ⟨⟨?_, fun hgood => ?_⟩, hbad⟩
  · rintro (⟨d, hd⟩ | ⟨fault, hfault, hdocumented⟩) ⟨content, hcontent, hbare⟩
    · cases hd.symm.trans (hbad content hcontent hbare)
    · cases hfault.symm.trans (hbad content hcontent hbare)
      cases hdocumented
  · cases hresult : ofPayload payload with
    | ok d => exact .inl ⟨d, rfl⟩
    | error fault =>
      refine .inr ⟨fault, rfl, ?_⟩
      rcases documented_of_ofPayload hresult with hdocumented | ⟨typeName, rfl⟩
      · exact hdocumented
      · obtain ⟨content, hcontent, hbare, -⟩ := ofPayload_eq_error_iff.mp hresult
        exact absurd ⟨content, hcontent, hbare⟩ hgood

/-- A payload with a list in the place of its content. -/
def listedPayload : Value := .object [("content", .list [.int 1])]

/-- What is told of it is not that the payload is wrong. -/
theorem listed_content_not_documented :
    ofPayload listedPayload = .error (.contentWithoutMembers "list") ∧
      ¬ ((∃ d, ofPayload listedPayload = .ok d) ∨
        ∃ fault, ofPayload listedPayload = .error fault ∧ fault.Documented listedPayload) := by
  have hfault : ofPayload listedPayload = .error (.contentWithoutMembers "list") := rfl
  refine ⟨hfault, ?_⟩
  rintro (⟨d, hd⟩ | ⟨fault, herror, hdocumented⟩)
  · cases hfault.symm.trans hd
  · cases hfault.symm.trans herror
    cases hdocumented

end Definition

end SchemaForm
