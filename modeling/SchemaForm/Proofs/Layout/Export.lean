import SchemaForm.View.Rendering
import SchemaForm.Proofs.Reading

/-!
# Layouts that are written and read again

`parse_layout` reads what `layout_to_dict` has written as the same layout, but for the hints that are null: they
are not written.

* `Layout.exported` — what is left of a layout;
* `ControlOptions.Regular` — no hint that all forms know stands among the others. A layout that was read has
  such options only;
* `Layout.read_toValue` — the layout in JSON is read as what is left of it.
-/

namespace SchemaForm

open Entries

/-! ## Options -/

namespace ControlOptions

variable {options : ControlOptions}

/-- What is left of options: all but the hints that are null. -/
def exported (options : ControlOptions) : ControlOptions := { options with extra := written options.extra }

/-- No hint that all forms know stands among the others. -/
def Regular (options : ControlOptions) : Prop := ∀ member ∈ options.extra, member.1 ∉ knownNames

/-- The hints that all forms know. -/
def known (options : ControlOptions) : List (String × Value) :=
  [("format", .ofOption .text options.format), ("multi", .ofOption .bool options.multi),
    ("rows", .ofOption .int options.rows)]

theorem toValue_eq (options : ControlOptions) :
    options.toValue = .object (written (options.known ++ options.extra)) := objectOfSome_eq _

theorem read_toValue_eq (options : ControlOptions) :
    read options.toValue = readFields (written (options.known ++ options.extra)) :=
  congrArg read options.toValue_eq

theorem readFields_eq_ok_iff {members : List (String × Value)} :
    readFields members = .ok options ↔
      nullable ["format"] readText members = .ok options.format ∧
        nullable ["multi"] readFlag members = .ok options.multi ∧
        nullable ["rows"] readInteger members = .ok options.rows ∧
        members.filter (fun member => !knownNames.contains member.1) = options.extra := by
  obtain ⟨format, multi, rows, extra⟩ := options
  rw [Checked.eq_ok_iff_exists]
  simp only [readFields, Checked.map_eq, Checked.seq_eq, Checked.exists_apply, Checked.exists_map]
  grind

theorem extra_written (h : options.Regular) :
    (written (options.known ++ options.extra)).filter (fun member => !knownNames.contains member.1) =
      written options.extra := by
  have hknown : (written options.known).filter (fun member => !knownNames.contains member.1) = [] := by
    refine List.filter_eq_nil_iff.mpr fun member hmem => ?_
    have hname := (mem_written_iff.mp hmem).1
    simp only [known, List.mem_cons, List.not_mem_nil, or_false] at hname
    rcases hname with rfl | rfl | rfl <;> simp [knownNames]
  have hextra : (written options.extra).filter (fun member => !knownNames.contains member.1) =
      written options.extra := by
    refine List.filter_eq_self.mpr fun member hmem => ?_
    have hname := h member (mem_written_iff.mp hmem).1
    simpa using hname
  rw [written_append, List.filter_append, hknown, hextra, List.nil_append]

/-- The hints besides are not taken for those that all forms know. -/
theorem found_known (h : options.Regular) (name : String) (v : Value) (hname : name ∈ knownNames)
    (hknown : ∀ w, (name, w) ∈ options.known ↔ w = v) :
    found name (written (options.known ++ options.extra)) = v := by
  refine found_written fun w => ?_
  have hextra : (name, w) ∉ options.extra := fun hmem => h (name, w) hmem hname
  rw [List.mem_append, hknown w, or_iff_left hextra]

/-- Options that were written are read again without the hints that are null. -/
theorem read_toValue (h : options.Regular) : read options.toValue = .ok options.exported := by
  have hformat := found_known h "format" (.ofOption .text options.format)
    (by simp [knownNames]) (by simp [known])
  have hmulti := found_known h "multi" (.ofOption .bool options.multi)
    (by simp [knownNames]) (by simp [known])
  have hrows := found_known h "rows" (.ofOption .int options.rows)
    (by simp [knownNames]) (by simp [known])
  rw [read_toValue_eq, readFields_eq_ok_iff]
  exact ⟨nullable_text_of_found hformat (by simp),
    nullable_of_found hmulti (by simp) (fun _ _ => rfl) (by simp),
    nullable_of_found hrows (by simp) (fun _ _ => rfl) (by simp), extra_written h⟩

theorem regular_of_read {v : Value} (h : read v = .ok options) : options.Regular := by
  cases v
  case object members =>
    obtain ⟨-, -, -, hextra⟩ := readFields_eq_ok_iff.mp h
    intro member hmem
    rw [← hextra] at hmem
    simpa using (List.mem_filter.mp hmem).2
  all_goals cases h

end ControlOptions

/-! ## Controls -/

theorem LabelSetting.read_toValue (label : LabelSetting) : read label.toValue = .ok label := by
  cases label <;> rfl

namespace Control

variable {control : Control}

/-- What is left of a control. -/
def exported (control : Control) : Control :=
  { control with options := control.options.map ControlOptions.exported }

def Regular (control : Control) : Prop := ∀ options ∈ control.options, options.Regular

/-- The members of a control before what is null is left out. -/
def members (control : Control) : List (String × Value) :=
  [("type", .text tag), ("scope", .text control.scope), ("label", control.label.toValue),
    ("options", .ofOption ControlOptions.toValue control.options)]

theorem toValue_eq (control : Control) : control.toValue = .object (written control.members) :=
  objectOfSome_eq control.members

theorem readFields_eq_ok_iff {members : List (String × Value)} :
    readFields members = .ok control ↔
      optional ["type"] () readTag members = .ok () ∧
        required ["scope"] readText members = .ok control.scope ∧
        optional ["label"] .unset LabelSetting.read members = .ok control.label ∧
        nullable ["options"] ControlOptions.read members = .ok control.options := by
  obtain ⟨scope, label, options⟩ := control
  rw [Checked.eq_ok_iff_exists]
  simp only [readFields, Checked.map_eq, Checked.seq_eq, Checked.exists_apply, Checked.exists_map]
  grind

/-- So is a control. -/
theorem readFields_written (h : control.Regular) :
    readFields (written control.members) = .ok control.exported := by
  have htype : found "type" (written control.members) = .text tag :=
    found_written (by simp [members])
  have hscope : found "scope" (written control.members) = .text control.scope :=
    found_written (by simp [members])
  have hlabel : optional ["label"] .unset LabelSetting.read (written control.members) =
      .ok control.label :=
    optional_of_found (found_written (by simp [members])) (by simp) control.label.read_toValue
      (fun hnull => by cases hl : control.label <;> simp [hl, LabelSetting.toValue] at hnull ⊢)
  have hoptions : nullable ["options"] ControlOptions.read (written control.members) =
      .ok control.exported.options :=
    nullable_map_of_found (found_written (by simp [members])) (by simp)
      (fun options hmem => ControlOptions.read_toValue (h options hmem))
      (by simp [ControlOptions.toValue_eq])
  rw [readFields_eq_ok_iff, optional_eq_under htype (by simp), required_of_found hscope (by simp)]
  exact ⟨rfl, rfl, hlabel, hoptions⟩

theorem regular_of_readFields {members : List (String × Value)} (h : readFields members = .ok control) :
    control.Regular := by
  intro options hmem
  obtain ⟨-, -, -, hoptions⟩ := readFields_eq_ok_iff.mp h
  obtain ⟨w, -, hw⟩ := ok_of_nullable (hoptions.trans (congrArg Checked.ok hmem))
  exact ControlOptions.regular_of_read hw

end Control

/-! ## Layouts -/

namespace Layout

mutual

/-- What is left of a layout. -/
def exported : Layout → Layout
  | .stack direction label elements => .stack direction label (exportedAll elements)
  | .group label elements => .group label (exportedAll elements)
  | .control bound => .control bound.exported
  | .caption text => .caption text

/-- What is left of nodes that follow each other. -/
def exportedAll : List Layout → List Layout
  | [] => []
  | node :: rest => exported node :: exportedAll rest

end

/-- The options of all controls are regular. -/
def Regular (layout : Layout) : Prop := ∀ control ∈ layout.controls, control.Regular

/-! ### What holds of a layout that was read -/

/-- The parts of a node were read. -/
theorem ok_of_node {node : Option String → List Layout → Layout} {members : List (String × Value)}
    {layout : Layout} (h : node <$> readLabel members <*> readElements members = .ok layout) :
    ∃ label elements, readElements members = .ok elements ∧ node label elements = layout := by
  simp only [Checked.map_eq, Checked.seq_eq, Checked.apply_eq_ok_iff, Checked.map_eq_ok_iff] at h
  obtain ⟨_, elements, ⟨label, -, rfl⟩, helements, rfl⟩ := h
  exact ⟨label, elements, helements, rfl⟩

/-- A property of values that their parts have, too, and what it says of a control that is read. -/
structure HandsDown (V : Value → Prop) (P : Control → Prop) : Prop where
  items : ∀ {items : List Value}, V (.list items) → ∀ v ∈ items, V v
  members : ∀ {members : List (String × Value)}, V (.object members) → ∀ member ∈ members, V member.2
  control : ∀ {members : List (String × Value)} {control : Control},
    V (.object members) → Control.readFields members = .ok control → P control

section Controls

variable {V : Value → Prop} {P : Control → Prop}

mutual

/-- What is handed down to each control that is read holds of the controls of the layout. By recursion on the
value. -/
theorem controls_of_read (hV : HandsDown V P) : ∀ {v : Value} {layout : Layout}, V v → read v = .ok layout →
    ∀ control ∈ layout.controls, P control
  | .object members, layout, hv, h => by
    rw [read] at h
    cases htag : Tag.read members with
    | bad issues => simp [htag] at h
    | ok tag =>
      simp only [htag, Checked.under_eq_ok_iff] at h
      have hmembers := hV.members hv
      cases tag with
      | verticalLayout =>
        obtain ⟨_, _, helements, rfl⟩ := ok_of_node h
        exact controls_of_readElements hV hmembers helements
      | horizontalLayout =>
        obtain ⟨_, _, helements, rfl⟩ := ok_of_node h
        exact controls_of_readElements hV hmembers helements
      | group =>
        obtain ⟨_, _, helements, rfl⟩ := ok_of_node h
        exact controls_of_readElements hV hmembers helements
      | control =>
        obtain ⟨bound, hbound, rfl⟩ := Checked.map_eq_ok_iff.mp h
        have hP : P bound := hV.control hv hbound
        simpa [controls] using hP
      | label =>
        obtain ⟨text, -, rfl⟩ := Checked.map_eq_ok_iff.mp h
        exact List.forall_mem_nil _
  | .null, _, _, h => by cases h
  | .bool _, _, _, h => by cases h
  | .int _, _, _, h => by cases h
  | .float _, _, _, h => by cases h
  | .text _, _, _, h => by cases h
  | .list _, _, _, h => by cases h

theorem controls_of_readElements (hV : HandsDown V P) : ∀ {members : List (String × Value)} {elements : List Layout},
    (∀ member ∈ members, V member.2) → readElements members = .ok elements →
      ∀ control ∈ controlsOfAll elements, P control
  | [], _, _, h => by
    rw [readElements] at h
    cases h
    exact List.forall_mem_nil _
  | (name, v) :: rest, elements, hmembers, h => by
    obtain ⟨hv, hrest⟩ := List.forall_mem_cons.mp hmembers
    rw [readElements] at h
    split at h
    · exact controls_of_readElementList hV hv (Checked.under_eq_ok_iff.mp h)
    · exact controls_of_readElements hV hrest h

theorem controls_of_readElementList (hV : HandsDown V P) : ∀ {v : Value} {elements : List Layout},
    V v → readElementList v = .ok elements → ∀ control ∈ controlsOfAll elements, P control
  | .list items, _, hv, h => by
    rw [readElementList] at h
    exact controls_of_readNodes hV (hV.items hv) h
  | .null, _, _, h => by cases h
  | .bool _, _, _, h => by cases h
  | .int _, _, _, h => by cases h
  | .float _, _, _, h => by cases h
  | .text _, _, _, h => by cases h
  | .object _, _, _, h => by cases h

theorem controls_of_readNodes (hV : HandsDown V P) : ∀ {items : List Value} {i : Nat} {elements : List Layout},
    (∀ v ∈ items, V v) → readNodes i items = .ok elements → ∀ control ∈ controlsOfAll elements, P control
  | [], _, _, _, h => by
    rw [readNodes] at h
    cases h
    exact List.forall_mem_nil _
  | v :: rest, _, _, hitems, h => by
    obtain ⟨hv, hrest⟩ := List.forall_mem_cons.mp hitems
    simp only [readNodes, Checked.map_eq, Checked.seq_eq, Checked.apply_eq_ok_iff, Checked.map_eq_ok_iff,
      Checked.under_eq_ok_iff] at h
    obtain ⟨_, others, ⟨node, hnode, rfl⟩, hothers, rfl⟩ := h
    rw [controlsOfAll]
    exact List.forall_mem_append.mpr ⟨controls_of_read hV hv hnode, controls_of_readNodes hV hrest hothers⟩

end

end Controls

theorem regular_of_read {v : Value} {layout : Layout} (h : read v = .ok layout) : layout.Regular := by
  have hV : HandsDown (fun _ => True) Control.Regular :=
    ⟨fun _ _ _ => trivial, fun _ _ _ => trivial, fun _ hread => Control.regular_of_readFields hread⟩
  exact controls_of_read hV trivial h

/-- The layout of a form that has none asks for nothing. -/
theorem options_default (names : List String) :
    ∀ control ∈ (Layout.default names).controls, control.options = none := by
  have hnodes : ∀ control ∈ controlsOfAll (names.map fun name =>
      .control (Control.mk (Scope.ofName name) .unset none)), control.options = none := by
    induction names with
    | nil => exact List.forall_mem_nil _
    | cons name rest ih =>
      rw [List.map_cons, controlsOfAll, controls]
      exact List.forall_mem_cons.mpr ⟨rfl, ih⟩
  exact hnodes

theorem regular_default (names : List String) : (Layout.default names).Regular := by
  intro control hcontrol options hmem
  rw [options_default names control hcontrol] at hmem
  cases hmem

/-! ### Reading what was written -/

theorem toValue_ne_null (layout : Layout) : layout.toValue ≠ .null := by
  cases layout with
  | stack direction => cases direction <;> simp [toValue, objectOfSome_eq]
  | group => simp [toValue, objectOfSome_eq]
  | control bound => simp [toValue, Control.toValue_eq]
  | caption => simp [toValue, objectOfSome_eq]

theorem Tag.read_of_found {members : List (String × Value)} {tag : Tag}
    (h : found "type" members = .text tag.name) : Tag.read members = .ok tag := by
  rw [Tag.read, get?_of_found h (by simp)]
  dsimp only
  rw [ofName?_name]

theorem readElements_eq (members : List (String × Value)) :
    readElements members = match get? "elements" members with
      | some v => (readElementList v).under (.field "elements")
      | none => .ok [] := by
  induction members with
  | nil => rw [readElements]; rfl
  | cons member rest ih =>
    obtain ⟨name, v⟩ := member
    rw [readElements, get?_cons, ih]
    by_cases hname : name = "elements"
    · rw [if_pos hname, if_pos hname]
    · rw [if_neg hname, if_neg hname]

/-- The members of a node with elements before what is null is left out. -/
def nodeMembers (tag : Tag) (label : Option String) (elements : List Layout) : List (String × Value) :=
  [("label", .ofOption .text label), ("elements", .list (toValues elements)), ("type", .text tag.name)]

section Node

variable (tag : Tag) (label : Option String) {elements : List Layout}

theorem readTag_nodeMembers : Tag.read (written (nodeMembers tag label elements)) = .ok tag :=
  Tag.read_of_found (found_written (by simp [nodeMembers]))

theorem readLabel_nodeMembers : readLabel (written (nodeMembers tag label elements)) = .ok label :=
  nullable_text_of_found (found_written (by simp [nodeMembers])) (by simp)

theorem readElements_nodeMembers {others : List Layout}
    (h : readNodes 0 (toValues elements) = .ok others) :
    readElements (written (nodeMembers tag label elements)) = .ok others := by
  have hfound : found "elements" (written (nodeMembers tag label elements)) =
      .list (toValues elements) := found_written (by simp [nodeMembers])
  rw [readElements_eq, get?_of_found hfound (by simp)]
  dsimp only
  rw [readElementList, h, Checked.under_ok]

theorem read_nodeMembers {node : Option String → List Layout → Layout} {others : List Layout}
    (hnode : ∀ members, Tag.read members = .ok tag →
      read (.object members) =
        Checked.under (.field tag.name) (node <$> readLabel members <*> readElements members))
    (h : readNodes 0 (toValues elements) = .ok others) :
    read (.object (written (nodeMembers tag label elements))) = .ok (node label others) := by
  rw [hnode _ (readTag_nodeMembers tag label), readLabel_nodeMembers, readElements_nodeMembers tag label h]
  rfl

end Node

mutual

/-- By recursion on the layout. A node is read by its tag, and then its parts by their names. -/
theorem read_toValue : ∀ {layout : Layout}, layout.Regular → read layout.toValue = .ok layout.exported
  | .stack .vertical label elements, h => by
    rw [toValue, objectOfSome_eq]
    exact read_nodeMembers _ label (fun _ htag => by rw [read, htag]) (readNodes_toValues h 0)
  | .stack .horizontal label elements, h => by
    rw [toValue, objectOfSome_eq]
    exact read_nodeMembers _ label (fun _ htag => by rw [read, htag]) (readNodes_toValues h 0)
  | .group label elements, h => by
    rw [toValue, objectOfSome_eq]
    exact read_nodeMembers _ label (fun _ htag => by rw [read, htag]) (readNodes_toValues h 0)
  | .control bound, h => by
    have htag : Tag.read (written bound.members) = .ok .control :=
      Tag.read_of_found (found_written (by simp [Control.members, Tag.name]))
    have hbound : bound.Regular := h bound (by simp [controls])
    rw [toValue, Control.toValue_eq, read, htag]
    dsimp only
    rw [Control.readFields_written hbound]
    rfl
  | .caption text, _ => by
    have htag : Tag.read [("type", .text Tag.label.name), ("text", .text text)] = .ok .label :=
      Tag.read_of_found rfl
    have htext : required ["text"] readText [("type", .text Tag.label.name), ("text", .text text)] =
        .ok text := required_of_found (v := .text text) rfl (by simp)
    rw [toValue, objectOfSome_eq]
    change read (.object [("type", .text Tag.label.name), ("text", .text text)]) = _
    rw [read, htag]
    dsimp only
    rw [htext]
    rfl

theorem readNodes_toValues : ∀ {elements : List Layout},
    (∀ control ∈ controlsOfAll elements, control.Regular) →
      ∀ i, readNodes i (toValues elements) = .ok (exportedAll elements)
  | [], _, _ => by rw [toValues, readNodes, exportedAll]
  | node :: rest, h, i => by
    rw [controlsOfAll, List.forall_mem_append] at h
    rw [toValues, readNodes, read_toValue h.1, readNodes_toValues h.2 (i + 1)]
    rfl

end

end Layout

end SchemaForm
