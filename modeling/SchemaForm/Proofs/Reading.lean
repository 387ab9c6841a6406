import SchemaForm.Issue
import SchemaForm.Proofs.OrderedMap

/-!
# Reading back what was written

A model is written as an object of its members, and a member that is null is left out. This module has what
the models share when such an object is read again.

* `Checked.exists_apply`, `Checked.exists_map` — what reading a model says of its fields;
* `Entries.written` — the members that are written; `Entries.found` — what is found under a name;
  `found_written` and `get?_written_eq_none` say what it is among members that were written;
* `required_of_found`, `optional_of_found`, `nullable_of_found` — reading a field that was written;
* `readList_map`, `readObject_map` — reading a list or an object of parts that were written, and the
  converse: if the whole can be read, so can every part.
-/

namespace SchemaForm

variable {α β : Type}

/-! ## Results -/

namespace Checked

theorem map_eq_ok_iff {f : α → β} {x : Checked α} {b : β} :
    x.map f = .ok b ↔ ∃ a, x = .ok a ∧ f a = b := by
  cases x <;> simp [map]

theorem under_eq_ok_iff {step : Step} {x : Checked α} {a : α} : x.under step = .ok a ↔ x = .ok a := by
  cases x <;> simp [under]

theorem andThen_eq_ok_iff {f : α → Checked β} {x : Checked α} {b : β} :
    x.andThen f = .ok b ↔ ∃ a, x = .ok a ∧ f a = .ok b := by
  cases x <;> simp [andThen]

theorem mapIdx_map {read : Value → Checked α} {write : α → Value} {parts : List α}
    (h : ∀ a ∈ parts, read (write a) = .ok a) (i : Nat) :
    mapIdx read i (parts.map write) = .ok parts := by
  induction parts generalizing i with
  | nil => rfl
  | cons a rest ih =>
    have hfirst := h a (List.mem_cons_self ..)
    have hrest := ih (fun b hmem => h b (List.mem_cons_of_mem _ hmem)) (i + 1)
    simp [mapIdx, hfirst, hrest]

theorem ok_of_mapIdx {read : Value → Checked α} {items : List Value} {i : Nat} {parts : List α}
    (h : mapIdx read i items = .ok parts) : ∀ v ∈ items, ∃ a, read v = .ok a := by
  induction items generalizing i parts with
  | nil => simp
  | cons v rest ih =>
    simp only [mapIdx, map_eq, seq_eq, apply_eq_ok_iff, map_eq_ok_iff, under_eq_ok_iff] at h
    obtain ⟨_, others, ⟨a, hfirst, -⟩, hrest, -⟩ := h
    exact List.forall_mem_cons.mpr ⟨⟨a, hfirst⟩, ih hrest⟩

/-! ### Models

The fields of a model are read one after the other. By these three equations the model can be read exactly
if each of its fields can. -/

theorem eq_ok_iff_exists {x : Checked α} {a : α} : x = .ok a ↔ ∃ b, x = .ok b ∧ b = a := by simp

theorem exists_map {f : α → β} {x : Checked α} {P : β → Prop} :
    (∃ b, x.map f = .ok b ∧ P b) ↔ ∃ a, x = .ok a ∧ P (f a) := by
  cases x <;> simp [map]

theorem exists_apply {f : Checked (α → β)} {x : Checked α} {P : β → Prop} :
    (∃ b, f.apply x = .ok b ∧ P b) ↔ ∃ g, f = .ok g ∧ ∃ a, x = .ok a ∧ P (g a) := by
  cases f <;> cases x <;> simp [apply]

end Checked

/-! ## Members -/

namespace Value

/-- Whether the value is null. -/
def isNull : Value → Bool
  | .null => true
  | _ => false

theorem isNull_eq_false_iff {v : Value} : v.isNull = false ↔ v ≠ .null := by
  cases v <;> simp [isNull]

end Value

namespace Entries

/-- What is found under a name; null if there is nothing. -/
def found (name : String) (members : List (String × Value)) : Value := (get? name members).getD .null

/-- The members that are not null. -/
def written (members : List (String × Value)) : List (String × Value) :=
  members.filter fun member => !member.2.isNull

theorem objectOfSome_eq (members : List (String × Value)) :
    Value.objectOfSome members = .object (written members) := by
  refine congrArg Value.object (List.filter_congr fun member _ => ?_)
  obtain ⟨name, v⟩ := member
  cases v <;> rfl

theorem written_append (members others : List (String × Value)) :
    written (members ++ others) = written members ++ written others :=
  List.filter_append members others

/-- Nothing more is left out the second time. -/
theorem written_written (members : List (String × Value)) : written (written members) = written members := by
  rw [written, written, List.filter_filter]
  exact List.filter_congr fun member _ => Bool.and_self _

theorem mem_written_iff {members : List (String × Value)} {member : String × Value} :
    member ∈ written members ↔ member ∈ members ∧ member.2 ≠ .null := by
  simp [written, Value.isNull_eq_false_iff]

/-- What is null at best is not found. -/
theorem get?_written_eq_none {members : List (String × Value)} {name : String}
    (h : ∀ w, (name, w) ∈ members → w = .null) : get? name (written members) = none := by
  cases hget : get? name (written members) with
  | none => rfl
  | some w =>
    obtain ⟨hmem, hne⟩ := mem_written_iff.mp (mem_of_get? hget)
    exact absurd (h w hmem) hne

/-- If there is one value under a name, it is found again, but for the difference between null and
nothing. -/
theorem found_written {members : List (String × Value)} {name : String} {v : Value}
    (h : ∀ w, (name, w) ∈ members ↔ w = v) : found name (written members) = v := by
  rw [found]
  cases hget : get? name (written members) with
  | some w => exact (h w).mp (mem_written_iff.mp (mem_of_get? hget)).1
  | none =>
    by_cases hnull : v = .null
    · exact hnull.symm
    have hmem : (name, v) ∈ written members := mem_written_iff.mpr ⟨(h v).mpr rfl, hnull⟩
    exact absurd (List.mem_map_of_mem hmem) (get?_eq_none_iff.mp hget)

/-- What is found and not null is there. -/
theorem get?_of_found {members : List (String × Value)} {name : String} {v : Value}
    (h : found name members = v) (hv : v ≠ .null) : get? name members = some v := by
  rw [found] at h
  cases hget : get? name members with
  | some w => rw [← h, hget, Option.getD_some]
  | none =>
    rw [hget, Option.getD_none] at h
    exact absurd h.symm hv

end Entries

/-! ## Fields -/

section Fields

variable {members : List (String × Value)} {name : String} {others : List String} {v : Value}
  {read : Value → Checked α}

theorem firstPresent?_of_get? (h : Entries.get? name members = some v) :
    firstPresent? (name :: others) members = some (name, v) := by
  simp [firstPresent?, h]

theorem firstPresent?_eq_none {names : List String}
    (h : ∀ other ∈ names, Entries.get? other members = none) : firstPresent? names members = none := by
  refine List.findSome?_eq_none_iff.mpr fun other hmem => ?_
  rw [h other hmem]
  rfl

/-- A field that must be there is read from what is found under its first name. -/
theorem required_of_found (h : Entries.found name members = v) (hv : v ≠ .null) :
    required (name :: others) read members = (read v).under (.field name) := by
  rw [required, firstPresent?_of_get? (Entries.get?_of_found h hv)]

/-- A field that must be there and is not. -/
theorem required_ne_ok {names : List String} (h : ∀ other ∈ names, Entries.get? other members = none)
    (a : α) : required names read members ≠ .ok a := by
  rw [required, firstPresent?_eq_none h]
  simp [Checked.fail, Checked.under]

theorem optional_eq_under {absent : α} (h : Entries.found name members = v)
    (hv : v ≠ .null) :
    optional (name :: others) absent read members = (read v).under (.field name) := by
  rw [optional, firstPresent?_of_get? (Entries.get?_of_found h hv)]

/-- A field that may be missing can be read if null is read as its absence. -/
theorem optional_of_found {absent a : α} (h : Entries.found name members = v)
    (hothers : ∀ other ∈ others, Entries.get? other members = none) (hread : read v = .ok a)
    (habsent : v = .null → a = absent) : optional (name :: others) absent read members = .ok a := by
  rw [Entries.found] at h
  cases hget : Entries.get? name members with
  | some w =>
    rw [hget, Option.getD_some] at h
    rw [optional, firstPresent?_of_get? hget, h]
    dsimp only
    rw [hread, Checked.under_ok]
  | none =>
    rw [hget, Option.getD_none] at h
    have hnone := firstPresent?_eq_none (List.forall_mem_cons.mpr ⟨hget, hothers⟩)
    rw [optional, hnone, habsent h.symm]

/-- A field that may be null is read as what it was written from, but for what reading makes of it. -/
theorem nullable_map_of_found {write : β → Value} {o : Option β} {g : β → α}
    (h : Entries.found name members = .ofOption write o)
    (hothers : ∀ other ∈ others, Entries.get? other members = none)
    (hread : ∀ b ∈ o, read (write b) = .ok (g b)) (hnull : ∀ b ∈ o, write b ≠ .null) :
    nullable (name :: others) read members = .ok (o.map g) := by
  cases o with
  | none => exact optional_of_found h hothers rfl fun _ => rfl
  | some b =>
    have hsome : readNullable read (write b) = some <$> read (write b) := by
      rw [readNullable]
      exact hnull b rfl
    refine optional_of_found h hothers ?_ fun heq => absurd heq (hnull b rfl)
    rw [Value.ofOption, hsome, hread b rfl, Checked.map_eq, Checked.map_ok, Option.map_some]

/-- A field that may be null is read back as it was written. -/
theorem nullable_of_found {write : α → Value} {o : Option α}
    (h : Entries.found name members = .ofOption write o)
    (hothers : ∀ other ∈ others, Entries.get? other members = none)
    (hread : ∀ a ∈ o, read (write a) = .ok a) (hnull : ∀ a ∈ o, write a ≠ .null) :
    nullable (name :: others) read members = .ok o :=
  (nullable_map_of_found (g := id) h hothers hread hnull).trans (by rw [Option.map_id_fun, id])

/-- A text that may be null is read back as it was written. -/
theorem nullable_text_of_found {o : Option String}
    (h : Entries.found name members = .ofOption .text o)
    (hothers : ∀ other ∈ others, Entries.get? other members = none) :
    nullable (name :: others) readText members = .ok o :=
  nullable_of_found h hothers (fun _ _ => rfl) (by simp)

theorem ok_of_required {names : List String} {a : α} (h : required names read members = .ok a) :
    ∃ w, read w = .ok a := by
  rw [required] at h
  split at h
  · exact ⟨_, Checked.under_eq_ok_iff.mp h⟩
  · cases Checked.under_eq_ok_iff.mp h

/-- What a field has that may be missing was read, or stands for its absence. -/
theorem ok_of_optional {names : List String} {absent a : α}
    (h : optional names absent read members = .ok a) : a = absent ∨ ∃ w, read w = .ok a := by
  rw [optional] at h
  split at h
  · exact .inr ⟨_, Checked.under_eq_ok_iff.mp h⟩
  · cases h
    exact .inl rfl

theorem ok_of_readNullable {a : α} (h : readNullable read v = .ok (some a)) :
    v ≠ .null ∧ read v = .ok a := by
  unfold readNullable at h
  split at h
  · cases h
  · next hv =>
    obtain ⟨b, hb, heq⟩ := Checked.map_eq_ok_iff.mp h
    exact ⟨hv, hb.trans (congrArg Checked.ok (Option.some.inj heq))⟩

/-- A part that is there was read. -/
theorem ok_of_nullable {names : List String} {a : α} (h : nullable names read members = .ok (some a)) :
    ∃ w, w ≠ .null ∧ read w = .ok a := by
  rcases ok_of_optional h with habsent | ⟨w, hw⟩
  · cases habsent
  · exact ⟨w, ok_of_readNullable hw⟩

end Fields

/-! ## Lists and objects of parts -/

section Parts

variable {read : Value → Checked α} {write : α → Value}

/-- A list of parts that were written one by one can be read so. -/
theorem readList_map {parts : List α} (h : ∀ a ∈ parts, read (write a) = .ok a) :
    readList read (.list (parts.map write)) = .ok parts := Checked.mapIdx_map h 0

/-- A list that can be read has parts that can. -/
theorem ok_of_readList {items : List Value} {parts : List α} (h : readList read (.list items) = .ok parts) :
    ∀ v ∈ items, ∃ a, read v = .ok a := Checked.ok_of_mapIdx h

theorem readEntries_map {entries : List (String × α)}
    (h : ∀ entry ∈ entries, read (write entry.2) = .ok entry.2) :
    readEntries read (entries.map fun entry => (entry.1, write entry.2)) = .ok entries := by
  induction entries with
  | nil => rfl
  | cons entry rest ih =>
    have hfirst := h entry (List.mem_cons_self ..)
    have hrest := ih fun other hmem => h other (List.mem_cons_of_mem _ hmem)
    simp [readEntries, hfirst, hrest]

/-- An object of parts that were written one by one can be read so. -/
theorem readObject_map {m : OrderedMap α} (h : ∀ entry ∈ m.entries, read (write entry.2) = .ok entry.2) :
    readObject read (.object (m.map fun _ a => write a).entries) = .ok m := by
  have hentries : readEntries read (m.map fun _ a => write a).entries = .ok m.entries :=
    readEntries_map h
  rw [readObject, hentries, Checked.map_eq, Checked.map_ok, OrderedMap.ofList_entries]

/-- Values are read back whatever they are. -/
theorem readList_readAny (values : List Value) : readList readAny (.list values) = .ok values := by
  have h : readList readAny (.list (values.map id)) = .ok values := readList_map fun _ _ => rfl
  rwa [List.map_id] at h

theorem readObject_readAny (m : OrderedMap Value) : readObject readAny (.object m.entries) = .ok m := by
  have h : readObject readAny (.object (m.map fun _ v => id v).entries) = .ok m :=
    readObject_map fun _ _ => rfl
  have hmap : (m.map fun _ v => id v).entries = m.entries := List.map_id _
  rwa [hmap] at h

/-- Every member was read, and every entry comes from a member. -/
theorem ok_of_readEntries {members : List (String × Value)} {entries : List (String × α)}
    (h : readEntries read members = .ok entries) :
    (∀ member ∈ members, ∃ a, read member.2 = .ok a) ∧
      ∀ entry ∈ entries, ∃ v, read v = .ok entry.2 := by
  induction members generalizing entries with
  | nil =>
    cases h
    simp
  | cons member rest ih =>
    obtain ⟨name, v⟩ := member
    simp only [readEntries, Checked.map_eq, Checked.seq_eq, Checked.apply_eq_ok_iff,
      Checked.map_eq_ok_iff, Checked.under_eq_ok_iff] at h
    obtain ⟨_, others, ⟨a, hfirst, rfl⟩, hrest, rfl⟩ := h
    obtain ⟨hmembers, hentries⟩ := ih hrest
    exact ⟨List.forall_mem_cons.mpr ⟨⟨a, hfirst⟩, hmembers⟩,
      List.forall_mem_cons.mpr ⟨⟨v, hfirst⟩, hentries⟩⟩

/-- An object that can be read has members that can. -/
theorem ok_of_readObject {members : List (String × Value)} {m : OrderedMap α}
    (h : readObject read (.object members) = .ok m) : ∀ member ∈ members, ∃ a, read member.2 = .ok a := by
  obtain ⟨entries, hentries, -⟩ := Checked.map_eq_ok_iff.mp h
  exact (ok_of_readEntries hentries).1

/-- All that an object is read as was read. -/
theorem read_of_mem_readObject {v : Value} {m : OrderedMap α} (h : readObject read v = .ok m) :
    ∀ entry ∈ m.entries, ∃ w, read w = .ok entry.2 := by
  cases v
  case object members =>
    obtain ⟨entries, hentries, rfl⟩ := Checked.map_eq_ok_iff.mp h
    intro entry hmem
    obtain ⟨other, hother, heq⟩ := OrderedMap.mem_of_mem_ofList hmem
    exact heq ▸ (ok_of_readEntries hentries).2 other hother
  all_goals cases h

end Parts

end SchemaForm
