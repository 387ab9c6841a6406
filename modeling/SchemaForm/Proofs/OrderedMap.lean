import SchemaForm.OrderedMap

/-!
# Entries of ordered maps

A name occurs once in a map, so that its entry and what is looked up under it are the same thing. The map
of a list has the entries of the list; if no name occurs there twice, it has them all.
-/

namespace SchemaForm

variable {α β : Type}

theorem Entries.mem_of_get? {name : String} {value : α} {entries : List (String × α)}
    (h : get? name entries = some value) : (name, value) ∈ entries := by
  induction entries with
  | nil => exact absurd h (by simp)
  | cons entry rest ih =>
    obtain ⟨key, old⟩ := entry
    rw [get?_cons] at h
    by_cases hk : key = name
    · rw [if_pos hk, Option.some.injEq] at h
      rw [hk, h]
      exact List.mem_cons_self ..
    · rw [if_neg hk] at h
      exact List.mem_cons_of_mem _ (ih h)

theorem Entries.get?_of_mem {name : String} {value : α} {entries : List (String × α)}
    (hnodup : (keys entries).Nodup) (h : (name, value) ∈ entries) :
    get? name entries = some value := by
  induction entries with
  | nil => exact absurd h List.not_mem_nil
  | cons entry rest ih =>
    obtain ⟨key, old⟩ := entry
    rw [keys_cons, List.nodup_cons] at hnodup
    rw [get?_cons]
    rcases List.mem_cons.mp h with heq | hrest
    · obtain ⟨rfl, rfl⟩ := Prod.mk.inj heq
      exact if_pos rfl
    · have hmem : name ∈ keys rest := List.mem_map_of_mem hrest
      have hne : key ≠ name := fun heq => hnodup.1 (heq ▸ hmem)
      rw [if_neg hne]
      exact ih hnodup.2 hrest

/-- What is looked up under a name is the value of its entry. -/
theorem OrderedMap.get?_eq_some_iff {m : OrderedMap α} {name : String} {value : α} :
    m.get? name = some value ↔ (name, value) ∈ m.entries :=
  ⟨Entries.mem_of_get?, Entries.get?_of_mem m.nodup⟩

theorem Entries.ext_get? {entries others : List (String × α)} (hnodup : (keys entries).Nodup)
    (hkeys : keys entries = keys others) (h : ∀ name, get? name entries = get? name others) :
    entries = others := by
  induction entries generalizing others with
  | nil => exact (List.map_eq_nil_iff.mp hkeys.symm).symm
  | cons entry rest ih =>
    obtain ⟨key, value⟩ := entry
    match others, hkeys with
    | (otherKey, other) :: others, hkeys =>
      rw [keys_cons, List.nodup_cons] at hnodup
      obtain ⟨rfl, hrest⟩ := List.cons.inj hkeys
      change keys rest = keys others at hrest
      have hvalue : some value = some other := by
        simpa [get?_cons] using h key
      rw [Option.some.inj hvalue]
      refine congrArg _ (ih hnodup.2 hrest fun name => ?_)
      -- the first name does not occur in what follows it
      by_cases hname : key = name
      · rw [← hname, get?_eq_none_iff.mpr hnodup.1, eq_comm, get?_eq_none_iff, ← hrest]
        exact hnodup.1
      · simpa [get?_cons, hname] using h name

/-- A map is its names in their order, and what is found under them. -/
theorem OrderedMap.ext_get? {m n : OrderedMap α} (hkeys : m.keys = n.keys)
    (h : ∀ name, m.get? name = n.get? name) : m = n :=
  OrderedMap.ext (Entries.ext_get? m.nodup hkeys h)

/-- A map is empty if nothing is found under any name. -/
theorem OrderedMap.isEmpty_iff {m : OrderedMap α} :
    m.isEmpty = true ↔ ∀ name, m.get? name = none := by
  obtain ⟨entries, hnodup⟩ := m
  cases entries with
  | nil => exact ⟨fun _ _ => rfl, fun _ => rfl⟩
  | cons entry rest =>
    refine ⟨fun h => absurd h Bool.false_ne_true, fun h => ?_⟩
    have hfound : Entries.get? entry.1 (entry :: rest) = some entry.2 := if_pos rfl
    exact absurd (hfound.symm.trans (h entry.1)) (Option.some_ne_none _)

theorem OrderedMap.isEmpty_map (f : String → α → β) (m : OrderedMap α) :
    (m.map f).isEmpty = m.isEmpty := by
  obtain ⟨entries, hnodup⟩ := m
  cases entries <;> rfl

theorem Entries.length_set_le (name : String) (value : α) (entries : List (String × α)) :
    (set name value entries).length ≤ entries.length + 1 := by
  induction entries with
  | nil => exact Nat.le_refl 1
  | cons entry rest ih =>
    rw [set]
    split
    · exact Nat.le_succ _
    · exact Nat.succ_le_succ ih

/-- A name more or less changes the number of names by one at most. -/
theorem OrderedMap.size_insert_le (m : OrderedMap α) (name : String) (value : α) :
    (m.insert name value).size ≤ m.size + 1 :=
  Entries.length_set_le name value m.entries

theorem OrderedMap.size_erase_lt {m : OrderedMap α} {name : String} {value : α}
    (h : m.get? name = some value) : (m.erase name).size < m.size := by
  refine List.length_filter_lt_length_iff_exists.mpr ⟨(name, value), Entries.mem_of_get? h, ?_⟩
  simp

/-! ## Maps of lists -/

namespace Entries

theorem get?_append (name : String) (entries others : List (String × α)) :
    get? name (entries ++ others) = (get? name entries).or (get? name others) := by
  induction entries with
  | nil => rfl
  | cons entry rest ih =>
    rw [List.cons_append, get?_cons, get?_cons, ih]
    split <;> rfl

theorem set_of_not_mem {name : String} {value : α} {entries : List (String × α)}
    (h : name ∉ keys entries) : set name value entries = entries ++ [(name, value)] := by
  induction entries with
  | nil => rfl
  | cons entry rest ih =>
    obtain ⟨key, old⟩ := entry
    simp only [keys_cons, List.mem_cons, not_or] at h
    rw [set, if_neg (Ne.symm h.1), ih h.2, List.cons_append]

theorem mem_of_mem_set {name : String} {value : α} {entries : List (String × α)} {entry : String × α}
    (h : entry ∈ set name value entries) : entry.2 = value ∨ entry ∈ entries := by
  induction entries with
  | nil =>
    rw [set, List.mem_singleton] at h
    exact .inl (congrArg Prod.snd h)
  | cons first rest ih =>
    obtain ⟨key, old⟩ := first
    rw [set] at h
    split at h
    · rcases List.mem_cons.mp h with rfl | hrest
      · exact .inl rfl
      · exact .inr (List.mem_cons_of_mem _ hrest)
    · rcases List.mem_cons.mp h with rfl | hrest
      · exact .inr (List.mem_cons_self ..)
      · exact (ih hrest).imp_right (List.mem_cons_of_mem _)

end Entries

namespace OrderedMap

theorem entries_foldl_insert {entries : List (String × α)} {m : OrderedMap α}
    (h : (Entries.keys (m.entries ++ entries)).Nodup) :
    (entries.foldl (fun m entry => m.insert entry.1 entry.2) m).entries = m.entries ++ entries := by
  induction entries generalizing m with
  | nil => exact (List.append_nil _).symm
  | cons entry rest ih =>
    have hnew : entry.1 ∉ Entries.keys m.entries := by
      rw [Entries.keys, List.map_append, List.nodup_append] at h
      exact fun hmem => h.2.2 _ hmem _ (List.mem_cons_self ..) rfl
    have hinsert : (m.insert entry.1 entry.2).entries = m.entries ++ [entry] :=
      Entries.set_of_not_mem hnew
    rw [List.foldl_cons, ih (by rwa [hinsert, List.append_assoc]), hinsert, List.append_assoc]
    rfl

/-- A map is the map of its entries. -/
theorem ofList_entries (m : OrderedMap α) : ofList m.entries = m :=
  OrderedMap.ext (entries_foldl_insert (m := empty) m.nodup)

/-- A map that gives the same value to all names of a list. -/
theorem get?_ofList_map (value : α) (names : List String) (name : String) :
    (ofList (names.map (·, value))).get? name = if name ∈ names then some value else none := by
  have hfold : ∀ (rest : List String) (m : OrderedMap α),
      ((rest.map (·, value)).foldl (fun m entry => m.insert entry.1 entry.2) m).get? name =
        if name ∈ rest then some value else m.get? name := by
    intro rest
    induction rest with
    | nil => exact fun m => (if_neg List.not_mem_nil).symm
    | cons first rest ih =>
      intro m
      rw [List.map_cons, List.foldl_cons, ih, get?_insert]
      by_cases hfirst : name = first
      · simp [hfirst]
      · simp [hfirst]
  exact hfold names empty

/-- All values of the map of a list are from the list. -/
theorem mem_of_mem_ofList {entries : List (String × α)} {entry : String × α}
    (h : entry ∈ (ofList entries).entries) : ∃ other ∈ entries, other.2 = entry.2 := by
  have hfold : ∀ (rest : List (String × α)) (m : OrderedMap α),
      entry ∈ (rest.foldl (fun m entry => m.insert entry.1 entry.2) m).entries →
        entry ∈ m.entries ∨ ∃ other ∈ rest, other.2 = entry.2 := by
    intro rest
    induction rest with
    | nil => exact fun m hm => .inl hm
    | cons first rest ih =>
      intro m hm
      rcases ih _ hm with hinsert | ⟨other, hmem, heq⟩
      · rcases Entries.mem_of_mem_set hinsert with hvalue | hold
        · exact .inr ⟨first, List.mem_cons_self .., hvalue.symm⟩
        · exact .inl hold
      · exact .inr ⟨other, List.mem_cons_of_mem _ hmem, heq⟩
  exact (hfold entries empty h).resolve_left List.not_mem_nil

end OrderedMap

end SchemaForm
