import SchemaForm.Json.Parser
import SchemaForm.Proofs.Html.Paragraphs
import SchemaForm.Proofs.Number.Readers
import SchemaForm.Proofs.OrderedMap
import Mathlib.Data.List.Induction

/-!
# What the limits of a reader are good for

A text with a whole number of more than `maxDigits` digits is not read. So every value that was read can be
displayed, as deep as it may be.

* `ofDigits_lt` — digits write a number with no more of them;
* `Value.short_int_iff`, `Value.shortItems_iff`, `Value.shortMembers_iff` — what can be displayed;
* `short_of_parse` — a value that was read.
-/

namespace SchemaForm

open SchemaForm.Text (isAsciiDigit)

/-! ## Digits -/

/-- Digits write a number with no more of them. -/
theorem ofDigits_lt {text : List Char} (h : ∀ c ∈ text, isAsciiDigit c = true) :
    ofDigits text < 10 ^ text.length := by
  induction text using List.reverseRecOn with
  | nil => exact Nat.one_pos
  | append_singleton text c ih =>
    have hfront := ih fun d hmem => h d (List.mem_append_left _ hmem)
    have hlast : c.toNat - '0'.toNat ≤ 9 := by
      have hdigit := h c (List.mem_append_right _ (List.mem_singleton_self c))
      simp only [isAsciiDigit, Bool.and_eq_true, decide_eq_true_eq] at hdigit
      have hzero : '0'.toNat = 0x30 := rfl
      omega
    have happend : ofDigits (text ++ [c]) = 10 * ofDigits text + (c.toNat - '0'.toNat) := by
      rw [ofDigits, Nat.ofDigitChars_append]
      rfl
    rw [happend, List.length_append, List.length_singleton, Nat.pow_succ]
    omega

namespace Value

/-! ## Values that can be displayed -/

theorem short_int_iff {n : Int} : (Value.int n).Short ↔ n.natAbs < 10 ^ maxDigits := by
  rw [Short]
  exact Nat.length_toDigits_le_iff (by decide) (by decide)

/-- A whole number that was written by few digits can be displayed. -/
theorem short_int_of_digits {n : Int} {digits : List Char} (hdigits : ∀ c ∈ digits, isAsciiDigit c = true)
    (hshort : digits.length ≤ maxDigits) (hn : n.natAbs = ofDigits digits) : (Value.int n).Short := by
  rw [short_int_iff, hn]
  exact lt_of_lt_of_le (ofDigits_lt hdigits) (Nat.pow_le_pow_right (by decide) hshort)

theorem shortItems_iff {items : List Value} : ShortItems items ↔ ∀ v ∈ items, v.Short := by
  induction items with
  | nil => simp [ShortItems]
  | cons v rest ih => rw [ShortItems, ih, List.forall_mem_cons]

theorem shortMembers_iff {members : List (String × Value)} :
    ShortMembers members ↔ ∀ member ∈ members, member.2.Short := by
  induction members with
  | nil => simp [ShortMembers]
  | cons member rest ih => rw [ShortMembers, ih, List.forall_mem_cons]

/-- The last of the members of one name counts. -/
theorem shortMembers_foldl_set {members all : List (String × Value)} (hall : ShortMembers all)
    (hmembers : ShortMembers members) :
    ShortMembers (members.foldl (fun all member => Entries.set member.1 member.2 all) all) := by
  induction members generalizing all with
  | nil => exact hall
  | cons member rest ih =>
    rw [shortMembers_iff, List.forall_mem_cons, ← shortMembers_iff] at hmembers
    refine ih (shortMembers_iff.mpr fun other hmem => ?_) hmembers.2
    rcases Entries.mem_of_mem_set hmem with hnew | hold
    · rw [hnew]
      exact hmembers.1
    · exact shortMembers_iff.mp hall other hold

end Value

namespace Json

open Value

/-! ## Atoms -/

theorem isAsciiDigit_of_mem_takeWhole {text : List Char} {c : Char} (h : c ∈ (takeWhole text).1) :
    isAsciiDigit c = true := by
  unfold takeWhole at h
  split at h
  · rw [List.mem_singleton.mp h]
    rfl
  · exact isAsciiDigit_of_mem_takeWhile h

/-- A number that is read can be displayed: its digits were counted. -/
theorem short_of_parseNumber {text rest : List Char} {v : Value}
    (h : parseNumber text = .ok (v, rest)) : v.Short := by
  unfold parseNumber at h
  dsimp only at h
  -- with a sign and without one
  split at h
  all_goals
    split at h
    · cases h
    split at h
    · split at h
      · cases h
      · next hlong =>
        cases h
        refine short_int_of_digits (fun c hmem => isAsciiDigit_of_mem_takeWhole hmem) (not_lt.mp hlong) ?_
        simp
    · split at h
      · cases h
        simp [Short]
      · cases h

theorem short_of_parseAtom {text rest : List Char} {v : Value}
    (h : parseAtom text = .ok (v, rest)) : v.Short := by
  have hwords : ∀ word ∈ words, word.2.Short := by simp [words, Short]
  unfold parseAtom at h
  split at h
  · next result hfound =>
    cases h
    obtain ⟨word, hmem, hword⟩ := List.exists_of_findSome?_eq_some hfound
    obtain ⟨left, -, heq⟩ := Option.map_eq_some_iff.mp hword
    cases heq
    exact hwords word hmem
  · exact short_of_parseNumber h

/-! ## Values -/

/-- With so many calls inside each other, nothing is read that cannot be displayed. -/
structure ReadsShort (bound : Nat) : Prop where
  value : ∀ {depth text v rest}, parseValue bound depth text = .ok (v, rest) → v.Short
  items : ∀ {depth text found rest}, parseItems bound depth text = .ok (found, rest) → ShortItems found
  members : ∀ {depth text found rest}, parseMembers bound depth text = .ok (found, rest) → ShortMembers found

theorem readsShort_zero : ReadsShort 0 where
  value h := by
    rw [parseValue] at h
    cases h
  items h := by
    rw [parseItems] at h
    cases h
  members h := by
    rw [parseMembers] at h
    cases h

namespace ReadsShort

variable {bound depth : Nat} {text rest : List Char} (hbound : ReadsShort bound)
include hbound

/-- A value, by its first character. -/
theorem value_succ {v : Value} (h : parseValue (bound + 1) depth text = .ok (v, rest)) : v.Short := by
  unfold parseValue at h
  split at h
  · obtain ⟨⟨s, left⟩, -, h⟩ := exists_of_bind_ok h
    cases h
    simp [Short]
  · cases h
  · cases h
  · dsimp only at h
    split at h
    · cases h
      simp [Short, ShortItems]
    · obtain ⟨⟨items, left⟩, hitems, h⟩ := exists_of_bind_ok h
      cases h
      rw [Short]
      exact hbound.items hitems
  · dsimp only at h
    split at h
    · cases h
      simp [Short, ShortMembers]
    · obtain ⟨⟨members, left⟩, hmembers, h⟩ := exists_of_bind_ok h
      cases h
      rw [Short]
      exact shortMembers_foldl_set (by simp [ShortMembers]) (hbound.members hmembers)
  · exact short_of_parseAtom h

/-- The parts of a list up to its end. -/
theorem items_succ {found : List Value} (h : parseItems (bound + 1) depth text = .ok (found, rest)) :
    ShortItems found := by
  rw [parseItems] at h
  obtain ⟨⟨item, left⟩, hitem, h⟩ := exists_of_bind_ok h
  dsimp only at h
  split at h
  · cases h
    rw [ShortItems]
    exact ⟨hbound.value hitem, by simp [ShortItems]⟩
  · obtain ⟨⟨others, left⟩, hothers, h⟩ := exists_of_bind_ok h
    cases h
    rw [ShortItems]
    exact ⟨hbound.value hitem, hbound.items hothers⟩
  · cases h

/-- The members of an object up to its end; the last one of a name counts. -/
theorem members_succ {found : List (String × Value)}
    (h : parseMembers (bound + 1) depth text = .ok (found, rest)) : ShortMembers found := by
  rw [parseMembers] at h
  obtain ⟨⟨name, left⟩, -, h⟩ := exists_of_bind_ok h
  obtain ⟨⟨value, left⟩, hvalue, h⟩ := exists_of_bind_ok h
  dsimp only at h
  split at h
  · cases h
    rw [ShortMembers]
    exact ⟨hbound.value hvalue, by simp [ShortMembers]⟩
  · obtain ⟨⟨others, left⟩, hothers, h⟩ := exists_of_bind_ok h
    cases h
    rw [ShortMembers]
    exact ⟨hbound.value hvalue, hbound.members hothers⟩
  · cases h

end ReadsShort

/-- By induction on the bound. -/
theorem readsShort (bound : Nat) : ReadsShort bound := by
  induction bound with
  | zero => exact readsShort_zero
  | succ bound ih => exact ⟨ih.value_succ, ih.items_succ, ih.members_succ⟩

theorem short_of_parseText {text : List Char} {v : Value} (h : parseText text = .ok v) : v.Short := by
  unfold parseText at h
  split at h
  · cases h
  · obtain ⟨⟨value, rest⟩, hvalue, h⟩ := exists_of_bind_ok h
    dsimp only at h
    split at h
    · cases h
      exact (readsShort _).value hvalue
    · cases h

/-- Whatever is read of a text can be displayed. -/
theorem short_of_parse {text : String} {v : Value} (h : parse text = .ok v) : v.Short := by
  unfold parse at h
  cases hread : parseText text.toList with
  | error fault =>
    rw [hread] at h
    cases h
  | ok value =>
    rw [hread] at h
    cases h
    exact short_of_parseText hread

end Json

end SchemaForm
