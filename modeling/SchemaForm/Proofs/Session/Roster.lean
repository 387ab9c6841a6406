import SchemaForm.Session.Perform
import SchemaForm.Proofs.OrderedMap
import Mathlib.Data.List.Nodup

/-!
# The account of subscriptions

The list `_listeners` has no subscriptions in it, only listeners, and what `subscribe` returns removes the first
equal one. Those who have made a subscription think of it in another way: it is theirs, and lasts until they
end it themselves. This module keeps the account of subscriptions in the second way.

* `Subscription`, `Roster` — the subscriptions of a session, each with a number of its own;
* `Roster.after`, `Roster.of` — the account after a command, and after several;
* `Roster.Consistent` — numbers stand for subscriptions and for listeners;
* `Roster.EndsOwn` — the subscriptions of which the first one with the same listener may be taken away;
  `Roster.eraseP_listeners_eq_iff` says that these are just the right ones;
* `Audience` — the listeners of a session, as the session knows them;
* `Enrolled.listeners_throughout_iff` — exactly when the two have the same listeners all the time;
* `Roster.Distinct` — no listener was added twice; then they always have.
-/

namespace SchemaForm.Session

/-! ## The first of a kind -/

section

variable {α β : Type} {f : α → β} {p : α → Bool} {a : α} {front : List α}

/-- Moving something to the front changes nothing if all that was before it looks the same. -/
theorem map_append_cons_eq_iff (back : List α) :
    (front ++ a :: back).map f = f a :: (front ++ back).map f ↔ ∀ b ∈ front, f b = f a := by
  induction front with
  | nil => simp
  | cons b front ih =>
    rw [List.cons_append, List.cons_append, List.map_cons, List.map_cons, List.cons.injEq,
      List.forall_mem_cons]
    refine and_congr_right fun hb => ?_
    rw [hb, ih]

/-- What is taken away is the first of its kind. That makes no difference if those of its kind come right
before it. -/
theorem map_eraseP_eq_iff (ha : p a = true) (hp : ∀ b ∈ front, p b = true ↔ f b = f a) (back : List α) :
    ((front ++ a :: back).eraseP p).map f = (front ++ back).map f ↔
      ∃ others again, front = others ++ again ∧ (∀ b ∈ others, ¬ p b = true) ∧
        ∀ b ∈ again, p b = true := by
  induction front with
  | nil =>
    rw [List.nil_append, List.eraseP_cons_of_pos ha]
    exact iff_of_true rfl ⟨[], [], rfl, List.forall_mem_nil _, List.forall_mem_nil _⟩
  | cons b front ih =>
    obtain ⟨hb, hfront⟩ := List.forall_mem_cons.mp hp
    cases hkind : p b with
    -- what comes first is taken away, so that everything before `a` must look alike
    | true =>
      rw [List.cons_append, List.eraseP_cons_of_pos hkind, List.cons_append, List.map_cons, hb.mp hkind,
        map_append_cons_eq_iff]
      constructor
      · intro hsame
        refine ⟨[], b :: front, rfl, List.forall_mem_nil _, ?_⟩
        exact List.forall_mem_cons.mpr ⟨hkind, fun c hc => (hfront c hc).mpr (hsame c hc)⟩
      · rintro ⟨others, again, hsplit, hothers, hagain⟩ c hc
        cases others with
        | nil =>
          rw [List.nil_append] at hsplit
          exact (hfront c hc).mp (hagain c (hsplit ▸ List.mem_cons_of_mem b hc))
        | cons first others =>
          obtain ⟨rfl, -⟩ := List.cons.inj hsplit
          exact absurd hkind (hothers b (List.mem_cons_self ..))
    -- what comes first stays: it is one of the others
    | false =>
      have hnot : ¬ p b = true := by simp [hkind]
      rw [List.cons_append, List.eraseP_cons_of_neg hnot, List.cons_append, List.map_cons, List.map_cons,
        List.cons.injEq, and_iff_right rfl, ih hfront]
      constructor
      · rintro ⟨others, again, rfl, hothers, hagain⟩
        exact ⟨b :: others, again, rfl, List.forall_mem_cons.mpr ⟨hnot, hothers⟩, hagain⟩
      · rintro ⟨others, again, hsplit, hothers, hagain⟩
        cases others with
        | nil =>
          rw [List.nil_append] at hsplit
          exact absurd (hagain b (hsplit ▸ List.mem_cons_self ..)) hnot
        | cons first others =>
          obtain ⟨-, rfl⟩ := List.cons.inj hsplit
          exact ⟨others, again, rfl, (List.forall_mem_cons.mp hothers).2, hagain⟩

end

/-! ## Subscriptions -/

/-- One coming of a listener, under a number that no other one has. -/
structure Subscription where
  number : Nat
  listener : Listener

/-- The subscriptions of a session. -/
structure Roster where
  /-- Those that have not been ended, in the order in which they were made. -/
  live : List Subscription := []
  /-- The subscription that was last made under a name. -/
  named : OrderedMap Subscription := ∅
  /-- How many there have been. -/
  count : Nat := 0
  /-- How many listeners there have been. -/
  listenerCount : Nat := 0

namespace Roster

variable {r : Roster} {made other ended : Subscription} {id : String} {listener : Listener}

/-- Makes a subscription for a listener. -/
def add (r : Roster) (id : String) (listener : Listener) : Roster :=
  { r with
    live := r.live ++ [⟨r.count, listener⟩]
    named := r.named.insert id ⟨r.count, listener⟩
    count := r.count + 1 }

/-- Ends this subscription and no other one. If it was ended before, nothing happens. -/
def finish (r : Roster) (ended : Subscription) : Roster :=
  { r with live := r.live.filter (·.number != ended.number) }

/-- The account after a command. -/
def after (r : Roster) : Command → Roster
  | .subscribe id reaction once =>
    { r.add id { number := r.listenerCount, id, reaction, once } with
      listenerCount := r.listenerCount + 1 }
  | .subscribeAgain id other =>
    match r.named.get? other with
    | some made => r.add id made.listener
    | none => r
  | .unsubscribe id =>
    match r.named.get? id with
    | some made => r.finish made
    | none => r
  | _ => r

/-- The account after several commands. -/
def of (commands : List Command) : Roster := commands.foldl after {}

/-- The listeners whose subscriptions have not been ended, once for each of these. -/
def listeners (r : Roster) : List Listener := r.live.map (·.listener)

/-! ## Numbers -/

/-- The subscription has not been ended, or it can be ended by a name. -/
def Knows (r : Roster) (made : Subscription) : Prop := made ∈ r.live ∨ ∃ id, r.named.get? id = some made

/-- Numbers stand for subscriptions and for listeners, and none of them has been used twice. -/
structure Consistent (r : Roster) : Prop where
  nodup : (r.live.map (·.number)).Nodup
  number_lt : ∀ {made}, r.Knows made → made.number < r.count
  listener_lt : ∀ {made}, r.Knows made → made.listener.number < r.listenerCount
  subscription : ∀ {made other}, r.Knows made → r.Knows other → made.number = other.number → made = other
  listener : ∀ {made other}, r.Knows made → r.Knows other →
    made.listener.number = other.listener.number → made.listener = other.listener

theorem knows_add (h : (r.add id listener).Knows made) : made = ⟨r.count, listener⟩ ∨ r.Knows made := by
  rcases h with hlive | ⟨name, hnamed⟩
  · rcases List.mem_append.mp hlive with hold | hnew
    · exact .inr (.inl hold)
    · exact .inl (List.mem_singleton.mp hnew)
  · have hget : (r.named.insert id ⟨r.count, listener⟩).get? name = some made := hnamed
    rw [OrderedMap.get?_insert] at hget
    split at hget
    · exact .inl (Option.some.inj hget).symm
    · exact .inr (.inr ⟨name, hget⟩)

theorem knows_finish (h : (r.finish ended).Knows made) : r.Knows made :=
  h.imp_left List.mem_of_mem_filter

namespace Consistent

theorem empty : Consistent {} := by
  have hnone : ∀ made, ¬ Knows {} made := by
    rintro made (hlive | ⟨id, hnamed⟩)
    · cases hlive
    · cases hnamed
  exact ⟨List.nodup_nil, fun h => absurd h (hnone _), fun h => absurd h (hnone _),
    fun h => absurd h (hnone _), fun h => absurd h (hnone _)⟩

/-- A listener is added that has a number of its own, or the one under which it is known. -/
theorem add (h : r.Consistent) (id : String) {listenerCount : Nat}
    (hcount : r.listenerCount ≤ listenerCount) (hlt : listener.number < listenerCount)
    (hsame : ∀ {made}, r.Knows made → made.listener.number = listener.number → made.listener = listener) :
    Consistent { r.add id listener with listenerCount } := by
  have hknows : ∀ {made}, Knows { r.add id listener with listenerCount } made →
      made = ⟨r.count, listener⟩ ∨ r.Knows made := fun hmade => knows_add hmade
  refine ⟨?_, fun hmade => ?_, fun hmade => ?_, fun hmade hother hnumber => ?_,
    fun hmade hother hnumber => ?_⟩
  · show ((r.live ++ [Subscription.mk r.count listener]).map (·.number)).Nodup
    rw [List.map_append, List.nodup_append]
    refine ⟨h.nodup, List.nodup_singleton _, fun number hnumber last hlast => ?_⟩
    obtain ⟨made, hmade, rfl⟩ := List.mem_map.mp hnumber
    rw [List.mem_singleton.mp hlast]
    exact Nat.ne_of_lt (h.number_lt (.inl hmade))
  · show _ < r.count + 1
    rcases hknows hmade with rfl | hold
    · exact Nat.lt_succ_self r.count
    · exact Nat.lt_succ_of_lt (h.number_lt hold)
  · rcases hknows hmade with rfl | hold
    · exact hlt
    · exact Nat.lt_of_lt_of_le (h.listener_lt hold) hcount
  · rcases hknows hmade with rfl | hmade <;> rcases hknows hother with rfl | hother
    · rfl
    · exact absurd hnumber.symm (Nat.ne_of_lt (h.number_lt hother))
    · exact absurd hnumber (Nat.ne_of_lt (h.number_lt hmade))
    · exact h.subscription hmade hother hnumber
  · rcases hknows hmade with rfl | hmade <;> rcases hknows hother with rfl | hother
    · rfl
    · exact (hsame hother hnumber.symm).symm
    · exact hsame hmade hnumber
    · exact h.listener hmade hother hnumber

theorem finish (h : r.Consistent) (ended : Subscription) : (r.finish ended).Consistent where
  nodup := h.nodup.sublist (List.filter_sublist.map _)
  number_lt hmade := h.number_lt (knows_finish hmade)
  listener_lt hmade := h.listener_lt (knows_finish hmade)
  subscription hmade hother := h.subscription (knows_finish hmade) (knows_finish hother)
  listener hmade hother := h.listener (knows_finish hmade) (knows_finish hother)

theorem after (h : r.Consistent) (command : Command) : (r.after command).Consistent := by
  cases command with
  | subscribe id reaction once =>
    refine h.add id (Nat.le_succ _) (Nat.lt_succ_self _) fun hmade hnumber => ?_
    exact absurd hnumber (Nat.ne_of_lt (h.listener_lt hmade))
  | subscribeAgain id other =>
    rw [Roster.after]
    split
    · next made hfound =>
      have hmade : r.Knows made := .inr ⟨other, hfound⟩
      exact h.add id (Nat.le_refl _) (h.listener_lt hmade) fun hother => h.listener hother hmade
    · exact h
  | unsubscribe id =>
    rw [Roster.after]
    split
    · exact h.finish _
    · exact h
  | _ => exact h

end Consistent

theorem consistent_foldl (h : r.Consistent) (commands : List Command) :
    (commands.foldl after r).Consistent := by
  induction commands generalizing r with
  | nil => exact h
  | cons command rest ih => exact ih (h.after command)

/-- The account of any commands. -/
theorem consistent_of (commands : List Command) : (of commands).Consistent :=
  consistent_foldl .empty commands

/-! ## Ending a subscription -/

/-- Whoever takes away the first subscription with the same listener takes away this one, or one that
cannot be told from it by the order: there is none with that listener, or this one is there, and right
before it, if at all, are others with that listener. -/
def EndsOwn (r : Roster) (ended : Subscription) : Prop :=
  (∀ made ∈ r.live, made.listener.number ≠ ended.listener.number) ∨
    ∃ others again back, r.live = others ++ again ++ ended :: back ∧
      (∀ made ∈ others, made.listener.number ≠ ended.listener.number) ∧
      ∀ made ∈ again, made.listener.number = ended.listener.number

/-- The others have other numbers. -/
theorem Consistent.number_ne_of_append (h : r.Consistent) {front back : List Subscription}
    (hlive : r.live = front ++ ended :: back) : ∀ made ∈ front ++ back, made.number ≠ ended.number := by
  have hnodup := h.nodup
  rw [hlive, List.map_append, List.map_cons, List.nodup_middle, List.nodup_cons, ← List.map_append] at hnodup
  intro made hmade hnumber
  exact hnodup.1 (hnumber ▸ List.mem_map_of_mem hmade)

theorem finish_live_of_append (h : r.Consistent) {front back : List Subscription}
    (hlive : r.live = front ++ ended :: back) : (r.finish ended).live = front ++ back := by
  have hothers : ∀ made ∈ front ++ back, (made.number != ended.number) = true :=
    fun made hmade => bne_iff_ne.mpr (h.number_ne_of_append hlive made hmade)
  rw [List.forall_mem_append] at hothers
  rw [finish, hlive, List.filter_append, List.filter_cons_of_neg (by simp),
    List.filter_eq_self.mpr hothers.1, List.filter_eq_self.mpr hothers.2]

theorem finish_of_not_mem (h : r.Consistent) (hknown : r.Knows ended) (hmem : ended ∉ r.live) :
    r.finish ended = r := by
  have hothers : ∀ made ∈ r.live, (made.number != ended.number) = true := by
    intro made hmade
    rw [bne_iff_ne]
    intro hnumber
    exact hmem (h.subscription (.inl hmade) hknown hnumber ▸ hmade)
  rw [finish, List.filter_eq_self.mpr hothers]

/-- The first equal listener is the one of this subscription exactly if all equal ones before it follow each other
directly in front of it. -/
theorem eraseP_listeners_eq_iff_of_append (h : r.Consistent) {front back : List Subscription}
    (hlive : r.live = front ++ ended :: back) :
    r.listeners.eraseP (·.number == ended.listener.number) = (r.finish ended).listeners ↔
      ∃ others again, front = others ++ again ∧
        (∀ made ∈ others, made.listener.number ≠ ended.listener.number) ∧
        ∀ made ∈ again, made.listener.number = ended.listener.number := by
  have hended : r.Knows ended := .inl (hlive ▸ List.mem_append_right front (List.mem_cons_self ..))
  have hkind : ∀ made ∈ front, (made.listener.number == ended.listener.number) = true ↔
      made.listener = ended.listener := by
    intro made hmade
    rw [beq_iff_eq]
    exact ⟨h.listener (.inl (hlive ▸ List.mem_append_left _ hmade)) hended, congrArg Listener.number⟩
  have hfirst := map_eraseP_eq_iff (a := ended) (f := Subscription.listener)
    (p := fun made => made.listener.number == ended.listener.number) (beq_self_eq_true _) hkind back
  rw [listeners, listeners, finish_live_of_append h hlive, hlive, List.eraseP_map]
  simp only [beq_iff_eq] at hfirst
  exact hfirst

/-- To take away the first listener that is the same leaves those who should stay exactly for these
subscriptions. -/
theorem eraseP_listeners_eq_iff (h : r.Consistent) (hknown : r.Knows ended) :
    r.listeners.eraseP (·.number == ended.listener.number) = (r.finish ended).listeners ↔
      r.EndsOwn ended := by
  by_cases hmem : ended ∈ r.live
  · constructor
    · obtain ⟨front, back, hlive⟩ := List.append_of_mem hmem
      intro hsame
      obtain ⟨others, again, rfl, hothers, hagain⟩ :=
        (eraseP_listeners_eq_iff_of_append h hlive).mp hsame
      exact .inr ⟨others, again, back, hlive, hothers, hagain⟩
    · rintro (hnone | ⟨others, again, back, hlive, hothers, hagain⟩)
      · exact absurd rfl (hnone ended hmem)
      · exact (eraseP_listeners_eq_iff_of_append h hlive).mpr ⟨others, again, rfl, hothers, hagain⟩
  · -- an ended subscription cannot be told from the others by the order
    have hnone : r.EndsOwn ended ↔ ∀ made ∈ r.live, made.listener.number ≠ ended.listener.number := by
      refine or_iff_left ?_
      rintro ⟨others, again, back, hlive, -⟩
      exact hmem (hlive ▸ List.mem_append_right _ (List.mem_cons_self ..))
    rw [finish_of_not_mem h hknown hmem, List.eraseP_eq_self_iff, hnone, listeners, List.forall_mem_map]
    simp only [beq_iff_eq, ne_eq]

end Roster

/-! ## The audience -/

/-- Those who listen, as a session knows them. -/
structure Audience where
  listeners : List Listener := []
  /-- The listener that was last added under a name. -/
  named : OrderedMap Listener := ∅
  listenerCount : Nat := 0

namespace Audience

/-- Adds a listener under a name. -/
def add (a : Audience) (id : String) (listener : Listener) : Audience :=
  { a with listeners := a.listeners ++ [listener], named := a.named.insert id listener }

/-- The audience after a command. -/
def after (a : Audience) : Command → Audience
  | .subscribe id reaction once =>
    { a.add id { number := a.listenerCount, id, reaction, once } with
      listenerCount := a.listenerCount + 1 }
  | .subscribeAgain id other =>
    match a.named.get? other with
    | some listener => a.add id listener
    | none => a
  | .unsubscribe id =>
    match a.named.get? id with
    | some listener => { a with listeners := a.listeners.eraseP (·.number == listener.number) }
    | none => a
  | _ => a

end Audience

variable {r : Roster} {a : Audience}

/-- The account and the audience know the same names and have counted alike. -/
structure Enrolled (r : Roster) (a : Audience) : Prop where
  consistent : r.Consistent
  named : ∀ id, a.named.get? id = (r.named.get? id).map (·.listener)
  listenerCount : a.listenerCount = r.listenerCount

namespace Enrolled

theorem empty : Enrolled {} {} := ⟨.empty, fun _ => rfl, rfl⟩

theorem named_insert (h : Enrolled r a) (id : String) (listener : Listener) (name : String) :
    (a.add id listener).named.get? name = ((r.add id listener).named.get? name).map (·.listener) := by
  show (a.named.insert id listener).get? name =
    ((r.named.insert id ⟨r.count, listener⟩).get? name).map (·.listener)
  rw [OrderedMap.get?_insert, OrderedMap.get?_insert, h.named]
  split <;> rfl

theorem after (h : Enrolled r a) (command : Command) : Enrolled (r.after command) (a.after command) := by
  have hconsistent := h.consistent.after command
  cases command with
  | subscribe id reaction once =>
    rw [Audience.after, h.listenerCount]
    exact ⟨hconsistent, h.named_insert id _, rfl⟩
  | subscribeAgain id other =>
    have hnamed := h.named other
    rw [Roster.after] at hconsistent ⊢
    rw [Audience.after, hnamed]
    cases hfound : r.named.get? other with
    | none => exact h
    | some made =>
      rw [hfound] at hconsistent
      exact ⟨hconsistent, h.named_insert id made.listener, h.listenerCount⟩
  | unsubscribe id =>
    have hnamed := h.named id
    rw [Roster.after] at hconsistent ⊢
    rw [Audience.after, hnamed]
    cases hfound : r.named.get? id with
    | none => exact h
    | some made =>
      rw [hfound] at hconsistent
      exact ⟨hconsistent, h.named, h.listenerCount⟩
  | _ => exact h

/-- A command leaves those who should stay, unless it ends a subscription that may be taken for another. -/
theorem listeners_after_iff (h : Enrolled r a) (hsame : a.listeners = r.listeners) (command : Command) :
    (a.after command).listeners = (r.after command).listeners ↔
      ∀ id made, command = .unsubscribe id → r.named.get? id = some made → r.EndsOwn made := by
  have hadd : ∀ id listener, (a.add id listener).listeners = (r.add id listener).listeners := by
    intro id listener
    show a.listeners ++ [listener] = (r.live ++ [Subscription.mk r.count listener]).map (·.listener)
    rw [hsame, Roster.listeners, List.map_append]
    rfl
  cases command with
  | subscribe id reaction once =>
    rw [Audience.after, h.listenerCount]
    exact iff_of_true (hadd id _) nofun
  | subscribeAgain id other =>
    refine iff_of_true ?_ nofun
    rw [Roster.after, Audience.after, h.named other]
    cases r.named.get? other with
    | none => exact hsame
    | some made => exact hadd id made.listener
  -- only this takes a listener away, and it may be another than its own
  | unsubscribe id =>
    rw [Roster.after, Audience.after, h.named id]
    cases hfound : r.named.get? id with
    | none =>
      refine iff_of_true hsame fun other made hid hmade => ?_
      cases hid
      rw [hfound] at hmade
      cases hmade
    | some made =>
      have hown := Roster.eraseP_listeners_eq_iff h.consistent (.inr ⟨id, hfound⟩)
      rw [← hsame] at hown
      refine Iff.trans hown ⟨fun hends other found hid hmade => ?_, fun hends => hends id made rfl hfound⟩
      cases hid
      rw [hfound] at hmade
      cases hmade
      exact hends
  | _ => exact iff_of_true hsame nofun

/-- By induction on the commands: after the first one it is already settled whether it has left those who
should stay. -/
theorem listeners_throughout_iff (h : Enrolled r a) (hsame : a.listeners = r.listeners)
    (commands : List Command) :
    (∀ before, before <+: commands →
        (before.foldl Audience.after a).listeners = (before.foldl Roster.after r).listeners) ↔
      ∀ before id made, before ++ [.unsubscribe id] <+: commands →
        (before.foldl Roster.after r).named.get? id = some made →
          (before.foldl Roster.after r).EndsOwn made := by
  induction commands generalizing r a with
  | nil =>
    refine iff_of_true (fun before hbefore => ?_) fun before id made hbefore => ?_
    · rw [List.prefix_nil.mp hbefore]
      exact hsame
    · exact absurd (List.prefix_nil.mp hbefore) (by simp)
  | cons command rest ih =>
    have hfirst := h.listeners_after_iff hsame command
    constructor
    · -- who is called after the first command is who should be, hence the rest can start from there
      intro hall before id made hbefore hnamed
      have hnow : (a.after command).listeners = (r.after command).listeners :=
        hall [command] ⟨rest, rfl⟩
      cases before with
      | nil =>
        obtain ⟨others, hothers⟩ := hbefore
        exact hfirst.mp hnow id made (List.cons.inj hothers).1.symm hnamed
      | cons first before =>
        obtain ⟨rfl, hlater⟩ := List.cons_prefix_cons.mp hbefore
        refine (ih (h.after first) hnow).mp (fun later hmem => ?_) before id made hlater hnamed
        exact hall (first :: later) (List.cons_prefix_cons.mpr ⟨rfl, hmem⟩)
    · intro hall before hbefore
      cases before with
      | nil => exact hsame
      | cons first before =>
        obtain ⟨rfl, hlater⟩ := List.cons_prefix_cons.mp hbefore
        have hnow : (a.after first).listeners = (r.after first).listeners := by
          refine hfirst.mpr fun id made hcommand hnamed => hall [] id made ?_ hnamed
          exact ⟨rest, hcommand ▸ rfl⟩
        refine (ih (h.after first) hnow).mpr (fun later id made hmem hnamed => ?_) before hlater
        exact hall (first :: later) id made (List.cons_prefix_cons.mpr ⟨rfl, hmem⟩) hnamed

end Enrolled

namespace Roster

variable {made other ended : Subscription}

/-! ## Listeners that were added once -/

/-- No listener has two subscriptions. -/
def Distinct (r : Roster) : Prop :=
  ∀ {made other}, r.Knows made → r.Knows other → made.listener.number = other.listener.number → made = other

theorem distinct_empty : Distinct {} := by
  rintro made - (hlive | ⟨id, hnamed⟩)
  · cases hlive
  · cases hnamed

/-- A listener that comes again is the only way to two subscriptions. -/
theorem Distinct.after (hr : r.Consistent) (h : r.Distinct) {command : Command}
    (hcommand : ∀ id other, command ≠ .subscribeAgain id other) : (r.after command).Distinct := by
  intro made other hmade hother hnumber
  cases command with
  | subscribe id reaction once =>
    have hnew : ∀ {made}, r.Knows made → made.listener.number ≠ r.listenerCount :=
      fun hmade => Nat.ne_of_lt (hr.listener_lt hmade)
    rcases knows_add hmade with rfl | hmade <;> rcases knows_add hother with rfl | hother
    · rfl
    · exact absurd hnumber.symm (hnew hother)
    · exact absurd hnumber (hnew hmade)
    · exact h hmade hother hnumber
  | subscribeAgain id other => exact absurd rfl (hcommand id other)
  | unsubscribe id =>
    rw [Roster.after] at hmade hother
    cases hfound : r.named.get? id with
    | some ended =>
      rw [hfound] at hmade hother
      exact h (knows_finish hmade) (knows_finish hother) hnumber
    | none =>
      rw [hfound] at hmade hother
      exact h hmade hother hnumber
  | _ => exact h hmade hother hnumber

theorem distinct_foldl (hr : r.Consistent) (h : r.Distinct) {commands : List Command}
    (hcommands : ∀ id other, .subscribeAgain id other ∉ commands) : (commands.foldl after r).Distinct := by
  induction commands generalizing r with
  | nil => exact h
  | cons command rest ih =>
    refine ih (hr.after command) (h.after hr fun id other hagain => ?_) fun id other hmem => ?_
    · exact hcommands id other (hagain ▸ List.mem_cons_self ..)
    · exact hcommands id other (List.mem_cons_of_mem _ hmem)

/-- Where no listener has two subscriptions, none of these can be taken for another. -/
theorem Distinct.endsOwn (hr : r.Consistent) (h : r.Distinct) (hknown : r.Knows ended) :
    r.EndsOwn ended := by
  by_cases hmem : ended ∈ r.live
  · obtain ⟨front, back, hlive⟩ := List.append_of_mem hmem
    refine .inr ⟨front, [], back, by rw [List.append_nil, hlive], fun made hmade hnumber => ?_,
      List.forall_mem_nil _⟩
    have hsame : made = ended := h (.inl (hlive ▸ List.mem_append_left _ hmade)) hknown hnumber
    exact hr.number_ne_of_append hlive made (List.mem_append_left _ hmade) (congrArg _ hsame)
  · exact .inl fun made hmade hnumber => hmem (h (.inl hmade) hknown hnumber ▸ hmade)

end Roster

end SchemaForm.Session
