import SchemaForm.Proofs.Store
import SchemaForm.Proofs.Session.Passive
import SchemaForm.Proofs.Session.Submission
import SchemaForm.Proofs.Session.Throughout

/-!
# Listeners that only take notes

A listener that gives no commands and never fails cannot be noticed by a command that tells it of a
change. Then a submission does exactly what it is made for, and one can say of each of its halves what it
leaves.

* `Listener.Quiet`, `Command.Silent` — such listeners, and the commands that add no others;
* `exec_apply_of_quiet` — an operation does what it does to the store, and nothing else;
* `exec_openSubmission_of_quiet`, `exec_settle_of_quiet` — the two halves of a submission.
-/

namespace SchemaForm.Session

variable {s : State}

/-- The listener gives no commands, and it does not fail. -/
structure Listener.Quiet (listener : Listener) : Prop where
  commands : listener.reaction.commands = []
  exception : listener.reaction.exception = none

/-- If the command adds a listener, it is a quiet one. -/
def Command.AddsQuiet (command : Command) : Prop :=
  ∀ id reaction once, command = .subscribe id reaction once →
    reaction.commands = [] ∧ reaction.exception = none

/-- Neither the command nor anything that comes of it adds a listener that is not quiet. -/
abbrev Command.Silent : Command → Prop := Command.Throughout Command.AddsQuiet

theorem Listener.gives_of_nil {listener : Listener} (h : listener.reaction.commands = [])
    (L : Command → Prop) : listener.Gives L := by
  intro command hmem
  rw [h] at hmem
  cases hmem

theorem Listener.Quiet.gives {listener : Listener} (h : listener.Quiet) (L : Command → Prop) :
    listener.Gives L :=
  Listener.gives_of_nil h.commands L

theorem Command.AddsQuiet.quiet {id : String} {reaction : Reaction Command} {once : Bool}
    (h : (Command.subscribe id reaction once).AddsQuiet) (number : Nat) :
    Listener.Quiet { number, id, reaction, once } := by
  obtain ⟨hcommands, hexception⟩ := h id reaction once rfl
  exact ⟨hcommands, hexception⟩

/-- Silent commands leave listeners quiet. -/
theorem kept_quiet : Kept Command.AddsQuiet (Peopled Listener.Quiet) :=
  kept_listeners (fun _ h => h.gives _) fun hcommand => hcommand.self.quiet

/-! ## Listeners are told -/

theorem firstException_of_quiet {listeners : List Listener} (h : ∀ listener ∈ listeners, listener.Quiet) :
    firstException listeners = none :=
  List.findSome?_eq_none_iff.mpr fun listener hmem => (h listener hmem).exception

theorem exec_apply_of_quiet (inner : Command → SessionM Result) (operation : Store.Operation)
    (hs : Peopled Listener.Quiet s) :
    ∃ t, exec (apply inner operation) s = (.ok (), t) ∧ Told (s.written operation) t := by
  obtain ⟨t, hexec, htold⟩ :=
    exec_apply_told inner (fun listener hmem => (hs.present listener hmem).gives _) operation
  rw [firstException_of_quiet hs.present, Option.bind_fun_none] at hexec
  exact ⟨t, hexec, htold⟩

/-! ## Submissions -/

/-- Whether the values break no rule. -/
def State.passes (s : State) : Bool := (s.form.store.schema.violations s.form.store.values).isEmpty

/-- The values that a submission would hand on. -/
def State.coerced (s : State) : OrderedMap Value := s.form.store.schema.coerce s.form.store.values

/-- The state that the first half of a submission leaves, but for what listeners do. -/
def State.opened (s : State) : State :=
  let store := s.form.store
  { s with
    form := s.form.withStore { store with
      errors := store.schema.violations store.values
      touched := store.schema.names
      submitting := s.passes || store.submitting }
    phase := if s.passes then .submitting else .idle }

/-- The state that the second half of a submission leaves, but for what listeners do. -/
def State.settled (s : State) : State :=
  { s with form := s.form.withStore { s.form.store with submitting := false }, phase := .idle }

/-- A submission that is not turned away hands on the coerced values that it finds, provided that they
break no rule. -/
theorem exec_openSubmission_of_quiet (inner : Command → SessionM Result) (hs : Peopled Listener.Quiet s)
    (hadmitted : s.rejects = false) :
    ∃ t, exec (openSubmission inner) s = (.ok (if s.passes then some s.coerced else none), t) ∧
      Told s.opened t := by
  obtain ⟨t, hcheck, ht⟩ := exec_apply_of_quiet inner .validateForm
    (s := s.validating) ⟨hs.present, hs.named⟩
  have hform : t.form = s.form.withStore s.form.store.validateForm.store := ht.form
  have hquiet : Peopled Listener.Quiet t := ht.peopled ⟨hs.present, hs.named⟩
  have hpasses : t.form.store.errors.isEmpty = s.passes := by
    rw [hform]
    rfl
  cases hexec : exec (openSubmission inner) s with
  | mk result u =>
    cases opening_of_eq hadmitted hexec with
    | stoppedAtCheck hstopped => cases hcheck.symm.trans hstopped
    | blocked hchecked herrors =>
      cases hcheck.symm.trans hchecked
      rw [hpasses] at herrors
      have hopened : s.opened = { s with form := t.form, phase := .idle } := by
        rw [hform, State.opened, herrors]
        rfl
      rw [herrors, hopened]
      exact ⟨_, rfl, ht.write t.form .idle _⟩
    | stoppedAtCall hchecked herrors hcall =>
      -- no listener fails, so that the handler is called
      cases hcheck.symm.trans hchecked
      obtain ⟨u, hcalled, -⟩ := exec_apply_of_quiet inner (.setSubmitting true) hquiet
      cases hcalled.symm.trans hcall
    | @called _ u hchecked herrors hcall =>
      cases hcheck.symm.trans hchecked
      rw [hpasses] at herrors
      obtain ⟨v, hcalled, hv⟩ := exec_apply_of_quiet inner (.setSubmitting true) hquiet
      cases hcalled.symm.trans hcall
      have hraised : u.form = t.form.withStore { t.form.store with submitting := true } := by
        rw [hv.form, State.written, Store.apply, Store.store_setSubmitting]
      have hopened : s.opened = { s with form := u.form, phase := .submitting } := by
        rw [hraised, hform, State.opened, herrors]
        rfl
      have hsame : u.form.store.schema.coerce u.form.store.values = s.coerced := by
        rw [hraised, hform]
        rfl
      rw [herrors, hopened, hsame]
      have htold := (ht.write (t.written (.setSubmitting true)).form t.phase t.events).trans hv
      exact ⟨_, rfl, htold.write u.form .submitting _⟩

/-- The end of a submission takes back the note that it is under way, and nothing else. -/
theorem exec_lowering_of_quiet (inner : Command → SessionM Result) (outcome : Option Failure)
    (hs : Peopled Listener.Quiet s) :
    ∃ t, exec (lowering inner outcome) s = (.ok (), t) ∧
      Told (s.written (.setSubmitting false)) t := by
  rw [lowering]
  split
  · rw [exec_bind_of_ok (exec_log _ s)]
    obtain ⟨t, hexec, ht⟩ := exec_apply_of_quiet inner (.setSubmitting false)
      (s := { s with events := s.events ++ [.failedSubmission] }) ⟨hs.present, hs.named⟩
    exact ⟨t, hexec, ht.form, ht.phase, ht.submissions, ht.received, ht.subscriptions, ht.listeners⟩
  · exact exec_apply_of_quiet inner (.setSubmitting false) hs

theorem exec_settle_of_quiet (inner : Command → SessionM Result) (outcome : Option Failure)
    (hs : Peopled Listener.Quiet s) :
    ∃ t, exec (settle inner outcome) s = (conclusion outcome, t) ∧ Told s.settled t := by
  obtain ⟨t, hlower, ht⟩ := exec_lowering_of_quiet inner outcome hs
  rw [exec_settle, hlower]
  have hsettled : s.settled = { s with form := t.form, phase := .idle } := by
    rw [ht.form, State.settled, State.written, Store.apply, Store.store_setSubmitting]
  rw [hsettled]
  exact ⟨_, rfl, ht.write t.form .idle _⟩

end SchemaForm.Session
