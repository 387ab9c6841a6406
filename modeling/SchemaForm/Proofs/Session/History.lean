import SchemaForm.Proofs.OrderedMap
import SchemaForm.Proofs.Session.Interleaving
import SchemaForm.Proofs.Session.Quiet

/-!
# The history of a session

The commands of a session, and those that its handlers give, are steps that follow each other, so that
every session has a history of its submissions. What is said of interleavings holds of sessions for that
reason.

* `Accounted` — the invariant: the state has a history, and every submission that waits for its end is in
  flight there, as is every handler at work around the command;
* `Accounted.settle`, `keeps_submit`, `keeps_start`, `keeps_endSubmission` — how the account is kept;
* `interleaving_of_run` — every session is an interleaving;
* `size_submissions_le_one` — if the form turns submissions away, no two of them wait.
-/

namespace SchemaForm.Session

/-- The command adds no listener that is not quiet, and leaves it to submissions to say whether one is
under way. -/
def Command.Unmeddling (command : Command) : Prop :=
  command.AddsQuiet ∧ ∀ flag, command ≠ .setSubmitting flag

/-- The state has a history in which every submission that waits is in flight, and `outer` handlers more:
those that are at work around the command that comes next. -/
structure Accounted (form : Form) (outer : Nat) (s : State) : Prop where
  quiet : Peopled Listener.Quiet s
  history : ∃ history, Interleaving form history s ∧ outer + s.submissions.size ≤ inFlight history

variable {form : Form} {outer depth : Nat} {s t : State} {handler : Reaction Command}

namespace Accounted

/-- The host may write down what it likes, also that one submission more or less waits. -/
theorem noted {outer' : Nat} (h : Accounted form outer s) (journal : Journal)
    (submissions : OrderedMap (Option HostException)) (events : List Event)
    (hcount : outer' + submissions.size ≤ outer + s.submissions.size) :
    Accounted form outer' { s with journal, submissions, events } := by
  obtain ⟨history, hs, hflight⟩ := h.history
  refine ⟨⟨h.quiet.present, h.quiet.named⟩, history, .noted journal submissions events hs, ?_⟩
  exact Nat.le_trans hcount hflight

theorem logged (h : Accounted form outer s) (events : List Event) :
    Accounted form outer { s with events } :=
  h.noted s.journal s.submissions events (Nat.le_refl _)

/-- A submission that comes to its end is in flight no more. -/
theorem settle (h : Accounted form (outer + 1) s) (depth : Nat) (outcome : Option Failure) :
    Accounted form outer (exec (settle (perform depth) outcome) s).2 := by
  obtain ⟨history, hs, hflight⟩ := h.history
  obtain ⟨t, hlower, -⟩ := exec_lowering_of_quiet (perform depth) outcome h.quiet
  obtain ⟨u, hsettle, hu⟩ := exec_settle_of_quiet (perform depth) outcome h.quiet
  -- the account counts at least the handler that comes to its end here
  have hended := Interleaving.ended depth outcome hlower (by omega) hs
  rw [hsettle] at hended ⊢
  refine ⟨hu.peopled ⟨h.quiet.present, h.quiet.named⟩, .ended :: history, hended, ?_⟩
  have hsame : u.submissions = s.submissions := hu.submissions
  rw [hsame, inFlight]
  omega

/-- An attempt that is stopped by the rules. -/
theorem blocked (h : Accounted form outer s)
    (hopen : exec (openSubmission (perform depth)) s = (.ok none, t)) (ht : Told s.opened t) : Accounted form outer t := by
  obtain ⟨history, hs, hflight⟩ := h.history
  refine ⟨ht.peopled ⟨h.quiet.present, h.quiet.named⟩, .blocked :: history, .blocked depth hopen hs, ?_⟩
  have hsame : t.submissions = s.submissions := ht.submissions
  rw [hsame]
  exact hflight

/-- An attempt that comes to the call of its handler. -/
theorem called {values : OrderedMap Value} (h : Accounted form outer s)
    (hopen : exec (openSubmission (perform depth)) s = (.ok (some values), t)) (ht : Told s.opened t) :
    Accounted form (outer + 1) t := by
  obtain ⟨history, hs, hflight⟩ := h.history
  refine ⟨ht.peopled ⟨h.quiet.present, h.quiet.named⟩, .called :: history, .called depth hopen hs, ?_⟩
  have hsame : t.submissions = s.submissions := ht.submissions
  rw [hsame, inFlight]
  omega

end Accounted

theorem journalFree_accounted : JournalFree (Accounted form outer) :=
  fun {s} journal h => h.noted journal s.submissions s.events (Nat.le_refl _)

theorem keeps_log_accounted (events : List Event) : Keeps (Accounted form outer) (log events) :=
  fun s h => h.logged (s.events ++ events)

/-! ## Commands that leave submissions alone -/

/-- Such commands do not change which submissions wait. -/
theorem indifferent_submissions (submissions : OrderedMap (Option HostException)) :
    Indifferent (fun command => command.AddsQuiet ∧ command.ticket? = none)
      fun s => s.submissions = submissions where
  events _ h := h
  journal _ h := h
  listeners _ _ _ h := h
  writes _ _ _ _ h := h
  phase _ _ _ _ h := h
  submissions := by
    intro command hcommand id hid
    rw [hcommand.2] at hid
    cases hid

theorem Command.AddsQuiet.listenerCommands {command : Command} (h : command.AddsQuiet) :
    command.listenerCommands = [] := by
  cases command with
  | subscribe id reaction once => exact (h id reaction once rfl).1
  | _ => rfl

theorem Command.Unmeddling.isApart {command : Command} (h : command.Unmeddling)
    (hsubmits : command.submits = false) : command.IsApart := by
  intro flag hmem
  cases command with
  | setSubmitting other => exact h.2 other rfl
  | _ => simp [Command.operations, Command.submits] at hmem hsubmits

theorem ticket?_of_not_submits {command : Command} (h : command.submits = false) :
    command.ticket? = none := by
  cases command <;> simp [Command.submits, Command.ticket?] at h ⊢

theorem Accounted.aside (h : Accounted form outer s) (depth : Nat) {command : Command}
    (hcommand : command.Unmeddling) (hsubmits : command.submits = false)
    (hhandler : command.handlerCommands = []) :
    Accounted form outer (exec (perform depth command) s).2 := by
  obtain ⟨history, hs, hflight⟩ := h.history
  have hlistener := hcommand.1.listenerCommands
  have hkept := kept_peopled (fun _ h => h.gives _) (fun hcommand => hcommand.self.1.quiet)
    (indifferent_submissions s.submissions)
  obtain ⟨hquiet, hsame⟩ := hkept.perform depth command
    (.of_nil ⟨hcommand.1, ticket?_of_not_submits hsubmits⟩ hlistener hhandler) s ⟨h.quiet, rfl⟩
  refine ⟨hquiet, history, .aside depth (.of_nil (hcommand.isApart hsubmits) hlistener hhandler) hs, ?_⟩
  rw [hsame]
  exact hflight

/-! ## Submissions -/

section
variable (hhandler : ∀ outer, Keeps (Accounted form outer) (reportAll (perform depth) handler.commands))
include hhandler

/-- While a handler is at work it is in flight, whatever its commands do. -/
theorem keeps_receive_accounted (values : OrderedMap Value) :
    Keeps (Accounted form outer) (receive (perform depth) values handler) :=
  Keeps.bind (fun _ h => journalFree_accounted _ h) fun _ => hhandler outer

theorem keeps_handOn_accounted (values : OrderedMap Value) :
    Keeps (Accounted form outer) (handOn (perform depth) handler values) := by
  refine Keeps.bind Keeps.currentForm fun form => ?_
  split
  · exact keeps_receive_accounted hhandler values
  · exact keeps_log_accounted _

/-- A submission that comes to its end at once leaves the account of submissions as it was. -/
theorem keeps_submit : Keeps (Accounted form outer) (submit (perform depth) handler) := by
  intro s h
  cases hrejects : s.rejects with
  | true =>
    rw [exec_submit_of_rejects hrejects]
    exact h.logged _
  | false =>
    obtain ⟨t, hopen, ht⟩ := exec_openSubmission_of_quiet (perform depth) h.quiet hrejects
    cases hpasses : s.passes with
    | false =>
      rw [hpasses] at hopen
      rw [submit, exec_bind_of_ok hopen]
      exact h.blocked hopen ht
    | true =>
      rw [hpasses] at hopen
      obtain ⟨u, hhand, -⟩ := exec_handOn (perform depth) handler s.coerced t
      have hu := keeps_handOn_accounted hhandler s.coerced t (h.called hopen ht)
      rw [hhand] at hu
      rw [exec_submit_of_opened hopen, exec_bind_of_ok hhand]
      exact hu.settle depth _

/-- A handler that is left at work waits under its name instead. -/
theorem keeps_start (id : String) : Keeps (Accounted form outer) (start (perform depth) id handler) := by
  intro s h
  cases hrejects : s.rejects with
  | true =>
    rw [exec_start_of_rejects hrejects]
    exact h.logged _
  | false =>
    obtain ⟨t, hopen, ht⟩ := exec_openSubmission_of_quiet (perform depth) h.quiet hrejects
    cases hpasses : s.passes with
    | false =>
      rw [hpasses] at hopen
      rw [start, exec_bind_of_ok hopen]
      exact h.blocked hopen ht
    | true =>
      rw [hpasses] at hopen
      have hcalled := h.called hopen ht
      rw [start, exec_bind_of_ok hopen, if_pos rfl, exec_bind_of_ok (exec_currentForm t)]
      cases t.form.takesSubmissions with
      | true =>
        obtain ⟨u, hhand, -⟩ := exec_receive (perform depth) handler s.coerced t
        have hu : Accounted form (outer + 1) u := by
          have hkept := keeps_receive_accounted hhandler s.coerced t hcalled
          rwa [hhand] at hkept
        -- the handler was at work around its commands; now it is one of those that wait
        rw [if_pos rfl, exec_bind_of_ok hhand, exec_bind_of_ok (exec_modify _ u)]
        refine hu.noted u.journal _ u.events ?_
        have hsize := u.submissions.size_insert_le id handler.exception
        omega
      | false =>
        have hlogged := hcalled.logged (t.events ++ [.discardedValues s.coerced.size])
        rw [if_neg Bool.false_ne_true, exec_bind_of_ok (exec_log _ t)]
        exact Keeps.after (fun _ => Keeps.pure _) (hlogged.settle depth none)

end

/-- A submission that has waited for its end is looked up by its name, and waits no more. -/
theorem keeps_endSubmission (id : String) (outcome : Option HostException → Option Failure) :
    Keeps (Accounted form outer) (do
      let exception ← takeSubmission id
      return Result.flag (← settle (perform depth) (outcome exception))) := by
  intro s h
  have htake := exec_takeSubmission id s
  cases hfound : s.submissions.get? id with
  | none =>
    rw [hfound] at htake
    rw [exec_bind_of_error htake]
    exact h
  | some exception =>
    rw [hfound] at htake
    -- one that waits no more is still in flight until its end has been told
    have htaken : Accounted form (outer + 1) { s with submissions := s.submissions.erase id } := by
      refine h.noted s.journal _ s.events ?_
      have hsize := OrderedMap.size_erase_lt hfound
      omega
    rw [exec_bind_of_ok htake]
    exact Keeps.after (fun _ => Keeps.pure _) (htaken.settle depth _)

/-! ## Sessions -/

theorem keeps_currentView_accounted : Keeps (Accounted form outer) currentView := by
  intro s h
  rw [exec_currentView]
  exact h.logged _

theorem keeps_saveDraft_accounted
    (hhandler : Keeps (Accounted form outer) (reportAll (perform depth) handler.commands)) :
    Keeps (Accounted form outer) (saveDraft (perform depth) handler) := by
  refine Keeps.bind Keeps.currentForm fun form => ?_
  split
  · refine Keeps.bind (fun _ h => journalFree_accounted _ h) fun _ => Keeps.bind hhandler fun _ => ?_
    exact Keeps.failWith _
  · exact keeps_log_accounted _

/-- One command, with the commands inside it one level deeper. -/
theorem keeps_perform_succ {command : Command} (hcommand : command.Throughout Command.Unmeddling)
    (hhandler : ∀ outer, Keeps (Accounted form outer)
      (reportAll (perform depth) command.handlerCommands)) :
    Keeps (Accounted form outer) (perform (depth + 1) command) := by
  have haside : command.submits = false → command.handlerCommands = [] →
      Keeps (Accounted form outer) (perform (depth + 1) command) :=
    fun hsubmits hnone _ h => h.aside (depth + 1) hcommand.self hsubmits hnone
  cases command with
  | submit event handler => exact Keeps.bind (keeps_submit hhandler) fun _ => Keeps.pure _
  | start id handler => exact keeps_start hhandler id
  | click index handler =>
    refine Keeps.bind Keeps.currentForm fun form => Keeps.bind keeps_currentView_accounted fun _ => ?_
    split
    · exact Keeps.bind (keeps_submit hhandler) fun _ => Keeps.pure _
    · exact Keeps.bind (keeps_saveDraft_accounted (hhandler outer)) fun _ => Keeps.pure _
    · exact Keeps.pure _
  | saveDraft handler =>
    exact Keeps.bind (keeps_saveDraft_accounted (hhandler outer)) fun _ => Keeps.pure _
  | finish id => exact keeps_endSubmission id _
  | fail id exception => exact keeps_endSubmission id fun _ => some (.host exception)
  | cancel id => exact keeps_endSubmission id fun _ => some .cancelled
  | _ => exact haside rfl rfl

/-- By induction on the depth, for any number of handlers around the command. -/
theorem keeps_perform_accounted (depth outer : Nat) :
    ∀ command : Command, command.Throughout Command.Unmeddling →
      Keeps (Accounted form outer) (perform depth command) := by
  induction depth generalizing outer with
  | zero => exact fun _ _ => Keeps.throw .endless
  | succ depth ih =>
    intro command hcommand
    refine keeps_perform_succ hcommand fun outer => ?_
    exact keeps_reportAll journalFree_accounted fun given hmem =>
      ih outer given (hcommand.handler given hmem)

/-- **Every session is an interleaving.** Its history counts every submission that waits for its end. -/
theorem interleaving_of_run (form : Form) {commands : List Command}
    (h : ∀ command ∈ commands, command.Throughout Command.Unmeddling) :
    ∃ history, Interleaving form history (run form commands).2 ∧
      (run form commands).2.submissions.size ≤ inFlight history := by
  have hnew : Accounted form 0 (.ofForm form) :=
    ⟨peopled_ofForm form, [], .new, Nat.le_refl 0⟩
  have hkept : Keeps (Accounted form 0) (reports commands) :=
    keeps_reports_of journalFree_accounted fun command hmem =>
      keeps_perform_accounted maxDepth 0 command (h command hmem)
  obtain ⟨-, history, hs, hcount⟩ := hkept _ hnew
  rw [Nat.zero_add] at hcount
  rw [run_snd]
  exact ⟨history, hs, hcount⟩

/-- A form that turns submissions away has at most one that waits for its end. -/
theorem size_submissions_le_one {form : Form} {commands : List Command}
    (hform : form.store.submitting = false) (hrejects : form.rejectsConcurrent = true)
    (h : ∀ command ∈ commands, command.Throughout Command.Unmeddling) :
    (run form commands).2.submissions.size ≤ 1 := by
  obtain ⟨history, hs, hcount⟩ := interleaving_of_run form h
  exact Nat.le_trans hcount (hs.inFlight_le_one hform hrejects)

end SchemaForm.Session
