import SchemaForm.Proofs.Session.Apart
import SchemaForm.Proofs.Session.Quiet

/-!
# What a submission leaves behind

`handle_submit` sets the in-flight flag and the phase, and takes both back at its end, also if its handler
raises. But listeners are called at every step of it, and one that raises stops it there and then.

* `Disturbance`, `disturbance?` — when a listener stops a submission, if one does;
* `Abides.submit` — how the form stands to submissions after that;
* `cleanup_iff` — a submission cleans up after itself exactly if no listener stops it.
-/

namespace SchemaForm.Session

variable {inner : Command → SessionM Result} {s t u : State}

/-! ## Listeners that leave submissions alone -/

/-- If the command adds a listener, that one leaves submissions alone. -/
def Command.AddsApart (command : Command) : Prop := ∀ given ∈ command.listenerCommands, given.Apart

/-- Submissions are a matter of the host and of handlers, and no listener meddles with them. -/
abbrev Command.Civil : Command → Prop := Command.Throughout Command.AddsApart

theorem Command.Throughout.civil {command : Command} (h : command.Apart) : command.Civil := by
  induction h with
  | intro _ hlistener _ hlisteners hhandlers => exact .intro hlistener hlisteners hhandlers

theorem kept_civil : Kept Command.AddsApart (Peopled (Listener.Gives Command.Apart)) :=
  kept_listeners (fun _ h command hmem => (h command hmem).civil) fun hcommand _ => hcommand.self

/-! ## Disturbances -/

/-- The moments at which listeners are told of a submission. -/
inductive Disturbance where
  /-- The form has been checked. -/
  | check
  /-- The handler is about to be called. -/
  | call
  /-- The handler has come to its end. -/
  | close
  deriving DecidableEq, Repr

/-- The moment at which a listener fails and so stops a submission that is not turned away. -/
def disturbance? (inner : Command → SessionM Result) (handler : Reaction Command) (s : State) :
    Option Disturbance :=
  match exec (openSubmission inner) s with
  | (.error _, _) =>
    match exec (apply inner .validateForm) s.validating with
    | (.error _, _) => some .check
    | (.ok _, _) => some .call
  | (.ok none, _) => none
  | (.ok (some values), opened) =>
    match exec (do handOn inner handler values; lowering inner (opened.handlerOutcome handler))
      opened with
    | (.error _, _) => some .close
    | (.ok _, _) => none

/-- What is left of a submission to a form that was idle. -/
def Disturbance.left (rejectsConcurrent : Bool) : Option Disturbance → Bearing
  | none => ⟨false, .idle, rejectsConcurrent⟩
  | some .check => ⟨false, .validating, rejectsConcurrent⟩
  | some .call => ⟨true, .validating, rejectsConcurrent⟩
  | some .close => ⟨false, .submitting, rejectsConcurrent⟩

namespace Abides

variable {b : Bearing} {depth : Nat} {handler : Reaction Command}

/-- What a submission to an idle form leaves, whatever the rules say, whatever comes of its handler, and
wherever a listener stops it. -/
theorem submit {rejectsConcurrent : Bool} (hs : Abides ⟨false, .idle, rejectsConcurrent⟩ s)
    (hhandler : ∀ command ∈ handler.commands, command.Apart) :
    Abides (Disturbance.left rejectsConcurrent (disturbance? (Session.perform depth) handler s))
      (exec (submit (Session.perform depth) handler) s).2 := by
  have hadmitted : s.rejects = false := hs.rejects_eq
  rw [disturbance?]
  cases hopen : exec (openSubmission (Session.perform depth)) s with
  | mk result u =>
    match result with
    | .error failure =>
      rw [Session.submit, exec_bind_of_error hopen]
      -- a listener has failed, either when it was told of the check or of the call
      cases opening_of_eq hadmitted hopen with
      | stoppedAtCheck hcheck =>
        rw [hcheck]
        exact hs.check hcheck
      | stoppedAtCall hcheck herrors hcall =>
        rw [hcheck]
        exact (hs.check hcheck).call hcall
    | .ok none =>
      rw [Session.submit, exec_bind_of_ok hopen]
      exact hs.blocked hopen
    | .ok (some values) =>
      have hkept := kept_abides ⟨true, .submitting, rejectsConcurrent⟩
      obtain ⟨v, hhand, -⟩ := exec_handOn (Session.perform depth) handler values u
      have hv : Abides ⟨true, .submitting, rejectsConcurrent⟩ v := by
        have h := hkept.robust.keeps_handOn (hkept.reportAll depth hhandler) values u (hs.called hopen)
        rwa [hhand] at h
      rw [exec_submit_of_opened hopen]
      dsimp only
      rw [exec_bind_of_ok hhand, exec_bind_of_ok hhand, exec_settle]
      -- the phase is entered after the listeners were told, and only if none of them has failed
      cases hlower : exec (Session.lowering (Session.perform depth) (u.handlerOutcome handler)) v with
      | mk result w =>
        cases result with
        | error failure => exact hv.lowering hlower
        | ok _ => exact (hv.lowering hlower).enter .idle _

end Abides

/-- Listeners that only take notes do not stop a submission. -/
theorem disturbance?_of_quiet {handler : Reaction Command} (hs : Peopled Listener.Quiet s)
    (hhandler : Keeps (Peopled Listener.Quiet) (reportAll inner handler.commands))
    (hadmitted : s.rejects = false) : disturbance? inner handler s = none := by
  obtain ⟨u, hopen, hu⟩ := exec_openSubmission_of_quiet inner hs hadmitted
  rw [disturbance?, hopen]
  cases s.passes with
  | false => rfl
  | true =>
    obtain ⟨v, hhand, -⟩ := exec_handOn inner handler s.coerced u
    have hquiet := kept_quiet.robust.keeps_handOn hhandler s.coerced u
      (hu.peopled ⟨hs.present, hs.named⟩)
    rw [hhand] at hquiet
    obtain ⟨w, hlower, -⟩ := exec_lowering_of_quiet inner (u.handlerOutcome handler) hquiet
    rw [if_pos rfl]
    dsimp only
    rw [exec_bind_of_ok hhand, hlower]

/-- **A submission cleans up after itself exactly if no listener stops it.** It begins in any idle form
whose listeners leave submissions alone, and it ends in any way. The next one is turned away only if a
listener has failed when it was told that the handler was about to be called. Listeners that only take
notes do no harm. -/
theorem cleanup_iff (settings : Settings) (schema : Schema) (layout? : Option Layout)
    (options : FormOptions) (commands : List Command)
    (hcivil : ∀ command ∈ commands, command.Civil)
    (hflag : (run (.ofSchema settings schema layout? options) commands).2.form.store.submitting = false)
    (hphase : (run (.ofSchema settings schema layout? options) commands).2.phase = .idle)
    (depth : Nat) (event : Bool) (handler : Reaction Command)
    (hhandler : ∀ command ∈ handler.commands, command.Apart) :
    let form : Form := .ofSchema settings schema layout? options
    let s := (run form commands).2
    let t := (exec (perform (depth + 1) (.submit event handler)) s).2
    let disturbance := disturbance? (perform depth) handler s
    (t.form.store.submitting = false ∧ t.phase = .idle ↔ disturbance = none) ∧
    ((exec (openSubmission (perform depth)) t).1 = .error .submissionInProgress ↔
      form.rejectsConcurrent = true ∧ disturbance = some .call) ∧
    ((∀ command ∈ commands, command.Silent) → (∀ command ∈ handler.commands, command.Silent) →
      disturbance = none) := by
  intro form s t disturbance
  -- only the setting of the form decides what is rejected, and no command changes it
  have hform : s.form.rejectsConcurrent = form.rejectsConcurrent := by
    rw [show s.form = form.withStore s.form.store from form_run form commands]
    rfl
  have hs : Abides ⟨false, .idle, form.rejectsConcurrent⟩ s := by
    refine ⟨kept_civil.run hcivil (peopled_ofForm form), ?_⟩
    rw [State.bearing, hform, show s.form.store.submitting = false from hflag,
      show s.phase = .idle from hphase]
  -- what a submission leaves is a function of where it was stopped
  have ht : Abides (Disturbance.left form.rejectsConcurrent disturbance) t := by
    have hexec : t = (exec (submit (perform depth) handler) s).2 :=
      congrArg Prod.snd (exec_answer (submit (perform depth) handler) _ s)
    rw [hexec]
    exact hs.submit hhandler
  have hsubmitting : t.form.store.submitting = _ := congrArg Bearing.submitting ht.2
  have hentered : t.phase = _ := congrArg Bearing.phase ht.2
  refine ⟨?_, ?_, fun hsilent hquiet => ?_⟩
  · rw [hsubmitting, hentered]
    rcases disturbance with _ | stage
    · exact ⟨fun _ => rfl, fun _ => ⟨rfl, rfl⟩⟩
    · cases stage <;> simp [Disturbance.left]
  · rw [openSubmission_rejected_iff ht.1, ht.rejects_eq]
    rcases disturbance with _ | stage
    · simp [Disturbance.left]
    · cases stage <;> simp [Disturbance.left]
  · exact disturbance?_of_quiet (kept_quiet.run hsilent (peopled_ofForm form))
      (kept_quiet.reportAll depth hquiet) hs.rejects_eq

/-- A listener that brings in another, which fails when it is told of the next step. -/
def ambush : Command :=
  let late : Command := .subscribe "late" { exception := some ⟨"ValueError", "late"⟩ } false
  .subscribe "setup" { commands := [late] } true

theorem civil_ambush : ambush.Civil := by
  have hgiven : ∀ given ∈ ambush.listenerCommands, given.Apart := by
    intro given hmem
    rw [List.mem_singleton.mp hmem]
    exact .of_nil (fun _ hwrite => absurd hwrite List.not_mem_nil) rfl rfl
  refine .intro hgiven (fun given hmem => (hgiven given hmem).civil) ?_
  exact fun _ hmem => absurd hmem List.not_mem_nil

/-- The state in which the ambush is laid, -/
def ambushed : State := (run (.ofSchema {} remark none { takesSubmissions := true }) [ambush]).2

/-- and the one after a submission. -/
def caught : State := (exec (perform 2 (.submit false {})) ambushed).2

theorem cleanup_iff_ambushed :
    (∀ command ∈ [ambush], command.Civil) ∧ ambushed.form.store.submitting = false ∧
      ambushed.phase = .idle ∧ disturbance? (perform 1) {} ambushed = some .call ∧
      ¬(caught.form.store.submitting = false ∧ caught.phase = .idle) ∧
      (exec (openSubmission (perform 1)) caught).1 = .error .submissionInProgress := by
  have hflag : ambushed.form.store.submitting = false := by decide +kernel
  have hphase : ambushed.phase = .idle := by decide +kernel
  have hcall : disturbance? (perform 1) {} ambushed = some .call := by decide +kernel
  have hcivil : ∀ command ∈ [ambush], command.Civil := by
    intro command hmem
    rw [List.mem_singleton.mp hmem]
    exact civil_ambush
  obtain ⟨hclean, hrejected, -⟩ := cleanup_iff {} remark none { takesSubmissions := true } [ambush]
    hcivil hflag hphase 1 false {} fun _ hmem => absurd hmem List.not_mem_nil
  refine ⟨hcivil, hflag, hphase, hcall, ?_, hrejected.mpr ⟨rfl, hcall⟩⟩
  intro h
  have hnone : disturbance? (perform 1) {} ambushed = none := hclean.mp h
  rw [hcall] at hnone
  cases hnone

/-- The submission has come to its end, and the listeners that were in its way are gone. But the form says
that it is under way, and turns away the next one. -/
theorem left_submitting :
    let session := [ambush, .submit false {}, .unsubscribe "late"]
    let s := (run (.ofSchema {} remark none { takesSubmissions := true }) session).2
    s.submissions.keys = [] ∧ s.listeners.isEmpty = true ∧ s.form.store.submitting = true ∧
      s.phase = .validating ∧ s.rejects = true := by
  decide +kernel

end SchemaForm.Session
