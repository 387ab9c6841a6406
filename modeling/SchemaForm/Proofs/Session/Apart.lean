import SchemaForm.Proofs.Store
import SchemaForm.Proofs.Session.Submission
import SchemaForm.Proofs.Session.Throughout

/-!
# Commands that leave submissions alone

A listener may call `set_value`, `reset`, `validate_form` or `subscribe`, all in the middle of a submission. As
long as it neither begins nor ends submissions itself, nor calls `set_submitting`, the submission goes on
as if nobody had done anything.

* `Command.Apart` — the commands that may be given at any time;
* `State.bearing` — how a form stands to submissions;
* `Abides` — the listeners give no other commands, and the form stands to submissions as it is said;
* `Abides.perform`, `Abides.blocked`, `Abides.called`, `Abides.settle` — what commands apart leave as it
  is, and what the halves of a submission make of it.
-/

namespace SchemaForm.Session

/-! ## Commands apart -/

/-- The command has nothing to say about a submission. -/
def Command.IsApart (command : Command) : Prop := ∀ flag, .setSubmitting flag ∉ command.operations

/-- Neither the command nor anything that may come of it has to do with submissions. -/
abbrev Command.Apart : Command → Prop := Command.Throughout Command.IsApart

theorem Command.IsApart.not_submits {command : Command} (h : command.IsApart) :
    command.submits = false := by
  cases hsubmits : command.submits with
  | false => rfl
  | true =>
    -- a command that begins or ends a submission says that it is over
    have hmem : .setSubmitting false ∈ command.operations := by
      cases command <;> simp [Command.submits, Command.operations, Command.submission] at hsubmits ⊢
    exact absurd hmem (h false)

/-! ## How a form stands to submissions -/

/-- How a form stands to submissions. -/
structure Bearing where
  submitting : Bool
  phase : Phase
  rejectsConcurrent : Bool
  deriving DecidableEq

def State.bearing (s : State) : Bearing := ⟨s.form.store.submitting, s.phase, s.form.rejectsConcurrent⟩

/-- Listeners give commands apart only, and the form stands to submissions as it is said. -/
abbrev Abides (b : Bearing) : State → Prop := fun s =>
  Peopled (Listener.Gives Command.Apart) s ∧ s.bearing = b

theorem indifferent_bearing (b : Bearing) : Indifferent Command.IsApart fun s => s.bearing = b where
  events _ h := h
  journal _ h := h
  listeners _ _ _ h := h
  writes := by
    intro command hcommand operation hmem s h
    have hsubmitting : (s.form.store.apply operation).store.submitting = s.form.store.submitting := by
      refine s.form.store.submitting_apply ?_
      rintro flag rfl
      exact hcommand flag hmem
    rw [← h]
    show Bearing.mk _ _ _ = Bearing.mk _ _ _
    exact congrArg (Bearing.mk · s.phase s.form.rejectsConcurrent) hsubmitting
  phase hcommand hsubmits := by
    rw [hcommand.not_submits] at hsubmits
    cases hsubmits
  submissions _ _ _ _ h := ⟨h, fun _ => h⟩

theorem kept_abides (b : Bearing) : Kept Command.IsApart (Abides b) :=
  kept_peopled (fun _ h => h) (fun hcommand _ => hcommand.listener) (indifferent_bearing b)

/-- A submission is turned away only if that is due when it begins. Listeners that give commands apart
cannot make it fail with that reason later, whatever else they make of it. -/
theorem openSubmission_rejected_iff {s : State} {depth : Nat}
    (hs : Peopled (Listener.Gives Command.Apart) s) :
    (exec (openSubmission (perform depth)) s).1 = .error .submissionInProgress ↔ s.rejects = true := by
  have hkept : Kept Command.IsApart (Peopled (Listener.Gives Command.Apart)) :=
    kept_listeners (fun _ h => h) fun hcommand _ => hcommand.listener
  have hopening : Ensures (Peopled (Listener.Gives Command.Apart)) (· ≠ .submissionInProgress)
      (opening (perform depth)) := by
    refine hkept.robust.ensures_opening (fun _ h => h)
      (hkept.unrefused_perform Command.IsApart.not_submits depth) ?_ ?_
    · exact fun _ _ h => ⟨h.present, h.named⟩
    · exact fun _ _ _ h => ⟨h.present, h.named⟩
  constructor
  · intro hrefused
    cases hrejects : s.rejects with
    | true => rfl
    | false =>
      rw [exec_openSubmission hrejects] at hrefused
      exact absurd rfl (hopening.reason s hs _ hrefused)
  · intro hrejects
    rw [exec_openSubmission_of_rejects hrejects]

theorem abides_ofForm {form : Form} (h : form.store.submitting = false) :
    Abides ⟨false, .idle, form.rejectsConcurrent⟩ (.ofForm form) := by
  refine ⟨peopled_ofForm form, ?_⟩
  rw [← h]
  rfl

namespace Abides

variable {b : Bearing} {s t : State} {depth : Nat}

/-- Whatever comes of a command apart, also if it fails: the form stands to submissions as before. -/
theorem perform (hs : Abides b s) (depth : Nat) {command : Command} (hcommand : command.Apart) :
    Abides b (exec (perform depth command) s).2 :=
  (kept_abides b).perform depth command hcommand s hs

theorem rejects_eq (hs : Abides b s) : s.rejects = (b.submitting && b.rejectsConcurrent) := by
  rw [← hs.2]
  rfl

/-- Listeners cannot change what an operation does to the bearing of the form, even if they fail. -/
theorem apply {result : Except Failure Unit} {operation : Store.Operation} {b' : Bearing}
    (hs : Peopled (Listener.Gives Command.Apart) s)
    (hwritten : (s.written operation).bearing = b')
    (hexec : exec (apply (Session.perform depth) operation) s = (result, t)) : Abides b' t := by
  have h := (kept_abides b').robust.after_apply ((kept_abides b').perform depth)
    ⟨⟨hs.present, hs.named⟩, hwritten⟩
  rwa [hexec] at h

theorem check {result : Except Failure Unit} (hs : Abides b s)
    (hcheck : exec (Session.apply (Session.perform depth) .validateForm) s.validating = (result, t)) :
    Abides { b with phase := .validating } t := by
  have hvalidating : Peopled (Listener.Gives Command.Apart) s.validating := ⟨hs.1.present, hs.1.named⟩
  refine apply hvalidating ?_ hcheck
  rw [← hs.2]
  rfl

theorem call {result : Except Failure Unit} {flag : Bool} (hs : Abides b s)
    (hcall : exec (Session.apply (Session.perform depth) (.setSubmitting flag)) s = (result, t)) :
    Abides { b with submitting := flag } t := by
  refine apply hs.1 ?_ hcall
  rw [← hs.2]
  simp [State.bearing, State.written, Form.withStore, Store.apply]

theorem enter (hs : Abides b s) (phase : Phase) (events : List Event) :
    Abides { b with phase } { s with phase, events } := by
  refine ⟨⟨hs.1.present, hs.1.named⟩, ?_⟩
  rw [← hs.2]
  rfl

/-- An attempt that is stopped by the rules leaves the form idle, but does not say that no submission is
under way. -/
theorem blocked (hs : Abides b s)
    (hopen : exec (openSubmission (Session.perform depth)) s = (.ok none, t)) :
    Abides { b with phase := .idle } t := by
  cases opening_of_ok hopen with
  | blocked hcheck _ => exact (hs.check hcheck).enter .idle _

/-- An attempt that comes to the call of its handler. -/
theorem called (hs : Abides b s) {values : OrderedMap Value}
    (hopen : exec (openSubmission (Session.perform depth)) s = (.ok (some values), t)) :
    Abides { b with submitting := true, phase := .submitting } t := by
  cases opening_of_ok hopen with
  | called hcheck _ hcall => exact ((hs.check hcheck).call hcall).enter .submitting _

theorem lowering {result : Except Failure Unit} {outcome : Option Failure} (hs : Abides b s)
    (hlower : exec (lowering (Session.perform depth) outcome) s = (result, t)) :
    Abides { b with submitting := false } t := by
  rw [Session.lowering] at hlower
  split at hlower
  · rw [exec_bind_of_ok (exec_log _ s)] at hlower
    have hlogged : Abides b { s with events := s.events ++ [.failedSubmission] } :=
      ⟨⟨hs.1.present, hs.1.named⟩, hs.2⟩
    exact hlogged.call hlower
  · exact hs.call hlower

/-- A submission that comes to its end with no listener failing. -/
theorem settle {outcome : Option Failure} (hs : Abides b s)
    (hlower : exec (Session.lowering (Session.perform depth) outcome) s = (.ok (), t)) :
    Abides { b with submitting := false, phase := .idle }
      (exec (settle (Session.perform depth) outcome) s).2 := by
  rw [exec_settle, hlower]
  exact (hs.lowering hlower).enter .idle _

end Abides

end SchemaForm.Session
