import SchemaForm.Proofs.Session.Apart

/-!
# Submissions in flight

A submission takes its time: `on_submit` is called, and comes to its end later. Meanwhile the host goes on
using the form, and may call `submit` again. What happens between two moments at which the host waits is
one step, and steps of different submissions may follow each other in any order.

* `Milestone`, `inFlight` — what becomes of submissions, and how many handlers are at work;
* `Interleaving` — the states between steps, with the milestones so far;
* `Interleaving.abides` — the note that a submission is under way, and the phase of the form, tell of the
  last milestones only;
* `flag_right_iff` — when the two are right about the handlers at work;
* `exclusion` — if the form turns submissions away, there is never more than one handler at work.

A listener is called in the middle of a step. It may do anything to the form but submit it, which it has
to leave for later.
-/

namespace SchemaForm.Session

/-! ## Milestones -/

/-- What becomes of a submission. -/
inductive Milestone where
  /-- Its handler was called. -/
  | called
  /-- Its handler has come to an end. -/
  | ended
  /-- It was stopped by the rules. -/
  | blocked
  deriving DecidableEq, Repr

/-- How many handlers are at work. Here and below the last milestone is the first of the list. -/
def inFlight : List Milestone → Nat
  | [] => 0
  | .called :: earlier => inFlight earlier + 1
  | .ended :: earlier => inFlight earlier - 1
  | .blocked :: earlier => inFlight earlier

/-- Whether no handler has come to an end since the last one was called. -/
def noneEndedSince : List Milestone → Bool
  | [] => false
  | .called :: _ => true
  | .ended :: _ => false
  | .blocked :: earlier => noneEndedSince earlier

/-- Whether the last milestone is that a handler was called. -/
def lastCalled : List Milestone → Bool
  | .called :: _ => true
  | _ => false

theorem inFlight_pos_of_noneEndedSince {history : List Milestone} (h : noneEndedSince history = true) :
    0 < inFlight history := by
  induction history with
  | nil => cases h
  | cons milestone earlier ih =>
    cases milestone with
    | called => exact Nat.succ_pos _
    | ended => cases h
    | blocked => exact ih h

theorem noneEndedSince_of_lastCalled {history : List Milestone} (h : lastCalled history = true) :
    noneEndedSince history = true := by
  cases history with
  | nil => cases h
  | cons milestone earlier =>
    cases milestone with
    | called => rfl
    | ended => cases h
    | blocked => cases h

/-! ## Steps in any order -/

/-- The states between the steps of a host that leaves it to submissions to say whether one is under way,
and whose listeners do not fail in the middle of one. -/
inductive Interleaving (form : Form) : List Milestone → State → Prop where
  | new : Interleaving form [] (.ofForm form)
  /-- Anything that leaves submissions alone: writes, checks, resets, views, drafts, and listeners that
  come and go. -/
  | aside {history : List Milestone} {s : State} (depth : Nat) {command : Command}
      (hcommand : command.Apart) (h : Interleaving form history s) :
      Interleaving form history (exec (perform depth command) s).2
  /-- The host writes something down. -/
  | noted {history : List Milestone} {s : State} (journal : Journal)
      (submissions : OrderedMap (Option HostException)) (events : List Event)
      (h : Interleaving form history s) :
      Interleaving form history { s with journal, submissions, events }
  /-- A submission begins, and is turned away. -/
  | rejected {history : List Milestone} {s : State} (depth : Nat) (hrejects : s.rejects = true)
      (h : Interleaving form history s) :
      Interleaving form history (exec (openSubmission (perform depth)) s).2
  /-- A submission begins, and is stopped by the rules. -/
  | blocked {history : List Milestone} {s t : State} (depth : Nat)
      (hopen : exec (openSubmission (perform depth)) s = (.ok none, t))
      (h : Interleaving form history s) : Interleaving form (.blocked :: history) t
  /-- A submission begins, and its handler is called. -/
  | called {history : List Milestone} {s t : State} {values : OrderedMap Value} (depth : Nat)
      (hopen : exec (openSubmission (perform depth)) s = (.ok (some values), t))
      (h : Interleaving form history s) : Interleaving form (.called :: history) t
  /-- One of the handlers at work comes to its end, whichever it is and whatever comes of it. -/
  | ended {history : List Milestone} {s t : State} (depth : Nat) (outcome : Option Failure)
      (hlower : exec (lowering (perform depth) outcome) s = (.ok (), t))
      (hflight : 0 < inFlight history) (h : Interleaving form history s) :
      Interleaving form (.ended :: history) (exec (settle (perform depth) outcome) s).2

namespace Interleaving

variable {form : Form} {history : List Milestone} {s : State}

/-- What the form knows of submissions after these milestones. -/
def bearing (form : Form) (history : List Milestone) : Bearing where
  submitting := noneEndedSince history
  phase := if lastCalled history then .submitting else .idle
  rejectsConcurrent := form.rejectsConcurrent

/-- By induction over the steps: a step apart changes nothing, and each of the others writes the flag and
the phase as its milestone says, whatever they were before. -/
theorem abides (hform : form.store.submitting = false) (h : Interleaving form history s) :
    Abides (bearing form history) s := by
  induction h with
  | new => exact abides_ofForm hform
  | aside depth hcommand _ ih => exact ih.perform depth hcommand
  | noted _ _ _ _ ih => exact ⟨⟨ih.1.present, ih.1.named⟩, ih.2⟩
  | rejected depth hrejects _ ih =>
    rw [exec_openSubmission_of_rejects hrejects]
    exact ⟨⟨ih.1.present, ih.1.named⟩, ih.2⟩
  | blocked depth hopen _ ih => exact ih.blocked hopen
  | called depth hopen _ ih => exact ih.called hopen
  | ended depth outcome hlower _ _ ih => exact ih.settle hlower

/-- The flag tells whether the last handler that was called is followed by the end of one. -/
theorem submitting_eq (hform : form.store.submitting = false) (h : Interleaving form history s) :
    s.form.store.submitting = noneEndedSince history :=
  congrArg Bearing.submitting (h.abides hform).2

theorem phase_eq_submitting_iff (hform : form.store.submitting = false)
    (h : Interleaving form history s) : s.phase = .submitting ↔ lastCalled history = true := by
  have hphase : s.phase = if lastCalled history then .submitting else .idle :=
    congrArg Bearing.phase (h.abides hform).2
  rw [hphase]
  cases lastCalled history <;> simp

theorem rejects_eq (hform : form.store.submitting = false) (h : Interleaving form history s) :
    s.rejects = (noneEndedSince history && form.rejectsConcurrent) :=
  (h.abides hform).rejects_eq

/-! ## One at a time -/

/-- If the form turns submissions away, the milestones take turns: a handler is called only while none is
at work, and nothing happens to other submissions before it has come to its end. -/
theorem alternates (hform : form.store.submitting = false) (hrejects : form.rejectsConcurrent = true)
    (h : Interleaving form history s) :
    noneEndedSince history = lastCalled history ∧
      inFlight history = if lastCalled history then 1 else 0 := by
  induction h with
  | new => exact ⟨rfl, rfl⟩
  | aside _ _ _ ih => exact ih
  | noted _ _ _ _ ih => exact ih
  | rejected _ _ _ ih => exact ih
  | @blocked earlier s t depth hopen h ih =>
    -- a submission that is not turned away has found that none is under way
    have hidle : noneEndedSince earlier = false := by
      have hadmitted := rejects_eq_false_of_ok hopen
      rwa [h.rejects_eq hform, hrejects, Bool.and_true] at hadmitted
    rw [← ih.1, hidle] at ih
    exact ⟨hidle, ih.2⟩
  | @called earlier s t values depth hopen h ih =>
    have hidle : noneEndedSince earlier = false := by
      have hadmitted := rejects_eq_false_of_ok hopen
      rwa [h.rejects_eq hform, hrejects, Bool.and_true] at hadmitted
    rw [← ih.1, hidle] at ih
    exact ⟨rfl, congrArg (· + 1) ih.2⟩
  | @ended earlier s t depth outcome hlower hflight h ih =>
    -- the one that ends was the only one
    refine ⟨rfl, ?_⟩
    show inFlight earlier - 1 = 0
    rw [ih.2]
    split <;> rfl

theorem inFlight_le_one (hform : form.store.submitting = false)
    (hrejects : form.rejectsConcurrent = true) (h : Interleaving form history s) : inFlight history ≤ 1 := by
  rw [(h.alternates hform hrejects).2]
  split <;> decide

theorem submitting_iff (hform : form.store.submitting = false) (hrejects : form.rejectsConcurrent = true)
    (h : Interleaving form history s) : s.form.store.submitting = true ↔ inFlight history = 1 := by
  rw [h.submitting_eq hform, (h.alternates hform hrejects).1, (h.alternates hform hrejects).2]
  split <;> simp_all

end Interleaving

variable {history : List Milestone} {s : State}

/-- **The flag and the phase are right as long as submissions do not overlap.** The form says that a
submission is under way exactly while a handler is at work, unless one of several that were at work has
come to its end since the last one was called; and its phase is right unless in that time one has come to
its end or was stopped by the rules. A form that turns submissions away is always right. -/
theorem flag_right_iff (settings : Settings) (schema : Schema) (layout? : Option Layout)
    (options : FormOptions)
    (h : Interleaving (.ofSchema settings schema layout? options) history s) :
    ((s.form.store.submitting = true ↔ 0 < inFlight history) ↔
      (0 < inFlight history → noneEndedSince history = true)) ∧
    ((s.phase = .submitting ↔ 0 < inFlight history) ↔
      (0 < inFlight history → lastCalled history = true)) ∧
    ((Form.ofSchema settings schema layout? options).rejectsConcurrent = true →
      (s.form.store.submitting = true ↔ 0 < inFlight history) ∧
      (s.phase = .submitting ↔ 0 < inFlight history)) := by
  have hflag : s.form.store.submitting = true ↔ noneEndedSince history = true := by
    rw [h.submitting_eq rfl]
  have hphase := h.phase_eq_submitting_iff rfl
  refine ⟨?_, ?_, fun hrejects => ?_⟩
  · rw [hflag]
    exact ⟨fun hright => hright.mpr, fun hright => ⟨inFlight_pos_of_noneEndedSince, hright⟩⟩
  · rw [hphase]
    refine ⟨fun hright => hright.mpr, fun hright => ⟨fun hcalled => ?_, hright⟩⟩
    exact inFlight_pos_of_noneEndedSince (noneEndedSince_of_lastCalled hcalled)
  · obtain ⟨hsame, hcount⟩ := h.alternates rfl hrejects
    rw [hflag, hphase, hsame, hcount]
    cases lastCalled history <;> simp

/-- A form that lets submissions overlap. -/
def overlapping : FormOptions := { rejectsConcurrent := some false, takesSubmissions := true }

/-- The state after a submission has come to the call of its handler. -/
def submitted (s : State) : State := (exec (openSubmission (perform 1)) s).2

/-- The first of two handlers is called, -/
def onceSubmitted : State := submitted (.ofForm (.ofSchema {} remark none overlapping))

/-- the second is called, -/
def twiceSubmitted : State := submitted onceSubmitted

/-- and one of them comes to its end. -/
def onceEnded : State := (exec (settle (perform 1) none) twiceSubmitted).2

theorem interleaving_onceEnded :
    Interleaving (.ofSchema {} remark none overlapping) [.ended, .called, .called] onceEnded := by
  let written : OrderedMap Value := .ofList [("remark", .text "")]
  have hfirst : exec (openSubmission (perform 1)) (.ofForm (.ofSchema {} remark none overlapping)) =
      (.ok (some written), onceSubmitted) := rfl
  have hsecond : exec (openSubmission (perform 1)) onceSubmitted =
      (.ok (some written), twiceSubmitted) := rfl
  have hend : (exec (lowering (perform 1) none) twiceSubmitted).1 = .ok () := rfl
  exact .ended 1 none (Prod.ext hend rfl) (by decide) (.called 1 hsecond (.called 1 hfirst .new))

theorem flag_right_iff_onceEnded :
    Interleaving (.ofSchema {} remark none overlapping) [.ended, .called, .called] onceEnded ∧
      0 < inFlight [.ended, .called, .called] ∧
      ¬(onceEnded.form.store.submitting = true ↔ 0 < inFlight [.ended, .called, .called]) ∧
      ¬(onceEnded.phase = .submitting ↔ 0 < inFlight [.ended, .called, .called]) := by
  have hflight : 0 < inFlight [.ended, .called, .called] := by decide
  obtain ⟨hflag, hphase, -⟩ := flag_right_iff {} remark none overlapping interleaving_onceEnded
  refine ⟨interleaving_onceEnded, hflight, ?_, ?_⟩
  · rw [hflag]
    exact fun h => Bool.false_ne_true (h hflight)
  · rw [hphase]
    exact fun h => Bool.false_ne_true (h hflight)

/-- The second handler is at work when the first comes to its end, but the form says that no submission is
under way. -/
theorem flag_lowered_while_in_flight :
    let session := [.start "first" {}, .start "second" {}, .finish "first"]
    let s := (run (.ofSchema {} remark none overlapping) session).2
    s.submissions.keys = ["second"] ∧ s.form.store.submitting = false ∧ s.phase = .idle := by
  decide +kernel

/-- **There is never more than one handler at work if the form turns submissions away.** An attempt is
turned away exactly while there is one. It leaves everything as it was but for one event, and tells
nobody. -/
theorem exclusion (settings : Settings) (schema : Schema) (layout? : Option Layout)
    (options : FormOptions)
    (hrejects : (Form.ofSchema settings schema layout? options).rejectsConcurrent = true)
    (h : Interleaving (.ofSchema settings schema layout? options) history s) :
    inFlight history ≤ 1 ∧
    (∀ depth, (exec (openSubmission (perform depth)) s).1 = .error .submissionInProgress ↔
      inFlight history = 1) ∧
    (inFlight history = 1 → ∀ depth event id handler,
      let rejected : Except Failure Result × State :=
        (.error .submissionInProgress, { s with events := s.events ++ [.rejectedSubmission] })
      exec (perform (depth + 1) (.submit event handler)) s = rejected ∧
      exec (perform (depth + 1) (.start id handler)) s = rejected) := by
  have hiff : s.rejects = true ↔ inFlight history = 1 := by
    rw [h.rejects_eq rfl, hrejects, Bool.and_true, ← h.submitting_iff rfl hrejects,
      h.submitting_eq rfl]
  refine ⟨h.inFlight_le_one rfl hrejects, fun depth => ?_, fun hflight depth event id handler => ?_⟩
  · rw [openSubmission_rejected_iff (h.abides rfl).1, hiff]
  · have hdue := hiff.mpr hflight
    exact ⟨exec_bind_of_error (exec_submit_of_rejects hdue), exec_start_of_rejects hdue⟩

/-- The first of two submissions to a form that turns the second away. -/
def underWay : State :=
  submitted (.ofForm (.ofSchema {} remark none { takesSubmissions := true }))

theorem exclusion_underWay :
    let form : Form := .ofSchema {} remark none { takesSubmissions := true }
    form.rejectsConcurrent = true ∧ Interleaving form [.called] underWay ∧ inFlight [.called] = 1 ∧
      (exec (openSubmission (perform 1)) underWay).1 = .error .submissionInProgress ∧
      exec (perform 1 (.start "second" {})) underWay =
        (.error .submissionInProgress,
          { underWay with events := underWay.events ++ [.rejectedSubmission] }) := by
  intro form
  let written : OrderedMap Value := .ofList [("remark", .text "")]
  have hopen : exec (openSubmission (perform 1)) (.ofForm form) = (.ok (some written), underWay) := rfl
  have hway : Interleaving form [.called] underWay := .called 1 hopen .new
  obtain ⟨-, hiff, hrejected⟩ := exclusion {} remark none { takesSubmissions := true } rfl hway
  exact ⟨rfl, hway, rfl, (hiff 1).mpr rfl, (hrejected rfl 0 false "second" {}).2⟩

end SchemaForm.Session
