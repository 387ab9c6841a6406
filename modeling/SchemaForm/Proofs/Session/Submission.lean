import SchemaForm.Proofs.Session.Robust

/-!
# The two halves of a submission

`handle_submit` runs up to the call of `on_submit`, and runs on when the handler has come to its end. This module
says once what comes of either half; whatever is to be known of submissions is read off that.

* `Opening` — what the first half comes to, if the submission is not turned away;
* `handOn` — what is done with the values in between;
* `lowering`, `exec_settle` — the second half, as what listeners are told of and what follows if none of
  them fails.
-/

namespace SchemaForm.Session

variable {inner : Command → SessionM Result} {s t u : State}

/-! ## The first half -/

/-- What comes of the first half of a submission that is not turned away, with the state that it leaves.
Listeners are told twice meanwhile, and either time one of them may fail. -/
inductive Opening (inner : Command → SessionM Result) (s : State) :
    Except Failure (Option (OrderedMap Value)) → State → Prop where
  | stoppedAtCheck {failure : Failure} {t : State}
      (hcheck : exec (apply inner .validateForm) s.validating = (.error failure, t)) :
      Opening inner s (.error failure) t
  | blocked {t : State} (hcheck : exec (apply inner .validateForm) s.validating = (.ok (), t))
      (herrors : t.form.store.errors.isEmpty = false) :
      Opening inner s (.ok none)
        { t with
          phase := .idle
          events := t.events ++ [.blockedSubmission t.form.store.errors.size] }
  | stoppedAtCall {failure : Failure} {t u : State}
      (hcheck : exec (apply inner .validateForm) s.validating = (.ok (), t))
      (herrors : t.form.store.errors.isEmpty = true)
      (hcall : exec (apply inner (.setSubmitting true)) t = (.error failure, u)) :
      Opening inner s (.error failure) u
  | called {t u : State} (hcheck : exec (apply inner .validateForm) s.validating = (.ok (), t))
      (herrors : t.form.store.errors.isEmpty = true)
      (hcall : exec (apply inner (.setSubmitting true)) t = (.ok (), u)) :
      Opening inner s (.ok (some (u.form.store.schema.coerce u.form.store.values)))
        { u with
          phase := .submitting
          events := u.events ++ (u.form.store.schema.coerceEvents u.form.store.values ++
            [.startedSubmission (u.form.store.schema.coerce u.form.store.values).size]) }

/-- The first steps of a submission end in one of the ways of `Opening`. -/
theorem opening_cases (inner : Command → SessionM Result) (s : State) :
    Opening inner s (exec (opening inner) s).1 (exec (opening inner) s).2 := by
  have henter : exec (enter .validating) s = (.ok (), s.validating) := rfl
  rw [opening, exec_bind_of_ok henter, validateForm]
  cases hcheck : exec (apply inner .validateForm) s.validating with
  | mk result t =>
    cases result with
    | error failure =>
      rw [exec_bind_of_error (exec_bind_of_error hcheck)]
      exact .stoppedAtCheck hcheck
    | ok _ =>
      -- what counts is what the store holds after the listeners were told
      have hanswer : exec (do apply inner .validateForm; return (← currentStore).errors.isEmpty)
          s.validating = (.ok t.form.store.errors.isEmpty, t) := exec_bind_of_ok hcheck
      rw [exec_bind_of_ok hanswer]
      cases herrors : t.form.store.errors.isEmpty with
      | false => exact .blocked hcheck herrors
      | true =>
        cases hcall : exec (apply inner (.setSubmitting true)) t with
        | mk result u =>
          cases result with
          | error failure =>
            rw [if_pos rfl, exec_bind_of_error hcall]
            exact .stoppedAtCall hcheck herrors hcall
          | ok _ =>
            rw [if_pos rfl, exec_bind_of_ok hcall]
            exact .called (u := u) hcheck herrors hcall

theorem opening_of_eq {result : Except Failure (Option (OrderedMap Value))}
    (hadmitted : s.rejects = false) (hopen : exec (openSubmission inner) s = (result, t)) : Opening inner s result t := by
  have hcases := opening_cases inner s
  rwa [← exec_openSubmission hadmitted, hopen] at hcases

/-- A submission that is turned away comes to nothing. -/
theorem rejects_eq_false_of_ok {opened : Option (OrderedMap Value)}
    (hopen : exec (openSubmission inner) s = (.ok opened, t)) : s.rejects = false := by
  cases hrejects : s.rejects with
  | false => rfl
  | true =>
    rw [exec_openSubmission_of_rejects hrejects] at hopen
    cases hopen

theorem opening_of_ok {opened : Option (OrderedMap Value)}
    (hopen : exec (openSubmission inner) s = (.ok opened, t)) : Opening inner s (.ok opened) t :=
  opening_of_eq (rejects_eq_false_of_ok hopen) hopen

/-! ## The handler -/

/-- How the handler of a submission comes to its end, if somebody takes the values. -/
def State.handlerOutcome (s : State) (handler : Reaction Command) : Option Failure :=
  if s.form.takesSubmissions then handler.exception.map .host else none

/-- What is done with the values between the two halves of a submission. -/
def handOn (inner : Command → SessionM Result) (handler : Reaction Command)
    (values : OrderedMap Value) : SessionM Unit := do
  if (← currentForm).takesSubmissions then receive inner values handler
  else log [.discardedValues values.size]

theorem exec_handOn_eq (handler : Reaction Command) (values : OrderedMap Value) (s : State) :
    exec (handOn inner handler values) s =
      exec (if s.form.takesSubmissions then receive inner values handler
        else log [.discardedValues values.size]) s := by
  rw [handOn, exec_bind_of_ok (exec_currentForm s)]

/-- A handler gets the values once, and its commands do not stop it. -/
theorem exec_receive (inner : Command → SessionM Result) (handler : Reaction Command)
    (values : OrderedMap Value) (s : State) :
    ∃ t, exec (receive inner values handler) s = (.ok (), t) ∧
      t.journal.received = s.journal.received ++ [values] := by
  rw [receive, exec_bind_of_ok (exec_note _ s)]
  obtain ⟨t, hexec, -, hreceived⟩ := exec_reportAll inner handler.commands
    { s with journal := { s.journal with received := s.journal.received ++ [values] } }
  exact ⟨t, hexec, hreceived⟩

theorem exec_handOn (inner : Command → SessionM Result) (handler : Reaction Command)
    (values : OrderedMap Value) (s : State) :
    ∃ t, exec (handOn inner handler values) s = (.ok (), t) ∧
      t.journal.received =
        s.journal.received ++ (if s.form.takesSubmissions then [values] else []) := by
  rw [exec_handOn_eq]
  cases s.form.takesSubmissions with
  | true => exact exec_receive inner handler values s
  | false => exact ⟨_, rfl, (List.append_nil _).symm⟩

theorem Robust.keeps_handOn {L : Command → Prop} {P : State → Prop} (hP : Robust L P)
    {handler : Reaction Command} (hhandler : Keeps P (reportAll inner handler.commands))
    (values : OrderedMap Value) : Keeps P (handOn inner handler values) := by
  refine Keeps.bind Keeps.currentForm fun form => ?_
  split
  · exact keeps_receive (hP.keeps_received values) hhandler
  · exact hP.keeps_log _

/-! ## The second half -/

/-- The second half of a submission as far as listeners are told of it. -/
def lowering (inner : Command → SessionM Result) (outcome : Option Failure) : SessionM Unit := do
  if outcome.any Failure.isOrdinary then log [.failedSubmission]
  apply inner (.setSubmitting false)

/-- What comes of a submission whose handler has come to this end. -/
def conclusion : Option Failure → Except Failure Bool
  | some failure => .error failure
  | none => .ok true

/-- What is reported of a submission that has come to its end. -/
def concludingEvents : Option Failure → List Event
  | some _ => []
  | none => [.finishedSubmission]

/-- The second half of a submission lowers the flag; unless a listener raises then, the phase and the outcome
follow. -/
theorem exec_settle (inner : Command → SessionM Result) (outcome : Option Failure) (s : State) :
    exec (settle inner outcome) s =
      match exec (lowering inner outcome) s with
      | (.ok _, t) =>
        (conclusion outcome, { t with phase := .idle, events := t.events ++ concludingEvents outcome })
      | (.error failure, t) => (.error failure, t) := by
  have hsettle : settle inner outcome = do
      lowering inner outcome
      enter .idle
      match outcome with
      | some failure => throw failure
      | none =>
        log [.finishedSubmission]
        return true := by
    unfold settle lowering
    cases outcome with
    | none => simp
    | some failure => cases hordinary : failure.isOrdinary <;> simp [hordinary]
  rw [hsettle, exec_bind]
  cases hlower : exec (lowering inner outcome) s with
  | mk result t =>
    cases result with
    | error failure => rfl
    | ok _ =>
      dsimp only
      rw [exec_bind_of_ok (exec_enter .idle t)]
      cases outcome with
      | some failure => simp [conclusion, concludingEvents]
      | none => rfl

/-- A submission that has come to its handler hands on the values, and then runs on. -/
theorem exec_submit_of_opened {values : OrderedMap Value} {handler : Reaction Command}
    (hopen : exec (openSubmission inner) s = (.ok (some values), u)) :
    exec (submit inner handler) s =
      exec (do handOn inner handler values; settle inner (u.handlerOutcome handler)) u := by
  rw [submit, exec_bind_of_ok hopen, exec_bind (handOn inner handler values), exec_handOn_eq]
  dsimp only
  rw [exec_bind_of_ok (exec_currentForm u), State.handlerOutcome]
  cases u.form.takesSubmissions with
  | true => exact exec_bind ..
  | false => exact exec_bind ..

/-- A submission that waits for its end is looked up by its name. -/
theorem exec_takeSubmission (id : String) (s : State) :
    exec (takeSubmission id) s =
      match s.submissions.get? id with
      | some exception => (.ok exception, { s with submissions := s.submissions.erase id })
      | none => (.error (.unknown id), s) := by
  rw [takeSubmission, exec_bind_of_ok (exec_get s)]
  cases s.submissions.get? id <;> rfl

/-! ## An example -/

/-- One text, which may be left empty. -/
def remark : Schema :=
  { title := none, description := none, properties := .ofList [("remark", {})], required := [] }

end SchemaForm.Session
