import SchemaForm.Proofs.Session.Gate

/-!
# What handlers were given

What is noted of a handler stays noted. The first values of which a report tells are therefore those of the
submission that is reported, even if a listener of the handler submits the form again before it is over.

* `State.Began` — what handlers were given first;
* `keeps_began` — no command changes that;
* `run_submit` — the report of a submission with which a session begins.
-/

namespace SchemaForm.Session

variable {inner : Command → SessionM Result} {first : List (OrderedMap Value)} {s t : State}

/-! ## Notes of handlers -/

/-- Handlers were given these values before all others. -/
def State.Began (first : List (OrderedMap Value)) (s : State) : Prop := first <+: s.journal.received

theorem State.Began.of_received (h : s.Began first) (hreceived : t.journal.received = s.journal.received) :
    t.Began first := by
  rw [Began, hreceived]
  exact h

theorem robust_began (first : List (OrderedMap Value)) : Robust (fun _ => True) (State.Began first) where
  gives _ _ _ _ _ := trivial
  keeps_log _ _ h := h
  keeps_note _ hreceived s h := h.of_received (hreceived s.journal)
  keeps_removeListener _ _ h := h
  addNamed _ _ _ _ h := h
  keeps_received _ _ h := h.trans (List.prefix_append _ _)

theorem keeps_began_reportAll (inner : Command → SessionM Result) (commands : List Command) :
    Keeps (State.Began first) (reportAll inner commands) := by
  intro s h
  obtain ⟨t, hexec, -, hreceived⟩ := exec_reportAll inner commands s
  rw [hexec]
  exact h.of_received hreceived

theorem keeps_began_takeSubmission (id : String) : Keeps (State.Began first) (takeSubmission id) := by
  intro s h
  rw [exec_takeSubmission]
  cases s.submissions.get? id <;> exact h

/-- By induction on the depth: listeners give their commands one level deeper. -/
theorem keeps_began (depth : Nat) (command : Command) :
    Keeps (State.Began first) (perform depth command) := by
  induction depth generalizing command with
  | zero => exact Keeps.throw .endless
  | succ depth ih =>
    refine (robust_began first).keeps_step (fun given _ => ih given) (fun _ _ _ h => h)
      (fun _ _ h => h) (keeps_began_reportAll _ _) (fun _ _ _ h => h) (fun id _ => ⟨?_, fun _ _ h => h⟩)
      (robust_began first).delivers
    exact keeps_began_takeSubmission id

/-! ## Submissions -/

/-- A submission that comes to its handler gives it the values that it found, before anything else is handed
on. Nothing is known of what the handler brings about. -/
theorem began_submit (depth : Nat) {handler : Reaction Command} (hs : Peopled Listener.Quiet s)
    (hadmitted : s.rejects = false) (hpasses : s.passes = true) (htakes : s.form.takesSubmissions = true)
    (hnew : s.journal.received = []) :
    (exec (submit (perform depth) handler) s).2.Began [s.coerced] := by
  obtain ⟨t, hopen, ht⟩ := exec_openSubmission_of_quiet (perform depth) hs hadmitted
  rw [hpasses, if_pos rfl] at hopen
  obtain ⟨u, hhand, hu⟩ := exec_handOn (perform depth) handler s.coerced t
  have hreceived : t.journal.received = s.journal.received := ht.received
  have hform : t.form.takesSubmissions = true := by
    rw [ht.form]
    exact htakes
  have hbegan : u.Began [s.coerced] := by
    rw [State.Began, hu, hreceived, hnew, hform]
    exact List.prefix_refl _
  rw [exec_submit_of_opened hopen, exec_bind_of_ok hhand]
  have hend : Keeps (State.Began [s.coerced]) (settle (perform depth) (t.handlerOutcome handler)) :=
    (robust_began _).keeps_settle (fun given _ => keeps_began depth given) (fun _ _ h => h) (fun _ h => h) _
  exact hend u hbegan

/-- A submission that finds a rule broken ends with that, and calls no handler. -/
theorem exec_submit_of_broken (inner : Command → SessionM Result) (handler : Reaction Command)
    (hs : Peopled Listener.Quiet s) (hadmitted : s.rejects = false) (hpasses : s.passes = false) :
    ∃ t, exec (submit inner handler) s = (.ok false, t) ∧ Told s.opened t := by
  obtain ⟨t, hopen, ht⟩ := exec_openSubmission_of_quiet inner hs hadmitted
  rw [hpasses] at hopen
  exact ⟨t, exec_bind_of_ok hopen, ht⟩

/-! ## Sessions -/

/-- A session of one command has its report. -/
theorem run_singleton (form : Form) (command : Command) :
    (run form [command]).1 =
      [reportOf command (exec (perform maxDepth command) (.ofForm form)).1
        (exec (perform maxDepth command) (.ofForm form)).2] := by
  rw [run_eq, reports, exec_bind_of_ok (exec_report command (.ofForm form))]
  rfl

/-- The report of a submission with which a session begins, whatever its handler does: if no rule is
broken, the first values of which it tells are the coerced values of the form, and otherwise it tells of
none. -/
theorem run_submit (form : Form) (hidle : form.store.submitting = false)
    (htakes : form.takesSubmissions = true) (event : Bool) (handler : Reaction Command) :
    let s : State := .ofForm form
    ∃ found, (run form [.submit event handler]).1 = [found] ∧
      (s.passes = true → [s.coerced] <+: found.received) ∧
      (s.passes = false →
        found.received = [] ∧ found.result = .ok (answer event false) ∧ found.after = s.opened.status) := by
  intro s
  have hs : Peopled Listener.Quiet s := peopled_ofForm form
  have hadmitted : s.rejects = false := by
    rw [State.rejects, show s.form.store.submitting = false from hidle, Bool.false_and]
  refine ⟨_, run_singleton form _, fun hpasses => ?_, fun hpasses => ?_⟩
  · have hexec : exec (perform maxDepth (.submit event handler)) s = _ :=
      exec_answer (submit (perform (maxDepth - 1)) handler) (answer event) s
    rw [hexec]
    exact began_submit (maxDepth - 1) hs hadmitted hpasses htakes rfl
  · obtain ⟨t, hsubmit, ht⟩ := exec_submit_of_broken (perform (maxDepth - 1)) handler hs hadmitted hpasses
    have hexec : exec (perform maxDepth (.submit event handler)) s = _ :=
      exec_answer (submit (perform (maxDepth - 1)) handler) (answer event) s
    rw [hexec, hsubmit]
    refine ⟨ht.received, rfl, ?_⟩
    show t.status = s.opened.status
    rw [State.status, ht.form, ht.phase]
    rfl

end SchemaForm.Session
