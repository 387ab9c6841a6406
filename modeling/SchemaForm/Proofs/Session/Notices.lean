import SchemaForm.Proofs.Session.Messages
import SchemaForm.Proofs.Session.Operations
import SchemaForm.Proofs.Session.Quiet
import SchemaForm.Proofs.View.Refresh

/-!
# Following a form by its notices

A host that renders a form anew whenever `_notify` calls it has to be called for every change, and when the
change is done. This module shows both, for hosts that render only what the notice names.

* `State.calls` — the calls of all listeners that one notice brings about;
* `State.failing` — the same listeners, each of which fails as soon as it is called: the form that such
  an operation leaves is the form that was there when the first of them was called;
* `rendering_follows_notices` — a listener is called once or not at all, at the end of the operation, and
  what it is told is enough to keep a view up to date.
-/

namespace SchemaForm.Session

variable {inner : Command → SessionM Result} {s : State}

/-! ## Calls of listeners -/

namespace State

/-- The calls of all listeners with a notice, if there is one. -/
def calls (s : State) : Option Notice → List (String × Notice)
  | some notice => s.listeners.map fun listener => (listener.id, notice)
  | none => []

/-- The state in which every listener fails with this exception as soon as it is called. -/
def failing (s : State) (exception : HostException) : State :=
  { s with listeners := s.listeners.map fun listener =>
      { listener with reaction := { exception := some exception } } }

theorem gives_failing (s : State) (exception : HostException) :
    ∀ listener ∈ (s.failing exception).listeners, listener.Gives Never := by
  intro listener hmem
  obtain ⟨_, -, rfl⟩ := List.mem_map.mp hmem
  exact fun _ hgiven => absurd hgiven List.not_mem_nil

theorem firstException_failing (s : State) (exception : HostException) :
    firstException (s.failing exception).listeners =
      if s.listeners = [] then none else some exception := by
  rw [failing]
  cases s.listeners with
  | nil => rfl
  | cons listener rest => rfl

end State

/-- A quiet listener notes what it is told, and lets the others be told. -/
theorem exec_tellListener_of_quiet (inner : Command → SessionM Result) (notice : Notice)
    {listener : Listener} (h : listener.Quiet) (s : State) :
    ∃ t, exec (tellListener inner notice listener) s = (.ok (), t) ∧ t.form = s.form ∧
      t.journal.notes = s.journal.notes ++ [(listener.id, notice)] := by
  rw [tellListener, exec_bind_of_ok (exec_note _ s),
    exec_bind_of_ok (exec_giveAll_of_never (h.gives Never) _), h.exception]
  dsimp only
  split
  · exact ⟨_, rfl, rfl, rfl⟩
  · exact ⟨_, rfl, rfl, rfl⟩

/-- Quiet listeners are told one after the other, each of them once. -/
theorem exec_tellAll_of_quiet (inner : Command → SessionM Result) (notice : Notice)
    {listeners : List Listener} (h : ∀ listener ∈ listeners, listener.Quiet) (s : State) :
    ∃ t, exec (tellAll inner notice listeners) s = (.ok (), t) ∧ t.form = s.form ∧
      t.journal.notes = s.journal.notes ++ listeners.map fun listener => (listener.id, notice) := by
  induction listeners generalizing s with
  | nil => exact ⟨s, rfl, rfl, (List.append_nil _).symm⟩
  | cons listener rest ih =>
    obtain ⟨t, hfirst, hform, hnotes⟩ :=
      exec_tellListener_of_quiet inner notice (h listener (List.mem_cons_self ..)) s
    obtain ⟨u, hothers, hformu, hnotesu⟩ :=
      ih (fun other hmem => h other (List.mem_cons_of_mem _ hmem)) t
    rw [tellAll, exec_bind_of_ok hfirst]
    refine ⟨u, hothers, hformu.trans hform, ?_⟩
    rw [hnotesu, hnotes, List.append_assoc]
    rfl

/-- An operation under quiet listeners: the calls, and the form that it leaves. -/
theorem exec_apply_calls (inner : Command → SessionM Result)
    (h : ∀ listener ∈ s.listeners, listener.Quiet) (operation : Store.Operation) :
    ∃ t, exec (apply inner operation) s = (.ok (), t) ∧ t.form = (s.written operation).form ∧
      t.journal.notes = s.journal.notes ++ s.calls (s.form.store.apply operation).notice := by
  rw [exec_apply_eq]
  cases (s.form.store.apply operation).notice with
  | none => exact ⟨_, rfl, rfl, (List.append_nil _).symm⟩
  | some notice => exact exec_tellAll_of_quiet inner notice h _

/-- An operation under listeners that fail at once leaves the same form, for everything was written
before the first of them was called. -/
theorem exec_apply_failing (inner : Command → SessionM Result) (s : State)
    (operation : Store.Operation) (exception : HostException) :
    ∃ u, exec (apply inner operation) (s.failing exception) =
        (if s.calls (s.form.store.apply operation).notice = [] then .ok () else .error (.host exception),
          u) ∧ u.form = (s.written operation).form := by
  cases hnotice : (s.form.store.apply operation).notice with
  | none =>
    have hsilent : ((s.failing exception).form.store.apply operation).notice = none := hnotice
    rw [exec_apply_eq, hsilent]
    exact ⟨_, rfl, rfl⟩
  | some notice =>
    have hfailing : ((s.failing exception).form.store.apply operation).notice = some notice := hnotice
    obtain ⟨u, hexec, hleft⟩ := exec_apply inner (s.gives_failing exception) operation hfailing
    refine ⟨u, hexec.trans ?_, hleft.form⟩
    rw [s.firstException_failing exception, State.calls]
    cases s.listeners <;> rfl

/-! ## Rendering -/

/-- **A host that follows the notices shows what the form shows.** When one of the six operations is done
while nobody but quiet listeners is there, every listener is called with the same notice, once for each
time that it was added, or none is called. A listener that fails at once ends the operation, but finds
the form as the operation leaves it. Without a notice, the snapshot and the view are as before. If the
notice names a property, the new view is the old one with its widgets for that property bound anew, so
that the heading, the buttons and all other widgets are as before. -/
theorem rendering_follows_notices {s : State} (hquiet : ∀ listener ∈ s.listeners, listener.Quiet)
    (operation : Store.Operation) (depth : Nat) :
    ∃ (notice? : Option Notice) (result : Result) (t : State),
      exec (perform (depth + 1) (.ofOperation operation)) s = (.ok result, t) ∧
      t.journal.notes = s.journal.notes ++ s.calls notice? ∧
      (∀ exception, ∃ u,
        exec (perform (depth + 1) (.ofOperation operation)) (s.failing exception) =
          (if s.calls notice? = [] then .ok result else .error (.host exception), u) ∧
        u.form = t.form) ∧
      (notice? = none →
        t.form.store.snapshot = s.form.store.snapshot ∧ t.form.view = s.form.view) ∧
      ∀ name, notice? = some (.property name) →
        t.form.view = s.form.view.map (t.form.context.refresh name) ∧
        ∀ old, s.form.view = .ok old → old.SameBut name (t.form.context.refresh name old) := by
  obtain ⟨t, happly, hform, hnotes⟩ := exec_apply_calls (perform depth) hquiet operation
  refine ⟨_, _, t, exec_step_ofOperation operation happly, hnotes, fun exception => ?_, fun hnone => ?_,
    fun name hname => ?_⟩
  · obtain ⟨u, hfails, hformu⟩ := exec_apply_failing (perform depth) s operation exception
    have hsame : u.form = t.form := hformu.trans hform.symm
    refine ⟨u, (exec_step_ofOperation operation hfails).trans ?_, hsame⟩
    rw [hsame]
    split <;> rfl
  · have hsame : t.form = s.form := by
      rw [hform, State.written, Store.apply_of_silent hnone]
      rfl
    rw [hsame]
    exact ⟨rfl, rfl⟩
  · have hview := Form.view_eq_refresh (Store.alikeBut_apply hname) s.form
    rw [hform]
    exact ⟨hview, fun old hold => Form.sameBut_of_view hold _ name⟩

/-- An enquiry whose host keeps a log. -/
def loggedEnquiry : State :=
  { State.ofForm (.ofSchema {} enquiry none {}) with
    listeners := [{ number := 0, id := "log", reaction := {}, once := false }] }

theorem quiet_loggedEnquiry : ∀ listener ∈ loggedEnquiry.listeners, listener.Quiet := by
  intro listener hmem
  rw [List.mem_singleton.mp hmem]
  exact ⟨rfl, rfl⟩

theorem rendering_follows_notices_enquiry :
    (∀ listener ∈ loggedEnquiry.listeners, listener.Quiet) ∧
      ∃ result t, exec (perform 1 (.setValue "name" (.text "Ada"))) loggedEnquiry = (.ok result, t) ∧
        t.journal.notes = [("log", .property "name")] ∧
        t.form.view = loggedEnquiry.form.view.map (t.form.context.refresh "name") := by
  obtain ⟨notice?, result, t, hexec, hnotes, -, -, hproperty⟩ :=
    rendering_follows_notices quiet_loggedEnquiry (.setValue "name" (.text "Ada")) 0
  have hnoted : (exec (perform 1 (.setValue "name" (.text "Ada"))) loggedEnquiry).2.journal.notes =
      [("log", .property "name")] := by decide +kernel
  have hlogged : t.journal.notes = [("log", .property "name")] := by
    rw [← hnoted]
    exact congrArg (·.2.journal.notes) hexec.symm
  have hnotice : notice? = some (.property "name") := by
    rw [hlogged] at hnotes
    cases notice? with
    | none => cases hnotes
    | some notice => exact congrArg some (Prod.mk.inj (List.cons.inj hnotes).1).2.symm
  exact ⟨quiet_loggedEnquiry, result, t, hexec, hlogged, (hproperty "name" hnotice).1⟩

end SchemaForm.Session
