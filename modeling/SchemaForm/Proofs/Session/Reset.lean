import SchemaForm.Proofs.Session.Subscriptions
import SchemaForm.Proofs.Store.Reset

/-!
# Forms that are reset

`reset` may be called at any time, also while a submission is in flight, and listeners are told of it. This
module says that the form which they find then is a new one, and that nothing else in the session has
changed.

* `State.restarted` — the session with a new store in the place of the old one;
* `exec_step_reset` — a reset is to tell the listeners, in such a session;
* `left_report_reset` — what is left of it, if listeners do nothing but to note it;
* `reset_starts_anew` — the runs of operations after a reset.
-/

namespace SchemaForm.Session

variable {inner : Command → SessionM Result} {s : State} {schema : Schema} {data : OrderedMap Value}

/-! ## Single resets -/

/-- The session with another store. A submission that is under way goes on, and those who listen still do. -/
def State.restarted (s : State) (store : Store) : State :=
  { s with form := s.form.withStore (store.withSubmitting s.form.store.submitting) }

theorem State.restarted_restarted (s : State) (store : Store) :
    (s.restarted store).restarted store = s.restarted store := rfl

/-- Before anybody is told of a reset, everything is written. -/
theorem written_reset (h : s.form.store.StartedWith schema data) :
    s.written .reset = s.restarted (.ofData schema data) := by
  have hstore : (s.form.store.apply .reset).store =
      (Store.ofData schema data).withSubmitting s.form.store.submitting := Store.store_reset h
  rw [State.written, hstore]
  rfl

/-- All that a reset does besides is to tell the listeners, whatever these do then. -/
theorem exec_step_reset (inner : Command → SessionM Result) (h : s.form.store.StartedWith schema data) :
    exec (step inner .reset) s =
      exec (do tell inner .form; return .nothing) (s.restarted (.ofData schema data)) := by
  have hevents : (s.form.store.apply .reset).events = [] := rfl
  have hnotice : (s.form.store.apply .reset).notice = some .form := rfl
  show exec (applyOnly inner .reset) s = _
  rw [applyOnly, exec_bind, exec_apply_eq, hevents, List.append_nil, hnotice, written_reset h, exec_bind]
  rfl

/-- Listeners that do nothing but to note it leave the session as the operation has left it. -/
theorem left_report_ofOperation (hstays : ∀ listener ∈ s.listeners, listener.Stays)
    (operation : Store.Operation) :
    (exec (report (perform maxDepth) (.ofOperation operation)) s).2 =
      { s.written operation with events := s.events ++ (s.form.store.apply operation).events } := by
  obtain ⟨depth, hdepth⟩ := exists_perform_maxDepth
  obtain ⟨result, happly⟩ :=
    exec_apply_of_stays (perform depth) (s := { s with journal := {} }) hstays operation
  rw [exec_report, hdepth, exec_step_ofOperation operation happly]
  rfl

theorem left_report_reset (h : s.form.store.StartedWith schema data)
    (hstays : ∀ listener ∈ s.listeners, listener.Stays) :
    (exec (report (perform maxDepth) .reset) s).2 = s.restarted (.ofData schema data) := by
  refine (left_report_ofOperation hstays .reset).trans ?_
  have hevents : (s.form.store.apply .reset).events = [] := rfl
  rw [hevents, List.append_nil, ← written_reset h]
  rfl

/-! ## Runs -/

/-- At any time a form knows what it has begun with. -/
theorem startedWith_run (settings : Settings) (schema : Schema) (layout? : Option Layout)
    (options : FormOptions) (commands : List Command) :
    (run (.ofSchema settings schema layout? options) commands).2.form.store.StartedWith schema
      options.data :=
  run_keeps (fun _ operation h => h.apply operation) commands (Store.startedWith_ofData schema options.data)

/-- **A reset is a fresh start.** Whatever operations a store has seen, a reset makes the new store of it,
with the values in their order, and only whether a submission is under way stays as it was; a second reset
changes nothing; and after each of the operations that follow there is no other difference to the new store
with the same operations. In a session, whatever has been done in it, those who are told of a reset find
the new store, and the rest of the session as it was: who listens, under which names, and which
submissions are under way. As long as listeners give no commands, the commands that follow do to the form
what they do to a new one; and as long as they do not take themselves away either, nothing but the store
has changed after the reset, and nothing at all after another one. -/
theorem reset_starts_anew (settings : Settings) (schema : Schema) (layout? : Option Layout)
    (options : FormOptions) :
    let new := Store.ofData schema options.data
    (∀ before operations, let old := new.applyAll before
      old.reset.store = new.withSubmitting old.submitting ∧ old.reset.store.reset.store = old.reset.store ∧
        (old.reset.store.applyAll operations).SameButSubmitting (new.applyAll operations)) ∧
    ∀ commands, let form := Form.ofSchema settings schema layout? options
      let s := (run form commands).2
      (∀ inner, exec (step inner .reset) s =
        exec (do tell inner .form; return .nothing) (s.restarted new)) ∧
      (Peopled (Listener.Gives Never) s → ∀ operations : List Store.Operation,
        (exec (reports (.reset :: operations.map .ofOperation)) s).2.form.store.SameButSubmitting
          (run form (operations.map .ofOperation)).2.form.store) ∧
      ((∀ listener ∈ s.listeners, listener.Stays) →
        (exec (reports [.reset]) s).2 = s.restarted new ∧
          (exec (reports [.reset, .reset]) s).2 = s.restarted new) := by
  intro new
  refine ⟨fun before operations => ?_, fun commands => ?_⟩
  · have hold := (Store.startedWith_ofData schema options.data).applyAll before
    exact ⟨Store.store_reset hold, Store.store_reset_reset _, Store.applyAll_reset hold operations⟩
  · intro form s
    -- no command of a session changes what the store has started with
    have hs : s.form.store.StartedWith schema options.data :=
      startedWith_run settings schema layout? options commands
    refine ⟨fun inner => exec_step_reset inner hs, fun hgives operations => ?_, fun hstays => ?_⟩
    · have hold := form_reports_ofOperation hgives (.reset :: operations)
      have hnew := form_reports_ofOperation (peopled_ofForm form) operations
      rw [List.map_cons] at hold
      rw [run_snd, hnew]
      exact hold ▸ Store.applyAll_reset hs operations
    · have hfirst := left_report_reset hs hstays
      have hagain : (s.restarted new).form.store.StartedWith schema options.data := ⟨rfl, rfl⟩
      have hsecond : (exec (report (perform maxDepth) .reset) (s.restarted new)).2 = s.restarted new :=
        (left_report_reset hagain hstays).trans (s.restarted_restarted new)
      constructor
      · rw [exec_reports_cons, hfirst]
        rfl
      · rw [exec_reports_cons, hfirst, exec_reports_cons, hsecond]
        rfl

/-- A form is filled in and submitted, and the handler has not come to its end. -/
def interrupted : State :=
  (run (.ofSchema {} enquiry none { data := .ofList [("age", .int 7)], takesSubmissions := true })
    [.subscribe "log" {} false, .setValue "name" (.text "Ada"), .validateForm, .start "first" {}]).2

theorem reset_starts_anew_interrupted :
    let new := Store.ofData enquiry (.ofList [("age", .int 7)])
    let s := (exec (reports [.reset]) interrupted).2
    (∀ listener ∈ interrupted.listeners, listener.Stays) ∧
      interrupted.form.store.submitting = true ∧ interrupted.form.store.touched = ["name", "age"] ∧
      s.form.store = new.withSubmitting true ∧ s.listeners.map (·.id) = ["log"] ∧
      s.submissions.keys = ["first"] ∧ (exec (reports [.reset, .reset]) interrupted).2 = s := by
  intro new s
  have hstays : ∀ listener ∈ interrupted.listeners, listener.Stays := by
    have hall : interrupted.listeners.all
        (fun listener => listener.reaction.commands.isEmpty && !listener.once) = true := by decide +kernel
    intro listener hmem
    obtain ⟨hcommands, honce⟩ : listener.reaction.commands = [] ∧ listener.once = false := by
      simpa using List.all_eq_true.mp hall listener hmem
    exact ⟨hcommands, honce⟩
  have hflag : interrupted.form.store.submitting = true := by decide +kernel
  obtain ⟨-, hsession⟩ := reset_starts_anew {} enquiry none
    { data := .ofList [("age", .int 7)], takesSubmissions := true }
  obtain ⟨-, -, hreset⟩ := hsession
    [.subscribe "log" {} false, .setValue "name" (.text "Ada"), .validateForm, .start "first" {}]
  obtain ⟨hfirst, hsecond⟩ := hreset hstays
  have hs : s = interrupted.restarted new := hfirst
  refine ⟨hstays, hflag, by decide +kernel, ?_, ?_, ?_, hsecond.trans hfirst.symm⟩
  · rw [hs, ← hflag]
    rfl
  · rw [hs]
    decide +kernel
  · rw [hs]
    decide +kernel

end SchemaForm.Session
