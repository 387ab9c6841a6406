import SchemaForm.Proofs.Session.Invariant

/-!
# Listeners that only listen

Listeners that give no commands cannot change what they are told of. All that they can do is to raise, and the
first that raises decides what comes of the method that has called `_notify`.

* `Command.Passive` — the command adds no listener that gives commands, and no handler to which it leads
  does so;
* `Told` — two states between which such listeners may have been told of something;
* `firstException`, `ending` — the listener that fails first, and what comes of a step which it ends;
* `exec_apply_told`, `exec_apply` — an operation under such listeners.
-/

namespace SchemaForm.Session

/-! ## Commands -/

/-- No listener that comes of the command gives commands: neither one that it adds, nor one that is added
by its handler. Listeners may still fail. -/
inductive Command.Passive : Command → Prop where
  | intro {command : Command} (hlistener : command.listenerCommands = [])
      (hhandler : ∀ given ∈ command.handlerCommands, given.Passive) : command.Passive

namespace Command.Passive

variable {command : Command}

/-- Most commands lead to no other commands at all. -/
theorem of_nil (hlistener : command.listenerCommands = []) (hhandler : command.handlerCommands = []) :
    command.Passive :=
  .intro hlistener (hhandler ▸ fun _ hmem => absurd hmem List.not_mem_nil)

theorem listener (h : command.Passive) : command.listenerCommands = [] := by
  obtain ⟨hlistener, -⟩ := h
  exact hlistener

theorem handler (h : command.Passive) : ∀ given ∈ command.handlerCommands, given.Passive := by
  obtain ⟨-, hhandler⟩ := h
  exact hhandler

end Command.Passive

/-- Commands that listeners never give. -/
abbrev Never (_ : Command) : Prop := False

theorem keeps_never {P : State → Prop} {inner : Command → SessionM Result} :
    ∀ command, Never command → Keeps P (inner command) :=
  fun _ h => h.elim

variable {α : Type} {inner : Command → SessionM Result} {s t u : State}

/-! ## What listeners leave -/

/-- The second state is the first one after listeners were told of something and have done nothing: notes
and events have been added, and listeners may have taken themselves away. -/
structure Told (s t : State) : Prop where
  form : t.form = s.form
  phase : t.phase = s.phase
  submissions : t.submissions = s.submissions
  received : t.journal.received = s.journal.received
  subscriptions : t.subscriptions = s.subscriptions
  listeners : ∀ listener ∈ t.listeners, listener ∈ s.listeners

namespace Told

theorem refl (s : State) : Told s s := ⟨rfl, rfl, rfl, rfl, rfl, fun _ hmem => hmem⟩

theorem trans (hst : Told s t) (htu : Told t u) : Told s u where
  form := htu.form.trans hst.form
  phase := htu.phase.trans hst.phase
  submissions := htu.submissions.trans hst.submissions
  received := htu.received.trans hst.received
  subscriptions := htu.subscriptions.trans hst.subscriptions
  listeners listener hmem := hst.listeners listener (htu.listeners listener hmem)

theorem peopled {G : Listener → Prop} (h : Told s t) (hs : Peopled G s) : Peopled G t where
  present listener hmem := hs.present listener (h.listeners listener hmem)
  named hfound := hs.named (h.subscriptions ▸ hfound)

/-- What is done to the form and to its phase afterwards could as well have been done before. -/
theorem write (h : Told s t) (form : Form) (phase : Phase) (events : List Event) :
    Told { s with form, phase } { t with form, phase, events } :=
  ⟨rfl, rfl, h.submissions, h.received, h.subscriptions, h.listeners⟩

end Told

/-! ## Listeners are told -/

/-- The exception of the first listener that fails. -/
def firstException (listeners : List Listener) : Option HostException :=
  listeners.findSome? fun listener => listener.reaction.exception

/-- What comes of a step that an exception ends, or nothing does. -/
def ending (a : α) : Option HostException → Except Failure α
  | some exception => .error (.host exception)
  | none => .ok a

/-- What follows a step is done unless an exception has ended it. -/
theorem exec_bind_ending {β : Type} {act : SessionM α} {next : α → SessionM β} {s t : State} {a : α}
    {b : β} {exception : Option HostException} (hact : exec act s = (ending a exception, t))
    (hnext : exec (next a) t = (.ok b, t)) : exec (act >>= next) s = (ending b exception, t) := by
  cases exception with
  | some found => exact exec_bind_of_error hact
  | none => exact (exec_bind_of_ok hact).trans hnext

theorem exec_failWith (exception : Option HostException) (s : State) :
    exec (failWith exception) s = (ending () exception, s) := by
  cases exception <;> rfl

theorem exec_giveAll_of_never {commands : List Command} (h : ∀ command ∈ commands, Never command)
    (s : State) :
    exec (giveAll inner commands) s = (.ok (), s) := by
  rw [List.eq_nil_iff_forall_not_mem.mpr h]
  rfl

theorem exec_tellListener (inner : Command → SessionM Result) (notice : Notice) {listener : Listener}
    (hgives : listener.Gives Never) (s : State) :
    ∃ t, exec (tellListener inner notice listener) s = (ending () listener.reaction.exception, t) ∧
      Told s t := by
  rw [tellListener, exec_bind_of_ok (exec_note _ s), exec_bind_of_ok (exec_giveAll_of_never hgives _)]
  dsimp only
  split
  · rw [removeListener, exec_bind_of_ok (exec_modify _ _)]
    refine ⟨_, exec_failWith _ _, rfl, rfl, rfl, rfl, rfl, fun other hmem => ?_⟩
    exact List.mem_of_mem_eraseP hmem
  · exact ⟨_, exec_failWith _ _, rfl, rfl, rfl, rfl, rfl, fun _ hmem => hmem⟩

/-- Listeners that give no commands change nothing but the journal, whether one of them raises or not. -/
theorem exec_tellAll (inner : Command → SessionM Result) (notice : Notice) {listeners : List Listener}
    (hgives : ∀ listener ∈ listeners, listener.Gives Never) (s : State) :
    ∃ t, exec (tellAll inner notice listeners) s = (ending () (firstException listeners), t) ∧
      Told s t := by
  induction listeners generalizing s with
  | nil => exact ⟨s, rfl, .refl s⟩
  | cons listener rest ih =>
    have hrest := ih fun other hmem => hgives other (List.mem_cons_of_mem _ hmem)
    obtain ⟨t, hfirst, hst⟩ :=
      exec_tellListener inner notice (hgives listener (List.mem_cons_self ..)) s
    rw [tellAll, firstException, List.findSome?_cons]
    cases hexception : listener.reaction.exception with
    | some exception =>
      rw [hexception] at hfirst
      exact ⟨t, exec_bind_of_error hfirst, hst⟩
    | none =>
      rw [hexception] at hfirst
      rw [exec_bind_of_ok hfirst]
      obtain ⟨u, hothers, htu⟩ := hrest t
      exact ⟨u, hothers, hst.trans htu⟩

/-- An operation under such listeners does its work, and then the first of them that fails ends it if they
are told of it. -/
theorem exec_apply_told (inner : Command → SessionM Result) {s : State}
    (hgives : ∀ listener ∈ s.listeners, listener.Gives Never) (operation : Store.Operation) :
    ∃ t, exec (apply inner operation) s =
        (ending () ((s.form.store.apply operation).notice.bind fun _ => firstException s.listeners), t) ∧
      Told (s.written operation) t := by
  rw [exec_apply_eq]
  cases (s.form.store.apply operation).notice with
  | none => exact ⟨_, rfl, rfl, rfl, rfl, rfl, rfl, fun _ hmem => hmem⟩
  | some notice =>
    obtain ⟨t, hexec, htold⟩ := exec_tellAll inner notice hgives
      { s.written operation with events := s.events ++ (s.form.store.apply operation).events }
    exact ⟨t, hexec, htold.form, htold.phase, htold.submissions, htold.received, htold.subscriptions,
      htold.listeners⟩

/-- An operation that listeners are told of. -/
theorem exec_apply (inner : Command → SessionM Result) {s : State}
    (hgives : ∀ listener ∈ s.listeners, listener.Gives Never) (operation : Store.Operation)
    {notice : Notice} (hnotice : (s.form.store.apply operation).notice = some notice) :
    ∃ t, exec (apply inner operation) s = (ending () (firstException s.listeners), t) ∧
      Told (s.written operation) t := by
  obtain ⟨t, hexec, htold⟩ := exec_apply_told inner hgives operation
  rw [hnotice, Option.bind_some] at hexec
  exact ⟨t, hexec, htold⟩

end SchemaForm.Session
