import SchemaForm.Proofs.Session.Invariant

/-!
# Commands and all that comes of them

A command may add a listener, and it may lead to a handler, and both give commands of their own. What is
asked of a command is therefore asked of all of these as well.

* `Command.Throughout` — a condition on a command and on every command that may come of it;
* `Kept` — what is needed for such commands to keep a property of states;
* `Kept.perform`, `Kept.run` — they keep it, inside each other and in whole sessions;
* `Kept.unrefused_perform` — if they leave submissions alone, none of them is turned away;
* `kept_peopled` — the usual case: the listeners are of one kind, and the rest is a property that most of
  the work of a command does not touch.
-/

namespace SchemaForm.Session

/-- The condition holds of the command and of every command that a listener or a handler gives because
of it. -/
inductive Command.Throughout (D : Command → Prop) : Command → Prop where
  | intro {command : Command} (self : D command)
      (listener : ∀ given ∈ command.listenerCommands, given.Throughout D)
      (handler : ∀ given ∈ command.handlerCommands, given.Throughout D) : command.Throughout D

variable {D : Command → Prop} {P Q : State → Prop} {G : Listener → Prop}

namespace Command.Throughout

variable {command : Command}

theorem self (h : command.Throughout D) : D command := by
  obtain ⟨hself, -, -⟩ := h
  exact hself

theorem listener (h : command.Throughout D) : ∀ given ∈ command.listenerCommands, given.Throughout D := by
  obtain ⟨-, hlistener, -⟩ := h
  exact hlistener

theorem handler (h : command.Throughout D) : ∀ given ∈ command.handlerCommands, given.Throughout D := by
  obtain ⟨-, -, hhandler⟩ := h
  exact hhandler

/-- Most commands lead to no other commands at all. -/
theorem of_nil (hself : D command) (hlistener : command.listenerCommands = [])
    (hhandler : command.handlerCommands = []) : command.Throughout D := by
  refine .intro hself ?_ ?_
  · simp [hlistener]
  · simp [hhandler]

end Command.Throughout

/-! ## What such commands keep -/

/-- What is needed for commands throughout which `D` holds to keep the property `P`. -/
structure Kept (D : Command → Prop) (P : State → Prop) : Prop where
  robust : Robust (Command.Throughout D) P
  journalFree : JournalFree P
  writes : ∀ {command}, D command → ∀ operation ∈ command.operations, Writes P operation
  subscribe : ∀ {id reaction once}, (Command.subscribe id reaction once).Throughout D →
    Keeps P (subscribe id reaction once)
  enter : ∀ {command}, D command → command.submits = true → ∀ phase, Keeps P (enter phase)
  ticket : ∀ {command}, D command → ∀ id, command.ticket? = some id → Keeps P (takeSubmission id) ∧
    ∀ exception, Keeps P
      (modify fun s => { s with submissions := s.submissions.insert id exception })

namespace Kept

variable (h : Kept D P)
include h

theorem step (inner : Command → SessionM Result) (command : Command) (hcommand : command.Throughout D)
    (hinner : ∀ given : Command, given.Throughout D → Keeps P (inner given))
    (hhandler : Keeps P (reportAll inner command.handlerCommands)) : Keeps P (step inner command) := by
  refine h.robust.keeps_step hinner (h.writes hcommand.self) ?_ hhandler (h.enter hcommand.self)
    (h.ticket hcommand.self) h.robust.delivers
  rintro id reaction once rfl
  exact h.subscribe hcommand

theorem perform (depth : Nat) :
    ∀ command : Command, command.Throughout D → Keeps P (perform depth command) :=
  keeps_perform h.journalFree Command.Throughout.handler h.step depth

theorem reportAll (depth : Nat) {commands : List Command}
    (hcommands : ∀ command ∈ commands, command.Throughout D) :
    Keeps P (reportAll (Session.perform depth) commands) :=
  keeps_reportAll h.journalFree fun command hmem => h.perform depth command (hcommands command hmem)

theorem reports {commands : List Command} (hcommands : ∀ command ∈ commands, command.Throughout D) :
    Keeps P (reports commands) :=
  keeps_reports h.journalFree Command.Throughout.handler h.step hcommands

theorem run {form : Form} {commands : List Command}
    (hcommands : ∀ command ∈ commands, command.Throughout D) (hform : P (.ofForm form)) :
    P (run form commands).2 := by
  rw [run_snd]
  exact h.reports hcommands _ hform

/-- Commands that leave submissions alone are not turned away. -/
theorem unrefused_perform (hD : ∀ {command}, D command → command.submits = false) (depth : Nat) :
    ∀ command : Command, command.Throughout D →
      Ensures P (· ≠ .submissionInProgress) (Session.perform depth command) := by
  induction depth with
  | zero => exact fun _ _ => .throw (by simp)
  | succ depth ih =>
    intro command hcommand
    refine h.robust.ensures_step (fun _ h => h) ih (hD hcommand.self) (h.writes hcommand.self) ?_ ?_
    · rintro id reaction once rfl
      exact h.subscribe hcommand
    · exact h.reportAll depth hcommand.handler

end Kept

/-! ## Properties that commands hardly touch -/

/-- The property is touched neither by bookkeeping nor by what commands do of which `D` holds. -/
structure Indifferent (D : Command → Prop) (Q : State → Prop) : Prop where
  events : ∀ {s : State} (events : List Event), Q s → Q { s with events }
  journal : JournalFree Q
  listeners : ∀ {s : State} (listeners : List Listener) (subscriptions : OrderedMap Listener)
    (listenerCount : Nat), Q s → Q { s with listeners, subscriptions, listenerCount }
  writes : ∀ {command}, D command → ∀ operation ∈ command.operations, Writes Q operation
  phase : ∀ {command}, D command → command.submits = true →
    ∀ {s : State} (phase : Phase), Q s → Q { s with phase }
  submissions : ∀ {command}, D command → ∀ id, command.ticket? = some id → ∀ {s : State}, Q s →
    Q { s with submissions := s.submissions.erase id } ∧
      ∀ exception, Q { s with submissions := s.submissions.insert id exception }

theorem kept_peopled (hG : ∀ listener, G listener → listener.Gives (Command.Throughout D))
    (hsubscribe : ∀ {id reaction once}, (Command.subscribe id reaction once).Throughout D →
      ∀ number, G { number, id, reaction, once })
    (hQ : Indifferent D Q) : Kept D fun s => Peopled G s ∧ Q s := by
  have hinsensitive : Insensitive Q :=
    ⟨fun events s h => hQ.events (s := s) _ h, fun _ s h => hQ.journal (s := s) _ h, hQ.listeners⟩
  refine ⟨robust_peopled hG hinsensitive, ?_, ?_, ?_, ?_, ?_⟩
  · exact fun journal h => ⟨⟨h.1.present, h.1.named⟩, hQ.journal journal h.2⟩
  · intro command hcommand operation hmem s h
    exact ⟨⟨h.1.present, h.1.named⟩, hQ.writes hcommand operation hmem s h.2⟩
  · exact fun hcommand => keeps_subscribe hinsensitive _ (hsubscribe hcommand)
  · intro command hcommand hsubmits phase s h
    exact ⟨⟨h.1.present, h.1.named⟩, hQ.phase hcommand hsubmits phase h.2⟩
  · intro command hcommand id hid
    constructor
    · refine Keeps.bind (fun _ h => h) fun _ => Keeps.bind (Keeps.orUnknown id _) fun found => ?_
      refine Keeps.bind (Keeps.modify fun s h => ?_) fun _ => Keeps.pure found
      exact ⟨⟨h.1.present, h.1.named⟩, (hQ.submissions hcommand id hid h.2).1⟩
    · intro exception s h
      exact ⟨⟨h.1.present, h.1.named⟩, (hQ.submissions hcommand id hid h.2).2 exception⟩

theorem indifferent_true (D : Command → Prop) : Indifferent D fun _ => True :=
  ⟨fun _ _ => trivial, fun _ _ => trivial, fun _ _ _ _ => trivial, fun _ _ _ _ _ => trivial,
    fun _ _ _ _ _ => trivial, fun _ _ _ _ _ => ⟨trivial, fun _ => trivial⟩⟩

/-- Nothing but the listeners matters. -/
theorem kept_listeners (hG : ∀ listener, G listener → listener.Gives (Command.Throughout D))
    (hsubscribe : ∀ {id reaction once}, (Command.subscribe id reaction once).Throughout D →
      ∀ number, G { number, id, reaction, once }) : Kept D (Peopled G) := by
  have h := kept_peopled hG hsubscribe (indifferent_true D)
  simpa only [and_true] using h

/-- A new session has no listeners. -/
theorem peopled_ofForm (form : Form) : Peopled G (.ofForm form) where
  present _ hmem := absurd hmem List.not_mem_nil
  named h := absurd h (Option.some_ne_none _).symm

end SchemaForm.Session
