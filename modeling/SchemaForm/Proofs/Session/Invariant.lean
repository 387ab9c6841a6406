import SchemaForm.Proofs.Session.Robust

/-!
# What a session keeps

Commands reach the store of a form through its operations only, whoever gives them: the host, a listener
that is told of a change, or a handler. So what every operation keeps, a whole session keeps.

* `Holds` — a property of the store and of what handlers have reported, together with what the listeners
  may do;
* `keeps_step` — one command keeps such a property, if its operations and its handler do;
* `Closed.run`, `run_keeps` — the same for whole sessions;
* `form_run` — of the form itself, nothing but its store ever changes.
-/

namespace SchemaForm.Session

/-- Listeners give commands of the kind `L` only, and `R` holds of the store and of what the handlers of
the command at work have reported. Listeners that have a name count even while they are away, since they
may be added again. -/
structure Holds (L : Command → Prop) (R : Store → List Report → Prop) (s : State) : Prop where
  present : ∀ listener ∈ s.listeners, listener.Gives L
  named : ∀ {id listener}, s.subscriptions.get? id = some listener → listener.Gives L
  rest : R s.form.store s.journal.during

variable {inner : Command → SessionM Result} {L : Command → Prop} {R R' : Store → List Report → Prop}
  {s : State}

theorem holds_eq (L : Command → Prop) (R : Store → List Report → Prop) :
    Holds L R = fun s => Peopled (Listener.Gives L) s ∧ R s.form.store s.journal.during := by
  funext s
  refine propext ⟨fun h => ⟨⟨h.present, h.named⟩, h.rest⟩, ?_⟩
  rintro ⟨hpeopled, hrest⟩
  exact ⟨hpeopled.present, hpeopled.named, hrest⟩

/-! ## Parts of commands -/

/-- The property is one of the store and of what handlers have reported. -/
theorem insensitive_rest (R : Store → List Report → Prop) :
    Insensitive fun s => R s.form.store s.journal.during where
  keeps_log _ _ h := h
  keeps_note {write} hwrite s h := by
    show R s.form.store (write s.journal).during
    rw [hwrite]
    exact h
  listeners _ _ _ h := h

theorem robust_holds (L : Command → Prop) (R : Store → List Report → Prop) : Robust L (Holds L R) := by
  rw [holds_eq]
  exact robust_peopled (fun _ h => h) (insensitive_rest R)

theorem keeps_enter (phase : Phase) : Keeps (Holds L R) (enter phase) :=
  fun _ h => ⟨h.present, h.named, h.rest⟩

/-- Submissions that have not come to their end are bookkeeping, too. -/
theorem keeps_takeSubmission (id : String) : Keeps (Holds L R) (takeSubmission id) :=
  Keeps.bind (fun _ h => h) fun _ => Keeps.bind (Keeps.orUnknown id _) fun found =>
    Keeps.bind (Keeps.modify fun _ h => ⟨h.present, h.named, h.rest⟩) fun _ => Keeps.pure found

theorem keeps_keepSubmission (id : String) (exception : Option HostException) :
    Keeps (Holds L R)
      (modify fun s => { s with submissions := s.submissions.insert id exception }) :=
  Keeps.modify fun _ h => ⟨h.present, h.named, h.rest⟩

/-- The operation does not put an end to `R`. -/
def Preserves (R : Store → List Report → Prop) (operation : Store.Operation) : Prop :=
  ∀ store during, R store during → R (store.apply operation).store during

theorem Preserves.writes {operation : Store.Operation} (h : Preserves R operation) :
    Writes (Holds L R) operation :=
  fun _ hs => ⟨hs.present, hs.named, h _ _ hs.rest⟩

section
variable (hinner : ∀ command, L command → Keeps (Holds L R) (inner command))
include hinner

/-- What an operation brings about holds after the listeners were told of it. -/
theorem holds_apply {operation : Store.Operation} (h : Holds L R' s)
    (hoperation : R' s.form.store s.journal.during →
      R (s.form.store.apply operation).store s.journal.during) :
    Holds L R (exec (apply inner operation) s).2 :=
  (robust_holds L R).after_apply hinner ⟨h.present, h.named, hoperation h.rest⟩

/-- A check of the whole form brings about what its operation does. -/
theorem holds_validateForm (h : Holds L R' s)
    (hoperation : R' s.form.store s.journal.during →
      R s.form.store.validateForm.store s.journal.during) :
    Holds L R (exec (validateForm inner) s).2 :=
  (robust_holds L R).after_validateForm hinner ⟨h.present, h.named, hoperation h.rest⟩

/-- A submission that is not turned away begins with a check of the form, so that it brings about what
the check brings about. -/
theorem holds_openSubmission (h : Holds L R' s) (hadmitted : s.rejects = false)
    (hcheck : R' s.form.store s.journal.during → R s.form.store.validateForm.store s.journal.during)
    (hoperations : ∀ operation ∈ Command.submission, Preserves R operation) :
    Holds L R (exec (openSubmission inner) s).2 := by
  have hbegin : Preserves R (.setSubmitting true) := hoperations _ (by simp [Command.submission])
  exact (robust_holds L R).after_openSubmission hinner keeps_enter hadmitted
    ⟨h.present, h.named, hcheck h.rest⟩ hbegin.writes

/-- A whole submission that is not turned away. -/
theorem holds_submit {handler : Reaction Command} (h : Holds L R' s) (hadmitted : s.rejects = false)
    (hcheck : R' s.form.store s.journal.during → R s.form.store.validateForm.store s.journal.during)
    (hoperations : ∀ operation ∈ Command.submission, Preserves R operation)
    (hhandler : Keeps (Holds L R) (reportAll inner handler.commands)) :
    Holds L R (exec (submit inner handler) s).2 := by
  have hend : Preserves R (.setSubmitting false) := hoperations _ (by simp [Command.submission])
  exact (robust_holds L R).after_submit hinner keeps_enter hend.writes
    (holds_openSubmission hinner h hadmitted hcheck hoperations)
    (fun _ => (robust_holds L R).keeps_received _) hhandler

/-- A submission to a handler that does not come to its end, if it is not turned away. -/
theorem holds_start {id : String} {handler : Reaction Command} (h : Holds L R' s)
    (hadmitted : s.rejects = false)
    (hcheck : R' s.form.store s.journal.during → R s.form.store.validateForm.store s.journal.during)
    (hoperations : ∀ operation ∈ Command.submission, Preserves R operation)
    (hhandler : Keeps (Holds L R) (reportAll inner handler.commands)) :
    Holds L R (exec (start inner id handler) s).2 := by
  have hend : Preserves R (.setSubmitting false) := hoperations _ (by simp [Command.submission])
  exact (robust_holds L R).after_start hinner keeps_enter hend.writes
    (holds_openSubmission hinner h hadmitted hcheck hoperations)
    (fun _ => (robust_holds L R).keeps_received _) hhandler (keeps_keepSubmission id _)

/-- One command keeps what its operations and its handler keep, if the listener that it may add gives
nothing but commands that are harmless. -/
theorem keeps_step {command : Command}
    (hoperations : ∀ operation ∈ command.operations, Preserves R operation)
    (hlistener : ∀ given ∈ command.listenerCommands, L given)
    (hhandler : Keeps (Holds L R) (reportAll inner command.handlerCommands)) :
    Keeps (Holds L R) (step inner command) := by
  refine (robust_holds L R).keeps_step hinner (fun operation hmem => (hoperations operation hmem).writes)
    ?_ hhandler (fun _ => keeps_enter)
    (fun id _ => ⟨keeps_takeSubmission id, keeps_keepSubmission id⟩) (robust_holds L R).delivers
  rintro id reaction once rfl
  rw [holds_eq]
  exact keeps_subscribe (insensitive_rest R) id fun _ => hlistener

end

/-! ## Sessions -/

/-- A class of commands that is closed under what listeners and handlers give, and whose operations keep a
property of the store. -/
structure Closed (C : Command → Prop) (I : Store → Prop) : Prop where
  listener : ∀ {command}, C command → ∀ given ∈ command.listenerCommands, C given
  handler : ∀ {command}, C command → ∀ given ∈ command.handlerCommands, C given
  operation : ∀ {command}, C command → ∀ operation ∈ command.operations,
    ∀ store, I store → I (store.apply operation).store

/-- A property of the store alone, with listeners that give commands of one class. -/
abbrev HoldsOfStore (C : Command → Prop) (I : Store → Prop) : State → Prop :=
  Holds C fun store _ => I store

variable {C : Command → Prop} {I : Store → Prop}

theorem journalFree_holdsOfStore (C : Command → Prop) (I : Store → Prop) :
    JournalFree (HoldsOfStore C I) :=
  fun _ hs => ⟨hs.present, hs.named, hs.rest⟩

theorem Closed.keeps_perform (hclosed : Closed C I) (depth : Nat) :
    ∀ command, C command → Keeps (HoldsOfStore C I) (perform depth command) := by
  refine Session.keeps_perform (journalFree_holdsOfStore C I) hclosed.handler
    (fun inner command hcommand hinner hhandler => ?_) depth
  have hoperations : ∀ operation ∈ command.operations, Preserves (fun store _ => I store) operation :=
    fun operation hmem store _ hstore => hclosed.operation hcommand operation hmem store hstore
  exact keeps_step hinner hoperations (hclosed.listener hcommand) hhandler

theorem Closed.keeps_reports (hclosed : Closed C I) {commands : List Command}
    (h : ∀ command ∈ commands, C command) : Keeps (HoldsOfStore C I) (reports commands) :=
  keeps_reports_of (journalFree_holdsOfStore C I) fun command hmem =>
    hclosed.keeps_perform maxDepth command (h command hmem)

theorem run_eq (form : Form) (commands : List Command) :
    run form commands =
      match exec (reports commands) (.ofForm form) with
      | (.ok found, s) => (found, s)
      | (.error _, s) => ([], s) := rfl

/-- The state that a session leaves is the one that its commands leave. -/
theorem run_snd (form : Form) (commands : List Command) :
    (run form commands).2 = (exec (reports commands) (.ofForm form)).2 := by
  rw [run_eq]
  obtain ⟨result, s⟩ := exec (reports commands) (.ofForm form)
  cases result <;> rfl

theorem holds_ofForm {form : Form} (h : R form.store []) : Holds L R (.ofForm form) where
  present _ hmem := absurd hmem List.not_mem_nil
  named h := absurd h (Option.some_ne_none _).symm
  rest := h

/-- What all operations of the commands keep holds at the end of a session if it held at its beginning. -/
theorem Closed.run (hclosed : Closed C I) {form : Form} {commands : List Command}
    (hcommands : ∀ command ∈ commands, C command) (hform : I form.store) :
    I (run form commands).2.form.store := by
  rw [run_snd]
  exact (hclosed.keeps_reports hcommands _ (holds_ofForm hform)).rest

/-- All commands together, with what every operation keeps. -/
theorem closed_true (hoperation : ∀ store operation, I store → I (store.apply operation).store) :
    Closed (fun _ => True) I :=
  ⟨fun _ _ _ => trivial, fun _ _ _ => trivial, fun _ _ _ store => hoperation store _⟩

/-- What every operation keeps is kept in every session, whatever listeners and handlers do. -/
theorem run_keeps (hoperation : ∀ store operation, I store → I (store.apply operation).store)
    {form : Form} (commands : List Command) (hform : I form.store) :
    I (run form commands).2.form.store :=
  (closed_true hoperation).run (fun _ _ => trivial) hform

/-- What every operation keeps is kept while a submission is made at the end of any session. -/
theorem openSubmission_keeps (hoperation : ∀ store operation, I store → I (store.apply operation).store)
    {form : Form} (commands : List Command) (hform : I form.store) (depth : Nat) :
    I (exec (openSubmission (perform depth)) (run form commands).2).2.form.store := by
  have hclosed := closed_true hoperation
  have hrun : HoldsOfStore (fun _ => True) I (run form commands).2 := by
    rw [run_snd]
    exact hclosed.keeps_reports (fun _ _ => trivial) _ (holds_ofForm hform)
  have hopen : Keeps (HoldsOfStore (fun _ => True) I) (openSubmission (perform depth)) := by
    refine (robust_holds _ _).keeps_openSubmission (hclosed.keeps_perform depth) keeps_enter ?_
    exact fun operation _ s hs => ⟨hs.present, hs.named, hoperation s.form.store operation hs.rest⟩
  exact (hopen _ hrun).rest

/-- The form is this one, with a store of its own. -/
def State.Uses (form : Form) (s : State) : Prop := s.form = form.withStore s.form.store

theorem robust_uses (form : Form) : Robust (fun _ => True) (State.Uses form) where
  gives _ _ _ _ _ := trivial
  keeps_log _ _ h := h
  keeps_note _ _ _ h := h
  keeps_removeListener _ _ h := h
  addNamed _ _ _ _ h := h
  keeps_received _ _ h := h

theorem writes_uses (form : Form) (operation : Store.Operation) : Writes (State.Uses form) operation := by
  intro s h
  show s.form.withStore _ = form.withStore _
  rw [show s.form = form.withStore s.form.store from h]
  rfl

/-- All that changes of a form in use is its store. -/
theorem form_run (form : Form) (commands : List Command) : (run form commands).2.Uses form := by
  rw [run_snd]
  refine keeps_reports (C := fun _ => True) (fun _ h => h) (fun _ _ _ => trivial) ?_
    (fun _ _ => trivial) _ rfl
  intro inner command _ hinner hhandler
  refine (robust_uses form).keeps_step hinner (fun operation _ => writes_uses form operation)
    (fun _ _ h => h) hhandler (fun _ _ _ h => h) (fun id _ => ⟨?_, fun _ _ h => h⟩)
    (robust_uses form).delivers
  exact Keeps.bind (fun _ h => h) fun _ => Keeps.bind (Keeps.orUnknown id _) fun found =>
    Keeps.bind (fun _ h => h) fun _ => Keeps.pure found

end SchemaForm.Session
