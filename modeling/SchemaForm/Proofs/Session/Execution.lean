import SchemaForm.Session.Perform

/-!
# Steps of a session as functions

A step of a session takes a state, returns or raises, and leaves a state. What was written before it raises
stays, and so a property of states has to be followed through both ends of a step.

* `exec` — what a step does to a state, with one equation for each way of putting steps together;
* `Keeps` — a property that holds after a step whenever it held before, however the step ends;
* `Ensures` — the same, with what is known of the failure if the step fails.
-/

namespace SchemaForm.Session

variable {α β : Type}

/-! ## Equations -/

/-- What comes of a step, and the state that it leaves. -/
def exec (act : SessionM α) (s : State) : Except Failure α × State := act.run.run s

@[simp] theorem exec_pure (a : α) (s : State) : exec (pure a) s = (.ok a, s) := rfl

@[simp] theorem exec_throw (failure : Failure) (s : State) :
    exec (throw failure : SessionM α) s = (.error failure, s) := rfl

@[simp] theorem exec_get (s : State) : exec get s = (.ok s, s) := rfl

@[simp] theorem exec_modify (f : State → State) (s : State) : exec (modify f) s = (.ok (), f s) := rfl

theorem exec_bind (act : SessionM α) (next : α → SessionM β) (s : State) :
    exec (act >>= next) s =
      match exec act s with
      | (.ok a, t) => exec (next a) t
      | (.error failure, t) => (.error failure, t) := by
  show StateT.run (ExceptT.bindCont next (exec act s).1) (exec act s).2 = _
  obtain ⟨result, t⟩ := exec act s
  cases result <;> rfl

theorem exec_tryCatch (act : SessionM α) (handle : Failure → SessionM α) (s : State) :
    exec (tryCatch act handle) s =
      match exec act s with
      | (.ok a, t) => (.ok a, t)
      | (.error failure, t) => exec (handle failure) t := by
  unfold exec ExceptT.run StateT.run
  simp only [tryCatch, tryCatchThe, MonadExceptOf.tryCatch, ExceptT.tryCatch, ExceptT.mk, bind,
    StateT.bind]
  obtain ⟨result, t⟩ := act s
  cases result <;> rfl

/-- A step that comes to something hands it on. -/
theorem exec_bind_of_ok {act : SessionM α} {next : α → SessionM β} {s t : State} {a : α}
    (h : exec act s = (.ok a, t)) : exec (act >>= next) s = exec (next a) t := by
  rw [exec_bind, h]

/-- A step that fails ends what it is a part of. -/
theorem exec_bind_of_error {act : SessionM α} {next : α → SessionM β} {s t : State} {failure : Failure}
    (h : exec act s = (.error failure, t)) : exec (act >>= next) s = (.error failure, t) := by
  rw [exec_bind, h]

/-- What comes of a step, put into other words. -/
theorem exec_answer (act : SessionM α) (answer : α → β) (s : State) :
    exec (do return answer (← act)) s = ((exec act s).1.map answer, (exec act s).2) := by
  rw [exec_bind]
  obtain ⟨result, t⟩ := exec act s
  cases result <;> rfl

@[simp] theorem exec_currentForm (s : State) : exec currentForm s = (.ok s.form, s) := rfl

@[simp] theorem exec_currentStore (s : State) : exec currentStore s = (.ok s.form.store, s) := rfl

@[simp] theorem exec_log (events : List Event) (s : State) :
    exec (log events) s = (.ok (), { s with events := s.events ++ events }) := rfl

@[simp] theorem exec_note (write : Journal → Journal) (s : State) :
    exec (note write) s = (.ok (), { s with journal := write s.journal }) := rfl

@[simp] theorem exec_enter (phase : Phase) (s : State) :
    exec (enter phase) s = (.ok (), { s with phase }) := rfl

/-- A report takes what comes of a command as it is, also a failure. -/
theorem exec_observing (act : SessionM Result) (s : State) :
    exec (report.observing act) s = (.ok (exec act s).1, (exec act s).2) := by
  rw [report.observing, exec_tryCatch, exec_bind]
  obtain ⟨result, t⟩ := exec act s
  cases result <;> rfl

/-! ## What a step keeps -/

/-- If `P` holds before the step, it holds after it, however the step ends. -/
def Keeps (P : State → Prop) (act : SessionM α) : Prop := ∀ s, P s → P (exec act s).2

variable {P : State → Prop} {s : State}

/-- What holds after the first step, and is kept by what follows, holds at the end. -/
theorem Keeps.after_of_ok {act : SessionM α} {next : α → SessionM β}
    (hnext : ∀ {a t}, exec act s = (.ok a, t) → Keeps P (next a)) (hact : P (exec act s).2) :
    P (exec (act >>= next) s).2 := by
  rw [exec_bind]
  cases hexec : exec act s with
  | mk result t =>
    rw [hexec] at hact
    cases result with
    | ok a => exact hnext hexec t hact
    | error failure => exact hact

/-- The same, if what follows keeps the property whatever the first step comes to. -/
theorem Keeps.after {act : SessionM α} {next : α → SessionM β} (hnext : ∀ a, Keeps P (next a))
    (hact : P (exec act s).2) : P (exec (act >>= next) s).2 :=
  Keeps.after_of_ok (fun _ => hnext _) hact

theorem Keeps.bind {act : SessionM α} {next : α → SessionM β} (hact : Keeps P act)
    (hnext : ∀ a, Keeps P (next a)) : Keeps P (act >>= next) :=
  fun s h => Keeps.after hnext (hact s h)

theorem Keeps.pure (a : α) : Keeps P (pure a : SessionM α) := fun _ h => h

theorem Keeps.throw (failure : Failure) : Keeps P (throw failure : SessionM α) := fun _ h => h

/-- A step that is taken or left out, with what follows it in any case. -/
theorem Keeps.when {condition : Prop} [Decidable condition] {act : SessionM Unit}
    {next : Unit → SessionM β} (hact : Keeps P act) (hnext : ∀ u, Keeps P (next u)) :
    Keeps P (if condition then act >>= next else next ()) := by
  split
  · exact Keeps.bind hact hnext
  · exact hnext ()

theorem Keeps.modify {f : State → State} (hf : ∀ s, P s → P (f s)) :
    Keeps P (modify f : SessionM Unit) := hf

theorem Keeps.currentForm : Keeps P currentForm := fun _ h => h

theorem Keeps.currentStore : Keeps P currentStore := fun _ h => h

theorem Keeps.failWith (exception : Option HostException) : Keeps P (failWith exception) := by
  cases exception with
  | none => exact Keeps.pure ()
  | some found => exact Keeps.throw (.host found)

theorem Keeps.orUnknown (id : String) (found : Option α) : Keeps P (orUnknown id found) := by
  cases found with
  | none => exact Keeps.throw (.unknown id)
  | some a => exact Keeps.pure a

/-! ## Why a step fails -/

/-- The step keeps the property, and if it fails, then with a failure of the kind `E`. -/
structure Ensures (P : State → Prop) (E : Failure → Prop) (act : SessionM α) : Prop where
  keeps : Keeps P act
  reason : ∀ s, P s → ∀ failure, (exec act s).1 = .error failure → E failure

/-- Nothing need be known of the failures. -/
theorem Keeps.ensures {act : SessionM α} (h : Keeps P act) : Ensures P (fun _ => True) act :=
  ⟨h, fun _ _ _ _ => trivial⟩

namespace Ensures

variable {E : Failure → Prop}

/-- One step after the other: what the first ensures the second starts from. -/
theorem bind {act : SessionM α} {next : α → SessionM β} (hact : Ensures P E act)
    (hnext : ∀ a, Ensures P E (next a)) : Ensures P E (act >>= next) := by
  refine ⟨Keeps.bind hact.keeps fun a => (hnext a).keeps, fun s h failure hfails => ?_⟩
  have hkept := hact.keeps s h
  have hreason := hact.reason s h
  rw [exec_bind] at hfails
  cases hexec : exec act s with
  | mk result t =>
    rw [hexec] at hkept hreason hfails
    cases result with
    | ok a => exact (hnext a).reason t hkept failure hfails
    | error found => exact hreason failure (congrArg Except.error (Except.error.inj hfails))

/-- A step that never fails. -/
theorem of_ok {act : SessionM α} (hact : Keeps P act) (hok : ∀ s, ∃ a t, exec act s = (.ok a, t)) :
    Ensures P E act := by
  refine ⟨hact, fun s _ failure hfails => ?_⟩
  obtain ⟨a, t, hexec⟩ := hok s
  rw [hexec] at hfails
  cases hfails

theorem pure (a : α) : Ensures P E (pure a : SessionM α) := of_ok (Keeps.pure a) fun s => ⟨a, s, rfl⟩

theorem throw {failure : Failure} (h : E failure) : Ensures P E (throw failure : SessionM α) :=
  ⟨Keeps.throw failure, fun _ _ _ hfails => Except.error.inj hfails ▸ h⟩

theorem orUnknown {id : String} (h : E (.unknown id)) (found : Option α) :
    Ensures P E (orUnknown id found) := by
  cases found with
  | none => exact throw h
  | some a => exact pure a

theorem failWith (h : ∀ exception, E (.host exception)) (exception : Option HostException) :
    Ensures P E (failWith exception) := by
  cases exception with
  | none => exact pure ()
  | some found => exact throw (h found)

theorem currentForm : Ensures P E currentForm := of_ok Keeps.currentForm fun s => ⟨s.form, s, rfl⟩

theorem currentStore : Ensures P E currentStore :=
  of_ok Keeps.currentStore fun s => ⟨s.form.store, s, rfl⟩

theorem get : Ensures P E (get : SessionM State) := of_ok (fun _ h => h) fun s => ⟨s, s, rfl⟩

end Ensures

end SchemaForm.Session
