import SchemaForm.Proofs.Session.Notices
import SchemaForm.Proofs.Session.Roster
import SchemaForm.Proofs.Session.Touched

/-!
# Who is told of changes

A listener may be given to `subscribe` several times, and each time a function to unsubscribe it is returned.
What this removes is the first equal listener, though. So one subscription may be ended in the place of another,
also when that other one was ended already.

* `Listener.Stays`, `Command.Plain` — listeners that do nothing but to note what they are told, or to fail,
  and the commands that concern such listeners and the store;
* `reached`, `callsOf` — who is told of a change;
* `exec_tellAll_of_stays` — such listeners leave nothing but their notes;
* `audience_step`, `audience_reports` — what commands do to those who listen;
* `own_subscription_ended_iff` — exactly when each subscription lasts until it is ended itself.
-/

namespace SchemaForm.Session

variable {s : State} {command : Command} {commands : List Command} {listeners : List Listener}

/-! ## Listeners that stay -/

/-- The listener gives no commands, and it does not take itself away. It may fail. -/
structure Listener.Stays (listener : Listener) : Prop where
  commands : listener.reaction.commands = []
  once : listener.once = false

theorem Listener.Stays.gives {listener : Listener} (h : listener.Stays) (L : Command → Prop) :
    listener.Gives L :=
  Listener.gives_of_nil h.commands L

/-- Those of the listeners that are told of a change: all up to the first that fails. -/
def reached : List Listener → List Listener
  | [] => []
  | listener :: rest => listener :: if listener.reaction.exception.isSome then [] else reached rest

/-- The calls of listeners with a notice, if there is one. -/
def callsOf (listeners : List Listener) : Option Notice → List (String × Notice)
  | some notice => (reached listeners).map fun listener => (listener.id, notice)
  | none => []

/-- The state with these notes in the journal. -/
def State.noting (s : State) (notes : List (String × Notice)) : State :=
  { s with journal := { s.journal with notes := s.journal.notes ++ notes } }

theorem State.noting_nil (s : State) : s.noting [] = s := by
  rw [noting, List.append_nil]

theorem State.noting_noting (s : State) (notes others : List (String × Notice)) :
    (s.noting notes).noting others = s.noting (notes ++ others) := by
  simp only [noting, List.append_assoc]

theorem exec_tellListener_of_stays (inner : Command → SessionM Result) (notice : Notice)
    {listener : Listener} (h : listener.Stays) (s : State) :
    exec (tellListener inner notice listener) s =
      (ending () listener.reaction.exception, s.noting [(listener.id, notice)]) := by
  rw [tellListener, exec_bind_of_ok (exec_note _ s), exec_bind_of_ok (exec_giveAll_of_never (h.gives Never) _),
    h.once]
  exact exec_failWith _ _

/-- Such listeners are told up to the first that fails, and nothing is left but what they note. -/
theorem exec_tellAll_of_stays (inner : Command → SessionM Result) (notice : Notice)
    (h : ∀ listener ∈ listeners, listener.Stays) (s : State) :
    exec (tellAll inner notice listeners) s =
      (ending () (firstException listeners), s.noting (callsOf listeners (some notice))) := by
  induction listeners generalizing s with
  | nil =>
    rw [callsOf, reached, List.map_nil, s.noting_nil]
    rfl
  | cons listener rest ih =>
    obtain ⟨hfirst, hrest⟩ := List.forall_mem_cons.mp h
    have htold := exec_tellListener_of_stays inner notice hfirst s
    rw [tellAll, firstException, List.findSome?_cons, callsOf, reached]
    cases hexception : listener.reaction.exception with
    | some exception =>
      rw [hexception] at htold
      exact exec_bind_of_error htold
    | none =>
      rw [hexception] at htold
      rw [exec_bind_of_ok htold, ih hrest, State.noting_noting]
      rfl

/-- An operation under such listeners writes to the store, and leaves their notes. -/
theorem exec_apply_of_stays (inner : Command → SessionM Result) (h : ∀ listener ∈ s.listeners, listener.Stays)
    (operation : Store.Operation) :
    ∃ result, exec (apply inner operation) s =
      (result, State.noting
        { s.written operation with events := s.events ++ (s.form.store.apply operation).events }
        (callsOf s.listeners (s.form.store.apply operation).notice)) := by
  rw [exec_apply_eq]
  cases (s.form.store.apply operation).notice with
  | none => exact ⟨_, congrArg (Prod.mk _) (State.noting_nil _).symm⟩
  | some notice => exact ⟨_, exec_tellAll_of_stays inner notice h _⟩

/-! ## Commands -/

/-- The command is an operation on the store, or it adds or takes away a listener that stays. -/
inductive Command.Plain : Command → Prop where
  | operation (operation : Store.Operation) : Plain (.ofOperation operation)
  | subscribe (id : String) (exception : Option HostException) : Plain (.subscribe id { exception } false)
  | subscribeAgain (id other : String) : Plain (.subscribeAgain id other)
  | unsubscribe (id : String) : Plain (.unsubscribe id)

/-- Nothing else comes of such a command. -/
theorem Command.Plain.throughout (h : command.Plain) : command.Throughout Command.Plain := by
  cases h with
  | operation operation => cases operation <;> exact .of_nil (.operation _) rfl rfl
  | subscribe id exception => exact .of_nil (.subscribe id exception) rfl rfl
  | subscribeAgain id other => exact .of_nil (.subscribeAgain id other) rfl rfl
  | unsubscribe id => exact .of_nil (.unsubscribe id) rfl rfl

theorem Command.Plain.stays {id : String} {reaction : Reaction Command} {once : Bool}
    (h : (Command.subscribe id reaction once).Plain) (number : Nat) :
    Listener.Stays { number, id, reaction, once } := by
  generalize hcommand : Command.subscribe id reaction once = command at h
  cases h with
  | operation operation => cases operation <;> cases hcommand
  | subscribe id exception =>
    cases hcommand
    exact ⟨rfl, rfl⟩
  | subscribeAgain id other => cases hcommand
  | unsubscribe id => cases hcommand

/-- Plain commands leave listeners that stay. -/
theorem kept_stays : Kept Command.Plain (Peopled Listener.Stays) :=
  kept_listeners (fun _ h => h.gives _) fun hcommand => hcommand.self.stays

/-! ### What they do to the audience -/

/-- Those who listen in this state. -/
def State.audience (s : State) : Audience := ⟨s.listeners, s.subscriptions, s.listenerCount⟩

theorem State.audience_named (s : State) : s.audience.named = s.subscriptions := rfl

/-- An operation changes nobody's subscription. -/
theorem Audience.after_ofOperation (a : Audience) (operation : Store.Operation) :
    a.after (.ofOperation operation) = a := by
  cases operation <;> rfl

/-- The listeners of a session follow the small machine command by command. -/
theorem audience_step (inner : Command → SessionM Result) (hs : Peopled Listener.Stays s)
    (hcommand : command.Plain) : (exec (step inner command) s).2.audience = s.audience.after command := by
  cases hcommand with
  | operation operation =>
    obtain ⟨result, happly⟩ := exec_apply_of_stays inner hs.present operation
    rw [Audience.after_ofOperation, exec_step_ofOperation operation happly]
    rfl
  | subscribe id exception => rfl
  | subscribeAgain id other =>
    rw [step, exec_bind_of_ok (exec_get s), Audience.after, s.audience_named]
    cases s.subscriptions.get? other <;> rfl
  | unsubscribe id =>
    rw [step, exec_bind_of_ok (exec_get s), Audience.after, s.audience_named]
    cases s.subscriptions.get? id <;> rfl

/-- A report changes nothing but the journal. -/
theorem audience_report (hs : Peopled Listener.Stays s) (hcommand : command.Plain) :
    (exec (report (perform maxDepth) command) s).2.audience = s.audience.after command := by
  obtain ⟨depth, hdepth⟩ := exists_perform_maxDepth
  have hstep := audience_step (perform depth) (s := { s with journal := {} })
    ⟨hs.present, hs.named⟩ hcommand
  rw [exec_report, hdepth]
  exact hstep

theorem audience_reports (hs : Peopled Listener.Stays s) (hcommands : ∀ command ∈ commands, command.Plain) :
    (exec (reports commands) s).2.audience = commands.foldl Audience.after s.audience := by
  induction commands generalizing s with
  | nil => rfl
  | cons command rest ih =>
    obtain ⟨hfirst, hrest⟩ := List.forall_mem_cons.mp hcommands
    have hkept : Peopled Listener.Stays (exec (report (perform maxDepth) command) s).2 :=
      keeps_report kept_stays.journalFree (kept_stays.perform maxDepth command hfirst.throughout) s hs
    rw [exec_reports_cons, ih hkept hrest, audience_report hs hfirst, List.foldl_cons]

/-- The report of an operation says who was told of it. -/
theorem notes_report_ofOperation (hs : Peopled Listener.Stays s) (operation : Store.Operation) :
    ∃ found t, exec (report (perform maxDepth) (.ofOperation operation)) s = (.ok found, t) ∧
      found.notes = callsOf s.listeners (s.form.store.apply operation).notice := by
  obtain ⟨depth, hdepth⟩ := exists_perform_maxDepth
  obtain ⟨result, happly⟩ := exec_apply_of_stays (perform depth) (s := { s with journal := {} })
    hs.present operation
  refine ⟨_, _, exec_report _ s, ?_⟩
  rw [hdepth, exec_step_ofOperation operation happly]
  rfl

/-! ## Runs -/

section

variable (form : Form) (hcommands : ∀ command ∈ commands, command.Plain)
include hcommands

theorem audience_run : (run form commands).2.audience = commands.foldl Audience.after {} := by
  rw [run_snd]
  exact audience_reports (peopled_ofForm form) hcommands

theorem peopled_run : Peopled Listener.Stays (run form commands).2 :=
  kept_stays.run (fun command hmem => (hcommands command hmem).throughout) (peopled_ofForm form)

/-- Each subscription lasts until it is ended itself exactly if none is ended that may be taken for
another. -/
theorem listeners_run_iff :
    (∀ before, before <+: commands → (run form before).2.listeners = (Roster.of before).listeners) ↔
      ∀ before id made, before ++ [.unsubscribe id] <+: commands →
        (Roster.of before).named.get? id = some made → (Roster.of before).EndsOwn made := by
  refine Iff.trans ?_ (Enrolled.empty.listeners_throughout_iff rfl commands)
  refine forall₂_congr fun before hbefore => ?_
  have haudience := audience_run form fun command hmem => hcommands command (hbefore.subset hmem)
  rw [← haudience]
  exact Iff.rfl

/-- **Who is told of a change.** Listeners that do nothing but to note what they are told, or to fail, are
added and taken away, and operations are done in between. Whoever is on the list is told of an operation,
in order, up to the first that fails. The list has those whose own subscription was not ended, once for
each subscription and in the order of these, as long as every subscription that is ended is the first one
with its listener, or comes right after others with that listener, or was ended before and none with that
listener is left. In no other case does it stay so; and if no listener is added a second time, there is no
other case. -/
theorem own_subscription_ended_iff :
    (∀ before, before <+: commands → ∀ operation, ∃ found t,
      exec (report (perform maxDepth) (.ofOperation operation)) (run form before).2 = (.ok found, t) ∧
        found.notes = callsOf (run form before).2.listeners
          ((run form before).2.form.store.apply operation).notice) ∧
    ((∀ before, before <+: commands → (run form before).2.listeners = (Roster.of before).listeners) ↔
      ∀ before id made, before ++ [.unsubscribe id] <+: commands →
        (Roster.of before).named.get? id = some made → (Roster.of before).EndsOwn made) ∧
    ((∀ id other, .subscribeAgain id other ∉ commands) →
      ∀ before, before <+: commands → (run form before).2.listeners = (Roster.of before).listeners) := by
  refine ⟨fun before hbefore operation => ?_, listeners_run_iff form hcommands, fun honce => ?_⟩
  · have hplain : ∀ command ∈ before, command.Plain :=
      fun command hmem => hcommands command (hbefore.subset hmem)
    exact notes_report_ofOperation (peopled_run form hplain) operation
  · rw [listeners_run_iff form hcommands]
    intro before id made hbefore hnamed
    have hdistinct : (Roster.of before).Distinct := by
      refine Roster.distinct_foldl .empty Roster.distinct_empty fun other again hmem => ?_
      exact honce other again (hbefore.subset (List.mem_append_left _ hmem))
    exact hdistinct.endsOwn (Roster.consistent_of before) (.inr ⟨id, hnamed⟩)

end

/-- One of two listeners goes, and says so twice. -/
def goneTwice : List Command :=
  [.subscribe "first" {} false, .subscribe "second" {} false, .unsubscribe "first", .unsubscribe "first"]

theorem plain_goneTwice : ∀ command ∈ goneTwice, command.Plain := by
  rw [goneTwice, List.forall_mem_cons, List.forall_mem_cons, List.forall_mem_cons, List.forall_mem_singleton]
  exact ⟨.subscribe "first" none, .subscribe "second" none, .unsubscribe "first", .unsubscribe "first"⟩

theorem own_subscription_ended_goneTwice :
    (∀ command ∈ goneTwice, command.Plain) ∧ (∀ id other, .subscribeAgain id other ∉ goneTwice) ∧
      (run remarkForm goneTwice).2.listeners.map (·.id) = ["second"] := by
  have honce : ∀ id other, .subscribeAgain id other ∉ goneTwice := by simp [goneTwice]
  refine ⟨plain_goneTwice, honce, ?_⟩
  rw [(own_subscription_ended_iff remarkForm plain_goneTwice).2.2 honce goneTwice (List.prefix_refl _)]
  decide +kernel

/-- What is noted of a reset after these commands. -/
def notedOfReset (commands : List Command) : List (String × Notice) :=
  match exec (report (perform maxDepth) .reset) (run remarkForm commands).2 with
  | (.ok found, _) => found.notes
  | (.error _, _) => []

/-- A listener has two subscriptions. Whoever ends the first one twice ends both. -/
def endedBoth : List Command :=
  [.subscribe "first" {} false, .subscribeAgain "again" "first", .unsubscribe "first", .unsubscribe "first"]

/-- Whoever ends the second one ends the first one in its place. -/
def endedOther : List Command :=
  [.subscribe "first" {} false, .subscribe "second" {} false, .subscribeAgain "again" "first",
    .unsubscribe "again"]

theorem other_subscription_ended :
    (notedOfReset endedBoth = [] ∧ (Roster.of endedBoth).listeners.map (·.id) = ["first"]) ∧
      notedOfReset endedOther = [("second", .form), ("first", .form)] ∧
        (Roster.of endedOther).listeners.map (·.id) = ["first", "second"] := by
  decide +kernel

end SchemaForm.Session
