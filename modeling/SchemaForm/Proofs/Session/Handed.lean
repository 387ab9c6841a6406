import SchemaForm.Proofs.Session.Submission
import SchemaForm.Proofs.Session.Throughout

/-!
# What handlers are given in the course of a session

Handlers are given values by submissions of the host, and also by those that listeners and other handlers
make in the meantime. The reports of a session tell of all of them. So what holds of the values of every
single submission holds of all values in the reports.

* `Report.Gave` — all values of which a report tells are of one kind;
* `Grants` — a property of states in which submissions hand on values of that kind only;
* `Grants.gave_of_run` — all values of which the reports of a session tell are of that kind.
-/

namespace SchemaForm.Session

/-- All values that the handler of the command was given are of this kind, and all those that were given in
the commands of the handler. -/
inductive Report.Gave (V : OrderedMap Value → Prop) : Report → Prop where
  | intro {r : Report} (received : ∀ values ∈ r.received, V values)
      (during : ∀ inside ∈ r.during, inside.Gave V) : r.Gave V

/-- The same of a command that is still at work. -/
structure Journal.Gave (V : OrderedMap Value → Prop) (journal : Journal) : Prop where
  received : ∀ values ∈ journal.received, V values
  during : ∀ inside ∈ journal.during, inside.Gave V

variable {inner : Command → SessionM Result} {D : Command → Prop} {P : State → Prop}
  {V : OrderedMap Value → Prop}

namespace Journal.Gave

theorem empty : Journal.Gave V {} := by
  constructor <;> simp

theorem receive {journal : Journal} (h : journal.Gave V) {values : OrderedMap Value} (hvalues : V values) :
    Gave V { journal with received := journal.received ++ [values] } where
  received := by
    intro other hmem
    rcases List.mem_append.mp hmem with hold | hnew
    · exact h.received other hold
    · rw [List.mem_singleton.mp hnew]
      exact hvalues
  during := h.during

theorem report {journal : Journal} (h : journal.Gave V) {found : Report} (hfound : found.Gave V) :
    Gave V { journal with during := journal.during ++ [found] } where
  received := h.received
  during := by
    intro other hmem
    rcases List.mem_append.mp hmem with hold | hnew
    · exact h.during other hold
    · rw [List.mem_singleton.mp hnew]
      exact hfound

end Journal.Gave

/-! ## Commands at work -/

/-- The property holds, and so far handlers were given values of this kind only. -/
abbrev Granted (P : State → Prop) (V : OrderedMap Value → Prop) : State → Prop :=
  fun s => P s ∧ s.journal.Gave V

/-- Commands throughout which `D` holds keep the property, and while it holds submissions hand on values of
the kind `V` only. -/
structure Grants (D : Command → Prop) (P : State → Prop) (V : OrderedMap Value → Prop) : Prop where
  kept : Kept D P
  handsOn : ∀ {depth : Nat} {s t : State} {values : OrderedMap Value}, P s →
    exec (openSubmission (perform depth)) s = (.ok (some values), t) → V values

namespace Grants

variable (h : Grants D P V)
include h

theorem steady : Steady (Command.Throughout D) (Granted P V) where
  gives hs := h.kept.robust.gives hs.1
  keeps_log events s hs := ⟨h.kept.robust.keeps_log events s hs.1, hs.2⟩
  keeps_note {write} hduring hreceived s hs := by
    refine ⟨h.kept.robust.keeps_note hduring hreceived s hs.1, ?_, ?_⟩
    · simpa [hreceived] using hs.2.received
    · simpa [hduring] using hs.2.during
  keeps_removeListener listener s hs := ⟨h.kept.robust.keeps_removeListener listener s hs.1, hs.2⟩
  addNamed id _ _ hfound hs := ⟨h.kept.robust.addNamed id hfound hs.1, hs.2⟩

theorem delivers (depth : Nat) : Delivers (perform depth) (Granted P V) := by
  intro s hs values t hopen u hu
  exact ⟨h.kept.robust.keeps_received values u hu.1, hu.2.receive (h.handsOn hs.1 hopen)⟩

/-- What one command reports, and what is left of the account of the command around it. -/
theorem exec_report {command : Command} (hinner : Keeps (Granted P V) (inner command)) {s : State}
    (hs : P s) :
    ∃ found t, exec (Session.report inner command) s = (.ok found, t) ∧ found.Gave V ∧ P t ∧
      t.journal = s.journal := by
  have hdone := hinner { s with journal := {} } ⟨h.kept.journalFree {} hs, .empty⟩
  refine ⟨_, _, Session.exec_report command s, ?_, h.kept.journalFree s.journal hdone.1, rfl⟩
  exact ⟨hdone.2.received, hdone.2.during⟩

theorem keeps_reportAll {commands : List Command}
    (hcommands : ∀ command ∈ commands, Keeps (Granted P V) (inner command)) :
    Keeps (Granted P V) (reportAll inner commands) := by
  induction commands with
  | nil => exact Keeps.pure ()
  | cons command rest ih =>
    have hrest := ih fun other hmem => hcommands other (List.mem_cons_of_mem _ hmem)
    intro s hs
    obtain ⟨found, t, hexec, hfound, ht, hjournal⟩ :=
      h.exec_report (hcommands command (List.mem_cons_self ..)) hs.1
    rw [reportAll, exec_bind_of_ok hexec, exec_bind_of_ok (exec_note _ t)]
    refine hrest _ ⟨h.kept.journalFree _ ht, ?_⟩
    rw [hjournal]
    exact hs.2.report hfound

/-- Each command hands on granted values, if the commands that listeners and handlers give do. -/
theorem keeps_step {depth : Nat} {command : Command} (hcommand : command.Throughout D)
    (hinner : ∀ given : Command, given.Throughout D → Keeps (Granted P V) (perform depth given)) :
    Keeps (Granted P V) (step (perform depth) command) := by
  have hhandler : Keeps (Granted P V) (reportAll (perform depth) command.handlerCommands) :=
    h.keeps_reportAll fun given hmem => hinner given (hcommand.handler given hmem)
  refine h.steady.keeps_step hinner ?_ ?_ hhandler ?_ ?_ (h.delivers depth)
  · exact fun operation hmem s hs => ⟨h.kept.writes hcommand.self operation hmem s hs.1, hs.2⟩
  · rintro id reaction once rfl s hs
    exact ⟨h.kept.subscribe hcommand s hs.1, hs.2⟩
  · exact fun hsubmits phase s hs => ⟨h.kept.enter hcommand.self hsubmits phase s hs.1, hs.2⟩
  · intro id hid
    obtain ⟨htake, hkeep⟩ := h.kept.ticket hcommand.self id hid
    refine ⟨fun s hs => ⟨htake s hs.1, ?_⟩, fun exception s hs => ⟨hkeep exception s hs.1, hs.2⟩⟩
    have hjournal : (exec (takeSubmission id) s).2.journal = s.journal := by
      rw [exec_takeSubmission]
      cases s.submissions.get? id <;> rfl
    rw [hjournal]
    exact hs.2

/-- By induction on the depth: what is given inside a command is one level deeper. -/
theorem keeps_perform (depth : Nat) :
    ∀ command : Command, command.Throughout D → Keeps (Granted P V) (perform depth command) := by
  induction depth with
  | zero => exact fun _ _ => Keeps.throw .endless
  | succ depth ih => exact fun command hcommand => h.keeps_step hcommand ih

/-! ## Sessions -/

/-- By induction on the commands: every report has granted values. -/
theorem exec_reports {commands : List Command} (hcommands : ∀ command ∈ commands, command.Throughout D)
    {s : State} (hs : P s) :
    ∃ found t, exec (reports commands) s = (.ok found, t) ∧ ∀ r ∈ found, r.Gave V := by
  induction commands generalizing s with
  | nil => exact ⟨[], s, rfl, by simp⟩
  | cons command rest ih =>
    obtain ⟨first, t, hexec, hfirst, ht, -⟩ :=
      h.exec_report (h.keeps_perform maxDepth command (hcommands command (List.mem_cons_self ..))) hs
    obtain ⟨found, u, hrest, hfound⟩ :=
      ih (fun other hmem => hcommands other (List.mem_cons_of_mem _ hmem)) ht
    refine ⟨first :: found, u, ?_, ?_⟩
    · rw [reports, exec_bind_of_ok hexec, exec_bind_of_ok hrest]
      rfl
    · simpa using ⟨hfirst, hfound⟩

/-- Whatever values a handler was given in a session, they are of this kind. -/
theorem gave_of_run {form : Form} {commands : List Command}
    (hcommands : ∀ command ∈ commands, command.Throughout D) (hform : P (.ofForm form)) :
    ∀ r ∈ (run form commands).1, r.Gave V := by
  obtain ⟨found, t, hexec, hfound⟩ := h.exec_reports hcommands hform
  rw [run_eq, hexec]
  exact hfound

end Grants

end SchemaForm.Session
