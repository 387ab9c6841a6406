import SchemaForm.Proofs.Store
import SchemaForm.Proofs.Session.Handed
import SchemaForm.Proofs.Session.Messages

/-!
# Values that are checked and values that are handed on

Listeners are called twice before the handler of a submission is: by `validate_form`, and by `set_submitting`.
What they do then comes after the values were validated, but before `coerce_values` reads them. If one of them
resets the form, `validate_form` is taken to have found nothing; if one of them writes a value, nobody looks at
it again.

* `Store.Operation.Upholds` — the operations that do no harm in between;
* `grants_accepted` — submissions hand on accepted values only, as long as listeners give no others;
* `handing_on_of_run` — what submissions hand on, in general and with such listeners;
* `blank_handed_on` — what may come of other listeners.
-/

namespace SchemaForm

/-! ## Operations that do no harm -/

namespace Store

/-- The operation neither writes a value that breaks a rule, nor goes back to such values. -/
def Operation.Upholds (schema : Schema) (initial : OrderedMap Value) : Operation → Prop
  | .setValue name v => schema.violation? name v = none
  | .reset => (schema.violations initial).isEmpty = true
  | _ => True

variable {s : Store}

theorem Consistent.valid_iff (h : s.Consistent) : s.valid = true ↔ ∀ name, s.violation? name = none := by
  rw [h.valid_eq_isEmpty, OrderedMap.isEmpty_iff]
  simp only [violation?_eq_get?_violations]

/-- If all violations are written down, none is written down only if none is there. -/
theorem Complete.valid_of_isEmpty (h : s.Complete) (hconsistent : s.Consistent)
    (hempty : s.errors.isEmpty = true) : s.valid = true := by
  rw [hconsistent.valid_iff]
  intro name
  rw [← h name]
  exact OrderedMap.isEmpty_iff.mp hempty name

/-- A reset to values that break no rule makes no violation go that is still there. -/
theorem complete_reset (h : (s.schema.violations s.initial).isEmpty = true) :
    s.reset.store.Complete := by
  intro name
  rw [violation?_eq_get?_violations]
  exact (OrderedMap.isEmpty_iff.mp h name).symm

variable {operation : Operation}

theorem Complete.apply_of_upholds (h : s.Complete) (hupholds : operation.Upholds s.schema s.initial) :
    (s.apply operation).store.Complete := by
  by_cases hreset : operation = .reset
  · subst hreset
    exact complete_reset hupholds
  · exact h.apply hreset

/-- Values that break no rule are followed by values that break none. -/
theorem valid_apply_of_upholds (hconsistent : s.Consistent) (h : s.valid = true)
    (hupholds : operation.Upholds s.schema s.initial) : (s.apply operation).store.valid = true := by
  rw [(hconsistent.apply operation).valid_iff]
  have hvalues := hconsistent.valid_iff.mp h
  intro other
  cases operation with
  | setValue name v =>
    by_cases hname : name ∈ s.schema.names
    · rw [apply, store_setValue hname, violation?_written]
      split
      · exact hupholds
      · exact hvalues other
    · rw [apply, store_setValue_of_not_mem hname]
      exact hvalues other
  | setTouched name => rw [apply, setTouched]; split <;> exact hvalues other
  | validateField name =>
    by_cases hname : name ∈ s.schema.names
    · rw [apply, store_validateField hname, violation?_checked]
      exact hvalues other
    · rw [apply, store_validateField_of_not_mem hname]
      exact hvalues other
  | validateForm => exact hvalues other
  | reset =>
    rw [apply, violation?_eq_get?_violations]
    exact OrderedMap.isEmpty_iff.mp hupholds other
  | setSubmitting flag => rw [apply, setSubmitting]; split <;> exact hvalues other

end Store

namespace Session

variable {schema : Schema} {initial : OrderedMap Value}

/-- None of the operations of the command does harm. -/
def Command.Upholds (schema : Schema) (initial : OrderedMap Value) (command : Command) : Prop :=
  ∀ operation ∈ command.operations, operation.Upholds schema initial

/-- The listener that the command may add gives no commands that may do harm, neither itself nor by what
comes of them. -/
def Command.AddsUpholding (schema : Schema) (initial : OrderedMap Value) (command : Command) : Prop :=
  ∀ given ∈ command.listenerCommands, given.Throughout (Command.Upholds schema initial)

theorem Command.Throughout.addsUpholding {command : Command}
    (h : command.Throughout (Command.Upholds schema initial)) :
    command.Throughout (Command.AddsUpholding schema initial) := by
  induction h with
  | intro _ hlistener _ ihlistener ihhandler => exact .intro hlistener ihlistener ihhandler

/-! ## The store in the meantime -/

/-- A property of the store alone that the operations of the commands keep. -/
theorem indifferent_store {D : Command → Prop} {I : Store → Prop}
    (h : ∀ {command}, D command → ∀ operation ∈ command.operations,
      ∀ store, I store → I (store.apply operation).store) : Indifferent D fun s => I s.form.store where
  events _ hs := hs
  journal _ hs := hs
  listeners _ _ _ hs := hs
  writes hcommand operation hmem s hs := h hcommand operation hmem s.form.store hs
  phase _ _ _ _ hs := hs
  submissions _ _ _ _ hs := ⟨hs, fun _ => hs⟩

/-- The store of a form with this schema and these initial values, at any time. -/
structure OfForm (schema : Schema) (initial : OrderedMap Value) (store : Store) : Prop where
  schema_eq : store.schema = schema
  initial_eq : store.initial = initial
  consistent : store.Consistent

theorem OfForm.apply {store : Store} (h : OfForm schema initial store) (operation : Store.Operation) :
    OfForm schema initial (store.apply operation).store where
  schema_eq := (store.schema_apply operation).trans h.schema_eq
  initial_eq := (store.initial_apply operation).trans h.initial_eq
  consistent := h.consistent.apply operation

/-- Listeners do no harm, and the store of the form is such a store with the property `I`. -/
abbrev Upheld (schema : Schema) (initial : OrderedMap Value) (I : Store → Prop) (s : State) : Prop :=
  Peopled (Listener.Gives (Command.Throughout (Command.Upholds schema initial))) s ∧
    (OfForm schema initial s.form.store ∧ I s.form.store)

/-- Commands that do no harm keep what operations keep that do no harm. -/
theorem kept_upheld {I : Store → Prop}
    (hI : ∀ {store operation}, OfForm schema initial store → operation.Upholds schema initial → I store →
      I (store.apply operation).store) :
    Kept (Command.Upholds schema initial) (Upheld schema initial I) := by
  refine kept_peopled (fun _ h => h) (fun hcommand _ => hcommand.listener)
    (indifferent_store (I := fun store => OfForm schema initial store ∧ I store) ?_)
  intro command hcommand operation hmem store hstore
  exact ⟨hstore.1.apply operation, hI hstore.1 (hcommand operation hmem) hstore.2⟩

/-- Between the check of the form and the call, no violation is missing, -/
theorem kept_complete : Kept (Command.Upholds schema initial) (Upheld schema initial Store.Complete) := by
  refine kept_upheld fun hstore hupholds hcomplete => ?_
  obtain ⟨rfl, rfl, -⟩ := hstore
  exact hcomplete.apply_of_upholds hupholds

/-- and if none is there, none comes up. -/
theorem kept_valid :
    Kept (Command.Upholds schema initial) (Upheld schema initial fun store => store.valid = true) := by
  refine kept_upheld fun hstore hupholds hvalid => ?_
  obtain ⟨rfl, rfl, hconsistent⟩ := hstore
  exact Store.valid_apply_of_upholds hconsistent hvalid hupholds

/-! ## What is handed on -/

/-- These are values that break no rule, with numbers in the place of texts. -/
def Accepted (schema : Schema) (values : OrderedMap Value) : Prop :=
  ∃ checked, (schema.violations checked).isEmpty = true ∧ values = schema.coerce checked

/-- A submission hands on values that break no rule if the listeners do no harm. -/
theorem accepted_of_openSubmission {depth : Nat} {s t : State} {values : OrderedMap Value}
    (hs : Upheld schema initial (fun _ => True) s)
    (hopen : exec (openSubmission (perform depth)) s = (.ok (some values), t)) :
    Accepted schema values := by
  obtain ⟨⟨hpresent, hnamed⟩, hstore, -⟩ := hs
  cases opening_of_ok hopen with
  | called hcheck herrors hcall =>
    next checked called =>
    have hwritten : Upheld schema initial Store.Complete (s.validating.written .validateForm) :=
      ⟨⟨hpresent, hnamed⟩, hstore.apply .validateForm, s.form.store.complete_validateForm⟩
    have hchecked : Upheld schema initial Store.Complete checked := by
      have h := kept_complete.robust.after_apply (kept_complete.perform depth) hwritten
      rwa [hcheck] at h
    obtain ⟨hpeopled, hform, hcomplete⟩ := hchecked
    have hvalid : checked.form.store.valid = true := hcomplete.valid_of_isEmpty hform.consistent herrors
    have hraise : Command.Upholds schema initial (.setSubmitting true) := by
      simp [Command.Upholds, Command.operations, Store.Operation.Upholds]
    have hcalled : Upheld schema initial (fun store => store.valid = true) called := by
      have hwrites := kept_valid.writes hraise (.setSubmitting true) (List.mem_singleton_self _)
      have h := kept_valid.robust.keeps_apply (kept_valid.perform depth) hwrites
        checked ⟨hpeopled, hform, hvalid⟩
      rwa [hcall] at h
    obtain ⟨-, ⟨hschema, -, hconsistent⟩, hvalid⟩ := hcalled
    refine ⟨called.form.store.values, ?_, congrArg (Schema.coerce · called.form.store.values) hschema⟩
    rwa [hconsistent.valid_eq_isEmpty, hschema] at hvalid

theorem grants_accepted (schema : Schema) (initial : OrderedMap Value) :
    Grants (Command.AddsUpholding schema initial) (Upheld schema initial fun _ => True)
      (Accepted schema) where
  kept := by
    refine kept_peopled ?_ (fun hcommand _ => hcommand.self) (indifferent_store
      (I := fun store => OfForm schema initial store ∧ True) fun _ operation _ _ hstore =>
        ⟨hstore.1.apply operation, trivial⟩)
    exact fun listener hgives given hmem => (hgives given hmem).addsUpholding
  handsOn := accepted_of_openSubmission

/-- **What submissions hand on.** Whatever listeners do when they are told of a submission, the handler gets
the values that the form has when it is called, and these break no rule exactly if the form counts as valid
then. If no listener writes a value that breaks a rule or resets a form to such values, then all values that
handlers are given in the course of a session break no rule, also in the submissions of listeners and of
other handlers. -/
theorem handing_on_of_run (settings : Settings) (schema : Schema) (layout? : Option Layout)
    (options : FormOptions) (commands : List Command) :
    let form := Form.ofSchema settings schema layout? options
    (∀ depth values t,
      exec (openSubmission (perform depth)) (run form commands).2 = (.ok (some values), t) →
      values = schema.coerce t.form.store.values ∧
        (schema.violations t.form.store.values).isEmpty = t.form.store.valid) ∧
    ((∀ command ∈ commands, command.Throughout (Command.AddsUpholding schema form.store.initial)) →
      ∀ r ∈ (run form commands).1, r.Gave (Accepted schema)) := by
  intro form
  have hform : OfForm schema form.store.initial form.store :=
    ⟨rfl, rfl, Store.consistent_ofData schema options.data⟩
  refine ⟨fun depth values t hopen => ?_, fun hcommands => ?_⟩
  · have hkept : OfForm schema form.store.initial t.form.store := by
      have h := openSubmission_keeps (fun _ operation hstore => hstore.apply operation)
        commands hform depth
      rwa [hopen] at h
    obtain ⟨hschema, -, hconsistent⟩ := hkept
    refine ⟨?_, ?_⟩
    · cases opening_of_ok hopen with
      | called hcheck herrors hcall => exact congrArg (Schema.coerce · _) hschema
    · rw [hconsistent.valid_eq_isEmpty, hschema]
  · exact (grants_accepted schema form.store.initial).gave_of_run hcommands
      ⟨peopled_ofForm form, hform, trivial⟩

/-- One text, which may not be left empty. -/
def requiredRemark : Schema := { remark with required := ["remark"] }

def remarked (text : String) : OrderedMap Value := .ofList [("remark", .text text)]

/-- A form that starts with a remark, -/
def startedForm : Form :=
  .ofSchema {} requiredRemark none { data := remarked "fine", takesSubmissions := true }

/-- and a listener that puts another in its place as soon as something happens. -/
def mendingSession : List Command :=
  [.subscribe "mend" { commands := [.unsubscribe "mend", .setValue "remark" (.text "better")] } false,
    .submit false {}]

theorem addsUpholding_mendingSession : ∀ command ∈ mendingSession,
    command.Throughout (Command.AddsUpholding requiredRemark startedForm.store.initial) := by
  have hgiven : Command.AddsUpholding requiredRemark startedForm.store.initial mendingSession[0] := by
    intro given hmem
    simp only [mendingSession, List.getElem_cons_zero, Command.listenerCommands, List.mem_cons,
      List.not_mem_nil, or_false] at hmem
    rcases hmem with rfl | rfl
    · exact .of_nil (List.forall_mem_nil _) rfl rfl
    · refine .of_nil ?_ rfl rfl
      simp only [Command.Upholds, Command.operations, List.mem_singleton, forall_eq,
        Store.Operation.Upholds]
      decide +kernel
  intro command hmem
  simp only [mendingSession, List.mem_cons, List.not_mem_nil, or_false] at hmem
  rcases hmem with rfl | rfl
  · exact .intro hgiven (fun given hmem => (hgiven given hmem).addsUpholding) (List.forall_mem_nil _)
  · exact .of_nil (List.forall_mem_nil _) rfl rfl

theorem handing_on_of_run_mending :
    (∀ command ∈ mendingSession,
      command.Throughout (Command.AddsUpholding requiredRemark startedForm.store.initial)) ∧
    (∀ r ∈ (run startedForm mendingSession).1, r.Gave (Accepted requiredRemark)) ∧
    (run startedForm mendingSession).1.map Report.received = [[], [remarked "better"]] ∧
    ∃ t, exec (openSubmission (perform 1)) (run startedForm mendingSession).2 =
        (.ok (some (remarked "better")), t) ∧
      remarked "better" = requiredRemark.coerce t.form.store.values ∧
      (requiredRemark.violations t.form.store.values).isEmpty = t.form.store.valid := by
  obtain ⟨hopened, hgave⟩ := handing_on_of_run {} requiredRemark none
    { data := remarked "fine", takesSubmissions := true } mendingSession
  refine ⟨addsUpholding_mendingSession, hgave addsUpholding_mendingSession, rfl, ?_⟩
  have hopen : exec (openSubmission (perform 1)) (run startedForm mendingSession).2 =
      (.ok (some (remarked "better")),
        (exec (openSubmission (perform 1)) (run startedForm mendingSession).2).2) := rfl
  exact ⟨_, hopen, hopened 1 _ _ hopen⟩

/-! ### Listeners that do harm -/

theorem not_accepted_blank : ¬ Accepted requiredRemark (remarked "") := by
  rintro ⟨checked, hempty, hcoerced⟩
  have hfound : (requiredRemark.coerce checked).get? "remark" = some (.text "") := by
    rw [← hcoerced]
    rfl
  rw [Schema.coerce, OrderedMap.get?_map] at hfound
  obtain ⟨v, hv, hblank⟩ := Option.map_eq_some_iff.mp hfound
  -- texts are handed on as they are
  have hkept : requiredRemark.coerceValue "remark" v = v := by
    cases v <;> rfl
  rw [OrderedMap.isEmpty_iff] at hempty
  have hnone := hempty "remark"
  rw [Schema.get?_violations, Schema.valueIn, hv, ← hkept, hblank] at hnone
  cases hnone

/-- A form without a remark, in which one is written down, -/
def blankForm : Form := .ofSchema {} requiredRemark none { takesSubmissions := true }

/-- and that a listener resets when it has been checked; -/
def wipeSession : List Command :=
  [.setValue "remark" (.text "fine"),
    .subscribe "wipe" { commands := [.unsubscribe "wipe", .reset] } false,
    .submit false {}]

/-- or in which a listener takes the remark away when the submission is noted to be under way. -/
def swapSession : List Command :=
  let late : Command :=
    .subscribe "late" { commands := [.unsubscribe "late", .setValue "remark" (.text "")] } false
  [.setValue "remark" (.text "fine"),
    .subscribe "setup" { commands := [.unsubscribe "setup", late] } false,
    .submit false {}]

/-- Either way the handler is given a remark that is left empty, although one is required. -/
theorem blank_handed_on :
    (run blankForm wipeSession).1.map Report.received = [[], [], [remarked ""]] ∧
      (run blankForm swapSession).1.map Report.received = [[], [], [remarked ""]] ∧
      ∀ checked, (requiredRemark.violations checked).isEmpty = true →
        remarked "" ≠ requiredRemark.coerce checked :=
  ⟨rfl, rfl, fun checked hempty heq => not_accepted_blank ⟨checked, hempty, heq⟩⟩

end Session

end SchemaForm
