import SchemaForm.CommandLine.Answer
import SchemaForm.Proofs.OrderedMap
import SchemaForm.Proofs.Session.Received

/-!
# Validation on the command line and in a form

What `cmd_validate` answers is what a form would make of the same data: valid data are shown as `on_submit`
would get them, and others as they are, with the messages of the form that would have held them back.

* `verdictText` — what is written of a validation;
* `answer_validate` — the answer to a request whose files can be read;
* `validation_agrees_with_submission` — this answer and the report of a submission.
-/

namespace SchemaForm.CommandLine

variable {settings : Settings} {contents : String → Content} {definitionPath dataPath : String}
  {definition : Definition} {data : OrderedMap Value}

/-! ## What is written -/

/-- What is written of a validation. -/
def verdictText (settings : Settings) (isValid : Bool) (errors : OrderedMap String)
    (values : OrderedMap Value) : String :=
  Json.print (spacing settings) (.object
    [("is_valid", .bool isValid),
      ("errors", .object (errors.map fun _ message => Value.text message).entries),
      ("values", .object values.entries)]) ++ "\n"

theorem answer_validate (hdefinition : readDefinition definitionPath (contents definitionPath) = .ok definition)
    (hdata : readData dataPath (contents dataPath) = .ok data) :
    answer settings contents (.validate definitionPath dataPath) =
      .ok (validateAnswer settings definition data) := by
  rw [answer, tryAnswer, hdefinition]
  dsimp only [bind, Except.bind]
  rw [hdata]
  rfl

/-- The violations that are found in the data. -/
def breaches (definition : Definition) (data : OrderedMap Value) : OrderedMap Violation :=
  definition.schema.violations (definition.schema.initialValues data)

/-- Data that break no rule are shown coerced, without messages. -/
theorem validateAnswer_of_passes (settings : Settings) (h : (breaches definition data).isEmpty = true) :
    (validateAnswer settings definition data).status = 0 ∧
      (validateAnswer settings definition data).output =
        verdictText settings true ∅ (definition.schema.coerce (definition.schema.initialValues data)) := by
  have hnone : breaches definition data = ∅ := OrderedMap.ext (List.isEmpty_iff.mp h)
  have hempty : (definition.form settings { definition.options with data }).store.validateForm.store.errors =
      ∅ := hnone
  rw [validateAnswer]
  dsimp only
  rw [Store.messages, hempty]
  exact ⟨rfl, rfl⟩

/-- Others are shown as a form would hold them, with its messages. -/
theorem validateAnswer_of_broken (settings : Settings) (h : (breaches definition data).isEmpty = false) :
    (validateAnswer settings definition data).status = 1 ∧
      (validateAnswer settings definition data).output =
        verdictText settings false ((breaches definition data).map fun _ violation => violation.message)
          (definition.schema.initialValues data) := by
  have hsome : (definition.form settings { definition.options with data }).store.validateForm.store.errors.isEmpty =
      false := h
  rw [validateAnswer]
  dsimp only
  rw [hsome]
  exact ⟨rfl, rfl⟩

/-! ## Submissions -/

/-- **Validation on the command line agrees with a form.** For every definition and all data that can be
read from two files, a form of the definition is filled with the data and submitted, with any handler. The
answer has the status 0 exactly if the handler is called, and then it shows the values that the handler gets
first, without messages. Otherwise it has the status 1 and shows the messages that the form has after the
submission, of which there is one at least, and the values that it started with. -/
theorem validation_agrees_with_submission (settings : Settings)
    (hdefinition : readDefinition definitionPath (contents definitionPath) = .ok definition)
    (hdata : readData dataPath (contents dataPath) = .ok data) (options : FormOptions) (event : Bool)
    (handler : Session.Reaction Session.Command) :
    let form := definition.form settings { options with data, takesSubmissions := true }
    ∃ shown report,
      answer settings contents (.validate definitionPath dataPath) = .ok shown ∧
      (Session.run form [.submit event handler]).1 = [report] ∧
      (shown.status = 0 ↔ report.received ≠ []) ∧
      (∀ values ∈ report.received.head?,
        shown.status = 0 ∧ shown.output = verdictText settings true ∅ values) ∧
      (report.received = [] →
        shown.status = 1 ∧
        shown.output =
          verdictText settings false report.after.snapshot.errors (definition.schema.initialValues data) ∧
        report.after.snapshot.errors ≠ ∅ ∧
        report.after.snapshot.values = definition.schema.initialValues data ∧
        report.result = .ok (Session.answer event false)) := by
  intro form
  obtain ⟨report, hrun, hvalid, hbroken⟩ := Session.run_submit form rfl rfl event handler
  refine ⟨_, report, answer_validate hdefinition hdata, hrun, ?_⟩
  -- both sides ask whether the initial values of the form break a rule
  cases hpasses : (breaches definition data).isEmpty with
  | true =>
    obtain ⟨hstatus, houtput⟩ := validateAnswer_of_passes settings hpasses
    obtain ⟨later, hreceived⟩ := hvalid hpasses
    rw [← hreceived]
    refine ⟨iff_of_true hstatus nofun, fun values hvalues => ?_, nofun⟩
    cases hvalues
    exact ⟨hstatus, houtput⟩
  | false =>
    obtain ⟨hstatus, houtput⟩ := validateAnswer_of_broken settings hpasses
    obtain ⟨hreceived, hresult, hafter⟩ := hbroken hpasses
    rw [hreceived, hafter]
    refine ⟨iff_of_false ?_ (fun h => h rfl), nofun, fun _ => ⟨hstatus, houtput, ?_, rfl, hresult⟩⟩
    · rw [hstatus]
      exact Nat.one_ne_zero
    · intro hempty
      have hnone : (breaches definition data).isEmpty = true := by
        rw [← OrderedMap.isEmpty_map fun _ violation => violation.message]
        exact congrArg OrderedMap.isEmpty hempty
      exact absurd (hpasses.symm.trans hnone) nofun

/-- A file with this text, of ASCII characters. -/
def fileOf (text : String) : Content := .ok (text.toList.map Char.toNat)

/-- The definition of an order, and data for it with a number as it was typed. -/
def orderFiles (path : String) : Content :=
  if path = "order.json" then
    fileOf "\x7b\"jsonSchema\": \x7b\"properties\": \x7b\"count\": \x7b\"type\": \"integer\"\x7d\x7d\x7d\x7d"
  else fileOf "\x7b\"count\": \" 5 \", \"remark\": null\x7d"

theorem exists_of_isOk {ε α : Type} {outcome : Except ε α} (h : outcome.isOk = true) : ∃ a, outcome = .ok a := by
  cases outcome with
  | error e => cases h
  | ok a => exact ⟨a, rfl⟩

theorem order_agrees_with_submission :
    ∃ definition data shown report,
      readDefinition "order.json" (orderFiles "order.json") = .ok definition ∧
      readData "data.json" (orderFiles "data.json") = .ok data ∧
      answer {} orderFiles (.validate "order.json" "data.json") = .ok shown ∧ shown.status = 0 ∧
      (Session.run (definition.form {} { data, takesSubmissions := true }) [.submit false {}]).1 = [report] ∧
      ∃ values ∈ report.received.head?, shown.output = verdictText {} true ∅ values := by
  obtain ⟨definition, hdefinition⟩ : ∃ definition,
      readDefinition "order.json" (orderFiles "order.json") = .ok definition :=
    exists_of_isOk (by decide +kernel)
  obtain ⟨data, hdata⟩ : ∃ data, readData "data.json" (orderFiles "data.json") = .ok data :=
    exists_of_isOk (by decide +kernel)
  have hanswer : ((answer {} orderFiles (.validate "order.json" "data.json")).map Answer.status).toOption = some 0 := by
    decide +kernel
  obtain ⟨shown, report, hshown, hrun, hstatus, hvalid, -⟩ :=
    validation_agrees_with_submission {} hdefinition hdata {} false {}
  rw [hshown] at hanswer
  have hzero : shown.status = 0 := Option.some.inj hanswer
  refine ⟨definition, data, shown, report, hdefinition, hdata, hshown, hzero, hrun, ?_⟩
  cases hreceived : report.received with
  | nil => exact absurd hreceived (hstatus.mp hzero)
  | cons values later =>
    rw [hreceived] at hvalid
    exact ⟨values, rfl, (hvalid values rfl).2⟩

end SchemaForm.CommandLine
