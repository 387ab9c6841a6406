import Mathlib
import SchemaForm.CommandLine.Answer
import SchemaForm.Proofs.Definition.Payload
import SchemaForm.Proofs.Definition.Short

/-!
# Answers to requests with any files

A request names files, and anything may be in them. This module says what comes of it in `main`: an answer, a
message for the user, or a crash. Nothing crashes but the reading of files (`load_form_definition`,
`_load_data`) and the look into a content (`from_payload`). Once definition and data are read, the form has
HTML, and every value of it can be written.

The files are plain ones: no string has half of a surrogate pair, and lists and objects do not stand inside
each other deeper than `maxPlainNesting`. Beyond that it depends on the stack of the interpreter whether a
value is copied, compared and written.

* `Plain`, `Request.Plain` — such files;
* `Uncaught`, `UncaughtDefinition` — what goes wrong in a file without being told to the user;
* `Request.Readable`, `Request.Uncaught` — the same of all files of a request;
* `answer_of_files` — what comes of a request with plain files, whatever else is in them.
-/

namespace SchemaForm.CommandLine

open Text

variable {settings : Settings} {contents : String → Content} {content : Content} {path : String}
  {definition : Definition} {data : OrderedMap Value} {request : Request} {crash : Crash} {reason : NoAnswer}

/-! ## Files -/

/-- How many lists and objects stand inside each other in a plain file: so many that a value is copied and
compared by calls inside each other without the stack coming to its end. -/
def maxPlainNesting : Nat := 250

/-- A file in which no string has half of a surrogate pair, and nothing is nested too deep. There may be
no such file at all, and it may be no text or no JSON. -/
structure Plain (content : Content) : Prop where
  whole : readJson content ≠ .error (.json .halfPair)
  shallow : ∀ container, readJson content ≠ .error (.json (.beyondLimit (.nestedTooDeep container)))
  nesting : ∀ v, readJson content = .ok v → v.nesting ≤ maxPlainNesting

/-- What goes wrong with the value in a file without being told to the user: its octets are no text, or a
whole number in the text has too many digits. -/
inductive Uncaught (content : Content) : Crash → Prop where
  | encoding {octets : List Nat} {fault : Utf8.Fault} (hcontent : content = .ok octets)
      (hdecode : Utf8.decode octets = .error fault) : Uncaught content (.encoding fault)
  | integerTooLong {octets : List Nat} {text : List Char} {digits : Nat} (hcontent : content = .ok octets)
      (hdecode : Utf8.decode octets = .ok text)
      (hparse : Json.parse (String.ofList (unifyLines text)) = .error (.beyondLimit (.integerTooLong digits))) :
      Uncaught content (.beyondLimit (.integerTooLong digits))

/-- The same of a definition, which may also have a content without members. -/
inductive UncaughtDefinition (content : Content) : Crash → Prop where
  | file {crash : Crash} (h : Uncaught content crash) : UncaughtDefinition content crash
  | content {payload inner : Value} (hread : readJson content = .ok payload)
      (hcontent : inner ∈ payload.content?) (hbare : inner.IsBare) :
      UncaughtDefinition content (.contentWithoutMembers (.contentWithoutMembers inner.typeName))

/-- Octets that are no text are not looked into. -/
theorem readJson_of_undecoded {octets : List Nat} {fault : Utf8.Fault} (h : Utf8.decode octets = .error fault) :
    readJson (.ok octets) = .error (.encoding fault) := by
  rw [readJson]
  dsimp only [Except.mapError, bind, Except.bind]
  rw [h]

theorem readJson_of_decoded {octets : List Nat} {text : List Char} (h : Utf8.decode octets = .ok text) :
    readJson (.ok octets) = (Json.parse (String.ofList (unifyLines text))).mapError .json := by
  rw [readJson]
  dsimp only [Except.mapError, bind, Except.bind]
  rw [h]

/-- No text goes beyond another limit than the two. -/
theorem cause_of_beyondLimit {text : String} {cause : Json.Cause}
    (h : Json.parse text = .error (.beyondLimit cause)) :
    (∃ digits, cause = .integerTooLong digits) ∨ ∃ container, cause = .nestedTooDeep container := by
  rw [Json.parse] at h
  cases hparse : Json.parseText text.toList with
  | ok v =>
    rw [hparse] at h
    cases h
  | error fault =>
    rw [hparse] at h
    have hfault := Except.error.inj h
    rw [Json.ReadError.ofFault] at hfault
    split at hfault
    · next digits _ => exact .inl ⟨digits, (Json.ReadError.beyondLimit.inj hfault).symm⟩
    · next container _ => exact .inr ⟨container, (Json.ReadError.beyondLimit.inj hfault).symm⟩
    · cases hfault
    · cases hfault

/-- What is wrong with a plain file crashes the program if it is one of the two, and else is told to the user. -/
theorem ofReadFault_unanswered_iff (hplain : Plain content) {fault : ReadFault}
    (hread : readJson content = .error fault) (path : String) (unreadable malformed : String → String) :
    Failure.ofReadFault unreadable malformed path fault = .unanswered reason ↔
      ∃ crash, Uncaught content crash ∧ reason = .crash crash := by
  constructor
  · intro h
    -- the three steps of `readJson`: what is in the file, its octets, its text
    cases content with
    | error unread =>
      cases hread
      cases h
    | ok octets =>
      cases hdecode : Utf8.decode octets with
      | error undecoded =>
        cases hread.symm.trans (readJson_of_undecoded hdecode)
        cases h
        exact ⟨_, .encoding rfl hdecode, rfl⟩
      | ok text =>
        have hwhole := readJson_of_decoded hdecode
        cases hparse : Json.parse (String.ofList (unifyLines text)) with
        | error error =>
          rw [hparse] at hwhole
          cases hread.symm.trans hwhole
          cases error with
          | malformed => cases h
          -- a plain file has no such string
          | halfPair => exact absurd hread hplain.whole
          | beyondLimit cause =>
            cases h
            rcases cause_of_beyondLimit hparse with ⟨digits, rfl⟩ | ⟨container, rfl⟩
            · exact ⟨_, .integerTooLong rfl hdecode hparse, rfl⟩
            · exact absurd hread (hplain.shallow container)
        | ok v =>
          rw [hparse] at hwhole
          cases hread.symm.trans hwhole
  · rintro ⟨_, ⟨rfl, hdecode⟩ | ⟨rfl, hdecode, hparse⟩, rfl⟩
    · cases hread.symm.trans (readJson_of_undecoded hdecode)
      rfl
    · have hwhole := readJson_of_decoded hdecode
      rw [hparse] at hwhole
      cases hread.symm.trans hwhole
      rfl

/-- A file that is read does not crash the program. -/
theorem not_uncaught_of_readJson {v : Value} (h : readJson content = .ok v) : ¬ Uncaught content crash := by
  rintro (⟨rfl, hdecode⟩ | ⟨rfl, hdecode, hparse⟩)
  · rw [readJson_of_undecoded hdecode] at h
    cases h
  · rw [readJson_of_decoded hdecode, hparse] at h
    cases h

/-- A result has no error to be told in other words. -/
theorem eq_ok_of_mapError {α ε ε' : Type} {x : Except ε α} {f : ε → ε'} {a : α} (h : x.mapError f = .ok a) :
    x = .ok a := by
  cases x with
  | error e => cases h
  | ok b => exact congrArg Except.ok (Except.ok.inj h)

/-- What was read of a file can be displayed. -/
theorem short_of_readJson {v : Value} (h : readJson content = .ok v) : v.Short := by
  obtain ⟨octets, -, h⟩ := exists_of_bind_ok h
  obtain ⟨text, -, hparse⟩ := exists_of_bind_ok h
  exact Json.short_of_parse (eq_ok_of_mapError hparse)

/-- No data are read without an answer exactly if the file crashes the program: a value that is no object is
told to the user. -/
theorem readData_unanswered_iff (hplain : Plain content) :
    readData path content = .error (.unanswered reason) ↔
      ∃ crash, Uncaught content crash ∧ reason = .crash crash := by
  cases hread : readJson content with
  | error fault =>
    rw [readData, hread, ← ofReadFault_unanswered_iff hplain hread path]
    exact ⟨Except.error.inj, congrArg Except.error⟩
  | ok v =>
    rw [readData, hread]
    refine iff_of_false ?_ fun ⟨_, huncaught, _⟩ => not_uncaught_of_readJson hread huncaught
    cases v <;> exact nofun

/-- No definition is read without an answer exactly if the file crashes the program, or the look into its content
does. What else is wrong with a definition is told to the user. -/
theorem readDefinition_unanswered_iff (hplain : Plain content) :
    readDefinition path content = .error (.unanswered reason) ↔
      ∃ crash, UncaughtDefinition content crash ∧ reason = .crash crash := by
  cases hread : readJson content with
  | error fault =>
    have hfile : ∀ crash, UncaughtDefinition content crash ↔ Uncaught content crash := by
      refine fun crash => ⟨?_, .file⟩
      rintro (h | ⟨hok, -, -⟩)
      · exact h
      · cases hread.symm.trans hok
    simp only [hfile]
    rw [readDefinition, hread, ← ofReadFault_unanswered_iff hplain hread path]
    exact ⟨Except.error.inj, congrArg Except.error⟩
  | ok payload =>
    -- the file was read, so that only the look into the content is left
    have hcontent : ∀ crash, UncaughtDefinition content crash ↔
        ∃ typeName, Definition.ofPayload payload = .error (.contentWithoutMembers typeName) ∧
          crash = .contentWithoutMembers (.contentWithoutMembers typeName) := by
      intro crash
      constructor
      · rintro (h | ⟨hok, hcontent, hbare⟩)
        · exact absurd h (not_uncaught_of_readJson hread)
        · cases hread.symm.trans hok
          exact ⟨_, Definition.ofPayload_eq_error_iff.mpr ⟨_, hcontent, hbare, rfl⟩, rfl⟩
      · rintro ⟨_, hpayload, rfl⟩
        obtain ⟨inner, hcontent, hbare, rfl⟩ := Definition.ofPayload_eq_error_iff.mp hpayload
        exact .content hread hcontent hbare
    simp only [hcontent]
    rw [readDefinition, hread]
    dsimp only [Except.mapError, bind, Except.bind]
    cases Definition.ofPayload payload with
    | ok definition => simp
    | error fault => cases fault <;> simp [eq_comm]

/-! ## Requests -/

/-- The file with the definition. -/
def Request.definitionPath : Request → String
  | .render path _ _ => path
  | .validate path _ => path

/-- The file with the data, if one is named. -/
def Request.dataPath? : Request → Option String
  | .render _ path? _ => path?
  | .validate _ path => some path

/-- All files that are named are plain. -/
structure Request.Plain (request : Request) (contents : String → Content) : Prop where
  definition : CommandLine.Plain (contents request.definitionPath)
  data : ∀ path ∈ request.dataPath?, CommandLine.Plain (contents path)

/-- There is a definition in the one file and an object in the other, if one is named. -/
structure Request.Readable (request : Request) (contents : String → Content) : Prop where
  definition : ∃ definition,
    readDefinition request.definitionPath (contents request.definitionPath) = .ok definition
  data : ∀ path ∈ request.dataPath?, ∃ data, readData path (contents path) = .ok data

/-- What goes wrong in the files without being told to the user. The data are not looked at if there is no
definition. -/
inductive Request.Uncaught (request : Request) (contents : String → Content) : Crash → Prop where
  | definition {crash : Crash} (h : UncaughtDefinition (contents request.definitionPath) crash) :
      request.Uncaught contents crash
  | data {definition : Definition} {path : String} {crash : Crash}
      (hdefinition : readDefinition request.definitionPath (contents request.definitionPath) = .ok definition)
      (hpath : path ∈ request.dataPath?) (h : CommandLine.Uncaught (contents path) crash) :
      request.Uncaught contents crash

/-! ### Definitions and data that were read -/

section Read

open Value (Inherited inherited_short inherited_nesting)

variable {Q : Value → Prop}

/-- A definition was read of the value in its file. -/
theorem exists_payload (h : readDefinition path content = .ok definition) :
    ∃ payload, readJson content = .ok payload ∧ Definition.ofPayload payload = .ok definition := by
  obtain ⟨payload, hread, hpayload⟩ := exists_of_bind_ok h
  exact ⟨payload, eq_ok_of_mapError hread, eq_ok_of_mapError hpayload⟩

/-- All that the form of a definition in a file may show can be displayed. -/
theorem short_of_readDefinition (h : readDefinition path content = .ok definition) : definition.Short := by
  obtain ⟨payload, hread, hpayload⟩ := exists_payload h
  exact Definition.short_of_ofPayload (short_of_readJson hread) hpayload

/-- What holds of the value in a file, and goes down to its parts, holds of the data in the file. -/
theorem inherited_of_readData (hQ : Inherited Q) (hcontent : ∀ v, readJson content = .ok v → Q v)
    (h : readData path content = .ok data) : ∀ entry ∈ data.entries, Q entry.2 := by
  obtain ⟨v, hread, hobject⟩ := exists_of_bind_ok h
  have hv : Q v := hcontent v (eq_ok_of_mapError hread)
  cases v with
  | object members =>
    cases hobject
    exact Carries.ofList (hQ.members hv)
  | _ => cases hobject

/-- The data that a request brings: those in the file that it names, or those of the definition. -/
inductive Request.Given (request : Request) (contents : String → Content) (definition : Definition) :
    OrderedMap Value → Prop where
  | file {path : String} {data : OrderedMap Value} (hpath : path ∈ request.dataPath?)
      (hread : readData path (contents path) = .ok data) : request.Given contents definition data
  | own (hpath : request.dataPath? = none) : request.Given contents definition definition.options.data

/-- What holds of the values in all files, and goes down to their parts, holds of the values of the form and of
those that it hands on. -/
theorem inherited_values (hQ : Inherited Q)
    (hdefinition : ∀ v, readJson (contents request.definitionPath) = .ok v → Q v)
    (hdata : ∀ path ∈ request.dataPath?, ∀ v, readJson (contents path) = .ok v → Q v)
    (hread : readDefinition request.definitionPath (contents request.definitionPath) = .ok definition)
    (hgiven : request.Given contents definition data) :
    let values := definition.schema.initialValues data
    (∀ entry ∈ values.entries, Q entry.2) ∧ ∀ entry ∈ (definition.schema.coerce values).entries, Q entry.2 := by
  obtain ⟨payload, hpayload, hof⟩ := exists_payload hread
  have hwithin := Definition.within_of_ofPayload hQ (hdefinition payload hpayload) hof
  have hentries : ∀ entry ∈ data.entries, Q entry.2 := by
    cases hgiven with
    | file hpath hdataRead => exact inherited_of_readData hQ (hdata _ hpath) hdataRead
    | own =>
      show ∀ entry ∈ (definition.data?.getD ∅).entries, Q entry.2
      cases hown : definition.data? with
      | some own => exact hwithin.data own hown
      | none => exact fun _ hmem => absurd hmem List.not_mem_nil
  have hvalues := hwithin.schema.initialValues hQ hentries
  exact ⟨hvalues, definition.schema.coerce_inherited hQ hvalues⟩

end Read

/-- A form has HTML if its definition was read and its values can be displayed. -/
theorem exists_renderAnswer (settings : Settings) (data? : Option (OrderedMap Value)) (touchAll : Bool)
    (hdefinition : definition.Short)
    (hvalues : ∀ entry ∈ (definition.schema.initialValues (data?.getD definition.options.data)).entries,
      entry.2.Short) :
    ∃ found, renderAnswer settings definition data? touchAll = .ok found ∧ found.status = 0 := by
  -- a check of the form writes no value
  have hhtml : ∃ html, ((definition.form settings
      { definition.options with data := data?.getD definition.options.data }).touchAll touchAll).toHtml =
        .ok html := by
    cases touchAll <;> exact Form.exists_html rfl hdefinition.schema hdefinition.layout hvalues
  obtain ⟨html, hhtml⟩ := hhtml
  simp only [renderAnswer, hhtml, Except.mapError, bind, Except.bind]
  exact ⟨_, rfl, rfl⟩

/-! ### Answers -/

/-- What is wrong with the definition ends the request. -/
theorem tryAnswer_of_definition_error {failure : Failure}
    (h : readDefinition request.definitionPath (contents request.definitionPath) = .error failure) :
    tryAnswer settings contents request = .error failure := by
  cases request with
  | render definitionPath dataPath? touchAll =>
    rw [Request.definitionPath] at h
    rw [tryAnswer, h]
    rfl
  | validate definitionPath dataPath =>
    rw [Request.definitionPath] at h
    rw [tryAnswer, h]
    rfl

/-- What is wrong with the data ends it, once there is a definition. -/
theorem tryAnswer_of_data_error {failure : Failure}
    (hdefinition : readDefinition request.definitionPath (contents request.definitionPath) = .ok definition)
    (hpath : path ∈ request.dataPath?) (h : readData path (contents path) = .error failure) :
    tryAnswer settings contents request = .error failure := by
  cases request with
  | render definitionPath dataPath? touchAll =>
    rw [Request.definitionPath] at hdefinition
    cases hpath
    rw [tryAnswer, hdefinition]
    dsimp only [bind, Except.bind]
    rw [h]
  | validate definitionPath dataPath =>
    rw [Request.definitionPath] at hdefinition
    cases hpath
    rw [tryAnswer, hdefinition]
    dsimp only [bind, Except.bind]
    rw [h]

/-- Nothing goes wrong any more once all files were read. -/
theorem exists_tryAnswer (settings : Settings) (h : request.Readable contents) :
    ∃ found, tryAnswer settings contents request = .ok found ∧ (found.status = 0 ∨ found.status = 1) := by
  obtain ⟨⟨definition, hdefinition⟩, hdata⟩ := h
  have hshort := short_of_readDefinition hdefinition
  have hvalues {data : OrderedMap Value} (hgiven : request.Given contents definition data) :=
    (inherited_values Value.inherited_short (fun _ => short_of_readJson) (fun _ _ _ => short_of_readJson)
      hdefinition hgiven).1
  cases request with
  | render definitionPath dataPath? touchAll =>
    rw [Request.definitionPath] at hdefinition
    rw [tryAnswer, hdefinition]
    cases dataPath? with
    | none =>
      obtain ⟨found, hfound, hstatus⟩ := exists_renderAnswer settings none touchAll hshort (hvalues (.own rfl))
      exact ⟨found, hfound, .inl hstatus⟩
    | some path =>
      obtain ⟨data, hread⟩ := hdata path rfl
      obtain ⟨found, hfound, hstatus⟩ := exists_renderAnswer settings (some data) touchAll hshort
        (hvalues (.file rfl hread))
      dsimp only [bind, Except.bind]
      rw [hread]
      exact ⟨found, hfound, .inl hstatus⟩
  | validate definitionPath dataPath =>
    rw [Request.definitionPath] at hdefinition
    obtain ⟨data, hread⟩ := hdata dataPath rfl
    rw [tryAnswer, hdefinition]
    dsimp only [bind, Except.bind]
    rw [hread]
    refine ⟨validateAnswer settings definition data, rfl, ?_⟩
    rw [validateAnswer]
    dsimp only
    split
    · exact .inl rfl
    · exact .inr rfl

/-- What goes wrong goes wrong in a file. -/
theorem exists_failure (settings : Settings) (h : ¬ request.Readable contents) :
    ∃ failure, tryAnswer settings contents request = .error failure ∧
      (readDefinition request.definitionPath (contents request.definitionPath) = .error failure ∨
        ∃ definition, ∃ path ∈ request.dataPath?,
          readDefinition request.definitionPath (contents request.definitionPath) = .ok definition ∧
            readData path (contents path) = .error failure) := by
  cases hdefinition : readDefinition request.definitionPath (contents request.definitionPath) with
  | error failure => exact ⟨failure, tryAnswer_of_definition_error hdefinition, .inl rfl⟩
  | ok definition =>
    have hdata : ¬ ∀ path ∈ request.dataPath?, ∃ data, readData path (contents path) = .ok data :=
      fun hall => h ⟨⟨definition, hdefinition⟩, hall⟩
    -- the definition was read, so it is the data that were not
    push Not at hdata
    obtain ⟨path, hpath, hnone⟩ := hdata
    cases hread : readData path (contents path) with
    | error failure =>
      exact ⟨failure, tryAnswer_of_data_error hdefinition hpath hread,
        .inr ⟨definition, path, hpath, rfl, hread⟩⟩
    | ok data => exact absurd hread (hnone data)

/-- A request has no answer exactly if one of its files crashes the program. -/
theorem tryAnswer_unanswered_iff (settings : Settings) (hplain : request.Plain contents) :
    tryAnswer settings contents request = .error (.unanswered reason) ↔
      ∃ crash, request.Uncaught contents crash ∧ reason = .crash crash := by
  constructor
  · intro h
    -- a request whose files are all read has an answer, as every form of a definition has HTML
    have hunreadable : ¬ request.Readable contents := by
      intro hreadable
      obtain ⟨found, hfound, -⟩ := exists_tryAnswer settings hreadable
      cases h.symm.trans hfound
    obtain ⟨failure, hfailure, hcause⟩ := exists_failure settings hunreadable
    cases h.symm.trans hfailure
    rcases hcause with hdefinition | ⟨definition, path, hpath, hdefinition, hdata⟩
    · obtain ⟨crash, huncaught, hreason⟩ := (readDefinition_unanswered_iff hplain.definition).mp hdefinition
      exact ⟨crash, .definition huncaught, hreason⟩
    · obtain ⟨crash, huncaught, hreason⟩ := (readData_unanswered_iff (hplain.data path hpath)).mp hdata
      exact ⟨crash, .data hdefinition hpath huncaught, hreason⟩
  · rintro ⟨crash, hdefinition | ⟨hdefinition, hpath, hdata⟩, hreason⟩
    · exact tryAnswer_of_definition_error
        ((readDefinition_unanswered_iff hplain.definition).mpr ⟨crash, hdefinition, hreason⟩)
    · exact tryAnswer_of_data_error hdefinition hpath
        ((readData_unanswered_iff (hplain.data _ hpath)).mpr ⟨crash, hdata, hreason⟩)

/-- **What comes of a request, whatever the files are.** The files are plain ones, if they are there. The program
crashes exactly if the octets of a file that it reads are no text, or if a whole number in it has too many
digits, or if a definition has a content without members. Otherwise it ends with the status 0 or 1 if
there is a definition in the one file and an object in the other, if one is named, and else with the status 2
and a message for the user. All values that the form starts with or hands on can be written, and they are
nested no deeper than the files. -/
theorem answer_of_files (settings : Settings) (contents : String → Content) (request : Request)
    (h : request.Plain contents) :
    (∀ crash, answer settings contents request = .error (.crash crash) ↔ request.Uncaught contents crash) ∧
    (request.Readable contents →
      ∃ found, answer settings contents request = .ok found ∧ (found.status = 0 ∨ found.status = 1)) ∧
    (¬ request.Readable contents → (∀ crash, ¬ request.Uncaught contents crash) →
      ∃ message, answer settings contents request = .ok (reportedAnswer message)) ∧
    ∀ definition data,
      readDefinition request.definitionPath (contents request.definitionPath) = .ok definition →
      request.Given contents definition data →
      let values := definition.schema.initialValues data
      ∀ isValid : Bool, ∀ entry ∈ (if isValid then definition.schema.coerce values else values).entries,
        entry.2.Short ∧ entry.2.nesting ≤ maxPlainNesting := by
  refine ⟨fun crash => ?_, fun hreadable => ?_, fun hunreadable hcaught => ?_,
    fun definition data hdefinition hgiven isValid => ?_⟩
  · have hcrash : request.Uncaught contents crash ↔
        tryAnswer settings contents request = .error (.unanswered (.crash crash)) := by
      rw [tryAnswer_unanswered_iff settings h]
      simp
    rw [hcrash, answer]
    cases tryAnswer settings contents request with
    | ok found => exact iff_of_false nofun nofun
    | error failure => cases failure <;> simp
  · obtain ⟨found, hfound, hstatus⟩ := exists_tryAnswer settings hreadable
    exact ⟨found, by rw [answer, hfound], hstatus⟩
  · obtain ⟨failure, hfailure, -⟩ := exists_failure settings hunreadable
    cases failure with
    | reported message => exact ⟨message, by rw [answer, hfailure]⟩
    | unanswered reason =>
      obtain ⟨crash, huncaught, -⟩ := (tryAnswer_unanswered_iff settings h).mp hfailure
      exact absurd huncaught (hcaught crash)
  · -- both bounds go from the files to the values that a form starts with, and on to those that it hands on
    have hshort := inherited_values Value.inherited_short (fun _ => short_of_readJson)
      (fun _ _ _ => short_of_readJson) hdefinition hgiven
    have hnested := inherited_values (Value.inherited_nesting maxPlainNesting) h.definition.nesting
      (fun path hpath => (h.data path hpath).nesting) hdefinition hgiven
    cases isValid with
    | true => exact fun entry hmem => ⟨hshort.2 entry hmem, hnested.2 entry hmem⟩
    | false => exact fun entry hmem => ⟨hshort.1 entry hmem, hnested.1 entry hmem⟩

/-- A file of one octet that is no text. -/
def oddContent : Content := .ok [0xff]

/-- A file with a definition that has no properties. -/
def blankContent : Content := .ok ("\x7b\"jsonSchema\": \x7b\x7d\x7d".toList.map Char.toNat)

/-- The one file as the definition, the other as the data. -/
def oddData (path : String) : Content := if path = "data.json" then oddContent else blankContent

theorem readJson_oddContent : readJson oddContent = .error (.encoding ⟨.invalidStart, 0xff, 0, 1⟩) := rfl

theorem readJson_blankContent : readJson blankContent = .ok (.object [("jsonSchema", .object [])]) := by cbv

theorem plain_oddContent : Plain oddContent where
  whole h := by cases readJson_oddContent.symm.trans h
  shallow _ h := by cases readJson_oddContent.symm.trans h
  nesting _ h := by cases readJson_oddContent.symm.trans h

theorem plain_blankContent : Plain blankContent where
  whole h := by cases readJson_blankContent.symm.trans h
  shallow _ h := by cases readJson_blankContent.symm.trans h
  nesting _ h := by
    cases readJson_blankContent.symm.trans h
    decide

/-- Without the data the definition is rendered; with them the program crashes. -/
theorem answer_of_files_odd_data :
    (Request.render "form.json" none true).Plain oddData ∧
      (Request.validate "form.json" "data.json").Plain oddData ∧
      (∃ found, answer {} oddData (.render "form.json" none true) = .ok found ∧
        (found.status = 0 ∨ found.status = 1)) ∧
      answer {} oddData (.validate "form.json" "data.json") =
        .error (.crash (.encoding ⟨.invalidStart, 0xff, 0, 1⟩)) := by
  have hrender : (Request.render "form.json" none true).Plain oddData :=
    ⟨plain_blankContent, fun _ hpath => absurd hpath (Option.not_mem_none _)⟩
  have hvalidate : (Request.validate "form.json" "data.json").Plain oddData := by
    refine ⟨plain_blankContent, fun path hpath => ?_⟩
    cases hpath
    exact plain_oddContent
  have hread : ∃ definition, readDefinition "form.json" blankContent = .ok definition := by
    rw [readDefinition, readJson_blankContent]
    exact ⟨_, rfl⟩
  obtain ⟨-, hanswered, -⟩ := answer_of_files {} oddData (.render "form.json" none true) hrender
  obtain ⟨hcrash, -⟩ := answer_of_files {} oddData (.validate "form.json" "data.json") hvalidate
  obtain ⟨definition, hdefinition⟩ := hread
  refine ⟨hrender, hvalidate, hanswered ⟨⟨definition, hdefinition⟩, fun _ hpath => ?_⟩, ?_⟩
  · exact absurd hpath (Option.not_mem_none _)
  · exact (hcrash _).mpr (.data hdefinition rfl (.encoding rfl rfl))

theorem odd_octet_not_answered :
    answer {} (fun _ => oddContent) (.render "form.json" none false) =
        .error (.crash (.encoding ⟨.invalidStart, 0xff, 0, 1⟩)) ∧
      ¬ ∃ found, answer {} (fun _ => oddContent) (.render "form.json" none false) = .ok found := by
  have hcrash : answer {} (fun _ => oddContent) (.render "form.json" none false) =
      .error (.crash (.encoding ⟨.invalidStart, 0xff, 0, 1⟩)) := rfl
  refine ⟨hcrash, ?_⟩
  rintro ⟨found, hfound⟩
  cases hcrash.symm.trans hfound

end SchemaForm.CommandLine
