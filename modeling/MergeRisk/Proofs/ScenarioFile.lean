import MergeRisk.Proofs.IndexedProgram
import MergeRisk.Proofs.JsonReading
import MergeRisk.Proofs.Ordered
import MergeRisk.Proofs.SignatureText
import MergeRisk.Proofs.Utf8
import MergeRisk.Sources

/-! Scenario files read back. A form carries the value that it was written for; from the forms of
the parts of a scenario come the form of the scenario and the file of a list of them. -/

namespace MergeRisk

/-! ### Records and lists -/

namespace Json

/-- In a record with distinct keys a field is found by its key. -/
theorem field?_record {fields : List (String × Json)} (distinct : (fields.map Prod.fst).Nodup)
    (name : String) :
    field? (fields.map fun (key, value) => (some key, value)) name = some (fields.lookup name) := by
  induction fields with
  | nil => rfl
  | cons field fields ih =>
    obtain ⟨key, value⟩ := field
    obtain ⟨fresh, distinctLater⟩ := List.nodup_cons.mp distinct
    by_cases same : key = name
    · have alone : (fields.map fun (key, value) => (some key, value)).filter (·.1 == some name) =
          [] := by
        rw [List.filter_eq_nil_iff]
        intro other member found
        obtain ⟨field, listed, rfl⟩ := List.mem_map.mp member
        have again : field.1 = name := by simpa using found
        exact fresh (List.mem_map.mpr ⟨field, listed, again.trans same.symm⟩)
      simp [field?, same, alone]
    · have other : (name == key) = false := by simpa using Ne.symm same
      have later := ih distinctLater
      simpa [field?, same, List.lookup_cons, other] using later

theorem fields?_record {fields : List (String × Json)} (distinct : (fields.map Prod.fst).Nodup)
    (names : List String) :
    fields? names (record fields) = some (names.map fun name => fields.lookup name) := by
  have texts : (fields.map fun (key, value) => (some key, value)).all (·.1.isSome) = true := by
    simp
  rw [record, fields?, if_pos texts]
  exact mapM_eq_some fun name _ => field?_record distinct name

/-- A plain document from which a reader gets a value. -/
structure Carries {α : Type} (levels : Nat) (document : Json) (decode : Json → Option α)
    (value : α) : Prop where
  plain : Plain levels document
  decoded : decode document = some value

theorem Carries.array {α : Type} {levels : Nat} {encode : α → Json} {decode : Json → Option α}
    {values : List α} (carried : ∀ value ∈ values, Carries levels (encode value) decode value) :
    Carries (levels + 1) (.array (values.map encode)) (list? decode) values where
  plain := by
    apply Plain.array
    intro item member
    obtain ⟨value, listed, rfl⟩ := List.mem_map.mp member
    exact (carried value listed).plain
  decoded := by
    have each := mapM_eq_some fun value listed => (carried value listed).decoded
    rw [List.map_id'] at each
    rw [list?, List.mapM_map]
    exact each

/-- An optional text comes after a text that is always there. -/
theorem fields?_optionalText {name other : String} (distinct : name ≠ other) (text : String)
    (value : Option String) :
    fields? [name, other] (record ((name, Json.text text) :: optionalText other value)) =
      some [some (Json.text text), value.map Json.text] := by
  have different : (other == name) = false := by simpa using Ne.symm distinct
  cases value with
  | none =>
    rw [optionalText, fields?_record (by simp)]
    simp [List.lookup_cons, different]
  | some value =>
    rw [optionalText, fields?_record (by simpa using distinct)]
    simp [List.lookup_cons, different]

theorem optional_text (value : Option String) :
    optional text? (value.map Json.text) = some value := by
  cases value <;> rfl

end Json

/-! ### Methods and lines -/

open Json (Carries Plain)

variable (levels : Nat)

theorem Signature.Portable.carried {signature : Signature} (portable : signature.Portable) :
    Carries levels signature.toJson Signature.ofJson? signature where
  plain := .text signature.text
  decoded := by
    simp [toJson, ofJson?, Json.text, Json.text?, portable.read_written, Except.toOption]

/-- Lines as they are counted and stored: from 1, in 32 bits. -/
def ChangedLine.Counted (line : ChangedLine) : Prop :=
  1 ≤ line.number ∧ line.number ≤ Text.limit32

instance (line : ChangedLine) : Decidable line.Counted :=
  inferInstanceAs (Decidable (_ ∧ _))

theorem LineKind.ofJson?_toJson (kind : LineKind) : ofJson? kind.toJson = some kind := by
  cases kind <;> rfl

theorem ChangedLine.Counted.carried {line : ChangedLine} (counted : line.Counted) :
    Carries (levels + 1) line.toJson ChangedLine.ofJson? line := by
  have positive : line.number ≠ 0 := Nat.ne_of_gt counted.1
  refine ⟨.record ?_, ?_⟩
  · simp [LineKind.toJson, Plain.text, Plain.natural counted.2]
  · rw [ofJson?, toJson, Json.fields?_record (by simp)]
    simp [List.lookup_cons, Json.required, Json.natural32?, counted.2, LineKind.ofJson?_toJson,
      ofNumber, positive, Except.toOption]

theorem LineSet.carried {lines : LineSet} (counted : ∀ line ∈ lines.toList, line.Counted) :
    Carries (levels + 2) lines.toJson LineSet.ofJson? lines := by
  have listed : Carries (levels + 2) lines.toJson (Json.list? ChangedLine.ofJson?) lines.toList :=
    .array fun line member => (counted line member).carried levels
  refine ⟨listed.plain, ?_⟩
  rw [ofJson?, listed.decoded]
  exact congrArg some (SortedSet.ofList_toList lines)

/-- A changed method that a file can hold. -/
structure ChangedMethod.Portable (method : ChangedMethod) : Prop where
  signature : method.signature.Portable
  lines : ∀ line ∈ method.lines.toList, line.Counted

instance (method : ChangedMethod) : Decidable method.Portable :=
  decidable_of_iff (method.signature.Portable ∧ ∀ line ∈ method.lines.toList, line.Counted)
    ⟨fun ⟨signature, lines⟩ => ⟨signature, lines⟩, fun ⟨signature, lines⟩ => ⟨signature, lines⟩⟩

theorem ChangedMethod.Portable.carried {method : ChangedMethod} (portable : method.Portable) :
    Carries (levels + 3) method.toJson ChangedMethod.ofJson? method := by
  have signature := portable.signature.carried (levels + 2)
  have lines := LineSet.carried levels portable.lines
  refine ⟨.record ?_, ?_⟩
  · simp [signature.plain, lines.plain]
  · rw [ofJson?, toJson, Json.fields?_record (by simp)]
    simp [List.lookup_cons, Json.required, Json.defaulted, signature.decoded, lines.decoded]

/-! ### Merges and programs -/

theorem MergeCommit.carried (commit : MergeCommit) :
    Carries (levels + 1) commit.toJson MergeCommit.ofJson? commit := by
  refine ⟨.record ?_, ?_⟩
  · simp [Plain.text]
  · rw [ofJson?, toJson, Json.fields?_record (by simp)]
    simp [List.lookup_cons, Json.required, Json.text, Json.text?]

theorem plain_optionalText (name : String) (value : Option String) :
    ∀ field ∈ optionalText name value, Plain levels field.2 := by
  cases value <;> simp [optionalText, Plain.text]

theorem Project.carried (project : Project) :
    Carries (levels + 1) project.toJson Project.ofJson? project := by
  refine ⟨.record ?_, ?_⟩
  · rw [List.forall_mem_cons]
    exact ⟨.text project.name, plain_optionalText levels "path" project.path⟩
  · rw [ofJson?, toJson, Json.fields?_optionalText (by decide)]
    simp [Json.required, Json.optional_text, Json.text, Json.text?]

theorem EntryPoint.carried (entry : EntryPoint) :
    Carries (levels + 1) entry.toJson EntryPoint.ofJson? entry := by
  refine ⟨.record ?_, ?_⟩
  · rw [List.forall_mem_cons]
    exact ⟨.text entry.owner, plain_optionalText levels "method" entry.method⟩
  · rw [ofJson?, toJson, Json.fields?_optionalText (by decide)]
    simp [Json.required, Json.optional_text, Json.text, Json.text?]

theorem Call.carried {call : Call} (caller : call.caller.Portable) (callee : call.callee.Portable) :
    Carries (levels + 1) call.toJson Call.ofJson? call := by
  have callerCarried := caller.carried levels
  have calleeCarried := callee.carried levels
  refine ⟨.record ?_, ?_⟩
  · simp [callerCarried.plain, calleeCarried.plain]
  · rw [ofJson?, toJson, Json.fields?_record (by simp)]
    simp [List.lookup_cons, Json.required, callerCarried.decoded, calleeCarried.decoded]

namespace Program

theorem carried {program : Program} (portable : ∀ method ∈ program.methods, method.Portable) :
    Carries (levels + 3) program.toJson Program.ofJson? program := by
  have methods : Carries (levels + 2) (.array (program.methods.map (·.toJson)))
      (Json.list? Signature.ofJson?) program.methods :=
    .array fun method member => (portable method member).carried (levels + 1)
  have calls : Carries (levels + 2) (.array (program.calls.map (·.toJson)))
      (Json.list? Call.ofJson?) program.calls :=
    .array fun call member => Call.carried levels
      (portable _ (program.caller_mem call member)) (portable _ (program.callee_mem call member))
  refine ⟨.record ?_, ?_⟩
  · simp [methods.plain, calls.plain]
  · rw [ofJson?, toJson, Json.fields?_record (by simp)]
    simp [List.lookup_cons, Json.defaulted, methods.decoded, calls.decoded, ofReport_self]

end Program

/-! ### Scenarios -/

structure MutualMethod.Portable (method : MutualMethod) : Prop where
  merged : method.merged.Portable
  left : method.left.Portable
  right : method.right.Portable

instance (method : MutualMethod) : Decidable method.Portable :=
  decidable_of_iff (method.merged.Portable ∧ method.left.Portable ∧ method.right.Portable)
    ⟨fun ⟨merged, left, right⟩ => ⟨merged, left, right⟩,
      fun ⟨merged, left, right⟩ => ⟨merged, left, right⟩⟩

theorem MutualMethod.Portable.carried {method : MutualMethod} (portable : method.Portable) :
    Carries (levels + 4) method.toJson MutualMethod.ofJson? method := by
  have merged := portable.merged.carried levels
  have left := portable.left.carried levels
  have right := portable.right.carried levels
  refine ⟨.record ?_, ?_⟩
  · simp [Plain.text, merged.plain, left.plain, right.plain]
  · rw [ofJson?, toJson, Json.fields?_record (by simp)]
    simp [List.lookup_cons, Json.required, Json.text, Json.text?, merged.decoded, left.decoded,
      right.decoded]

/-- A scenario that a file can hold. -/
structure Scenario.Portable (scenario : Scenario) : Prop where
  methods : ∀ method ∈ scenario.program.methods, method.Portable
  leftChanged : ∀ method ∈ scenario.leftChanged, method.Portable
  rightChanged : ∀ method ∈ scenario.rightChanged, method.Portable
  mutuallyChanged : ∀ method ∈ scenario.mutuallyChanged, method.Portable

instance (scenario : Scenario) : Decidable scenario.Portable :=
  decidable_of_iff ((∀ method ∈ scenario.program.methods, method.Portable) ∧
      (∀ method ∈ scenario.leftChanged, method.Portable) ∧
      (∀ method ∈ scenario.rightChanged, method.Portable) ∧
      ∀ method ∈ scenario.mutuallyChanged, method.Portable)
    ⟨fun ⟨methods, left, right, both⟩ => ⟨methods, left, right, both⟩,
      fun ⟨methods, left, right, both⟩ => ⟨methods, left, right, both⟩⟩

theorem EntryPoint.optional_toJson (entry : Option EntryPoint) :
    Json.optional EntryPoint.ofJson? (entry.map EntryPoint.toJson) = some entry := by
  cases entry with
  | none => rfl
  | some entry => exact congrArg (Option.map some) (entry.carried 0).decoded

/-- The fields of a scenario, with or without an entry point. -/
theorem Scenario.fields?_toJson (scenario : Scenario) :
    Json.fields? ["project", "mergeCommit", "entryPoint", "program", "leftChanged", "rightChanged",
        "mutuallyModified"] scenario.toJson =
      some [some scenario.project.toJson, some scenario.commit.toJson,
        scenario.entryPoint.map EntryPoint.toJson, some scenario.program.toJson,
        some (.array (scenario.leftChanged.map (·.toJson))),
        some (.array (scenario.rightChanged.map (·.toJson))),
        some (.array (scenario.mutuallyChanged.map (·.toJson)))] := by
  cases entry : scenario.entryPoint with
  | none =>
    rw [toJson, entry, Json.fields?_record (by simp)]
    simp [List.lookup_cons]
  | some entry =>
    rw [toJson, entry, Json.fields?_record (by simp)]
    simp [List.lookup_cons]

theorem Scenario.Portable.carried {scenario : Scenario} (portable : scenario.Portable) :
    Carries (levels + 6) scenario.toJson Scenario.ofJson? scenario := by
  have project := scenario.project.carried (levels + 4)
  have commit := scenario.commit.carried (levels + 4)
  have program := Program.carried (levels + 2) portable.methods
  have left := Carries.array fun method member =>
    (portable.leftChanged method member).carried (levels + 1)
  have right := Carries.array fun method member =>
    (portable.rightChanged method member).carried (levels + 1)
  have mutually := Carries.array fun method member =>
    (portable.mutuallyChanged method member).carried levels
  refine ⟨.record ?_, ?_⟩
  · cases scenario.entryPoint with
    | none =>
      simp [project.plain, commit.plain, program.plain, left.plain, right.plain, mutually.plain]
    | some entry =>
      have entryPlain := (entry.carried (levels + 4)).plain
      simp [project.plain, commit.plain, entryPlain, program.plain, left.plain, right.plain,
        mutually.plain]
  · rw [ofJson?, Scenario.fields?_toJson]
    simp [Json.required, Json.defaulted, project.decoded, commit.decoded,
      EntryPoint.optional_toJson, program.decoded, left.decoded, right.decoded, mutually.decoded]

/-! ### Files -/

variable {levels : Nat}

theorem Scenario.listOfJson?_array {scenarios : List Scenario}
    (carried : ∀ scenario ∈ scenarios, Carries levels scenario.toJson Scenario.ofJson? scenario) :
    listOfJson? (.array (scenarios.map (·.toJson))) = some scenarios := by
  rw [listOfJson?, (Carries.array carried).decoded]

/-- A record is no list, so it is read as one scenario. -/
theorem Scenario.listOfJson?_toJson {scenario : Scenario}
    (carried : Carries levels scenario.toJson Scenario.ofJson? scenario) :
    listOfJson? scenario.toJson = some [scenario] := by
  have noList : scenario.toJson.list? Scenario.ofJson? = none := rfl
  rw [listOfJson?, noList, carried.decoded]
  rfl

namespace Sources
variable {write : Json → String}

/-- A file with the text of a plain document holds the scenarios that the document lists. -/
theorem scenarios_of_plain (faithful : Json.Faithful write) {sources : Sources} {path : String}
    {document : Json} (plain : Plain levels document) (shallow : levels < Json.depthLimit)
    (file : sources.file path = .content (Text.encode (write document))) {scenarios : List Scenario}
    (listed : Scenario.listOfJson? document = some scenarios) :
    sources.scenarios path = .ok scenarios := by
  have text : sources.text path = .ok (write document) := by
    simp [Sources.text, file, Text.decode?_encode]
  have kept : Json.readKept? (write document) = some document := by
    have isKept : document.isKept 0 = true := plain.isKept (by omega)
    simp [Json.readKept?, faithful levels document plain, guard, isKept]
  simp [Sources.scenarios, text, kept, listed, bind, Except.bind, pure, Except.pure]

/-- Scenarios are read back from a file that holds their forms in a list, and one scenario from a
file that holds its form alone. -/
theorem scenarios_readBack (faithful : Json.Faithful write) (sources : Sources) (path : String)
    {scenarios : List Scenario} (portable : ∀ scenario ∈ scenarios, scenario.Portable) :
    (sources.file path = .content (Text.encode (write (.array (scenarios.map (·.toJson))))) →
      sources.scenarios path = .ok scenarios) ∧
    ∀ scenario ∈ scenarios,
      sources.file path = .content (Text.encode (write scenario.toJson)) →
        sources.scenarios path = .ok [scenario] := by
  have carried : ∀ scenario ∈ scenarios, Carries 6 scenario.toJson Scenario.ofJson? scenario :=
    fun scenario member => (portable scenario member).carried 0
  constructor
  · intro file
    exact scenarios_of_plain faithful (Carries.array carried).plain (by decide) file
      (Scenario.listOfJson?_array carried)
  · intro scenario member file
    have single := carried scenario member
    exact scenarios_of_plain faithful single.plain (by decide) file
      (Scenario.listOfJson?_toJson single)

/-- A method of the class `port.Ferry` with one parameter. -/
def ferryMethod (name : String) (identifier : Signature.isIdentifier name = true) : Signature :=
  ⟨"port.Ferry", name, ["Map<Pier>[]"], by decide, identifier, by decide⟩

def board : Signature := ferryMethod "board" (by decide)

def sail : Signature := ferryMethod "sail" (by decide)

/-- A merge whose parents changed one method both and one each. -/
def ferryScenario : Scenario where
  project := ⟨"ferry \"one\"", some "C:\\port"⟩
  commit := ⟨"b1", "l1", "r1", "m1"⟩
  entryPoint := some ⟨"port.Ferry", some "board"⟩
  program := .ofReport [sail] [⟨board, sail⟩, ⟨sail, sail⟩, ⟨board, sail⟩]
  leftChanged := [⟨sail, .ofList [.removed 4294967295, .added 1]⟩]
  rightChanged := [⟨board, ∅⟩]
  mutuallyChanged :=
    [⟨"Ferry", ⟨sail, .ofList [.added 7]⟩, ⟨sail, ∅⟩, ⟨sail, .ofList [.removed 7]⟩⟩]

/-- A scenario of which everything optional is left out. -/
def bareScenario : Scenario where
  project := ⟨"bare", none⟩
  commit := ⟨"", "", "", ""⟩

/-- Two scenarios in a list on one line, and the first of them alone, indented. -/
def ferryFiles : Sources where
  file path :=
    if path = "list" then
      .content (Text.encode (Json.compact (.array ([ferryScenario, bareScenario].map (·.toJson)))))
    else .content (Text.encode (Json.pretty 0 ferryScenario.toJson))
  repository _ := none

theorem scenarios_readBack_ferry :
    (∀ scenario ∈ [ferryScenario, bareScenario], scenario.Portable) ∧
    ferryFiles.scenarios "list" = .ok [ferryScenario, bareScenario] ∧
    ferryFiles.scenarios "alone" = .ok [ferryScenario] := by
  have portable : ∀ scenario ∈ [ferryScenario, bareScenario], scenario.Portable := by decide
  have list := scenarios_readBack Json.faithful_compact ferryFiles "list" portable
  have alone := scenarios_readBack Json.faithful_pretty ferryFiles "alone" portable
  exact ⟨portable, list.1 rfl, alone.2 ferryScenario List.mem_cons_self rfl⟩

end Sources

end MergeRisk
