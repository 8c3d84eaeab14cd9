import ScriptAnalysis.Engine.Delimiter
import ScriptAnalysis.Proofs.Json.Reading
import ScriptAnalysis.Proofs.Json.Record
import ScriptAnalysis.Session.Response
import ScriptAnalysis.Store.Tree

/-!
# The envelope of a response

A response carries the id of its line, which is the request's, or null for a line that is no
request (`Registry.id_answerLine`). It has a result if and only if the service does what the line
asks for (`Registry.outcome_answerLine_iff`), and an error otherwise. Since the id was read from a
text and a result holds small numbers only, the text of the response reads back, whatever names
and messages it quotes (`Registry.response_envelope`).
-/

namespace ScriptAnalysis

namespace Request

open ScriptAnalysis.Json (Written WrittenName WellRead)

variable {text : List Char} {line : String} {request : Request} {draft next : Draft}

theorem name_of_field {known : String} {field : Field} (named : Field.ofName? known = some field) :
    known = field.name := by
  have found := List.find?_some named
  exact (eq_of_beq found).symm

theorem wellRead_of_readValue {written : Written} {value : Json}
    (read : readValue written = .ok value) : WellRead (Json.deepestNesting - 1) value := by
  unfold readValue at read
  split at read
  · next found means =>
      cases read
      exact Json.wellRead written means
  · cases read

/-- The value stands in a member that is called `id`. -/
def IsIdentified (members : List (WrittenName × Written)) (value : Json) : Prop :=
  ∃ entry ∈ members, Json.partsText entry.1.parts = some "id" ∧ readValue entry.2 = .ok value

/-- A member leaves the id as it is, or it is the id. -/
theorem id_of_readMember {name : WrittenName} {written : Written}
    (read : readMember text name written draft = .ok next) :
    next.id = draft.id ∨ ∃ value, next.id = some value ∧ IsIdentified [(name, written)] value := by
  unfold readMember at read
  split at read
  · cases read
  · next known meaning =>
      split at read
      · cases read
        exact .inl rfl
      · next field named =>
          split at read
          · cases read
          · cases field with
            | id =>
                obtain rfl : known = "id" := name_of_field named
                obtain ⟨value, found, rfl⟩ := Json.map_eq_ok_iff.mp read
                exact .inr ⟨value, rfl, _, List.mem_singleton_self _, meaning, found⟩
            | command =>
                obtain ⟨_, -, rfl⟩ := Json.map_eq_ok_iff.mp read
                exact .inl rfl
            | parameters =>
                obtain ⟨_, -, rfl⟩ := Json.map_eq_ok_iff.mp read
                exact .inl rfl

/-- The id of what was read is the one there was, or stands in a member. -/
theorem id_of_readMembers {members : List (WrittenName × Written)}
    (read : readMembers text members draft = .ok next) :
    next.id = draft.id ∨ ∃ value, next.id = some value ∧ IsIdentified members value := by
  induction members generalizing draft with
  | nil =>
      cases read
      exact .inl rfl
  | cons entry rest inductionHypothesis =>
      rw [readMembers] at read
      split at read
      · cases read
      · next middle first =>
          rcases inductionHypothesis read with same | ⟨value, found, other, member, identified⟩
          · rcases id_of_readMember first with kept | ⟨value, found, other, member, identified⟩
            · exact .inl (same.trans kept)
            · obtain rfl := List.mem_singleton.mp member
              exact .inr ⟨value, same.trans found, _, List.mem_cons_self, identified⟩
          · exact .inr ⟨value, found, other, List.mem_cons_of_mem _ member, identified⟩

/-- The id of a request that was written as an object is null or stands in a member. -/
theorem id_of_readObject {span : Text.Span} {members : List (WrittenName × Written)}
    (read : readObject text span members = .ok request) :
    request.id = .null ∨ IsIdentified members request.id := by
  unfold readObject at read
  split at read
  · cases read
  · next draft found =>
      split at read
      · cases read
      · cases read
        rcases id_of_readMembers found with same | ⟨value, same, identified⟩
        · exact .inl (by rw [same]; rfl)
        · exact .inr (by rw [same]; exact identified)

theorem id_of_readParameters {id : Json} {command : String} {items : List Written}
    (read : readParameters id command items = .ok request) : request.id = id := by
  unfold readParameters at read
  split at read
  · cases read
    rfl
  · split at read
    · cases read
    · cases read
      rfl
    · cases read

/-- The id of a request that was written as an array is its first item. -/
theorem id_of_readItems {span : Text.Span} {items : List Written}
    (read : readItems span items = .ok request) :
    ∃ item ∈ items, readValue item = .ok request.id := by
  unfold readItems at read
  split at read
  · cases read
  · split at read <;> cases read
  · next first command others =>
      split at read
      · cases read
      · cases read
      · next value name found named =>
          exact ⟨first, List.mem_cons_self, by rw [found, id_of_readParameters read]⟩

theorem wellRead_of_ofWritten {written : Written} (read : ofWritten text written = .ok request) :
    WellRead (Json.deepestNesting - 1) request.id := by
  unfold ofWritten at read
  split at read
  · next span members =>
      rcases id_of_readObject read with null | ⟨entry, -, -, found⟩
      · rw [null]
        exact ⟨rfl, Json.bounded_null⟩
      · exact wellRead_of_readValue found
  · next span items =>
      obtain ⟨item, -, found⟩ := id_of_readItems read
      exact wellRead_of_readValue found
  · split at read
    · cases read
    · cases read

theorem ofWritten_of_ofLine (read : ofLine line = .ok request) :
    ∃ written, Written.ofText? line = some written ∧
      ofWritten line.toList written = .ok request := by
  unfold ofLine at read
  split at read
  · cases read
  · next written found =>
      split at read
      · next answer _ decoded =>
          cases read
          exact ⟨written, found, decoded⟩
      · cases read
      · cases read

/-- The id that belongs to a line: the request's, and null if the line is no request. -/
def idOf (line : String) : Json :=
  match ofLine line with
  | .ok request => request.id
  | .error _ => .null

theorem idOf_of_ofLine (read : ofLine line = .ok request) : idOf line = request.id := by
  rw [idOf, read]

theorem idOf_of_error {error : RequestError} (read : ofLine line = .error error) :
    idOf line = .null := by
  rw [idOf, read]

theorem wellRead_idOf (line : String) : WellRead (Json.deepestNesting - 1) (idOf line) := by
  cases read : ofLine line with
  | error error =>
      rw [idOf_of_error read]
      exact ⟨rfl, Json.bounded_null⟩
  | ok request =>
      obtain ⟨written, -, decoded⟩ := ofWritten_of_ofLine read
      rw [idOf_of_ofLine read]
      exact wellRead_of_ofWritten decoded

/-- Without a member that is called `id` the id is null. -/
theorem idOf_eq_null {span : Text.Span} {members : List (WrittenName × Written)}
    (object : Written.ofText? line = some (.object span members))
    (omitted : ∀ entry ∈ members, Json.partsText entry.1.parts ≠ some "id") :
    idOf line = .null := by
  cases read : ofLine line with
  | error error => exact idOf_of_error read
  | ok request =>
      obtain ⟨written, found, decoded⟩ := ofWritten_of_ofLine read
      obtain rfl := Option.some.inj (found.symm.trans object)
      rw [idOf_of_ofLine read]
      exact (id_of_readObject decoded).resolve_right fun ⟨entry, member, named, _⟩ =>
        omitted entry member named

end Request

namespace Command

variable {request : Request} {command : Command} {parameters : Json}

/-- The parameters of a diagnostics command ask for diagnostics. -/
theorem diagnostics_of_decode (read : diagnosticsRecord.decode parameters = .ok command) :
    ∃ root file code, command = .diagnostics root file code := by
  obtain ⟨draft, finished⟩ := Json.Record.exists_finish read
  simp only [diagnosticsRecord] at finished
  split at finished
  · cases finished
    exact ⟨_, _, _, rfl⟩
  · cases finished
  · cases finished

/-- The parameters of a completion command ask for completions. -/
theorem completions_of_decode (read : completionsRecord.decode parameters = .ok command) :
    ∃ root file code offset, command = .completions root file code offset := by
  obtain ⟨draft, finished⟩ := Json.Record.exists_finish read
  simp only [completionsRecord] at finished
  split at finished
  · cases finished
    exact ⟨_, _, _, _, rfl⟩
  · cases finished
  · cases finished
  · cases finished

/-- A request asks for something if and only if a known reader has its name and takes its
parameters. -/
theorem ofRequest_eq_ok_iff :
    ofRequest request = .ok command ↔
      ∃ read, (request.command, read) ∈ readers ∧ read request.parameters = .ok command := by
  constructor
  · intro asked
    unfold ofRequest at asked
    split at asked
    · cases asked
    · next name read found =>
        have same := List.find?_some found
        obtain rfl : name = request.command := eq_of_beq same
        exact ⟨read, List.mem_of_find?_eq_some found, Json.mapError_eq_ok_iff.mp asked⟩
  · rintro ⟨read, known, decoded⟩
    have found : (readers.find? fun entry => entry.1 == request.command) =
        some (request.command, read) := by
      simp only [readers, List.mem_cons, List.not_mem_nil, or_false, Prod.mk.injEq] at known
      rcases known with ⟨named, rfl⟩ | ⟨named, rfl⟩ | ⟨named, rfl⟩ <;> rw [named] <;> rfl
    rw [ofRequest, found]
    exact Json.mapError_eq_ok_iff.mpr decoded

end Command

namespace Registry

variable {σ : Type}

/-- The line is a request with a known command and fitting parameters, and the service does what
it asks for, with this result. -/
inductive Serves (backend : Backend σ) (registry : Registry σ) (line : String) : Json → Prop where
  | notified {request : Request} {notification : FileChangeNotification}
      (read : Request.ofLine line = .ok request)
      (command : request.command = "notifyFileChanged")
      (parameters : FileChangeNotification.decode request.parameters = .ok notification) :
      Serves backend registry line
        (.object [("processed", .bool (registry.notify backend notification).value.1)])
  | diagnosed {request : Request} {root file : SourcePath} {code : String} {report : Report}
      (read : Request.ofLine line = .ok request)
      (command : request.command = "getDiagnostics")
      (parameters : Command.diagnosticsRecord.decode request.parameters =
        .ok (.diagnostics root file code))
      (answer : (registry.diagnostics backend root file code).value.1 = .ok report) :
      Serves backend registry line (.object [("report", report.toJson)])
  | completed {request : Request} {root file : SourcePath} {code : String} {offset : Nat}
      {report : CompletionReport}
      (read : Request.ofLine line = .ok request)
      (command : request.command = "getCompletions")
      (parameters : Command.completionsRecord.decode request.parameters =
        .ok (.completions root file code offset))
      (answer : (registry.completions backend root file code offset).value.1 = .ok report) :
      Serves backend registry line (.object [("report", report.toJson)])

variable {backend : Backend σ} {registry : Registry σ} {line : String} {result : Json}

theorem answerLine_of_ofLine {request : Request} (read : Request.ofLine line = .ok request) :
    registry.answerLine backend line = registry.respond backend request := by
  rw [answerLine, read]

/-- A response carries the id of its line. -/
theorem id_answerLine (backend : Backend σ) (registry : Registry σ) (line : String) :
    (registry.answerLine backend line).value.1.id = Request.idOf line := by
  cases read : Request.ofLine line with
  | error error =>
      rw [Request.idOf_of_error read, answerLine, read]
      rfl
  | ok request =>
      rw [Request.idOf_of_ofLine read, answerLine_of_ofLine read, respond]
      cases Command.ofRequest request <;> rfl

/-- A report is handed on as the member of an object. -/
theorem reported_iff {α : Type} {answer : Except ServiceError α} {encode : α → Json} :
    ((answer.mapError SessionError.service).map fun report =>
        Json.object [("report", encode report)]) = .ok result ↔
      ∃ report, answer = .ok report ∧ .object [("report", encode report)] = result :=
  Json.map_eq_ok_iff.trans (exists_congr fun _ => and_congr_left' Json.mapError_eq_ok_iff)

theorem execute_diagnostics_iff {root file : SourcePath} {code : String} :
    (registry.execute backend (.diagnostics root file code)).value.1 = .ok result ↔
      ∃ report, (registry.diagnostics backend root file code).value.1 = .ok report ∧
        .object [("report", report.toJson)] = result := by
  rw [execute, Traced.value_bind]
  exact reported_iff

theorem execute_completions_iff {root file : SourcePath} {code : String} {offset : Nat} :
    (registry.execute backend (.completions root file code offset)).value.1 = .ok result ↔
      ∃ report, (registry.completions backend root file code offset).value.1 = .ok report ∧
        .object [("report", report.toJson)] = result := by
  rw [execute, Traced.value_bind]
  exact reported_iff

theorem outcome_respond_iff {request : Request} :
    (registry.respond backend request).value.1.outcome = .ok result ↔
      ∃ command, Command.ofRequest request = .ok command ∧
        (registry.execute backend command).value.1 = .ok result := by
  rw [respond]
  cases Command.ofRequest request with
  | error error => simp
  | ok command => simp

/-- A request whose parameters its reader takes is answered as the command is. -/
theorem outcome_answerLine_of_reader {request : Request} {command : Command}
    (reader : Json.Decoder Command) (read : Request.ofLine line = .ok request)
    (known : (request.command, reader) ∈ Command.readers)
    (decoded : reader request.parameters = .ok command)
    (executed : (registry.execute backend command).value.1 = .ok result) :
    (registry.answerLine backend line).value.1.outcome = .ok result := by
  rw [answerLine_of_ofLine read]
  exact outcome_respond_iff.mpr
    ⟨command, Command.ofRequest_eq_ok_iff.mpr ⟨reader, known, decoded⟩, executed⟩

/-- A line is answered with a result if and only if the service does what it asks for. -/
theorem outcome_answerLine_iff :
    (registry.answerLine backend line).value.1.outcome = .ok result ↔
      Serves backend registry line result := by
  constructor
  · intro answered
    cases read : Request.ofLine line with
    | error error =>
        rw [answerLine, read] at answered
        cases answered
    | ok request =>
        rw [answerLine_of_ofLine read] at answered
        obtain ⟨command, asked, executed⟩ := outcome_respond_iff.mp answered
        obtain ⟨reader, known, decoded⟩ := Command.ofRequest_eq_ok_iff.mp asked
        simp only [Command.readers, List.mem_cons, List.not_mem_nil, or_false,
          Prod.mk.injEq] at known
        rcases known with ⟨named, rfl⟩ | ⟨named, rfl⟩ | ⟨named, rfl⟩
        · obtain ⟨notification, parameters, rfl⟩ := Json.map_eq_ok_iff.mp decoded
          cases executed
          exact .notified read named parameters
        · obtain ⟨root, file, code, rfl⟩ := Command.diagnostics_of_decode decoded
          obtain ⟨report, answer, rfl⟩ := execute_diagnostics_iff.mp executed
          exact .diagnosed read named decoded answer
        · obtain ⟨root, file, code, offset, rfl⟩ := Command.completions_of_decode decoded
          obtain ⟨report, answer, rfl⟩ := execute_completions_iff.mp executed
          exact .completed read named decoded answer
  · intro serves
    cases serves with
    | notified read named parameters =>
        exact outcome_answerLine_of_reader Command.readNotification read
          (by simp [named, Command.readers]) (Json.map_eq_ok_iff.mpr ⟨_, parameters, rfl⟩) rfl
    | diagnosed read named parameters answer =>
        exact outcome_answerLine_of_reader Command.diagnosticsRecord.decode read
          (by simp [named, Command.readers]) parameters
          (execute_diagnostics_iff.mpr ⟨_, answer, rfl⟩)
    | completed read named parameters answer =>
        exact outcome_answerLine_of_reader Command.completionsRecord.decode read
          (by simp [named, Command.readers]) parameters
          (execute_completions_iff.mpr ⟨_, answer, rfl⟩)

/-! ### The text of a response -/

open Json (Bounded Number)

theorem legible_uint32 (value : UInt32) : (Number.integer value.toNat).Legible :=
  Number.legible_integer (by omega) (by simp only [UInt64.size]; have := value.toNat_lt; omega)

theorem bounded_report (report : Report) : Bounded Number.Legible 4 report.toJson := by
  have position (position : Position) : Bounded Number.Legible 1 position.toJson := by
    simp [Position.toJson, Json.nat, legible_uint32]
  have diagnostic (diagnostic : Diagnostic) : Bounded Number.Legible 2 diagnostic.toJson := by
    obtain ⟨kind, message, place⟩ := diagnostic
    cases place <;> simp [Diagnostic.toJson, DiagnosticKind.toJson, position]
  simp [Report.toJson, diagnostic]

theorem bounded_completions (report : CompletionReport) :
    Bounded Number.Legible 4 report.toJson := by
  simp [CompletionReport.toJson, CompletionEntry.toJson]

/-- A result is a small value without doubles. -/
theorem Serves.bounded (serves : Serves backend registry line result) :
    Bounded Number.Legible 5 result := by
  cases serves with
  | notified => simp
  | diagnosed => simp [bounded_report]
  | completed => simp [bounded_completions]

variable {id : Json}

/-- The text of a response with a result reads back as its three members. -/
theorem ofText?_success (own : Bounded Number.Legible (Json.deepestNesting - 1) id)
    (small : Bounded Number.Legible (Json.deepestNesting - 1) result) :
    Json.ofText? (Response.mk id (.ok result)).text =
      some (.object [("id", id.sorted), ("ok", .bool true), ("result", result.sorted)]) := by
  have whole : Bounded Number.Legible Json.deepestNesting
      (.object [("id", id), ("ok", .bool true), ("result", result.sorted)]) := by
    refine (Json.bounded_object _).mpr ?_
    simp only [List.forall_mem_cons]
    exact ⟨own, Json.bounded_bool true, Json.bounded_sorted result small, by simp⟩
  have sorted : (Json.object [("id", id), ("ok", .bool true), ("result", result.sorted)]).sorted =
      .object [("id", id.sorted), ("ok", .bool true), ("result", result.sorted.sorted)] :=
    Json.sorted_object_of_perm (.refl _)
      (Json.ascending_of_names ["id", "ok", "result"] (by decide) rfl)
  rw [Response.text, Response.toJson, Json.ofText?_compact whole, sorted, Json.sorted_sorted]

/-- The text of a failure reads back as its three members. -/
theorem ofText?_failure (own : Bounded Number.Legible (Json.deepestNesting - 1) id)
    (error : SessionError) :
    Json.ofText? (Response.mk id (.error error)).text =
      some (.object
        [("error", .string error.message), ("id", id.sorted), ("ok", .bool false)]) := by
  have whole : Bounded Number.Legible Json.deepestNesting
      (.object [("id", id), ("ok", .bool false), ("error", .string error.message)]) := by
    refine (Json.bounded_object _).mpr ?_
    simp only [List.forall_mem_cons]
    exact ⟨own, Json.bounded_bool false, Json.bounded_string error.message, by simp⟩
  have sorted : (Json.object
      [("id", id), ("ok", .bool false), ("error", .string error.message)]).sorted =
        .object [("error", .string error.message), ("id", id.sorted), ("ok", .bool false)] :=
    Json.sorted_object_of_perm ((List.Perm.swap ..).trans (.cons _ (.swap ..)))
      (Json.ascending_of_names ["error", "id", "ok"] (by decide) rfl)
  rw [Response.text, Response.toJson, Json.ofText?_compact whole, sorted]

/-- Whatever the line, its response stands on one line and reads back as an object of three members
with the id of the line. If the line is a request with a known command and fitting parameters, and
the service does what it asks for, then `ok` is true and the result is the third member; in all
other cases `ok` is false and an error is. A line that is an object without an id has the id null.
Of the id only its doubles are asked to read back from their texts. -/
theorem response_envelope (backend : Backend σ) (registry : Registry σ) (line : String)
    (doubles : ∀ bits, .float bits ∈ (Request.idOf line).numbers →
      (Number.float bits).Legible) :
    let response := (registry.answerLine backend line).value.1
    (∀ c ∈ response.text.toList, c ≠ '\n' ∧ c ≠ '\r') ∧
      ((∃ result, Serves backend registry line result ∧
          Json.ofText? response.text = some (.object
            [("id", Request.idOf line), ("ok", .bool true), ("result", result.sorted)])) ∨
        ((∀ result, ¬Serves backend registry line result) ∧ ∃ message,
          Json.ofText? response.text = some (.object
            [("error", .string message), ("id", Request.idOf line), ("ok", .bool false)]))) ∧
      ∀ span members, Json.Written.ofText? line = some (.object span members) →
        (∀ entry ∈ members, Json.partsText entry.1.parts ≠ some "id") →
          Request.idOf line = .null := by
  intro response
  have own := (Request.wellRead_idOf line).legible doubles
  have sorted := (Request.wellRead_idOf line).sorted
  have shape : response = ⟨Request.idOf line, response.outcome⟩ := by
    rw [← id_answerLine backend registry line]
  refine ⟨(Json.printable_compact _).no_break, ?_, fun span members object omitted =>
    Request.idOf_eq_null object omitted⟩
  cases answered : response.outcome with
  | ok result =>
      have serves : Serves backend registry line result := outcome_answerLine_iff.mp answered
      refine .inl ⟨result, serves, ?_⟩
      rw [shape, answered, ofText?_success own (serves.bounded.mono (by decide)), sorted]
  | error error =>
      refine .inr ⟨fun result serves => ?_, error.message, ?_⟩
      · have result := outcome_answerLine_iff.mpr serves
        cases answered.symm.trans result
      · rw [shape, answered, ofText?_failure own, sorted]

/-- A request with a number and a line break in its id. -/
theorem response_envelope_broken_id :
    let backend := Backend.overStore Tree.empty.store DelimiterEngine.engine
    let registry : Registry Unit := empty HostOptions.standard
    let line := "[[7,\"a\\nb\"],\"getDiagnostics\",[\"/p\",\"/p/a.ts\",\"f(1;\"]]"
    let response := (registry.answerLine backend line).value.1
    (Request.idOf line).numbers = [.integer 7] ∧
      (∀ c ∈ response.text.toList, c ≠ '\n' ∧ c ≠ '\r') ∧
      ∃ result, Serves backend registry line result ∧
        Json.ofText? response.text = some (.object
          [("id", Request.idOf line), ("ok", .bool true), ("result", result.sorted)]) := by
  intro backend registry line response
  have numbers : (Request.idOf line).numbers = [.integer 7] := by decide +kernel
  have answered : response.outcome.isOk = true := by decide +kernel
  have none_float : ∀ bits, .float bits ∈ (Request.idOf line).numbers →
      (Number.float bits).Legible := by
    simp [numbers]
  obtain ⟨result, outcome⟩ : ∃ result, response.outcome = .ok result := by
    cases outcome : response.outcome with
    | ok result => exact ⟨result, rfl⟩
    | error error => simp [outcome, Except.isOk, Except.toBool] at answered
  have serves : Serves backend registry line result := outcome_answerLine_iff.mp outcome
  clear_value registry line
  obtain ⟨oneLine, readBack | ⟨refused, -⟩, -⟩ :=
    response_envelope backend registry line none_float
  · exact ⟨numbers, oneLine, readBack⟩
  · exact absurd serves (refused result)

end Registry

end ScriptAnalysis
