import EthGateway.Proofs.Gateway.Registration
import EthGateway.Proofs.Gateway.Results
import EthGateway.Proofs.Http.Responses
import EthGateway.Proofs.Pipeline.Reporting
import EthGateway.Server.Dispatch

/-
# EthGateway.Proofs.Gateway.Relay -- errors of the backend on their way to callers

A backend may answer any of the calls of a request with an error, the request's own call or a
look-up for it. Nothing is called after that (`Stage.Course.of_failed`), the log has one error, for
this call (`errors_run`), and the caller is told the error: its message, its data, and its code if
that has thirty-two bits (`serve_relays`).
-/

namespace EthGateway

/-! ## What a backend behind a network reports -/

namespace Http

/-- The notice of a call that was answered with an error of the backend. -/
def report (k : Contact) : List Notice :=
  match k.answer with
  | .error (.backend code message _) => [.backendError k.call.method code message]
  | _ => []

theorem notices_backend (network : Network) (earlier : List Call) (c : Call) :
    (backend network earlier c).notices = report ⟨c, (backend network earlier c).value⟩ := by
  unfold backend
  cases network (requests earlier) (requestBody (earlier.length + 1) c) with
  | none => rfl
  | some r =>
    dsimp only
    cases r.read with
    | error cause => rfl
    | ok e =>
      dsimp only
      unfold Envelope.answer
      cases e.error with
      | none => rfl
      | some error => rfl

theorem report_of_ok {k : Contact} {v : Json} (answered : k.answer = .ok v) : report k = [] := by
  rw [report, answered]

open Envelope Json in
/-- An error in a response that is delivered is an error of the backend. -/
theorem value_backend {network : Network} {earlier : List Call} {c : Call} {reply : Reply}
    (delivered : network (requests earlier) (requestBody (earlier.length + 1) c) = some reply)
    (status : reply.status < 400) {v : Node} (body : Node.ofBytes? reply.body = some v)
    {code : Int} {message : String} {data : Option Node} (failure : IsFailure v code message data) :
    ∃ d, (backend network earlier c).value = .error (.backend code message d) ∧
      value? (maxDepth - 2) data = some d := by
  obtain ⟨d, told⟩ := exists_value?_iff.2 failure.legible
  exact ⟨d, (value_eq_backend_iff delivered status).2 ⟨v, body, data, failure, told⟩, told⟩

end Http

namespace Server

open Http (ErrorObject)
open Http.Envelope (IsFailure)
open Json (Node maxDepth)

/-! ## What the layers make of an error -/

/-- The errors in a log. -/
def errors (notices : List Notice) : List Notice := notices.filter fun n => n.level = "ERROR"

/-- The normalizers of a gateway are builtin, so its formattings report warnings only. -/
theorem reports_of_mem_stages {config : Config} {catalog : Catalog} {f : Formatting}
    (place : .formatting f ∈ stages config catalog) : f.Reports Notice.IsWarning := by
  have warns : ∀ n ∈ Chain.request, n.Reports Notice.IsWarning := by
    intro n hn kind v notice reported
    have builtin : n ∈ Normalizer.builtin := Chain.request_subset_builtin hn
    exact (Normalizer.reports_builtin builtin kind v notice reported).isWarning
  have either : f = .ofCatalog catalog .request ∨ f = Tester.formatting := by
    revert place
    unfold stages
    split <;> split <;> simp +contextual
  rcases either with rfl | rfl
  · exact Formatting.reports_ofCatalog catalog warns
  · exact Formatting.reports_tester

section Pipeline

variable (config : Config) (catalog : Catalog) (c : Call) (network : Http.Network)
  (earlier : List Call)

/-- The errors in the log of a request are those that its calls were answered with. -/
theorem errors_run :
    let o := (pipeline config catalog c).run (Http.backend network) earlier
    errors o.notices = o.contacts.flatMap Http.report := by
  have own : (pipeline config catalog c).Reports fun n => decide (n.level = "ERROR") = false := by
    refine (Stage.reports_stack (fun f => reports_of_mem_stages) c).mono ?_
    intro n warning
    rw [warning]
    decide
  have whole : ∀ k, (Http.report k).filter (fun n => n.level = "ERROR") = Http.report k := by
    intro k
    unfold Http.report
    split <;> rfl
  dsimp only
  rw [errors, Exchange.filter_notices_run own (Http.notices_backend network)]
  simp only [whole]

/-- A request is over with the first call that the backend answers with an error, which is what it
comes to and the only error in its log. -/
theorem run_of_refused {before after : List Contact} {k : Contact} {code : Int} {message : String}
    {data : Option Json} (refused : k.answer = .error (.backend code message data)) :
    let o := (pipeline config catalog c).run (Http.backend network) earlier
    o.contacts = before ++ k :: after →
      after = [] ∧ errors o.notices = [.backendError k.call.method code message] ∧
        o.result = .error (.backend code message data) := by
  intro o contacts
  have trail := Stage.trail_stack (standardNames_stages config catalog) (Http.backend network) c
    earlier
  obtain ⟨rfl, result, answered⟩ := trail.of_failed contacts refused
  have log : errors o.notices = o.contacts.flatMap Http.report :=
    errors_run config catalog c network earlier
  have quiet : before.flatMap Http.report = [] := by
    refine List.flatMap_eq_nil_iff.2 ?_
    intro b hb
    obtain ⟨v, value⟩ := answered b hb
    exact Http.report_of_ok value
  refine ⟨rfl, ?_, result⟩
  rw [log, contacts, List.flatMap_append, quiet, List.nil_append, List.flatMap_singleton,
    Http.report, refused]

end Pipeline

/-! ## What a caller is told -/

variable {config : Config} {catalog : Catalog} {s : Ready} {r : Request} {earlier : List Call}

theorem pipeline_of_build (built : build config catalog = .ok s) :
    s.pipeline = pipeline config catalog := by
  rw [build_eq] at built
  exact congrArg Ready.pipeline (Except.ok.inj built).symm

/-- A request that makes calls is answered with what the layers make of it. -/
theorem exists_run_serve {backend : Backend}
    (called : ((s.serve r).run backend earlier).contacts ≠ []) :
    ∃ params, (s.serve r).run backend earlier =
      let o := (s.pipeline ⟨r.method, params⟩).run backend earlier
      ⟨o.contacts, o.notices, ⟨r.id, o.result.mapError errorObject⟩⟩ := by
  unfold Ready.serve at called ⊢
  split at called
  · next registered =>
    rw [if_pos registered]
    split at called
    · exact absurd rfl called
    · next params _ =>
      refine ⟨params, ?_⟩
      rw [Exchange.run_bind]
      simp [Outcome.followedBy]
  · exact absurd rfl called

/-- What a caller is told about an error of the backend, whose data is given as it is written. -/
structure Told (code : Int) (message : String) (data : Option Node) (e : ErrorObject) : Prop where
  message : e.message = message
  code : e.code = if -Int.pow 2 31 ≤ code ∧ code < Int.pow 2 31 then code else -32603
  noData : data = none ∨ data = some .null → e.data = none
  data : ∀ w, data = some w → w ≠ .null → ∃ x, w.toJson? (maxDepth - 2) = some x ∧ e.data = some x

theorem told_errorObject {code : Int} {message : String} {data : Option Node} {d : Option Json}
    (read : Http.Envelope.value? (maxDepth - 2) data = some d) :
    Told code message data (errorObject (.backend code message d)) := by
  refine ⟨rfl, rfl, ?_, ?_⟩
  · rintro (rfl | rfl)
    · exact (Option.some.inj read).symm
    · exact (Option.some.inj read).symm
  · rintro w rfl notNull
    rw [Http.Envelope.value?_of_ne_null notNull] at read
    obtain ⟨x, value, rfl⟩ := Option.map_eq_some_iff.1 read
    exact ⟨x, value, rfl⟩

/-- The last code that is told as it is, and the first one that is not. -/
example : (errorObject (.backend 2147483647 "out of gas" none)).code = 2147483647 ∧
    (errorObject (.backend 2147483648 "out of gas" none)).code = -32603 := by
  decide

/-- An error of the backend ends a request, is in its log once, and is told as it is. -/
theorem serve_relays (built : build config catalog = .ok s) {network : Http.Network}
    {before after : List Call} {c : Call}
    (made : ((s.serve r).run (Http.backend network) earlier).calls = before ++ c :: after)
    {reply : Http.Reply}
    (delivered : network (Http.requests (earlier ++ before))
      (Http.requestBody ((earlier ++ before).length + 1) c) = some reply)
    (status : reply.status < 400) {v : Node} (body : Node.ofBytes? reply.body = some v)
    {code : Int} {message : String} {data : Option Node}
    (failure : IsFailure v code message data) :
    let o := (s.serve r).run (Http.backend network) earlier
    after = [] ∧ errors o.notices = [.backendError c.method code message] ∧
      ∃ e, o.result = ⟨r.id, .error e⟩ ∧ Told code message data e := by
  obtain ⟨d, refused, read⟩ := Http.value_backend delivered status body failure
  obtain ⟨answered, rest, contacts, rfl, last⟩ := List.map_eq_append_iff.1 made
  obtain ⟨k, others, rfl, rfl, rfl⟩ := List.map_eq_cons_iff.1 last
  have failed : k.answer = .error (.backend code message d) :=
    (Exchange.answer_of_contacts _ _ contacts).trans refused
  have called : ((s.serve r).run (Http.backend network) earlier).contacts ≠ [] := by
    simp [contacts]
  obtain ⟨params, run⟩ := exists_run_serve called
  rw [run, pipeline_of_build built] at contacts ⊢
  obtain ⟨rfl, log, result⟩ :=
    run_of_refused config catalog ⟨r.method, params⟩ network earlier failed contacts
  refine ⟨rfl, log, errorObject (.backend code message d), ?_, told_errorObject read⟩
  dsimp only
  rw [result]
  rfl

/-- A look-up is refused with a code of more than thirty-two bits, null for data and a result beside
the error. The call itself is not made, and its caller is told of an internal error without data. -/
theorem serve_relays_estimate :
    let text := "\x7b\"result\":\"0x5208\",\"error\":\x7b\"code\":4294967296,"
      ++ "\"message\":\"out of gas\",\"data\":null\x7d\x7d"
    let written : Node := .obj
      [(some "result", .str (some "0x5208")),
        (some "error", .obj [(some "code", .num (.ofInt 4294967296)),
          (some "message", .str (some "out of gas")), (some "data", .null)])]
    let network : Http.Network := fun _ request =>
      if request.get? "method" = some (.str "eth_estimateGas") then some ⟨200, text.toByteArray⟩
      else some ⟨200, "\x7b\x7d".toByteArray⟩
    let s : Ready := ⟨⟨Registry.knownNames⟩, pipeline Config.standard .empty⟩
    let o := (s.serve ⟨.ofNat 1, "eth_call", some (.arr [.obj []])⟩).run (Http.backend network) []
    let lookups : List Call := [⟨"eth_coinbase", []⟩, ⟨"eth_accounts", []⟩]
    let estimate : Call := ⟨"eth_estimateGas", [.obj [("from", .null)]]⟩
    build Config.standard .empty = .ok s ∧ Node.ofBytes? text.toByteArray = some written ∧
      IsFailure written 4294967296 "out of gas" (some .null) ∧ o.calls = lookups ++ [estimate] ∧
      errors o.notices = [.backendError "eth_estimateGas" 4294967296 "out of gas"] ∧
      ∃ e, o.result = ⟨.ofNat 1, .error e⟩ ∧ Told 4294967296 "out of gas" (some .null) e := by
  intro text written network s o lookups estimate
  have registered : Registry.ofCatalog .empty = .ok ⟨Registry.knownNames⟩ := by
    decide +kernel
  have built : build Config.standard .empty = .ok s := by
    rw [build, registered]
    rfl
  have tokens : Json.Token.read? (text.toList.map some) = some
      [.beginObject, .str (some "result"), .colon, .str (some "0x5208"), .comma,
        .str (some "error"), .colon,
        .beginObject, .str (some "code"), .colon, .num (.ofInt 4294967296), .comma,
          .str (some "message"), .colon, .str (some "out of gas"), .comma,
          .str (some "data"), .colon, .null, .endObject, .endObject] := by
    decide +kernel
  have body : Node.ofBytes? text.toByteArray = some written := by
    rw [Node.ofBytes?_toByteArray, Node.read?, Node.ofSymbols?, tokens]
    rfl
  have failure : IsFailure written 4294967296 "out of gas" (some .null) := by
    refine ⟨⟨by simp, by decide⟩, .inl rfl, ?_, ?_, ?_, ?_⟩
    · rintro _ ⟨⟩
    · rintro _ ⟨⟩
      rfl
    · exact ⟨_, rfl, ⟨by simp, by decide⟩, ⟨by decide, by decide⟩, rfl, rfl, rfl⟩
    · rintro _ ⟨⟩
      rfl
  have made : o.calls = lookups ++ [estimate] := by
    decide +kernel
  have delivered : network (Http.requests lookups) (Http.requestBody 3 estimate)
      = some ⟨200, text.toByteArray⟩ :=
    if_pos (by decide +kernel)
  obtain ⟨-, log, told⟩ := serve_relays built made delivered (by decide) body failure
  exact ⟨built, body, failure, made, log, told⟩

end Server

end EthGateway
