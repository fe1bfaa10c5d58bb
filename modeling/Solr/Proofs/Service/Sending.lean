import Solr.Proofs.Deletion
import Solr.Proofs.Http.Headers
import Solr.Proofs.Service.Deciding
import Solr.Proofs.Update

/-! The requests of a session: method, address, body and headers of each, whatever its
caller says of it, and the parameters of a query as they are received. Base URL and name are
one text with the handler, so what they have of a query is sent in front of the parameters. -/
namespace Solr.Service

open Http (SameName lastGiven received)
open Query (Description Kind)
open Update (Carried Recovered)

variable {D : Type} [Document D]

namespace Operation

/-- What a change says of the index. -/
def change : Operation D → Option Json
  | .select _ | .selectGroups _ | .selectFacets _ => none
  | .update updates => some (Update.encodeAll updates)
  | .remove deletion => some deletion.encode

def handler (o : Operation D) : String :=
  if o.isChange then "update" else "select"

omit [Document D] in
theorem question_notMem_handler (o : Operation D) : '?' ∉ o.handler.toList := by
  unfold handler
  split <;> decide

/-- What a query asks. -/
def query : Operation D → Option Json
  | .select query | .selectGroups query | .selectFacets query => some query
  | .update _ | .remove _ => none

omit [Document D] in
theorem parameters_query {o : Operation D} {query : Json} (asks : o.query = some query) :
    o.parameters = Parameters.flatten query := by
  cases o with
  | select | selectGroups | selectFacets =>
    obtain rfl := Option.some.inj asks
    rfl
  | update | remove => cases asks

end Operation

/-- The request that a step issues once it has parameters. -/
def Step.request (c : Collection) (s : Step D) (parameters : Parameters) : Http.Request :=
  match s.operation.change with
  | none => c.queryRequest parameters s.options
  | some change => c.changeRequest change.compact s.options

theorem Step.perform_request (c : Collection) (s : Step D) {parameters : Parameters}
    (flattened : s.operation.parameters = .ok parameters) :
    (s.perform c).request = some (s.request c parameters) := by
  obtain ⟨operation, options, delivery⟩ := s
  cases operation with
  | select query =>
    exact c.ask_request (α := Answer.Selection D) _ flattened options delivery
  | selectGroups query =>
    exact c.ask_request (α := Answer.Grouped D) _ flattened options delivery
  | selectFacets query =>
    exact c.ask_request (α := Answer.FacetedGroups D) _ flattened options delivery
  | update updates => exact c.change_request (Update.body updates) options delivery
  | remove deletion => exact c.change_request deletion.body options delivery

/-- The parameters of a request are those of its operation. -/
theorem Step.request_parameters (c : Collection) (s : Step D) {parameters : Parameters}
    (flattened : s.operation.parameters = .ok parameters) :
    (s.request c parameters).parameters = parameters := by
  obtain ⟨operation, options, delivery⟩ := s
  cases operation with
  | select | selectGroups | selectFacets => rfl
  | update | remove => exact Except.ok.inj flattened

theorem Step.request_body (c : Collection) (s : Step D) (parameters : Parameters) :
    (s.request c parameters).body = s.operation.change.map Json.compact := by
  unfold Step.request
  cases s.operation.change <;> rfl

theorem Step.request_url (c : Collection) (s : Step D) (parameters : Parameters) :
    (s.request c parameters).url = c.url s.operation.handler := by
  obtain ⟨operation, options, delivery⟩ := s
  cases operation <;> rfl

theorem Step.reaches (c : Collection) (s : Step D) (parameters : Parameters) :
    c.Reaches (s.request c parameters) :=
  c.reaches s.operation.question_notMem_handler (s.request_url c parameters)

/-- What a body says of an operation, to a reader that knows nothing of how it was written. The
fields of documents are read back where these have a layout. -/
inductive Conveyed : Operation D → Option String → Prop
  | select (query : Json) : Conveyed (.select query) none
  | selectGroups (query : Json) : Conveyed (.selectGroups query) none
  | selectFacets (query : Json) : Conveyed (.selectFacets query) none
  | update {updates : List (Update D)} {text : String}
    (elements : (∀ u ∈ updates, (Document.encode u.content).Finite) →
      ∃ items, (Twin.read? text).bind Twin.items? = some items ∧
        List.Forall₂ Carried updates items)
    (fields : ∀ [Layout D], ∃ readings, Update.Reading.ofBody? text = some readings ∧
      List.Forall₂ Recovered updates readings) :
    Conveyed (.update updates) (some text)
  | remove {d : Deletion} {text : String}
    (request : Deletion.Request.readBody? text = some d.asked) : Conveyed (.remove d) (some text)

theorem conveyed_update (updates : List (Update D)) :
    Conveyed (.update updates) (some (Update.body updates)) := by
  refine .update (fun finite => ⟨_, Update.items?_body finite, ?_⟩)
    ⟨_, Update.ofBody?_body updates, ?_⟩
  · apply List.forall₂_map_right_iff.mpr
    apply List.forall₂_same.mpr
    exact fun u _ => u.carried_encode
  · apply List.forall₂_map_right_iff.mpr
    apply List.forall₂_same.mpr
    exact fun u _ => u.recovered_reading

/-- The request that is due for a step whose caller gave these headers. -/
structure Due (c : Collection) (s : Step D) (given : List (String × String))
    (r : Http.Request) : Prop where
  method : r.method = if s.operation.isChange then .post else .get
  url : r.url = c.settings.baseUrl ++ "/" ++ c.name ++
    (if s.operation.isChange then "/update" else "/select")
  reaches : c.Reaches r
  /-- Nothing but this follows the path of a change, unless base URL or name begin a query. -/
  commit : s.operation.isChange = true → ∀ u, Url.parse? r.url.toList = some u →
    '?' ∉ u.path ∧ r.target? = some (u.path ++ '?' :: (u.lead ++ "commit=true".toList)) ∧
      ('?' ∉ c.settings.baseUrl.toList → '?' ∉ c.name.toList → u.lead = [])
  body : Conveyed s.operation r.body
  /-- Each value stands alone under its name. -/
  headers : ∀ name, r.headers.values name =
    if s.operation.isChange ∧ SameName "content-type" name then ["application/json"]
    else (lastGiven given name).toList

section Dues

theorem lead_url {c : Collection} {handler : String} (noMark : '?' ∉ handler.toList) {u : Url.Parts}
    (parsed : Url.parse? (c.url handler).toList = some u)
    (base : '?' ∉ c.settings.baseUrl.toList) (name : '?' ∉ c.name.toList) : u.lead = [] := by
  have none := Url.query_eq_none parsed (Collection.question_notMem_url base name noMark)
  rw [Url.Parts.lead, none]

theorem commit_changeRequest {c : Collection} (body : String) (o : Http.Options) {u : Url.Parts}
    (parsed : Url.parse? (c.changeRequest body o).url.toList = some u) :
    '?' ∉ u.path ∧
      (c.changeRequest body o).target? =
        some (u.path ++ '?' :: (u.lead ++ "commit=true".toList)) ∧
      ('?' ∉ c.settings.baseUrl.toList → '?' ∉ c.name.toList → u.lead = []) := by
  refine ⟨Url.question_notMem_path parsed, ?_, lead_url (by decide) parsed⟩
  have encoded : Url.Form.encode [("commit", "true")] = "commit=true".toList := by decide +kernel
  rw [Http.Request.target?, parsed, ← encoded]
  rfl

theorem due_queryRequest (c : Collection) (s : Step D) {given : List (String × String)}
    (reached : s.options.Given given) (parameters : Parameters)
    (isQuery : s.operation.isChange = false) (conveyed : Conveyed s.operation none) :
    Due c s given (c.queryRequest parameters s.options) where
  method := by rw [isQuery]; rfl
  url := by
    rw [isQuery]
    simp [Collection.queryRequest, Http.Request.withOptions, Http.Request.withParameters,
      Http.Request.get, Collection.url, String.append_assoc]
  reaches := c.reaches_queryRequest parameters s.options
  commit := by simp [isQuery]
  body := conveyed
  headers := by
    intro name
    simp only [isQuery, Bool.false_eq_true, false_and, if_false]
    exact Http.Request.values_get reached _ parameters name

theorem due_changeRequest (c : Collection) (s : Step D) {given : List (String × String)}
    (reached : s.options.Given given) {body : String} (isChange : s.operation.isChange = true)
    (conveyed : Conveyed s.operation (some body)) :
    Due c s given (c.changeRequest body s.options) where
  method := by rw [isChange]; rfl
  url := by
    rw [isChange]
    simp [Collection.changeRequest, Http.Request.withOptions, Http.Request.withParameters,
      Http.Request.postJson, Collection.url, String.append_assoc]
  reaches := c.reaches (by decide) rfl
  commit := fun _ _ parsed => commit_changeRequest body s.options parsed
  body := conveyed
  headers := by
    intro name
    simp only [isChange, true_and]
    exact Http.Request.values_postJson reached _ body _ name

theorem Step.due (c : Collection) (s : Step D) {given : List (String × String)}
    (reached : s.options.Given given) (parameters : Parameters) :
    Due c s given (s.request c parameters) := by
  obtain ⟨operation, options, delivery⟩ := s
  cases operation with
  | select query => exact due_queryRequest c _ reached parameters rfl (.select query)
  | selectGroups query => exact due_queryRequest c _ reached parameters rfl (.selectGroups query)
  | selectFacets query => exact due_queryRequest c _ reached parameters rfl (.selectFacets query)
  | update updates => exact due_changeRequest c _ reached rfl (conveyed_update updates)
  | remove deletion => exact due_changeRequest c _ reached rfl (.remove deletion.readBody?_body)

end Dues

/-- The service sees the request of a step, and no other, if it can be reached. -/
theorem Step.seen_request (c : Collection) (s : Step D) {parameters : Parameters}
    (flattened : s.operation.parameters = .ok parameters) :
    s.seen c = if s.delivery.arrives then [s.request c parameters] else [] := by
  rw [seen, s.perform_request c flattened]
  rfl

/-- In a session each step sends the request that is due for it, once: all changes, and the
queries that have parameters. -/
theorem session_requests (c : Collection) (steps : List (Step D)) :
    List.Forall₂ (fun s o =>
      (s.operation.isChange = true → s.operation.parameters.isOk = true) ∧
      ∀ given parameters, s.options.Given given → s.operation.parameters = .ok parameters →
        ∃ r, o.request = some r ∧ (s.seen c = if s.delivery.arrives then [r] else []) ∧
          Due c s given r)
      steps (session c steps) := by
  apply List.forall₂_map_right_iff.mpr
  apply List.forall₂_same.mpr
  intro s _
  constructor
  · intro change
    rw [Operation.parameters_change change]
    rfl
  · intro given parameters reached flattened
    exact ⟨s.request c parameters, s.perform_request c flattened, s.seen_request c flattened,
      s.due c reached parameters⟩

/-- A document with a boost, a content type and one name in two letter cases, and a limit in
between. -/
theorem session_requests_with_headers :
    ∃ (r : Http.Request) (text : String) (readings : List Update.Reading),
      (session ⟨"films", .ofBaseUrl "http://solr/"⟩
        [(⟨.update [.document ⟨"1", "Solaris", ["sf", "drama"], some 1972, none⟩,
            .add ⟨"2", "Stalker", [], none, none⟩ (some (.ofInt 2))],
          ⟨[("content-type", "text/plain"), ("x-trace", "2")], some 5⟩, .dropped⟩ : Step Film)]).map
        Outcome.request = [some r] ∧
      r.url = "http://solr/films/update" ∧
      r.target? = some "/films/update?commit=true".toList ∧ r.body = some text ∧
      Update.Reading.ofBody? text = some readings ∧
      List.Forall₂ Recovered [.document ⟨"1", "Solaris", ["sf", "drama"], some 1972, none⟩,
        .add (⟨"2", "Stalker", [], none, none⟩ : Film) (some (.ofInt 2))] readings ∧
      r.headers.values "Content-Type" = ["application/json"] ∧
      r.headers.values "X-TRACE" = ["2"] := by
  have sent := session_requests ⟨"films", .ofBaseUrl "http://solr/"⟩
    [(⟨.update [.document ⟨"1", "Solaris", ["sf", "drama"], some 1972, none⟩,
        .add ⟨"2", "Stalker", [], none, none⟩ (some (.ofInt 2))],
      ⟨[("content-type", "text/plain"), ("x-trace", "2")], some 5⟩, .dropped⟩ : Step Film)]
  have reached : Http.Options.Given
      [("Content-Type", "text/plain"), ("X-Trace", "1"), ("x-trace", "2")]
      ⟨[("content-type", "text/plain"), ("x-trace", "2")], some 5⟩ :=
    .header (.limit (.header (.header .empty rfl) rfl) 5) rfl
  obtain ⟨r, request, -, due⟩ :=
    (List.forall₂_cons.mp sent).1.2 _ [("commit", "true")] reached rfl
  have url : r.url = "http://solr/films/update" := due.url
  have parsed : Url.parse? "http://solr/films/update".toList =
      some ⟨"solr".toList, "/films/update".toList, none⟩ := by decide +kernel
  obtain ⟨-, target, -⟩ := due.commit rfl _ (url ▸ parsed)
  cases body : r.body with
  | none =>
    have conveyed := due.body
    rw [body] at conveyed
    cases conveyed
  | some text =>
    have conveyed := due.body
    rw [body] at conveyed
    cases conveyed with
    | update _ fields =>
      obtain ⟨readings, read, recovered⟩ := @fields inferInstance
      exact ⟨r, text, readings, congrArg (fun o => [o]) request, url, target, body, read, recovered,
        due.headers "Content-Type", due.headers "X-TRACE"⟩

/-- A name with a question mark begins a query: the change goes to another path, and its query
is not the one that asks for a commit. -/
theorem session_requests_under_mark :
    ∃ (r : Http.Request) (target : List Char),
      (session ⟨"a?b", .ofBaseUrl "http://solr/solr"⟩
        [(⟨.remove (.matching "*:*"), .empty, .dropped⟩ : Step Json)]).map Outcome.request =
        [some r] ∧
      r.method = .post ∧ r.target? = some target ∧
      Text.splitOnce? '?' target = some ("/solr/a".toList, "b/update&commit=true".toList) := by
  refine ⟨_, "/solr/a?b/update&commit=true".toList, rfl, rfl, ?_, ?_⟩ <;> decide +kernel

/-- The parameters of a query are received as they are, after any that base URL and name bring
along. Where these hold no question mark nothing is added, and no parameters make none. A
description of any kind has parameters. -/
theorem session_parameters_received (c : Collection) (steps : List (Step D)) :
    List.Forall₂ (fun s o =>
      ∀ query parameters, s.operation.query = some query →
        Parameters.flatten query = .ok parameters →
        ∃ r, o.request = some r ∧ c.Reaches r ∧ ∀ target, r.target? = some target →
          received target = r.ownPairs ++ parameters ∧
          ('?' ∉ c.settings.baseUrl.toList → '?' ∉ c.name.toList →
            received target = parameters ∧ ('?' ∉ target ↔ parameters = [])))
      steps (session c steps) ∧
    ∀ (d : Description) (kind : Kind),
      ∃ parameters, Parameters.flatten (d.compile kind) = .ok parameters := by
  refine ⟨?_, fun d kind => ⟨_, d.parameters_eq kind⟩⟩
  apply List.forall₂_map_right_iff.mpr
  apply List.forall₂_same.mpr
  intro s _ query parameters asks flat
  have flattened : s.operation.parameters = .ok parameters := by
    rw [Operation.parameters_query asks, flat]
  have same := s.request_parameters c flattened
  have reaches := s.reaches c parameters
  refine ⟨_, s.perform_request c flattened, reaches, fun target sent => ?_⟩
  have received := reaches.pairs target sent
  rw [same] at received
  refine ⟨received, fun base name => ?_⟩
  rw [reaches.own base name, List.nil_append] at received
  refine ⟨received, ?_⟩
  have noMark := Collection.question_notMem_url base name s.operation.question_notMem_handler
  rw [← s.request_url c parameters] at noMark
  rw [Http.question_mem_target_iff noMark sent, same, not_not]

/-- Signs with a meaning of their own in a target, an empty key and an empty value. -/
theorem session_parameters_received_verbatim :
    ∃ (r : Http.Request) (target : List Char),
      (session ⟨"films", .ofBaseUrl "http://solr"⟩
        [(⟨.select (.object [("q", .string "a&b=c+d%20?#\né"), ("", .string "")]), .empty,
          .dropped⟩ : Step Json)]).map Outcome.request = [some r] ∧
      r.target? = some target ∧ received target = [("", ""), ("q", "a&b=c+d%20?#\né")] := by
  have sent := session_parameters_received ⟨"films", .ofBaseUrl "http://solr"⟩
    [(⟨.select (.object [("q", .string "a&b=c+d%20?#\né"), ("", .string "")]), .empty,
      .dropped⟩ : Step Json)]
  obtain ⟨r, request, reaches, parameters⟩ :=
    (List.forall₂_cons.mp sent.1).1 _ [("", ""), ("q", "a&b=c+d%20?#\né")] rfl (by decide +kernel)
  obtain ⟨target, goes⟩ := Option.isSome_iff_exists.mp (reaches.sent (by decide +kernel))
  have received := ((parameters target goes).2 (by decide +kernel) (by decide +kernel)).1
  exact ⟨r, target, congrArg (fun o => [o]) request, goes, received⟩

end Solr.Service
