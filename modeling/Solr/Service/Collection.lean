import Solr.Answer.Facets
import Solr.Http.Reply
import Solr.Query.Compile
import Solr.Service.Event
import Solr.Settings
import Solr.Update

/-! One collection of the service: what is asked of it, the request that carries this,
and what comes of it. Nothing is sent twice, and nothing is kept between operations. -/
namespace Solr.Service

open Json (Decoder ReadError)

inductive Failure where
  | transport (fault : Http.TransportFault)
  /-- The service answered, but not with a status of success. -/
  | status (code : Nat) (body : String)
  | unreadable (error : ReadError)
  /-- The query has no parameters that could be sent. -/
  | parameters (error : FlattenError)
  deriving DecidableEq

namespace Failure

def message : Failure → String
  | .transport fault => "HTTP request failed: " ++ fault.message
  | .status code body => "Solr returned " ++ Event.numeral code ++ ": " ++ body
  | .unreadable e => "JSON error: " ++ e.message
  | .parameters e => e.message

end Failure

/-- What an operation did: the request that it issued, if any, the events on the way,
and the result. -/
structure Outcome (α : Type) where
  request : Option Http.Request
  events : List Event
  result : Except Failure α

namespace Outcome

variable {α β : Type}

def map (f : α → β) (o : Outcome α) : Outcome β :=
  { o with result := o.result.map f }

/-- Events before those of an operation. -/
def after (events : List Event) (o : Outcome α) : Outcome α :=
  { o with events := events ++ o.events }

end Outcome

structure Collection where
  name : String
  settings : Settings
  deriving DecidableEq

namespace Collection

variable {α D : Type}

def diagnostic (c : Collection) : String :=
  "SolrClient \x7b collection: " ++ Text.diagnostic c.name ++
    ", base_url: " ++ Text.diagnostic c.settings.baseUrl ++ " \x7d"

def transportDiagnostic : String :=
  "HttpTransport \x7b .. \x7d"

def url (c : Collection) (handler : String) : String :=
  c.settings.baseUrl ++ "/" ++ c.name ++ "/" ++ handler

/-- The time that a request may take; its own limit goes before that of the settings. -/
def limit (c : Collection) (r : Http.Request) : Option Nat :=
  r.timeout.or c.settings.requestTimeout

/-- The result of a reply that came in time, with the event that goes with it. -/
def read (d : Decoder α) (r : Http.Request) (reply : Http.Reply) :
    List Event × Except Failure α :=
  if reply.succeeded then
    ([], (Json.decodeText d .service reply.text).mapError .unreadable)
  else ([.refused reply.status r.url], .error (.status reply.status reply.text))

def send (c : Collection) (d : Decoder α) (r : Http.Request) (delivery : Http.Delivery) :
    Outcome α :=
  let sending := Event.sending r.method r.url r.parameters.length
  match delivery.receive (c.limit r) with
  | .error fault => ⟨some r, [sending], .error (.transport fault)⟩
  | .ok reply =>
    let (events, result) := read d r reply
    ⟨some r, sending :: events, result⟩

/-- The request that asks a query. -/
def queryRequest (c : Collection) (parameters : Parameters) (o : Http.Options) : Http.Request :=
  ((Http.Request.get (c.url "select")).withParameters parameters).withOptions o

/-- The request that changes the index, and makes the change visible at once. -/
def changeRequest (c : Collection) (body : String) (o : Http.Options) : Http.Request :=
  ((Http.Request.postJson (c.url "update") body).withParameters [("commit", "true")]).withOptions o

/-- Asks a query whose parameters are the members of a JSON object. -/
def ask (c : Collection) (d : Decoder α) (query : Json) (o : Http.Options)
    (delivery : Http.Delivery) : Outcome α :=
  match Parameters.flatten query with
  | .error e => ⟨none, [], .error (.parameters e)⟩
  | .ok parameters => c.send d (c.queryRequest parameters o) delivery

def select [Document D] (c : Collection) (query : Json) (o : Http.Options)
    (delivery : Http.Delivery) : Outcome (Answer.Selection D) :=
  c.ask Answer.Selection.decode query o delivery

def selectGroups [Document D] (c : Collection) (query : Json) (o : Http.Options)
    (delivery : Http.Delivery) : Outcome (Answer.Grouped D) :=
  c.ask Answer.Grouped.decode query o delivery

def selectFacets [Document D] (c : Collection) (query : Json) (o : Http.Options)
    (delivery : Http.Delivery) : Outcome (Answer.FacetedGroups D) :=
  c.ask Answer.FacetedGroups.decode query o delivery

/-- Sends a change; when it is acknowledged, the time that it took is told. -/
def change (c : Collection) (body : String) (o : Http.Options) (delivery : Http.Delivery) :
    Outcome Unit :=
  let outcome := c.send Answer.Acknowledgement.decode (c.changeRequest body o) delivery
  match outcome.result with
  | .ok a => ⟨outcome.request, outcome.events ++ [.committed a.header.queryTime], .ok ()⟩
  | .error e => ⟨outcome.request, outcome.events, .error e⟩

def update [Document D] (c : Collection) (updates : List (Update D)) (o : Http.Options)
    (delivery : Http.Delivery) : Outcome Unit :=
  (c.change (Update.body updates) o delivery).after [.updating c.name updates.length]

def remove (c : Collection) (d : Deletion) (o : Http.Options) (delivery : Http.Delivery) :
    Outcome Unit :=
  (c.change d.body o delivery).after [.removing c.name]

end Collection
end Solr.Service
