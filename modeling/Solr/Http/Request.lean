import Solr.Http.Headers
import Solr.Parameters
import Solr.Url.Parse

/-! Requests, and their target: path and query of the URL, with the parameters after them. -/
namespace Solr.Http

inductive Method where
  | get
  | post
  deriving DecidableEq

def Method.name : Method → String
  | .get => "GET"
  | .post => "POST"

structure Request where
  url : String
  method : Method
  parameters : Parameters
  headers : Headers
  body : Option String
  timeout : Option Nat
  deriving DecidableEq

namespace Request

def get (url : String) : Request :=
  ⟨url, .get, [], [], none, none⟩

def postJson (url body : String) : Request :=
  ⟨url, .post, [], [("content-type", "application/json")], some body, none⟩

def withParameters (r : Request) (parameters : Parameters) : Request :=
  { r with parameters }

/-- Headers that the request has already win over those of the options. -/
def withOptions (r : Request) (o : Options) : Request :=
  { r with headers := o.headers.addAll r.headers, timeout := o.timeout.or r.timeout }

end Request

/-- The target as it is sent; no request can be made of a URL that cannot be parsed. -/
def Request.target? (r : Request) : Option (List Char) :=
  (Url.parse? r.url.toList).map (·.target r.parameters)

end Solr.Http
