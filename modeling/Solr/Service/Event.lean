import Solr.Http.Request
import Solr.Text.Blank
import Solr.Text.Split

/-! Events that tell what a client does, and their lines in the log. -/
namespace Solr.Service

inductive Event where
  | updating (collection : String) (documents : Nat)
  | removing (collection : String)
  | sending (method : Http.Method) (url : String) (parameters : Nat)
  | refused (status : Nat) (url : String)
  | committed (queryTime : Nat)
  deriving DecidableEq

namespace Event

def numeral (n : Nat) : String :=
  String.ofList (Text.digits n)

def line : Event → String
  | .updating collection documents =>
    "DEBUG solrq::client: Updating documents collection=" ++ collection ++
      " docs=" ++ numeral documents
  | .removing collection => "DEBUG solrq::client: Removing documents collection=" ++ collection
  | .sending method url parameters =>
    "DEBUG solrq::transport: Sending Solr request method=" ++ method.name ++
      " url=" ++ url ++ " params=" ++ numeral parameters
  | .refused status url =>
    "WARN solrq::transport: Solr request failed status=" ++ numeral status ++ " url=" ++ url
  | .committed queryTime => "DEBUG solrq::client: Committed qtime=" ++ numeral queryTime

/-- The lines that an event takes up in a log, each without the white space around it; a
name within the event may hold line breaks. -/
def logLines (e : Event) : List String :=
  (Text.splitAt '\n' e.line.toList).map fun l => String.ofList (Text.trim l)

end Event
end Solr.Service
