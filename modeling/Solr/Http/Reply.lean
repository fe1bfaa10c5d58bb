import Solr.Text.Utf8

/-! What becomes of a request once it is sent. -/
namespace Solr.Http

/-- What a service answers. A reply sends its reader nowhere else. -/
structure Reply where
  status : Nat
  body : List UInt8
  deriving DecidableEq

def Reply.succeeded (r : Reply) : Bool :=
  200 ≤ r.status && r.status ≤ 299

/-- The body as text; bytes that are no text are replaced. -/
def Reply.text (r : Reply) : String :=
  String.ofList (Text.readUtf8 r.body)

inductive Delivery where
  /-- No connection is made, or there is no request to send, as its URL is none; the service sees
  nothing. -/
  | unreachable
  /-- The connection ends without a reply. -/
  | dropped
  /-- The reply comes after a delay in milliseconds. -/
  | answered (reply : Reply) (delay : Nat)
  deriving DecidableEq

inductive TransportFault where
  | connection
  | timeout
  deriving DecidableEq

def TransportFault.message : TransportFault → String
  | .connection => "no connection"
  | .timeout => "no reply in time"

namespace Delivery

/-- Whether the service sees the request. -/
def arrives : Delivery → Bool
  | .unreachable => false
  | _ => true

/-- The reply, if it comes in time. -/
def receive (limit : Option Nat) : Delivery → Except TransportFault Reply
  | .unreachable | .dropped => .error .connection
  | .answered reply delay =>
    match limit with
    | none => .ok reply
    | some limit => if limit < delay then .error .timeout else .ok reply

end Delivery
end Solr.Http
