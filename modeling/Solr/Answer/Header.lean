import Solr.Json.Record

/-! The header of an answer, and the acknowledgement, which is nothing else. -/
namespace Solr.Answer

open Json

/-- `parameters` are those of the request, echoed; a repeated one is an array. -/
structure Header where
  status : Int
  queryTime : Nat
  parameters : Entries Json
  deriving DecidableEq

namespace Header

def members : Members Header :=
  mk <$> .required "status" Decode.int64
    <*> .required "QTime" Decode.nat64
    <*> .defaulted "params" [] (Decode.map Decode.value)

def decode : Decoder Header :=
  Record.closed "ResponseHeader" members

def encode (h : Header) : Json :=
  .object [("status", .ofInt h.status), ("QTime", .ofNat h.queryTime),
    ("params", .object h.parameters)]

end Header

/-- The answer to an update or a deletion. -/
structure Acknowledgement where
  header : Header
  deriving DecidableEq

namespace Acknowledgement

def members : Members Acknowledgement :=
  mk <$> .required "responseHeader" Header.decode

def decode : Decoder Acknowledgement :=
  Record.closed "UpdateResponse" members

def encode (a : Acknowledgement) : Json :=
  .object [("responseHeader", a.header.encode)]

end Acknowledgement
end Solr.Answer
