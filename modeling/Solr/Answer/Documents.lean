import Solr.Answer.Header
import Solr.Document

/-! Answers that list documents: a page of the documents found, and pages collected by
the values of the group fields. -/
namespace Solr.Answer

open Json

/-- A page of the documents found. -/
structure Page (D : Type) where
  found : Nat
  start : Nat
  documents : List D
  maxScore : Option Double
  foundExactly : Option Bool
  deriving DecidableEq

namespace Page

variable {D : Type} [Document D]

def members : Members (Page D) :=
  mk <$> .required "numFound" Decode.nat64
    <*> .required "start" Decode.nat64
    <*> .required "docs" (Decode.list Document.decode)
    <*> .optional "maxScore" Decode.double
    <*> .optional "numFoundExact" Decode.boolean

def decode : Decoder (Page D) :=
  Record.closed "DocList" members

def encode (p : Page D) : Json :=
  .object ([("numFound", .ofNat p.found), ("start", .ofNat p.start),
    ("docs", .array (p.documents.map Document.encode))] ++
    Json.optional "maxScore" .ofDouble p.maxScore ++
    Json.optional "numFoundExact" .boolean p.foundExactly)

end Page

/-- The answer to a query without groups. -/
structure Selection (D : Type) where
  header : Header
  page : Page D
  deriving DecidableEq

namespace Selection

variable {D : Type} [Document D]

def members : Members (Selection D) :=
  mk <$> .required "responseHeader" Header.decode
    <*> .required "response" Page.decode

def decode : Decoder (Selection D) :=
  Record.closed "Response" members

def encode (s : Selection D) : Json :=
  .object [("responseHeader", s.header.encode), ("response", s.page.encode)]

end Selection

/-- The documents with one value of a group field; the value is null for documents
that have none. -/
structure Group (D : Type) where
  value : Json
  page : Page D
  deriving DecidableEq

namespace Group

variable {D : Type} [Document D]

def members : Members (Group D) :=
  mk <$> .required "groupValue" Decode.value
    <*> .required "doclist" Page.decode

def decode : Decoder (Group D) :=
  Record.closed "GroupEntry" members

def encode (g : Group D) : Json :=
  .object [("groupValue", g.value), ("doclist", g.page.encode)]

end Group

/-- The groups of one field. -/
structure Grouping (D : Type) where
  found : Nat
  groupCount : Option Nat
  groups : List (Group D)
  deriving DecidableEq

namespace Grouping

variable {D : Type} [Document D]

def members : Members (Grouping D) :=
  mk <$> .required "matches" Decode.nat64
    <*> .optional "ngroups" Decode.nat64
    <*> .required "groups" (Decode.list Group.decode)

def decode : Decoder (Grouping D) :=
  Record.closed "GroupList" members

def encode (g : Grouping D) : Json :=
  .object ([("matches", .ofNat g.found)] ++
    Json.optional "ngroups" .ofNat g.groupCount ++
    [("groups", .array (g.groups.map Group.encode))])

end Grouping

/-- The answer to a grouped query, by the name of the group field. -/
structure Grouped (D : Type) where
  header : Header
  groupings : Entries (Grouping D)
  deriving DecidableEq

namespace Grouped

variable {D : Type} [Document D]

def members : Members (Grouped D) :=
  mk <$> .required "responseHeader" Header.decode
    <*> .required "grouped" (Decode.map Grouping.decode)

def decode : Decoder (Grouped D) :=
  Record.closed "GroupResponse" members

def fields (g : Grouped D) : List (String × Json) :=
  [("responseHeader", g.header.encode),
    ("grouped", .object (g.groupings.map fun p => (p.1, p.2.encode)))]

def encode (g : Grouped D) : Json :=
  .object g.fields

end Grouped
end Solr.Answer
