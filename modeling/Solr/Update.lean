import Solr.Document
import Solr.Json.Printer
import Solr.Scalar

/-! What is sent to change the index: documents to store, and deletions. -/
namespace Solr

/-- A document, bare or wrapped in a command that may boost it. -/
inductive Update (D : Type) where
  | document (document : D)
  | add (document : D) (boost : Option Double)
  deriving DecidableEq

namespace Update

variable {D : Type} [Document D]

def encode : Update D → Json
  | .document d => Document.encode d
  | .add d boost =>
    .object [("add", .object (("doc", Document.encode d) :: Json.optional "boost" .ofDouble boost))]

def encodeAll (updates : List (Update D)) : Json :=
  .array (updates.map encode)

def body (updates : List (Update D)) : String :=
  (encodeAll updates).compact

end Update

/-- Which documents to delete: those that a query finds, or those in which a field has
a value. -/
inductive Deletion where
  | matching (query : String)
  | holding (field : Field) (value : Scalar)
  deriving DecidableEq

namespace Deletion

def encode : Deletion → Json
  | .matching query => .object [("delete", .object [("query", .string query)])]
  | .holding field value => .object [("delete", .object [(field.name, value.json)])]

def body (d : Deletion) : String :=
  d.encode.compact

end Deletion
end Solr
