import Solr.Field
import Solr.Json.Record

/-! Documents: what the index stores and returns, read from and written to JSON. A field
may be written with a boost; stored fields come back without one. -/
namespace Solr

class Document (D : Type) where
  decode : Json.Decoder D
  encode : D → Json

/-- A document without a declared shape. -/
instance : Document Json where
  decode := Json.Decode.value
  encode := id

structure Boosted (α : Type) where
  value : α
  boost : Option Double
  deriving DecidableEq

namespace Boosted

variable {α : Type}

def plain (value : α) : Boosted α :=
  ⟨value, none⟩

def decode (d : Json.Decoder α) : Json.Decoder (Boosted α) :=
  fun n => (d n).map plain

def encode (write : α → Json) (b : Boosted α) : Json :=
  match b.boost with
  | none => write b.value
  | some boost => .object [("boost", .ofDouble boost), ("value", write b.value)]

end Boosted

structure Film where
  id : String
  name : String
  genre : List String
  year : Option Int
  score : Option Double
  deriving DecidableEq

namespace Film

open Json

def schema : Schema :=
  ⟨["id", "name", "genre", "year", "score"]⟩

def members : Members Film :=
  mk <$> .required "id" Decode.string
    <*> .required "name" Decode.string
    <*> .defaulted "genre" [] (Decode.list Decode.string)
    <*> .optional "year" Decode.int64
    <*> .optional "score" Decode.double

/-- An unknown year is written as null, an unknown score and an empty genre not at all. -/
def encode (f : Film) : Json :=
  .object ([("id", .string f.id), ("name", .string f.name)] ++
    (if f.genre = [] then [] else [("genre", .ofStrings f.genre)]) ++
    [("year", Json.ofOption .ofInt f.year)] ++
    Json.optional "score" .ofDouble f.score)

instance : Document Film where
  decode := Record.closed "Film" members
  encode := encode

end Film

structure Article where
  id : String
  title : Boosted String
  tags : Boosted (List String)
  deriving DecidableEq

namespace Article

open Json

def schema : Schema :=
  ⟨["id", "title", "tags"]⟩

def members : Members Article :=
  mk <$> .required "id" Decode.string
    <*> .required "title" (Boosted.decode Decode.string)
    <*> .required "tags" (Boosted.decode (Decode.list Decode.string))

def encode (a : Article) : Json :=
  .object [("id", .string a.id),
    ("title", a.title.encode .string),
    ("tags", a.tags.encode .ofStrings)]

instance : Document Article where
  decode := Record.closed "Article" members
  encode := encode

end Article
end Solr
