import Solr.Answer.Documents

/-! Facet counts. Besides the members that a level declares it has one for each facet
below it, under the name that the request gave the facet; these are kept as they came
and read when they are asked for. -/
namespace Solr.Answer

open Json

/-- The documents of one value of a field, or of one range. -/
structure Bucket where
  value : Json
  count : Nat
  facets : Entries Json
  deriving DecidableEq

namespace Bucket

def members : Members (Entries Json → Bucket) :=
  (fun value count facets => ⟨value, count, facets⟩) <$> .required "val" Decode.value
    <*> .required "count" Decode.nat64

def decode : Decoder Bucket := fun n => do
  let (make, others) ← Record.opened "FacetBucket" members n
  return make (← Record.rest others)

def encode (b : Bucket) : Json :=
  .object ([("val", b.value), ("count", .ofNat b.count)] ++ b.facets)

end Bucket

/-- The counts of one facet: one number, or buckets. -/
structure FacetNode where
  count : Option Nat
  buckets : List Bucket
  facets : Entries Json
  deriving DecidableEq

namespace FacetNode

def members : Members (Entries Json → FacetNode) :=
  (fun count buckets facets => ⟨count, buckets, facets⟩) <$> .optional "count" Decode.nat64
    <*> .defaulted "buckets" [] (Decode.list Bucket.decode)

def decode : Decoder FacetNode := fun n => do
  let (make, others) ← Record.opened "FacetNode" members n
  return make (← Record.rest others)

def encode (n : FacetNode) : Json :=
  .object (Json.optional "count" .ofNat n.count ++
    [("buckets", .array (n.buckets.map Bucket.encode))] ++ n.facets)

end FacetNode

/-- The count of all documents, with the facets of the request. -/
structure FacetCounts where
  count : Nat
  facets : Entries Json
  deriving DecidableEq

namespace FacetCounts

def empty : FacetCounts :=
  ⟨0, []⟩

def members : Members (Entries Json → FacetCounts) :=
  (fun count facets => ⟨count, facets⟩) <$> .defaulted "count" 0 Decode.nat64

def decode : Decoder FacetCounts := fun n => do
  let (make, others) ← Record.opened "FacetCounts" members n
  return make (← Record.rest others)

def encode (c : FacetCounts) : Json :=
  .object (("count", .ofNat c.count) :: c.facets)

end FacetCounts

/-- The facet of a name, if there is one and it has the shape of a facet. -/
def facetAt (facets : Entries Json) (name : String) : Option FacetNode :=
  match facets.get? name with
  | some j => if j.isObject then (FacetNode.decode (.ofJson j)).toOption else none
  | none => none

/-- A place among facet counts. -/
inductive FacetPlace where
  | counts (counts : FacetCounts)
  | node (node : FacetNode)
  | bucket (bucket : Bucket)
  deriving DecidableEq

/-- A step down: to the facet of a name, or to one of the buckets of a facet. -/
inductive FacetStep where
  | facet (name : String)
  | bucket (index : Nat)
  deriving DecidableEq

namespace FacetPlace

def facets : FacetPlace → Entries Json
  | .counts c => c.facets
  | .node n => n.facets
  | .bucket b => b.facets

def encode : FacetPlace → Json
  | .counts c => c.encode
  | .node n => n.encode
  | .bucket b => b.encode

def step (place : FacetPlace) : FacetStep → Option FacetPlace
  | .facet name => (facetAt place.facets name).map .node
  | .bucket index =>
    match place with
    | .node n => n.buckets[index]?.map .bucket
    | _ => none

def walk (place : FacetPlace) : List FacetStep → Option FacetPlace
  | [] => some place
  | s :: rest => (place.step s).bind (·.walk rest)

end FacetPlace

/-- The answer to a grouped query with facets. -/
structure FacetedGroups (D : Type) where
  grouped : Grouped D
  facets : FacetCounts
  deriving DecidableEq

namespace FacetedGroups

variable {D : Type} [Document D]

def members : Members FacetCounts :=
  .defaulted "facets" FacetCounts.empty FacetCounts.decode

/-- The groups are read last, from the members that are not facets. -/
def decode : Decoder (FacetedGroups D) := fun n => do
  let (facets, others) ← Record.opened "FacetGroupResponse" members n
  let rest := Node.object (others.map fun p => (.ok p.1, p.2)) .closed
  let grouped ← (Grouped.decode rest).mapError (ReadError.settled ReadError.leftoverLimit)
  return ⟨grouped, facets⟩

def encode (g : FacetedGroups D) : Json :=
  .object (g.grouped.fields ++ [("facets", g.facets.encode)])

end FacetedGroups
end Solr.Answer
