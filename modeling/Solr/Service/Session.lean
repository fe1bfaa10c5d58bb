import Solr.Service.Collection

/-! Sessions: operations on one collection, one after the other. -/
namespace Solr.Service

inductive Operation (D : Type) where
  | select (query : Json)
  | selectGroups (query : Json)
  | selectFacets (query : Json)
  | update (updates : List (Update D))
  | remove (deletion : Deletion)

/-- An operation, what its caller says of the request, and what becomes of that. -/
structure Step (D : Type) where
  operation : Operation D
  options : Http.Options
  delivery : Http.Delivery

variable {D : Type} [Document D]

/-- The answer is written back as JSON; a change has none. -/
def Step.perform (c : Collection) (s : Step D) : Outcome (Option Json) :=
  match s.operation with
  | .select query =>
    (c.select query s.options s.delivery).map fun (a : Answer.Selection D) => some a.encode
  | .selectGroups query =>
    (c.selectGroups query s.options s.delivery).map fun (a : Answer.Grouped D) => some a.encode
  | .selectFacets query =>
    (c.selectFacets query s.options s.delivery).map
      fun (a : Answer.FacetedGroups D) => some a.encode
  | .update updates => (c.update updates s.options s.delivery).map fun _ => none
  | .remove deletion => (c.remove deletion s.options s.delivery).map fun _ => none

def session (c : Collection) (steps : List (Step D)) : List (Outcome (Option Json)) :=
  steps.map (Step.perform c)

/-- The requests that reach the service. -/
def Step.seen (c : Collection) (s : Step D) : List Http.Request :=
  if s.delivery.arrives then (s.perform c).request.toList else []

end Solr.Service
