import Solr.Field
import Solr.Json.Printer

/-! Facets asked for with a query: trees in which each facet may have facets of its own,
known by their names. -/
namespace Solr.Query

/-- The facets below one, if any are given, stand in name order. -/
inductive Facet where
  /-- One bucket for each value of a field. -/
  | terms (field : Field) (limit : Int) (sort : Option String) (overrequest : Option Int)
      (facets : Option (List (String × Facet)))
  /-- The documents that also match another query. -/
  | matching (query : String) (facets : Option (List (String × Facet)))
  /-- One bucket for each step from `first` to `last`. -/
  | range (field : Field) (first last gap : Double) (hardEnd other : String)
      (edges : Option String) (facets : Option (List (String × Facet)))
  /-- Counts on a grid over an area. -/
  | heatmap (field : Field) (area : String) (gridLevel : Nat)

namespace Facet

/-- A range facet with the usual treatment of its ends. -/
def ofRange (field : Field) (first last gap : Double) : Facet :=
  .range field first last gap "false" "none" none none

/-- Puts a facet below another, under a name; a heatmap has none below it. -/
def add (name : String) (f : Facet) : Facet → Facet
  | .terms field limit sort overrequest facets =>
    .terms field limit sort overrequest (some (Entries.insert name f (facets.getD [])))
  | .matching query facets => .matching query (some (Entries.insert name f (facets.getD [])))
  | .range field first last gap hardEnd other edges facets =>
    .range field first last gap hardEnd other edges
      (some (Entries.insert name f (facets.getD [])))
  | .heatmap field area gridLevel => .heatmap field area gridLevel

def ofField (f : Field) : Json :=
  .string f.name

mutual

def encode : Facet → Json
  | .terms field limit sort overrequest facets =>
    .object ([("type", .string "terms"), ("field", ofField field), ("limit", .ofInt limit)] ++
      Json.optional "sort" .string sort ++
      Json.optional "overrequest" .ofInt overrequest ++
      encodeBelow facets)
  | .matching query facets =>
    .object ([("type", .string "query"), ("q", .string query)] ++ encodeBelow facets)
  | .range field first last gap hardEnd other edges facets =>
    .object ([("type", .string "range"), ("field", ofField field), ("start", .ofDouble first),
      ("end", .ofDouble last), ("gap", .ofDouble gap), ("hardend", .string hardEnd),
      ("other", .string other)] ++
      Json.optional "include" .string edges ++
      encodeBelow facets)
  | .heatmap field area gridLevel =>
    .object [("type", .string "heatmap"), ("field", ofField field), ("geom", .string area),
      ("gridLevel", .ofNat gridLevel)]

def encodeBelow : Option (List (String × Facet)) → List (String × Json)
  | none => []
  | some facets => [("facet", .object (encodeEntries facets))]

def encodeEntries : List (String × Facet) → List (String × Json)
  | [] => []
  | (name, f) :: rest => (name, f.encode) :: encodeEntries rest

end

/-- The text of a whole tree. -/
def treeText (facets : Entries Facet) : String :=
  (Json.object (encodeEntries facets)).compact

end Facet
end Solr.Query
