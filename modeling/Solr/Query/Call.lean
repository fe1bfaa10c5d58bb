import Solr.Query.Description

/-! The calls that build up a description. A call sets one thing or adds to one list;
those that assign may also take a thing away. -/
namespace Solr.Query

inductive Call where
  | query (text : String)
  | operator (operator : Operator)
  | filter (clause : String)
  | field (field : Field)
  | sort (key : SortKey)
  | start (count : Nat)
  | rows (count : Nat)
  | indent (flag : Bool)
  | writer (writer : Writer)
  /-- Documents within a distance of a point. -/
  | spatial (field : Field) (point : Point) (distance : Double)
  | searchField (field : SearchedField)
  | minimumMatch (text : String)
  | tie (share : Double)
  | boostQuery (text : String)
  | boostFunction (text : String)
  | fallback (text : String)
  /-- Groups by one field, and nothing else of what was said of groups. -/
  | groupBy (field : Field)
  | groupAlsoBy (field : Field)
  | countGroups (flag : Bool)
  | groupSort (key : SortKey)
  | groupLimit (limit : Int)
  | groupOffset (offset : Nat)
  | truncate (flag : Bool)
  | assignSpatial (flag : Option Bool)
  | assignPoint (point : Option Point)
  | assignDistance (distance : Option Double)
  | assignShield (field : Option Field)
  | facet (name : String) (facet : Facet)

namespace Search

def apply (s : Search) : Call → Search
  | .query text => { s with query := some text }
  | .operator op => { s with operator := some op }
  | .filter clause => { s with filters := s.filters ++ [clause] }
  | .field f => { s with fields := s.fields ++ [f] }
  | .sort key => { s with sorts := s.sorts ++ [key] }
  | .start n => { s with start := some n }
  | .rows n => { s with rows := some n }
  | .indent flag => { s with indent := some flag }
  | .writer w => { s with writer := some w }
  | .spatial f p x =>
    { s with spatial := some true, shield := some f, point := some p, distance := some x }
  | .assignSpatial flag => { s with spatial := flag }
  | .assignPoint p => { s with point := p }
  | .assignDistance x => { s with distance := x }
  | .assignShield f => { s with shield := f }
  | _ => s

end Search

namespace Ranking

def apply (r : Ranking) : Call → Ranking
  | .searchField f => { r with fields := r.fields ++ [f] }
  | .minimumMatch text => { r with minimumMatch := some text }
  | .tie x => { r with tie := some x }
  | .boostQuery text => { r with boostQuery := some text }
  | .boostFunction text => { r with boostFunction := some text }
  | .fallback text => { r with fallback := some text }
  | _ => r

end Ranking

namespace Grouping

def apply (g : Grouping) : Call → Grouping
  | .groupBy f => .byField f
  | .groupAlsoBy f => { g with fields := g.fields ++ [f] }
  | .countGroups flag => { g with countGroups := some flag }
  | .groupSort key => { g with sort := some key }
  | .groupLimit n => { g with limit := some n }
  | .groupOffset n => { g with offset := some n }
  | .truncate flag => { g with truncate := some flag }
  | _ => g

end Grouping

namespace Description

def apply (d : Description) (c : Call) : Description where
  search := d.search.apply c
  ranking := d.ranking.apply c
  grouping := d.grouping.apply c
  facets :=
    match c with
    | .facet name f => d.facets.insert name f
    | _ => d.facets

def build (calls : List Call) : Description :=
  calls.foldl apply .empty

end Description
end Solr.Query
