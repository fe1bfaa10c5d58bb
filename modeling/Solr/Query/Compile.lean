import Solr.Parameters
import Solr.Query.Description

/-! Queries as the service takes them: the members of a JSON object in a fixed order,
and the parameters made of it. Each kind adds members to those of the kind before. -/
namespace Solr.Query

inductive Kind where
  | standard
  | ranked
  | grouped
  | faceted
  deriving DecidableEq

/-- The texts with the separator between them, unless there are none. -/
def joined (separator : String) (texts : List String) : Option String :=
  if texts = [] then none else some (separator.intercalate texts)

def ofText (s : Option String) : Json :=
  .ofOption .string s

def Search.members (grouped : Bool) (s : Search) : List (String × Json) :=
  [("q", .string (s.query.getD "*:*")),
    ("q.op", .string (s.operator.getD .or).name),
    ("fq", .ofStrings s.filters),
    ("start", .ofOption .ofNat s.start),
    ("rows", .ofOption .ofNat s.rows),
    ("sort", ofText (joined "," (s.sorts.map SortKey.text))),
    ("fl", ofText (joined "," (s.fields.map Field.name))),
    ("group", .boolean grouped),
    ("indent", .ofOption .boolean s.indent),
    ("wt", .string (s.writer.getD .json).name),
    ("spatial", .ofOption .boolean s.spatial),
    ("pt", ofText (s.point.map Point.text)),
    ("d", .ofOption .ofDouble s.distance),
    ("shield", ofText (s.shield.map Field.name))]

def Ranking.members (r : Ranking) : List (String × Json) :=
  [("qf", ofText (joined " " (r.fields.map SearchedField.text))),
    ("mm", ofText r.minimumMatch),
    ("tie", .ofOption .ofDouble r.tie),
    ("bq", ofText r.boostQuery),
    ("bf", ofText r.boostFunction),
    ("q.alt", ofText r.fallback),
    ("defType", .string "edismax")]

def Grouping.members (g : Grouping) : List (String × Json) :=
  [("group.format", .string "grouped"),
    ("group.field", .ofStrings (g.fields.map Field.name)),
    ("group.sort", ofText (g.sort.map SortKey.text)),
    ("group.ngroups", .ofOption .boolean g.countGroups),
    ("group.limit", .ofOption .ofInt g.limit),
    ("group.offset", .ofOption .ofNat g.offset)]

/-- The facet tree is sent as a text. -/
def facetMembers (truncate : Option Bool) (facets : Entries Facet) : List (String × Json) :=
  [("group.truncate", .ofOption .boolean truncate),
    ("json.facet", .string (Facet.treeText facets))]

namespace Description

def members (d : Description) : Kind → List (String × Json)
  | .standard => d.search.members false
  | .ranked => d.search.members false ++ d.ranking.members
  | .grouped => d.search.members true ++ d.grouping.members
  | .faceted =>
    d.search.members true ++ d.grouping.members ++ facetMembers d.grouping.truncate d.facets

def compile (d : Description) (kind : Kind) : Json :=
  .object (d.members kind)

def parameters (d : Description) (kind : Kind) : Except FlattenError Parameters :=
  Parameters.flatten (d.compile kind)

end Description
end Solr.Query
