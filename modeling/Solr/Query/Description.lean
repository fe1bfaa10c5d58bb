import Solr.Query.Facet

/-! What a query asks for. A description has a part for each kind of query; a kind reads
the parts that it knows. -/
namespace Solr.Query

/-- How the words of a query are joined where it does not say so. -/
inductive Operator where
  | and
  | or
  deriving DecidableEq

inductive Writer where
  | json
  | xml
  deriving DecidableEq

inductive Order where
  | ascending
  | descending
  deriving DecidableEq

/-- The names of the alternatives, in the order in which messages list them. -/
def Operator.names : List (String × Operator) :=
  [("AND", .and), ("OR", .or)]

def Writer.names : List (String × Writer) :=
  [("json", .json), ("xml", .xml)]

def Order.names : List (String × Order) :=
  [("asc", .ascending), ("desc", .descending)]

def Operator.name : Operator → String
  | .and => "AND"
  | .or => "OR"

def Writer.name : Writer → String
  | .json => "json"
  | .xml => "xml"

def Order.name : Order → String
  | .ascending => "asc"
  | .descending => "desc"

structure SortKey where
  field : Field
  order : Order
  deriving DecidableEq

def SortKey.text (s : SortKey) : String :=
  s.field.name ++ " " ++ s.order.name

/-- A field that is searched, and how much it counts. -/
structure SearchedField where
  field : Field
  weight : Option Double
  deriving DecidableEq

/-- A weight that is zero or no number is not written. -/
def SearchedField.text (f : SearchedField) : String :=
  match f.weight with
  | none => f.field.name
  | some w =>
    if w.isZero || w.isNaN then f.field.name
    else f.field.name ++ "^" ++ String.ofList w.plainText

structure Point where
  latitude : Double
  longitude : Double
  deriving DecidableEq

def Point.text (p : Point) : String :=
  String.ofList (p.latitude.plainText ++ ',' :: p.longitude.plainText)

/-- What any query asks for. `filters` all have to match. -/
structure Search where
  query : Option String
  operator : Option Operator
  filters : List String
  fields : List Field
  sorts : List SortKey
  start : Option Nat
  rows : Option Nat
  indent : Option Bool
  writer : Option Writer
  spatial : Option Bool
  point : Option Point
  distance : Option Double
  shield : Option Field
  deriving DecidableEq

def Search.empty : Search :=
  ⟨none, none, [], [], [], none, none, none, none, none, none, none, none⟩

/-- How documents are ranked. -/
structure Ranking where
  fields : List SearchedField
  minimumMatch : Option String
  tie : Option Double
  boostQuery : Option String
  boostFunction : Option String
  fallback : Option String
  deriving DecidableEq

def Ranking.empty : Ranking :=
  ⟨[], none, none, none, none, none⟩

/-- How documents are collected in groups. -/
structure Grouping where
  fields : List Field
  countGroups : Option Bool
  sort : Option SortKey
  limit : Option Int
  offset : Option Nat
  truncate : Option Bool
  deriving DecidableEq

def Grouping.empty : Grouping :=
  ⟨[], none, none, none, none, none⟩

def Grouping.byField (f : Field) : Grouping :=
  { Grouping.empty with fields := [f] }

structure Description where
  search : Search
  ranking : Ranking
  grouping : Grouping
  facets : Entries Facet

def Description.empty : Description :=
  ⟨.empty, .empty, .empty, []⟩

end Solr.Query
