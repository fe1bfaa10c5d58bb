import Solr.Text.Diagnostic

/-! Index fields, known by their names alone, and schemas, which declare them. -/
namespace Solr

structure Field where
  name : String
  deriving DecidableEq

namespace Field

def diagnostic (f : Field) : String :=
  "Field(" ++ Text.diagnostic f.name ++ ")"

/-- The form for a field that is named without the type of its values. -/
def untypedDiagnostic (f : Field) : String :=
  "FieldRef(" ++ Text.diagnostic f.name ++ ")"

end Field

/-- Field names in the order of declaration. -/
structure Schema where
  fields : List String
  deriving DecidableEq

/-- A name stands for a field only if it is declared, letter for letter. -/
def Schema.lookup? (schema : Schema) (name : String) : Option Field :=
  if name ∈ schema.fields then some ⟨name⟩ else none

end Solr
