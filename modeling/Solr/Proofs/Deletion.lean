import Solr.Proofs.Json.Values
import Solr.Update

/-! Deletions told apart by their bodies. A body with a text under `query` is read as a
deletion by query; this is what a field of that name is mistaken for when it holds a
text, and nothing else is mistaken. -/
namespace Solr

theorem Scalar.legible_json (v : Scalar) : Json.Legible .unbounded none v.json := by
  cases v with
  | text | date | instant => trivial
  | integer i => exact Json.legible_ofInt none i
  | single x => exact Json.legible_ofDouble none x.convert
  | double x => exact Json.legible_ofDouble none x

namespace Deletion

/-- What a body asks for. The value of a field is known as it stands in the body. -/
inductive Request where
  | matching (query : String)
  | holding (field : String) (value : Json)

namespace Request

def ofMember (name : String) : Json → Request
  | .string s => if name = "query" then .matching s else .holding name (.string s)
  | value => .holding name value

def read? : Json → Option Request
  | .object [("delete", .object [(name, value)])] => some (ofMember name value)
  | _ => none

/-- The request of a whole body. -/
def readBody? (body : String) : Option Request :=
  (Json.read? body).bind read?

/-- A member is taken for one of a field unless it is a text under `query`. -/
theorem ofMember_eq_holding_iff (name : String) (value : Json) :
    ofMember name value = .holding name value ↔
      ¬ (name = "query" ∧ ∃ s, value = .string s) := by
  cases value with
  | string s => by_cases same : name = "query" <;> simp [ofMember, same]
  | null | boolean | number | array | object => simp [ofMember]

end Request

theorem legible_encode (d : Deletion) : Json.Legible .unbounded none d.encode := by
  cases d with
  | matching query => simp [encode, Json.Legible, Json.LegibleMembers]
  | holding field value =>
    simp [encode, Json.Legible, Json.LegibleMembers, value.legible_json]

/-- A body tells the JSON that it was made of. -/
theorem read?_body (d : Deletion) : Json.read? d.body = some d.encode :=
  Json.read?_compact d.legible_encode

theorem body_injective {a b : Deletion} (same : a.body = b.body) : a.encode = b.encode := by
  have read := read?_body a
  rw [same, read?_body b] at read
  exact (Option.some.inj read).symm

theorem readBody?_matching (query : String) :
    Request.readBody? (matching query).body = some (.matching query) := by
  rw [Request.readBody?, read?_body]
  rfl

theorem readBody?_holding (field : Field) (value : Scalar) :
    Request.readBody? (holding field value).body =
      some (Request.ofMember field.name value.json) := by
  rw [Request.readBody?, read?_body]
  rfl

/-- What a deletion asks for, as it can be read back. -/
def asked : Deletion → Request
  | .matching query => .matching query
  | .holding field value => .ofMember field.name value.json

theorem readBody?_body (d : Deletion) : Request.readBody? d.body = some d.asked := by
  cases d with
  | matching query => exact readBody?_matching query
  | holding field value => exact readBody?_holding field value

/-- The query can always be recovered. The field and the value can be, and the body is
never that of a query, but for a text held by a field of the name `query`. -/
theorem recovered_but_for_query (field : Field) (value : Scalar) (query : String) :
    Request.readBody? (matching query).body = some (.matching query) ∧
    (Request.readBody? (holding field value).body = some (.holding field.name value.json) ↔
      ¬ (field.name = "query" ∧ ∃ s, value.json = .string s)) ∧
    ((holding field value).body = (matching query).body ↔
      field.name = "query" ∧ value.json = .string query) := by
  refine ⟨readBody?_matching query, ?_, fun same => ?_, ?_⟩
  · rw [readBody?_holding, Option.some.injEq]
    exact Request.ofMember_eq_holding_iff field.name value.json
  · simpa [encode] using body_injective same
  · rintro ⟨named, text⟩
    simp [body, encode, named, text]

/-- A deletion of the documents that hold one text, and a deletion of all documents. -/
theorem query_field_confused :
    (holding ⟨"query"⟩ (.text "*:*")).body = (matching "*:*").body :=
  rfl

end Deletion
end Solr
