import Solr.Proofs.Document.Layout
import Solr.Proofs.Service.Asking

/-! The body of an update, read as the service reads it: an object with the single member
`add` wraps a document, anything else is a bare document. -/
namespace Solr

namespace Update

open Layout (columns)

/-- One element of a body, as it is found. -/
inductive Reading where
  | bare (document : Twin)
  | wrapped (document : Twin) (boost : Option (Option Double))

namespace Reading

/-- What stands under `add`: a document, and perhaps a boost. -/
def ofCommand? (command : Twin) : Option Reading := do
  let members ← command.members?
  let document ← Entries.get? members "doc"
  match Entries.get? members "boost" with
  | some boost => return .wrapped document (some (← FieldType.read? .double boost))
  | none => return .wrapped document none

def ofElement? (t : Twin) : Option Reading :=
  match t.members? with
  | some [member] => if member.1 = "add" then ofCommand? member.2 else some (.bare t)
  | _ => some (.bare t)

def ofBody? (text : String) : Option (List Reading) := do
  (← (← Twin.read? text).items?).mapM ofElement?

end Reading

section Elements

variable {D : Type} [Document D]

def content : Update D → D
  | .document d | .add d _ => d

/-- An element of a body carries an update: the JSON of its document, bare or under a command
with the boost. -/
inductive Carried : Update D → Twin → Prop
  | document (d : D) : Carried (.document d) (.ofJson (Document.encode d))
  | add {d : D} {boost : Option Double} {t : Twin}
    (command : Reading.ofElement? t =
      some (.wrapped (.ofJson (Document.encode d)) (boost.map (FieldType.written .double)))) :
    Carried (.add d boost) t

theorem ofElement?_add (d : D) (boost : Option Double) :
    Reading.ofElement? (.ofJson (encode (.add d boost))) =
      some (.wrapped (.ofJson (Document.encode d)) (boost.map (FieldType.written .double))) := by
  have weight (x : Double) := FieldType.read?_encode .double x
  simp only [FieldType.encode] at weight
  cases boost with
  | none =>
    simp [encode, Reading.ofElement?, Reading.ofCommand?, Twin.members?_ofJson, Json.optional,
      Entries.get?]
  | some boost =>
    simp [encode, Reading.ofElement?, Reading.ofCommand?, Twin.members?_ofJson, Json.optional,
      Entries.get?_cons, weight]

theorem carried_encode (u : Update D) : Carried u (.ofJson u.encode) := by
  cases u with
  | document d => exact .document d
  | add d boost => exact .add (ofElement?_add d boost)

theorem finite_encode {u : Update D} (finite : (Document.encode u.content).Finite) :
    u.encode.Finite := by
  cases u with
  | document d => exact finite
  | add d boost =>
    refine ⟨⟨finite, ?_⟩, trivial⟩
    cases boost with
    | none => trivial
    | some boost => exact ⟨Json.finite_ofDouble boost, trivial⟩

/-- The elements of a body are those of its updates, in order. -/
theorem items?_body {updates : List (Update D)}
    (finite : ∀ u ∈ updates, (Document.encode u.content).Finite) :
    (Twin.read? (body updates)).bind Twin.items? =
      some (updates.map fun u => Twin.ofJson u.encode) := by
  have whole : (encodeAll updates).Finite := by
    refine Json.everyItem_iff.mpr fun j member => ?_
    obtain ⟨u, inside, rfl⟩ := List.mem_map.mp member
    exact finite_encode (finite u inside)
  rw [body, Twin.read?_compact whole, Option.bind_some, encodeAll, Twin.items?_ofJson,
    List.map_map]
  rfl

end Elements

variable {D : Type} [Document D] [Layout D]

/-- What is found of an update. -/
def reading : Update D → Reading
  | .document d => .bare (.ofJson (Document.encode d))
  | .add d boost =>
    .wrapped (.ofJson (Document.encode d)) (boost.map (FieldType.written .double))

/-- The update is found again: how it was wrapped, its boost, and all that its document holds. -/
inductive Recovered : Update D → Reading → Prop
  | document {d : D} {t : Twin} (fields : ∀ c ∈ columns, c.read? t = some (c.content d).written) :
    Recovered (.document d) (.bare t)
  | add {d : D} {boost : Option Double} {t : Twin}
    (fields : ∀ c ∈ columns, c.read? t = some (c.content d).written) :
    Recovered (.add d boost) (.wrapped t (boost.map (FieldType.written .double)))

theorem recovered_reading (u : Update D) : Recovered u u.reading := by
  cases u with
  | document d => exact .document fun c inside => Layout.read?_encode inside d
  | add d boost => exact .add fun c inside => Layout.read?_encode inside d

/-- The members of a document are named after its fields. -/
theorem ofElement?_document (d : D) :
    Reading.ofElement? (.ofJson (Document.encode d)) =
      some (.bare (.ofJson (Document.encode d))) := by
  unfold Reading.ofElement?
  split
  · rename_i member members
    rw [Layout.encode_eq, Twin.members?_ofJson] at members
    have inside : member ∈ (columns.flatMap (·.member d)).map fun p => (p.1, Twin.ofJson p.2) := by
      rw [Option.some.inj members]
      exact List.mem_singleton_self member
    obtain ⟨p, written, rfl⟩ := List.mem_map.mp inside
    obtain ⟨c, column, written⟩ := List.mem_flatMap.mp written
    have name : p.1 ≠ "add" := by
      intro same
      apply Layout.noCommand (D := D)
      rw [← same, Column.name_of_mem_member written]
      exact List.mem_map_of_mem column
    exact if_neg name
  · rfl

theorem ofElement?_encode (u : Update D) :
    Reading.ofElement? (.ofJson u.encode) = some u.reading := by
  cases u with
  | document d => exact ofElement?_document d
  | add d boost => exact ofElement?_add d boost

theorem ofBody?_body (updates : List (Update D)) :
    Reading.ofBody? (body updates) = some (updates.map reading) := by
  have each : (Reading.ofElement? ∘ fun u : Update D => Twin.ofJson u.encode) =
      fun u => some u.reading := funext ofElement?_encode
  have items := items?_body fun u (_ : u ∈ updates) => Layout.finite_encode u.content
  rw [Reading.ofBody?]
  simp only [Option.bind_eq_bind, ← Option.bind_assoc, items, Option.bind_some]
  rw [List.mapM_map, each]
  exact List.mapM_pure

/-- All numbers of the update are finite. -/
def Exact : Update D → Prop
  | .document d => ∀ c ∈ columns, (c.content d).Exact
  | .add d boost => (∀ c ∈ columns, (c.content d).Exact) ∧ ∀ x ∈ boost, x.isFinite

theorem document_eq_of_read {d e : D} (left : ∀ c ∈ columns, (c.content d).Exact)
    (right : ∀ c ∈ columns, (c.content e).Exact)
    (same : Twin.ofJson (Document.encode d) = .ofJson (Document.encode e)) : d = e := by
  refine Layout.ext d e fun c inside => (left c inside).eq_of_written (right c inside) ?_
  apply Option.some.inj
  rw [← Layout.read?_encode inside, ← Layout.read?_encode inside, same]

theorem eq_of_reading {u w : Update D} (left : u.Exact) (right : w.Exact)
    (same : u.reading = w.reading) : u = w := by
  cases u with
  | document d =>
    cases w with
    | document e => rw [document_eq_of_read left right (Reading.bare.inj same)]
    | add e weight => cases same
  | add d boost =>
    cases w with
    | document e => cases same
    | add e weight =>
      obtain ⟨documents, boosts⟩ := Reading.wrapped.inj same
      have weights : boost.map some = weight.map some := by
        rw [← FieldType.map_written (k := .double) left.2, boosts,
          FieldType.map_written (k := .double) right.2]
      rw [document_eq_of_read left.1 right.1 documents,
        Option.map_injective (Option.some_injective _) weights]

theorem eq_of_readings {updates others : List (Update D)} (left : ∀ u ∈ updates, u.Exact)
    (right : ∀ u ∈ others, u.Exact) (same : updates.map reading = others.map reading) :
    updates = others := by
  induction updates generalizing others with
  | nil => exact (List.map_eq_nil_iff.mp same.symm).symm
  | cons u rest ih =>
    obtain ⟨w, remaining, rfl, first, later⟩ := List.map_eq_cons_iff.mp same.symm
    obtain ⟨leftFirst, leftRest⟩ := List.forall_mem_cons.mp left
    obtain ⟨rightFirst, rightRest⟩ := List.forall_mem_cons.mp right
    rw [eq_of_reading leftFirst rightFirst first.symm, ih leftRest rightRest later.symm]

end Update

open Update (Recovered)

/-- The body of an update has one element for each document or command, in their order, and
what they hold is recovered from it; numbers that are not finite are found as null, and where
there are none, no other update has this body. -/
theorem Service.Collection.updates_recovered {D : Type} [Document D] [Layout D]
    (c : Collection) (updates : List (Update D)) (o : Http.Options)
    (delivery : Http.Delivery) :
    ∃ r text readings,
      (c.update updates o delivery).request = some r ∧ r.body = some text ∧
      Update.Reading.ofBody? text = some readings ∧
      List.Forall₂ Recovered updates readings ∧
      ∀ others : List (Update D), (∀ u ∈ updates, u.Exact) → (∀ u ∈ others, u.Exact) →
        ∀ p e q, (c.update others p e).request = some q → q.body = some text →
          others = updates := by
  have sent (updates : List (Update D)) (o : Http.Options) (delivery : Http.Delivery) :
      (c.update updates o delivery).request = some (c.changeRequest (Update.body updates) o) :=
    c.change_request (Update.body updates) o delivery
  refine ⟨_, Update.body updates, _, sent updates o delivery, rfl, Update.ofBody?_body updates,
    ?_, ?_⟩
  · apply List.forall₂_map_right_iff.mpr
    apply List.forall₂_same.mpr
    intro u _
    exact Update.recovered_reading u
  · intro others exact otherwise p e q request body
    rw [sent] at request
    obtain rfl := Option.some.inj request
    have same : Update.body others = Update.body updates := Option.some.inj body
    have found : others.map Update.reading = updates.map Update.reading := by
      apply Option.some.inj
      rw [← Update.ofBody?_body, ← Update.ofBody?_body, same]
    exact Update.eq_of_readings otherwise exact found

end Solr
