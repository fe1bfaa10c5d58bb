import Solr.Proofs.Http.Target
import Solr.Proofs.Query.Compile
import Solr.Proofs.Query.Facet
import Solr.Service.Collection

/-! What a query asks for, as the service receives it. -/
namespace Solr.Service.Collection

open Query (Description Facet)
open Http (received)

variable {α D : Type}

/-- A request is issued, whatever comes of it. -/
theorem send_request (c : Collection) (decode : Json.Decoder α) (r : Http.Request)
    (delivery : Http.Delivery) : (c.send decode r delivery).request = some r := by
  unfold send
  dsimp only
  split <;> rfl

theorem ask_request (c : Collection) (decode : Json.Decoder α) {query : Json}
    {parameters : Parameters} (flat : Parameters.flatten query = .ok parameters)
    (o : Http.Options) (delivery : Http.Delivery) :
    (c.ask decode query o delivery).request = some (c.queryRequest parameters o) := by
  rw [ask, flat]
  exact send_request c decode _ delivery

theorem change_request (c : Collection) (body : String) (o : Http.Options)
    (delivery : Http.Delivery) :
    (c.change body o delivery).request = some (c.changeRequest body o) := by
  rw [← c.send_request Answer.Acknowledgement.decode (c.changeRequest body o) delivery]
  unfold change
  dsimp only
  split <;> rfl

/-- A request of a collection as it is received. It has a target if the base URL has one; the
pairs that its URL has of its own go first, and there are none without a question mark. -/
structure Reaches (c : Collection) (r : Http.Request) : Prop where
  sent : (Url.parse? c.settings.baseUrl.toList).isSome → r.target?.isSome
  pairs : ∀ target, r.target? = some target → received target = r.ownPairs ++ r.parameters
  own : '?' ∉ c.settings.baseUrl.toList → '?' ∉ c.name.toList → r.ownPairs = []

theorem question_notMem_url {c : Collection} {handler : String}
    (base : '?' ∉ c.settings.baseUrl.toList) (name : '?' ∉ c.name.toList)
    (noMark : '?' ∉ handler.toList) : '?' ∉ (c.url handler).toList := by
  simp [url, base, name, noMark]

theorem reaches (c : Collection) {handler : String} (noMark : '?' ∉ handler.toList)
    {r : Http.Request} (url : r.url = c.url handler) : c.Reaches r where
  sent := by
    intro valid
    have parsed := Url.isSome_parse?_append valid ("/" ++ c.name ++ "/" ++ handler).toList
    rw [Http.Request.target?, Option.isSome_map, url]
    simpa [Collection.url] using parsed
  pairs _ sent := Http.received_target sent
  own base name := Http.ownPairs_eq_nil (url ▸ question_notMem_url base name noMark)

theorem parameters_queryRequest (c : Collection) (parameters : Parameters) (o : Http.Options) :
    (c.queryRequest parameters o).parameters = parameters :=
  rfl

/-- Options have no part in where a query goes. -/
theorem reaches_queryRequest (c : Collection) (parameters : Parameters) (o : Http.Options) :
    c.Reaches (c.queryRequest parameters o) :=
  c.reaches (by decide) rfl

/-- The tree of a description is the text of one parameter. -/
theorem filter_facets (d : Description) :
    (Parameters.pairs (Entries.ofList (d.members .faceted))).filter
      (fun p => p.1 = "json.facet") = [("json.facet", Facet.treeText d.facets)] := by
  rw [Description.filter_parameters d .faceted (j := .string (Facet.treeText d.facets))]
  · rfl
  · simp [Description.members, Query.facetMembers]

/-- There is one parameter for the facets of a description, and from its text they are
read back. The service receives the same text, behind what base URL and name say of facets; that
is nothing where these hold no question mark. -/
theorem facets_received [Document D] (c : Collection) (d : Description) (o : Http.Options)
    (delivery : Http.Delivery) :
    ∃ parameters text r,
      d.parameters .faceted = .ok parameters ∧
      parameters.filter (fun p => p.1 = "json.facet") = [("json.facet", text)] ∧
      Facet.readText? text = some (Facet.writtenEntries d.facets) ∧
      (c.selectFacets (D := D) (d.compile .faceted) o delivery).request = some r ∧
      c.Reaches r ∧ ∀ target, r.target? = some target →
        (received target).filter (fun p => p.1 = "json.facet") =
          r.ownPairs.filter (fun p => p.1 = "json.facet") ++ [("json.facet", text)] ∧
        ('?' ∉ c.settings.baseUrl.toList → '?' ∉ c.name.toList →
          (received target).filter (fun p => p.1 = "json.facet") = [("json.facet", text)]) := by
  have flat := d.parameters_eq .faceted
  have reaches := c.reaches_queryRequest (Parameters.pairs (Entries.ofList (d.members .faceted))) o
  refine ⟨_, Facet.treeText d.facets, _, flat, filter_facets d,
    Facet.readText?_treeText d.facets, ask_request c _ flat o delivery, reaches, ?_⟩
  intro target sent
  rw [reaches.pairs target sent, List.filter_append, parameters_queryRequest, filter_facets d]
  refine ⟨rfl, fun base name => ?_⟩
  rw [reaches.own base name, List.filter_nil, List.nil_append]

end Solr.Service.Collection
