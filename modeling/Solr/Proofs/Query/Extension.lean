import Solr.Proofs.Query.Compile

/-! What a kind of query adds to the parameters of the kind before. Nothing is taken away,
nothing is put in another order, and one value is changed: a grouped query says that it
is one. -/
namespace Solr.Query

open Parameters (pairs)

theorem filter_members_self {members : List (String × Json)} {keep : String → Bool}
    (kept : ∀ key ∈ Entries.keys members, keep key = true) :
    members.filter (fun p => keep p.1) = members := by
  apply List.filter_eq_self.mpr
  intro p member
  exact kept p.1 (List.mem_map_of_mem member)

theorem filter_members_nil {members : List (String × Json)} {keep : String → Bool}
    (dropped : ∀ key ∈ Entries.keys members, keep key = false) :
    members.filter (fun p => keep p.1) = [] := by
  apply List.filter_eq_nil_iff.mpr
  intro p member
  rw [dropped p.1 (List.mem_map_of_mem member)]
  exact Bool.false_ne_true

/-- Where the keys of the first members are kept and those of the others are left out, the
parameters of the first remain. -/
theorem filter_extended (first others : List (String × Json)) (keep : String → Bool)
    (kept : ∀ key ∈ Entries.keys first, keep key = true)
    (dropped : ∀ key ∈ Entries.keys others, keep key = false) :
    (pairs (Entries.ofList (first ++ others))).filter (fun p => keep p.1) =
      pairs (Entries.ofList first) := by
  rw [Parameters.filter_pairs, Entries.filter_ofList, List.filter_append,
    filter_members_self kept, filter_members_nil dropped, List.append_nil]

/-- The value of one member, and no other, changed. -/
def replaced (key : String) (value : Json) (p : String × Json) : String × Json :=
  (p.1, if p.1 = key then value else p.2)

theorem map_replaced_self {key : String} {members : List (String × Json)}
    (apart : key ∉ Entries.keys members) (value : Json) :
    members.map (replaced key value) = members := by
  refine (List.map_congr_left fun p member => ?_).trans (List.map_id members)
  have other : p.1 ≠ key := fun same => apart (same ▸ List.mem_map_of_mem member)
  rw [replaced, if_neg other, id]

/-- A search says in one member whether it is grouped. -/
theorem Search.members_grouped (s : Search) :
    s.members true = (s.members false).map (replaced "group" (.boolean true)) :=
  rfl

/-- The members before and after that one are the same for both. -/
theorem Search.entries_around_group (s : Search) :
    ∃ before after, ∀ grouped, Entries.ofList (s.members grouped) =
      before ++ ("group", .boolean grouped) :: after := by
  have once : (Entries.keys (s.members false)).Nodup := Kind.nodup_keys .standard
  have member : ("group", .boolean false) ∈ Entries.ofList (s.members false) := by
    apply (Entries.mem_ofList_iff once).mpr
    simp [Search.members]
  obtain ⟨before, after, split⟩ := List.append_of_mem member
  have apart : "group" ∉ Entries.keys (before ++ after) := by
    have sorted := Entries.ofList_sorted (s.members false)
    have nodup := sorted.nodup_keys
    rw [split, Entries.keys, List.map_append, List.map_cons, List.nodup_middle] at nodup
    rw [Entries.keys, List.map_append]
    exact (List.nodup_cons.mp nodup).1
  rw [Entries.keys, List.map_append, List.mem_append, not_or] at apart
  refine ⟨before, after, fun grouped => ?_⟩
  cases grouped with
  | false => exact split
  | true =>
    have changed := Entries.ofList_map (fun key j => if key = "group" then Json.boolean true else j)
      (s.members false)
    rw [split, List.map_append, List.map_cons] at changed
    rw [members_grouped]
    refine changed.trans ?_
    exact congrArg₂ _ (map_replaced_self apart.1 _) (congrArg _ (map_replaced_self apart.2 _))

namespace Description

/-- Each kind of query has the parameters of the kind before and its own: without these, the
others are left as they were. -/
theorem parameters_extended (d : Description) :
    ∃ standard ranked grouped faceted before after,
      d.parameters .standard = .ok standard ∧ d.parameters .ranked = .ok ranked ∧
      d.parameters .grouped = .ok grouped ∧ d.parameters .faceted = .ok faceted ∧
      ranked.filter (fun p => p.1 ∉ ["qf", "mm", "tie", "bq", "bf", "q.alt", "defType"]) =
        standard ∧
      standard = before ++ ("group", "false") :: after ∧
      grouped.filter (fun p => !"group.".toList.isPrefixOf p.1.toList) =
        before ++ ("group", "true") :: after ∧
      faceted.filter (fun p => p.1 ∉ ["group.truncate", "json.facet"]) = grouped := by
  obtain ⟨before, after, around⟩ := d.search.entries_around_group
  have pairsAround (grouped : Bool) : pairs (Entries.ofList (d.search.members grouped)) =
      pairs before ++ ("group", if grouped then "true" else "false") :: pairs after := by
    rw [around grouped, pairs, List.flatMap_append, List.flatMap_cons]
    rfl
  refine ⟨_, _, _, _, pairs before, pairs after, d.parameters_eq .standard,
    d.parameters_eq .ranked, d.parameters_eq .grouped, d.parameters_eq .faceted, ?_,
    pairsAround false, ?_, ?_⟩
  · have kept : ∀ key ∈ Search.keys, decide (key ∉ Ranking.keys) = true := by decide
    have dropped : ∀ key ∈ Ranking.keys, decide (key ∉ Ranking.keys) = false := by decide
    exact filter_extended (d.search.members false) d.ranking.members
      (fun key => key ∉ Ranking.keys) kept dropped
  · have kept : ∀ key ∈ Search.keys, (!"group.".toList.isPrefixOf key.toList) = true := by decide
    have dropped : ∀ key ∈ Grouping.keys, (!"group.".toList.isPrefixOf key.toList) = false := by
      decide
    refine Eq.trans ?_ (pairsAround true)
    exact filter_extended (d.search.members true) d.grouping.members
      (fun key => !"group.".toList.isPrefixOf key.toList) kept dropped
  · have kept : ∀ key ∈ Search.keys ++ Grouping.keys, decide (key ∉ facetKeys) = true := by decide
    have dropped : ∀ key ∈ facetKeys, decide (key ∉ facetKeys) = false := by decide
    exact filter_extended (d.search.members true ++ d.grouping.members)
      (facetMembers d.grouping.truncate d.facets) (fun key => key ∉ facetKeys) kept dropped

end Description
end Solr.Query
