import Solr.Proofs.Query.Calls

/-! Calls are local: each has keys of its own, and it changes what stands under them and
nothing else. A call that adds to a list adds at its end. -/
namespace Solr.Query

open Parameters (pairs texts)

namespace Call

/-- The keys that a call says something of. -/
def owned : Call → List String
  | .query _ => ["q"]
  | .operator _ => ["q.op"]
  | .filter _ => ["fq"]
  | .field _ => ["fl"]
  | .sort _ => ["sort"]
  | .start _ => ["start"]
  | .rows _ => ["rows"]
  | .indent _ => ["indent"]
  | .writer _ => ["wt"]
  | .spatial .. => ["spatial", "pt", "d", "shield"]
  | .searchField _ => ["qf"]
  | .minimumMatch _ => ["mm"]
  | .tie _ => ["tie"]
  | .boostQuery _ => ["bq"]
  | .boostFunction _ => ["bf"]
  | .fallback _ => ["q.alt"]
  | .groupBy _ =>
    ["group.field", "group.sort", "group.ngroups", "group.limit", "group.offset",
      "group.truncate"]
  | .groupAlsoBy _ => ["group.field"]
  | .countGroups _ => ["group.ngroups"]
  | .groupSort _ => ["group.sort"]
  | .groupLimit _ => ["group.limit"]
  | .groupOffset _ => ["group.offset"]
  | .truncate _ => ["group.truncate"]
  | .assignSpatial _ => ["spatial"]
  | .assignPoint _ => ["pt"]
  | .assignDistance _ => ["d"]
  | .assignShield _ => ["shield"]
  | .facet .. => ["json.facet"]

end Call

/-- A list of texts with one more. -/
def appended (text : String) (those : List String) : List String :=
  those ++ [text]

/-- A list that is sent as one text, with one more item. -/
def lengthened (separator item : String) : List String → List String
  | [] => [item]
  | text :: _ => [text ++ separator ++ item]

namespace Call

/-- What a call makes of the texts under each of its keys. A tree of facets is sent as a whole,
so that it is made from the facets there are. -/
def edits (facets : Entries Facet) : Call → List (String × (List String → List String))
  | .query text => [("q", fun _ => [text])]
  | .operator op => [("q.op", fun _ => [op.name])]
  | .filter clause => [("fq", appended clause)]
  | .field f => [("fl", lengthened "," f.name)]
  | .sort key => [("sort", lengthened "," key.text)]
  | .start n => [("start", fun _ => texts (.ofNat n))]
  | .rows n => [("rows", fun _ => texts (.ofNat n))]
  | .indent flag => [("indent", fun _ => texts (.boolean flag))]
  | .writer w => [("wt", fun _ => [w.name])]
  | .spatial f p x =>
    [("spatial", fun _ => texts (.boolean true)), ("pt", fun _ => [p.text]),
      ("d", fun _ => texts (.ofDouble x)), ("shield", fun _ => [f.name])]
  | .searchField f => [("qf", lengthened " " f.text)]
  | .minimumMatch text => [("mm", fun _ => [text])]
  | .tie x => [("tie", fun _ => texts (.ofDouble x))]
  | .boostQuery text => [("bq", fun _ => [text])]
  | .boostFunction text => [("bf", fun _ => [text])]
  | .fallback text => [("q.alt", fun _ => [text])]
  | .groupBy f =>
    [("group.field", fun _ => [f.name]), ("group.sort", fun _ => []),
      ("group.ngroups", fun _ => []), ("group.limit", fun _ => []),
      ("group.offset", fun _ => []), ("group.truncate", fun _ => [])]
  | .groupAlsoBy f => [("group.field", appended f.name)]
  | .countGroups flag => [("group.ngroups", fun _ => texts (.boolean flag))]
  | .groupSort key => [("group.sort", fun _ => [key.text])]
  | .groupLimit n => [("group.limit", fun _ => texts (.ofInt n))]
  | .groupOffset n => [("group.offset", fun _ => texts (.ofNat n))]
  | .truncate flag => [("group.truncate", fun _ => texts (.boolean flag))]
  | .assignSpatial flag => [("spatial", fun _ => texts (.ofOption .boolean flag))]
  | .assignPoint p => [("pt", fun _ => (p.map Point.text).toList)]
  | .assignDistance x => [("d", fun _ => texts (.ofOption .ofDouble x))]
  | .assignShield f => [("shield", fun _ => (f.map Field.name).toList)]
  | .facet name f => [("json.facet", fun _ => [Facet.treeText (facets.insert name f)])]

theorem keys_edits (facets : Entries Facet) (c : Call) :
    Entries.keys (c.edits facets) = c.owned := by
  cases c <;> rfl

/-- What a call makes of a member. -/
def edit (facets : Entries Facet) (c : Call) (p : String × Json) : String × Json :=
  (p.1, .ofStrings (((Entries.get? (c.edits facets) p.1).getD id) (texts p.2)))

end Call

/-- Members as lists of texts. -/
def listed (members : List (String × Json)) : List (String × Json) :=
  members.map fun p => (p.1, .ofStrings (texts p.2))

theorem toList_joined_concat (separator item : String) (items : List String) :
    (joined separator (items ++ [item])).toList =
      lengthened separator item (joined separator items).toList := by
  by_cases none : items = []
  · simp [none, joined, lengthened]
  · have longer := String.intercalate_append_of_ne_nil (s := separator) none
      (List.cons_ne_nil item [])
    simp [joined, lengthened, none, longer]

/-- What is written for a part of a description after a call, from what was written before. -/
theorem Search.listed_apply (grouped : Bool) (s : Search) (c : Call) (facets : Entries Facet) :
    listed ((s.apply c).members grouped) = (s.members grouped).map (c.edit facets) := by
  -- one case for each call; the keys that it does not own keep their texts
  cases c <;> simp [listed, Search.members, Search.apply, Call.edit, Call.edits, Entries.get?,
    toList_joined_concat, appended, Json.ofOption, texts_ofStrings]

theorem Ranking.listed_apply (r : Ranking) (c : Call) (facets : Entries Facet) :
    listed (r.apply c).members = r.members.map (c.edit facets) := by
  cases c <;> simp [listed, Ranking.members, Ranking.apply, Call.edit, Call.edits, Entries.get?,
    toList_joined_concat, Json.ofOption]

theorem Grouping.listed_apply (g : Grouping) (c : Call) (facets : Entries Facet) :
    listed (g.apply c).members = g.members.map (c.edit facets) := by
  cases c <;> simp [listed, Grouping.members, Grouping.apply, Grouping.byField, Grouping.empty,
    Call.edit, Call.edits, Entries.get?, appended, Json.ofOption, texts_ofStrings]

theorem listed_facetMembers_apply (d : Description) (c : Call) :
    listed (facetMembers (d.apply c).grouping.truncate (d.apply c).facets) =
      (facetMembers d.grouping.truncate d.facets).map (c.edit d.facets) := by
  cases c <;> simp [listed, facetMembers, Description.apply, Grouping.apply, Grouping.byField,
    Grouping.empty, Call.edit, Call.edits, Entries.get?, Json.ofOption]

theorem pairs_listed (members : List (String × Json)) : pairs (listed members) = pairs members := by
  simp only [pairs, listed, List.flatMap_map, texts_ofStrings]

theorem listed_ofList (members : List (String × Json)) :
    listed (Entries.ofList members) = Entries.ofList (listed members) :=
  (Entries.ofList_map (fun _ j => Json.ofStrings (texts j)) members).symm

namespace Call

theorem map_edit_ofList (facets : Entries Facet) (c : Call) (members : List (String × Json)) :
    (Entries.ofList members).map (c.edit facets) = Entries.ofList (members.map (c.edit facets)) :=
  (Entries.ofList_map
    (fun key j => Json.ofStrings (((Entries.get? (c.edits facets) key).getD id) (texts j)))
    members).symm

/-- A call sees of a member no more than its texts. -/
theorem map_edit_listed (facets : Entries Facet) (c : Call) (members : List (String × Json)) :
    (listed members).map (c.edit facets) = members.map (c.edit facets) := by
  simp [listed, edit, texts_ofStrings]

theorem edit_unowned (facets : Entries Facet) {c : Call} {p : String × Json}
    (free : p.1 ∉ c.owned) : c.edit facets p = (p.1, .ofStrings (texts p.2)) := by
  rw [← c.keys_edits facets] at free
  rw [edit, Entries.get?_eq_none free, Option.getD_none, id]

theorem map_edit_unowned (facets : Entries Facet) {c : Call} {members : List (String × Json)}
    (free : ∀ p ∈ members, p.1 ∉ c.owned) : members.map (c.edit facets) = listed members :=
  List.map_congr_left fun p member => edit_unowned facets (free p member)

/-- Only a facet is put in a tree. -/
theorem edit_facets {c : Call} (free : "json.facet" ∉ c.owned) (facets others : Entries Facet) :
    c.edit facets = c.edit others := by
  cases c with
  | facet => exact absurd (List.mem_singleton_self _) free
  | _ => rfl

/-- Calls that have no key in common edit in either order. -/
theorem edit_comm {a b : Call} (apart : ∀ key ∈ a.owned, key ∉ b.owned) (facets : Entries Facet)
    (p : String × Json) :
    b.edit facets (a.edit facets p) = a.edit facets (b.edit facets p) := by
  by_cases first : p.1 ∈ a.owned
  · have free : p.1 ∉ b.owned := apart p.1 first
    rw [edit_unowned facets (p := a.edit facets p) free, edit_unowned facets free]
    simp [edit, texts_ofStrings]
  · rw [edit_unowned facets (p := b.edit facets p) first, edit_unowned facets first]
    simp [edit, texts_ofStrings]

end Call

namespace Description

theorem listed_apply (d : Description) (c : Call) (kind : Kind) :
    listed ((d.apply c).members kind) = (d.members kind).map (c.edit d.facets) := by
  have search (grouped : Bool) := d.search.listed_apply grouped c d.facets
  have ranking := d.ranking.listed_apply c d.facets
  have grouping := d.grouping.listed_apply c d.facets
  cases kind with
  | standard => exact search false
  | ranked =>
    rw [members, members, listed, List.map_append, List.map_append]
    exact congrArg₂ _ (search false) ranking
  | grouped =>
    rw [members, members, listed, List.map_append, List.map_append]
    exact congrArg₂ _ (search true) grouping
  | faceted =>
    rw [members, members, listed, List.map_append, List.map_append, List.map_append,
      List.map_append]
    exact congrArg₂ _ (congrArg₂ _ (search true) grouping) (listed_facetMembers_apply d c)

theorem facets_apply (d : Description) {c : Call} (free : "json.facet" ∉ c.owned) :
    (d.apply c).facets = d.facets := by
  cases c with
  | facet => exact absurd (List.mem_singleton_self _) free
  | _ => rfl

theorem facets_apply_congr {d e : Description} (same : d.facets = e.facets) (c : Call) :
    (d.apply c).facets = (e.apply c).facets := by
  cases c with
  | facet name f => exact congrArg (Entries.insert name f) same
  | _ => exact same

/-- The parameters after a call are those before, each member edited in its place. -/
theorem pairs_apply (d : Description) (c : Call) (kind : Kind) :
    pairs (Entries.ofList ((d.apply c).members kind)) =
      pairs ((Entries.ofList (d.members kind)).map (c.edit d.facets)) := by
  rw [← pairs_listed, listed_ofList, listed_apply, Call.map_edit_ofList]

end Description

/-- The texts of one key changed where they stand: after those of the lesser keys, and before
those of the greater. -/
def Replaced (key : String) (old new : List String) (before after : Parameters) : Prop :=
  ∃ earlier later : Parameters,
    before = earlier ++ old.map (key, ·) ++ later ∧
    after = earlier ++ new.map (key, ·) ++ later ∧
    (∀ p ∈ earlier, Text.Before p.1 key) ∧ ∀ p ∈ later, Text.Before key p.1

/-- One pair more, right after those of its key. -/
def Appended (key text : String) (before after : Parameters) : Prop :=
  ∃ texts, Replaced key texts (texts ++ [text]) before after

/-- The one text of a key with an item more after a separator, or the item alone if there was
no text. -/
def Lengthened (key separator item : String) (before after : Parameters) : Prop :=
  Replaced key [] [item] before after ∨
    ∃ text, Replaced key [text] [text ++ separator ++ item] before after

/-- What a call that adds to a list does to the parameters of a kind that reads the list. -/
def Grown (kind : Kind) (before after : Parameters) : Call → Prop
  | .filter clause => Appended "fq" clause before after
  | .groupAlsoBy f => "group.field" ∈ kind.keys → Appended "group.field" f.name before after
  | .field f => Lengthened "fl" "," f.name before after
  | .sort key => Lengthened "sort" "," key.text before after
  | .searchField f => "qf" ∈ kind.keys → Lengthened "qf" " " f.text before after
  | _ => True

/-- What a call does to the parameters of a kind. -/
structure Local (c : Call) (kind : Kind) (before after : Parameters) : Prop where
  others : after.filter (fun p => p.1 ∉ c.owned) = before.filter (fun p => p.1 ∉ c.owned)
  unread : (∀ key ∈ c.owned, key ∉ kind.keys) → after = before
  grown : Grown kind before after c

theorem mem_pairs_key {entries : List (String × Json)} {p : String × String}
    (inside : p ∈ pairs entries) : ∃ q ∈ entries, q.1 = p.1 := by
  obtain ⟨q, member, ofMember⟩ := List.mem_flatMap.mp inside
  obtain ⟨s, -, rfl⟩ := List.mem_map.mp ofMember
  exact ⟨q, member, rfl⟩

namespace Description

theorem mem_keys_entries (d : Description) (kind : Kind) {p : String × Json}
    (member : p ∈ Entries.ofList (d.members kind)) : p.1 ∈ kind.keys := by
  rw [← d.keys_members kind]
  exact List.mem_map_of_mem ((d.mem_entries_iff kind).mp member)

theorem others_apply (d : Description) (c : Call) (kind : Kind) :
    (pairs (Entries.ofList ((d.apply c).members kind))).filter (fun p => p.1 ∉ c.owned) =
      (pairs (Entries.ofList (d.members kind))).filter (fun p => p.1 ∉ c.owned) := by
  have free : ∀ p ∈ (Entries.ofList (d.members kind)).filter (fun p => p.1 ∉ c.owned),
      p.1 ∉ c.owned := fun p member => of_decide_eq_true (List.mem_filter.mp member).2
  have kept : ((Entries.ofList (d.members kind)).map (c.edit d.facets)).filter
        (fun p => p.1 ∉ c.owned) =
      ((Entries.ofList (d.members kind)).filter (fun p => p.1 ∉ c.owned)).map
        (c.edit d.facets) := List.filter_map
  rw [pairs_apply, Parameters.filter_pairs fun key => key ∉ c.owned,
    Parameters.filter_pairs fun key => key ∉ c.owned, kept, Call.map_edit_unowned _ free,
    pairs_listed]

theorem unread_apply (d : Description) (c : Call) (kind : Kind)
    (unread : ∀ key ∈ c.owned, key ∉ kind.keys) :
    pairs (Entries.ofList ((d.apply c).members kind)) =
      pairs (Entries.ofList (d.members kind)) := by
  have free : ∀ p ∈ Entries.ofList (d.members kind), p.1 ∉ c.owned :=
    fun p member own => unread p.1 own (d.mem_keys_entries kind member)
  rw [pairs_apply, Call.map_edit_unowned _ free, pairs_listed]

/-- A call with one key changes the texts of this key where they stand. -/
theorem replaced_apply (d : Description) {c : Call} (kind : Kind) {key : String}
    (only : c.owned = [key]) (read : key ∈ kind.keys) :
    ∃ j, (key, j) ∈ d.members kind ∧
      Replaced key (texts j) (texts (c.edit d.facets (key, j)).2)
        (pairs (Entries.ofList (d.members kind)))
        (pairs (Entries.ofList ((d.apply c).members kind))) := by
  rw [← d.keys_members kind] at read
  obtain ⟨⟨key, j⟩, member, rfl⟩ := List.mem_map.mp read
  obtain ⟨earlier, later, split, lesser, greater⟩ :=
    (Entries.ofList_sorted (d.members kind)).around ((d.mem_entries_iff kind).mpr member)
  have freeEarlier : ∀ p ∈ earlier, p.1 ∉ c.owned := by
    intro p inside
    rw [only, List.mem_singleton]
    exact (lesser p inside).ne
  have freeLater : ∀ p ∈ later, p.1 ∉ c.owned := by
    intro p inside
    rw [only, List.mem_singleton]
    exact (greater p inside).ne.symm
  refine ⟨j, member, pairs earlier, pairs later, ?_, ?_, ?_, ?_⟩
  · rw [split]
    simp [pairs]
  · rw [pairs_apply, split, List.map_append, List.map_cons, Call.map_edit_unowned _ freeEarlier,
      Call.map_edit_unowned _ freeLater, ← pairs_listed earlier, ← pairs_listed later]
    simp [pairs, Call.edit]
  · intro p inside
    obtain ⟨q, there, same⟩ := mem_pairs_key inside
    exact same ▸ lesser q there
  · intro p inside
    obtain ⟨q, there, same⟩ := mem_pairs_key inside
    exact same ▸ greater q there

theorem appended_apply (d : Description) {c : Call} (kind : Kind) {key text : String}
    (only : ∀ facets, c.edits facets = [(key, appended text)]) (read : key ∈ kind.keys) :
    Appended key text (pairs (Entries.ofList (d.members kind)))
      (pairs (Entries.ofList ((d.apply c).members kind))) := by
  have owned : c.owned = [key] := by rw [← c.keys_edits d.facets, only]; rfl
  obtain ⟨j, -, replaced⟩ := d.replaced_apply kind owned read
  have after : texts (c.edit d.facets (key, j)).2 = texts j ++ [text] := by
    simp [Call.edit, only, Entries.get?, appended, texts_ofStrings]
  rw [after] at replaced
  exact ⟨texts j, replaced⟩

theorem lengthened_apply (d : Description) {c : Call} (kind : Kind) {key separator item : String}
    (only : ∀ facets, c.edits facets = [(key, lengthened separator item)])
    (read : key ∈ kind.keys) (single : key ∉ repeated) :
    Lengthened key separator item (pairs (Entries.ofList (d.members kind)))
      (pairs (Entries.ofList ((d.apply c).members kind))) := by
  have owned : c.owned = [key] := by rw [← c.keys_edits d.facets, only]; rfl
  obtain ⟨j, member, replaced⟩ := d.replaced_apply kind owned read
  have after : texts (c.edit d.facets (key, j)).2 = lengthened separator item (texts j) := by
    simp [Call.edit, only, Entries.get?, texts_ofStrings]
  have few : (texts j).length ≤ 1 := (d.sendable_members kind _ member).length_texts_le single
  rw [after] at replaced
  cases there : texts j with
  | nil =>
    rw [there] at replaced
    exact .inl replaced
  | cons text others =>
    rw [there, List.length_cons] at few
    have alone : others.length = 0 := by omega
    obtain rfl := List.length_eq_zero_iff.mp alone
    rw [there] at replaced
    exact .inr ⟨text, replaced⟩

theorem grown_apply (d : Description) (c : Call) (kind : Kind) :
    Grown kind (pairs (Entries.ofList (d.members kind)))
      (pairs (Entries.ofList ((d.apply c).members kind))) c := by
  have searched : ∀ key ∈ Search.keys, key ∈ kind.keys := by cases kind <;> decide
  cases c with
  | filter clause => exact d.appended_apply kind (fun _ => rfl) (searched "fq" (by decide))
  | groupAlsoBy f => exact d.appended_apply kind fun _ => rfl
  | field f =>
    exact d.lengthened_apply kind (fun _ => rfl) (searched "fl" (by decide)) (by decide)
  | sort key =>
    exact d.lengthened_apply kind (fun _ => rfl) (searched "sort" (by decide)) (by decide)
  | searchField f => exact fun read => d.lengthened_apply kind (fun _ => rfl) read (by decide)
  | _ => trivial

theorem local_apply (d : Description) (c : Call) (kind : Kind) :
    Local c kind (pairs (Entries.ofList (d.members kind)))
      (pairs (Entries.ofList ((d.apply c).members kind))) where
  others := d.others_apply c kind
  unread := d.unread_apply c kind
  grown := d.grown_apply c kind

/-- Descriptions that no kind of query tells apart, nor do they after any calls. -/
structure Alike (d e : Description) : Prop where
  written : ∀ kind, listed (d.members kind) = listed (e.members kind)
  facets : d.facets = e.facets

theorem Alike.parameters {d e : Description} (alike : Alike d e) (kind : Kind) :
    d.parameters kind = e.parameters kind := by
  rw [parameters_eq, parameters_eq, ← pairs_listed (Entries.ofList _), listed_ofList,
    alike.written kind, ← listed_ofList, pairs_listed]

theorem Alike.apply {d e : Description} (alike : Alike d e) (c : Call) :
    Alike (d.apply c) (e.apply c) where
  written kind := by
    rw [listed_apply, listed_apply, ← alike.facets, ← Call.map_edit_listed, alike.written kind,
      Call.map_edit_listed]
  facets := facets_apply_congr alike.facets c

theorem Alike.run {d e : Description} (alike : Alike d e) (calls : List Call) :
    Alike (calls.foldl Description.apply d) (calls.foldl Description.apply e) := by
  induction calls generalizing d e with
  | nil => exact alike
  | cons c calls ih => exact ih (alike.apply c)

/-- The tree that a call finds does not depend on one that has no key in common with it. -/
theorem edit_apply (d : Description) {a b : Call} (apart : ∀ key ∈ a.owned, key ∉ b.owned) :
    b.edit (d.apply a).facets = b.edit d.facets := by
  by_cases own : "json.facet" ∈ a.owned
  · exact Call.edit_facets (apart _ own) _ _
  · rw [d.facets_apply own]

theorem listed_apply_apply (d : Description) {a b : Call}
    (apart : ∀ key ∈ a.owned, key ∉ b.owned) (kind : Kind) :
    listed (((d.apply a).apply b).members kind) =
      (d.members kind).map fun p => b.edit d.facets (a.edit d.facets p) := by
  rw [listed_apply, d.edit_apply apart, ← Call.map_edit_listed, listed_apply, List.map_map]
  rfl

theorem alike_swap (d : Description) {a b : Call} (apart : ∀ key ∈ a.owned, key ∉ b.owned) :
    Alike ((d.apply a).apply b) ((d.apply b).apply a) := by
  have apart' : ∀ key ∈ b.owned, key ∉ a.owned := fun key own other => apart key other own
  constructor
  case written =>
    intro kind
    rw [d.listed_apply_apply apart, d.listed_apply_apply apart']
    exact List.map_congr_left fun p _ => Call.edit_comm apart d.facets p
  case facets =>
    by_cases own : "json.facet" ∈ a.owned
    · have free := apart _ own
      rw [facets_apply _ free, facets_apply_congr (d.facets_apply free) a]
    · rw [facets_apply _ own, facets_apply_congr (d.facets_apply own) b]

end Description

/-- Each call is local, whatever was said before it. Two calls that have no key in common can
change places, whatever was said before them and after. -/
theorem calls_local (calls : List Call) (kind : Kind) :
    (∀ c, ∃ before after,
      (Description.build calls).parameters kind = .ok before ∧
      (Description.build (calls ++ [c])).parameters kind = .ok after ∧
      Local c kind before after) ∧
    ∀ a b later, (∀ key ∈ a.owned, key ∉ b.owned) →
      (Description.build (calls ++ a :: b :: later)).parameters kind =
        (Description.build (calls ++ b :: a :: later)).parameters kind := by
  constructor
  · intro c
    refine ⟨_, _, Description.parameters_eq _ kind, Description.parameters_eq _ kind, ?_⟩
    rw [Description.build_concat]
    exact (Description.build calls).local_apply c kind
  · intro a b later apart
    have swapped := ((Description.build calls).alike_swap apart).run later
    simp only [Description.build, List.foldl_append, List.foldl_cons] at swapped ⊢
    exact swapped.parameters kind

end Solr.Query
