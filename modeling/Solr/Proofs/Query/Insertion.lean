import Solr.Proofs.Json.Canonical
import Solr.Query.Facet

/-! Facet trees as they are built: at each level one facet after the other is put under a name.
Of the facets under one name the last counts; the order of different names does not. -/
namespace Solr

/-- The text around the value of one member is the same for all values. -/
theorem Json.compactMembers_around (before after : List (String × Json)) (key : String) :
    ∃ left right, ∀ j, compactMembers (before ++ (key, j) :: after) =
      left ++ j.compactChars ++ right := by
  induction before with
  | nil =>
    cases after with
    | nil => exact ⟨quoted key ++ [':'], [], fun j => by simp [compactMembers]⟩
    | cons p after =>
      refine ⟨quoted key ++ [':'], ',' :: compactMembers (p :: after), fun j => ?_⟩
      simp [compactMembers]
  | cons p before ih =>
    obtain ⟨k, v⟩ := p
    obtain ⟨left, right, around⟩ := ih
    refine ⟨quoted k ++ ':' :: v.compactChars ++ ',' :: left, right, fun j => ?_⟩
    have follows : before ++ (key, j) :: after ≠ [] :=
      List.append_ne_nil_of_right_ne_nil _ (List.cons_ne_nil _ _)
    obtain ⟨q, rest, split⟩ := List.exists_cons_of_ne_nil follows
    rw [List.cons_append, split, compactMembers, ← split, around]
    · simp
    · simp

namespace Query

/-- A facet that can have others below it, without these. -/
inductive Stem where
  | terms (field : Field) (limit : Int) (sort : Option String) (overrequest : Option Int)
  | matching (query : String)
  | range (field : Field) (first last gap : Double) (hardEnd other : String)
      (edges : Option String)

namespace Stem

def facet (facets : Option (List (String × Facet))) : Stem → Facet
  | .terms field limit sort overrequest => .terms field limit sort overrequest facets
  | .matching query => .matching query facets
  | .range field first last gap hardEnd other edges =>
    .range field first last gap hardEnd other edges facets

/-- The members of the facet as long as it has none below it. -/
def members : Stem → List (String × Json)
  | .terms field limit sort overrequest =>
    [("type", .string "terms"), ("field", Facet.ofField field), ("limit", .ofInt limit)] ++
      Json.optional "sort" .string sort ++ Json.optional "overrequest" .ofInt overrequest
  | .matching query => [("type", .string "query"), ("q", .string query)]
  | .range field first last gap hardEnd other edges =>
    [("type", .string "range"), ("field", Facet.ofField field), ("start", .ofDouble first),
      ("end", .ofDouble last), ("gap", .ofDouble gap), ("hardend", .string hardEnd),
      ("other", .string other)] ++ Json.optional "include" .string edges

theorem add_facet (s : Stem) (facets : Option (List (String × Facet))) (name : String)
    (f : Facet) :
    Facet.add name f (s.facet facets) = s.facet (some (Entries.insert name f (facets.getD []))) := by
  cases s <;> rfl

theorem encode_facet (s : Stem) (facets : Option (List (String × Facet))) :
    (s.facet facets).encode = .object (s.members ++ Facet.encodeBelow facets) := by
  cases s <;> rw [facet, Facet.encode, members]

end Stem

/-- How a facet is built: what it is of itself, and what is put below it, in this order. It may
have a tree below it from the start. -/
inductive Plan where
  | heatmap (field : Field) (area : String) (gridLevel : Nat)
  | stem (s : Stem) (started : Bool) (below : List (String × Plan))

namespace Plan

mutual

def facet : Plan → Facet
  | .heatmap field area gridLevel => .heatmap field area gridLevel
  | .stem s started below =>
    (facets below).foldl (fun above p => Facet.add p.1 p.2 above)
      (s.facet (if started then some [] else none))

def facets : List (String × Plan) → List (String × Facet)
  | [] => []
  | (name, p) :: rest => (name, p.facet) :: facets rest

end

def text (p : Plan) : String :=
  p.facet.encode.compact

/-- The tree that comes of putting facets under their names, one after the other. -/
def tree (plans : List (String × Plan)) : Entries Facet :=
  Entries.ofList (facets plans)

/-- What is put under a name last. -/
def last (plans : List (String × Plan)) (name : String) : Option Plan :=
  Entries.get? plans.reverse name

theorem facets_eq_map (plans : List (String × Plan)) :
    facets plans = plans.map fun p => (p.1, p.2.facet) := by
  induction plans with
  | nil => rfl
  | cons p rest ih => rw [facets, ih, List.map_cons]

theorem get?_tree (plans : List (String × Plan)) (name : String) :
    (tree plans).get? name = (last plans name).map facet := by
  rw [tree, Entries.get?_ofList, facets_eq_map, ← List.map_reverse, Entries.get?_map, last]

theorem tree_concat (plans : List (String × Plan)) (name : String) (p : Plan) :
    tree (plans ++ [(name, p)]) = (tree plans).insert name p.facet := by
  rw [tree, tree, facets_eq_map, List.map_append, ← facets_eq_map, List.map_singleton,
    Entries.ofList_concat]

theorem foldl_add (s : Stem) (pairs : List (String × Facet))
    (start : Option (List (String × Facet))) :
    pairs.foldl (fun above p => Facet.add p.1 p.2 above) (s.facet start) =
      s.facet (if pairs = [] then start else some (Entries.addAll (start.getD []) pairs)) := by
  induction pairs generalizing start with
  | nil => rfl
  | cons p rest ih =>
    rw [List.foldl_cons, Stem.add_facet, ih, if_neg (List.cons_ne_nil p rest)]
    by_cases done : rest = []
    · subst done
      rfl
    · rw [if_neg done]
      rfl

end Plan

/-- Where facets are put: into a tree, or below a facet. -/
inductive Ground where
  | tree
  | below (s : Stem) (started : Bool)

namespace Ground

def text : Ground → List (String × Plan) → String
  | .tree, plans => Facet.treeText (Plan.tree plans)
  | .below s started, plans => (Plan.stem s started plans).text

/-- The place with these facets in it. Below a facet a tree without any is written only if it was
there from the start. -/
def encode (facets : List (String × Facet)) : Ground → Json
  | .tree => .object (Facet.encodeEntries facets)
  | .below s started => .object (s.members ++
      Facet.encodeBelow (if started || !facets.isEmpty then some facets else none))

end Ground

namespace Plan

theorem facet_stem (s : Stem) (started : Bool) (below : List (String × Plan)) :
    (stem s started below).facet =
      s.facet (if started || !(tree below).isEmpty then some (tree below) else none) := by
  rw [facet, foldl_add]
  by_cases none : facets below = []
  · rw [if_pos none, tree, none]
    cases started <;> rfl
  · have present : (started || !(tree below).isEmpty) = true := by
      rw [Bool.or_eq_true, Bool.not_eq_true', List.isEmpty_eq_false_iff]
      exact .inr fun empty => none (Entries.ofList_eq_nil_iff.mp empty)
    rw [if_neg none, if_pos present]
    cases started <;> rfl

end Plan

/-- The text is that of the tree, whatever led to it. -/
theorem Ground.text_eq (g : Ground) (plans : List (String × Plan)) :
    g.text plans = (g.encode (Plan.tree plans)).compact := by
  cases g with
  | tree => rfl
  | below s started => rw [text, Plan.text, Plan.facet_stem, Stem.encode_facet, encode]

namespace Plan

/-- The same facets but for those under a name that others are put under later, at every level. -/
inductive Same : Plan → Plan → Prop
  | heatmap (field : Field) (area : String) (gridLevel : Nat) :
      Same (.heatmap field area gridLevel) (.heatmap field area gridLevel)
  | stem {s : Stem} {started : Bool} {a b : List (String × Plan)}
      (names : ∀ name, (last a name).isSome = (last b name).isSome)
      (plans : ∀ name p q, last a name = some p → last b name = some q → Same p q) :
      Same (.stem s started a) (.stem s started b)

/-- The same last facet under each name. -/
structure SameLast (a b : List (String × Plan)) : Prop where
  names : ∀ name, (last a name).isSome = (last b name).isSome
  plans : ∀ name p q, last a name = some p → last b name = some q → Same p q

/-- Facets that are put in another order, at any level. Those under one name stay in theirs. -/
inductive Reordered : List (String × Plan) → List (String × Plan) → Prop
  | here {a b : List (String × Plan)}
      (kept : ∀ name, a.filter (fun p => p.1 = name) = b.filter (fun p => p.1 = name)) :
      Reordered a b
  | within {a b before after : List (String × Plan)} {name : String} {s : Stem} {started : Bool}
      (inner : Reordered a b) :
      Reordered (before ++ (name, .stem s started a) :: after)
        (before ++ (name, .stem s started b) :: after)
  | trans {a b c : List (String × Plan)} (first : Reordered a b) (second : Reordered b c) :
      Reordered a c

theorem tree_ext {a b : List (String × Plan)}
    (same : ∀ name, (last a name).map facet = (last b name).map facet) : tree a = tree b := by
  apply Entries.Sorted.ext (Entries.ofList_sorted _) (Entries.ofList_sorted _)
  intro name
  exact (get?_tree a name).trans ((same name).trans (get?_tree b name).symm)

theorem map_last {a b : List (String × Plan)} {name : String}
    (names : (last a name).isSome = (last b name).isSome)
    (plans : ∀ p q, last a name = some p → last b name = some q → p.facet = q.facet) :
    (last a name).map facet = (last b name).map facet := by
  cases here : last a name with
  | none =>
    cases there : last b name with
    | none => rfl
    | some q => simp [here, there] at names
  | some p =>
    cases there : last b name with
    | none => simp [here, there] at names
    | some q => rw [Option.map_some, Option.map_some, plans p q here there]

theorem Same.facet_eq {p q : Plan} (same : Same p q) : p.facet = q.facet := by
  induction same with
  | heatmap => rfl
  | stem names _ ih =>
    rw [facet_stem, facet_stem, tree_ext fun name => map_last (names name) (ih name)]

theorem SameLast.tree_eq {a b : List (String × Plan)} (same : SameLast a b) : tree a = tree b :=
  tree_ext fun name => map_last (same.names name)
    fun p q here there => (same.plans name p q here there).facet_eq

theorem Reordered.tree_eq {a b : List (String × Plan)} (reordered : Reordered a b) :
    tree a = tree b := by
  induction reordered with
  | @here a b kept =>
    apply tree_ext
    intro name
    have found (plans : List (String × Plan)) :
        last plans name = Entries.get? (plans.filter fun p => p.1 = name).reverse name := by
      rw [last, ← List.filter_reverse, Entries.get?_filter (fun key => key = name) (by simp)]
    rw [found, found, kept]
  | @within a b before after name s started _ ih =>
    have same : (Plan.stem s started a).facet = (Plan.stem s started b).facet := by
      rw [facet_stem, facet_stem, ih]
    simp only [tree, facets_eq_map, List.map_append, List.map_cons, same]
  | trans _ _ first second => exact first.trans second

end Plan

theorem Facet.encodeEntries_append (a b : List (String × Facet)) :
    encodeEntries (a ++ b) = encodeEntries a ++ encodeEntries b := by
  induction a with
  | nil => rfl
  | cons p a ih => rw [List.cons_append, encodeEntries, encodeEntries, ih, List.cons_append]

/-- The text around one of the facets in a place is the same for all facets there. -/
theorem Ground.compact_around (g : Ground) (before after : List (String × Facet)) (name : String) :
    ∃ left right, ∀ f : Facet, (g.encode (before ++ (name, f) :: after)).compact =
      left ++ f.encode.compact ++ right := by
  have entries (f : Facet) : Facet.encodeEntries (before ++ (name, f) :: after) =
      Facet.encodeEntries before ++ (name, f.encode) :: Facet.encodeEntries after := by
    rw [Facet.encodeEntries_append, Facet.encodeEntries]
  obtain ⟨left, right, inTree⟩ := Json.compactMembers_around (Facet.encodeEntries before)
    (Facet.encodeEntries after) name
  cases g with
  | tree =>
    refine ⟨String.ofList ('{' :: left), String.ofList (right ++ ['}']), fun f => ?_⟩
    apply String.toList_inj.mp
    simp [encode, entries, Json.compact, Json.compactChars, inTree]
  | below s started =>
    obtain ⟨outerLeft, outerRight, inFacet⟩ := Json.compactMembers_around s.members [] "facet"
    refine ⟨String.ofList ('{' :: outerLeft ++ '{' :: left),
      String.ofList (right ++ '}' :: outerRight ++ ['}']), fun f => ?_⟩
    apply String.toList_inj.mp
    simp [encode, Facet.encodeBelow, entries, Json.compact, Json.compactChars, inFacet, inTree]

/-- The text is the same whatever the order in which different names are given, and whatever the
facets that others replace. The names stand in it in the order of their bytes, each once; a facet
that takes the place of another changes no more than its own text. -/
theorem insertions_unordered (g : Ground) (plans : List (String × Plan)) :
    (∃ entries, Entries.Listing plans entries ∧
      g.text plans = (g.encode (Plan.facets entries)).compact) ∧
    (∀ others, Plan.SameLast plans others → g.text plans = g.text others) ∧
    (∀ others, Plan.Reordered plans others → g.text plans = g.text others) ∧
    ∀ name, ∃ before after left right,
      (Plan.tree plans).filter (fun p => p.1 ≠ name) = before ++ after ∧
      ∀ p : Plan, g.text (plans ++ [(name, p)]) =
          (g.encode (before ++ (name, p.facet) :: after)).compact ∧
        g.text (plans ++ [(name, p)]) = left ++ p.text ++ right := by
  refine ⟨⟨Entries.ofList plans, Entries.listing_iff.mpr rfl, ?_⟩, fun others same => ?_,
    fun others reordered => ?_, fun name => ?_⟩
  · rw [g.text_eq, Plan.tree, Plan.facets_eq_map, Plan.facets_eq_map,
      Entries.ofList_map fun _ (p : Plan) => p.facet]
  · rw [g.text_eq, g.text_eq, same.tree_eq]
  · rw [g.text_eq, g.text_eq, reordered.tree_eq]
  · obtain ⟨before, after, kept, placed⟩ :=
      Entries.insert_around name (Entries.ofList_sorted (Plan.facets plans))
    obtain ⟨left, right, around⟩ := g.compact_around before after name
    refine ⟨before, after, left, right, kept, fun p => ?_⟩
    have replaced : g.text (plans ++ [(name, p)]) =
        (g.encode (before ++ (name, p.facet) :: after)).compact := by
      rw [g.text_eq, Plan.tree_concat, Plan.tree, placed]
    exact ⟨replaced, replaced.trans (around p.facet)⟩

end Query
end Solr
