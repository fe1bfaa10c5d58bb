import Mathlib.Logic.Relation
import Solr.Proofs.Json.Canonical
import Solr.Proofs.Json.Carrying
import Solr.Proofs.Json.Shape

/-! Edits of an outline that a reader of a shape does not see: the members of an object are put
in another order, or a member that the shape does not declare is added to a record or taken
away from it. -/
namespace Solr.Json

namespace Shape

/-- Whether a member of this key may be added. -/
def Admits : Shape → String → Prop
  | .record members, key => key ∉ members.map (·.1)
  | _, _ => False

/-- The shape of what stands under a key. -/
def member : Shape → Except Fault String → Shape
  | .map value, _ => value
  | .record members, .ok key => ((Entries.get? members key).map (·.2)).getD .any
  | _, _ => .any

/-- The shape of what stands at a place of an array. -/
def item : Shape → Nat → Shape
  | .list item, _ => item
  | .record members, index => (members[index]?.map (·.2.2)).getD .any
  | _, _ => .any

/-- One edit, somewhere in an outline of the shape. Only an object without repeated keys is put
in another order, and only what can be read is added or taken away. -/
inductive Edits : Shape → Node → Node → Prop
  | permute {shape : Shape} {members members' : List (Except Fault String × Node)}
      {ending : Ending} (once : (members.filterMap (·.1.toOption)).Nodup)
      (perm : members.Perm members') :
      Edits shape (.object members ending) (.object members' ending)
  | insert {shape : Shape} {before after : List (Except Fault String × Node)} {ending : Ending}
      {key : String} {n : Node} {j : Json} (admitted : shape.Admits key)
      (readable : Decode.value n = .ok j) :
      Edits shape (.object (before ++ after) ending)
        (.object (before ++ (.ok key, n) :: after) ending)
  | remove {shape : Shape} {before after : List (Except Fault String × Node)} {ending : Ending}
      {key : String} {n : Node} {j : Json} (admitted : shape.Admits key)
      (readable : Decode.value n = .ok j) :
      Edits shape (.object (before ++ (.ok key, n) :: after) ending)
        (.object (before ++ after) ending)
  | member {shape : Shape} {before after : List (Except Fault String × Node)} {ending : Ending}
      {key : Except Fault String} {n n' : Node} (inner : Edits (shape.member key) n n') :
      Edits shape (.object (before ++ (key, n) :: after) ending)
        (.object (before ++ (key, n') :: after) ending)
  | item {shape : Shape} {before after : List Node} {ending : Ending} {n n' : Node}
      (inner : Edits (shape.item before.length) n n') :
      Edits shape (.array (before ++ n :: after) ending) (.array (before ++ n' :: after) ending)

namespace Edits

variable {shape : Shape} {n n' : Node}

theorem symm (edits : shape.Edits n n') : shape.Edits n' n := by
  induction edits with
  | permute once perm => exact .permute ((perm.filterMap _).nodup_iff.mp once) perm.symm
  | insert admitted readable => exact .remove admitted readable
  | remove admitted readable => exact .insert admitted readable
  | member _ ih => exact .member ih
  | item _ ih => exact .item ih

/-- What is good of arrays and objects when it is of all in them is kept. -/
theorem preserves (Good : Node → Prop) (Key : Except Fault String → Prop)
    (array : ∀ items ending, Good (.array items ending) ↔
      ending = .closed ∧ ∀ n ∈ items, Good n)
    (object : ∀ members ending, Good (.object members ending) ↔
      ending = .closed ∧ ∀ m ∈ members, Key m.1 ∧ Good m.2)
    (named : ∀ key, Key (.ok key)) (readable : ∀ n j, Decode.value n = .ok j → Good n)
    (edits : shape.Edits n n') : Good n → Good n' := by
  induction edits with
  | permute _ perm =>
    simp only [object, perm.mem_iff, imp_self]
  | @insert _ _ _ _ key n j _ read =>
    simp only [object, List.forall_mem_append, List.forall_mem_cons]
    exact fun ⟨closed, before, after⟩ => ⟨closed, before, ⟨named key, readable n j read⟩, after⟩
  | remove =>
    simp only [object, List.forall_mem_append, List.forall_mem_cons]
    exact fun ⟨closed, before, _, after⟩ => ⟨closed, before, after⟩
  | member _ ih =>
    simp only [object, List.forall_mem_append, List.forall_mem_cons]
    exact fun ⟨closed, before, ⟨key, good⟩, after⟩ => ⟨closed, before, ⟨key, ih good⟩, after⟩
  | item _ ih =>
    simp only [array, List.forall_mem_append, List.forall_mem_cons]
    exact fun ⟨closed, before, good, after⟩ => ⟨closed, before, ih good, after⟩

theorem skip (edits : shape.Edits n n') : n.skip = none → n'.skip = none :=
  edits.preserves (fun n => n.skip = none) (fun _ => True)
    (fun _ _ => skipItems_eq_none)
    (fun _ _ => skipMembers_eq_none.trans (by simp only [true_and]))
    (fun _ => trivial) (fun _ _ => skip_of_value)

theorem readable (edits : shape.Edits n n') :
    (∃ j, Decode.value n = .ok j) → ∃ j, Decode.value n' = .ok j := by
  refine edits.preserves (fun n => ∃ j, Decode.value n = .ok j) (fun key => ∃ k, key = .ok k)
    ?_ ?_ (fun key => ⟨key, rfl⟩) fun _ j read => ⟨j, read⟩
  · intro items ending
    rw [← exists_forall₂_iff]
    simp only [Decode.value_array_eq_ok]
    constructor
    · rintro ⟨_, closed, values, -, each⟩
      exact ⟨closed, values, each⟩
    · rintro ⟨closed, values, each⟩
      exact ⟨_, closed, values, rfl, each⟩
  · intro members ending
    have pairs : (∃ pairs : List (String × Json),
        List.Forall₂ (fun m p => m.1 = .ok p.1 ∧ Decode.value m.2 = .ok p.2) members pairs) ↔
        ∀ m ∈ members, (∃ k, m.1 = .ok k) ∧ ∃ j, Decode.value m.2 = .ok j := by
      simp only [exists_forall₂_iff, Prod.exists, exists_and_left, exists_and_right]
    rw [← pairs]
    simp only [Decode.value_object_eq_ok]
    constructor
    · rintro ⟨_, closed, pairs, -, each⟩
      exact ⟨closed, pairs, each⟩
    · rintro ⟨closed, pairs, each⟩
      exact ⟨_, closed, pairs, rfl, each⟩

end Edits
end Shape

section Pairs

variable {α : Type} {d : Decoder α} {members members' : List (Except Fault String × Node)}
  {pairs : List (String × α)}

/-- What is read of members does not depend on their order, if no key stands twice. -/
theorem pairs_permute (once : (members.filterMap (·.1.toOption)).Nodup)
    (perm : members.Perm members')
    (each : List.Forall₂ (fun m p => m.1 = .ok p.1 ∧ d m.2 = .ok p.2) members pairs) :
    ∃ pairs', List.Forall₂ (fun m p => m.1 = .ok p.1 ∧ d m.2 = .ok p.2) members' pairs' ∧
      Entries.ofList pairs' = Entries.ofList pairs := by
  have keys : members.filterMap (·.1.toOption) = Entries.keys pairs := by
    clear once perm
    induction each with
    | nil => rfl
    | cons first _ ih =>
      rw [List.filterMap_cons, first.1]
      exact congrArg (_ :: ·) ih
  obtain ⟨pairs', each', perm'⟩ := List.perm_comp_forall₂ perm.symm each
  exact ⟨pairs', each', (Entries.ofList_perm (keys ▸ once) perm'.symm).symm⟩

end Pairs

section Carries

variable {α : Type} {shape : Shape} {d : Decoder α}

/-- As edits can be taken back, any number of them leave all that is read as it is. -/
theorem edits_iff (carries : Carries shape.Edits d) {n n' : Node} {a : α}
    (edits : Relation.ReflTransGen shape.Edits n n') : d n = .ok a ↔ d n' = .ok a := by
  induction edits with
  | refl => rfl
  | tail _ last ih => exact ih.trans ⟨carries _ _ a last, carries _ _ a last.symm⟩

/-- A reader that refuses arrays and objects sees no edits. -/
theorem edits_leaf (expected : String)
    (array : ∀ items ending,
      d (.array items ending) = (Node.array items ending).unexpected expected)
    (object : ∀ members ending,
      d (.object members ending) = (Node.object members ending).unexpected expected) :
    Carries shape.Edits d := by
  intro n n' a edits read
  cases edits with
  | permute | insert | remove | member =>
    rw [object] at read
    exact absurd read (Node.unexpected_ne_ok _ _ _)
  | item =>
    rw [array] at read
    exact absurd read (Node.unexpected_ne_ok _ _ _)

theorem edits_string : Carries shape.Edits Decode.string :=
  edits_leaf _ (fun _ _ => rfl) fun _ _ => rfl

theorem edits_boolean : Carries shape.Edits Decode.boolean :=
  edits_leaf _ (fun _ _ => rfl) fun _ _ => rfl

theorem edits_double : Carries shape.Edits Decode.double :=
  edits_leaf _ (fun _ _ => rfl) fun _ _ => rfl

theorem edits_int64 : Carries shape.Edits Decode.int64 :=
  edits_leaf _ (fun _ _ => rfl) fun _ _ => rfl

theorem edits_nat64 : Carries shape.Edits Decode.nat64 :=
  Carries.map (edits_leaf "u64" (fun _ _ => rfl) fun _ _ => rfl) Int.toNat

theorem edits_value : Carries (Shape.any).Edits Decode.value := by
  intro n n' j edits read
  -- On the edits; what stands inside a free value is free, so the shape stays the same.
  generalize free : Shape.any = shape at edits
  induction edits generalizing j with
  | permute once perm =>
    obtain ⟨closed, pairs, rfl, each⟩ := Decode.value_object_eq_ok.mp read
    obtain ⟨pairs', each', same⟩ := pairs_permute once perm each
    exact Decode.value_object_eq_ok.mpr ⟨closed, pairs', by rw [same], each'⟩
  | insert admitted => exact (free ▸ admitted : (Shape.any).Admits _).elim
  | remove admitted => exact (free ▸ admitted : (Shape.any).Admits _).elim
  | member _ ih =>
    obtain ⟨closed, pairs, rfl, each⟩ := Decode.value_object_eq_ok.mp read
    refine Decode.value_object_eq_ok.mpr ⟨closed, pairs, rfl, forall₂_replace ?_ each⟩
    exact fun p h => ⟨h.1, ih p.2 h.2 (by rw [← free]; rfl)⟩
  | item _ ih =>
    obtain ⟨closed, values, rfl, each⟩ := Decode.value_array_eq_ok.mp read
    refine Decode.value_array_eq_ok.mpr ⟨closed, values, rfl, forall₂_replace ?_ each⟩
    exact fun j h => ih j h (by rw [← free]; rfl)

theorem edits_optional (carries : Carries shape.Edits d) :
    Carries shape.Edits (Decode.optional d) := by
  refine carries_optional carries fun n n' edits => ?_
  cases edits <;> simp

theorem edits_list (carries : ∀ index, Carries (shape.item index).Edits d) :
    Carries shape.Edits (Decode.list d) := by
  intro n n' values edits read
  obtain ⟨items, rfl, each⟩ := Decode.list_eq_ok.mp read
  cases edits with
  | item inner =>
    refine Decode.list_eq_ok.mpr ⟨_, rfl, forall₂_replace ?_ each⟩
    exact fun a read => carries _ _ _ a inner read

theorem edits_map (closed : ∀ key, ¬ shape.Admits key)
    (carries : ∀ key, Carries (shape.member key).Edits d) :
    Carries shape.Edits (Decode.map d) := by
  intro n n' entries edits read
  obtain ⟨members, pairs, rfl, each, rfl⟩ := Decode.map_eq_ok.mp read
  cases edits with
  | permute once perm =>
    obtain ⟨pairs', each', same⟩ := pairs_permute once perm each
    exact Decode.map_eq_ok.mpr ⟨_, pairs', rfl, each', same.symm⟩
  | insert admitted => exact absurd admitted (closed _)
  | remove admitted => exact absurd admitted (closed _)
  | member inner =>
    refine Decode.map_eq_ok.mpr ⟨_, pairs, rfl, forall₂_replace ?_ each, rfl⟩
    exact fun p h => ⟨h.1, carries _ _ _ p.2 inner h.2⟩

end Carries

namespace Record

/-- Edits of members whose keys have been read. -/
inductive Edited (shape : Shape) : List (String × Node) → List (String × Node) → Prop
  | permute {found found' : List (String × Node)} (once : (found.map (·.1)).Nodup)
      (perm : found.Perm found') : Edited shape found found'
  | insert {before after : List (String × Node)} {key : String} {n : Node} {j : Json}
      (admitted : shape.Admits key) (readable : Decode.value n = .ok j) :
      Edited shape (before ++ after) (before ++ (key, n) :: after)
  | remove {before after : List (String × Node)} {key : String} {n : Node} {j : Json}
      (admitted : shape.Admits key) (readable : Decode.value n = .ok j) :
      Edited shape (before ++ (key, n) :: after) (before ++ after)
  | member {before after : List (String × Node)} {key : String} {n n' : Node}
      (inner : (shape.member (.ok key)).Edits n n') :
      Edited shape (before ++ (key, n) :: after) (before ++ (key, n') :: after)

/-- What stands under a key is not changed, or edited. -/
def Under (shape : Shape) (key : String) (n n' : Node) : Prop :=
  n = n' ∨ (shape.member (.ok key)).Edits n n'

variable {shape : Shape} {found found' : List (String × Node)}

theorem Under.refl (key : String) (n : Node) : Under shape key n n :=
  .inl rfl

theorem carries_under {α : Type} {d : Decoder α} {key : String}
    (carries : Carries (shape.member (.ok key)).Edits d) : Carries (Under shape key) d := by
  rintro n n' a (rfl | edits) read
  · exact read
  · exact carries n n' a edits read

theorem carries_at {α : Type} {d : Decoder α} {key : String} {inner : Shape}
    (declared : shape.member (.ok key) = inner) (carries : Carries inner.Edits d) :
    Carries (Under shape key) d :=
  carries_under (declared ▸ carries)

theorem rel_under (key : String) (found : Option Node) :
    Option.Rel (Under shape key) found found := by
  cases found with
  | none => exact .none
  | some n => exact .some (.refl key n)

theorem named_eq_cons {key : Except Fault String} {n : Node}
    {after : List (Except Fault String × Node)} (shown : named found = (key, n) :: after) :
    ∃ k rest, found = (k, n) :: rest ∧ key = .ok k ∧ after = named rest := by
  obtain ⟨p, rest, rfl, same, rfl⟩ := List.map_eq_cons_iff.mp shown
  obtain ⟨rfl, rfl⟩ := Prod.mk.inj same
  exact ⟨p.1, rest, rfl, rfl, rfl⟩

theorem keys_named (found : List (String × Node)) :
    (named found).filterMap (·.1.toOption) = found.map (·.1) := by
  rw [named, List.filterMap_map]
  exact congrFun List.filterMap_eq_map found

theorem named_permute {members : List (Except Fault String × Node)}
    (perm : (named found).Perm members) : ∃ found', members = named found' ∧ found.Perm found' := by
  have each : List.Forall₂ (fun m p => m = (.ok p.1, p.2)) (named found) found :=
    List.forall₂_map_left_iff.mpr (List.forall₂_same.mpr fun _ _ => rfl)
  obtain ⟨found', each', perm'⟩ := List.perm_comp_forall₂ perm.symm each
  have same : List.Forall₂ Eq members (named found') := List.forall₂_map_right_iff.mpr each'
  exact ⟨found', List.forall₂_eq_eq_eq ▸ same, perm'.symm⟩

theorem edited_of_edits {ending : Ending} {n' : Node}
    (edits : shape.Edits (.object (named found) ending) n') :
    ∃ found', n' = .object (named found') ending ∧ Edited shape found found' := by
  generalize whole : named found = members at edits
  cases edits with
  | permute once perm =>
    subst whole
    obtain ⟨found', rfl, perm'⟩ := named_permute perm
    exact ⟨found', rfl, .permute (keys_named found ▸ once) perm'⟩
  | @insert _ _ _ _ key n _ admitted readable =>
    obtain ⟨before, after, rfl, rfl, rfl⟩ := List.map_eq_append_iff.mp whole
    exact ⟨before ++ (key, n) :: after, by simp [named], .insert admitted readable⟩
  | remove admitted readable =>
    obtain ⟨before, rest, rfl, rfl, shown⟩ := List.map_eq_append_iff.mp whole
    obtain ⟨key, after, rfl, same, rfl⟩ := named_eq_cons shown
    obtain rfl := Except.ok.inj same
    exact ⟨before ++ after, by simp [named], .remove admitted readable⟩
  | @member _ _ _ _ _ n n' inner =>
    obtain ⟨before, rest, rfl, rfl, shown⟩ := List.map_eq_append_iff.mp whole
    obtain ⟨key, after, rfl, rfl, rfl⟩ := named_eq_cons shown
    exact ⟨before ++ (key, n') :: after, by simp [named], .member inner⟩

namespace Edited

/-- A declared key stands as often as before. -/
theorem count (edited : Edited shape found found') {key : String} (declared : ¬ shape.Admits key) :
    (found'.map (·.1)).count key = (found.map (·.1)).count key := by
  have apart {other : String} (admitted : shape.Admits other) : other ≠ key := by
    rintro rfl
    exact declared admitted
  cases edited with
  | permute _ perm => exact (perm.map _).count_eq key |>.symm
  | insert admitted => simp [List.count_cons_of_ne (apart admitted)]
  | remove admitted => simp [List.count_cons_of_ne (apart admitted)]
  | member => simp

theorem find? (edited : Edited shape found found') {key : String}
    (declared : ¬ shape.Admits key) :
    Option.Rel (Under shape key) (Record.find? found key) (Record.find? found' key) := by
  have apart {other : String} (admitted : shape.Admits other) : other ≠ key := by
    rintro rfl
    exact declared admitted
  have added {before after : List (String × Node)} {other : String} {n : Node}
      (admitted : shape.Admits other) : Record.find? (before ++ (other, n) :: after) key =
        Record.find? (before ++ after) key := by
    change Entries.get? _ key = Entries.get? _ key
    rw [Entries.get?_append, Entries.get?_append, Entries.get?_cons, if_neg (apart admitted)]
  cases edited with
  | permute once perm =>
    have same : Record.find? found key = Record.find? found' key :=
      Entries.get?_perm once perm key
    rw [same]
    exact rel_under key _
  | insert admitted =>
    rw [added admitted]
    exact rel_under key _
  | remove admitted =>
    rw [added admitted]
    exact rel_under key _
  | @member before after other n n' inner =>
    have same (found : List (String × Node)) :
        List.Forall₂ (fun p q => p.1 = q.1 ∧ Under shape p.1 p.2 q.2) found found :=
      List.forall₂_same.mpr fun p _ => ⟨rfl, .refl p.1 p.2⟩
    have changed : List.Forall₂ (fun p q => p.1 = q.1 ∧ Under shape p.1 p.2 q.2)
        ((other, n) :: after) ((other, n') :: after) :=
      .cons ⟨rfl, .inr inner⟩ (same after)
    exact Entries.rel_get? (R := Under shape) (List.rel_append (same before) changed) key

/-- What all have that can be read, and edits do not take away, is had by the members under all
keys that are looked at. -/
theorem preserves (Good : Node → Prop) (look : String → Prop)
    (readable : ∀ n j, Decode.value n = .ok j → Good n)
    (kept : ∀ shape n n', Shape.Edits shape n n' → Good n → Good n')
    (edited : Edited shape found found') (good : ∀ p ∈ found, look p.1 → Good p.2) :
    ∀ p ∈ found', look p.1 → Good p.2 := by
  cases edited with
  | permute _ perm => exact fun p member => good p (perm.mem_iff.mpr member)
  | insert _ read =>
    simp only [List.forall_mem_append, List.forall_mem_cons] at good ⊢
    exact ⟨good.1, fun _ => readable _ _ read, good.2⟩
  | remove =>
    simp only [List.forall_mem_append, List.forall_mem_cons] at good ⊢
    exact ⟨good.1, good.2.2⟩
  | member inner =>
    simp only [List.forall_mem_append, List.forall_mem_cons] at good ⊢
    exact ⟨good.1, fun looked => kept _ _ _ inner (good.2.1 looked), good.2.2⟩

theorem filter (edited : Edited shape found found') (keep : String → Bool) :
    (found.filter fun p => keep p.1) = found'.filter (fun p => keep p.1) ∨
      Edited shape (found.filter fun p => keep p.1) (found'.filter fun p => keep p.1) := by
  cases edited with
  | permute once perm =>
    exact .inr (.permute (once.sublist (List.filter_sublist.map _)) (perm.filter _))
  | @insert before after key n j admitted readable =>
    rw [List.filter_append, List.filter_append, List.filter_cons]
    split
    · exact .inr (.insert admitted readable)
    · exact .inl rfl
  | @remove before after key n j admitted readable =>
    rw [List.filter_append, List.filter_append, List.filter_cons]
    split
    · exact .inr (.remove admitted readable)
    · exact .inl rfl
  | @member before after key n n' inner =>
    rw [List.filter_append, List.filter_append, List.filter_cons, List.filter_cons]
    split
    · exact .inr (.member inner)
    · exact .inl rfl

theorem edits (edited : Edited shape found found') (ending : Ending) :
    shape.Edits (.object (named found) ending) (.object (named found') ending) := by
  cases edited with
  | permute once perm => exact .permute (keys_named found ▸ once) (perm.map _)
  | insert admitted readable => simpa [named] using Shape.Edits.insert admitted readable
  | remove admitted readable => simpa [named] using Shape.Edits.remove admitted readable
  | member inner => simpa [named] using Shape.Edits.member inner

end Edited

variable {α : Type} {name : String}

theorem Edited.once {slots : List Slot} (declared : ∀ slot ∈ slots, ¬ shape.Admits slot.key)
    (edited : Edited shape found found') (once : Once slots found) :
    Once slots found' := by
  intro key known
  obtain ⟨slot, member, same⟩ := List.any_eq_true.mp known
  obtain rfl := of_decide_eq_true same
  rw [edited.count (declared slot member)]
  exact once slot.key known

section Closed

variable {m : Members α} [m.Checked] (declared : ∀ slot ∈ m.slots, ¬ shape.Admits slot.key)

include declared

theorem closed_edited (carries : m.Carries (Under shape)) (edited : Edited shape found found')
    {a : α} (read : closed name m (.object (named found) .closed) = .ok a) :
    closed name m (.object (named found') .closed) = .ok a := by
  obtain ⟨-, _, same, once, skips, built⟩ := closed_object_iff.mp read
  obtain rfl := named_inj.mp same
  refine closed_object_iff.mpr ⟨rfl, found', rfl, edited.once declared once, ?_, ?_⟩
  · exact edited.preserves (fun n => n.skip = none) (fun key => declares m.slots key = false)
      (fun _ _ => skip_of_value) (fun _ _ _ => Shape.Edits.skip) skips
  · exact carries _ _ a (fun slot member => edited.find? (declared slot member)) built

theorem edits_closed (distinct : (m.slots.map (·.key)).Nodup)
    (places : ∀ index slot, m.slots[index]? = some slot →
      shape.item index = shape.member (.ok slot.key))
    (carries : m.Carries (Under shape)) : Carries shape.Edits (closed name m) := by
  intro n n' a edits read
  rcases closed_cases read with ⟨members, ending, rfl⟩ | ⟨items, ending, rfl⟩
  · obtain ⟨rfl, found, rfl, -⟩ := closed_object_iff.mp read
    obtain ⟨found', rfl, edited⟩ := edited_of_edits edits
    exact closed_edited declared carries edited read
  -- In an array nothing is added or moved; one value is edited in its place.
  · obtain ⟨rfl, short, absent, built⟩ := (closed_array_iff distinct).mp read
    cases edits with
    | @item _ before after _ n n' inner =>
      have length : (before ++ n :: after).length = (before ++ n' :: after).length := by simp
      refine (closed_array_iff distinct).mpr ⟨rfl, length ▸ short, length ▸ absent, ?_⟩
      refine carries _ _ a (fun slot member => ?_) built
      obtain ⟨index, place⟩ := List.mem_iff_getElem?.mp member
      have key : (m.slots.map (·.key))[index]? = some slot.key := by simp [place]
      rw [find?_zip distinct key, find?_zip distinct key]
      refine rel_replace (Under.refl slot.key) fun here => .inr ?_
      rwa [← places index slot place, here]

end Closed

/-- A closed record whose shape declares the same members. -/
theorem edits_record {m : Members α} [m.Checked] {fields : List (String × Presence × Shape)}
    (names : m.slots.map (·.key) = fields.map (·.1)) (distinct : (fields.map (·.1)).Nodup)
    (carries : m.Carries (Under (.record fields))) :
    Carries (Shape.record fields).Edits (closed name m) := by
  refine edits_closed (fun slot member undeclared => ?_) (names ▸ distinct) ?_ carries
  · exact undeclared (names ▸ List.mem_map_of_mem member)
  · intro index slot place
    have key : (fields.map (·.1))[index]? = some slot.key := by simp [← names, place]
    rw [List.getElem?_map] at key
    obtain ⟨field, there, same⟩ := Option.map_eq_some_iff.mp key
    have found : Entries.get? fields slot.key = some field.2 :=
      Entries.get?_of_mem distinct (same ▸ List.mem_of_getElem? there)
    simp only [Shape.item, Shape.member, there, found, Option.map_some]

/-- What an open record keeps is a value. -/
theorem rest_eq_value {others : List (String × Node)} {entries : Entries Json} :
    rest others = .ok entries ↔
      Decode.value (.object (named others) .closed) = .ok (.object entries) := by
  rw [rest_eq_ok, Decode.value_object_eq_ok, named]
  simp only [List.forall₂_map_left_iff, Except.ok.injEq, Json.object.injEq, true_and, and_comm]

theorem edits_extended {m : Members (Entries Json → α)} [m.Checked]
    (carries : m.Carries (Under .any)) : Carries (Shape.any).Edits (extended name m) := by
  intro n n' a edits read
  obtain ⟨found, make, entries, rfl, once, built, rested, rfl⟩ := extended_eq_ok_iff.mp read
  obtain ⟨found', rfl, edited⟩ := edited_of_edits edits
  have declared : ∀ slot ∈ m.slots, ¬ (Shape.any).Admits slot.key := fun _ _ => id
  refine extended_eq_ok_iff.mpr
    ⟨found', make, entries, rfl, edited.once declared once, ?_, ?_, rfl⟩
  · exact carries _ _ make (fun slot member => edited.find? (declared slot member)) built
  · rcases edited.filter fun key => !declares m.slots key with same | edited
    · exact same ▸ rested
    · exact rest_eq_value.mpr (edits_value _ _ _ (edited.edits .closed) (rest_eq_value.mp rested))

end Record
end Solr.Json
