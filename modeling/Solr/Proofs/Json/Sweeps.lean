import Solr.Json.Record
import Solr.Proofs.Json.Recoding

/-! Which members of an object, and which values of an array, a record takes. The members are
passed one after the other; what counts in the end is which of them there are. -/
namespace Solr.Json.Record

/-- The members of an object whose keys can be read. -/
def named (found : List (String × Node)) : List (Except Fault String × Node) :=
  found.map fun p => (.ok p.1, p.2)

theorem named_inj {a b : List (String × Node)} : named a = named b ↔ a = b := by
  refine List.map_inj_right fun p q same => ?_
  obtain ⟨key, value⟩ := Prod.mk.inj same
  exact Prod.ext (Except.ok.inj key) value

/-- What a sweep asks of members: a declared one stands once at most, and not after those seen
before; its value passes its check, and all other values pass the other one. -/
structure Passes (slots : List Slot) (other : Node → Except ReadError Unit) (seen : List String)
    (found : List (String × Node)) : Prop where
  once : ∀ key, declares slots key = true →
    (found.map (·.1)).count key ≤ if key ∈ seen then 0 else 1
  declared : ∀ p ∈ found, ∀ slot, slots.find? (·.key = p.1) = some slot →
    slot.check p.2 = .ok ()
  others : ∀ p ∈ found, declares slots p.1 = false → other p.2 = .ok ()

variable {slots : List Slot} {other : Node → Except ReadError Unit} {seen : List String}

theorem declares_eq_isSome (slots : List Slot) (key : String) :
    declares slots key = (slots.find? (·.key = key)).isSome := by
  rw [declares, Bool.eq_iff_iff, List.any_eq_true, List.find?_isSome]

theorem passes_other {key : String} {n : Node} {rest : List (String × Node)}
    (undeclared : declares slots key = false) :
    Passes slots other seen ((key, n) :: rest) ↔
      other n = .ok () ∧ Passes slots other seen rest := by
  have absent : slots.find? (·.key = key) = none := by
    simpa [declares_eq_isSome] using undeclared
  have apart (k : String) (declared : declares slots k = true) : key ≠ k := by
    rintro rfl
    simp [undeclared] at declared
  constructor
  · rintro ⟨once, declared, others⟩
    obtain ⟨first, others⟩ := List.forall_mem_cons.mp others
    refine ⟨first undeclared, ?_, (List.forall_mem_cons.mp declared).2, others⟩
    intro k known
    simpa [List.count_cons_of_ne (apart k known)] using once k known
  · rintro ⟨first, once, declared, others⟩
    refine ⟨?_, List.forall_mem_cons.mpr ⟨by simp [absent], declared⟩,
      List.forall_mem_cons.mpr ⟨fun _ => first, others⟩⟩
    intro k known
    simpa [List.count_cons_of_ne (apart k known)] using once k known

theorem passes_declared {key : String} {n : Node} {rest : List (String × Node)} {slot : Slot}
    (declared : slots.find? (·.key = key) = some slot) :
    Passes slots other seen ((key, n) :: rest) ↔
      key ∉ seen ∧ slot.check n = .ok () ∧ Passes slots other (key :: seen) rest := by
  have known : declares slots key = true := by simp [declares_eq_isSome, declared]
  constructor
  · rintro ⟨once, checks, others⟩
    obtain ⟨first, checks⟩ := List.forall_mem_cons.mp checks
    have new : key ∉ seen := by
      intro old
      simpa [old] using once key known
    refine ⟨new, first slot declared, ?_, checks, (List.forall_mem_cons.mp others).2⟩
    intro k declared
    have bound := once k declared
    by_cases same : key = k
    · subst same
      simpa [new] using bound
    · simpa [List.count_cons_of_ne same, Ne.symm same] using bound
  · rintro ⟨new, first, once, checks, others⟩
    refine ⟨?_, List.forall_mem_cons.mpr ⟨by simpa [declared] using first, checks⟩,
      List.forall_mem_cons.mpr ⟨by simp [known], others⟩⟩
    intro k declared
    have bound := once k declared
    by_cases same : key = k
    · subst same
      simpa [new] using bound
    · simpa [List.count_cons_of_ne same, Ne.symm same] using bound

/-- A sweep keeps all members, and passes just these. -/
theorem sweep_eq_ok_iff {members : List (Except Fault String × Node)}
    {found : List (String × Node)} :
    sweep slots other seen members = .ok found ↔
      members = named found ∧ Passes slots other seen found := by
  induction members generalizing seen found with
  | nil =>
    cases found with
    | nil => simp [sweep, named, Passes.mk]
    | cons p rest => simp [sweep, named]
  | cons m members ih =>
    obtain ⟨key, n⟩ := m
    cases key with
    | error f => cases found <;> simp [sweep, named, Except.mapError, bind, Except.bind]
    | ok key =>
      have step : sweep slots other seen ((.ok key, n) :: members) = .ok found ↔
          ∃ rest, found = (key, n) :: rest ∧ members = named rest ∧
            Passes slots other seen ((key, n) :: rest) := by
        simp only [sweep, Except.mapError, bind_eq_ok, Except.ok.injEq, exists_eq_left']
        cases declared : slots.find? (·.key = key) with
        | none =>
          have undeclared : declares slots key = false := by simp [declares_eq_isSome, declared]
          simp only [bind_eq_ok, ih, pure, Except.pure, Except.ok.injEq, passes_other undeclared]
          constructor
          · rintro ⟨_, first, rest, ⟨same, passes⟩, rfl⟩
            exact ⟨rest, rfl, same, first, passes⟩
          · rintro ⟨rest, rfl, same, first, passes⟩
            exact ⟨(), first, rest, ⟨same, passes⟩, rfl⟩
        | some slot =>
          by_cases old : key ∈ seen
          · simp [old, passes_declared declared, bind, Except.bind, throw, throwThe,
              MonadExceptOf.throw]
          · simp only [old, if_false, bind_eq_ok, ih, pure, Except.pure, Except.ok.injEq,
              passes_declared declared, not_false_eq_true, true_and]
            constructor
            · rintro ⟨_, first, rest, ⟨same, passes⟩, rfl⟩
              exact ⟨rest, rfl, same, first, passes⟩
            · rintro ⟨rest, rfl, same, first, passes⟩
              exact ⟨(), first, rest, ⟨same, passes⟩, rfl⟩
      rw [step]
      constructor
      · rintro ⟨rest, rfl, rfl, passes⟩
        exact ⟨rfl, passes⟩
      · rintro ⟨same, passes⟩
        cases found with
        | nil => cases same
        | cons p rest =>
          obtain ⟨k, value⟩ := p
          obtain ⟨head, rfl⟩ := List.cons.inj same
          obtain ⟨keys, rfl⟩ := Prod.mk.inj head
          obtain rfl := Except.ok.inj keys
          exact ⟨rest, rfl, rfl, passes⟩

/-- Members that all have different keys need only pass their checks. -/
theorem Passes.of_nodup {found : List (String × Node)} (once : (found.map (·.1)).Nodup)
    (declared : ∀ p ∈ found, ∀ slot ∈ slots, slot.key = p.1 → slot.check p.2 = .ok ())
    (others : ∀ p ∈ found, declares slots p.1 = false → other p.2 = .ok ()) :
    Passes slots other [] found where
  once key _ := by simpa using List.nodup_iff_count_le_one.mp once key
  declared p member slot known :=
    declared p member slot (List.mem_of_find?_eq_some known) (by simpa using List.find?_some known)
  others := others

theorem atEnd_eq_ok {ending : Ending} {u : Unit} : atEnd ending = .ok u ↔ ending = .closed := by
  cases ending with
  | closed => simp [atEnd]
  | stopped stop =>
    simp only [atEnd, reduceCtorEq, iff_false]
    split <;> simp

/-- An array is as long as the slots, or leaves out some at the end that are not required. -/
theorem arrange_eq_ok_iff {expected : String} {ending : Ending} {index : Nat} {items : List Node}
    {found : List (String × Node)} :
    arrange expected ending index slots items = .ok found ↔
      (ending = .closed ∧ items.length ≤ slots.length ∧
        (∀ slot ∈ slots.drop items.length, slot.required = false) ∧
        ∀ p ∈ slots.zip items, p.1.check p.2 = .ok ()) ∧
      found = (slots.map (·.key)).zip items := by
  induction slots generalizing index items found with
  | nil =>
    cases items with
    | nil =>
      simp only [arrange, bind_eq_ok, atEnd_eq_ok, pure, Except.pure, Except.ok.injEq]
      simp [eq_comm (b := found)]
    | cons n rest => simp [arrange]
  | cons slot slots ih =>
    cases items with
    | nil =>
      simp only [arrange, bind_eq_ok, check_eq_ok]
      cases required : slot.required with
      | true => simp [required, throw, throwThe, MonadExceptOf.throw, bind, Except.bind]
      | false => simpa [required, ih] using fun closed _ _ => closed
    | cons n rest =>
      simp only [arrange, bind_eq_ok, ih, pure, Except.pure, Except.ok.injEq, List.length_cons,
        Nat.add_le_add_iff_right, List.drop_succ_cons, List.zip_cons_cons, List.forall_mem_cons,
        List.map_cons]
      constructor
      · rintro ⟨_, first, _, ⟨⟨closed, short, absent, checks⟩, rfl⟩, rfl⟩
        exact ⟨⟨closed, short, absent, first, checks⟩, rfl⟩
      · rintro ⟨⟨closed, short, absent, first, checks⟩, rfl⟩
        exact ⟨(), first, _, ⟨⟨closed, short, absent, checks⟩, rfl⟩, rfl⟩
end Solr.Json.Record
