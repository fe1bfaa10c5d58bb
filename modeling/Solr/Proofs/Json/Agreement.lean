import Solr.Proofs.Json.Canonical
import Solr.Proofs.Json.Precision
import Solr.Proofs.Json.Shape

/-! Files of values. What a file holds is what its reader shows of it, and a reader without
bounds shows the same: the same values in the same places, and whole numbers of 64 bits
exactly. How close other numbers come to their text is not looked at. -/
namespace Solr

/-- A number of a text, and what is kept of it: a whole number of 64 bits stays as it is. -/
def Number.Keeps : Number → Number → Prop
  | .integer i, .integer k => i = k ∧ -0x8000000000000000 ≤ i ∧ i ≤ 0xffffffffffffffff
  | .integer i, .double x => ¬ (-0x8000000000000000 ≤ i ∧ i ≤ 0xffffffffffffffff) ∧ x.isFinite
  | .double _, .double x => x.isFinite
  | _, _ => False

namespace Json

mutual

/-- The same value up to the numbers, and these are kept. -/
def Keeps : Json → Json → Prop
  | .null, .null => True
  | .boolean a, .boolean b => a = b
  | .number a, .number b => a.Keeps b
  | .string s, .string t => s = t
  | .array as, .array bs => KeepsItems as bs
  | .object as, .object bs => KeepsMembers as bs
  | _, _ => False

def KeepsItems : List Json → List Json → Prop
  | [], [] => True
  | a :: as, b :: bs => Keeps a b ∧ KeepsItems as bs
  | _, _ => False

def KeepsMembers : List (String × Json) → List (String × Json) → Prop
  | [], [] => True
  | (k, a) :: as, (l, b) :: bs => k = l ∧ Keeps a b ∧ KeepsMembers as bs
  | _, _ => False

end

section Files

mutual

/-- An outline that shows a value is the outline of that value. -/
theorem eq_ofJson : ∀ {n : Node} {j : Json}, n.json? = some j → n = Node.ofJson j
  | .null, _, shown | .boolean _, _, shown | .string _, _, shown | .number _, _, shown => by
    obtain rfl := Option.some.inj shown
    rfl
  | .array _ .closed, _, shown => by
    obtain ⟨raw, found, rfl⟩ := Option.map_eq_some_iff.mp shown
    rw [eq_ofItems found]
    rfl
  | .object _ .closed, _, shown => by
    obtain ⟨raw, found, rfl⟩ := Option.map_eq_some_iff.mp shown
    rw [eq_ofMembers found]
    rfl
  | .array _ (.stopped _), _, shown | .object _ (.stopped _), _, shown
  | .unreadable _ _, _, shown => by cases shown

theorem eq_ofItems : ∀ {items : List Node} {js : List Json}, items? items = some js →
    items = ofItems js
  | [], _, shown => by
    obtain rfl := Option.some.inj shown
    rfl
  | _ :: _, _, shown => by
    simp only [items?, Option.bind_eq_bind, Option.bind_eq_some_iff] at shown
    obtain ⟨j, here, js, there, same⟩ := shown
    obtain rfl := Option.some.inj same
    rw [eq_ofJson here, eq_ofItems there]
    rfl

theorem eq_ofMembers : ∀ {members : List (Except Fault String × Node)}
    {js : List (String × Json)}, members? members = some js → members = ofMembers js
  | [], _, shown => by
    obtain rfl := Option.some.inj shown
    rfl
  | (.ok _, _) :: _, _, shown => by
    simp only [members?, Option.bind_eq_bind, Option.bind_eq_some_iff] at shown
    obtain ⟨j, here, js, there, same⟩ := shown
    obtain rfl := Option.some.inj same
    rw [eq_ofJson here, eq_ofMembers there]
    rfl
  | (.error _, _) :: _, _, shown => by cases shown

end

theorem readIn?_eq_some_iff {d : Dialect} {text : String} {j : Json} :
    readIn? d text = some j ↔ outline d text = ⟨Node.ofJson j, none⟩ := by
  unfold readIn?
  constructor
  · intro read
    split at read
    · rename_i root outlined
      rw [outlined, eq_ofJson read]
    · cases read
  · intro outlined
    rw [outlined]
    exact json?_ofJson j

theorem within_read {text : String} {j : Json} (read : readIn? .service text = some j) :
    (Node.ofJson j).Within 127 := by
  have within := within_outline text
  rwa [readIn?_eq_some_iff.mp read] at within

/-- A value is read in its canonical form. -/
theorem value_canonical {j : Json} {depth : Nat} (within : (Node.ofJson j).Within depth) :
    Decode.value (.ofJson j) = .ok j.canonical := by
  obtain ⟨k, read⟩ := value_ofJson j
  have same := canonical_of_value _ within read
  rw [json?_ofJson] at same
  obtain rfl := Option.some.inj same
  exact read

theorem list_eq_array {n : Node} {documents : List Json} :
    Decode.list Decode.value n = .ok documents ↔ Decode.value n = .ok (.array documents) := by
  rw [Decode.list_eq_ok]
  cases n with
  | array items ending =>
    rw [Decode.value_array_eq_ok]
    constructor
    · rintro ⟨_, same, each⟩
      cases same
      exact ⟨rfl, documents, rfl, each⟩
    · rintro ⟨rfl, _, same, each⟩
      cases same
      exact ⟨items, rfl, each⟩
  | object members ending =>
    refine iff_of_false nofun fun read => ?_
    obtain ⟨-, pairs, same, -⟩ := Decode.value_object_eq_ok.mp read
    cases same
  | null | boolean | number | string | unreadable =>
    exact iff_of_false nofun fun read => by cases read

theorem array_of_canonical {j : Json} {documents : List Json}
    (same : j.canonical = .array documents) :
    ∃ items, j = .array items ∧ documents = items.map canonical := by
  cases j with
  | array items =>
    rw [canonical, canonicalItems_eq_map] at same
    cases same
    exact ⟨items, rfl, rfl⟩
  | number n => cases n <;> cases same
  | null | boolean | string | object => cases same

/-- A text is read as a list of values exactly when it shows an array. -/
theorem decodeText_values {text : String} {documents : List Json} :
    decodeText (Decode.list Decode.value) .service text = .ok documents ↔
      ∃ items, readIn? .service text = some (.array items) ∧ documents = items.map canonical := by
  rw [decodeText_eq_ok, list_eq_array]
  constructor
  · rintro ⟨found, ended⟩
    obtain ⟨j, shown, same⟩ :=
      Option.map_eq_some_iff.mp (canonical_of_value _ (within_outline text) found)
    obtain ⟨items, rfl, rfl⟩ := array_of_canonical same
    refine ⟨items, readIn?_eq_some_iff.mpr ?_, rfl⟩
    rw [← eq_ofJson shown, ← ended]
  · rintro ⟨items, read, rfl⟩
    rw [readIn?_eq_some_iff.mp read]
    refine ⟨?_, rfl⟩
    rw [value_canonical (within_read read), canonical, canonicalItems_eq_map]

end Files

section Numbers

namespace Numeral

/-- A whole number of 64 bits is read as such, and no other. -/
theorem integer?_eq_some_iff {n : Numeral} {i : Int} :
    n.integer? = some i ↔
      n.whole? = some i ∧ -0x8000000000000000 ≤ i ∧ i ≤ 0xffffffffffffffff := by
  constructor
  · intro bounded
    refine ⟨?_, integer?_bounds bounded⟩
    unfold integer? at bounded
    unfold whole?
    grind
  · rintro ⟨whole, bounds⟩
    unfold whole? at whole
    unfold integer?
    grind

/-- A number that is no whole number of 64 bits is read as a double. -/
theorem quick_other {n : Numeral} {v : Number} (found : n.quick = some v)
    (other : n.integer? = none) : ∃ x : Double, v = .double x ∧ x.isFinite := by
  have plain := plain_quick found
  unfold quick at found
  rw [other] at found
  dsimp only at found
  split at found
  · obtain ⟨x, -, rfl⟩ := Option.map_eq_some_iff.mp found
    exact ⟨x, rfl, plain⟩
  · split at found
    · obtain rfl := Option.some.inj found
      exact ⟨_, rfl, plain⟩
    · cases found

theorem keeps_quick {n : Numeral} {v w : Number} (found : n.quick = some v)
    (exact : (Dialect.rounding .double .double).number n = some w) : w.Keeps v := by
  have exact := Option.some.inj exact
  cases bounded : n.integer? with
  | some i =>
    obtain ⟨whole, bounds⟩ := integer?_eq_some_iff.mp bounded
    rw [quick, bounded] at found
    obtain rfl := Option.some.inj found
    rw [whole] at exact
    rw [← exact]
    exact ⟨rfl, bounds⟩
  | none =>
    obtain ⟨x, rfl, finite⟩ := quick_other found bounded
    rw [← exact]
    cases whole : n.whole? with
    | none => exact finite
    | some i =>
      refine ⟨fun bounds => ?_, finite⟩
      rw [integer?_eq_some_iff.mpr ⟨whole, bounds⟩] at bounded
      cases bounded

end Numeral

/-- What the one outline shows the other one shows too. -/
def Shown (m n : Node) : Prop :=
  ∀ j, n.json? = some j → ∃ k, m.json? = some k ∧ k.Keeps j

def ShownItems (ms ns : List Node) : Prop :=
  ∀ js, items? ns = some js → ∃ ks, items? ms = some ks ∧ KeepsItems ks js

def ShownMembers (ms ns : List (Except Fault String × Node)) : Prop :=
  ∀ js, members? ns = some js → ∃ ks, members? ms = some ks ∧ KeepsMembers ks js

theorem shown_ofStop (m : Node) (stop : Stop) : Shown m (.ofStop stop) :=
  fun _ shown => by cases shown

/-- A value in which no number stands is shown as it is. -/
theorem shown_self {n : Node} {j : Json} (only : n.json? = some j) (kept : j.Keeps j) :
    Shown n n := by
  intro k shown
  obtain rfl := Option.some.inj (only.symm.trans shown)
  exact ⟨j, only, kept⟩

theorem shown_word (w : List Char) (r : List Char) {n : Node} {j : Json}
    (only : n.json? = some j) (kept : j.Keeps j) :
    Shown (match scanWord w r with
      | .ok rest => (n, some rest)
      | .error f => (.ofStop (.both f), none) : Node × Option (List Char)).1
    (match scanWord w r with
      | .ok rest => (n, some rest)
      | .error f => (.ofStop (.both f), none) : Node × Option (List Char)).1 := by
  cases scanWord w r with
  | error f => exact shown_ofStop _ _
  | ok rest => exact shown_self only kept

theorem shownItems_nil : ShownItems [] [] := by
  intro js shown
  obtain rfl := Option.some.inj shown
  exact ⟨[], rfl, trivial⟩

theorem shownItems_cons {m n : Node} {ms ns : List Node} (first : Shown m n)
    (others : ShownItems ms ns) : ShownItems (m :: ms) (n :: ns) := by
  intro js shown
  simp only [items?, Option.bind_eq_bind, Option.bind_eq_some_iff] at shown
  obtain ⟨j, here, js, there, same⟩ := shown
  obtain rfl := Option.some.inj same
  obtain ⟨k, found, kept⟩ := first j here
  obtain ⟨ks, more, keeps⟩ := others js there
  exact ⟨k :: ks, by simp [items?, found, more], kept, keeps⟩

theorem shownMembers_nil : ShownMembers [] [] := by
  intro js shown
  obtain rfl := Option.some.inj shown
  exact ⟨[], rfl, trivial⟩

theorem shownMembers_cons (key : Except Fault String) {m n : Node}
    {ms ns : List (Except Fault String × Node)} (first : Shown m n) (others : ShownMembers ms ns) :
    ShownMembers ((key, m) :: ms) ((key, n) :: ns) := by
  intro js shown
  cases key with
  | error f => cases shown
  | ok key =>
    simp only [members?, Option.bind_eq_bind, Option.bind_eq_some_iff] at shown
    obtain ⟨j, here, js, there, same⟩ := shown
    obtain rfl := Option.some.inj same
    obtain ⟨k, found, kept⟩ := first j here
    obtain ⟨ks, more, keeps⟩ := others js there
    exact ⟨(key, k) :: ks, by simp [members?, found, more], rfl, kept, keeps⟩

theorem shown_array {ms ns : List Node} (shown : ShownItems ms ns) (ending : Ending)
    (depth : Option Nat) :
    Shown (limited none (.array ms ending)) (limited depth (.array ns ending)) := by
  intro j found
  unfold limited at found ⊢
  split at found
  · cases found
  · cases ending with
    | stopped stop => cases found
    | closed =>
      obtain ⟨js, there, rfl⟩ := Option.map_eq_some_iff.mp found
      obtain ⟨ks, here, kept⟩ := shown js there
      exact ⟨.array ks, by simp [Node.json?, here], kept⟩

theorem shown_object {ms ns : List (Except Fault String × Node)} (shown : ShownMembers ms ns)
    (ending : Ending) (depth : Option Nat) :
    Shown (limited none (.object ms ending)) (limited depth (.object ns ending)) := by
  intro j found
  unfold limited at found ⊢
  split at found
  · cases found
  · cases ending with
    | stopped stop => cases found
    | closed =>
      obtain ⟨js, there, rfl⟩ := Option.map_eq_some_iff.mp found
      obtain ⟨ks, here, kept⟩ := shown js there
      exact ⟨.object ks, by simp [Node.json?, here], kept⟩

mutual

/-- Both readers go equally far, and what the bounded one shows the other shows too. -/
theorem shown_scanValue : ∀ (fuel : Nat) (depth : Option Nat) (s : List Char),
    (scanValue (.rounding .double .double) fuel none s).2 = (scanValue .service fuel depth s).2 ∧
      Shown (scanValue (.rounding .double .double) fuel none s).1
        (scanValue .service fuel depth s).1
  | 0, _, _ => ⟨rfl, shown_ofStop _ _⟩
  | fuel + 1, depth, s => by
    unfold scanValue
    dsimp only
    cases skipBlank s with
    | nil => exact ⟨rfl, shown_ofStop _ _⟩
    | cons c r =>
      dsimp only
      split
      · exact ⟨rfl, shown_word _ r rfl trivial⟩
      split
      · exact ⟨rfl, shown_word _ r rfl rfl⟩
      split
      · exact ⟨rfl, shown_word _ r rfl rfl⟩
      split
      · cases scanText r with
        | error stop => exact ⟨rfl, shown_ofStop _ _⟩
        | ok p =>
          obtain ⟨text, rest⟩ := p
          cases text with
          | error f => exact ⟨rfl, fun _ shown => by cases shown⟩
          | ok text => exact ⟨rfl, shown_self rfl rfl⟩
      split
      · cases Numeral.scan (c :: r) with
        | error stop => exact ⟨rfl, shown_ofStop _ _⟩
        | ok p =>
          obtain ⟨n, rest⟩ := p
          dsimp only [Dialect.service]
          cases found : n.quick with
          | none => exact ⟨rfl, fun _ shown => by cases shown⟩
          | some v =>
            refine ⟨rfl, fun j shown => ?_⟩
            obtain rfl := Option.some.inj shown
            exact ⟨_, rfl, Numeral.keeps_quick found rfl⟩
      -- The rests are compared as well: from there both readers go on.
      split
      · obtain ⟨same, shown⟩ := shown_scanItems fuel (depth.map (· - 1)) .first r
        simp only [Option.map_none]
        generalize scanItems (.rounding .double .double) fuel none .first r = exact at same shown ⊢
        generalize scanItems .service fuel (depth.map (· - 1)) .first r = bounded at same shown ⊢
        obtain ⟨ms, ending, rest⟩ := exact
        obtain ⟨ns, ending', rest'⟩ := bounded
        cases same
        exact ⟨rfl, shown_array shown ending depth⟩
      split
      · obtain ⟨same, shown⟩ := shown_scanMembers fuel (depth.map (· - 1)) .first r
        simp only [Option.map_none]
        generalize scanMembers (.rounding .double .double) fuel none .first r = exact at same shown ⊢
        generalize scanMembers .service fuel (depth.map (· - 1)) .first r = bounded at same shown ⊢
        obtain ⟨ms, ending, rest⟩ := exact
        obtain ⟨ns, ending', rest'⟩ := bounded
        cases same
        exact ⟨rfl, shown_object shown ending depth⟩
      · exact ⟨rfl, shown_ofStop _ _⟩

theorem shown_scanItems : ∀ (fuel : Nat) (depth : Option Nat) (place : Place) (s : List Char),
    (scanItems (.rounding .double .double) fuel none place s).2 =
        (scanItems .service fuel depth place s).2 ∧
      ShownItems (scanItems (.rounding .double .double) fuel none place s).1
        (scanItems .service fuel depth place s).1
  | 0, _, _, _ => ⟨rfl, shownItems_nil⟩
  | fuel + 1, depth, place, s => by
    unfold scanItems
    split
    · exact ⟨rfl, shownItems_nil⟩
    · exact ⟨rfl, shownItems_nil⟩
    · rename_i s _ _
      obtain ⟨same, shown⟩ := shown_scanValue fuel depth s
      generalize scanValue (.rounding .double .double) fuel none s = exact at same shown ⊢
      generalize scanValue .service fuel depth s = bounded at same shown ⊢
      obtain ⟨m, rest⟩ := exact
      obtain ⟨n, rest'⟩ := bounded
      cases same
      cases rest with
      | none => exact ⟨rfl, shownItems_cons shown shownItems_nil⟩
      | some rest =>
        obtain ⟨same, others⟩ := shown_scanItems fuel depth .next rest
        exact ⟨same, shownItems_cons shown others⟩

theorem shown_scanMembers : ∀ (fuel : Nat) (depth : Option Nat) (place : Place) (s : List Char),
    (scanMembers (.rounding .double .double) fuel none place s).2 =
        (scanMembers .service fuel depth place s).2 ∧
      ShownMembers (scanMembers (.rounding .double .double) fuel none place s).1
        (scanMembers .service fuel depth place s).1
  | 0, _, _, _ => ⟨rfl, shownMembers_nil⟩
  | fuel + 1, depth, place, s => by
    unfold scanMembers
    split
    · exact ⟨rfl, shownMembers_nil⟩
    · exact ⟨rfl, shownMembers_nil⟩
    · split
      · exact ⟨rfl, shownMembers_nil⟩
      · rename_i key _ _
        split
        · exact ⟨rfl, shownMembers_cons key (shown_ofStop _ _) shownMembers_nil⟩
        · rename_i s _
          obtain ⟨same, shown⟩ := shown_scanValue fuel depth s
          generalize scanValue (.rounding .double .double) fuel none s = exact at same shown ⊢
          generalize scanValue .service fuel depth s = bounded at same shown ⊢
          obtain ⟨m, rest⟩ := exact
          obtain ⟨n, rest'⟩ := bounded
          cases same
          cases rest with
          | none => exact ⟨rfl, shownMembers_cons key shown shownMembers_nil⟩
          | some rest =>
            obtain ⟨same, others⟩ := shown_scanMembers fuel depth .next rest
            exact ⟨same, shownMembers_cons key shown others⟩

end

theorem shown_outline (text : String) :
    (outline (.rounding .double .double) text).trailing = (outline .service text).trailing ∧
      Shown (outline (.rounding .double .double) text).root (outline .service text).root := by
  obtain ⟨same, shows⟩ :=
    shown_scanValue (2 * text.toList.length + 2) Dialect.service.nesting text.toList
  have unbounded : (Dialect.rounding .double .double).nesting = none := rfl
  rw [outline, outline, unbounded]
  generalize scanValue (.rounding .double .double) (2 * text.toList.length + 2) none text.toList =
    exact at same shows ⊢
  generalize scanValue .service (2 * text.toList.length + 2) Dialect.service.nesting text.toList =
    bounded at same shows ⊢
  obtain ⟨m, rest⟩ := exact
  obtain ⟨n, rest'⟩ := bounded
  cases same
  cases rest with
  | none => exact ⟨rfl, shows⟩
  | some rest => exact ⟨rfl, shows⟩

/-- Of a text that is read, the reader without bounds reads the same value, up to numbers that
are no whole numbers of 64 bits. -/
theorem readIn?_keeps {text : String} {j : Json} (read : readIn? .service text = some j) :
    ∃ k, readIn? (.rounding .double .double) text = some k ∧ k.Keeps j := by
  obtain ⟨same, shows⟩ := shown_outline text
  rw [readIn?_eq_some_iff.mp read] at same shows
  obtain ⟨k, found, kept⟩ := shows j (json?_ofJson j)
  have ended : (outline (.rounding .double .double) text).trailing = none := same
  refine ⟨k, readIn?_eq_some_iff.mpr ?_, kept⟩
  rw [← eq_ofJson found, ← ended]

end Numbers

end Json
end Solr
