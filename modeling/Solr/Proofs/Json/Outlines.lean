import Solr.Proofs.Json.Values

/-! What the outline of an answer can hold: whole numbers of 64 bits, finite doubles, and
arrays and objects no deeper than the reader admits. Of a value that is no more than this,
the text is read again as the same value, if only its doubles are. -/
namespace Solr

namespace Number

/-- A number as the reader of answers finds it. -/
def Plain : Number → Prop
  | .integer i => -0x8000000000000000 ≤ i ∧ i ≤ 0xffffffffffffffff
  | .double x => x.isFinite
  | .single _ => False

/-- The number that a text is for the reader of answers. -/
def readQuick? (s : List Char) : Option Number :=
  match Json.Numeral.scan s with
  | .ok (n, []) => n.quick
  | _ => none

/-- What is written for a double is read as this double. -/
def isSteady : Number → Bool
  | .double x => readQuick? (Json.doubleText x) = some (.double x)
  | .integer _ | .single _ => true

end Number

namespace Json

namespace Numeral

theorem integer?_bounds {n : Numeral} {i : Int} (whole : n.integer? = some i) :
    -0x8000000000000000 ≤ i ∧ i ≤ 0xffffffffffffffff := by
  unfold integer? at whole
  dsimp only at whole
  split at whole
  · cases whole
  · split at whole
    · split at whole
      · obtain rfl := Option.some.inj whole
        omega
      · cases whole
    · split at whole
      · obtain rfl := Option.some.inj whole
        omega
      · cases whole

theorem integer?_ofInt {i : Int} (least : -0x8000000000000000 ≤ i)
    (greatest : i ≤ 0xffffffffffffffff) : (ofInt i).integer? = some i := by
  by_cases negative : i < 0
  · have positive : 0 < i.natAbs := by omega
    have bounded : i.natAbs ≤ 0x8000000000000000 := by omega
    have value : -(i.natAbs : Int) = i := by omega
    simp only [integer?, isInteger, ofInt, Text.digitsValue_digits, negative, positive, bounded,
      value, decide_true, Bool.and_true, Bool.not_true, and_self, if_true, Bool.false_eq_true,
      if_false]
  · have bounded : i.natAbs < 0x10000000000000000 := by omega
    have value : (i.natAbs : Int) = i := by omega
    simp only [integer?, isInteger, ofInt, Text.digitsValue_digits, negative, bounded, value,
      decide_true, decide_false, Bool.and_true, Bool.not_true, if_true, Bool.false_eq_true,
      if_false]

theorem scaled_finite {negative : Bool} {significand : Nat} {exponent : Int} {x : Double}
    (result : scaled negative significand exponent = some x) : x.isFinite := by
  unfold scaled at result
  dsimp only at result
  generalize (if significand = 0 then _ else _ : Double) = y at result
  cases finite : y.isFinite with
  | false => simp [finite] at result
  | true =>
    obtain rfl := Option.some.inj (by simpa [finite] using result)
    cases negative with
    | false => exact finite
    | true => cases y <;> exact finite

theorem zero_finite (negative : Bool) : (Binary.zero negative : Double).isFinite :=
  Binary.isFinite_pack negative (by decide) le_rfl (by decide) (Nat.zero_le _) (.inr rfl)

theorem plain_quick {n : Numeral} {v : Number} (found : n.quick = some v) : v.Plain := by
  unfold quick at found
  split at found
  · rename_i i whole
    obtain rfl := Option.some.inj found
    exact integer?_bounds whole
  · dsimp only at found
    split at found
    · obtain ⟨x, result, rfl⟩ := Option.map_eq_some_iff.mp found
      exact scaled_finite result
    · split at found
      · obtain rfl := Option.some.inj found
        exact zero_finite n.negative
      · cases found

end Numeral

theorem legible_number {n : Number} (plain : n.Plain) (steady : n.isSteady)
    (depth : Option Nat) : Legible .service depth (.number n) := by
  cases n with
  | integer i =>
    refine ⟨.ofInt i, Numeral.wellFormed_ofInt i, Numeral.text_ofInt i, ?_⟩
    have whole := Numeral.integer?_ofInt plain.1 plain.2
    simp only [Dialect.service, Numeral.quick, whole]
  | double x =>
    obtain ⟨n, wellFormed, text, -⟩ := binaryText_numeral .double plain
    refine ⟨n, wellFormed, text, ?_⟩
    have scanned : Numeral.scan (n.text ++ []) = .ok (n, []) := Numeral.scan_text wellFormed trivial
    rw [List.append_nil, text] at scanned
    have read := of_decide_eq_true steady
    simpa only [Number.readQuick?, doubleText, scanned, Dialect.service] using read
  | single x => exact plain.elim

mutual

/-- An outline with plain numbers, and with so many levels of arrays and objects at most. -/
def Node.Within (depth : Nat) : Node → Prop
  | .number n => n.Plain
  | .array items _ => 0 < depth ∧ WithinItems (depth - 1) items
  | .object members _ => 0 < depth ∧ WithinMembers (depth - 1) members
  | .null | .boolean _ | .string _ | .unreadable .. => True

def WithinItems (depth : Nat) : List Node → Prop
  | [] => True
  | n :: rest => Node.Within depth n ∧ WithinItems depth rest

def WithinMembers (depth : Nat) : List (Except Fault String × Node) → Prop
  | [] => True
  | (_, n) :: rest => Node.Within depth n ∧ WithinMembers depth rest

end

theorem withinItems_iff {depth : Nat} {items : List Node} :
    WithinItems depth items ↔ ∀ n ∈ items, n.Within depth := by
  induction items with
  | nil => simp [WithinItems]
  | cons n rest ih => simp [WithinItems, ih]

theorem withinMembers_iff {depth : Nat} {members : List (Except Fault String × Node)} :
    WithinMembers depth members ↔ ∀ p ∈ members, p.2.Within depth := by
  induction members with
  | nil => simp [WithinMembers]
  | cons p rest ih => simp [WithinMembers, ih]

/-- Beyond the depth that is admitted nothing can be read. -/
theorem within_limited {depth : Nat} {n : Node} (within : 0 < depth → n.Within depth) :
    (limited (some depth) n).Within depth := by
  unfold limited
  split
  · trivial
  · rename_i deeper
    exact within (Nat.pos_of_ne_zero fun zero => deeper (congrArg some zero))

mutual

theorem within_scanValue : ∀ (fuel depth : Nat) (s : List Char),
    (scanValue .service fuel (some depth) s).1.Within depth
  | 0, _, _ => trivial
  | fuel + 1, depth, s => by
    unfold scanValue
    dsimp only
    split
    · trivial
    · rename_i c r _
      split
      · split <;> trivial
      split
      · split <;> trivial
      split
      · split <;> trivial
      split
      · split <;> trivial
      split
      · split
        · split
          · rename_i found
            exact Numeral.plain_quick found
          · trivial
        · trivial
      split
      · exact within_limited fun positive =>
          ⟨positive, within_scanItems fuel (depth - 1) .first r⟩
      split
      · exact within_limited fun positive =>
          ⟨positive, within_scanMembers fuel (depth - 1) .first r⟩
      · trivial

theorem within_scanItems : ∀ (fuel depth : Nat) (place : Place) (s : List Char),
    WithinItems depth (scanItems .service fuel (some depth) place s).1
  | 0, _, _, _ => trivial
  | fuel + 1, depth, place, s => by
    unfold scanItems
    split
    · trivial
    · trivial
    · rename_i s _ _
      have first := within_scanValue fuel depth s
      split
      · rename_i n scanned
        rw [scanned] at first
        exact ⟨first, trivial⟩
      · rename_i n s scanned
        rw [scanned] at first
        exact ⟨first, within_scanItems fuel depth .next s⟩

theorem within_scanMembers : ∀ (fuel depth : Nat) (place : Place) (s : List Char),
    WithinMembers depth (scanMembers .service fuel (some depth) place s).1
  | 0, _, _, _ => trivial
  | fuel + 1, depth, place, s => by
    unfold scanMembers
    split
    · trivial
    · trivial
    · split
      · trivial
      · split
        · exact ⟨trivial, trivial⟩
        · rename_i s _
          have first := within_scanValue fuel depth s
          split
          · rename_i n scanned
            rw [scanned] at first
            exact ⟨first, trivial⟩
          · rename_i n s scanned
            rw [scanned] at first
            exact ⟨first, within_scanMembers fuel depth .next s⟩

end

/-- The outline of an answer. -/
theorem within_outline (text : String) : (outline .service text).root.Within 127 := by
  have within : (scanValue .service (2 * text.toList.length + 2) Dialect.service.nesting
      text.toList).1.Within 127 := within_scanValue _ 127 _
  unfold outline
  dsimp only
  split
  · rename_i scanned
    rwa [scanned] at within
  · rename_i scanned
    rwa [scanned] at within

mutual

theorem legible_of_within : ∀ {depth : Nat} {j : Json}, (Node.ofJson j).Within depth →
    j.Every Number.isSteady → Legible .service (some depth) j
  | _, .null, _, _ | _, .boolean _, _, _ | _, .string _, _, _ => trivial
  | _, .number _, plain, steady => legible_number plain steady _
  | _, .array _, ⟨positive, within⟩, steady =>
    ⟨by simp only [ne_eq, Option.some.injEq]; omega, legibleItems_of_within within steady⟩
  | _, .object _, ⟨positive, within⟩, steady =>
    ⟨by simp only [ne_eq, Option.some.injEq]; omega, legibleMembers_of_within within steady⟩

theorem legibleItems_of_within : ∀ {depth : Nat} {items : List Json},
    WithinItems depth (ofItems items) → EveryItem Number.isSteady items →
    LegibleItems .service (some depth) items
  | _, [], _, _ => trivial
  | _, _ :: _, ⟨first, others⟩, ⟨steady, more⟩ =>
    ⟨legible_of_within first steady, legibleItems_of_within others more⟩

theorem legibleMembers_of_within : ∀ {depth : Nat} {members : List (String × Json)},
    WithinMembers depth (ofMembers members) → EveryMember Number.isSteady members →
    LegibleMembers .service (some depth) members
  | _, [], _, _ => trivial
  | _, (_, _) :: _, ⟨first, others⟩, ⟨steady, more⟩ =>
    ⟨legible_of_within first steady, legibleMembers_of_within others more⟩

end

/-- The outline of a compact text, read as an answer. -/
theorem outline_service {j : Json} (within : (Node.ofJson j).Within 127)
    (steady : j.Every Number.isSteady) :
    outline .service j.compact = ⟨Node.ofJson j, none⟩ :=
  outline_compact (legible_of_within within steady)

end Json
end Solr
