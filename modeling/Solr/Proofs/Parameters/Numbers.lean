import Mathlib.Data.List.Forall2
import Solr.Proofs.Json.WholeDoubles
import Solr.Proofs.Parameters

/-! The numbers among parameters. Integers, and whole doubles below `10 ^ 15`, are sent as
digits that denote them exactly; the conversion to 64 bits that the latter go through meets
neither a fraction nor an end of its range. Whole doubles from there on keep their JSON text,
which is no plain integer but reads back as the double. -/
namespace Solr

/-- The rational number that a number stands for, if it is finite. -/
def Number.value? : Number → Option ℚ
  | .integer i => some i
  | .double x => x.value?
  | .single x => x.value?

/-- The double as which a number is sent, unless it is an integer. -/
def Number.double? : Number → Option Double
  | .integer _ => none
  | .double x => some x
  | .single x => some x.convert

theorem Number.value?_of_double {n : Number} {x : Double} (sent : n.double? = some x) :
    n.value? = x.value? := by
  cases n with
  | integer i => cases sent
  | double y =>
    obtain rfl := Option.some.inj sent
    rfl
  | single y =>
    obtain rfl := Option.some.inj sent
    exact (Binary.value?_convert y).symm

namespace Parameters

theorem doubleText_converted {x : Double} {i : Int} (value : x.value? = some (i : ℚ))
    (small : i.natAbs < 10 ^ 15) : doubleText x = Text.integer x.toInt64 ∧ x.toInt64 = i := by
  have whole : x.isWhole := Binary.isWhole_iff.mpr ⟨i, value⟩
  have within : x.isWithin 1000000000000000 := (Binary.isWithin_iff value).mpr small
  refine ⟨if_pos ⟨whole, within⟩, Binary.toInt64_eq value ?_ ?_⟩ <;> omega

theorem doubleText_unconverted {x : Double}
    (other : ∀ i : Int, x.value? = some (i : ℚ) → 10 ^ 15 ≤ i.natAbs) :
    doubleText x = Json.doubleText x := by
  apply if_neg
  rintro ⟨whole, within⟩
  obtain ⟨i, value⟩ := Binary.isWhole_iff.mp whole
  exact absurd ((Binary.isWithin_iff value).mp within) (not_lt.mpr (other i value))

/-- What the text of a double that is a whole number has to be. -/
structure WholeText (x : Double) (i : Int) (s : List Char) : Prop where
  plain : i.natAbs < 10 ^ 15 → Text.IntegerText s i
  /-- The conversion is exact where it is made. -/
  converted : i.natAbs < 10 ^ 15 → s = Text.integer x.toInt64 ∧ x.toInt64 = i
  point : 10 ^ 15 ≤ i.natAbs → i.natAbs < 10 ^ 16 →
    ∃ t, Text.IntegerText t i ∧ s = t ++ ['.', '0']
  exponent : 10 ^ 16 ≤ i.natAbs → 'e' ∈ s
  notPlain : 10 ^ 15 ≤ i.natAbs → ∀ k, ¬ Text.IntegerText s k
  readBack : 10 ^ 15 ≤ i.natAbs →
    ∃ n : Json.Numeral, n.WellFormed ∧ n.text = s ∧ n.nearest = some (.double x)

theorem wholeText_doubleText {x : Double} {i : Int} (value : x.value? = some (i : ℚ)) :
    WholeText x i (doubleText x) := by
  have large (far : 10 ^ 15 ≤ i.natAbs) : doubleText x = Json.doubleText x := by
    refine doubleText_unconverted fun k same => ?_
    rw [value, Option.some.injEq, Int.cast_inj] at same
    exact same ▸ far
  have point (far : 10 ^ 15 ≤ i.natAbs) (near : i.natAbs < 10 ^ 16) :
      ∃ t, Text.IntegerText t i ∧ doubleText x = t ++ ['.', '0'] := by
    rw [large far]
    exact Json.doubleText_whole value near
  have exponent (far : 10 ^ 16 ≤ i.natAbs) : 'e' ∈ doubleText x := by
    rw [large (by omega)]
    exact Json.doubleText_large value far
  refine ⟨?_, doubleText_converted value, point, exponent, ?_, ?_⟩
  · intro small
    obtain ⟨text, same⟩ := doubleText_converted value small
    rw [text, same]
    exact Text.integerText_integer i
  · intro far k plain
    rcases lt_or_ge i.natAbs (10 ^ 16) with near | farther
    · obtain ⟨t, -, text⟩ := point far near
      have mark : '.' ∈ doubleText x := by simp [text]
      exact absurd (plain.chars mark) (by decide)
    · exact absurd (plain.chars (exponent farther)) (by decide)
  · intro far
    obtain ⟨n, wellFormed, text, -, nearest⟩ :=
      Json.doubleText_numeral (Binary.isFinite_of_value value)
    exact ⟨n, wellFormed, text.trans (large far).symm, nearest⟩

/-- What the text of a number has to be. -/
structure NumberText (n : Number) (s : List Char) : Prop where
  integer : ∀ i, n = .integer i → Text.IntegerText s i
  whole : ∀ x (i : Int), n.double? = some x → n.value? = some (i : ℚ) → WholeText x i s
  /-- All other doubles are sent without a conversion. -/
  unconverted : ∀ x, n.double? = some x →
    (∀ i : Int, n.value? = some (i : ℚ) → 10 ^ 15 ≤ i.natAbs) → s = Json.doubleText x

theorem numberText_eq {n : Number} {x : Double} (sent : n.double? = some x) :
    numberText n = doubleText x := by
  cases n with
  | integer i => cases sent
  | double y | single y => exact congrArg doubleText (Option.some.inj sent)

theorem numberText_denotes (n : Number) : NumberText n (numberText n) := by
  refine ⟨?_, ?_, ?_⟩
  · rintro i rfl
    exact Text.integerText_integer i
  · intro x i sent value
    rw [numberText_eq sent]
    exact wholeText_doubleText ((n.value?_of_double sent).symm.trans value)
  · intro x sent other
    rw [numberText_eq sent]
    rw [n.value?_of_double sent] at other
    exact doubleText_unconverted other

/-- The value that has a pair, if there is one. -/
def itemSources (j : Json) : List Json :=
  if j.isNull then [] else [j]

/-- The values under a key that have a pair each. -/
def valueSources : Json → List Json
  | .array items => items.flatMap itemSources
  | j => itemSources j

/-- The values that have a pair each, with their keys. -/
def sources (members : List (String × Json)) : List (String × Json) :=
  members.flatMap fun p => (valueSources p.2).map (p.1, ·)

/-- A text that is as it has to be if it is that of a number. -/
def Shows (j : Json) (s : String) : Prop :=
  ∀ n, j = .number n → NumberText n s.toList

theorem shows_item {j : Json} (simple : j.Simple) :
    List.Forall₂ Shows (itemSources j) (itemTexts j) := by
  cases j with
  | array | object => cases simple
  | null => exact .nil
  | boolean | string => exact .cons (fun n same => by cases same) .nil
  | number n =>
    refine .cons (fun k same => ?_) .nil
    obtain rfl := Json.number.inj same
    rw [String.toList_ofList]
    exact numberText_denotes n

theorem shows_items {items : List Json} (simple : ∀ j ∈ items, j.Simple) :
    List.Forall₂ Shows (items.flatMap itemSources) (items.flatMap itemTexts) := by
  induction items with
  | nil => exact .nil
  | cons j items ih =>
    obtain ⟨first, others⟩ := List.forall_mem_cons.mp simple
    exact List.rel_append (shows_item first) (ih others)

theorem shows_value {j : Json} (flat : j.Flat) :
    List.Forall₂ Shows (valueSources j) (texts j) := by
  cases j with
  | array items => exact shows_items flat
  | object => cases flat
  | null | boolean | number | string => exact shows_item flat

theorem shows_pairs {members : List (String × Json)} (flat : ∀ p ∈ members, p.2.Flat) :
    List.Forall₂ (fun source pair => pair.1 = source.1 ∧ Shows source.2 pair.2)
      (sources members) (pairs members) := by
  induction members with
  | nil => exact .nil
  | cons p members ih =>
    obtain ⟨first, others⟩ := List.forall_mem_cons.mp flat
    refine List.rel_append ?_ (ih others)
    rw [List.forall₂_map_left_iff, List.forall₂_map_right_iff]
    exact (shows_value first).imp fun _ _ shown => ⟨rfl, shown⟩

/-- Each pair comes from one value, in their order. Where this is a number its text denotes it
digit by digit, for integers and for whole doubles below `10 ^ 15`; a whole double from there
on has its JSON text. -/
theorem whole_numbers_sent {j : Json} {parameters : Parameters}
    (done : flatten j = .ok parameters) :
    ∃ members entries, j = .object members ∧ Entries.Listing members entries ∧
      List.Forall₂ (fun source pair => pair.1 = source.1 ∧
        ∀ n, source.2 = .number n → NumberText n pair.2.toList) (sources entries) parameters := by
  obtain ⟨members, entries, rfl, listing, flat, rfl⟩ := flatten_eq_ok_iff.mp done
  exact ⟨members, entries, rfl, listing, shows_pairs flat⟩

theorem whole_numbers_sent_mixed : ∃ (j : Json) (parameters : Parameters),
    j = .object [("n", .array [.number (.double (.ofInt (-5))), .null,
        .number (.integer 18446744073709551615), .number (.double (.zero true))]),
      ("d", .number (.double (.ofNat 1000000000000000))),
      ("c", .number (.double (.ofNat 999999999999999))),
      ("e", .number (.single (.ofNat 16777216)))] ∧
    parameters = [("c", "999999999999999"), ("d", "1000000000000000.0"), ("e", "16777216"),
      ("n", "-5"), ("n", "18446744073709551615"), ("n", "0")] ∧
    flatten j = .ok parameters ∧
    ∃ members entries, j = .object members ∧ Entries.Listing members entries ∧
      List.Forall₂ (fun source pair => pair.1 = source.1 ∧
        ∀ n, source.2 = .number n → NumberText n pair.2.toList) (sources entries) parameters := by
  refine ⟨_, _, rfl, rfl, ?_, whole_numbers_sent ?_⟩ <;> decide +kernel

/-- The first whole double that is not sent as an integer. -/
theorem whole_double_with_point :
    (Binary.ofNat 1000000000000000 : Double).value? = some ((1000000000000000 : Int) : ℚ) ∧
      flatten (.object [("d", .number (.double (.ofNat 1000000000000000)))]) =
        .ok [("d", "1000000000000000.0")] ∧
      ∀ i, ¬ Text.IntegerText "1000000000000000.0".toList i := by
  refine ⟨?_, by decide +kernel, fun i text => ?_⟩
  · have data : (Binary.ofNat 1000000000000000 : Double) =
        .finite false 8000000000000000 (-3) (by decide) := by decide +kernel
    rw [data]
    norm_num [Binary.value?, signed]
  · have mark : '.' ∈ "1000000000000000.0".toList := by decide
    exact absurd (text.chars mark) (by decide)

end Parameters
end Solr
