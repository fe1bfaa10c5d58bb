import Mathlib.Data.List.Basic
import Solr.Text.Utf8

/-! The order of texts by code points is that of their bytes: a greater character has a
greater lead byte, or the same and a greater byte after it. -/
namespace Solr.Text

/-- The order of texts by their bytes. -/
def Before (a b : String) : Prop :=
  utf8 a.toList < utf8 b.toList

theorem Before.ne {a b : String} (before : Before a b) : a ≠ b := by
  rintro rfl
  exact List.lt_irrefl _ before

theorem byte_lt {m n : Nat} (less : m < n) (bound : n < 0x100) (s t : List UInt8) :
    UInt8.ofNat m :: s < UInt8.ofNat n :: t := by
  have value (k : Nat) (small : k < 0x100) : (UInt8.ofNat k).toNat = k :=
    UInt8.toNat_ofNat_of_lt' small
  apply List.cons_lt_cons_iff.mpr
  left
  rw [UInt8.lt_iff_toNat_lt, value m (by omega), value n bound]
  exact less

/-- One byte after the other decides. -/
theorem bytes_lt {m n : Nat} {s t : List UInt8} (bound : n < 0x100) (least : m ≤ n)
    (later : m = n → s < t) : UInt8.ofNat m :: s < UInt8.ofNat n :: t := by
  rcases Nat.lt_or_eq_of_le least with less | same
  · exact byte_lt less bound s t
  · rw [same]
    exact List.cons_lt_cons_iff.mpr (.inr ⟨rfl, later same⟩)

theorem utf8EncodeChar_lt {c d : Char} (less : c < d) (s t : List UInt8) :
    String.utf8EncodeChar c ++ s < String.utf8EncodeChar d ++ t := by
  have valid : d.val.toNat < 0xd800 ∨ 0xdfff < d.val.toNat ∧ d.val.toNat < 0x110000 := d.valid
  have values : c.val.toNat < d.val.toNat := less
  unfold String.utf8EncodeChar
  dsimp only
  generalize c.val.toNat = v at values
  generalize d.val.toNat = w at values valid
  split
  · split
    · exact byte_lt values (by omega) _ _
    split
    · exact byte_lt (by omega) (by omega) _ _
    split <;> exact byte_lt (by omega) (by omega) _ _
  split
  · split
    · omega
    split
    · refine bytes_lt (by omega) (by omega) fun lead => ?_
      exact byte_lt (by omega) (by omega) _ _
    split <;> exact byte_lt (by omega) (by omega) _ _
  split
  · split
    · omega
    split
    · omega
    split
    · refine bytes_lt (by omega) (by omega) fun lead => ?_
      refine bytes_lt (by omega) (by omega) fun second => ?_
      exact byte_lt (by omega) (by omega) _ _
    · exact byte_lt (by omega) (by omega) _ _
  · split
    · omega
    split
    · omega
    split
    · omega
    · refine bytes_lt (by omega) (by omega) fun lead => ?_
      refine bytes_lt (by omega) (by omega) fun second => ?_
      refine bytes_lt (by omega) (by omega) fun third => ?_
      exact byte_lt (by omega) (by omega) _ _

theorem utf8_lt {s t : List Char} (less : s < t) : utf8 s < utf8 t := by
  induction s generalizing t with
  | nil =>
    cases t with
    | nil => exact absurd less (List.lt_irrefl [])
    | cons d t =>
      obtain ⟨b, bytes, lead⟩ := List.exists_cons_of_ne_nil (String.utf8EncodeChar_ne_nil (c := d))
      rw [utf8, utf8, List.flatMap_cons, lead]
      exact List.nil_lt_cons b _
  | cons c s ih =>
    cases t with
    | nil => exact absurd less (List.not_lt_nil _)
    | cons d t =>
      rcases List.cons_lt_cons_iff.mp less with head | ⟨rfl, tail⟩
      · exact utf8EncodeChar_lt head _ _
      · exact List.append_left_lt (ih tail)

theorem before_iff_lt (a b : String) : Before a b ↔ a < b := by
  rw [String.lt_iff]
  refine ⟨fun before => ?_, utf8_lt⟩
  rcases Std.lt_trichotomy a.toList b.toList with less | same | greater
  · exact less
  · rw [Before, same] at before
    exact absurd before (List.lt_irrefl _)
  · exact absurd (utf8_lt greater) (List.lt_asymm before)

end Solr.Text
