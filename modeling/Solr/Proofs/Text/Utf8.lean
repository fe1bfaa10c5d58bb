import Solr.Text.Utf8

/-! A text is read back from its bytes: each character from its lead byte and from the
bytes that continue it. -/
namespace Solr.Text

theorem lead_one : ∀ n < 0x80, Lead.of (UInt8.ofNat n) = .character (Char.ofNat n) := by
  decide

theorem lead_two : ∀ n < 0x20, 2 ≤ n →
    Lead.of (UInt8.ofNat (n + 0xc0)) = .opening ⟨n, 1, 0x80, 0xbf⟩ := by
  decide

theorem lead_three : ∀ n < 0x10, Lead.of (UInt8.ofNat (n + 0xe0)) =
    .opening ⟨n, 2, if n = 0 then 0xa0 else 0x80, if n = 13 then 0x9f else 0xbf⟩ := by
  decide

theorem lead_four : ∀ n < 5, Lead.of (UInt8.ofNat (n + 0xf0)) =
    .opening ⟨n, 3, if n = 0 then 0x90 else 0x80, if n = 4 then 0x8f else 0xbf⟩ := by
  decide

/-- A byte within the bounds adds six bits. -/
theorem readUtf8From_continuation {value due n : Nat} {low high : UInt8} (small : n < 0x40)
    (above : low.toNat ≤ n + 0x80) (below : n + 0x80 ≤ high.toNat) (rest : List UInt8) :
    readUtf8From (some ⟨value, due, low, high⟩) (UInt8.ofNat (n + 0x80) :: rest) =
      if due = 1 then Char.ofNat (64 * value + n) :: readUtf8From none rest
      else readUtf8From (some ⟨64 * value + n, due - 1, 0x80, 0xbf⟩) rest := by
  have byte : (UInt8.ofNat (n + 0x80)).toNat = n + 0x80 := Nat.mod_eq_of_lt (by omega)
  have inside : low ≤ UInt8.ofNat (n + 0x80) ∧ UInt8.ofNat (n + 0x80) ≤ high := by
    rw [UInt8.le_iff_toNat_le, UInt8.le_iff_toNat_le, byte]
    exact ⟨above, below⟩
  simp only [readUtf8From, if_pos inside, byte, Nat.add_sub_cancel]

theorem readUtf8From_character {b : UInt8} {c : Char} (lead : Lead.of b = .character c)
    (rest : List UInt8) : readUtf8From none (b :: rest) = c :: readUtf8From none rest := by
  rw [readUtf8From, readUtf8From.begin, lead]

theorem readUtf8From_opening {b : UInt8} {p : Unfinished} (lead : Lead.of b = .opening p)
    (rest : List UInt8) : readUtf8From none (b :: rest) = readUtf8From (some p) rest := by
  rw [readUtf8From, readUtf8From.begin, lead]

theorem readUtf8From_encodeChar (c : Char) (rest : List UInt8) :
    readUtf8From none (String.utf8EncodeChar c ++ rest) = c :: readUtf8From none rest := by
  have character : Char.ofNat c.val.toNat = c := Char.ofNat_toNat c
  have valid : c.val.toNat < 0xd800 ∨ 0xdfff < c.val.toNat ∧ c.val.toNat < 0x110000 := c.valid
  unfold String.utf8EncodeChar
  dsimp only
  generalize c.val.toNat = v at character valid
  split
  · rw [List.singleton_append, readUtf8From_character (lead_one v (by omega)), character]
  split
  · have value : 64 * (v / 64 % 32) + v % 64 = v := by omega
    simp only [List.cons_append, List.nil_append]
    rw [readUtf8From_opening (lead_two (v / 64 % 32) (by omega) (by omega)),
      readUtf8From_continuation (by omega) (by simp) (by simp; omega), if_pos rfl, value, character]
  split
  · -- The second byte is bounded for no overlong form and no surrogate to be read.
    have value : 64 * (64 * (v / 4096 % 16) + v / 64 % 64) + v % 64 = v := by omega
    simp only [List.cons_append, List.nil_append]
    rw [readUtf8From_opening (lead_three (v / 4096 % 16) (by omega)),
      readUtf8From_continuation (by omega) (by split <;> simp; omega)
        (by split <;> simp <;> omega), if_neg (by decide),
      readUtf8From_continuation (by omega) (by simp) (by simp; omega), if_pos rfl, value, character]
  · have value :
        64 * (64 * (64 * (v / 262144 % 8) + v / 4096 % 64) + v / 64 % 64) + v % 64 = v := by
      omega
    simp only [List.cons_append, List.nil_append]
    rw [readUtf8From_opening (lead_four (v / 262144 % 8) (by omega)),
      readUtf8From_continuation (by omega) (by split <;> simp; omega)
        (by split <;> simp <;> omega), if_neg (by decide),
      readUtf8From_continuation (by omega) (by simp) (by simp; omega), if_neg (by decide),
      readUtf8From_continuation (by omega) (by simp) (by simp; omega), if_pos rfl, value, character]

theorem readUtf8_utf8 (s : List Char) : readUtf8 (utf8 s) = s := by
  unfold readUtf8 utf8
  induction s with
  | nil => rw [List.flatMap_nil, readUtf8From]
  | cons c s ih => rw [List.flatMap_cons, readUtf8From_encodeChar, ih]

theorem utf8_injective {s t : List Char} (same : utf8 s = utf8 t) : s = t := by
  rw [← readUtf8_utf8 s, same, readUtf8_utf8]

end Solr.Text
