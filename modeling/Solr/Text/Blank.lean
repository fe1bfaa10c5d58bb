/-! White space around a text. -/
namespace Solr.Text

/-- The characters with the Unicode property White_Space. -/
def isWhiteSpace (c : Char) : Bool :=
  let n := c.toNat
  (9 ≤ n && n ≤ 13) || n = 0x20 || n = 0x85 || n = 0xa0 || n = 0x1680 ||
    (0x2000 ≤ n && n ≤ 0x200a) || n = 0x2028 || n = 0x2029 || n = 0x202f || n = 0x205f ||
    n = 0x3000

def trim (s : List Char) : List Char :=
  ((s.dropWhile isWhiteSpace).reverse.dropWhile isWhiteSpace).reverse

theorem isWhiteSpace_of_isWhitespace {c : Char} (h : c.isWhitespace) : isWhiteSpace c := by
  simp only [Char.isWhitespace, Bool.or_eq_true, decide_eq_true_eq] at h
  rcases h with ((rfl | rfl) | rfl) | rfl <;> decide

/-- A trimmed text is empty or ends in a character that can be seen. -/
theorem getLast?_trim {s : List Char} {c : Char} (h : (trim s).getLast? = some c) :
    isWhiteSpace c = false := by
  rw [trim, List.getLast?_reverse] at h
  have seen := List.head?_dropWhile_not isWhiteSpace (s.dropWhile isWhiteSpace).reverse
  rw [h] at seen
  simpa using seen

end Solr.Text
