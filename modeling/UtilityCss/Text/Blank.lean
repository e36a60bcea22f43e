/-
Blank code points and the words between them.

* `isBlank` — the blank code points: the white space of the character database
  together with the four separators U+001C to U+001F;
* `words` — the non-empty parts between blanks, in order.
-/
import UtilityCss.Text.Basic

namespace UtilityCss.Text

/-- Whether a code point separates words. -/
def isBlank (c : CodePoint) : Bool :=
  let n := c.toNat
  (0x09 ≤ n && n ≤ 0x0D) || (0x1C ≤ n && n ≤ 0x20) || n == 0x85 || n == 0xA0 || n == 0x1680 ||
    (0x2000 ≤ n && n ≤ 0x200A) || n == 0x2028 || n == 0x2029 || n == 0x202F || n == 0x205F ||
    n == 0x3000

/-- The non-empty parts between blanks, in order. -/
def words (s : Text) : List Text :=
  (segmentsBy isBlank s).filter (· ≠ [])

theorem ne_nil_of_mem_words {s word : Text} (h : word ∈ words s) : word ≠ [] := by
  simpa using (List.mem_filter.mp h).2

end UtilityCss.Text
