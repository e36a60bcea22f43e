/-
Quoted texts.

A quoted text stands between single quotes, or between double quotes if it
holds a single quote and no double quote. The backslash, the quote in use and
every hidden character are written as escapes, so a quoted text is one line of
visible characters.

* `quote` — the quoted form of a text.
-/
import UtilityCss.Text.Printable
import UtilityCss.Text.Digit

namespace UtilityCss.Text

/-- The quote a text is put between. -/
def quoteMark (s : Text) : CodePoint :=
  if .char '\'' ∈ s ∧ .char '"' ∉ s then '"' else '\''

/-- A hidden character by its code point, with the shortest escape that holds
it. -/
def escapeHidden (n : Nat) : Text :=
  if n < 0x100 then "\\x" ++ hex 2 n
  else if n < 0x10000 then "\\u" ++ hex 4 n
  else "\\U" ++ hex 8 n

/-- One character inside quotes. -/
def quoteChar (mark c : CodePoint) : Text :=
  if c = mark ∨ c = '\\' then ['\\', c]
  else if c = '\n' then "\\n"
  else if c = '\r' then "\\r"
  else if c = '\t' then "\\t"
  else if isPrintable c then [c]
  else escapeHidden c.toNat

/-- The quoted form of a text. -/
def quote (s : Text) : Text :=
  let mark := quoteMark s
  mark :: (s.flatMap (quoteChar mark) ++ [mark])

example : quote "it's" = ("\"it's\"" : Text) := by decide +kernel
example : quote "a\tb\u200b" = ("'a\\tb\\u200b'" : Text) := by decide +kernel

end UtilityCss.Text
