/-
Style sheets: the text of a list of rules.

Global rules come first, one a line. The rules under a media query follow in
one block for each query; the blocks stand in the order in which their queries
are first met, and the rules of a block in the order given.

* `Sheet.Entry` — the text of a rule, and the query it depends on;
* `Sheet.groups` — the entries with a query, gathered by query in one pass;
* `Sheet.render` — the sheet.
-/
import UtilityCss.Rule

namespace UtilityCss

/-- A selector and its declarations in a block. -/
def ruleText (selector declarations : Text) : Text :=
  selector ++ " \x7b " ++ declarations ++ " \x7d"

namespace Sheet

/-- The text of a rule and the media query it depends on, if any. -/
structure Entry (κ : Type) where
  media : Option κ
  text : Text
  deriving DecidableEq

/-- Entries gathered by media query. -/
abbrev Groups (κ : Type) := List (κ × List Text)

variable {κ : Type} [BEq κ]

/-- Adds a text to the group of `key`, or opens a group for it at the end. -/
def Groups.insert (key : κ) (text : Text) : Groups κ → Groups κ
  | [] => [(key, [text])]
  | (k, texts) :: groups =>
    if k == key then (k, texts ++ [text]) :: groups
    else (k, texts) :: Groups.insert key text groups

/-- The entries with a media query, gathered by query. -/
def groups (entries : List (Entry κ)) : Groups κ :=
  entries.foldl
    (fun groups entry =>
      match entry.media with
      | none => groups
      | some key => groups.insert key entry.text)
    []

/-- The texts of the entries without a media query. -/
def globals (entries : List (Entry κ)) : List Text :=
  (entries.filter (·.media.isNone)).map (·.text)

/-- A line inside of a block. -/
def indent (line : Text) : Text :=
  "  " ++ line

/-- The line that opens the block of a media query. -/
def opening (query : Text) : Text :=
  "@media " ++ query ++ " \x7b"

/-- The line that closes a block. -/
def closing : Text :=
  "\x7d"

/-- The lines of a block. -/
def blockLines (query : Text) (texts : List Text) : List Text :=
  opening query :: texts.map indent ++ [closing]

/-- The sheet of a list of entries; `query` writes a media query. -/
def render (query : κ → Text) (entries : List (Entry κ)) : Text :=
  Text.unlines <|
    globals entries ++ (groups entries).flatMap fun (key, texts) => blockLines (query key) texts

end Sheet

/-- The entry of a rule in a sheet. -/
def Rule.entry (r : Rule) : Sheet.Entry Media where
  media := r.media
  text := ruleText r.selector.text (declarationText r.declarations)

/-- The sheet of a list of rules. -/
def Rule.sheet (rules : List Rule) : Text :=
  Sheet.render Media.query (rules.map Rule.entry)

end UtilityCss
