/-
Reading JSON.

The reader takes the value at the front of a text and hands on the rest. A
break of the grammar keeps the rest of the text at the place where it was
noticed; the position, line and column are computed from that. Two limits bound
what is read at all: the digits of an integer and the depth of the brackets.

* `Json.parse` — the value of a whole text;
* `Json.Limit` — the limits of the reader;
* `Json.ParseError.message` — the wording of a failure, with its place.

Design notes: a string is read in two steps. `pieces` cuts it into code points
and escaped UTF-16 units, `assemble` joins the units; a surrogate pair is two
escapes, so no step has to look ahead. A surrogate without partner is kept.
Arrays and objects are read with a fuel of twice the length of the text, which
no text uses up: each item costs one unit and each bracket two, and both take
at least one character.
-/
import UtilityCss.Json.Basic
import UtilityCss.Text.Digit

namespace UtilityCss

open Number (Binary64)

namespace Json

/-! ### Failures -/

/-- How a text breaks the grammar. -/
inductive Fault where
  | byteOrderMark
  | value
  | name
  | colon
  | comma
  | unterminatedString
  | controlCharacter
  | escape
  | unicodeEscape
  | extraData
  deriving DecidableEq

/-- The wording of a fault. -/
def Fault.message : Fault → Text
  | byteOrderMark => "Unexpected UTF-8 BOM (decode using utf-8-sig)"
  | value => "Expecting value"
  | name => "Expecting property name enclosed in double quotes"
  | colon => "Expecting ':' delimiter"
  | comma => "Expecting ',' delimiter"
  | unterminatedString => "Unterminated string starting at"
  | controlCharacter => "Invalid control character at"
  | escape => "Invalid \\escape"
  | unicodeEscape => "Invalid \\uXXXX escape"
  | extraData => "Extra data"

/-- The most digits an integer may have. -/
def maxDigits : Nat := 4300

/-- The most brackets that may be open at once. -/
def maxDepth : Nat := 990

/-- How a text goes beyond the limits of the reader. -/
inductive Limit where
  /-- An integer has more than `maxDigits` digits. -/
  | digits (count : Nat)
  /-- An array begins inside of `maxDepth` brackets. -/
  | arrayDepth
  /-- An object begins inside of `maxDepth` brackets. -/
  | objectDepth
  deriving DecidableEq

/-- The wording for a text beyond a limit. -/
def Limit.message : Limit → Text
  | digits count =>
    "Exceeds the limit (" ++ Text.decimal maxDigits ++
      " digits) for integer string conversion: value has " ++ Text.decimal count ++
      " digits; use sys.set_int_max_str_digits() to increase the limit"
  | arrayDepth =>
    "maximum recursion depth exceeded while decoding a JSON array from a unicode string"
  | objectDepth =>
    "maximum recursion depth exceeded while decoding a JSON object from a unicode string"

/-- Why a text is not read. -/
inductive Failure where
  /-- A fault and the rest of the text from the place where it is. -/
  | grammar (fault : Fault) (rest : Text)
  | limit (l : Limit)
  deriving DecidableEq

/-! ### Space -/

/-- The space that may stand between the parts of a value. -/
def isSpace (c : CodePoint) : Bool :=
  c = ' ' || c = '\t' || c = '\n' || c = '\r'

/-- The text from its first character that is no space. -/
def skipSpace (s : Text) : Text :=
  s.dropWhile isSpace

/-! ### Strings -/

/-- A code point of a string, or an escaped UTF-16 unit. -/
inductive Piece where
  | char (c : CodePoint)
  | unit (code : Nat)
  deriving DecidableEq

/-- The unit that four hexadecimal digits stand for. -/
def unit? (a b c d : CodePoint) : Option Nat := do
  let a ← Text.hexDigit? a
  let b ← Text.hexDigit? b
  let c ← Text.hexDigit? c
  let d ← Text.hexDigit? d
  some (((a * 16 + b) * 16 + c) * 16 + d)

/-- The character a one-letter escape stands for. -/
def shortEscape? : CodePoint → Option CodePoint
  | '"' => some (.char '"')
  | '\\' => some (.char '\\')
  | '/' => some (.char '/')
  | 'b' => some (.char '\x08')
  | 'f' => some (.char '\x0c')
  | 'n' => some (.char '\n')
  | 'r' => some (.char '\r')
  | 't' => some (.char '\t')
  | _ => none

/-- The pieces up to the closing quote. `start` is the text from the opening
quote on, where an unterminated string is reported; a numeric escape is
complete only if a character follows its digits. -/
def pieces (start : Text) : Text → Except Failure (List Piece × Text)
  | [] => .error (.grammar .unterminatedString start)
  | '"' :: rest => .ok ([], rest)
  | ['\\'] => .error (.grammar .unterminatedString start)
  | '\\' :: 'u' :: rest =>
    match rest with
    | a :: b :: c :: d :: tail =>
      match unit? a b c d with
      | none => .error (.grammar .unicodeEscape ('u' :: rest))
      | some code =>
        if tail = [] then .error (.grammar .unicodeEscape ('u' :: rest))
        else (pieces start tail).map fun (ps, s) => (.unit code :: ps, s)
    | _ => .error (.grammar .unicodeEscape ('u' :: rest))
  | '\\' :: e :: rest =>
    match shortEscape? e with
    | none => .error (.grammar .escape ('\\' :: e :: rest))
    | some c => (pieces start rest).map fun (ps, s) => (.char c :: ps, s)
  | c :: rest =>
    if c.toNat < 0x20 then .error (.grammar .controlCharacter (c :: rest))
    else (pieces start rest).map fun (ps, s) => (.char c :: ps, s)

/-- Whether a unit is the first half of a surrogate pair. -/
def isHighSurrogate (n : Nat) : Bool :=
  0xD800 ≤ n && n ≤ 0xDBFF

/-- Whether a unit is the second half of a surrogate pair. -/
def isLowSurrogate (n : Nat) : Bool :=
  0xDC00 ≤ n && n ≤ 0xDFFF

/-- The code point of a surrogate pair. -/
def pairPoint (high low : Nat) : CodePoint :=
  .ofNat (0x10000 + (high - 0xD800) * 0x400 + (low - 0xDC00))

/-- The text of a list of pieces, surrogate pairs joined. -/
def assemble : List Piece → Text
  | [] => []
  | .char c :: rest => c :: assemble rest
  | [.unit n] => [.ofNat n]
  | .unit n :: .char c :: rest => .ofNat n :: c :: assemble rest
  | .unit n :: .unit m :: rest =>
    if isHighSurrogate n && isLowSurrogate m then pairPoint n m :: assemble rest
    else .ofNat n :: assemble (.unit m :: rest)

/-- The string after its opening quote. -/
def string (rest : Text) : Except Failure (Text × Text) :=
  (pieces ('"' :: rest) rest).map fun (ps, s) => (assemble ps, s)

/-! ### Numbers and names -/

/-- The digits before the point: a single zero, or digits that do not begin
with one. -/
def wholeDigits? : Text → Option (Text × Text)
  | '0' :: rest => some ("0", rest)
  | c :: rest => if c.isDigit then some ((c :: rest).span CodePoint.isDigit) else none
  | [] => none

/-- A point and at least one digit, or nothing. -/
def fractionDigits (s : Text) : Text × Text :=
  match s with
  | '.' :: rest =>
    let (digits, tail) := rest.span CodePoint.isDigit
    if digits = [] then ([], s) else (digits, tail)
  | _ => ([], s)

/-- An optional sign, as whether it is a minus. -/
def sign : Text → Bool × Text
  | '-' :: rest => (true, rest)
  | '+' :: rest => (false, rest)
  | rest => (false, rest)

/-- The letter `e`, an optional sign and at least one digit, or nothing. -/
def exponent? (s : Text) : Option Int × Text :=
  match s with
  | c :: rest =>
    if c = 'e' ∨ c = 'E' then
      let (negative, rest) := sign rest
      let (digits, tail) := rest.span CodePoint.isDigit
      let n : Int := Text.digitsValue digits
      if digits = [] then (none, s) else (some (if negative then -n else n), tail)
    else (none, s)
  | [] => (none, s)

/-- The integer of a row of digits. -/
def integer (negative : Bool) (digits : Text) : Except Limit Scalar :=
  if maxDigits < digits.length then .error (.digits digits.length)
  else
    let n : Int := Text.digitsValue digits
    .ok (.int (if negative then -n else n))

/-- The number without its sign. It is an integer if it has neither fraction
nor exponent. -/
def magnitude? (negative : Bool) (s : Text) : Option (Except Limit Scalar × Text) := do
  let (whole, rest) ← wholeDigits? s
  let (fraction, rest) := fractionDigits rest
  let (exponent, rest) := exponent? rest
  if fraction = [] ∧ exponent = none then some (integer negative whole, rest)
  else
    let shift := exponent.getD 0 - fraction.length
    let x := Binary64.ofDecimal negative (Text.digitsValue (whole ++ fraction)) shift
    some (.ok (.float x), rest)

/-- The longest number at the front of a text. -/
def number? : Text → Option (Except Limit Scalar × Text)
  | '-' :: rest => magnitude? true rest
  | s => magnitude? false s

/-- The names of values. -/
def names : List (Text × Scalar) :=
  [("null", .null), ("true", .bool true), ("false", .bool false), ("NaN", .float .nan),
   ("Infinity", .float (.infinite false)), ("-Infinity", .float (.infinite true))]

/-- A named value or a number at the front of a text. -/
def atom? (s : Text) : Option (Except Limit Scalar × Text) :=
  names.findSome? (fun (name, atom) => (Text.consume? name s).map (.ok atom, ·)) <|> number? s

/-! ### Values -/

mutual

/-- The value at the front of a text, inside of brackets that leave room for
`depth` more. -/
def value : (fuel depth : Nat) → Text → Except Failure (Json × Text)
  | 0, _, s => .error (.grammar .value s)
  | fuel + 1, depth, s =>
    match s with
    | '"' :: rest => (string rest).map fun (s, rest) => (.text s, rest)
    | '[' :: rest =>
      match depth with
      | 0 => .error (.limit .arrayDepth)
      | depth + 1 =>
        match skipSpace rest with
        | ']' :: rest => .ok (.array [], rest)
        | rest => (items fuel depth rest).map fun (xs, rest) => (.array xs, rest)
    | '\x7b' :: rest =>
      match depth with
      | 0 => .error (.limit .objectDepth)
      | depth + 1 =>
        match skipSpace rest with
        | '\x7d' :: rest => .ok (.object [], rest)
        | rest => (fields fuel depth [] rest).map fun (xs, rest) => (.object xs, rest)
    | s =>
      match atom? s with
      | some (.ok atom, rest) => .ok (.scalar atom, rest)
      | some (.error l, _) => .error (.limit l)
      | none => .error (.grammar .value s)

/-- The items of an array from one item on, and its closing bracket. -/
def items : (fuel depth : Nat) → Text → Except Failure (List Json × Text)
  | 0, _, s => .error (.grammar .value s)
  | fuel + 1, depth, s => do
    let (item, rest) ← value fuel depth s
    match skipSpace rest with
    | ']' :: rest => .ok ([item], rest)
    | ',' :: rest => (items fuel depth (skipSpace rest)).map fun (xs, rest) => (item :: xs, rest)
    | rest => .error (.grammar .comma rest)

/-- The fields of an object after those read before, from one name on, and its
closing brace. A name that comes again keeps its place and takes the new value. -/
def fields : (fuel depth : Nat) → List (Text × Json) → Text →
    Except Failure (List (Text × Json) × Text)
  | 0, _, _, s => .error (.grammar .value s)
  | fuel + 1, depth, before, s =>
    match s with
    | '"' :: rest => do
      let (name, rest) ← string rest
      match skipSpace rest with
      | ':' :: rest =>
        let (item, rest) ← value fuel depth (skipSpace rest)
        match skipSpace rest with
        | '\x7d' :: rest => .ok (setField name item before, rest)
        | ',' :: rest => fields fuel depth (setField name item before) (skipSpace rest)
        | rest => .error (.grammar .comma rest)
      | rest => .error (.grammar .colon rest)
    | s => .error (.grammar .name s)

end

/-! ### Whole texts -/

/-- A location in a text: the position from zero, the line and the column from
one. -/
structure Location where
  position : Nat
  line : Nat
  column : Nat
  deriving DecidableEq

/-- The location in `text` where `rest` begins. Lines end with a line feed. -/
def locate (text rest : Text) : Location :=
  let position := text.length - rest.length
  let before := text.take position
  { position
    line := before.count (.char '\n') + 1
    column := (before.reverse.takeWhile (· ≠ .char '\n')).length + 1 }

/-- A location as it is shown. -/
def Location.text (l : Location) : Text :=
  "line " ++ Text.decimal l.line ++ " column " ++ Text.decimal l.column ++
    " (char " ++ Text.decimal l.position ++ ")"

/-- Why a whole text is not read. -/
inductive ParseError where
  /-- A fault and its location. -/
  | grammar (fault : Fault) (location : Location)
  | limit (l : Limit)
  deriving DecidableEq

namespace ParseError

/-- A failure with its location in `text`. -/
def ofFailure (text : Text) : Failure → ParseError
  | .grammar fault rest => .grammar fault (locate text rest)
  | .limit l => .limit l

/-- Whether the text breaks the grammar, and not only goes beyond a limit. -/
def isSyntax : ParseError → Bool
  | grammar .. => true
  | limit _ => false

/-- The wording of a failure, with its location. -/
def message : ParseError → Text
  | grammar fault location => fault.message ++ ": " ++ location.text
  | limit l => l.message

end ParseError

/-- The value of a whole text, before a failure is located. -/
def document (text : Text) : Except Failure Json :=
  if text.head? = some (.char '\ufeff') then .error (.grammar .byteOrderMark text)
  else do
    let (json, rest) ← value (2 * text.length + 2) maxDepth (skipSpace text)
    match skipSpace rest with
    | [] => .ok json
    | rest => .error (.grammar .extraData rest)

/-- The value of a whole text. -/
def parse (text : Text) : Except ParseError Json :=
  (document text).mapError (.ofFailure text)

end Json

end UtilityCss
