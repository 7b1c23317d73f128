import Propositional.Document.Value

/-!
# Reading documents

The text of a document is first cut into marks: brackets, braces, commas, colons, and whole
numbers, words and texts. The marks then drive a machine that holds the lists and objects still
open. Of two fields of one name the later gives the value and the earlier the place. A text is
refused at the first mark that rules it out, be it out of place, too long a number or one bracket
too many.

## Main definitions

* `Document.Mark`, `Document.marks`: the marks of a text
* `Document.Frame`, `Document.Expect`, `Document.step`: the machine that builds a value
* `Document.Fault`: why a text is not read
* `Document.read`: the value that a text writes, if it writes one
-/

namespace Propositional.Document

/-- Why a text is not read. -/
inductive Fault where
  /-- It writes no document. -/
  | noDocument
  /-- It holds an integer with too many digits. -/
  | oversized
  /-- It opens too many lists and objects in each other. -/
  | tooNested
deriving DecidableEq, Inhabited

/-- One mark of the text of a document. -/
inductive Mark where
  | openList
  | closeList
  | openObject
  | closeObject
  | colon
  | comma
  | scalar (v : Value)
  /-- An integer with too many digits. -/
  | oversized
  /-- What begins no mark; nothing behind it is looked at. -/
  | broken

/-! ## Texts -/

/-- The value of a hexadecimal digit. -/
def hexValue? (c : Char) : Option Nat :=
  if '0' ≤ c ∧ c ≤ '9' then some (c.toNat - 48)
  else if 'a' ≤ c ∧ c ≤ 'f' then some (c.toNat - 87)
  else if 'A' ≤ c ∧ c ≤ 'F' then some (c.toNat - 55)
  else none

/-- The number that four hexadecimal digits write. -/
def hexQuad? (a b c d : Char) : Option Nat :=
  match hexValue? a, hexValue? b, hexValue? c, hexValue? d with
  | some a, some b, some c, some d => some (((a * 16 + b) * 16 + c) * 16 + d)
  | _, _, _, _ => none

/-- The code point that a one-letter escape stands for. -/
def escapeValue? : Char → Option Nat
  | '"' => some 0x22
  | '\\' => some 0x5C
  | '/' => some 0x2F
  | 'b' => some 0x8
  | 'f' => some 0xC
  | 'n' => some 0xA
  | 'r' => some 0xD
  | 't' => some 0x9
  | _ => none

/-- The code units of a text up to its closing quote, and what follows it, a character that is no
escape counted as one unit. A control character may only be written as an escape. -/
def codeUnits : List Char → Option (List Nat × List Char)
  | [] => none
  | '"' :: cs => some ([], cs)
  | '\\' :: 'u' :: a :: b :: c :: d :: cs =>
    match hexQuad? a b c d, codeUnits cs with
    | some n, some (us, rest) => some (n :: us, rest)
    | _, _ => none
  | '\\' :: e :: cs =>
    match escapeValue? e, codeUnits cs with
    | some n, some (us, rest) => some (n :: us, rest)
    | _, _ => none
  | c :: d :: cs =>
    if c.toNat < 0x20 then none
    else
      match c == Text.halfMark, Text.marked? d with
      | true, some n => (codeUnits cs).map fun r => (n :: r.1, r.2)
      | _, _ => (codeUnits (d :: cs)).map fun r => (c.toNat :: r.1, r.2)
  | [_] => none

/-- The first half of a pair of code units that stand for one character. -/
def isHighHalf (u : Nat) : Bool :=
  0xD800 ≤ u && u ≤ 0xDBFF

/-- The second half of a pair of code units that stand for one character. -/
def isLowHalf (u : Nat) : Bool :=
  0xDC00 ≤ u && u ≤ 0xDFFF

/-- The characters that hold a row of code units, halves of one character joined. -/
def joinUnits : List Nat → List Char
  | [] => []
  | [u] => Text.hold u
  | u :: w :: us =>
    if isHighHalf u && isLowHalf w then
      Text.hold (0x10000 + (u - 0xD800) * 0x400 + (w - 0xDC00)) ++ joinUnits us
    else Text.hold u ++ joinUnits (w :: us)

/-! ## Numbers -/

/-- Whether a character is one of the ten basic digits, the only ones in a number. -/
def isFigure (c : Char) : Bool :=
  '0' ≤ c && c ≤ '9'

/-- The fraction of a number: a point and at least one digit. -/
def fractionPart (cs : List Char) : List Char × List Char :=
  match cs with
  | '.' :: rest =>
    match rest.takeWhile isFigure with
    | [] => ([], cs)
    | ds => (ds, rest.dropWhile isFigure)
  | _ => ([], cs)

/-- The power of ten of a number: a letter, perhaps a sign, and at least one digit. -/
def powerPart (cs : List Char) : Option Int × List Char :=
  match cs with
  | e :: rest =>
    if e == 'e' || e == 'E' then
      let (sign, rest) : Int × List Char := match rest with
        | '-' :: r => (-1, r)
        | '+' :: r => (1, r)
        | r => (1, r)
      match rest.takeWhile isFigure with
      | [] => (none, cs)
      | ds => (some (sign * Text.natural ds), rest.dropWhile isFigure)
    else (none, cs)
  | [] => (none, cs)

/-- The digits before the point: a zero alone, or digits that start with no zero. -/
def wholePart (cs : List Char) : List Char × List Char :=
  match cs with
  | '0' :: rest => (['0'], rest)
  | _ => (cs.takeWhile isFigure, cs.dropWhile isFigure)

/-- A number at the front of a text. Without fraction and power it is an integer, and must not be
too long. -/
def number? (cs : List Char) : Option (Mark × List Char) :=
  let (negative, body) := match cs with
    | '-' :: rest => (true, rest)
    | _ => (false, cs)
  match wholePart body with
  | ([], _) => none
  | (whole, rest) =>
    let (fraction, rest) := fractionPart rest
    let (power, rest) := powerPart rest
    if fraction.isEmpty && power.isNone then
      match Text.naturalWithin? whole with
      | none => some (.oversized, rest)
      | some n => some (.scalar (.int (if negative then -(n : Int) else n)), rest)
    else
      let digits := Text.natural (whole ++ fraction)
      let e := power.getD 0 - fraction.length
      some (.scalar (.real (Binary64.ofDecimal negative digits e)), rest)

/-! ## Marks -/

/-- The words that stand for values. -/
def words : List (String × Value) :=
  [("null", .null), ("true", .bool true), ("false", .bool false), ("NaN", .real Binary64.nan),
   ("Infinity", .real (Binary64.infinity false)), ("-Infinity", .real (Binary64.infinity true))]

/-- A word at the front of a text. -/
def word? (cs : List Char) : Option (Value × List Char) :=
  words.findSome? fun w =>
    if w.1.toList.isPrefixOf cs then some (w.2, cs.drop w.1.length) else none

/-- The mark at the front of a text, and what follows it. -/
def mark? : List Char → Option (Mark × List Char)
  | [] => none
  | '[' :: cs => some (.openList, cs)
  | ']' :: cs => some (.closeList, cs)
  | '\x7b' :: cs => some (.openObject, cs)
  | '\x7d' :: cs => some (.closeObject, cs)
  | ':' :: cs => some (.colon, cs)
  | ',' :: cs => some (.comma, cs)
  | '"' :: cs =>
    (codeUnits cs).map fun r => (.scalar (.text (String.ofList (joinUnits r.1))), r.2)
  | cs =>
    match word? cs with
    | some (v, rest) => some (.scalar v, rest)
    | none => number? cs

/-- Whether a character may stand between marks. -/
def isSpace (c : Char) : Bool :=
  c == ' ' || c == '\t' || c == '\n' || c == '\r'

/-- The first marks of a text, at most `count` of them. -/
def marksWithin : Nat → List Char → List Mark
  | 0, _ => []
  | count + 1, cs =>
    match cs.dropWhile isSpace with
    | [] => []
    | c :: body =>
      match mark? (c :: body) with
      | none => [.broken]
      | some (m, rest) => m :: marksWithin count rest

/-- The marks of a text; it has no more marks than characters. -/
def marks (cs : List Char) : List Mark :=
  marksWithin cs.length cs

/-! ## The machine -/

/-- A list or an object still open, with what it holds so far, the last item of a list first; an
object may wait for the value of a field. -/
inductive Frame where
  | items (before : List Value)
  | fields (before : List (String × Value)) (key : Option String)

/-- What may come next. -/
inductive Expect where
  | value
  | firstItem
  | firstKey
  | key
  | colon
  | separator

/-- The most lists and objects that may be open in each other. -/
def nestingLimit : Nat := 985

/-- Puts a finished value into the innermost open list or object. -/
def place (v : Value) : List Frame → Except Fault (List Frame)
  | .items before :: st => .ok (.items (v :: before) :: st)
  | .fields before (some k) :: st => .ok (.fields (Table.set before k v) none :: st)
  | _ => .error .noDocument

/-- Puts a finished value in place; a separator may follow. -/
def finish (v : Value) (st : List Frame) : Except Fault (List Frame × Expect) :=
  (place v st).map fun st => (st, .separator)

/-- Opens a list or an object. The outermost frame is neither. -/
def enter (f : Frame) (next : Expect) (st : List Frame) : Except Fault (List Frame × Expect) :=
  if nestingLimit < st.length then .error .tooNested else .ok (f :: st, next)

/-- A value begins or stands alone. -/
def stepValue (st : List Frame) : Mark → Except Fault (List Frame × Expect)
  | .scalar v => finish v st
  | .openList => enter (.items []) .firstItem st
  | .openObject => enter (.fields [] none) .firstKey st
  | .oversized => .error .oversized
  | _ => .error .noDocument

/-- The name of a field. -/
def stepKey : List Frame → Mark → Except Fault (List Frame × Expect)
  | .fields before none :: st, .scalar (.text k) => .ok (.fields before (some k) :: st, .colon)
  | _, _ => .error .noDocument

/-- A list or an object ends. The outermost frame never does: it collects the whole text. -/
def stepClose : List Frame → Mark → Except Fault (List Frame × Expect)
  | .items before :: f :: st, .closeList => finish (.list before.reverse) (f :: st)
  | .fields before none :: f :: st, .closeObject => finish (.object before) (f :: st)
  | _, _ => .error .noDocument

/-- What follows a value: a comma or an end. -/
def stepSeparator : List Frame → Mark → Except Fault (List Frame × Expect)
  | .items before :: f :: st, .comma => .ok (.items before :: f :: st, .value)
  | .fields before none :: f :: st, .comma => .ok (.fields before none :: f :: st, .key)
  | st, m => stepClose st m

/-- One mark drives the machine one step. -/
def step (s : List Frame × Expect) (m : Mark) : Except Fault (List Frame × Expect) :=
  match s.2, m with
  | .value, m => stepValue s.1 m
  | .firstItem, .closeList => stepClose s.1 m
  | .firstItem, m => stepValue s.1 m
  | .firstKey, .closeObject => stepClose s.1 m
  | .firstKey, m => stepKey s.1 m
  | .key, m => stepKey s.1 m
  | .colon, .colon => .ok (s.1, .value)
  | .colon, _ => .error .noDocument
  | .separator, m => stepSeparator s.1 m

/-- The machine driven by all marks of a text. -/
def run (s : List Frame × Expect) : List Mark → Except Fault (List Frame × Expect)
  | [] => .ok s
  | m :: ms =>
    match step s m with
    | .error f => .error f
    | .ok s => run s ms

/-- The value that a text writes. -/
def read (s : String) : Except Fault Value :=
  match run ([.items []], .value) (marks s.toList) with
  | .error f => .error f
  | .ok ([.items [v]], .separator) => .ok v
  | .ok _ => .error .noDocument

end Propositional.Document
