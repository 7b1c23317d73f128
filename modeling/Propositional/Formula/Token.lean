import Propositional.Formula.Basic
import Propositional.Text.Alphanumeric
import Propositional.Text.Digit
import Propositional.Text.Half

/-!
# Tokens of formula text

Formula text is cut into names, connectives and parentheses. Names begin with a capital Latin
letter or a Greek letter and go on with such letters, digits and underscores; a lower-case letter
never joins a name, so `AvB` is three tokens. A connective has several spellings, the longest
being tried first. The row of tokens ends with a mark at the length of the text.

## Main definitions

* `SyntaxError`: why a text is no formula, with its message and position
* `Token`: a token with its kind, its text and its offset
* `Token.spellings`: the spellings of the connectives and parentheses
* `Token.scan`: the tokens of a text
-/

namespace Propositional

/-- Why a text is no formula. Positions count characters from zero. -/
inductive SyntaxError where
  /-- A sign that begins no token. -/
  | unknownToken (sign : List Char) (offset : Nat)
  /-- A letter or digit that may not begin a name. -/
  | invalidName (c : Char) (offset : Nat)
  /-- The text ends where a formula is expected. -/
  | unexpectedEnd (offset : Nat)
  /-- A closing parenthesis that closes nothing. -/
  | unbalancedClose (offset : Nat)
  /-- An opening parenthesis whose formula ends without a closing one. -/
  | unbalancedOpen (offset : Nat)
  /-- A connective where a formula is expected. -/
  | operandExpected (text : String) (offset : Nat)
  /-- Something follows a complete formula. -/
  | trailing (text : String) (offset : Nat)
  /-- More operators and parentheses are pending at once than the reader has room for. The offset is
  that of the token the reader stands at; behind the end mark there is none. -/
  | tooNested (offset : Option Nat)
  /-- The tree is higher than the limit. -/
  | tooDeep
  /-- The row of tokens lacks its end mark. -/
  | endless
deriving DecidableEq, Inhabited

namespace SyntaxError

/-- What is wrong, in words. -/
def message : SyntaxError → String
  | .unknownToken sign _ => "unknown token '" ++ String.ofList sign ++ "'"
  | .invalidName c _ => "invalid identifier starting with '" ++ String.ofList [c] ++ "'"
  | .unexpectedEnd _ => "unexpected end of formula"
  | .unbalancedClose _ => "unbalanced ')'"
  | .unbalancedOpen _ => "unbalanced '(': expected ')'"
  | .operandExpected text _ => "expected a formula before '" ++ text ++ "'"
  | .trailing text _ => "unexpected '" ++ text ++ "' after complete formula"
  | .tooNested _ => "formula nested too deeply"
  | .tooDeep => "formula nested too deeply"
  | .endless => "token list without an end"

/-- Where it is wrong. A tree that is too high is wrong from its beginning on. -/
def position? : SyntaxError → Option Nat
  | .unknownToken _ n => some n
  | .invalidName _ n => some n
  | .unexpectedEnd n => some n
  | .unbalancedClose n => some n
  | .unbalancedOpen n => some n
  | .operandExpected _ n => some n
  | .trailing _ n => some n
  | .tooNested offset => offset
  | .tooDeep => some 0
  | .endless => none

/-- Whether the reader looks for a token behind the last one, and so has nothing to report. -/
def isPastEnd : SyntaxError → Bool
  | .tooNested none => true
  | .endless => true
  | _ => false

/-- What is wrong and where. -/
def report (e : SyntaxError) : String :=
  match e.position? with
  | some n => e.message ++ " at position " ++ String.ofList (Nat.toDigits 10 n)
  | none => e.message

end SyntaxError

/-- The kinds of tokens, the end mark included. -/
inductive Token.Kind where
  | var
  | not
  | op (c : Connective)
  | lparen
  | rparen
  | stop
deriving DecidableEq, Inhabited

/-- A token: its kind, the text it was written with and where that text begins. -/
structure Token where
  kind : Token.Kind
  text : String
  offset : Nat
deriving DecidableEq, Inhabited

namespace Token

/-- Whether a character may begin a name: a capital Latin letter or a Greek letter. -/
def isNameStart (c : Char) : Bool :=
  ('A' ≤ c && c ≤ 'Z') || Formula.isGreek c

/-- Whether a character may continue a name. -/
def isNamePart (c : Char) : Bool :=
  isNameStart c || Text.isDigit c || c == '_'

/-- Whether a text is a well-formed name. -/
def isName (name : String) : Bool :=
  match name.toList with
  | [] => false
  | c :: cs => isNameStart c && cs.all isNamePart

/-- The spellings of the connectives and parentheses, longer ones first. -/
def spellings : List (String × Kind) :=
  [("<->", .op .iff), ("<=>", .op .iff), ("->", .op .imp), ("||", .op .or),
   ("¬", .not), ("~", .not),
   ("∧", .op .and), ("^", .op .and), ("&", .op .and),
   ("∨", .op .or), ("v", .op .or),
   ("→", .op .imp), ("↔", .op .iff),
   ("(", .lparen), (")", .rparen)]

/-- The first spelling that a text begins with. -/
def spelling? (cs : List Char) : Option (String × Kind) :=
  spellings.find? fun s => s.1.toList.isPrefixOf cs

/-- The sign at the front of a text that begins with a character: the character, or what it stands
for together with the next. -/
def signAt (c : Char) (cs : List Char) : List Char :=
  match c == Text.halfMark, cs with
  | true, d :: _ => if (Text.marked? d).isSome then [c, d] else [c]
  | _, _ => [c]

/-- Why a character, with those behind it, begins no token. -/
def misfit (c : Char) (cs : List Char) (offset : Nat) : SyntaxError :=
  if Text.isAlphanumeric c || c == '_' then .invalidName c offset
  else .unknownToken (signAt c cs) offset

/-- The tokens of characters that begin at an offset, with the end mark behind them. -/
def scanFrom (offset : Nat) : List Char → Except SyntaxError (List Token)
  | [] => .ok [⟨.stop, "", offset⟩]
  | c :: cs =>
    if Text.isBlank c then scanFrom (offset + 1) cs
    else if isNameStart c then
      let name := c :: cs.takeWhile isNamePart
      (scanFrom (offset + name.length) (cs.dropWhile isNamePart)).map
        (⟨.var, String.ofList name, offset⟩ :: ·)
    else
      match spelling? (c :: cs) with
      | some (s, kind) =>
        (scanFrom (offset + s.length) (cs.drop (s.length - 1))).map (⟨kind, s, offset⟩ :: ·)
      | none => .error (misfit c cs offset)
termination_by cs => cs.length
decreasing_by
  all_goals simp only [List.length_cons, List.length_drop]
  · omega
  · exact Nat.lt_succ_of_le (List.dropWhile_suffix isNamePart).length_le
  · omega

/-- The tokens of a text. -/
def scan (text : String) : Except SyntaxError (List Token) :=
  scanFrom 0 text.toList

end Token

end Propositional
