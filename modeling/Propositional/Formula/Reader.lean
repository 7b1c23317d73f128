import Propositional.Formula.Token

/-!
# Reading formulas

Tokens are read from left to right by a machine that keeps a stack of what is still pending: open
parentheses, negations that wait for their operand, and connectives that wait for their right
operand. A token is refused at the moment when no continuation could make the row a formula.

The grammar has six levels, from loosest to tightest: biconditional, implication, disjunction,
conjunction, negation, atom. They are numbered one to six, as `Formula.rank` is. Conjunction and
disjunction nest to the left, implication and biconditional to the right.

## Main definitions

* `Reader.Frame`, `Reader.weight`: a pending part, and the room that pending parts take
* `Reader.capacity`, `Reader.assured`: the room there is, and what is left of it for sure
* `Reader.settle`: hands a finished formula to the pending parts that it completes
* `Reader.run`: the machine
* `Reader.read`: a formula of one grammar level from the front of a row of tokens
* `Formula.parse`: the formula that a text writes
-/

namespace Propositional

namespace Reader

/-- A part of a formula that waits for what follows. -/
inductive Frame where
  /-- An open parenthesis. -/
  | paren
  /-- A negation without its operand. -/
  | neg
  /-- A connective with its left operand. -/
  | left (op : Connective) (f : Formula)
deriving DecidableEq, Inhabited

/-- The room that a pending part takes: the frames on the call stack of a reader that calls itself.
A parenthesis calls one procedure for each of the six levels of the grammar, a negation and the
right operand of a connective that nests to the right call one again. -/
def Frame.weight : Frame → Nat
  | .paren => 6
  | .neg => 1
  | .left op _ => if op.isRightAssociative then 1 else 0

/-- The room that all pending parts take. -/
def weight : List Frame → Nat
  | [] => 0
  | f :: st => f.weight + weight st

/-- The room there is: the most frames that the call stack holds. -/
def capacity : Nat := 1000

/-- The room that is left for sure. The frames of whoever calls the reader are on the stack as well,
so that some room between this and `capacity` is all there is. -/
def assured : Nat := 750

/-- Whether a pending connective takes its right operand when `next` follows: always at the end of
a parenthesis or text, before a looser connective, and before itself if it nests to the left. -/
def takesBefore (op : Connective) (next : Option Connective) : Bool :=
  match next with
  | none => true
  | some c => c.rank < op.rank || (c == op && !op.isRightAssociative)

/-- Hands a finished formula to the pending parts that it completes, down to the first that it
does not complete when `next` follows. -/
def settle (next : Option Connective) : List Frame → Formula → List Frame × Formula
  | .neg :: st, f => settle next st (.neg f)
  | .left op l :: st, f =>
    if takesBefore op next then settle next st (.bin op l f) else (.left op l :: st, f)
  | st, f => (st, f)

/-- Whether pending parts exceed some room. -/
def overfull (room : Nat) (st : List Frame) : Bool :=
  room < weight st

/-- The error of pending parts that exceed the room, with the tokens ahead. Where they exceed it by
a single place, the next token is still taken before the room is found to be lacking. -/
def lack (room : Nat) (st : List Frame) (ts : List Token) : SyntaxError :=
  let ahead := if weight st = room + 1 then ts.drop 1 else ts
  .tooNested (ahead.head?.map Token.offset)

/-- The machine. With no formula in hand it expects an operand, with one it expects a connective
or an end. A formula of the level is handed back, with the tokens from the one that ends it. Pending
parts take no more than the room. -/
def run (room level : Nat) :
    List Frame → Option Formula → List Token → Except SyntaxError (Formula × List Token)
  | _, _, [] => .error .endless
  | st, none, t :: ts =>
    match t.kind with
    | .var => run room level st (some (.var t.text)) ts
    | .not =>
      if st.isEmpty && level == 6 then .error (.operandExpected t.text t.offset)
      else if overfull room (.neg :: st) then .error (lack room (.neg :: st) ts)
      else run room level (.neg :: st) none ts
    | .lparen =>
      if overfull room (.paren :: st) then .error (lack room (.paren :: st) ts)
      else run room level (.paren :: st) none ts
    | .rparen => .error (.unbalancedClose t.offset)
    | .stop => .error (.unexpectedEnd t.offset)
    | .op _ => .error (.operandExpected t.text t.offset)
  | st, some f, t :: ts =>
    match t.kind with
    | .op c =>
      let (st, f) := settle (some c) st f
      if st.isEmpty && c.rank < level then .ok (f, t :: ts)
      else if overfull room (.left c f :: st) then .error (lack room (.left c f :: st) ts)
      else run room level (.left c f :: st) none ts
    | .rparen =>
      match settle none st f with
      | (.paren :: st, f) => run room level st (some f) ts
      | (_, f) => .ok (f, t :: ts)
    | _ =>
      match settle none st f with
      | ([], f) => .ok (f, t :: ts)
      | _ => .error (.unbalancedOpen t.offset)

/-- A formula of a grammar level from the front of a row of tokens, and the tokens behind it. -/
def read (level : Nat) (ts : List Token) : Except SyntaxError (Formula × List Token) :=
  run capacity level [] none ts

/-- The formula that a whole row of tokens writes, if only the end mark follows it. -/
def readAll (ts : List Token) : Except SyntaxError Formula :=
  match read 1 ts with
  | .error e => .error e
  | .ok (_, []) => .error .endless
  | .ok (f, t :: _) =>
    match t.kind with
    | .stop => .ok f
    | .rparen => .error (.unbalancedClose t.offset)
    | _ => .error (.trailing t.text t.offset)

end Reader

/-- The formula that a whole row of tokens writes, if its tree is no higher than `maxDepth`. -/
def Formula.ofTokens (maxDepth : Int) (ts : List Token) : Except SyntaxError Formula :=
  match Reader.readAll ts with
  | .error e => .error e
  | .ok f => if maxDepth < f.depth then .error .tooDeep else .ok f

/-- The formula that a text writes, if its tree is no higher than `maxDepth`. -/
def Formula.parse (maxDepth : Int) (text : String) : Except SyntaxError Formula :=
  match Token.scan text with
  | .error e => .error e
  | .ok ts => Formula.ofTokens maxDepth ts

end Propositional
