import Propositional.Number.Shortest
import Propositional.Table
import Propositional.Text.Digit
import Propositional.Text.Quoted

/-!
# Document values

Proofs, steps and exercises are exchanged as documents: trees of null, truth values, numbers,
texts, lists and objects. An object keeps the order of its fields. Integers are unbounded and
differ from floating-point numbers even where they are equal in size, so that a document is
written back with the very values it was read with.

## Main definitions

* `Value`: a document
* `Value.field?`: a field of an object
* `Value.integer?`, `Value.wholeNumber?`: the integer a value stands for
* `Value.equalsInteger`: equality in size with an integer
* `Value.isTruthy`: whether a value counts as present
* `Value.display`, `Value.plain`: a value inside a message
* `Value.isShort`: whether a message can show a value
-/

namespace Propositional

/-- A document: a tree of plain data. -/
inductive Value where
  | null
  | bool (b : Bool)
  | int (n : Int)
  | real (x : Binary64)
  | text (s : String)
  | list (items : List Value)
  | object (fields : List (String × Value))
deriving Inhabited

namespace Value

/-- The value of a field of an object; no other value has fields. -/
def field? (v : Value) (key : String) : Option Value :=
  match v with
  | .object fields => Table.get? fields key
  | _ => none

/-- The value of a field, null if it is missing. -/
def fieldD (v : Value) (key : String) : Value :=
  (v.field? key).getD .null

/-- Whether a value is an object. -/
def isObject : Value → Bool
  | .object _ => true
  | _ => false

/-- Whether a value is null. -/
def isNull : Value → Bool
  | .null => true
  | _ => false

/-- Whether a value has no parts. -/
def isScalar : Value → Bool
  | .list _ => false
  | .object _ => false
  | _ => true

/-- The text of a text. -/
def text? : Value → Option String
  | .text s => some s
  | _ => none

/-- The integer of an integer; a truth value is none. -/
def integer? : Value → Option Int
  | .int n => some n
  | _ => none

/-- The integer a value stands for where a truth value counts as one or zero. -/
def wholeNumber? : Value → Option Int
  | .int n => some n
  | .bool b => some (if b then 1 else 0)
  | _ => none

/-- Whether a value is a number, or a truth value counted as one or zero, of the size of an
integer. -/
def equalsInteger (v : Value) (n : Int) : Bool :=
  match v with
  | .int m => m == n
  | .bool b => (if b then 1 else 0) == n
  | .real x => x.equalsInteger n
  | _ => false

/-- Whether a value counts as present: neither null, false, zero nor empty. -/
def isTruthy : Value → Bool
  | .null => false
  | .bool b => b
  | .int n => n != 0
  | .real x => !x.isZero
  | .text s => s != ""
  | .list items => !items.isEmpty
  | .object fields => !fields.isEmpty

/-- The word that messages use for the kind of a value. -/
def kindName : Value → String
  | .null => "NoneType"
  | .bool _ => "bool"
  | .int _ => "int"
  | .real _ => "float"
  | .text _ => "str"
  | .list _ => "list"
  | .object _ => "dict"

mutual

/-- A value as a message shows it: texts in quotes, lists in brackets, objects in braces. -/
def display : Value → String
  | .null => "None"
  | .bool b => if b then "True" else "False"
  | .int n => Text.integer n
  | .real x => x.literal
  | .text s => Text.quoted s
  | .list items => "[" ++ String.intercalate ", " (displayItems items) ++ "]"
  | .object fields => "\x7b" ++ String.intercalate ", " (displayFields fields) ++ "\x7d"

/-- The items of a list as a message shows them. -/
def displayItems : List Value → List String
  | [] => []
  | v :: vs => v.display :: displayItems vs

/-- The fields of an object as a message shows them. -/
def displayFields : List (String × Value) → List String
  | [] => []
  | (k, v) :: fs => (Text.quoted k ++ ": " ++ v.display) :: displayFields fs

end

/-- A value inside a sentence: a text as it is, anything else as a message shows it. -/
def plain : Value → String
  | .text s => s
  | v => v.display

mutual

/-- Whether no integer in a value is too long to be written. -/
def isShort : Value → Bool
  | .int n => n.natAbs < Text.numberLimit
  | .list items => areShort items
  | .object fields => haveShort fields
  | _ => true

/-- Whether no integer in values is too long. -/
def areShort : List Value → Bool
  | [] => true
  | v :: vs => v.isShort && areShort vs

/-- Whether no integer in the values of fields is too long. -/
def haveShort : List (String × Value) → Bool
  | [] => true
  | (_, v) :: fs => v.isShort && haveShort fs

end

/-- The values that a value runs through: the items of a list, the signs of a text, the names of
the fields of an object. -/
def elements? : Value → Option (List Value)
  | .list items => some items
  | .text s => some ((Text.signs s.toList).map fun sign => .text (String.ofList sign))
  | .object fields => some (fields.map fun f => .text f.1)
  | _ => none

@[simp] theorem wholeNumber?_int (n : Int) : (Value.int n).wholeNumber? = some n := rfl

@[simp] theorem integer?_int (n : Int) : (Value.int n).integer? = some n := rfl

theorem integer?_eq_some_iff {v : Value} {n : Int} : v.integer? = some n ↔ v = .int n := by
  cases v <;> simp [integer?]

theorem isShort_natCast (n : Nat) : isShort (.int n) = decide (n < Text.numberLimit) := by
  rw [isShort, Int.natAbs_natCast]

end Value

end Propositional
