import Propositional.Failure

/-!
# Formulas written as lists

A document may write a formula as a list of signs instead of a text. Signs are texts of any
length. White space is passed over, and a sign that begins a name is joined with the signs behind
it that continue one. No other signs are read, so such a list writes at most a variable, and its
name is the list of its signs. Letters are told by the order of texts: a sign begins a name if it
lies between the first and the last letter of an alphabet.

## Main definitions

* `Signs.scan`: the tokens of a list of signs
* `Formula.ofSigns`: the formula that a list of signs writes
* `Formula.ofValue`: the formula that a document writes
* `Formula.isWritable`: whether a formula has a text
-/

namespace Propositional

namespace Signs

/-- Whether a text lies between two others in their order. -/
def isBetween (first last s : String) : Bool :=
  decide (first ≤ s) && decide (s ≤ last)

/-- Whether a sign is white space. -/
def isBlank (s : String) : Bool :=
  s != "" && s.toList.all Text.isBlank

/-- Whether a sign may begin a name. -/
def isNameStart (s : String) : Bool :=
  isBetween "A" "Z" s || isBetween "Α" "Ω" s || isBetween "α" "ω" s

/-- Whether a sign may continue a name. -/
def isNamePart (s : String) : Bool :=
  isNameStart s || (s != "" && s.toList.all Text.isDigit) || s == "_"

/-- The name that signs so far, the last one first, write from an offset on. -/
def nameToken (offset : Nat) (signs : List Value) : Token :=
  { kind := .var, text := (Value.list signs.reverse).display, offset }

/-- The tokens of signs that begin at an offset. Behind the beginning of a name, `name` holds
where it began and its signs so far, the last one first. -/
def scanFrom (offset : Nat) (name : Option (Nat × List Value)) :
    List Value → Except Breach (List Token)
  | [] =>
    let stop : Token := { kind := .stop, text := "", offset }
    .ok ((name.map fun n => nameToken n.1 n.2).toList ++ [stop])
  | v :: vs =>
    match name, v with
    | some _, .text s =>
      if isNamePart s then
        scanFrom (offset + 1) (name.map fun n => (n.1, v :: n.2)) vs
      else if isBlank s then
        (scanFrom (offset + 1) none vs).map
          ((name.map fun n => nameToken n.1 n.2).toList ++ ·)
      else .error .notASign
    | none, .text s =>
      if isBlank s then scanFrom (offset + 1) none vs
      else if isNameStart s then scanFrom (offset + 1) (some (offset, [v])) vs
      else .error .notASign
    | some _, _ => .error .notText
    | none, _ => .error .notASign

/-- The tokens of a list of signs. -/
def scan (signs : List Value) : Except Breach (List Token) :=
  scanFrom 0 none signs

end Signs

namespace Formula

/-- The formula that a list of signs writes, if its tree is no higher than `maxDepth`. -/
def ofSigns (maxDepth : Int) (signs : List Value) : Except Failure Reading :=
  match Signs.scan signs with
  | .error b => .error (.breach b)
  | .ok ts => .ok (Formula.ofTokens maxDepth ts)

/-- The formula that a document writes: a text, or a list of signs. An empty object writes what an
empty text does; any other object is asked for its first sign in vain. -/
def ofValue (maxDepth : Int) (v : Value) : Except Failure Reading :=
  match v with
  | .text s => .ok (Formula.parse maxDepth s)
  | .list signs => ofSigns maxDepth signs
  | .object [] => .ok (Formula.parse maxDepth "")
  | .object _ => .error (.notFound (.int 0))
  | _ => .error (.breach .notText)

/-- Whether a formula has a text. A name that is a list of signs can be shown alone but not be
joined to anything. -/
def isWritable : Formula → Bool
  | .var _ => true
  | f => f.leaves.all Token.isName

end Formula

end Propositional
