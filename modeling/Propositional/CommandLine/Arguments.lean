import Propositional.Text.Digit

/-!
# Arguments of a command

The arguments of a command are words that stand by themselves and options. An option has a short
or a long name; its value follows it, or is written into the same word behind an equals sign, or
directly behind a short name; a double dash there leaves the value empty. Other short names may be
joined to that of an option without a value; if one of them is unknown the whole word is refused.
A long name may be cut short as long as it stays the only one with that beginning. Behind a double
dash all words stand by themselves.

A word with a dash in front still stands by itself if it is the dash alone, a negative number, or
no option and holds a space.

The arguments are taken in their order: whoever asks for help gets it unless an earlier argument
is refused. A word that could be several options is refused before all others, an option that the
command does not know after all others.

## Main definitions

* `Arguments.Spec`: an option that a command knows
* `Arguments.Refusal`: why arguments give no command
* `Arguments.classify`: what a word is
* `Arguments.read`: the words and the options of a command
-/

namespace Propositional.Arguments

/-- An option that a command knows: its names, and whether it has a value. -/
structure Spec where
  key : String
  names : List String
  hasValue : Bool
deriving DecidableEq, Inhabited

/-- The option that asks for help. -/
def help : Spec :=
  { key := "help", names := ["-h", "--help"], hasValue := false }

/-- Why arguments give no command: they do not fit, or ask for help. -/
inductive Refusal where
  | usage
  | help
deriving DecidableEq, Inhabited

/-- What a word is: one that stands by itself, an option, perhaps with its value in the same word,
an option that got a value it does not have or lacks the one it has, an option that the command
does not know, what could be several options, or the double dash. -/
inductive Item where
  | word (s : String)
  | option (spec : Spec) (value : Option String)
  | overfull
  | unknown
  | ambiguous
  | divider
deriving DecidableEq, Inhabited

/-- The option of a name. -/
def named? (specs : List Spec) (name : String) : Option Spec :=
  specs.find? fun spec => spec.names.contains name

/-- A word cut at its first equals sign. -/
def cutAtEquals? (s : String) : Option (String × String) :=
  let cs := s.toList
  match cs.dropWhile (· != '=') with
  | [] => none
  | _ :: value => some (String.ofList (cs.takeWhile (· != '=')), String.ofList value)

/-- The options with a name that begins as given. -/
def beginning (specs : List Spec) (start : String) : List Spec :=
  specs.flatMap fun spec =>
    (spec.names.filter fun name => start.toList.isPrefixOf name.toList).map fun _ => spec

/-- The options that a word with a dash may be short for, with the value it holds. -/
def abbreviated (specs : List Spec) (s : String) : List (Spec × Option String) :=
  match s.toList with
  | '-' :: '-' :: _ =>
    match cutAtEquals? s with
    | some (name, value) => (beginning specs name).map fun spec => (spec, some value)
    | none => (beginning specs s).map fun spec => (spec, none)
  | '-' :: c :: rest =>
    match named? specs (String.ofList ['-', c]) with
    | some spec => [(spec, some (String.ofList rest))]
    | none => (beginning specs s).map fun spec => (spec, none)
  | _ => []

/-- Whether digits, perhaps with a point and digits behind it, are all there is. -/
def isUnsignedNumber (cs : List Char) : Bool :=
  match cs.dropWhile Text.isDecimal with
  | [] => !cs.isEmpty
  | '.' :: fraction => !fraction.isEmpty && fraction.all Text.isDecimal
  | _ => false

/-- Whether a word is a negative number; a line feed may end it. -/
def isNegativeNumber (s : String) : Bool :=
  match s.toList with
  | '-' :: cs =>
    isUnsignedNumber (if cs.getLast? == some '\n' then cs.dropLast else cs)
  | _ => false

/-- The value of an option in the same word; a double dash leaves it empty. -/
def inlineValue (value : String) : String :=
  if value == "--" then "" else value

/-- An option without value and the short names joined to its own. The last of them may have its
value behind it. All of them have to be known. -/
def joined (specs : List Spec) (spec : Spec) : List Char → List Item
  | [] => [.option spec none]
  | c :: cs =>
    match named? specs (String.ofList ['-', c]) with
    | none => [.overfull]
    | some next =>
      if next.hasValue then
        let value := if cs.isEmpty then none else some (inlineValue (String.ofList cs))
        [.option spec none, .option next value]
      else
        let later := joined specs next cs
        if later.contains .overfull then [.overfull] else .option spec none :: later

/-- What a word is that begins with the name of an option and goes on with a text: its value, or
short names joined to a short one. -/
def extended (specs : List Spec) (word : String) (spec : Spec) (text : String) : List Item :=
  if spec.hasValue then [.option spec (some (inlineValue text))]
  else if text == "" || word.toList.take 2 == ['-', '-'] then [.overfull]
  else joined specs spec text.toList

/-- What a word with a dash in front is if it is no name of an option. -/
def classifyRest (specs : List Spec) (s : String) : List Item :=
  match abbreviated specs s with
  | [(spec, none)] => [.option spec none]
  | [(spec, some text)] => extended specs s spec text
  | _ :: _ :: _ => [.ambiguous]
  | [] => if isNegativeNumber s || s.toList.contains ' ' then [.word s] else [.unknown]

/-- What a word is. -/
def classify (specs : List Spec) (s : String) : List Item :=
  match s.toList with
  | '-' :: _ :: _ =>
    match named? specs s with
    | some spec => [.option spec none]
    | none =>
      match (cutAtEquals? s).bind fun (name, text) =>
          (named? specs name).map fun spec => extended specs s spec text with
      | some items => items
      | none => classifyRest specs s
  | _ => [.word s]

/-- Whether joined options end with one whose value should be the word behind them. -/
def awaitsWord (items : List Item) : Bool :=
  match items with
  | [] | [_] => false
  | _ =>
    match items.getLast? with
    | some (.option spec none) => spec.hasValue
    | _ => false

/-- Whether the word in front stands by itself. -/
def beginsWithWord : List Item → Bool
  | .word _ :: _ => true
  | _ => false

/-- What the words of a command are. -/
def classifyAll (specs : List Spec) : List String → List Item
  | [] => []
  | s :: rest =>
    if s == "--" then .divider :: rest.map .word
    else
      let items := classify specs s
      let later := classifyAll specs rest
      if awaitsWord items && !beginsWithWord later then .overfull :: later else items ++ later

/-- Gives the options their values; an option without a value takes the word behind it. The first
word that stands by itself has to be accepted, if none was before. -/
def attach (accepts : String → Bool) : Bool → List Item → Except Refusal (List Item)
  | _, [] => .ok []
  | settled, .word s :: rest =>
    if settled || accepts s then (attach accepts true rest).map (.word s :: ·) else .error .usage
  | settled, .divider :: rest => (attach accepts settled rest).map (.divider :: ·)
  | settled, .unknown :: rest => (attach accepts settled rest).bind fun _ => .error .usage
  | _, .overfull :: _ => .error .usage
  | _, .ambiguous :: _ => .error .usage
  | settled, .option spec (some value) :: rest =>
    (attach accepts settled rest).map (.option spec (some value) :: ·)
  | settled, .option spec none :: .word s :: rest =>
    if spec.hasValue then (attach accepts settled rest).map (.option spec (some s) :: ·)
    else if spec == help then .error .help
    else (attach accepts settled (.word s :: rest)).map (.option spec none :: ·)
  | settled, .option spec none :: rest =>
    if spec.hasValue then .error .usage
    else if spec == help then .error .help
    else (attach accepts settled rest).map (.option spec none :: ·)

/-- Whether an item is an option. -/
def Item.isOption : Item → Bool
  | .option _ _ => true
  | _ => false

/-- Whether an item stands by itself. -/
def Item.isWord : Item → Bool
  | .word _ => true
  | _ => false

/-- Whether a double dash stands behind an option that stands behind a word: there are no words
left that it could announce. -/
def hasStrayDivider (items : List Item) : Bool :=
  items.contains .divider
    && (((items.takeWhile (· != .divider)).dropWhile fun i => !i.isWord).any Item.isOption)

/-- The options of a command with their values, and its words in their places. -/
def read (specs : List Spec) (args : List String) (accepts : String → Bool := fun _ => true) :
    Except Refusal (List Item) :=
  let items := classifyAll (help :: specs) args
  if items.contains .ambiguous then .error .usage
  else
    match attach accepts false items with
    | .error r => .error r
    | .ok items => if hasStrayDivider items then .error .usage else .ok items

/-- The words that stand by themselves. -/
def words (items : List Item) : List String :=
  items.filterMap fun
    | .word s => some s
    | _ => none

/-- The words, each for an argument of its own. Behind the double dash another one leaves its
argument empty, unless both stand in front of all other words. -/
def singles (items : List Item) : List (Option String) :=
  let before := words (items.takeWhile (· != .divider))
  let behind := words (items.dropWhile (· != .divider))
  let filled := behind.map fun s => if s == "--" then none else some s
  match before, behind with
  | [], first :: _ => some first :: filled.drop 1
  | _, _ => before.map some ++ filled

/-- The value of an option; the last one counts. -/
def value? (key : String) (items : List Item) : Option String :=
  (items.filterMap fun
    | .option spec value => if spec.key == key then value else none
    | _ => none).getLast?

/-- Whether an option is there. -/
def has (key : String) (items : List Item) : Bool :=
  items.any fun
    | .option spec _ => spec.key == key
    | _ => false

/-- The words of a command if they all stand together. -/
def together? (items : List Item) : Option (List String) :=
  let behind := (items.dropWhile Item.isOption).dropWhile fun i => !i.isOption
  if behind.all Item.isOption then some (words items) else none

end Propositional.Arguments
