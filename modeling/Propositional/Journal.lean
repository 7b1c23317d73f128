/-!
# The journal

Work leaves notes behind: what was checked, what was refused, where a limit was met. A note has a
level, the channel it was left on and a message. Functions hand their notes back in the order in
which they were left.

## Main definitions

* `Journal.Level`, `Journal.Note`: the notes
* `Journal.channel`: the full name of a channel
-/

namespace Propositional.Journal

/-- How much a note matters. -/
inductive Level where
  | debug
  | info
  | warning
  | error
deriving DecidableEq, Inhabited

namespace Level

/-- The levels in order. -/
def rank : Level → Nat
  | .debug => 10
  | .info => 20
  | .warning => 30
  | .error => 40

/-- The name of a level. -/
def name : Level → String
  | .debug => "DEBUG"
  | .info => "INFO"
  | .warning => "WARNING"
  | .error => "ERROR"

/-- The level of a name. -/
def ofName? (s : String) : Option Level :=
  [debug, info, warning, error].find? (·.name == s)

end Level

/-- The channel that all others lie under. -/
def rootChannel : String := "proofkernel"

/-- The full name of a channel: a name that does not lie under the root is put there. -/
def channel (name : String) : String :=
  let under := rootChannel ++ "."
  if name == rootChannel || under.toList.isPrefixOf name.toList then name else under ++ name

/-- A note: its level, its channel and what it says. -/
structure Note where
  level : Level
  source : String
  message : String
deriving DecidableEq, Inhabited

/-- The notes of at least a level. -/
def atLeast (l : Level) (notes : List Note) : List Note :=
  notes.filter fun n => l.rank ≤ n.level.rank

end Propositional.Journal
