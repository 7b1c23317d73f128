import Propositional.Text.Digit
import Propositional.Text.Upper

/-!
# Settings

The limits that guard against costly searches, and where the service listens. They are read from
environment variables; a blank variable counts as missing, and a number must be an integer.

## Main definitions

* `Settings`: the settings with their defaults
* `Settings.ofEnvironment?`: the settings that an environment gives
-/

namespace Propositional

/-- The settings, with the values they have when nothing else is said. -/
structure Settings where
  /-- The most variables for which a tautology check looks at all valuations. -/
  tautologyLimit : Int := 10
  /-- The most variables for which entailment looks at all valuations. -/
  entailmentLimit : Int := 12
  /-- How many valuations entailment samples above its limit. -/
  entailmentSamples : Int := 4096
  /-- The most countermodels that entailment reports. -/
  maxCountermodels : Int := 3
  /-- The greatest height of a formula that is read. -/
  maxDepth : Int := 100
  /-- The least level of notes that are shown. -/
  logLevel : String := "WARNING"
  /-- Whether the service shows its own faults. -/
  debug : Bool := false
  /-- The address that the service listens on. -/
  host : String := "127.0.0.1"
  /-- The port that the service listens on. -/
  port : Int := 5000
deriving DecidableEq, Inhabited

namespace Settings

/-- The integer of a variable, a default if it is missing or blank, and nothing if it is no
integer. -/
def integerOf? (raw : Option String) (default : Int) : Option Int :=
  match raw with
  | none => some default
  | some s => if s.toList.all Text.isBlank then some default else (Text.readInteger s).toOption

/-- The names of the variables that settings are read from. -/
def names : List String :=
  ["TAUTOLOGY_LIMIT", "ENTAILMENT_LIMIT", "ENTAILMENT_SAMPLES", "MAX_COUNTERMODELS", "MAX_DEPTH",
    "LOG_LEVEL", "DEBUG", "HOST", "PORT"].map ("PROOFKERNEL_" ++ ·)

/-- The settings of an environment, unless a number in it is none. -/
def ofEnvironment? (env : String → Option String) : Option Settings := do
  let d : Settings := {}
  let tautologyLimit ← integerOf? (env "PROOFKERNEL_TAUTOLOGY_LIMIT") d.tautologyLimit
  let entailmentLimit ← integerOf? (env "PROOFKERNEL_ENTAILMENT_LIMIT") d.entailmentLimit
  let entailmentSamples ← integerOf? (env "PROOFKERNEL_ENTAILMENT_SAMPLES") d.entailmentSamples
  let maxCountermodels ← integerOf? (env "PROOFKERNEL_MAX_COUNTERMODELS") d.maxCountermodels
  let maxDepth ← integerOf? (env "PROOFKERNEL_MAX_DEPTH") d.maxDepth
  let port ← integerOf? (env "PROOFKERNEL_PORT") d.port
  let debug := match env "PROOFKERNEL_DEBUG" with
    | none => d.debug
    | some s => ["true", "1", "yes"].contains (Text.small s)
  some
    { tautologyLimit, entailmentLimit, entailmentSamples, maxCountermodels, maxDepth, debug, port
      logLevel := Text.upper ((env "PROOFKERNEL_LOG_LEVEL").getD d.logLevel)
      host := (env "PROOFKERNEL_HOST").getD d.host }

end Settings

end Propositional
