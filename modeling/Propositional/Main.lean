import Propositional.CommandLine.Command

/-!
# The command line

Reads the settings from the environment and the files that a command needs, runs the command, and
prints what it answers.
-/

namespace Propositional.CommandLine

/-- How the commands are called. -/
def usage : String :=
  String.intercalate "\n"
    ["usage:",
     "  check [FILE]                      verify a proof",
     "  show FORMULA [--ascii]            canonical form",
     "  taut FORMULA                      tautology test",
     "  entails [PREMISE ...] -c FORMULA  entailment with countermodels",
     "  table FORMULA ...                 truth table",
     "  axiom N --alpha F --beta F [--gamma F]",
     "                                    axiom instance",
     "  exercise CATALOG ID FILE          verify a solution of an exercise"]

/-- The text of a file, if it can be read. -/
def readText? (file : String) : IO (Option String) := do
  try
    return some (Text.receive (← IO.FS.readFile (Text.send file)))
  catch _ =>
    return none

/-- The variables of the environment that settings are read from. -/
def readEnvironment : IO (Table String) := do
  let mut found : Table String := []
  for name in Settings.names do
    if let some value ← IO.getEnv name then
      found := found.set name (Text.receive value)
  return found

/-- Prints the notes of at least the level that the settings ask for. -/
def printNotes (s : Settings) (notes : List Journal.Note) : IO Unit := do
  let level := (Journal.Level.ofName? s.logLevel).getD .warning
  for n in Journal.atLeast level notes do
    IO.eprintln (Text.send ("[" ++ n.level.name ++ "] - " ++ n.source ++ " - " ++ n.message))

/-- Runs a command: reads its files, and prints its notes and its report. -/
def runCommand (settings : Settings) (command : Command) : IO UInt32 := do
  let mut texts : Table String := []
  for file in command.files do
    if let some text ← readText? file then
      texts := texts.set file text
  let outcome := command.run settings texts.get?
  printNotes settings outcome.notes
  match Command.report Text.isEncodable outcome with
  | .ok report =>
    IO.print (Text.send report.output)
    IO.eprint (Text.send report.complaint)
    return report.status.toUInt32
  | .error f =>
    IO.eprintln f.kindName
    return 1

/-- Runs the command that the arguments give. -/
def execute (args : List String) : IO UInt32 := do
  let env ← readEnvironment
  let some settings := Settings.ofEnvironment? env.get?
    | IO.eprintln "a setting is not an integer"; return 1
  match Command.ofArguments (args.map Text.receive) with
  | .error .help => IO.println usage; return 0
  | .error .usage => IO.eprintln usage; return 2
  | .ok command => runCommand settings command

end Propositional.CommandLine

/-- Runs the command that the arguments give. -/
def main (args : List String) : IO UInt32 :=
  Propositional.CommandLine.execute args
