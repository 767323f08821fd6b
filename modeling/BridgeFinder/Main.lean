import BridgeFinder.CommandLine
import BridgeFinder.Network.Offline

/-!
# The program

Reads the arguments, the environment and the configuration file, runs the command
and prints what it leaves behind.  The program opens no sockets, so it searches as
on a host without a network.
-/

namespace BridgeFinder.Main

/-- The variables of the environment that give settings. -/
def variableNames : List String :=
  let name (steps : List String) : String :=
    "HUE_DISCOVERY" ++ String.join (steps.map fun step => "__" ++ step.toUpper)
  Settings.schema.flatMap fun (entry, content) =>
    match content with
    | .leaf _ => [name [entry]]
    | .group group => group.leaves.map fun (leaf, _) => name [entry, leaf]

/-- The part of the environment that gives settings. -/
def environment : IO Layered.Environment := do
  let values ← variableNames.mapM fun name => do
    let value ← IO.getEnv name
    return value.map fun value => (name, value)
  return values.filterMap id

/-- The files that a path may stand for, as far as they can be read. -/
def files (path : String) : IO Layered.Files := do
  let endings := "" :: Layered.extensions.map fun (extension, _) => "." ++ extension
  let texts ← endings.mapM fun ending => do
    let name : String := path ++ ending
    try
      let text ← IO.FS.readFile name
      return some (Layered.plainName path ++ ending, text)
    catch _ => return none
  return { texts := texts.filterMap id }

/-- The path of the configuration file that the arguments name. -/
def configPath? (arguments : List String) : Option String :=
  match CommandLine.Request.parse arguments with
  | .ok (.search arguments) => arguments.config
  | _ => none

/-- The session of a search: the first one is numbered one. -/
def identify (accepted : Nat) : Session where
  request := ⟨toString (accepted + 1)⟩

end BridgeFinder.Main

open BridgeFinder in
/-- Run the command. -/
def main (arguments : List String) : IO UInt32 := do
  let files ←
    match Main.configPath? arguments with
    | some path => Main.files path
    | none => pure {}
  let output := CommandLine.run arguments files (← Main.environment)
    (Network.offline (.ok [])) Main.identify
  (← IO.getStdout).putStr output.stdout
  (← IO.getStderr).putStr output.stderr
  return UInt32.ofNat output.exit
