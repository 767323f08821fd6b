import BridgeFinder.CommandLine.Flag

/-!
# Faults of a command line

What can be wrong with the arguments of the command, and how it is said.
-/

namespace BridgeFinder.CommandLine

/-- The name of the command. -/
def command : String := "hue-discover"

/-- A fault. -/
inductive Fault where
  /-- An argument is not understood.  `similar` is the flag that may have been meant,
  and `given` are the flags that were given before. -/
  | unexpected (argument : String) (similar : Option Flag) (given : List Flag)
  /-- A flag lacks its value. -/
  | missingValue (flag : Flag)
  /-- The value of a flag cannot be read. -/
  | invalidValue (value : String) (flag : Flag) (reason : String)
  /-- A flag takes no value but was given one. -/
  | excessValue (value : String) (flag : Flag) (given : List Flag)
  /-- A flag is given more than once. -/
  | repeated (flag : Flag)
deriving DecidableEq, Repr

namespace Fault

/-- What is wrong. -/
def problem : Fault → String
  | unexpected argument none _ => "unexpected argument '" ++ argument ++ "' found"
  | unexpected argument (some flag) _ =>
      "unexpected argument '" ++ argument ++ "' found\n\n  tip: a similar argument exists: '--" ++
        flag.name ++ "'"
  | missingValue flag => "a value is required for '" ++ flag.text ++ "' but none was supplied"
  | invalidValue value flag reason =>
      "invalid value '" ++ value ++ "' for '" ++ flag.text ++ "': " ++ reason
  | excessValue value flag _ =>
      "unexpected value '" ++ value ++ "' for '" ++ flag.text ++ "' found; no more were expected"
  | repeated flag => "the argument '" ++ flag.text ++ "' cannot be used multiple times"

/-- The flags that set an argument, as alternatives. -/
def alternatives : String :=
  "<" ++ "|".intercalate ((Flag.all.filter Flag.setsArgument).map Flag.text) ++ ">"

/-- A usage line that names the given flags, or says that there are options. -/
def usageOf (words : List String) : String :=
  "\n\nUsage: " ++ " ".intercalate (command :: if words.isEmpty then ["[OPTIONS]"] else words)

/-- The usage line that goes with a fault. -/
def usage : Fault → String
  | unexpected _ none given => usageOf (given.map Flag.text)
  | unexpected _ (some flag) given =>
      usageOf ((if given.contains flag then given else given ++ [flag]).map Flag.text)
  | excessValue _ flag given =>
      if given.isEmpty then usageOf [flag.text]
      else usageOf ((if flag.setsArgument then [] else [flag.text]) ++ [alternatives])
  | repeated _ => usageOf []
  | _ => ""

/-- The text of a fault. -/
def message (fault : Fault) : String :=
  "error: " ++ fault.problem ++ fault.usage ++ "\n\nFor more information, try '--help'.\n"

end Fault

end BridgeFinder.CommandLine
