/-!
# Flags of the command line

Every flag has a long name, most have a letter, and some take a value.
-/

namespace BridgeFinder.CommandLine

/-- A flag. -/
inductive Flag where
  | config
  | methods
  | timeout
  | json
  | help
  | version
deriving DecidableEq, Repr

namespace Flag

/-- All flags in the order in which they are listed. -/
def all : List Flag :=
  [config, methods, timeout, json, help, version]

/-- The long name. -/
def name : Flag → String
  | config => "config"
  | methods => "methods"
  | timeout => "timeout-secs"
  | json => "json"
  | help => "help"
  | version => "version"

/-- The letter. -/
def letter? : Flag → Option Char
  | config => some 'c'
  | methods => some 'm'
  | timeout => some 't'
  | json => none
  | help => some 'h'
  | version => some 'V'

/-- What the value is called, if the flag takes one. -/
def valueName? : Flag → Option String
  | config => some "CONFIG"
  | methods => some "METHODS"
  | timeout => some "TIMEOUT_SECS"
  | _ => none

/-- What the flag is for. -/
def purpose : Flag → String
  | config => "Path to configuration file"
  | methods =>
      "Discovery methods, comma separated (upnp, nupnp, mdns, ipscan) [default: mdns,nupnp]"
  | timeout => "Stop the search after this many seconds [default: 30]"
  | json => "Print results as JSON"
  | help => "Print help"
  | version => "Print version"

/-- The flag sets an argument, rather than asking for information. -/
def setsArgument : Flag → Bool
  | help => false
  | version => false
  | _ => true

/-- How a flag is written out. -/
def text (flag : Flag) : String :=
  match flag.valueName? with
  | some value => "--" ++ flag.name ++ " <" ++ value ++ ">"
  | none => "--" ++ flag.name

/-- The flag of a long name. -/
def ofName? (name : String) : Option Flag :=
  all.find? fun flag => flag.name = name

/-- The flag of a letter. -/
def ofLetter? (letter : Char) : Option Flag :=
  all.find? fun flag => flag.letter? = some letter

/-- A text followed by blanks up to the given width. -/
def pad (width : Nat) (text : String) : String :=
  text ++ String.ofList (List.replicate (width - text.length) ' ')

/-- How the list of flags begins the line of one. -/
def heading (flag : Flag) : String :=
  match flag.letter? with
  | some letter => "-" ++ letter.toString ++ ", " ++ flag.text
  | none => "    " ++ flag.text

/-- The list of flags. -/
def list : String :=
  let width := (all.map fun flag => flag.heading.length).foldl max 0 + 2
  String.join (all.map fun flag => "  " ++ pad width flag.heading ++ flag.purpose ++ "\n")

end Flag

end BridgeFinder.CommandLine
