import BridgeFinder.CommandLine.Arguments
import BridgeFinder.CommandLine.Report
import BridgeFinder.Discovery.Follow
import BridgeFinder.Search
import BridgeFinder.Settings.Layered

/-!
# The command

The command loads its settings, searches once, and prints what was found.  A search
that takes longer than the arguments allow is stopped, and what it has found by then
is printed.
-/

namespace BridgeFinder.CommandLine

/-- What a run of the command leaves behind. -/
structure Output where
  exit : Nat
  stdout : String := ""
  stderr : String := ""
deriving DecidableEq, Repr

/-- The version of the command. -/
def versionText : String := command ++ " 0.2.0\n"

/-- What the command says about itself. -/
def helpText : String :=
  command ++ " - Find Philips Hue bridges on the local network\n\nUsage: " ++ command ++
    " [OPTIONS]\n\nOptions:\n" ++ Flag.list

/-- A text whose lines after the first are indented. -/
def indent (text : String) : String :=
  String.join (text.toList.map fun c => if c = '\n' then "\n    " else c.toString)

/-- A run that failed because of a failure. -/
def Output.ofFailure (context : String) (failure : Failure) : Output where
  exit := 1
  stderr :=
    "Error: " ++ context ++ "\n\nCaused by:\n    " ++ indent (failure.message?.getD "") ++ "\n"

/-- A run that ended with an outcome of its search. -/
def Output.ofOutcome (json : Bool) (bridges : List Bridge) (code : ReturnCode) : Output :=
  match code with
  | .success => { exit := 0, stdout := report json bridges code }
  | .stopped => { exit := 0, stdout := report json bridges code }
  | code => { exit := 1, stderr := "Error: Discovery failed: " ++ code.name ++ "\n" }

/-- The time that has passed during a search, in milliseconds. -/
def elapsed (happenings : List Happening) : Nat :=
  (happenings.filterMap Happening.activity?).foldl (fun total activity =>
    total + activity.duration) 0

/-- Search for at most `time` milliseconds.  What does not move in that time never
comes, and a search that has no time at all is stopped before it moves. -/
def searchFor (time limit : Nat) (options : Options) (discovery : Discovery) :
    List Happening × Discovery :=
  let (activities, discovery) := discovery.searchWith options (some (.mk "" []))
  let happenings : List Happening := activities.map .activity
  if time = 0 then
    let (more, discovery) := discovery.halt limit
    (happenings ++ more, discovery)
  else
    match discovery.follow (fun happenings => time ≤ elapsed happenings) limit happenings with
    | (happenings, discovery, .stuck) =>
        let (more, discovery) := discovery.halt limit
        (happenings ++ more, discovery)
    | (happenings, discovery, _) => (happenings, discovery)

/-- Run a search as the arguments ask for. -/
def search {π : Type} (arguments : Arguments) (files : Layered.Files)
    (environment : Layered.Environment) (network : Settings → Network π)
    (identify : Nat → Session) : Output :=
  match Settings.load arguments.config files environment with
  | .error failure => .ofFailure "Failed to load configuration" failure
  | .ok settings =>
      let registry := Registry.standard (network settings) settings
      match Discovery.build settings registry identify with
      | .error failure => .ofFailure "Failed to start discovery" failure
      | .ok discovery =>
          let (happenings, _) := searchFor (arguments.timeout * 1000)
            ((network settings).polls + 2) arguments.methods discovery
          match happenings.findSome? Happening.outcome? with
          | some (bridges, code) => .ofOutcome arguments.json bridges code
          | none =>
              { exit := 1
                stderr := "Error: Search did not report after being stopped\n\nCaused by:\n    " ++
                  "timed out waiting on channel\n" }

/-- Run the command. -/
def run {π : Type} (arguments : List String) (files : Layered.Files)
    (environment : Layered.Environment) (network : Settings → Network π)
    (identify : Nat → Session) : Output :=
  match Request.parse arguments with
  | .error fault => { exit := 2, stderr := fault.message }
  | .ok .help => { exit := 0, stdout := helpText }
  | .ok .version => { exit := 0, stdout := versionText }
  | .ok (.search arguments) => search arguments files environment network identify

end BridgeFinder.CommandLine
