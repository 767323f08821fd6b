import BridgeFinder.Bridge.Json
import BridgeFinder.CommandLine.Flag
import BridgeFinder.ReturnCode

/-!
# Reports

The result of a search is printed as a table for people or as a JSON document for
programs.  In the document the members of every object are in alphabetical order.
-/

namespace BridgeFinder.CommandLine

/-- A bridge with its members in alphabetical order. -/
def bridgeEntry (bridge : Bridge) : Json.Value :=
  .object
    [("api_version", .string bridge.apiVersion), ("ip", .string bridge.ip),
     ("model_id", .string bridge.modelId), ("name", .string bridge.name),
     ("swversion", .string bridge.swVersion), ("unique_id", .string bridge.uniqueId)]

/-- The result of a search as a JSON document. -/
def document (bridges : List Bridge) (code : ReturnCode) : Json.Value :=
  .object [("bridges", .array (bridges.map bridgeEntry)), ("code", code.toJson)]

/-- A line of the table. -/
def row (id ip model api name : String) : String :=
  Flag.pad 18 id ++ " " ++ Flag.pad 16 ip ++ " " ++ Flag.pad 8 model ++ " " ++ Flag.pad 10 api ++
    " " ++ name ++ "\n"

/-- The result of a search as a table. -/
def table (bridges : List Bridge) (code : ReturnCode) : String :=
  if bridges.isEmpty then "No bridges found (" ++ code.name ++ ")\n"
  else
    row "ID" "IP" "MODEL" "API" "NAME" ++
      String.join (bridges.map fun bridge =>
        row bridge.uniqueId bridge.ip bridge.modelId bridge.apiVersion bridge.name)

/-- The result of a search as it is printed. -/
def report (json : Bool) (bridges : List Bridge) (code : ReturnCode) : String :=
  if json then (document bridges code).pretty ++ "\n" else table bridges code

end BridgeFinder.CommandLine
