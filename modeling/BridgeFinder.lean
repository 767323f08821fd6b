import BridgeFinder.Activity
import BridgeFinder.Bridge
import BridgeFinder.Bridge.Json
import BridgeFinder.Cloud
import BridgeFinder.CommandLine
import BridgeFinder.CommandLine.Arguments
import BridgeFinder.CommandLine.Fault
import BridgeFinder.CommandLine.Flag
import BridgeFinder.CommandLine.Report
import BridgeFinder.ConfigDocument
import BridgeFinder.Discovery
import BridgeFinder.Discovery.Follow
import BridgeFinder.Discovery.Live
import BridgeFinder.Discovery.Staged
import BridgeFinder.Discovery.Stopping
import BridgeFinder.Dispatcher
import BridgeFinder.Dispatcher.Live
import BridgeFinder.Failure
import BridgeFinder.Found
import BridgeFinder.Http
import BridgeFinder.Ini
import BridgeFinder.Job
import BridgeFinder.Job.Shared
import BridgeFinder.Job.Turn
import BridgeFinder.Json.Decoder
import BridgeFinder.Json.Fault
import BridgeFinder.Json.Reader
import BridgeFinder.Json.Value
import BridgeFinder.Kind
import BridgeFinder.Layered.Environment
import BridgeFinder.Layered.File
import BridgeFinder.Layered.Path
import BridgeFinder.Layered.Value
import BridgeFinder.Main
import BridgeFinder.Mdns.Collect
import BridgeFinder.Mdns.Relay
import BridgeFinder.Mdns.Responder
import BridgeFinder.Mdns.Table
import BridgeFinder.MethodSearch
import BridgeFinder.MethodSearch.Live
import BridgeFinder.MethodSearch.Turn
import BridgeFinder.Net.HostName
import BridgeFinder.Net.Interface
import BridgeFinder.Net.Ipv4
import BridgeFinder.Net.Url
import BridgeFinder.Network
import BridgeFinder.Network.Offline
import BridgeFinder.Number.Binary64
import BridgeFinder.Number.Decimal
import BridgeFinder.Number.Shortest
import BridgeFinder.Options
import BridgeFinder.Proofs.Bridge.Json
import BridgeFinder.Proofs.Cloud.Address
import BridgeFinder.Proofs.Cloud.Entry
import BridgeFinder.Proofs.Cloud.Listing
import BridgeFinder.Proofs.CommandLine.Report
import BridgeFinder.Proofs.ConfigDocument
import BridgeFinder.Proofs.ConfigDocument.Identification
import BridgeFinder.Proofs.ConfigDocument.Written
import BridgeFinder.Proofs.Discovery.Account
import BridgeFinder.Proofs.Discovery.Driven
import BridgeFinder.Proofs.Discovery.Ledger
import BridgeFinder.Proofs.Discovery.Orderly
import BridgeFinder.Proofs.Discovery.Recorded
import BridgeFinder.Proofs.Discovery.Rest
import BridgeFinder.Proofs.Discovery.Search
import BridgeFinder.Proofs.Discovery.Staged
import BridgeFinder.Proofs.Discovery.Stands
import BridgeFinder.Proofs.Discovery.Stop
import BridgeFinder.Proofs.Discovery.Stopping
import BridgeFinder.Proofs.Discovery.Told
import BridgeFinder.Proofs.Discovery.Trace
import BridgeFinder.Proofs.Discovery.Visitors
import BridgeFinder.Proofs.Dispatcher.Account
import BridgeFinder.Proofs.Dispatcher.BreadthFirst
import BridgeFinder.Proofs.Dispatcher.Stands
import BridgeFinder.Proofs.Job.Account
import BridgeFinder.Proofs.Job.Follow
import BridgeFinder.Proofs.Job.Rest
import BridgeFinder.Proofs.Job.Settle
import BridgeFinder.Proofs.Job.Shared
import BridgeFinder.Proofs.Job.Trail
import BridgeFinder.Proofs.Json.Decoded
import BridgeFinder.Proofs.Json.Grammar
import BridgeFinder.Proofs.Json.Labelled
import BridgeFinder.Proofs.Json.Layout
import BridgeFinder.Proofs.Json.Lists
import BridgeFinder.Proofs.Json.Parsing
import BridgeFinder.Proofs.Json.Printing
import BridgeFinder.Proofs.Json.Reading
import BridgeFinder.Proofs.Json.Rearranged
import BridgeFinder.Proofs.Json.Records
import BridgeFinder.Proofs.Json.Skipped
import BridgeFinder.Proofs.Json.Skipping
import BridgeFinder.Proofs.Layered.Merge
import BridgeFinder.Proofs.Layered.Nodes
import BridgeFinder.Proofs.Layered.Texts
import BridgeFinder.Proofs.MacAddress
import BridgeFinder.Proofs.Mdns.Account
import BridgeFinder.Proofs.Mdns.Collect
import BridgeFinder.Proofs.Mdns.Relay.Account
import BridgeFinder.Proofs.Mdns.Relay.Locates
import BridgeFinder.Proofs.Mdns.Relay.Resolves
import BridgeFinder.Proofs.Mdns.Rounds
import BridgeFinder.Proofs.Mdns.Tables
import BridgeFinder.Proofs.MethodSearch.Account
import BridgeFinder.Proofs.MethodSearch.Begun
import BridgeFinder.Proofs.MethodSearch.Finds
import BridgeFinder.Proofs.MethodSearch.Settle
import BridgeFinder.Proofs.Net.Ipv4
import BridgeFinder.Proofs.Net.Private
import BridgeFinder.Proofs.Net.Subnet
import BridgeFinder.Proofs.Net.Url.Authority
import BridgeFinder.Proofs.Net.Url.Front
import BridgeFinder.Proofs.Net.Url.Margin
import BridgeFinder.Proofs.Number.Decimal
import BridgeFinder.Proofs.Number.Rounding
import BridgeFinder.Proofs.Options
import BridgeFinder.Proofs.Outcome
import BridgeFinder.Proofs.Rearranged
import BridgeFinder.Proofs.Registry
import BridgeFinder.Proofs.Runner.Cut
import BridgeFinder.Proofs.Runner.Parts
import BridgeFinder.Proofs.Runner.Queue
import BridgeFinder.Proofs.Runner.Results
import BridgeFinder.Proofs.Runner.Rounds
import BridgeFinder.Proofs.Scan
import BridgeFinder.Proofs.Schedule
import BridgeFinder.Proofs.Search.Account
import BridgeFinder.Proofs.Search.Browse
import BridgeFinder.Proofs.Search.Finds
import BridgeFinder.Proofs.Search.Reports
import BridgeFinder.Proofs.Search.Scan
import BridgeFinder.Proofs.Search.Source
import BridgeFinder.Proofs.Settings.Conversion
import BridgeFinder.Proofs.Settings.Field
import BridgeFinder.Proofs.Settings.Integers
import BridgeFinder.Proofs.Settings.Json
import BridgeFinder.Proofs.Settings.Layered
import BridgeFinder.Proofs.Settings.Loaders
import BridgeFinder.Proofs.Settings.Overrides
import BridgeFinder.Proofs.Settings.Sources
import BridgeFinder.Proofs.Settings.Yaml
import BridgeFinder.Proofs.Ssdp.Candidate
import BridgeFinder.Proofs.Ssdp.Headers
import BridgeFinder.Proofs.Ssdp.Request
import BridgeFinder.Proofs.Ssdp.Stream
import BridgeFinder.Proofs.Task.Always
import BridgeFinder.Proofs.Task.Course
import BridgeFinder.Proofs.Task.Depth
import BridgeFinder.Proofs.Task.Ending
import BridgeFinder.Proofs.Task.Marks
import BridgeFinder.Proofs.Task.Token
import BridgeFinder.Proofs.Task.Yields
import BridgeFinder.Proofs.Telemetry
import BridgeFinder.Proofs.Text.Bytes
import BridgeFinder.Proofs.Text.Case
import BridgeFinder.Proofs.Text.Front
import BridgeFinder.Proofs.Validation.Account
import BridgeFinder.Proofs.Validation.Ledger
import BridgeFinder.Proofs.Yaml.Aliases
import BridgeFinder.Proofs.Yaml.Anchors
import BridgeFinder.Registry
import BridgeFinder.ReturnCode
import BridgeFinder.Runner
import BridgeFinder.Scan
import BridgeFinder.Schedule
import BridgeFinder.Search
import BridgeFinder.Session
import BridgeFinder.Settings
import BridgeFinder.Settings.Json
import BridgeFinder.Settings.Layered
import BridgeFinder.Settings.Schema
import BridgeFinder.Settings.Yaml
import BridgeFinder.Ssdp
import BridgeFinder.Task
import BridgeFinder.Task.Run
import BridgeFinder.Telemetry
import BridgeFinder.Text.Ascii
import BridgeFinder.Text.Character
import BridgeFinder.Text.Quoted
import BridgeFinder.Text.Reader
import BridgeFinder.Text.Similarity
import BridgeFinder.Text.Utf8
import BridgeFinder.Toml.Document
import BridgeFinder.Toml.Quoted
import BridgeFinder.Toml.Scalar
import BridgeFinder.Toml.Table
import BridgeFinder.Validation
import BridgeFinder.Yaml.Cursor
import BridgeFinder.Yaml.Data
import BridgeFinder.Yaml.Node
import BridgeFinder.Yaml.Node.OfTokens
import BridgeFinder.Yaml.Scalar
import BridgeFinder.Yaml.Token
import BridgeFinder.Yaml.Token.Scalar
import BridgeFinder.Yaml.Token.Scan
import BridgeFinder.Yaml.Token.Tag
