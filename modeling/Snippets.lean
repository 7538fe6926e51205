import Snippets.Json.Reader
import Snippets.Main
import Snippets.Rules.Workspace
import Snippets.Session.Schedule
import Snippets.Proofs.Script.Grammar
import Snippets.Proofs.Script.Tokens
import Snippets.Proofs.Script.Concat
import Snippets.Proofs.Script.Writing
import Snippets.Proofs.Script.Bare
import Snippets.Proofs.Script.Truncation
import Snippets.Proofs.Script.Totality
import Snippets.Proofs.Page.Skips
import Snippets.Proofs.Page.Queries
import Snippets.Proofs.Page.Searching
import Snippets.Proofs.Page.Arming
import Snippets.Proofs.Session.Move
import Snippets.Proofs.Session.Turns
import Snippets.Proofs.Session.Steps
import Snippets.Proofs.Session.Trail
import Snippets.Proofs.Session.Dispatch
import Snippets.Proofs.Session.Gateway
import Snippets.Proofs.Session.Loading
import Snippets.Proofs.Session.Sharing
import Snippets.Proofs.Session.Suppression
import Snippets.Proofs.Session.Closing
import Snippets.Proofs.Session.Order
import Snippets.Proofs.Session.Tally
import Snippets.Proofs.Session.Launch
import Snippets.Proofs.Session.Updates
import Snippets.Proofs.Session.Draining
import Snippets.Proofs.Session.Disposal
import Snippets.Proofs.Session.Refusal
import Snippets.Proofs.Session.Listening
import Snippets.Proofs.Session.Blocks
import Snippets.Proofs.Session.Accounting
import Snippets.Proofs.Session.Jobs
import Snippets.Proofs.Session.Feeding
import Snippets.Proofs.Registry.Registrations
import Snippets.Proofs.Config.Environment
import Snippets.Proofs.Text.Pieces
import Snippets.Proofs.Text.Utf8
import Snippets.Proofs.Number.Numerals
import Snippets.Proofs.Json.Writing
import Snippets.Proofs.Json.Grammar
import Snippets.Proofs.Json.Roundtrip
import Snippets.Proofs.Json.Indented
import Snippets.Proofs.External.Compiling
import Snippets.Proofs.External.Payload
import Snippets.Proofs.External.Locator
import Snippets.Proofs.File.Loading
import Snippets.Proofs.Event.Rounds
import Snippets.Proofs.Event.Snapshot
import Snippets.Proofs.Rules.Reloading
import Snippets.Proofs.Rules.History
import Snippets.Proofs.Yaml.Kinds
import Snippets.Proofs.Cli.Fetching
import Snippets.Proofs.Cli.Telling
import Snippets.Proofs.Cli.Delivery
import Snippets.Proofs.Cli.Completion
import Snippets.Proofs.Cli.Failures
import Snippets.Proofs.Cli.Drawing
import Snippets.Proofs.Cli.Preview
