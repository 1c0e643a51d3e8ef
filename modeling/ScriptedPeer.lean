import ScriptedPeer.Call.Exchange
import ScriptedPeer.Call.Reading
import ScriptedPeer.Drain
import ScriptedPeer.Endpoint
import ScriptedPeer.Fault
import ScriptedPeer.Handler
import ScriptedPeer.Launch
import ScriptedPeer.Lifecycle
import ScriptedPeer.Main
import ScriptedPeer.Message
import ScriptedPeer.Method
import ScriptedPeer.Network
import ScriptedPeer.Performance
import ScriptedPeer.Policy
import ScriptedPeer.Profile
import ScriptedPeer.Program.Arguments
import ScriptedPeer.Program.Fault
import ScriptedPeer.Program.Start
import ScriptedPeer.Rehearsal.Cast
import ScriptedPeer.Rehearsal.Clock
import ScriptedPeer.Rehearsal.Play
import ScriptedPeer.Rehearsal.Program
import ScriptedPeer.Rehearsal.Script
import ScriptedPeer.Rehearsal.Shutdown
import ScriptedPeer.Rehearsal.Turn
import ScriptedPeer.RequestLoop
import ScriptedPeer.Roster
import ScriptedPeer.Scenario.Catalog
import ScriptedPeer.Scenario.Id
import ScriptedPeer.Scenario.Plan
import ScriptedPeer.Scenario.Wiring
import ScriptedPeer.Sequence
import ScriptedPeer.Server
import ScriptedPeer.ServiceTable
import ScriptedPeer.Settings
import ScriptedPeer.Settings.Document
import ScriptedPeer.Stop
import ScriptedPeer.Text.Blank
import ScriptedPeer.Text.Numeral
import ScriptedPeer.Text.Utf8
import ScriptedPeer.Ticker
import ScriptedPeer.Toml.Document
import ScriptedPeer.Toml.Moment
import ScriptedPeer.Toml.Node
import ScriptedPeer.Toml.Number
import ScriptedPeer.Toml.Quoted
import ScriptedPeer.Toml.Reader
import ScriptedPeer.Toml.Value
import ScriptedPeer.Wire.Frame
import ScriptedPeer.Wire.Layout
import ScriptedPeer.Wire.Stream
import ScriptedPeer.Wire.Values
import ScriptedPeer.Proofs.Wire.Delivery
import ScriptedPeer.Proofs.Call.Delivery
import ScriptedPeer.Proofs.Call.Dispatch
import ScriptedPeer.Proofs.Counter
import ScriptedPeer.Proofs.Reply.Limits
import ScriptedPeer.Proofs.Reply.Sequenced
import ScriptedPeer.Proofs.RequestLoop.World
import ScriptedPeer.Proofs.RequestLoop.Bounded
import ScriptedPeer.Proofs.RequestLoop.BoundedRun
import ScriptedPeer.Proofs.Wire.ReadOnly
import ScriptedPeer.Proofs.Wire.Body
import ScriptedPeer.Proofs.Wire.BackToBack
import ScriptedPeer.Proofs.Call.Grammar
import ScriptedPeer.Proofs.Call.Partial
import ScriptedPeer.Proofs.Wire.Streaming
import ScriptedPeer.Proofs.Call.Arrival
import ScriptedPeer.Proofs.RequestLoop.Echo
import ScriptedPeer.Proofs.RequestLoop.EchoRun
import ScriptedPeer.Proofs.Lifecycle.Starting
import ScriptedPeer.Proofs.Reply.Independent
import ScriptedPeer.Proofs.Lifecycle.Courses
import ScriptedPeer.Proofs.Lifecycle.Draining
import ScriptedPeer.Proofs.Serving.World
import ScriptedPeer.Proofs.Serving.Visits
import ScriptedPeer.Proofs.Serving.ReplyLimit
import ScriptedPeer.Proofs.RequestLoop.Numbering
import ScriptedPeer.Proofs.RequestLoop.Endings
import ScriptedPeer.Proofs.Lifecycle.Tallies
import ScriptedPeer.Proofs.Lifecycle.Session
import ScriptedPeer.Proofs.Serving.Outcomes
import ScriptedPeer.Proofs.Serving.Accounts
import ScriptedPeer.Proofs.Serving.Totals
import ScriptedPeer.Proofs.RequestLoop.Failures
import ScriptedPeer.Proofs.Scenario.Lookup
import ScriptedPeer.Proofs.Program.Building
import ScriptedPeer.Proofs.Rehearsal.Onward
import ScriptedPeer.Proofs.Program.Beginning
import ScriptedPeer.Proofs.Program.Exiting
import ScriptedPeer.Proofs.Wire.Acceptance
import ScriptedPeer.Proofs.RequestLoop.Periodic
import ScriptedPeer.Proofs.RequestLoop.Spacing
import ScriptedPeer.Proofs.Call.Answer
import ScriptedPeer.Proofs.Scenario.Spelling
import ScriptedPeer.Proofs.Counter.Uses
import ScriptedPeer.Proofs.Endpoint
import ScriptedPeer.Proofs.Toml.Distinct
import ScriptedPeer.Proofs.Settings.Given
