import WireCost.Decimal.Layout
import WireCost.Decimal.Reading
import WireCost.Json.Reader
import WireCost.Json.Writer
import WireCost.EdgeBox.Update
import WireCost.BoxCost
import WireCost.Diagnostic.Document
import WireCost.Diagnostic.Log
import WireCost.Diagnostic.Text
import WireCost.Netlist.Check
import WireCost.Netlist.Document
import WireCost.Geometry.Store
import WireCost.Geometry.Table
import WireCost.Timing.Table
import WireCost.Engine.Audit
import WireCost.Engine.Evaluate
import WireCost.RunError
import WireCost.Settings.Check
import WireCost.Settings.Document
import WireCost.Main
import WireCost.Proofs.Engine.Drift
import WireCost.Proofs.Engine.Legal
import WireCost.Proofs.Engine.OneLayer
import WireCost.Proofs.Engine.Order
import WireCost.Proofs.Engine.Pending
import WireCost.Proofs.Engine.Threshold
import WireCost.Proofs.Engine.TotalsCheck
import WireCost.Proofs.Engine.Touched
import WireCost.Proofs.Geometry.PinMove
import WireCost.Proofs.Netlist.Check
import WireCost.Proofs.Placement.Cost
import WireCost.Proofs.ChannelReport
import WireCost.Proofs.Netlist.Calls
import WireCost.Proofs.Engine.Make
import WireCost.Proofs.Engine.Resync
import WireCost.Proofs.Engine.Oracle
import WireCost.Proofs.EdgeBox.Inverse
import WireCost.Proofs.Interior
import WireCost.Proofs.Netlist.Scan
import WireCost.Proofs.Placement.Document
import WireCost.Proofs.Diagnostic.Log
import WireCost.Proofs.Timing.FlatTables
import WireCost.Proofs.Geometry.Representation
import WireCost.Proofs.Stress.Proposal
