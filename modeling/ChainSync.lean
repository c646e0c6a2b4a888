import ChainSync.Address.Normalize
import ChainSync.Address.Offsets
import ChainSync.Amount
import ChainSync.Codec.Base64
import ChainSync.Codec.Hex
import ChainSync.Decimal.Reading
import ChainSync.Hub.Notify
import ChainSync.Main
import ChainSync.Proofs.Address.Grammar
import ChainSync.Proofs.Address.Normalize
import ChainSync.Proofs.Address.Offsets
import ChainSync.Proofs.Amount.Conversion
import ChainSync.Proofs.Calendar.Days
import ChainSync.Proofs.Calendar.Formats
import ChainSync.Proofs.Cancel.Answers
import ChainSync.Proofs.Cancel.Census
import ChainSync.Proofs.Cancel.Outside
import ChainSync.Proofs.Cancel.Reach
import ChainSync.Proofs.Cancel.Watchers
import ChainSync.Proofs.Codec.Base64
import ChainSync.Proofs.Codec.Hex
import ChainSync.Proofs.Controller.Dropped
import ChainSync.Proofs.Controller.InOrder
import ChainSync.Proofs.Controller.Isolation
import ChainSync.Proofs.Controller.Overtaken
import ChainSync.Proofs.Controller.Refusals
import ChainSync.Proofs.Controller.Rescanned
import ChainSync.Proofs.Controller.Start
import ChainSync.Proofs.Controller.Told
import ChainSync.Proofs.Decimal.Nearest
import ChainSync.Proofs.Decimal.Whole
import ChainSync.Proofs.Engine.Outside
import ChainSync.Proofs.Estimate.Projection
import ChainSync.Proofs.Float.Nearness
import ChainSync.Proofs.Float.Rounding
import ChainSync.Proofs.Hub.FanOut
import ChainSync.Proofs.Hub.Life
import ChainSync.Proofs.Hub.Replay
import ChainSync.Proofs.Logging.Pruning
import ChainSync.Proofs.Logging.Rotation
import ChainSync.Proofs.Logging.Storing
import ChainSync.Proofs.Rescan.Account
import ChainSync.Proofs.Rescan.Bridge
import ChainSync.Proofs.Rescan.Heeding
import ChainSync.Proofs.Rescan.Overlap
import ChainSync.Proofs.Rescan.Picture
import ChainSync.Proofs.Rescan.Sights
import ChainSync.Proofs.Rescan.Untaped
import ChainSync.Proofs.Routine.Shows
import ChainSync.Proofs.Routine.Surely
import ChainSync.Proofs.Routine.Tracks
import ChainSync.Proofs.Session.Calls
import ChainSync.Proofs.Session.Checked
import ChainSync.Proofs.Session.Coherent
import ChainSync.Proofs.Session.Consistent
import ChainSync.Proofs.Session.Ended
import ChainSync.Proofs.Session.Failing
import ChainSync.Proofs.Session.Percent
import ChainSync.Proofs.Session.Polling
import ChainSync.Proofs.Session.Shares
import ChainSync.Proofs.Session.Snapshot
import ChainSync.Proofs.Simulation.Blocks
import ChainSync.Proofs.Simulation.Fetch
import ChainSync.Proofs.Simulation.Headers
import ChainSync.Proofs.Simulation.Plan
import ChainSync.Proofs.Simulation.Steps
import ChainSync.Proofs.Simulation.Trace
import ChainSync.Proofs.Simulation.Work
import ChainSync.Proofs.Text.Ascii
import ChainSync.Proofs.Wire.Layout
import ChainSync.Proofs.Wire.RoundTrip
import ChainSync.Rehearsal.Listener
import ChainSync.Rehearsal.Rescans
import ChainSync.Rehearsal.Script
import ChainSync.Wire.Wallet
