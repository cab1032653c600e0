import Fieldbus.Alarm
import Fieldbus.Bits.Access
import Fieldbus.Bits.Basic
import Fieldbus.Bits.Cursor
import Fieldbus.Bits.Field
import Fieldbus.Device.Basic
import Fieldbus.Device.Validity
import Fieldbus.Drive
import Fieldbus.Error
import Fieldbus.Frame.Image
import Fieldbus.Frame.Layout
import Fieldbus.Frame.LayoutText
import Fieldbus.Frame.Value
import Fieldbus.Frame.View
import Fieldbus.Gateway.Configuration
import Fieldbus.Gateway.Operation
import Fieldbus.Gateway.Query
import Fieldbus.Gateway.Script
import Fieldbus.Gateway.State
import Fieldbus.Journal.Event
import Fieldbus.Journal.Outbox
import Fieldbus.Link.Bell
import Fieldbus.Link.State
import Fieldbus.Link.Status
import Fieldbus.Link.Watchdog
import Fieldbus.Message.Basic
import Fieldbus.Message.Queue
import Fieldbus.Param.Memory
import Fieldbus.Param.Store
import Fieldbus.Peer.Memory
import Fieldbus.Peer.Request
import Fieldbus.Text.Number
import Fieldbus.Text.Quoted
import Fieldbus.Text.Record
import Fieldbus.Text.Unprintable
import Fieldbus.Timing
import Fieldbus.Proofs.BitAccess
import Fieldbus.Proofs.FieldAccess
import Fieldbus.Proofs.Placement
import Fieldbus.Proofs.FrameContent
import Fieldbus.Proofs.ParamCells
import Fieldbus.Proofs.Run
import Fieldbus.Proofs.Conduct
import Fieldbus.Proofs.Effect
import Fieldbus.Proofs.QueueRun
import Fieldbus.Proofs.Telling
import Fieldbus.Proofs.Delivery
import Fieldbus.Proofs.Turn
import Fieldbus.Proofs.Driving
import Fieldbus.Proofs.Coherence
import Fieldbus.Proofs.RoundTrip
import Fieldbus.Proofs.PendingWrites
import Fieldbus.Proofs.Silence
import Fieldbus.Proofs.Contact
import Fieldbus.Proofs.Refusal
import Fieldbus.Proofs.Posting
import Fieldbus.Proofs.StatusMirror
import Fieldbus.Proofs.Polling
import Fieldbus.Proofs.FaultReports
import Fieldbus.Proofs.AlarmReplay
import Fieldbus.Proofs.Watching
import Fieldbus.Proofs.BitAgreement
import Fieldbus.Proofs.Tiling
import Fieldbus.Proofs.ArrayFields
import Fieldbus.Proofs.Noting
import Fieldbus.Proofs.Rousing
import Fieldbus.Proofs.Vigilance
import Fieldbus.Proofs.SignalService
import Fieldbus.Proofs.BitStream
import Fieldbus.Proofs.PartialPacking
import Fieldbus.Proofs.SignalIndependence
import Fieldbus.Proofs.CellHistory
import Fieldbus.Proofs.TypedValues
import Fieldbus.Proofs.Words
import Fieldbus.Proofs.FrameShape
import Fieldbus.Proofs.GuardedAccess
import Fieldbus.Proofs.GuardedFrames
import Fieldbus.Proofs.WordMemory
import Fieldbus.Proofs.WordArithmetic
import Fieldbus.Proofs.ForeignLayout
import Fieldbus.Proofs.ForeignMemory
import Fieldbus.Proofs.FetchedOutputs
