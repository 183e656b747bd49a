import ProcessBus.Lib.Serial
import ProcessBus.Lib.Run
import ProcessBus.Lib.Tournament
import ProcessBus.Go.Time
import ProcessBus.Go.Bytes
import ProcessBus.Go.Float
import ProcessBus.Lib.Table
import ProcessBus.Goose.Pdu
import ProcessBus.Goose.Publisher
import ProcessBus.Goose.Subscriber
import ProcessBus.Goose.Ordering
import ProcessBus.Goose.Restart
import ProcessBus.Sv.Measurement
import ProcessBus.Sv.Subscriber
import ProcessBus.Sv.Continuity
import ProcessBus.Ptp.Types
import ProcessBus.Ptp.Codec
import ProcessBus.Clock.Application
import ProcessBus.Ptp.Client.Bmca
import ProcessBus.Ptp.Client.Election
import ProcessBus.Ptp.Client.Fsm
import ProcessBus.Ptp.Client.TsProc
import ProcessBus.Ptp.Client.Servo
import ProcessBus.Ptp.Client.Service
import ProcessBus.Ptp.Client.Effects
import ProcessBus.Ptp.Client.Reselection
import ProcessBus.Ptp.Client.Port
import ProcessBus.Ptp.Client.Masters
import ProcessBus.Ptp.Client.Exchange
import ProcessBus.Ptp.Client.Timescale
import ProcessBus.Ptp.Client.Pairing
import ProcessBus.Goose.Trace
import ProcessBus.Goose.Gaps
import ProcessBus.Lib.Ber
import ProcessBus.Ptp.Client.ClockStep
import ProcessBus.Sv.Accounting
import ProcessBus.Ethernet.Frame
import ProcessBus.Go.Binary32
import ProcessBus.Goose.Encoder
import ProcessBus.Goose.Decoder
import ProcessBus.Goose.Grammar
import ProcessBus.Goose.RoundTrip
import ProcessBus.Goose.Baseline
import ProcessBus.Sv.Encoder
import ProcessBus.Sv.Decoder
import ProcessBus.Sv.RoundTrip
import ProcessBus.Sv.Publisher
import ProcessBus.Go.Int64
import ProcessBus.Sv.Slots
import ProcessBus.Ptp.Wire
import ProcessBus.Ptp.Client.Accuracy
import ProcessBus.Ptp.Server
import ProcessBus.Ptp.Conversation
import ProcessBus.Ptp.Client.Handlers
import ProcessBus.Ptp.Course
import ProcessBus.Ptp.Exactness
import ProcessBus.Goose.LossEvents
import ProcessBus.Sv.LossEvents
import ProcessBus.Goose.Watch
import ProcessBus.Lib.Agree
import ProcessBus.Sv.Padding
import ProcessBus.Sv.Receipts
import ProcessBus.Supervisor.Manager
import ProcessBus.Supervisor.Lifecycle
import ProcessBus.Supervisor.Lease
import ProcessBus.Automation.Input
import ProcessBus.Automation.Requests
import ProcessBus.Automation.Test
import ProcessBus.Automation.Steps
import ProcessBus.Automation.Response
import ProcessBus.Automation.Timeout
import ProcessBus.Goose.Attribution
import ProcessBus.Sv.Grammar
import ProcessBus.Lib.TlvTree
import ProcessBus.Goose.Lengths
import ProcessBus.Go.FloatText
import ProcessBus.Go.Rfc3339
import ProcessBus.Automation.Values
import ProcessBus.Automation.WriteBack
import ProcessBus.Scl.Export
import ProcessBus.Lib.Definitions
import ProcessBus.Scl.Conversion
import ProcessBus.Scl.Templates
import ProcessBus.Scl.Members
import ProcessBus.Sv.GapEvents
import ProcessBus.Go.Expr
import ProcessBus.Ptp.Client.Overflow
import ProcessBus.Go.Slice
import ProcessBus.Ptp.Client.Qualification
import ProcessBus.Clock.Source
import ProcessBus.Automation.Preflight
import ProcessBus.Lib.Backlog
import ProcessBus.Ptp.Client.Order
import ProcessBus.Ptp.Announce
import ProcessBus.Ptp.PhcClock
import ProcessBus.Goose.Integers
import ProcessBus.Scl.TypeCost
import ProcessBus.Sv.Instants
import ProcessBus.Lib.Ring
import ProcessBus.Sv.Window
import ProcessBus.Ptp.Client.AntiWindup
import ProcessBus.Lib.Fresh
import ProcessBus.Scl.Publisher
import ProcessBus.Scl.Objects
import ProcessBus.Automation.Sequence
import ProcessBus.Automation.Reset
import ProcessBus.Automation.Api
import ProcessBus.Automation.Moves
import ProcessBus.Automation.Exclusive
import ProcessBus.Lib.History
import ProcessBus.Automation.Outcome
import ProcessBus.Lib.Metered
import ProcessBus.Go.Strconv
import ProcessBus.Scl.Import
import ProcessBus.Scl.GooseImport
import ProcessBus.Scl.Controls
import ProcessBus.Scl.ImportErrors
import ProcessBus.Scl.Independence
import ProcessBus.Scl.Schema
import ProcessBus.Scl.Reception
import ProcessBus.Lib.Arrange
import ProcessBus.Scl.ImportModel
import ProcessBus.Scl.Restored
import ProcessBus.Scl.RoundTrip
import ProcessBus.Scl.TreeOrder
import ProcessBus.Scl.ControlBlocks
import ProcessBus.Scl.RestoredControls
