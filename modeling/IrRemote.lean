import IrRemote.Library.FaultMachine
import IrRemote.Op.HeaderDefine
import IrRemote.Mid.Receiver
import IrRemote.Receiver.Interrupt
import IrRemote.Receiver.Invariant
import IrRemote.Receiver.Capture
import IrRemote.Library.BitWord
import IrRemote.Mid.LongUnion
import IrRemote.Library.Attempt
import IrRemote.Mid.Matching
import IrRemote.Mid.Transmit
import IrRemote.Protocol.Nec
import IrRemote.Protocol.Kaseikyo
import IrRemote.Protocol.Denon
import IrRemote.Protocol.Sony
import IrRemote.Protocol.Rc5Rc6
import IrRemote.Protocol.Jvc
import IrRemote.Protocol.Lg
import IrRemote.Protocol.Samsung
import IrRemote.Protocol.DistanceWidth
import IrRemote.Protocol.Exotic
import IrRemote.Mid.IrRemoteDecode
import IrRemote.Mid.IrSend
import IrRemote.Decode.StaleBuffer
import IrRemote.Decode.Replayable
import IrRemote.Library.LineSignal
import IrRemote.Link.IdealCapture
import IrRemote.RoundTrip.Samsung
import IrRemote.RoundTrip.Lg
import IrRemote.RoundTrip.Nec
import IrRemote.Library.Manchester
import IrRemote.Link.Biphase
import IrRemote.RoundTrip.Rc5
import IrRemote.RoundTrip.Rc6
import IrRemote.Link.Histogram
import IrRemote.RoundTrip.DistanceWidth
import IrRemote.Link.BitEntries
import IrRemote.RoundTrip.Kaseikyo
import IrRemote.Link.Frames
import IrRemote.RoundTrip.Denon
import IrRemote.RoundTrip.Sony
import IrRemote.RoundTrip.Samsung48
import IrRemote.RoundTrip.ShortFrames
import IrRemote.RoundTrip.MagiQuest
import IrRemote.Decode.Offered
import IrRemote.Decode.Repeats
import IrRemote.Decode.Gap
import IrRemote.Library.ByteImage
import IrRemote.Library.Flash
import IrRemote.Op.StoreRecords
import IrRemote.Mid.Flash
import IrRemote.Library.Pieces
import IrRemote.Library.SlotTable
import IrRemote.Op.SupportFunction
import IrRemote.Mid.Rtc
import IrRemote.Mid.Decode
import IrRemote.App.Control
import IrRemote.Store.Reboot
import IrRemote.Store.Codes
import IrRemote.Store.CodeMap
import IrRemote.Store.Triggers
import IrRemote.Mid.Scheduling
import IrRemote.Command.Malformed
import IrRemote.Command.WellFormed
import IrRemote.Sched.Events
import IrRemote.Command.Queue
import IrRemote.Command.Buffer
import IrRemote.Command.Sensitivity
import IrRemote.App.Device
import IrRemote.Command.Identifiers
import IrRemote.App.Interleaving
import IrRemote.Session.ScanTimeout
import IrRemote.Session.EraseRequests
import IrRemote.Session.Attribution
import IrRemote.Session.Answers
import IrRemote.Session.Isolation
import IrRemote.Library.Gregorian
import IrRemote.Clock.Calendar
import IrRemote.Clock.Inverse
import IrRemote.App.Alarm
import IrRemote.Alarm.OnTime
import IrRemote.Alarm.Window
import IrRemote.Alarm.Idle
import IrRemote.Alarm.Puts
import IrRemote.Alarm.Timeout
import IrRemote.Clock.TimeStamp
import IrRemote.Link.ArraySenders
import IrRemote.Library.Traced
import IrRemote.Decode.BiphaseLoops
import IrRemote.Decode.BiphaseWords
import IrRemote.Decode.Bounds
import IrRemote.Library.Clusters
import IrRemote.Universal.Aggregation
import IrRemote.Universal.WrappedSums
import IrRemote.Universal.Counters
import IrRemote.Universal.Classification
import IrRemote.Library.WrapCounter
import IrRemote.Mid.Delay
import IrRemote.Link.TimerWrap
import IrRemote.Library.WorkQueue
import IrRemote.Clock.Ticks
import IrRemote.Mid.LedControl
import IrRemote.Led.Indication
import IrRemote.Mid.KeyControl
import IrRemote.Keys.EraseAll
import IrRemote.Universal.AggregatedArray
import IrRemote.Alarm.Grade
import IrRemote.Decode.HeldKeys
import IrRemote.RoundTrip.Codecs
import IrRemote.Decode.JvcRepeats
import IrRemote.Library.CheckDigits
import IrRemote.Decode.CheckedFormats
import IrRemote.Decode.Integrity
import IrRemote.Decode.Unflagged
import IrRemote.Library.RingIndex
import IrRemote.Sched.Scheduler
import IrRemote.Sched.Ring
import IrRemote.Sched.Delivery
import IrRemote.Library.TornFlash
import IrRemote.Library.PackedImage
import IrRemote.Mid.Fstorage
import IrRemote.Store.FlashQueue
import IrRemote.Store.FlashRetries
import IrRemote.Store.FlashCalls
import IrRemote.Store.PowerLoss
import IrRemote.Store.CodesPage
import IrRemote.Store.TornCodes
import IrRemote.Library.History
import IrRemote.Op.CodeImage
import IrRemote.Decode.StoredFrame
import IrRemote.App.Firmware
import IrRemote.App.Safety
import IrRemote.App.Replay
import IrRemote.App.Requests
import IrRemote.App.Time
