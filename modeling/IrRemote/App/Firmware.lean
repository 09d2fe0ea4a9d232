import IrRemote.Alarm.Puts
import IrRemote.App.Interleaving
import IrRemote.Clock.Ticks
import IrRemote.Command.Sensitivity
import IrRemote.Mid.IrSend
import IrRemote.Mid.KeyControl
import IrRemote.Op.CodeImage
import IrRemote.Store.PowerLoss

/-!
# The whole firmware

The main loop of `main.c` with everything that comes in between: the writes of the app, the
samples of the receiver and of the motion sensor, and the three timers. The main loop executes
`ProcessMain` statement by statement and then the events of the scheduler; the handlers that
transmit read the stores from which `ProcessMain` learns and erases. A reboot may happen at any
point: it finds the flash as the stores have left it.

The LEDs are left out, they have a state of their own and nothing reads it.

## Main definitions

* `Firmware`, `firmwareAtBoot` — the state, and that of a device that has just been started
* `Firmware.onWrite` — the writes of the app
* `Firmware.main` — the next step of the main loop
* `Firmware.transmission`, `Firmware.emit` — what this step sends
* `firmwareStep` — the steps of the firmware
-/

set_option autoImplicit false

namespace IrRemote

/-- Where the main loop is: in `ProcessMain`, or in `app_sched_execute`. The handler of a
scheduling command is left and entered again behind its decoder. -/
inductive LoopPoint where
  | process (pc : Statement)
  | testQueue
  | handle
  | execute (decoded : Option SchedulingCommand)
  | nextEvent

/-- The globals of the firmware. The flag and the value of the keys that `App_ControlHandle` reads
are kept in the device as well. -/
structure Firmware where
  point : LoopPoint
  device : DeviceState
  alarm : AlarmState
  keys : KeyState
  clock : RtcState
  queue : List SchedHandler
  ubTriggerType : TriggerType
  ubCount20ms : ℕ
  sLastSendToggleValue : BitVec 8

/-- The firmware has just been started. -/
def firmwareAtBoot (irparamsAddress : BitVec 32) (flash : Flash) : Firmware where
  point := .process .testStartLearn
  device := deviceAtBoot irparamsAddress (coldBoot flash)
  alarm := .zero
  keys := .zero
  clock := .zero
  queue := []
  ubTriggerType := .noneType
  ubCount20ms := 0
  sLastSendToggleValue := initialSendToggleValue

namespace Firmware

variable (s : Firmware)

/-- The globals of the stores. -/
def stores : StoreState := s.device.stores

/-- The stores are replaced. -/
def withStores (stores : StoreState) : Firmware := { s with device := { s.device with stores } }

/-! ## Events of the scheduler -/

/-- `app_sched_event_put`. No caller looks at the error code. -/
def appSchedEventPut (handler : SchedHandler) : Firmware :=
  { s with queue := schedEventPut handler s.queue }

/-- The events of alarms that are due. -/
def putAlarms (events : List EmitEvent) : Firmware :=
  { s with queue := putEmitEvents events s.queue }

/-! ## The writes of the app -/

/-- `on_write`, with `Mid_DecodeCommand`. -/
def onWrite (ubCommandIndex : CommandIndex) (pData : ℕ → BitVec 8) (len : BitVec 16) : Firmware :=
  let put (s : Firmware) : Firmware :=
    (ubCommandIndex.handler ((List.range len.toNat).map pData)).elim s s.appSchedEventPut
  match ubCommandIndex with
  | .rtcSet | .irEmmit => put s
  | .motSens => s.withStores (decodeMotSens (pData 0) s.stores)
  -- the type is set before the event is put, whether or not it is accepted
  | .motTout => put { s with ubTriggerType := .timeoutType }
  | .schedule => put { s with ubTriggerType := .schedulingType }
  | .irLearn =>
    { s with device := appControlStartLearnIR (convertID pData (len.setWidth 8)) s.device }
  | .irErase => { s with device := appControlEraseIR (convertID pData (len.setWidth 8)) s.device }
  | .battVol | .feedBack => s

/-! ## Transmissions -/

/-- A call of `Mid_IrSendCommon`: the identifier of the code, the bytes in its slot, and the
toggle value. -/
structure Transmission where
  uwID : BitVec 16
  irData : Vector (BitVec 8) sizeOfIRData
  sLastSendToggleValue : BitVec 8
  deriving DecidableEq

/-- What is sent, and the toggle value behind it. The code is sent with one repeat. -/
def Transmission.send (x : Transmission) : List TxEvent × BitVec 8 :=
  midIrSendCommon (.ofImage x.irData) 1 x.sLastSendToggleValue

/-- The identifier for which a handler looks. The buffer of the queue holds other bytes behind the
copy of a payload. -/
def emitID (stale : ℕ → BitVec 8) : SchedHandler → Option (BitVec 16)
  | .appControlStartEmitIR pData =>
    some (convertID (fun i => pData[i]?.getD (stale i)) (BitVec.ofNat 8 pData.length))
  | .appControlStartEmitIRWithID uwIrCode =>
    some (convertArrayToNumber (fun _ => uwIrCode) 1)
  | .midKeyHandler | .midRTCHandle | .midDecodeRTCSet _ | .midDecodeTimeBasedScheduling _ => none

/-- What the handler of the first event sends. -/
def transmission (stale : ℕ → BitVec 8) : Option Transmission := do
  let handler ← s.queue.head?
  let uwID ← emitID stale handler
  let irData ← codeToEmit uwID s.stores
  return ⟨uwID, irData, s.sLastSendToggleValue⟩

/-- `App_ControlStartEmitIR` and `App_ControlStartEmitIRWithID`, and the toggle value behind them.
The log reads the name of the protocol before the code is sent. -/
def emit (stale : ℕ → BitVec 8) : Option (BitVec 8) :=
  match s.transmission stale with
  | none => some s.sLastSendToggleValue
  | some x => if HasProtocolName x.irData then some x.send.2 else none

/-! ## The main loop -/

/-- The handler of the first event, up to its return or to the end of the decoder. -/
def handle (sample : KeySample) (stale : ℕ → BitVec 8) : Option Firmware :=
  let returned : Firmware := { s with point := .nextEvent }
  match s.queue with
  | [] => some returned
  | .midKeyHandler :: _ =>
    (midKeyHandler sample s.keys).map fun keys => { returned with
      keys := keys
      device.key3SecClickFlag := keys.flags.key3SecClickFlag
      device.ulKeyInValue := keys.ulKeyInValue }
  | .midRTCHandle :: _ => some { returned with clock := midRTCHandle s.clock }
  | .midDecodeRTCSet pEventData :: _ =>
    (midDecodeRTCSet pEventData).map fun clock => { returned with clock := clock }
  | .midDecodeTimeBasedScheduling pData :: _ =>
    (midDecodeTimeBasedSchedulingDecode s.ubTriggerType pData).map fun decoded =>
      { s with point := .execute decoded }
  | .appControlStartEmitIR _ :: _ | .appControlStartEmitIRWithID _ :: _ =>
    (s.emit stale).map fun sLastSendToggleValue => { returned with sLastSendToggleValue }

/-- The next step of the main loop. -/
def main (sample : KeySample) (stale : ℕ → BitVec 8) : Option Firmware :=
  match s.point with
  | .process pc => (mainStatement pc s.device).map fun r => { s with
      -- behind `ProcessMain` the events are executed
      point := if r.1 = .testStartLearn then .testQueue else .process r.1
      device := r.2
      keys := if pc = .handleKey then s.keys.clearFlags else s.keys }
  | .testQueue =>
    some { s with point := if s.queue.isEmpty then .process .testStartLearn else .handle }
  | .handle => s.handle sample stale
  | .execute decoded =>
    some { s.withStores (decoded.elim s.stores fun c =>
      schedulingExecute s.ubTriggerType c s.stores) with point := .nextEvent }
  | .nextEvent => some { s with point := .testQueue, queue := s.queue.tail }

/-! ## The timers -/

/-- `SysTimer10msCall`. -/
def sysTimer10msCall : Firmware :=
  let s := if 2 ≤ s.ubCount20ms then
    { s.appSchedEventPut .midKeyHandler with ubCount20ms := 0 } else s
  { s with ubCount20ms := (s.ubCount20ms + 1) % 256 }

/-- The alarms that `SysTimer100msCall` finds due. -/
def alarms100ms : AlarmState × List EmitEvent :=
  sysTimer100msAlarms s.clock.tCommonTime s.stores.atIRDataTrigger s.alarm

/-- `SysTimer100msCall`. -/
def sysTimer100msCall : Firmware :=
  { s with device := IrRemote.sysTimer100msCall s.device, alarm := s.alarms100ms.1 }.putAlarms
    s.alarms100ms.2

/-- The alarms that `SysTimer1000msCall` finds due. -/
def alarms1000ms : AlarmState × IRTriggerTable × List EmitEvent :=
  sysTimer1000msAlarms s.clock.tCommonTime s.stores.atIRDataTrigger s.alarm

/-- `SysTimer1000msCall`. -/
def sysTimer1000msCall : Firmware :=
  let ticked := s.appSchedEventPut .midRTCHandle
  { ticked.withStores { s.stores with atIRDataTrigger := s.alarms1000ms.2.1 } with
    alarm := s.alarms1000ms.1 }.putAlarms s.alarms1000ms.2.2

/-- The supply fails and comes back. -/
def reboot : Firmware := firmwareAtBoot s.device.irparamsAddress s.stores.flash

end Firmware

/-! ## Steps -/

/-- The main loop goes on, with the pins and the stale bytes that the step may read, or something
comes in between. -/
inductive FirmwareStep where
  | main (sample : KeySample) (stale : ℕ → BitVec 8)
  | write (ubCommandIndex : CommandIndex) (pData : ℕ → BitVec 8) (len : BitVec 16)
  | sample (eventType : NrfTimerEvent) (tIRInputLevel : ℕ)
  | motion (sample : BitVec 16)
  | sysTimer10ms
  | sysTimer100ms
  | sysTimer1000ms
  | reboot

/-- One step. It has no result where a function leaves its buffers, reads behind an array or divides
by zero. -/
def firmwareStep (a : FirmwareStep) (s : Firmware) : Option Firmware :=
  match a with
  | .main sample stale => s.main sample stale
  | .write ubCommandIndex pData len => some (s.onWrite ubCommandIndex pData len)
  | .sample eventType tIRInputLevel =>
    (timerSample eventType tIRInputLevel s.device).map fun device => { s with device }
  | .motion sample => some { s with alarm := midMotionSensorHandler sample s.alarm }
  | .sysTimer10ms => some s.sysTimer10msCall
  | .sysTimer100ms => some s.sysTimer100msCall
  | .sysTimer1000ms => some s.sysTimer1000msCall
  | .reboot => some s.reboot

end IrRemote
