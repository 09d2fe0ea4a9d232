import IrRemote.Library.FaultMachine
import IrRemote.Op.HeaderDefine

/-!
# The receiver interrupt

`timer_led_event_handler` samples the demodulator pin every 50 µs and records the
length of every mark and space in ticks. `Mid_IrRemoteStartScan`,
`Mid_IrRemoteStopScan` and `Ir_RemoteResume` are called from the main loop and
from the BLE and timer contexts; they act between two interrupts.

## Main definitions

* `timerLedEventHandler` — one interrupt
* `midIrRemoteStartScan`, `midIrRemoteStopScan`, `irRemoteResume` — the operations
* `receiverStep` — one operation of a receiver run
-/

set_option autoImplicit false

namespace IrRemote

/-- The timer events the interrupt handler distinguishes. -/
inductive NrfTimerEvent where
  | compare0
  | other
  deriving DecidableEq, Repr

/-- `if (TickCounterForISR < UINT16_MAX_CUSTOM) TickCounterForISR++`, in 16 bits. -/
def nextTick (tickCounterForISR : ℕ) : ℕ :=
  if tickCounterForISR < uint16MaxCustom then (tickCounterForISR + 1) % 65536
  else tickCounterForISR

/-- `rawbuf[rawlen++] = ticks`; `none` when the index lies outside the buffer. -/
def IrParams.record (irparams : IrParams) (ticks : ℕ) : Option IrParams :=
  if h : irparams.rawlen < rawBufferLength then
    some { irparams with
      rawbuf := irparams.rawbuf.set irparams.rawlen ticks h
      rawlen := irparams.rawlen + 1 }
  else none

/-- `timer_led_event_handler`: one call per 50 µs sample of the receive pin. -/
def timerLedEventHandler (eventType : NrfTimerEvent) (tIRInputLevel : ℕ)
    (irparams : IrParams) : Option IrParams :=
  match eventType with
  | .other => some irparams
  | .compare0 =>
    let irparams := { irparams with tickCounterForISR := nextTick irparams.tickCounterForISR }
    match irparams.stateForISR with
    | .idle =>
      if tIRInputLevel = inputMark then
        let irparams :=
          if recordGapTicks < irparams.tickCounterForISR then
            { irparams with
              overflowFlag := false
              rawbuf := irparams.rawbuf.set 0 irparams.tickCounterForISR (by decide)
              rawlen := 1
              stateForISR := .mark }
          else irparams
        -- the counter is reset in both cases
        some { irparams with tickCounterForISR := 0 }
      else some irparams
    | .mark =>
      if tIRInputLevel ≠ inputMark then do
        let irparams ← irparams.record irparams.tickCounterForISR
        some { irparams with stateForISR := .space, tickCounterForISR := 0 }
      else some irparams
    | .space =>
      if tIRInputLevel = inputMark then
        if rawBufferLength ≤ irparams.rawlen then
          some { irparams with overflowFlag := true, stateForISR := .stop, tickCounterForISR := 0 }
        else do
          let irparams ← irparams.record irparams.tickCounterForISR
          some { irparams with stateForISR := .mark, tickCounterForISR := 0 }
      else if recordGapTicks < irparams.tickCounterForISR then
        -- the counter keeps running, it measures the gap before the next frame
        some { irparams with stateForISR := .stop }
      else some irparams
    | .stop =>
      if tIRInputLevel = inputMark then some { irparams with tickCounterForISR := 0 }
      else some irparams

/-- `Ir_RemoteResume`. -/
def irRemoteResume (irparams : IrParams) : IrParams :=
  if irparams.stateForISR = .stop then { irparams with stateForISR := .idle } else irparams

/-- The receiver record with the state of its sampling timer and the counter of the
learn timeout, which the scan functions share. -/
structure ScanState where
  irparams : IrParams
  timerLedEnabled : Bool
  ubScanIRCount : ℕ
  deriving DecidableEq

/-- The state at power-up. -/
def ScanState.zero : ScanState := ⟨.zero, false, 0⟩

/-- `Mid_IrRemoteStartScan`. -/
def midIrRemoteStartScan (s : ScanState) : ScanState where
  irparams := { s.irparams with tickCounterForISR := 0 }
  ubScanIRCount := 0
  timerLedEnabled := if ¬ s.timerLedEnabled then true else s.timerLedEnabled

/-- `Mid_IrRemoteStopScan`. -/
def midIrRemoteStopScan (s : ScanState) : ScanState :=
  { s with timerLedEnabled := if s.timerLedEnabled then false else s.timerLedEnabled }

/-! ## Receiver runs -/

/-- What may happen to the receiver record. -/
inductive ReceiverOp where
  | isr (eventType : NrfTimerEvent) (tIRInputLevel : ℕ)
  | resume
  | startScan
  deriving DecidableEq, Repr

/-- One operation; `none` when the interrupt would write outside the buffer. -/
def receiverStep : ReceiverOp → ScanState → Option ScanState
  | .isr eventType tIRInputLevel, s => do
    let irparams ← timerLedEventHandler eventType tIRInputLevel s.irparams
    some { s with irparams := irparams }
  | .resume, s => some { s with irparams := irRemoteResume s.irparams }
  | .startScan, s => some (midIrRemoteStartScan s)

/-- The receiver records that some run from power-up produces. -/
def ReachableReceiver (irparams : IrParams) : Prop :=
  ∃ s, FaultMachine.Reachable receiverStep ScanState.zero s ∧ s.irparams = irparams

end IrRemote
