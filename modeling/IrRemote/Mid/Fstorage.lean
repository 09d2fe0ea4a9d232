import IrRemote.Library.TornFlash
import IrRemote.Mid.Flash

/-!
# The flash storage behind the stores

`nrf_fstorage_sd.c` queues writes and erases and hands them to the SoftDevice, a part at a time.
The SoftDevice answers at once whether it takes the part, and later with an event whether it has
done it. `Mid_FlashErase` returns when its operation is in the queue, `Mid_FlashWrite` waits until
no operation is executing.

## Main definitions

* `Fstorage`, `FsOp` — the queue and its operations
* `Fstorage.queueProcess`, `Fstorage.sysEvtHandler` — the SoftDevice is called, and it answers
* `FlashSystem`, `flashStep` — the main loop, the queue and the flash
-/

set_option autoImplicit false

namespace IrRemote

/-! ## Operations -/

/-- `NRF_FSTORAGE_SD_QUEUE_SIZE`. -/
def nrfFstorageSdQueueSize : ℕ := 4
/-- `NRF_FSTORAGE_SD_MAX_RETRIES`. -/
def nrfFstorageSdMaxRetries : ℕ := 8
/-- `NRF_FSTORAGE_SD_MAX_WRITE_SIZE`. -/
def nrfFstorageSdMaxWriteSize : ℕ := 4096
/-- `m_flash_info.program_unit`. The erase unit is `eraseSize`. -/
def programUnit : ℕ := 4
/-- `END_ADDRESS_FSTORAGE`. -/
def endAddressFstorage : ℕ := 0x2f000

/-- What an operation is requested to do, the source of a write as its bytes. -/
inductive FsRequest where
  | write (dest : ℕ) (src : List (BitVec 8))
  | erase (page pagesToErase : ℕ)
  deriving DecidableEq, Repr

/-- The bytes of a write or the pages of an erase. -/
def FsRequest.total : FsRequest → ℕ
  | .write _ src => src.length
  | .erase _ pagesToErase => pagesToErase

/-- `nrf_fstorage_sd_op_t`, with the offset of a write or the progress of an erase. -/
structure FsOp where
  request : FsRequest
  progress : ℕ
  deriving DecidableEq, Repr

/-- The bytes of a write from an offset on. -/
def bytesFrom (src : List (BitVec 8)) (offset : ℕ) : ℕ → BitVec 8 :=
  fun o => src.getD (offset + o) 0xFF

namespace FsOp

/-- `chunk_len` in bytes. -/
def chunkLen (src : List (BitVec 8)) (offset : ℕ) : ℕ :=
  min (src.length - offset) nrfFstorageSdMaxWriteSize

/-- The words that are handed to `sd_flash_write`. -/
def chunkWords (src : List (BitVec 8)) (offset : ℕ) : ℕ :=
  max 1 (chunkLen src offset / programUnit)

/-- The SoftDevice has done the part that `write_execute` or `erase_execute` hands over. -/
def execute (op : FsOp) (flash : Flash) : Flash :=
  match op.request with
  | .write dest src =>
    flash.program (dest + op.progress) (bytesFrom src op.progress)
      (chunkWords src op.progress * programUnit)
  | .erase page _ => flash.erase ((page + op.progress) * eraseSize) eraseSize

/-- The SoftDevice has done a bit of it. -/
def tear (mask : ℕ → BitVec 8) (op : FsOp) (flash : Flash) : Flash :=
  match op.request with
  | .write dest src =>
    flash.tearProgram mask (dest + op.progress) (bytesFrom src op.progress)
      (chunkWords src op.progress * programUnit)
  | .erase page _ => flash.tearErase mask ((page + op.progress) * eraseSize) eraseSize

/-- `on_operation_success`: the operation behind the part. -/
def advance (op : FsOp) : FsOp :=
  match op.request with
  | .write _ src => { op with progress := op.progress + chunkLen src op.progress }
  | .erase .. => { op with progress := op.progress + 1 }

/-- `on_operation_success` returns whether the operation has finished. -/
def finished (op : FsOp) : Bool := op.progress = op.request.total

end FsOp

/-! ## The queue -/

/-- `nrf_fstorage_sd_state_t`. -/
inductive FstorageState where
  | idle
  | opPending
  | opExecuting
  deriving DecidableEq, Repr

/-- What `sd_flash_write` and `sd_flash_page_erase` return. -/
inductive SdRetCode where
  | nrfSuccess
  | nrfErrorBusy
  /-- Any other error. -/
  | nrfError
  deriving DecidableEq, Repr

/-- The result in the event that the application gets. -/
inductive FsResult where
  | nrfSuccess
  | nrfErrorTimeout
  | nrfErrorInternal
  deriving DecidableEq, Repr

/-- `m_flags` and `m_fifo`. The first operation of the queue is the current one unless the state
is idle. -/
structure Fstorage where
  state : FstorageState
  queueRunning : Bool
  retries : ℕ
  fifo : List FsOp
  deriving DecidableEq, Repr

/-- The events that are sent to the application. -/
abbrev FsEvents := List (FsRequest × FsResult)

namespace Fstorage

/-- Behind `nrf_fstorage_init`. -/
def init : Fstorage where
  state := .idle
  queueRunning := false
  retries := 0
  fifo := []

/-- `queue_process`, with the code that the SoftDevice returns if it is called. -/
def queueProcess (rc : SdRetCode) (s : Fstorage) : Fstorage × FsEvents :=
  match s.fifo with
  | [] => ({ s with queueRunning := false }, [])
  | op :: fifo =>
    match rc with
    | .nrfSuccess => ({ s with state := .opExecuting }, [])
    | .nrfErrorBusy => ({ s with state := .opPending }, [])
    | .nrfError =>
      ({ s with state := .idle, queueRunning := false, fifo := fifo },
        [(op.request, .nrfErrorInternal)])

/-- `queue_start`. -/
def queueStart (rc : SdRetCode) (s : Fstorage) : Fstorage × FsEvents :=
  if s.queueRunning then (s, []) else queueProcess rc { s with queueRunning := true }

/-- The first operation has finished with a result, and the queue goes on. -/
def finish (result : FsResult) (rc : SdRetCode) (s : Fstorage) : Fstorage × FsEvents :=
  match s.fifo with
  | [] => queueProcess rc s
  | op :: fifo =>
    let (s, events) := queueProcess rc { s with state := .idle, fifo := fifo }
    (s, (op.request, result) :: events)

/-- `nrf_fstorage_sys_evt_handler` for an event that tells of success or of an error, with the
code of the call of the SoftDevice that follows. -/
def sysEvtHandler (success : Bool) (rc : SdRetCode) (s : Fstorage) : Fstorage × FsEvents :=
  match s.state with
  | .idle => (s, [])
  -- an operation of somebody else has ended
  | .opPending => queueProcess rc s
  | .opExecuting =>
    match s.fifo with
    | [] => (s, [])
    | op :: fifo =>
      if success then
        let s := { s with retries := 0, fifo := op.advance :: fifo }
        if op.advance.finished then s.finish .nrfSuccess rc else queueProcess rc s
      else if s.retries + 1 > nrfFstorageSdMaxRetries then
        { s with retries := 0 }.finish .nrfErrorTimeout rc
      else queueProcess rc { s with retries := s.retries + 1 }

/-- What an event of the SoftDevice leaves in the flash. The bits that an attempt has not cleared,
or has set, are those of the mask. -/
def flashBehind (success : Bool) (mask : ℕ → BitVec 8) (s : Fstorage) (flash : Flash) : Flash :=
  match s.state, s.fifo with
  | .opExecuting, op :: _ => if success then op.execute flash else op.tear mask flash
  | _, _ => flash

/-- The attempt that an event of the SoftDevice belongs to. -/
def attempt (success : Bool) (s : Fstorage) : List (FsOp × Bool) :=
  match s.state, s.fifo with
  | .opExecuting, op :: _ => [(op, success)]
  | _, _ => []

end Fstorage

/-! ## The calls -/

/-- `Mid_FlashErase`, with the length in pages, or `Mid_FlashWrite`. -/
inductive FlashCall where
  | erase (ulAddress ulLen : ℕ)
  | write (ulAddress : ℕ) (src : List (BitVec 8))
  deriving DecidableEq, Repr

/-- The return codes of the calls. -/
inductive FsRetCode where
  | nrfSuccess
  | nrfErrorInvalidLength
  | nrfErrorInvalidAddr
  | nrfErrorNoMem
  deriving DecidableEq, Repr

/-- `addr_is_within_bounds`. -/
def addrIsWithinBounds (addr len : ℕ) : Bool :=
  irDataStartAddress ≤ addr && (addr + len - 1) % 4294967296 ≤ endAddressFstorage

namespace FlashCall

/-- The checks of `nrf_fstorage_erase` and `nrf_fstorage_write`. -/
def check : FlashCall → FsRetCode
  | .erase ulAddress ulLen =>
    if ulLen = 0 then .nrfErrorInvalidLength
    else if ulAddress % eraseSize ≠ 0 then .nrfErrorInvalidAddr
    else if addrIsWithinBounds ulAddress (ulLen * eraseSize) then .nrfSuccess
    else .nrfErrorInvalidAddr
  | .write ulAddress src =>
    if src.length = 0 ∨ src.length % programUnit ≠ 0 then .nrfErrorInvalidLength
    else if ulAddress % 4 ≠ 0 then .nrfErrorInvalidAddr
    else if addrIsWithinBounds ulAddress src.length then .nrfSuccess
    else .nrfErrorInvalidAddr

/-- The operation that is queued. -/
def request : FlashCall → FsRequest
  | .erase ulAddress ulLen => .erase (ulAddress / eraseSize) ulLen
  | .write ulAddress src => .write ulAddress src

/-- `Mid_FlashWrite` calls `wait_for_flash_ready`. -/
def waits : FlashCall → Bool
  | .erase .. => false
  | .write .. => true

end FlashCall

/-! ## The system -/

/-- The position of the main loop. -/
inductive FlashCaller where
  /-- Outside of the calls. -/
  | ready
  /-- The operation is in the queue, and `queue_start` is next. -/
  | starting (waits : Bool)
  /-- In the loop of `wait_for_flash_ready`. -/
  | waiting
  deriving DecidableEq, Repr

/-- The main loop, the storage and the flash. The last fields record the run: what was requested,
the attempts of the SoftDevice and whether they succeeded, the events that were sent, and the calls
with their return codes. -/
structure FlashSystem where
  caller : FlashCaller
  fs : Fstorage
  flash : Flash
  requested : List FsRequest
  attempts : List (FsOp × Bool)
  results : FsEvents
  returned : List (FlashCall × FsRetCode)

namespace FlashSystem

/-- Nothing was requested yet. -/
def boot (flash : Flash) : FlashSystem where
  caller := .ready
  fs := .init
  flash := flash
  requested := []
  attempts := []
  results := []
  returned := []

/-- A call up to the point where its operation is in the queue, or to its error. -/
def call (c : FlashCall) (s : FlashSystem) : FlashSystem :=
  if c.check = .nrfSuccess then
    if s.fs.fifo.length < nrfFstorageSdQueueSize then
      { s with
        caller := .starting c.waits
        fs := { s.fs with fifo := s.fs.fifo ++ [⟨c.request, 0⟩] }
        requested := s.requested ++ [c.request]
        returned := s.returned ++ [(c, .nrfSuccess)] }
    else { s with returned := s.returned ++ [(c, .nrfErrorNoMem)] }
  else { s with returned := s.returned ++ [(c, c.check)] }

/-- The rest of the call, up to its wait. -/
def start (waits : Bool) (rc : SdRetCode) (s : FlashSystem) : FlashSystem :=
  let (fs, events) := s.fs.queueStart rc
  { s with
    caller := if waits then .waiting else .ready
    fs := fs
    results := s.results ++ events }

/-- The condition of the loop in `wait_for_flash_ready`. -/
def poll (s : FlashSystem) : FlashSystem :=
  if s.fs.state = .idle then { s with caller := .ready } else s

/-- An event of the SoftDevice. -/
def sysEvt (success : Bool) (mask : ℕ → BitVec 8) (rc : SdRetCode) (s : FlashSystem) :
    FlashSystem :=
  let (fs, events) := s.fs.sysEvtHandler success rc
  { s with
    fs := fs
    flash := s.fs.flashBehind success mask s.flash
    attempts := s.attempts ++ s.fs.attempt success
    results := s.results ++ events }

end FlashSystem

/-- A call of the main loop, its parts, or an event of the SoftDevice. -/
inductive FlashStep where
  | call (c : FlashCall)
  | start (rc : SdRetCode)
  | poll
  | sysEvt (success : Bool) (mask : ℕ → BitVec 8) (rc : SdRetCode)

/-- The main loop goes on with the part of its call that is next. -/
def flashStep (s : FlashSystem) : FlashStep → FlashSystem
  | .call c => if s.caller = .ready then s.call c else s
  | .start rc =>
    match s.caller with
    | .starting waits => s.start waits rc
    | .ready | .waiting => s
  | .poll => if s.caller = .waiting then s.poll else s
  | .sysEvt success mask rc => s.sysEvt success mask rc

/-- A run of the flash storage. -/
def runFlash (steps : List FlashStep) (s : FlashSystem) : FlashSystem := steps.foldl flashStep s

end IrRemote
