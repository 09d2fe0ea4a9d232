import IrRemote.Mid.Fstorage
import Mathlib.Data.List.TakeWhile

/-!
# What the flash storage does

The operations of the queue get their results one after the other, in the order of the requests. An
attempt of the SoftDevice that has failed leaves a part of its operation behind, but the operation
is done again from the same offset, so the flash comes to what the operations make of it one after
the other.

## Main definitions

* `FsRequest.apply` — what a request does to the flash
* `settleAll` — the flash when everything that is queued is done
* `FlashInv` — the state, the queue and the flash of a run

## Main results

* `FsOp.settle_execute`, `FsOp.settle_tear` — an attempt changes nothing of what is to come
* `FlashInv.step`, `FlashInv.run` — every step keeps the invariant
* `flash_sequential` — the results of a run, and the flash that it leaves
* `flash_refused` — when a call finds no place
-/

set_option autoImplicit false

namespace IrRemote

/-! ## Operations -/

/-- What the request does to the flash. -/
def FsRequest.apply (r : FsRequest) (flash : Flash) : Flash :=
  match r with
  | .write dest src => flash.program dest (bytesFrom src 0) src.length
  | .erase page pagesToErase => flash.erase (page * eraseSize) (pagesToErase * eraseSize)

/-- The lengths that `nrf_fstorage_write` and `nrf_fstorage_erase` let through. -/
def FsRequest.Valid (r : FsRequest) : Prop :=
  0 < r.total ∧
    match r with
    | .write _ src => src.length % programUnit = 0
    | .erase .. => True

namespace FsOp

variable {op : FsOp} {flash : Flash} {mask : ℕ → BitVec 8} {src : List (BitVec 8)} {offset : ℕ}

/-- The operation is not finished, and a write is at the start of a word. -/
def Valid (op : FsOp) : Prop :=
  op.request.Valid ∧ op.progress < op.request.total ∧
    match op.request with
    | .write .. => op.progress % programUnit = 0
    | .erase .. => True

/-- The rest of the operation. -/
def settle (op : FsOp) (flash : Flash) : Flash :=
  match op.request with
  | .write dest src =>
    flash.program (dest + op.progress) (bytesFrom src op.progress) (src.length - op.progress)
  | .erase page pagesToErase =>
    flash.erase ((page + op.progress) * eraseSize) ((pagesToErase - op.progress) * eraseSize)

theorem settle_zero (r : FsRequest) : settle ⟨r, 0⟩ flash = r.apply flash := by
  cases r <;> rfl

/-- The chunks are whole words. -/
theorem chunkWords_mul (hlen : src.length % programUnit = 0) (hoffset : offset % programUnit = 0)
    (hlt : offset < src.length) : chunkWords src offset * programUnit = chunkLen src offset := by
  rw [chunkWords, chunkLen, nrfFstorageSdMaxWriteSize]
  rw [programUnit] at *
  omega

theorem chunkLen_le : offset ≤ src.length → offset + chunkLen src offset ≤ src.length := by
  rw [chunkLen]
  omega

/-- A part has been done, and the rest is what is left of it. -/
theorem settle_execute (h : op.Valid) : op.advance.settle (op.execute flash) = op.settle flash := by
  obtain ⟨request, progress⟩ := op
  cases request with
  | write dest src =>
    obtain ⟨⟨-, hlen⟩, hlt, hoffset⟩ := h
    change progress < src.length at hlt
    have hle := chunkLen_le (Nat.le_of_lt hlt)
    change Flash.program (dest + (progress + chunkLen src progress))
      (bytesFrom src (progress + chunkLen src progress))
      (src.length - (progress + chunkLen src progress))
      (Flash.program (dest + progress) (bytesFrom src progress)
        (chunkWords src progress * programUnit) flash) =
      Flash.program (dest + progress) (bytesFrom src progress) (src.length - progress) flash
    -- the chunk of this attempt stands in front of the rest
    have hsplit : src.length - progress =
        chunkLen src progress + (src.length - (progress + chunkLen src progress)) := by omega
    have hwords : chunkWords src progress * programUnit = chunkLen src progress :=
      chunkWords_mul hlen hoffset hlt
    have hsource : bytesFrom src (progress + chunkLen src progress) =
        fun o => bytesFrom src progress (chunkLen src progress + o) := by
      funext o
      rw [bytesFrom, bytesFrom, Nat.add_assoc]
    rw [hwords, hsplit, Flash.program_add, Nat.add_assoc, hsource]
  | erase page pagesToErase =>
    obtain ⟨-, hlt, -⟩ := h
    change progress < pagesToErase at hlt
    change Flash.erase ((page + (progress + 1)) * eraseSize)
      ((pagesToErase - (progress + 1)) * eraseSize)
      (Flash.erase ((page + progress) * eraseSize) eraseSize flash) =
      Flash.erase ((page + progress) * eraseSize) ((pagesToErase - progress) * eraseSize) flash
    obtain ⟨rest, rfl⟩ := Nat.exists_eq_add_of_lt hlt
    have hnext : (page + (progress + 1)) * eraseSize =
        (page + progress) * eraseSize + eraseSize := by
      rw [← Nat.add_assoc, Nat.succ_mul]
    have hleft : progress + rest + 1 - (progress + 1) = rest := by omega
    have hsplit : (progress + rest + 1 - progress) * eraseSize =
        eraseSize + rest * eraseSize := by
      rw [show progress + rest + 1 - progress = rest + 1 by omega, Nat.succ_mul, Nat.add_comm]
    rw [hnext, hleft, hsplit, Flash.erase_add]

/-- A part that was not done completely is done again. -/
theorem settle_tear (h : op.Valid) : op.settle (op.tear mask flash) = op.settle flash := by
  obtain ⟨request, progress⟩ := op
  cases request with
  | write dest src =>
    obtain ⟨⟨-, hlen⟩, hlt, hoffset⟩ := h
    change progress < src.length at hlt
    have hle := chunkLen_le (Nat.le_of_lt hlt)
    apply Flash.program_tearProgram_of_le
    change chunkWords src progress * programUnit ≤ src.length - progress
    have hwords : chunkWords src progress * programUnit = chunkLen src progress :=
      chunkWords_mul hlen hoffset hlt
    omega
  | erase page pagesToErase =>
    obtain ⟨-, hlt, -⟩ := h
    change progress < pagesToErase at hlt
    apply Flash.erase_tearErase_of_le
    exact Nat.le_mul_of_pos_left _ (Nat.sub_pos_of_lt hlt)

theorem settle_of_finished (h : op.finished = true) : op.settle flash = flash := by
  obtain ⟨request, progress⟩ := op
  have htotal : progress = request.total := of_decide_eq_true h
  cases request with
  | write dest src =>
    change progress = src.length at htotal
    change Flash.program _ _ (src.length - progress) _ = _
    rw [htotal, Nat.sub_self, Flash.program_zero]
  | erase page pagesToErase =>
    change progress = pagesToErase at htotal
    change Flash.erase _ ((pagesToErase - progress) * eraseSize) _ = _
    rw [htotal, Nat.sub_self, Nat.zero_mul, Flash.erase_zero]

/-- An operation that goes on is valid. -/
theorem Valid.advance (h : op.Valid) (hunfinished : op.advance.finished = false) :
    op.advance.Valid := by
  obtain ⟨request, progress⟩ := op
  have hne := of_decide_eq_false hunfinished
  cases request with
  | write dest src =>
    obtain ⟨⟨hpos, hlen⟩, hlt, hoffset⟩ := h
    change progress < src.length at hlt
    change ¬progress + chunkLen src progress = src.length at hne
    have hle := chunkLen_le (Nat.le_of_lt hlt)
    refine ⟨⟨hpos, hlen⟩, Nat.lt_of_le_of_ne hle hne, ?_⟩
    change (progress + chunkLen src progress) % programUnit = 0
    rw [← chunkWords_mul hlen hoffset hlt, Nat.add_mul_mod_self_right]
    exact hoffset
  | erase page pagesToErase =>
    obtain ⟨hvalid, hlt, -⟩ := h
    change ¬progress + 1 = pagesToErase at hne
    exact ⟨hvalid, Nat.lt_of_le_of_ne hlt hne, trivial⟩

theorem request_advance : op.advance.request = op.request := by
  obtain ⟨request, progress⟩ := op
  cases request <;> rfl

end FsOp

/-! ## The queue -/

/-- The flash when the operations of the queue are done. -/
def settleAll (fifo : List FsOp) (flash : Flash) : Flash :=
  fifo.foldl (fun flash op => op.settle flash) flash

/-- What holds of the queue whenever it is processed. -/
structure Fstorage.Sound (s : Fstorage) : Prop where
  valid : ∀ op ∈ s.fifo, op.Valid
  length : s.fifo.length ≤ nrfFstorageSdQueueSize
  retries : s.retries ≤ nrfFstorageSdMaxRetries
  busy : s.state ≠ .idle → s.fifo ≠ []

/-- What holds of it in between: it is running while an operation is. -/
structure FsInv (s : Fstorage) : Prop extends s.Sound where
  running : s.queueRunning = true ↔ s.state ≠ .idle

/-- What comes of the queue when it goes on, next to the flash. -/
structure FsOutcome (s : Fstorage) (flash flash' : Flash) (r : Fstorage × FsEvents) : Prop where
  inv : FsInv r.1
  requests : r.2.map Prod.fst ++ r.1.fifo.map FsOp.request = s.fifo.map FsOp.request
  idle : r.1.state = .idle → r.1.fifo = [] ∨ ∃ e ∈ r.2, e.2 = .nrfErrorInternal
  settled : (∀ e ∈ r.2, e.2 = .nrfSuccess) → settleAll r.1.fifo flash' = settleAll s.fifo flash

section Queue

variable {s : Fstorage} {rc : SdRetCode} {flash : Flash} {mask : ℕ → BitVec 8} {op : FsOp}
  {fifo : List FsOp}

theorem Fstorage.Sound.tail (h : s.Sound) (hfifo : s.fifo = op :: fifo) :
    { s with state := .idle, fifo := fifo }.Sound :=
  ⟨fun op' hop => h.valid op' (hfifo ▸ List.mem_cons_of_mem op hop),
    Nat.le_of_succ_le (hfifo ▸ h.length : (op :: fifo).length ≤ _), h.retries,
    fun hbusy => absurd rfl hbusy⟩

theorem queueProcess_nil (hfifo : s.fifo = []) :
    s.queueProcess rc = ({ s with queueRunning := false }, []) := by
  rw [Fstorage.queueProcess, hfifo]

theorem queueProcess_success (hfifo : s.fifo = op :: fifo) :
    s.queueProcess .nrfSuccess = ({ s with state := .opExecuting }, []) := by
  rw [Fstorage.queueProcess, hfifo]

theorem queueProcess_busy (hfifo : s.fifo = op :: fifo) :
    s.queueProcess .nrfErrorBusy = ({ s with state := .opPending }, []) := by
  rw [Fstorage.queueProcess, hfifo]

theorem queueProcess_error (hfifo : s.fifo = op :: fifo) :
    s.queueProcess .nrfError =
      ({ s with state := .idle, queueRunning := false, fifo := fifo },
        [(op.request, .nrfErrorInternal)]) := by
  rw [Fstorage.queueProcess, hfifo]

theorem queueProcess_outcome (h : s.Sound) (hrunning : s.queueRunning = true) :
    FsOutcome s flash flash (s.queueProcess rc) := by
  cases hfifo : s.fifo with
  | nil =>
    have hidle : s.state = .idle := by
      by_contra hbusy
      exact h.busy hbusy hfifo
    rw [queueProcess_nil hfifo]
    exact
      { inv := { h with running := iff_of_false Bool.false_ne_true (not_not.mpr hidle) }
        requests := rfl
        idle := fun _ => .inl hfifo
        settled := fun _ => rfl }
  | cons op fifo =>
    have hne : s.fifo ≠ [] := hfifo ▸ List.cons_ne_nil op fifo
    cases rc with
    | nrfSuccess =>
      rw [queueProcess_success hfifo]
      exact
        { inv := { h with
            busy := fun _ => hne
            running := iff_of_true hrunning (FstorageState.noConfusion) }
          requests := rfl
          idle := fun hidle => nomatch hidle
          settled := fun _ => rfl }
    | nrfErrorBusy =>
      rw [queueProcess_busy hfifo]
      exact
        { inv := { h with
            busy := fun _ => hne
            running := iff_of_true hrunning (FstorageState.noConfusion) }
          requests := rfl
          idle := fun hidle => nomatch hidle
          settled := fun _ => rfl }
    -- the refused operation gets its result, and the queue runs no more
    | nrfError =>
      rw [queueProcess_error hfifo]
      exact
        { inv := { h.tail hfifo with
            running := iff_of_false Bool.false_ne_true (not_not.mpr rfl) }
          requests := by rw [hfifo]; rfl
          idle := fun _ => .inr ⟨_, List.mem_cons_self, rfl⟩
          settled := fun hall => nomatch hall _ List.mem_cons_self }

theorem finish_cons (result : FsResult) (hfifo : s.fifo = op :: fifo) :
    s.finish result rc =
      ((Fstorage.queueProcess rc { s with state := .idle, fifo := fifo }).1,
        (op.request, result) ::
          (Fstorage.queueProcess rc { s with state := .idle, fifo := fifo }).2) := by
  rw [Fstorage.finish, hfifo]

/-- The first operation has finished. -/
theorem finish_outcome {flash' : Flash} {result : FsResult}
    (htail : { s with state := .idle, fifo := fifo }.Sound) (hrunning : s.queueRunning = true)
    (hfifo : s.fifo = op :: fifo) (hflash : result = .nrfSuccess → flash' = op.settle flash) :
    FsOutcome s flash flash' (s.finish result rc) := by
  have hrest : FsOutcome { s with state := .idle, fifo := fifo } flash' flash'
      (Fstorage.queueProcess rc { s with state := .idle, fifo := fifo }) :=
    queueProcess_outcome htail hrunning
  obtain ⟨hinv, hrequests, hidle, hsettled⟩ := hrest
  rw [finish_cons result hfifo]
  refine ⟨hinv, ?_, fun hstate => ?_, fun hall => ?_⟩
  · rw [hfifo]
    exact congrArg (op.request :: ·) hrequests
  · rcases hidle hstate with hnil | ⟨e, he, hinternal⟩
    · exact .inl hnil
    · exact .inr ⟨e, List.mem_cons_of_mem _ he, hinternal⟩
  · obtain ⟨hresult, hrest⟩ := List.forall_mem_cons.mp hall
    rw [hfifo]
    refine (hsettled hrest).trans ?_
    change settleAll fifo flash' = settleAll fifo (op.settle flash)
    rw [hflash hresult]

/-- An outcome from a state that the queue comes to first. -/
theorem FsOutcome.of_settleAll_eq {s' : Fstorage} {flash₁ flash' : Flash}
    {r : Fstorage × FsEvents} (h : FsOutcome s' flash₁ flash' r)
    (hrequests : s'.fifo.map FsOp.request = s.fifo.map FsOp.request)
    (hsettled : settleAll s'.fifo flash₁ = settleAll s.fifo flash) : FsOutcome s flash flash' r :=
  ⟨h.inv, h.requests.trans hrequests, h.idle, fun hall => (h.settled hall).trans hsettled⟩

/-- Outside an operation nothing is attempted. -/
theorem attempt_of_ne (hstate : s.state ≠ .opExecuting) (success : Bool) :
    s.attempt success = [] := by
  rw [Fstorage.attempt]
  split
  · exact absurd ‹_› hstate
  · rfl

/-- Outside an operation the flash stays as it is. -/
theorem flashBehind_of_ne (hstate : s.state ≠ .opExecuting) (success : Bool)
    (mask : ℕ → BitVec 8) : s.flashBehind success mask flash = flash := by
  rw [Fstorage.flashBehind]
  split
  · exact absurd ‹_› hstate
  · rfl

theorem sysEvtHandler_idle (hstate : s.state = .idle) (success : Bool) :
    s.sysEvtHandler success rc = (s, []) := by
  rw [Fstorage.sysEvtHandler, hstate]

/-- The operation that the SoftDevice had no time for is requested again. -/
theorem sysEvtHandler_pending (hstate : s.state = .opPending) (success : Bool) :
    s.sysEvtHandler success rc = s.queueProcess rc := by
  rw [Fstorage.sysEvtHandler, hstate]

theorem attempt_executing (hstate : s.state = .opExecuting) (hfifo : s.fifo = op :: fifo)
    (success : Bool) : s.attempt success = [(op, success)] := by
  rw [Fstorage.attempt, hstate, hfifo]

theorem flashBehind_success (hstate : s.state = .opExecuting) (hfifo : s.fifo = op :: fifo) :
    s.flashBehind true mask flash = op.execute flash := by
  rw [Fstorage.flashBehind, hstate, hfifo]
  rfl

theorem flashBehind_error (hstate : s.state = .opExecuting) (hfifo : s.fifo = op :: fifo) :
    s.flashBehind false mask flash = op.tear mask flash := by
  rw [Fstorage.flashBehind, hstate, hfifo]
  rfl

/-- The operation that the SoftDevice is executing is the first of the queue. -/
theorem FsInv.exists_executing (h : FsInv s) (hstate : s.state = .opExecuting) :
    ∃ op fifo, s.fifo = op :: fifo :=
  List.exists_cons_of_ne_nil (h.busy (hstate ▸ FstorageState.noConfusion))

theorem sysEvtHandler_success (hstate : s.state = .opExecuting) (hfifo : s.fifo = op :: fifo) :
    s.sysEvtHandler true rc =
      if op.advance.finished then
        Fstorage.finish .nrfSuccess rc { s with retries := 0, fifo := op.advance :: fifo }
      else Fstorage.queueProcess rc { s with retries := 0, fifo := op.advance :: fifo } := by
  rw [Fstorage.sysEvtHandler, hstate, hfifo]
  rfl

theorem sysEvtHandler_error (hstate : s.state = .opExecuting) (hfifo : s.fifo = op :: fifo) :
    s.sysEvtHandler false rc =
      if s.retries + 1 > nrfFstorageSdMaxRetries then
        Fstorage.finish .nrfErrorTimeout rc { s with retries := 0 }
      else Fstorage.queueProcess rc { s with retries := s.retries + 1 } := by
  rw [Fstorage.sysEvtHandler, hstate, hfifo]
  rfl

/-- An event of the SoftDevice while the queue is running. -/
theorem sysEvtHandler_outcome (h : FsInv s) (hbusy : s.state ≠ .idle) (success : Bool)
    (mask : ℕ → BitVec 8) :
    FsOutcome s flash (s.flashBehind success mask flash) (s.sysEvtHandler success rc) := by
  have hrunning := h.running.mpr hbusy
  cases hstate : s.state with
  | idle => exact absurd hstate hbusy
  | opPending =>
    rw [flashBehind_of_ne (by simp [hstate]), sysEvtHandler_pending hstate]
    exact queueProcess_outcome h.toSound hrunning
  | opExecuting =>
    obtain ⟨op, fifo, hfifo⟩ := h.exists_executing hstate
    have hvalid : op.Valid := h.valid op (hfifo ▸ List.mem_cons_self)
    have htail := h.toSound.tail hfifo
    cases success with
    | true =>
      have hrequests : (op.advance :: fifo).map FsOp.request = s.fifo.map FsOp.request := by
        rw [hfifo, List.map_cons, op.request_advance]
        rfl
      have hsettled : settleAll (op.advance :: fifo) (op.execute flash) =
          settleAll s.fifo flash := by
        rw [hfifo]
        exact congrArg (settleAll fifo) (FsOp.settle_execute hvalid)
      rw [flashBehind_success hstate hfifo, sysEvtHandler_success hstate hfifo]
      split_ifs with hfinished
      -- the last attempt of the operation
      · have htail' : { s with state := .idle, retries := 0, fifo := fifo }.Sound :=
          ⟨htail.valid, htail.length, Nat.zero_le _, htail.busy⟩
        have hadvanced : { s with retries := 0, fifo := op.advance :: fifo }.fifo =
            op.advance :: fifo := rfl
        exact FsOutcome.of_settleAll_eq (finish_outcome htail' hrunning hadvanced fun _ =>
          (FsOp.settle_of_finished hfinished).symm) hrequests hsettled
      · refine FsOutcome.of_settleAll_eq (queueProcess_outcome ⟨?_, ?_, Nat.zero_le _, ?_⟩ hrunning)
          hrequests hsettled
        · exact List.forall_mem_cons.mpr
            ⟨hvalid.advance (Bool.eq_false_iff.mpr hfinished), htail.valid⟩
        · exact (hfifo ▸ h.length : (op :: fifo).length ≤ _)
        · exact fun _ => List.cons_ne_nil _ _
    | false =>
      rw [flashBehind_error hstate hfifo, sysEvtHandler_error hstate hfifo]
      split_ifs with hretries
      -- the operation is given up
      · have htail' : { s with state := .idle, retries := 0, fifo := fifo }.Sound :=
          ⟨htail.valid, htail.length, Nat.zero_le _, htail.busy⟩
        exact FsOutcome.of_settleAll_eq (finish_outcome htail' hrunning hfifo
          fun hresult => nomatch hresult) rfl rfl
      · refine FsOutcome.of_settleAll_eq (queueProcess_outcome
          ⟨h.valid, h.length, Nat.le_of_not_lt hretries, h.busy⟩ hrunning) rfl ?_
        rw [hfifo]
        exact congrArg (settleAll fifo) (FsOp.settle_tear hvalid)

/-- `queue_start` on a queue that is running leaves it to the next event. -/
theorem queueStart_outcome (h : FsInv s) : FsOutcome s flash flash (s.queueStart rc) := by
  rw [Fstorage.queueStart]
  split_ifs with hrunning
  · exact
      { inv := h
        requests := rfl
        idle := fun hidle => absurd hidle (h.running.mp hrunning)
        settled := fun _ => rfl }
  · exact FsOutcome.of_settleAll_eq (queueProcess_outcome
      ⟨h.valid, h.length, h.retries, h.busy⟩ rfl) rfl rfl

/-- The queue goes on without an error. -/
theorem queueProcess_fifo (hall : ∀ e ∈ (s.queueProcess rc).2, e.2 = .nrfSuccess) :
    (s.queueProcess rc).1.fifo = s.fifo := by
  cases hfifo : s.fifo with
  | nil =>
    rw [queueProcess_nil hfifo]
    exact hfifo
  | cons op fifo =>
    cases rc with
    | nrfSuccess =>
      rw [queueProcess_success hfifo]
      exact hfifo
    | nrfErrorBusy =>
      rw [queueProcess_busy hfifo]
      exact hfifo
    | nrfError =>
      rw [queueProcess_error hfifo] at hall
      cases hall _ List.mem_cons_self

/-- An event without an error does nothing, or a part of the first operation, which is left in the
queue when it is not finished. -/
theorem sysEvtHandler_parts (h : FsInv s) (flash : Flash) (success : Bool) (mask : ℕ → BitVec 8)
    (hall : ∀ e ∈ (s.sysEvtHandler success rc).2, e.2 = .nrfSuccess) :
    let queued := (s.sysEvtHandler success rc).1.fifo.map FsOp.request
    let flash' := s.flashBehind success mask flash
    queued = s.fifo.map FsOp.request ∧ flash' = flash ∧ s.attempt success = [] ∨
      ∃ op fifo, s.fifo = op :: fifo ∧ op.Valid ∧ s.attempt success = [(op, success)] ∧
        (queued = op.request :: fifo.map FsOp.request ∧
            (flash' = op.tear mask flash ∨ flash' = op.execute flash) ∨
          queued = fifo.map FsOp.request ∧ flash' = op.execute flash) := by
  intro queued flash'
  cases hstate : s.state with
  | idle =>
    have hne : s.state ≠ .opExecuting := by simp [hstate]
    have hqueued : queued = s.fifo.map FsOp.request :=
      congrArg (fun r => r.1.fifo.map FsOp.request) (sysEvtHandler_idle hstate success)
    exact .inl ⟨hqueued, flashBehind_of_ne hne success mask, attempt_of_ne hne success⟩
  | opPending =>
    have hne : s.state ≠ .opExecuting := by simp [hstate]
    have hhandler : s.sysEvtHandler success rc = s.queueProcess rc :=
      sysEvtHandler_pending hstate success
    rw [hhandler] at hall
    have hqueued : queued = s.fifo.map FsOp.request := by
      simp only [queued, hhandler, queueProcess_fifo hall]
    exact .inl ⟨hqueued, flashBehind_of_ne hne success mask, attempt_of_ne hne success⟩
  | opExecuting =>
    obtain ⟨op, fifo, hfifo⟩ := h.exists_executing hstate
    refine .inr ⟨op, fifo, hfifo, h.valid op (hfifo ▸ List.mem_cons_self),
      attempt_executing hstate hfifo success, ?_⟩
    cases success with
    | true =>
      have hflash : flash' = op.execute flash := flashBehind_success hstate hfifo
      have hhandler : s.sysEvtHandler true rc = _ := sysEvtHandler_success hstate hfifo
      split_ifs at hhandler
      · have hfinish : Fstorage.finish .nrfSuccess rc
            { s with retries := 0, fifo := op.advance :: fifo } = _ := finish_cons _ rfl
        rw [hfinish] at hhandler
        rw [hhandler] at hall
        have hrest := queueProcess_fifo (List.forall_mem_cons.mp hall).2
        refine .inr ⟨?_, hflash⟩
        simp only [queued, hhandler, hrest]
      · rw [hhandler] at hall
        have hrest := queueProcess_fifo hall
        refine .inl ⟨?_, .inr hflash⟩
        simp only [queued, hhandler, hrest, List.map_cons, op.request_advance]
    | false =>
      have hflash : flash' = op.tear mask flash := flashBehind_error hstate hfifo
      have hhandler : s.sysEvtHandler false rc = _ := sysEvtHandler_error hstate hfifo
      split_ifs at hhandler
      · have hfinish : Fstorage.finish .nrfErrorTimeout rc { s with retries := 0 } = _ :=
          finish_cons _ hfifo
        rw [hhandler, hfinish] at hall
        cases hall _ List.mem_cons_self
      · rw [hhandler] at hall
        have hrest := (queueProcess_fifo hall).trans hfifo
        refine .inl ⟨?_, .inl hflash⟩
        simp only [queued, hhandler, hrest, List.map_cons]

theorem FsOutcome.length_le {flash' : Flash} {r : Fstorage × FsEvents}
    (h : FsOutcome s flash flash' r) : r.1.fifo.length ≤ s.fifo.length := by
  have hlength := congrArg List.length h.requests
  rw [List.length_append, List.length_map, List.length_map, List.length_map] at hlength
  omega

end Queue

/-! ## The system -/

/-- The flash behind the requests, one after the other. -/
def applyAll (requests : List FsRequest) (flash : Flash) : Flash :=
  requests.foldl (fun flash r => r.apply flash) flash

/-- The request is an erase. -/
def FsRequest.isErase : FsRequest → Bool
  | .write .. => false
  | .erase .. => true

/-- The erases that were requested behind the last write. -/
def FlashSystem.erasesBehind (s : FlashSystem) : ℕ :=
  (s.requested.reverse.takeWhile FsRequest.isErase).length

/-- Some operation could not be started. -/
def FlashSystem.Broken (s : FlashSystem) : Prop := ∃ e ∈ s.results, e.2 = .nrfErrorInternal

/-- The main loop is between the two parts of a call. -/
def FlashSystem.Starting (s : FlashSystem) : Prop := ∃ waits, s.caller = .starting waits

/-- The queue, the results and the flash next to what was requested, from a flash on. -/
structure FlashInv (flash₀ : Flash) (s : FlashSystem) : Prop where
  fs : FsInv s.fs
  requests : s.results.map Prod.fst ++ s.fs.fifo.map FsOp.request = s.requested
  idle : s.fs.state = .idle → s.Starting ∨ s.Broken ∨ s.fs.fifo = []
  settled : (∀ e ∈ s.results, e.2 = .nrfSuccess) →
    settleAll s.fs.fifo s.flash = applyAll s.requested flash₀
  /-- Only erases can be left when the main loop is outside of a write. -/
  erases : s.caller = .ready ∨ s.caller = .starting false →
    s.Broken ∨ s.fs.fifo.length ≤ s.erasesBehind

section System

variable {flash₀ flash' : Flash} {s : FlashSystem} {c : FlashCall} {rc : SdRetCode}
  {r : Fstorage × FsEvents}

theorem FlashCall.valid_request (h : c.check = .nrfSuccess) : c.request.Valid := by
  cases c with
  | erase ulAddress ulLen =>
    rw [FlashCall.check] at h
    split_ifs at h with hlen
    exact ⟨Nat.pos_of_ne_zero hlen, trivial⟩
  | write ulAddress src =>
    rw [FlashCall.check] at h
    split_ifs at h with hlen
    obtain ⟨hne, hmod⟩ := not_or.mp hlen
    exact ⟨Nat.pos_of_ne_zero hne, not_not.mp hmod⟩

/-- The system behind an outcome of the queue. -/
theorem FlashInv.of_outcome (h : FlashInv flash₀ s) (hout : FsOutcome s.fs s.flash flash' r)
    (caller : FlashCaller) (attempts : List (FsOp × Bool))
    (hcaller : caller = .ready ∨ caller = .starting false →
      s.caller = .ready ∨ s.caller = .starting false) :
    FlashInv flash₀
      { s with
        caller := caller
        fs := r.1
        flash := flash'
        attempts := attempts
        results := s.results ++ r.2 } := by
  refine ⟨hout.inv, ?_, fun hidle => .inr ?_, fun hall => ?_, fun hc => ?_⟩
  · rw [List.map_append, List.append_assoc, hout.requests]
    exact h.requests
  · rcases hout.idle hidle with hnil | ⟨e, he, hinternal⟩
    · exact .inr hnil
    · exact .inl ⟨e, List.mem_append_right _ he, hinternal⟩
  · have hleft := h.settled fun e he => hall e (List.mem_append_left _ he)
    exact (hout.settled fun e he => hall e (List.mem_append_right _ he)).trans hleft
  · rcases h.erases (hcaller hc) with ⟨e, he, hinternal⟩ | hle
    · exact .inl ⟨e, List.mem_append_left _ he, hinternal⟩
    · exact .inr (Nat.le_trans hout.length_le hle)

theorem FlashInv.call (h : FlashInv flash₀ s) (hready : s.caller = .ready) (c : FlashCall) :
    FlashInv flash₀ (s.call c) := by
  rw [FlashSystem.call]
  split_ifs with hcheck hplace
  · have hvalid := c.valid_request hcheck
    refine ⟨⟨⟨?_, ?_, h.fs.retries, fun hbusy => ?_⟩, h.fs.running⟩, ?_,
      fun _ => .inl ⟨_, rfl⟩, ?_, ?_⟩
    · intro op hop
      rcases List.mem_append.mp hop with hop | hop
      · exact h.fs.valid op hop
      · obtain rfl := List.mem_singleton.mp hop
        refine ⟨hvalid, hvalid.1, ?_⟩
        cases c <;> trivial
    · rw [List.length_append]
      exact hplace
    · exact List.append_ne_nil_of_left_ne_nil (h.fs.busy hbusy) _
    · change s.results.map Prod.fst ++ List.map FsOp.request (s.fs.fifo ++ [_]) = _
      rw [List.map_append, ← List.append_assoc, h.requests]
      rfl
    · intro hall
      change settleAll (s.fs.fifo ++ [_]) s.flash = applyAll (s.requested ++ [c.request]) flash₀
      rw [settleAll, List.foldl_append, applyAll, List.foldl_append]
      change FsOp.settle ⟨c.request, 0⟩ (settleAll s.fs.fifo s.flash) = _
      rw [h.settled hall, FsOp.settle_zero]
      rfl
    -- only an erase leaves the caller where it makes another call
    · intro hcaller
      have herase : c.waits = false := by
        rcases hcaller with hcaller | hcaller
        · cases hcaller
        · exact FlashCaller.starting.inj hcaller
      obtain ⟨ulAddress, ulLen, rfl⟩ : ∃ ulAddress ulLen, c = .erase ulAddress ulLen := by
        cases c with
        | erase ulAddress ulLen => exact ⟨ulAddress, ulLen, rfl⟩
        | write ulAddress src => cases herase
      rcases h.erases (.inl hready) with hbroken | hle
      · exact .inl hbroken
      · right
        rw [FlashSystem.erasesBehind]
        change (s.fs.fifo ++ [_]).length ≤
          ((s.requested ++ [FsRequest.erase _ _]).reverse.takeWhile _).length
        rw [List.length_append, List.reverse_append, List.reverse_singleton, List.singleton_append,
          List.takeWhile_cons_of_pos rfl, List.length_cons]
        exact Nat.succ_le_succ hle
  · exact ⟨h.fs, h.requests, h.idle, h.settled, h.erases⟩
  · exact ⟨h.fs, h.requests, h.idle, h.settled, h.erases⟩

/-- Events are ignored while no operation was requested of the SoftDevice. -/
theorem FlashSystem.sysEvt_idle (hstate : s.fs.state = .idle) (success : Bool)
    (mask : ℕ → BitVec 8) : s.sysEvt success mask rc = s := by
  have hne : s.fs.state ≠ .opExecuting := by simp [hstate]
  have hstep : s.sysEvt success mask rc =
      { s with attempts := s.attempts ++ [], results := s.results ++ [] } := by
    rw [FlashSystem.sysEvt, sysEvtHandler_idle hstate, flashBehind_of_ne hne, attempt_of_ne hne]
  rw [hstep, List.append_nil, List.append_nil]

theorem FlashInv.step (h : FlashInv flash₀ s) (a : FlashStep) :
    FlashInv flash₀ (flashStep s a) := by
  cases a with
  | call c =>
    rw [flashStep]
    split_ifs with hready
    · exact h.call hready c
    · exact h
  | start rc =>
    rw [flashStep]
    split
    · rename_i waits hcaller
      exact h.of_outcome (queueStart_outcome h.fs) _ _ fun hc => .inr (by
        rw [hcaller]
        cases waits with
        | true => rcases hc with hc | hc <;> cases hc
        | false => rfl)
    · exact h
    · exact h
  | poll =>
    rw [flashStep, FlashSystem.poll]
    split_ifs with hwaiting hidle
    · have hrest : s.Broken ∨ s.fs.fifo = [] := by
        rcases h.idle hidle with ⟨waits, hstarting⟩ | hrest
        · rw [hwaiting] at hstarting
          cases hstarting
        · exact hrest
      refine ⟨h.fs, h.requests, fun _ => .inr hrest, h.settled, fun _ => ?_⟩
      rcases hrest with hbroken | hnil
      · exact .inl hbroken
      · exact .inr (by rw [hnil]; exact Nat.zero_le _)
    · exact h
    · exact h
  | sysEvt success mask rc =>
    by_cases hidle : s.fs.state = .idle
    · rw [flashStep, FlashSystem.sysEvt_idle hidle]
      exact h
    · exact h.of_outcome (sysEvtHandler_outcome h.fs hidle success mask) s.caller _ id

theorem FlashInv.run (h : FlashInv flash₀ s) (steps : List FlashStep) :
    FlashInv flash₀ (runFlash steps s) := by
  induction steps generalizing s with
  | nil => exact h
  | cons a steps ih => exact ih (h.step a)

theorem flashInv_boot (flash : Flash) : FlashInv flash (.boot flash) where
  fs :=
    { valid := fun _ hop => nomatch hop
      length := Nat.zero_le _
      retries := Nat.zero_le _
      busy := fun hbusy => absurd rfl hbusy
      running := iff_of_false Bool.false_ne_true fun hne => hne rfl }
  requests := rfl
  idle _ := .inr (.inr rfl)
  settled _ := rfl
  erases _ := .inr (Nat.zero_le _)

/-- Every event that was sent to the application reports success. -/
def FlashSystem.Succeeded (s : FlashSystem) : Prop := ∀ e ∈ s.results, e.2 = .nrfSuccess

/-- No operation is executing, and the main loop is not about to start one. -/
def FlashSystem.Quiet (s : FlashSystem) : Prop := s.fs.state = .idle ∧ ¬s.Starting

theorem FlashSystem.Succeeded.not_broken (h : s.Succeeded) : ¬s.Broken := by
  rintro ⟨e, he, hinternal⟩
  have hsuccess := h e he
  rw [hinternal] at hsuccess
  cases hsuccess

/-- `Mid_FlashWrite` returns when nothing is executing. -/
theorem FlashSystem.quiet_of_return {a : FlashStep} (hwaiting : s.caller = .waiting)
    (hready : (flashStep s a).caller = .ready) : (flashStep s a).Quiet := by
  have hkeeps : s.caller ≠ .ready := by
    rw [hwaiting]
    exact nofun
  cases a with
  | call c =>
    rw [flashStep, if_neg hkeeps] at hready
    exact absurd hready hkeeps
  | start rc =>
    rw [flashStep, hwaiting] at hready
    exact absurd hready hkeeps
  | sysEvt success mask rc => exact absurd hready hkeeps
  | poll =>
    rw [flashStep, if_pos hwaiting, FlashSystem.poll] at hready ⊢
    split_ifs at hready ⊢ with hidle
    · refine ⟨hidle, ?_⟩
      rintro ⟨waits, hstarting⟩
      cases hstarting
    · exact absurd hready hkeeps

/-- Nothing waits in the queue, unless it has stopped at an error. -/
theorem FlashInv.fifo_eq_nil (h : FlashInv flash₀ s) (hquiet : s.Quiet) (hbroken : ¬s.Broken) :
    s.fs.fifo = [] := by
  rcases h.idle hquiet.1 with hstarting | hstopped | hnil
  · exact absurd hstarting hquiet.2
  · exact absurd hstopped hbroken
  · exact hnil

/-- Nothing is left in the queue, and the flash is what the requests make of it. -/
theorem FlashInv.flash_eq (h : FlashInv flash₀ s) (hsucceeded : s.Succeeded) (hquiet : s.Quiet) :
    s.results = s.requested.map (·, .nrfSuccess) ∧ s.flash = applyAll s.requested flash₀ := by
  have hnil := h.fifo_eq_nil hquiet hsucceeded.not_broken
  have hrequests := h.requests
  have hsettled := h.settled hsucceeded
  rw [hnil, List.map_nil, List.append_nil] at hrequests
  rw [hnil] at hsettled
  refine ⟨?_, hsettled⟩
  rw [← hrequests, List.map_map]
  refine (List.map_id _).symm.trans (List.map_congr_left fun e he => ?_)
  exact Prod.ext rfl (hsucceeded e he)

/-- The accepted requests are those that have got their results, one each and in order, and behind
them those that wait. None waits when nothing is executing, which is so when `Mid_FlashWrite`
returns, unless the SoftDevice has refused to start a request: then the queue stands still until the
next call. When every result is a success and nothing is executing, the flash is what the requests
make of it one after the other, however often parts were done again. -/
theorem flash_sequential (flash : Flash) (steps : List FlashStep) :
    let s := runFlash steps (.boot flash)
    s.results.map Prod.fst ++ s.fs.fifo.map FsOp.request = s.requested ∧
      (s.Quiet → ¬s.Broken → s.results.map Prod.fst = s.requested) ∧
      (s.Quiet → s.Succeeded →
        s.results = s.requested.map (·, .nrfSuccess) ∧ s.flash = applyAll s.requested flash) ∧
      ∀ a, s.caller = .waiting → (flashStep s a).caller = .ready → (flashStep s a).Quiet := by
  intro s
  have h : FlashInv flash s := (flashInv_boot flash).run steps
  refine ⟨h.requests, fun hquiet hbroken => ?_, fun hquiet hsucceeded => ?_,
    fun a => FlashSystem.quiet_of_return⟩
  · have hrequests := h.requests
    rwa [h.fifo_eq_nil hquiet hbroken, List.map_nil, List.append_nil] at hrequests
  · exact h.flash_eq hsucceeded hquiet

/-! ## Refusals -/

/-- Four requests behind which only erases are queued. -/
def FlashSystem.FourErases (s : FlashSystem) : Prop :=
  ∃ before erases, erases.length = nrfFstorageSdQueueSize ∧
    (∀ r ∈ erases, FsRequest.isErase r = true) ∧ before ++ erases <+: s.requested

theorem fourErases_of_erasesBehind (h : nrfFstorageSdQueueSize ≤ s.erasesBehind) :
    s.FourErases := by
  have hsplit := List.takeWhile_append_dropWhile (p := FsRequest.isErase) (l := s.requested.reverse)
  set erases := s.requested.reverse.takeWhile FsRequest.isErase with herases
  have hall : ∀ r ∈ erases, FsRequest.isErase r = true := fun r hr => List.mem_takeWhile_imp hr
  refine ⟨(erases.drop 4 ++ s.requested.reverse.dropWhile FsRequest.isErase).reverse,
    (erases.take 4).reverse, ?_, ?_, ?_⟩
  · rw [List.length_reverse, List.length_take]
    exact Nat.min_eq_left h
  · intro r hr
    exact hall r (List.mem_of_mem_take (List.mem_reverse.mp hr))
  · have happend : (erases.drop 4 ++ s.requested.reverse.dropWhile FsRequest.isErase).reverse ++
        (erases.take 4).reverse = s.requested := by
      rw [← List.reverse_append, ← List.append_assoc, List.take_append_drop, hsplit,
        List.reverse_reverse]
    exact ⟨[], (List.append_nil _).trans happend⟩

/-- A step only adds to the record. -/
theorem flashStep_records (s : FlashSystem) (a : FlashStep) :
    s.requested <+: (flashStep s a).requested ∧ s.results <+: (flashStep s a).results := by
  cases a with
  | call c =>
    rw [flashStep, FlashSystem.call]
    split_ifs
    · exact ⟨List.prefix_append .., List.prefix_rfl⟩
    all_goals exact ⟨List.prefix_rfl, List.prefix_rfl⟩
  | start rc =>
    rw [flashStep]
    split
    · exact ⟨List.prefix_rfl, List.prefix_append ..⟩
    all_goals exact ⟨List.prefix_rfl, List.prefix_rfl⟩
  | poll =>
    rw [flashStep, FlashSystem.poll]
    split_ifs <;> exact ⟨List.prefix_rfl, List.prefix_rfl⟩
  | sysEvt success mask rc => exact ⟨List.prefix_rfl, List.prefix_append ..⟩

theorem FlashSystem.Broken.step (h : s.Broken) (a : FlashStep) : (flashStep s a).Broken := by
  obtain ⟨e, he, hinternal⟩ := h
  exact ⟨e, (flashStep_records s a).2.subset he, hinternal⟩

theorem FlashSystem.FourErases.step (h : s.FourErases) (a : FlashStep) :
    (flashStep s a).FourErases := by
  obtain ⟨before, erases, hlength, hall, hprefix⟩ := h
  exact ⟨before, erases, hlength, hall, hprefix.trans (flashStep_records s a).1⟩

theorem FlashCall.check_ne_noMem (c : FlashCall) : c.check ≠ .nrfErrorNoMem := by
  cases c with
  | erase ulAddress ulLen =>
    rw [FlashCall.check]
    split_ifs <;> exact nofun
  | write ulAddress src =>
    rw [FlashCall.check]
    split_ifs <;> exact nofun

/-- The calls that find no place in the queue. -/
def FlashSystem.Refused (s : FlashSystem) : Prop := ∃ c, (c, FsRetCode.nrfErrorNoMem) ∈ s.returned

/-- A call is refused where four erases have been requested last. -/
theorem FlashInv.refused_step (h : FlashInv flash₀ s) {a : FlashStep}
    (hrefused : (flashStep s a).Refused) (hnot : ¬s.Refused) :
    (flashStep s a).Broken ∨ (flashStep s a).FourErases := by
  obtain ⟨c, hc⟩ := hrefused
  cases a with
  | start rc =>
    rw [flashStep] at hc
    split at hc <;> exact absurd ⟨c, hc⟩ hnot
  | poll =>
    rw [flashStep, FlashSystem.poll] at hc
    split_ifs at hc <;> exact absurd ⟨c, hc⟩ hnot
  | sysEvt success mask rc => exact absurd ⟨c, hc⟩ hnot
  | call c' =>
    by_cases hready : s.caller = .ready
    swap
    · rw [flashStep, if_neg hready] at hc
      exact absurd ⟨c, hc⟩ hnot
    -- the call is refused for want of a place, so what is queued are erases of this wait
    have hfull : nrfFstorageSdQueueSize ≤ s.fs.fifo.length := by
      by_contra hplace
      rw [flashStep, if_pos hready, FlashSystem.call, if_pos (Nat.lt_of_not_le hplace)] at hc
      split_ifs at hc with hcheck
      · rcases List.mem_append.mp hc with hold | hnew
        · exact hnot ⟨c, hold⟩
        · cases List.mem_singleton.mp hnew
      · rcases List.mem_append.mp hc with hold | hnew
        · exact hnot ⟨c, hold⟩
        · exact c'.check_ne_noMem (Prod.mk.inj (List.mem_singleton.mp hnew)).2.symm
    rcases h.erases (.inl hready) with hbroken | hle
    · exact .inl (hbroken.step _)
    · exact .inr ((fourErases_of_erasesBehind (Nat.le_trans hfull hle)).step _)

/-- A call finds no place in the queue only when four erases were requested one after the other
without a write, or when the queue has stopped at an error. -/
theorem flash_refused (flash : Flash) (steps : List FlashStep)
    (hrefused : (runFlash steps (.boot flash)).Refused) :
    (runFlash steps (.boot flash)).Broken ∨ (runFlash steps (.boot flash)).FourErases := by
  suffices hrun : ∀ s, FlashInv flash s → (s.Refused → s.Broken ∨ s.FourErases) →
      (runFlash steps s).Refused → (runFlash steps s).Broken ∨ (runFlash steps s).FourErases by
    refine hrun _ (flashInv_boot flash) (fun hnone => ?_) hrefused
    obtain ⟨c, hc⟩ := hnone
    cases hc
  clear hrefused
  induction steps with
  | nil => exact fun _ _ hs => hs
  | cons a steps ih =>
    intro s h hs
    refine ih (flashStep s a) (h.step a) fun hrefused => ?_
    by_cases hold : s.Refused
    · exact (hs hold).imp (fun hbroken => hbroken.step a) fun herases => herases.step a
    · exact h.refused_step hrefused hold

end System

end IrRemote
