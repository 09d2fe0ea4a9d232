import IrRemote.Store.FlashQueue
import Mathlib.Data.List.DropRight

/-!
# When an operation of the flash is given up

The counter of the retries counts the failed attempts in a row, and at the ninth it gives up the
current operation and starts again. It is not reset where the SoftDevice refuses to start an
operation, so the attempts may be at different operations. In a run in which none is refused they
are nine attempts at one part of the operation that is given up.

## Main definitions

* `failuresInRow` — the failed attempts at the end of a run
* `FlashSystem.givenUp` — the requests that were given up
* `FlashSystem.NineFailures` — nine attempts at a part of a request have failed in a row
* `RetryInv` — what the counter has counted at the next part

## Main results

* `flash_given_up` — the steps that give a request up
-/

set_option autoImplicit false

namespace IrRemote

variable {flash₀ flash : Flash} {s : FlashSystem} {fs : Fstorage} {rc : SdRetCode} {op : FsOp}
  {fifo : List FsOp}

/-- The last attempts have failed, each at the next part of this operation. -/
def FailedAttempts (n : ℕ) (op : FsOp) (attempts : List (FsOp × Bool)) : Prop :=
  List.replicate n (op, false) <:+ attempts

theorem FailedAttempts.succ {n : ℕ} {attempts : List (FsOp × Bool)}
    (h : FailedAttempts n op attempts) : FailedAttempts (n + 1) op (attempts ++ [(op, false)]) := by
  obtain ⟨before, rfl⟩ := h
  refine ⟨before, ?_⟩
  rw [List.replicate_succ', List.append_assoc]

/-- At some point the last nine attempts had failed at one part of the request. -/
def FlashSystem.NineFailures (r : FsRequest) (s : FlashSystem) : Prop :=
  ∃ op attempts, op.request = r ∧ FailedAttempts (nrfFstorageSdMaxRetries + 1) op attempts ∧
    attempts <+: s.attempts

/-- The counter has counted the attempts at the next part of the first operation. -/
structure RetryInv (s : FlashSystem) : Prop where
  idle : s.fs.state = .idle → s.fs.retries = 0
  first : ∀ op fifo, s.fs.fifo = op :: fifo → FailedAttempts s.fs.retries op s.attempts
  timeouts : ∀ r, (r, .nrfErrorTimeout) ∈ s.results → s.NineFailures r

theorem failedAttempts_zero {attempts : List (FsOp × Bool)} : FailedAttempts 0 op attempts :=
  List.nil_suffix

theorem FlashSystem.NineFailures.mono {r : FsRequest} {s' : FlashSystem} (h : s.NineFailures r)
    (hattempts : s.attempts <+: s'.attempts) : s'.NineFailures r := by
  obtain ⟨op, attempts, hop, hfailed, hprefix⟩ := h
  exact ⟨op, attempts, hop, hfailed, hprefix.trans hattempts⟩

/-! ## The queue -/

/-- The queue stops at an error, or it keeps its operations. -/
theorem queueProcess_keeps (rc : SdRetCode) (fs : Fstorage) :
    (fs.queueProcess rc).1.retries = fs.retries ∧
      ((∃ e ∈ (fs.queueProcess rc).2, e.2 = .nrfErrorInternal) ∨
        (fs.queueProcess rc).2 = [] ∧ (fs.queueProcess rc).1.fifo = fs.fifo ∧
          ((fs.queueProcess rc).1.state = .idle → fs.state = .idle)) := by
  cases hfifo : fs.fifo with
  | nil =>
    rw [queueProcess_nil hfifo]
    exact ⟨rfl, .inr ⟨rfl, hfifo, id⟩⟩
  | cons op fifo =>
    cases rc with
    | nrfSuccess =>
      rw [queueProcess_success hfifo]
      exact ⟨rfl, .inr ⟨rfl, hfifo, fun hidle => nomatch hidle⟩⟩
    | nrfErrorBusy =>
      rw [queueProcess_busy hfifo]
      exact ⟨rfl, .inr ⟨rfl, hfifo, fun hidle => nomatch hidle⟩⟩
    | nrfError =>
      rw [queueProcess_error hfifo]
      exact ⟨rfl, .inl ⟨_, List.mem_cons_self, rfl⟩⟩

/-- The events behind the end of an operation. -/
theorem finish_keeps (result : FsResult) (rc : SdRetCode) (hfifo : fs.fifo = op :: fifo) :
    (fs.finish result rc).1.retries = fs.retries ∧
      ((∃ e ∈ (fs.finish result rc).2, e.2 = .nrfErrorInternal) ∨
        (fs.finish result rc).2 = [(op.request, result)]) := by
  obtain ⟨hretries, hkeeps⟩ := queueProcess_keeps rc { fs with state := .idle, fifo := fifo }
  rw [finish_cons result hfifo]
  refine ⟨hretries, ?_⟩
  rcases hkeeps with ⟨e, he, hinternal⟩ | ⟨hnil, -, -⟩
  · exact .inl ⟨e, List.mem_cons_of_mem _ he, hinternal⟩
  · exact .inr (congrArg _ hnil)

/-! ## The counter -/

/-- How many attempts have failed since the last one that has not. -/
def failuresInRow (attempts : List (FsOp × Bool)) : ℕ :=
  (attempts.rtakeWhile fun attempt => !attempt.2).length

theorem failuresInRow_concat (attempts : List (FsOp × Bool)) (op : FsOp) (success : Bool) :
    failuresInRow (attempts ++ [(op, success)]) =
      if success then 0 else failuresInRow attempts + 1 := by
  rw [failuresInRow, List.rtakeWhile_concat]
  cases success with
  | true => rfl
  | false =>
    rw [if_pos (by rfl), List.length_append]
    rfl

/-- The requests that were given up. -/
def timeouts (events : FsEvents) : List FsRequest :=
  (events.filter fun e => e.2 = .nrfErrorTimeout).map Prod.fst

theorem timeouts_append (events rest : FsEvents) :
    timeouts (events ++ rest) = timeouts events ++ timeouts rest := by
  rw [timeouts, List.filter_append, List.map_append]
  rfl

def FlashSystem.givenUp (s : FlashSystem) : List FsRequest := timeouts s.results

/-- The operation at which an attempt fails with this step. -/
def FlashSystem.failing (s : FlashSystem) : FlashStep → Option FsOp
  | .sysEvt false _ _ => if s.fs.state = .opExecuting then s.fs.fifo.head? else none
  | .sysEvt true _ _ | .call _ | .start _ | .poll => none

/-- Every ninth attempt in a row that fails gives its request up. -/
def FlashSystem.givesUp (s : FlashSystem) (a : FlashStep) : Option FsRequest :=
  if (failuresInRow s.attempts + 1) % (nrfFstorageSdMaxRetries + 1) = 0 then
    (s.failing a).map FsOp.request
  else none

/-- The counter starts again at nine. -/
def CountsRetries (s : FlashSystem) : Prop :=
  s.fs.retries = failuresInRow s.attempts % (nrfFstorageSdMaxRetries + 1)

theorem timeouts_queueProcess (rc : SdRetCode) (fs : Fstorage) :
    timeouts (fs.queueProcess rc).2 = [] := by
  cases hfifo : fs.fifo with
  | nil =>
    rw [queueProcess_nil hfifo]
    rfl
  | cons op fifo =>
    cases rc with
    | nrfSuccess =>
      rw [queueProcess_success hfifo]
      rfl
    | nrfErrorBusy =>
      rw [queueProcess_busy hfifo]
      rfl
    | nrfError =>
      rw [queueProcess_error hfifo]
      rfl

theorem timeouts_finish (result : FsResult) (rc : SdRetCode) (hfifo : fs.fifo = op :: fifo) :
    timeouts (fs.finish result rc).2 = timeouts [(op.request, result)] := by
  rw [finish_cons result hfifo, ← List.singleton_append, timeouts_append, timeouts_queueProcess,
    List.append_nil]

/-- What an event makes of the counter and of the results. -/
theorem countsRetries_sysEvt (success : Bool) (mask : ℕ → BitVec 8) (rc : SdRetCode) :
    (CountsRetries (s.sysEvt success mask rc) ↔
      (s.fs.sysEvtHandler success rc).1.retries =
        failuresInRow (s.attempts ++ s.fs.attempt success) % (nrfFstorageSdMaxRetries + 1)) ∧
    (s.sysEvt success mask rc).givenUp =
      s.givenUp ++ timeouts (s.fs.sysEvtHandler success rc).2 :=
  ⟨Iff.rfl, timeouts_append _ _⟩

/-- An event while the SoftDevice executes an operation. -/
theorem CountsRetries.executing (h : CountsRetries s) (hstate : s.fs.state = .opExecuting)
    (hfifo : s.fs.fifo = op :: fifo) (success : Bool) (mask : ℕ → BitVec 8) (rc : SdRetCode) :
    CountsRetries (s.sysEvt success mask rc) ∧
      (s.sysEvt success mask rc).givenUp =
        s.givenUp ++ (s.givesUp (.sysEvt success mask rc)).toList := by
  obtain ⟨hcounts, hgivenUp⟩ := countsRetries_sysEvt (s := s) success mask rc
  rw [hcounts, hgivenUp, attempt_executing hstate hfifo, failuresInRow_concat,
    List.append_cancel_left_eq]
  cases success with
  | true =>
    have hnone : s.givesUp (.sysEvt true mask rc) = none := ite_self _
    rw [sysEvtHandler_success hstate hfifo, hnone, if_pos rfl]
    by_cases hfinished : op.advance.finished = true
    · rw [if_pos hfinished, timeouts_finish _ _ rfl]
      exact ⟨(finish_keeps _ _ rfl).1, rfl⟩
    · rw [if_neg hfinished, timeouts_queueProcess]
      exact ⟨(queueProcess_keeps _ _).1, rfl⟩
  | false =>
    have hfailing : s.failing (.sysEvt false mask rc) = some op := by
      rw [FlashSystem.failing, if_pos hstate, hfifo]
      rfl
    have hcount : s.fs.retries = failuresInRow s.attempts % (nrfFstorageSdMaxRetries + 1) := h
    rw [sysEvtHandler_error hstate hfifo, FlashSystem.givesUp, hfailing,
      if_neg Bool.false_ne_true]
    rw [nrfFstorageSdMaxRetries] at hcount ⊢
    by_cases hlast : s.fs.retries + 1 > 8
    -- the counter is reset with the ninth failure in a row
    · have hnine : (failuresInRow s.attempts + 1) % (8 + 1) = 0 := by omega
      have hfirst : { s.fs with retries := 0 }.fifo = op :: fifo := hfifo
      rw [if_pos hlast, hnine, if_pos rfl, timeouts_finish _ _ hfirst]
      exact ⟨(finish_keeps _ _ hfirst).1, rfl⟩
    · have hnext : (failuresInRow s.attempts + 1) % (8 + 1) = s.fs.retries + 1 := by omega
      rw [if_neg hlast, hnext, if_neg (Nat.succ_ne_zero _), timeouts_queueProcess]
      exact ⟨(queueProcess_keeps _ _).1, rfl⟩

/-- Other steps give nothing up. -/
theorem FlashSystem.givesUp_of_failing_eq_none {a : FlashStep} (h : s.failing a = none) :
    s.givesUp a = none := by
  rw [FlashSystem.givesUp, h]
  exact ite_self _

theorem CountsRetries.step (h : CountsRetries s) (hinv : FlashInv flash₀ s) (a : FlashStep) :
    CountsRetries (flashStep s a) ∧
      (flashStep s a).givenUp = s.givenUp ++ (s.givesUp a).toList := by
  have hkeeps (hfailing : s.failing a = none) :
      s.givenUp = s.givenUp ++ (s.givesUp a).toList := by
    rw [FlashSystem.givesUp_of_failing_eq_none hfailing]
    exact (List.append_nil _).symm
  cases a with
  | call c =>
    rw [flashStep, FlashSystem.call]
    split_ifs <;> exact ⟨h, hkeeps rfl⟩
  | start rc =>
    rw [flashStep]
    split
    · rw [CountsRetries, FlashSystem.givenUp, ← hkeeps rfl, FlashSystem.start,
        Fstorage.queueStart]
      dsimp only
      rw [timeouts_append]
      split_ifs
      · exact ⟨h, List.append_nil _⟩
      · rw [timeouts_queueProcess]
        exact ⟨(queueProcess_keeps _ _).1.trans h, List.append_nil _⟩
    all_goals exact ⟨h, hkeeps rfl⟩
  | poll =>
    rw [flashStep, FlashSystem.poll]
    split_ifs <;> exact ⟨h, hkeeps rfl⟩
  | sysEvt success mask rc =>
    cases hstate : s.fs.state with
    | idle =>
      rw [flashStep, FlashSystem.sysEvt_idle hstate]
      refine ⟨h, hkeeps ?_⟩
      cases success with
      | true => rfl
      | false => exact if_neg (by rw [hstate]; decide)
    | opPending =>
      rw [flashStep, CountsRetries, FlashSystem.givenUp, FlashSystem.sysEvt,
        sysEvtHandler_pending hstate, attempt_of_ne (by simp [hstate]), timeouts_append,
        timeouts_queueProcess, List.append_nil, List.append_nil]
      refine ⟨(queueProcess_keeps _ _).1.trans h, hkeeps ?_⟩
      cases success with
      | true => rfl
      | false => exact if_neg (by rw [hstate]; decide)
    | opExecuting =>
      obtain ⟨op, fifo, hfifo⟩ := hinv.fs.exists_executing hstate
      exact h.executing hstate hfifo success mask rc

/-! ## Steps -/

theorem RetryInv.call (h : RetryInv s) (hinv : FlashInv flash₀ s) (c : FlashCall) :
    RetryInv (s.call c) := by
  rw [FlashSystem.call]
  split_ifs
  · refine ⟨h.idle, fun op fifo hfifo => ?_, h.timeouts⟩
    cases hold : s.fs.fifo with
    | nil =>
      -- the counter is at 0 while nothing is queued
      have hidle : s.fs.state = .idle := by
        by_contra hbusy
        exact hinv.fs.busy hbusy hold
      change FailedAttempts s.fs.retries op s.attempts
      rw [h.idle hidle]
      exact failedAttempts_zero
    | cons op' rest =>
      change s.fs.fifo ++ _ = op :: fifo at hfifo
      rw [hold, List.cons_append] at hfifo
      obtain ⟨rfl, -⟩ := List.cons.inj hfifo
      exact h.first op' rest hold
  · exact ⟨h.idle, h.first, h.timeouts⟩
  · exact ⟨h.idle, h.first, h.timeouts⟩

/-- The queue has stopped at an error, or the counter fits the first operation again. -/
theorem RetryInv.of_events (h : RetryInv s) {s' : FlashSystem} {attempts : List (FsOp × Bool)}
    {events : FsEvents} (hattempts : s'.attempts = s.attempts ++ attempts)
    (hresults : s'.results = s.results ++ events)
    (hnext : (∃ e ∈ events, e.2 = .nrfErrorInternal) ∨
      (s'.fs.state = .idle → s'.fs.retries = 0) ∧
        (∀ op fifo, s'.fs.fifo = op :: fifo → FailedAttempts s'.fs.retries op s'.attempts) ∧
        ∀ r, (r, FsResult.nrfErrorTimeout) ∈ events → s'.NineFailures r) :
    s'.Broken ∨ RetryInv s' := by
  rcases hnext with ⟨e, he, hinternal⟩ | ⟨hidle, hfirst, hevents⟩
  · exact .inl ⟨e, hresults ▸ List.mem_append_right _ he, hinternal⟩
  · refine .inr ⟨hidle, hfirst, fun r hr => ?_⟩
    rw [hresults] at hr
    rcases List.mem_append.mp hr with hr | hr
    · exact (h.timeouts r hr).mono (hattempts ▸ List.prefix_append ..)
    · exact hevents r hr

/-- The queue goes on with a counter that fits the first operation. -/
theorem RetryInv.of_queueProcess (h : RetryInv s) {s' : FlashSystem}
    {attempts : List (FsOp × Bool)} (hfs : s'.fs = (fs.queueProcess rc).1)
    (hattempts : s'.attempts = s.attempts ++ attempts)
    (hresults : s'.results = s.results ++ (fs.queueProcess rc).2)
    (hidle : fs.state = .idle → fs.retries = 0)
    (hfirst : ∀ op fifo, fs.fifo = op :: fifo → FailedAttempts fs.retries op s'.attempts) :
    s'.Broken ∨ RetryInv s' := by
  apply h.of_events hattempts hresults
  obtain ⟨hretries, hkeeps⟩ := queueProcess_keeps rc fs
  rw [hfs, hretries]
  rcases hkeeps with hinternal | ⟨hnil, hfifo, hstate⟩
  · exact .inl hinternal
  · rw [hnil, hfifo]
    exact .inr ⟨fun hs => hidle (hstate hs), hfirst, fun r hr => nomatch hr⟩

/-- An operation has ended, and the counter starts again. -/
theorem RetryInv.of_finish (h : RetryInv s) {s' : FlashSystem} {attempts : List (FsOp × Bool)}
    {result : FsResult} (hfs : s'.fs = (fs.finish result rc).1)
    (hattempts : s'.attempts = s.attempts ++ attempts)
    (hresults : s'.results = s.results ++ (fs.finish result rc).2)
    (hretries : fs.retries = 0) (hfifo : fs.fifo = op :: fifo)
    (htimeout : result = .nrfErrorTimeout → s'.NineFailures op.request) :
    s'.Broken ∨ RetryInv s' := by
  apply h.of_events hattempts hresults
  obtain ⟨hzero, hkeeps⟩ := finish_keeps result rc hfifo
  rw [hfs, hzero.trans hretries]
  rcases hkeeps with hinternal | hevents
  · exact .inl hinternal
  · refine .inr ⟨fun _ => rfl, fun _ _ _ => failedAttempts_zero, fun r hr => ?_⟩
    rw [hevents] at hr
    obtain ⟨rfl, hresult⟩ := Prod.mk.inj (List.mem_singleton.mp hr)
    exact htimeout hresult.symm

theorem RetryInv.start (h : RetryInv s) (waits : Bool) (rc : SdRetCode) :
    (s.start waits rc).Broken ∨ RetryInv (s.start waits rc) := by
  by_cases hrunning : s.fs.queueRunning = true
  · have hstart : s.fs.queueStart rc = (s.fs, []) := if_pos hrunning
    rw [FlashSystem.start, hstart]
    refine .inr ⟨h.idle, h.first, ?_⟩
    change ∀ r, (r, FsResult.nrfErrorTimeout) ∈ s.results ++ [] → s.NineFailures r
    rw [List.append_nil]
    exact h.timeouts
  · have hstart : s.fs.queueStart rc =
        Fstorage.queueProcess rc { s.fs with queueRunning := true } := if_neg hrunning
    rw [FlashSystem.start, hstart]
    exact h.of_queueProcess rfl (List.append_nil _).symm rfl h.idle h.first

theorem RetryInv.sysEvt (h : RetryInv s) (hinv : FlashInv flash₀ s) (success : Bool)
    (mask : ℕ → BitVec 8) (rc : SdRetCode) :
    (s.sysEvt success mask rc).Broken ∨ RetryInv (s.sysEvt success mask rc) := by
  cases hstate : s.fs.state with
  | idle =>
    rw [FlashSystem.sysEvt_idle hstate]
    exact .inr h
  | opPending =>
    rw [FlashSystem.sysEvt, sysEvtHandler_pending hstate, attempt_of_ne (by simp [hstate])]
    refine h.of_queueProcess rfl rfl rfl h.idle fun op fifo hfifo => ?_
    change FailedAttempts _ op (s.attempts ++ [])
    rw [List.append_nil]
    exact h.first op fifo hfifo
  | opExecuting =>
    have hbusy : s.fs.state ≠ .idle := by simp [hstate]
    obtain ⟨op, fifo, hfifo⟩ := hinv.fs.exists_executing hstate
    have hattempt := attempt_executing hstate hfifo success
    cases success with
    | true =>
      rw [FlashSystem.sysEvt, sysEvtHandler_success hstate hfifo, hattempt]
      by_cases hfinished : op.advance.finished = true
      · rw [if_pos hfinished]
        refine h.of_finish rfl rfl rfl rfl rfl fun hresult => ?_
        cases hresult
      · rw [if_neg hfinished]
        exact h.of_queueProcess rfl rfl rfl (fun _ => rfl) fun _ _ _ => failedAttempts_zero
    | false =>
      rw [FlashSystem.sysEvt, sysEvtHandler_error hstate hfifo, hattempt]
      by_cases hretries : s.fs.retries + 1 > nrfFstorageSdMaxRetries
      · rw [if_pos hretries]
        refine h.of_finish rfl rfl rfl rfl hfifo fun _ => ?_
        have hcount : s.fs.retries = nrfFstorageSdMaxRetries :=
          Nat.le_antisymm hinv.fs.retries (Nat.le_of_lt_succ hretries)
        exact ⟨op, _, rfl, hcount ▸ (h.first op fifo hfifo).succ, List.prefix_rfl⟩
      · rw [if_neg hretries]
        refine h.of_queueProcess rfl rfl rfl (fun hidle => absurd hidle hbusy)
          fun op' fifo' hfirst => ?_
        obtain ⟨rfl, -⟩ := List.cons.inj (hfifo.symm.trans hfirst)
        exact (h.first op fifo hfifo).succ

theorem RetryInv.step (h : RetryInv s) (hinv : FlashInv flash₀ s) (a : FlashStep) :
    (flashStep s a).Broken ∨ RetryInv (flashStep s a) := by
  cases a with
  | call c =>
    rw [flashStep]
    split_ifs
    · exact .inr (h.call hinv c)
    · exact .inr h
  | start rc =>
    rw [flashStep]
    split
    · exact h.start _ rc
    all_goals exact .inr h
  | poll =>
    rw [flashStep, FlashSystem.poll]
    split_ifs
    · exact .inr ⟨h.idle, h.first, h.timeouts⟩
    all_goals exact .inr h
  | sysEvt success mask rc => exact h.sysEvt hinv success mask rc

/-- Both invariants of a run. -/
theorem retries_run (flash : Flash) (steps : List FlashStep) :
    let s := runFlash steps (.boot flash)
    CountsRetries s ∧ (s.Broken ∨ RetryInv s) := by
  suffices hrun : ∀ s, FlashInv flash s → CountsRetries s → s.Broken ∨ RetryInv s →
      CountsRetries (runFlash steps s) ∧
        ((runFlash steps s).Broken ∨ RetryInv (runFlash steps s)) by
    have hboot : RetryInv (.boot flash) :=
      { idle := fun _ => rfl
        first := fun _ _ hfifo => by cases hfifo
        timeouts := fun _ hr => by cases hr }
    exact hrun _ (flashInv_boot flash) rfl (.inr hboot)
  induction steps with
  | nil => exact fun _ _ hcounts hs => ⟨hcounts, hs⟩
  | cons a steps ih =>
    intro s hinv hcounts hs
    refine ih (flashStep s a) (hinv.step a) (hcounts.step hinv a).1 ?_
    rcases hs with hbroken | h
    · exact .inl (hbroken.step a)
    · exact h.step hinv a

/-- A step gives a request up exactly when an attempt at it fails and the failed attempts in a row,
of all operations, are then a multiple of nine. As long as the SoftDevice has refused to start none,
nine attempts in a row have failed at one part of each request that was given up. -/
theorem flash_given_up (flash : Flash) (steps : List FlashStep) (a : FlashStep) :
    let s := runFlash steps (.boot flash)
    (flashStep s a).givenUp = s.givenUp ++ (s.givesUp a).toList ∧
      (∀ r, s.givesUp a = some r ↔
        (∃ op, s.failing a = some op ∧ op.request = r) ∧
          (failuresInRow s.attempts + 1) % 9 = 0) ∧
      (¬s.Broken → ∀ r ∈ s.givenUp, s.NineFailures r) := by
  intro s
  have hinv : FlashInv flash s := (flashInv_boot flash).run steps
  obtain ⟨hcounts, hretries⟩ := retries_run flash steps
  refine ⟨(hcounts.step hinv a).2, fun r => ?_, fun hbroken r hr => ?_⟩
  · rw [FlashSystem.givesUp, nrfFstorageSdMaxRetries]
    split_ifs with hnine
    · rw [Option.map_eq_some_iff, and_iff_left hnine]
    · exact iff_of_false (by simp) fun h => hnine h.2
  · obtain ⟨e, he, rfl⟩ := List.mem_map.mp hr
    obtain ⟨hmem, htimeout⟩ := List.mem_filter.mp he
    refine (hretries.resolve_left hbroken).timeouts e.1 ?_
    rw [← of_decide_eq_true htimeout]
    exact hmem

/-- Behind three attempts the SoftDevice refuses to start an erase again, and the write behind it is
given up at its sixth. -/
def refusedErase : List FlashStep :=
  [.call (.erase irDataStartAddress 1), .start .nrfSuccess,
    .call (.write irDataStartAddress [1, 2, 3, 4])] ++
    List.replicate 2 (.sysEvt false (fun _ => 0) .nrfSuccess) ++
    [.sysEvt false (fun _ => 0) .nrfError, .start .nrfSuccess] ++
    List.replicate 5 (.sysEvt false (fun _ => 0) .nrfSuccess)

example : (runFlash refusedErase (.boot Flash.blank)).givesUp
    (.sysEvt false (fun _ => 0) .nrfSuccess) = some (.write irDataStartAddress [1, 2, 3, 4]) := by
  decide

end IrRemote
