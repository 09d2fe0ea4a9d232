import IrRemote.Store.CodesPage

/-!
# Codes behind a power failure

The table of codes is erased and written again in one page. An erase only sets bits and a write
clears none that its table has, so at any moment the page has all bits of the table that is being
saved, or of the one before. `IR_CODE_DISABLE` has a bit that `IR_CODE_ENABLE` has not: a slot
that is found enabled at a start was enabled in one of the two tables. But between the erase and
the write the page holds no code at all.

## Main definitions

* `PartDone` — what an event does to the queue and the flash
* `PageQueue`, `PageInv` — the queue, the page and the calls that are left

## Main results

* `PageInv.step`, `PageInv.run` — every step keeps the invariant
* `no_code_from_power_loss` — a power failure makes no code
* `power_loss_in_save` — a power failure in a save may lose every code
-/

set_option autoImplicit false

namespace IrRemote

open FaultMachine ByteImage

/-! ## The page over a run -/

/-- The requests that are in the queue. -/
def FlashSystem.queued (s : FlashSystem) : List FsRequest := s.fs.fifo.map FsOp.request

/-- The last attempt of the SoftDevice was at the request. -/
def FlashSystem.LastAttempt (s : FlashSystem) (r : FsRequest) : Prop :=
  ∃ attempt ∈ s.attempts.getLast?, attempt.1.request = r

/-- An event without an error: nothing is done, or a part of the first operation, which may be
finished with it. -/
inductive PartDone (mask : ℕ → BitVec 8) (s s' : FlashSystem) : Prop where
  | nothing : s'.queued = s.queued → s'.flash = s.flash → s'.attempts = s.attempts →
      PartDone mask s s'
  | torn (op : FsOp) (rest : List FsRequest) : op.Valid → s.queued = op.request :: rest →
      s'.queued = s.queued → s'.flash = op.tear mask s.flash → s'.LastAttempt op.request →
      PartDone mask s s'
  | part (op : FsOp) (rest : List FsRequest) : op.Valid → s.queued = op.request :: rest →
      s'.queued = s.queued → s'.flash = op.execute s.flash → s'.LastAttempt op.request →
      PartDone mask s s'
  | finished (op : FsOp) (rest : List FsRequest) : op.Valid → s.queued = op.request :: rest →
      s'.queued = rest → s'.flash = op.execute s.flash → PartDone mask s s'

/-- The erase in front of the write of a table is queued or done, and no write is queued. -/
structure FlashSystem.Fresh (s : FlashSystem) : Prop where
  erases : ∀ r ∈ s.queued, FsRequest.isErase r = true
  erased : eraseCodes ∈ s.queued ∨ ErasedPage s.flash

/-- The calls that are left. A table may have still to be written. -/
def CallsLeft (s : FlashSystem) (todo : List FlashCall) : Prop :=
  PageTodo todo ∨ ∃ table rest, todo = .write irDataStartAddress (imageBytes table) :: rest ∧
    StatusesSet table ∧ PageTodo rest ∧ s.Fresh

/-- The page has all bits of the table that was saved last, or of the one before until its erase
is done. -/
def PageCovers (s : FlashSystem) (table : IRDataTable) (before : List IRDataTable) : Prop :=
  CoversTable table s.flash ∨ eraseCodes ∈ s.queued ∧ writeCodes table ∈ s.queued ∧
    ∃ old ∈ before.head?, CoversTable old s.flash

/-- The write of a table waits for the erase of its page, the page is erased, or the write was
attempted last. -/
def WriteAwaited (s : FlashSystem) : Prop :=
  ∀ table, writeCodes table ∈ s.queued →
    eraseCodes ∈ s.queued ∨ ErasedPage s.flash ∨
      s.queued = [writeCodes table] ∧ s.LastAttempt (writeCodes table)

/-- The queue and the page next to the tables that were saved. -/
structure PageQueue (s : FlashSystem) (table : IRDataTable) (before : List IRDataTable) : Prop where
  requests : ∀ r ∈ s.queued, r = eraseCodes ∨ OffPage r ∨ r = writeCodes table
  /-- Nothing is queued behind a write. -/
  erases : s.queued.Pairwise fun r _ => FsRequest.isErase r = true
  ready : s.caller = .ready ∨ s.caller = .starting false →
    ∀ r ∈ s.queued, FsRequest.isErase r = true
  covers : PageCovers s table before
  awaited : WriteAwaited s

section Queue

variable {s s' : FlashSystem} {table : IRDataTable} {before : List IRDataTable} {op : FsOp}
  {rest : List FsRequest} {mask : ℕ → BitVec 8} {success : Bool} {rc : SdRetCode}

theorem partDone_sysEvt (hfs : FsInv s.fs) (mask : ℕ → BitVec 8)
    (hall : ∀ e ∈ (s.fs.sysEvtHandler success rc).2, e.2 = .nrfSuccess) :
    PartDone mask s (s.sysEvt success mask rc) := by
  rcases sysEvtHandler_parts hfs s.flash success mask hall with
    ⟨hqueued, hflash, hattempt⟩ | ⟨op, fifo, hfifo, hop, hattempt, hpart⟩
  · refine .nothing hqueued hflash ?_
    change s.attempts ++ s.fs.attempt success = s.attempts
    rw [hattempt, List.append_nil]
  · have hlast : (s.sysEvt success mask rc).LastAttempt op.request := by
      refine ⟨(op, success), ?_, rfl⟩
      change _ ∈ (s.attempts ++ s.fs.attempt success).getLast?
      rw [hattempt, List.getLast?_concat]
      rfl
    have hsplit : s.queued = op.request :: fifo.map FsOp.request := by
      rw [FlashSystem.queued, hfifo, List.map_cons]
    rcases hpart with ⟨hqueued, hflash | hflash⟩ | ⟨hqueued, hflash⟩
    · exact .torn op _ hop hsplit (hqueued.trans hsplit.symm) hflash hlast
    · exact .part op _ hop hsplit (hqueued.trans hsplit.symm) hflash hlast
    · exact .finished op _ hop hsplit hqueued hflash

/-- Nothing is added to the queue. -/
theorem PartDone.sublist (h : PartDone mask s s') : s'.queued.Sublist s.queued := by
  cases h with
  | nothing hqueued => exact hqueued ▸ List.Sublist.refl _
  | torn op rest hop hsplit hqueued => exact hqueued ▸ List.Sublist.refl _
  | part op rest hop hsplit hqueued => exact hqueued ▸ List.Sublist.refl _
  | finished op rest hop hsplit hqueued =>
    rw [hqueued, hsplit]
    exact List.sublist_cons_self ..

theorem FlashSystem.Fresh.partDone (h : s.Fresh) (hpart : PartDone mask s s') : s'.Fresh := by
  refine ⟨fun r hr => h.erases r (hpart.sublist.subset hr), ?_⟩
  have hhead {op : FsOp} {rest : List FsRequest} (hsplit : s.queued = op.request :: rest) :
      op.request.isErase = true := h.erases _ (hsplit ▸ List.mem_cons_self)
  cases hpart with
  | nothing hqueued hflash =>
    rw [hqueued, hflash]
    exact h.erased
  | torn op rest hop hsplit hqueued hflash =>
    rw [hqueued, hflash]
    exact h.erased.imp_right fun herased => (covers_of_isErase (hhead hsplit) herased mask).2
  | part op rest hop hsplit hqueued hflash =>
    rw [hqueued, hflash]
    exact h.erased.imp_right fun herased =>
      (covers_of_isErase (hhead hsplit) herased mask).1
  | finished op rest hop hsplit hqueued hflash =>
    rw [hqueued, hflash]
    rcases h.erased with hmem | herased
    · rw [hsplit] at hmem
      rcases List.mem_cons.mp hmem with hcodes | hrest
      · exact .inr (erasedPage_execute hop hcodes.symm)
      · exact .inl hrest
    · exact .inr (covers_of_isErase (hhead hsplit) herased mask).1

/-- What the first operation does to a page that has all bits of the table. -/
theorem PageQueue.coversTable (h : PageQueue s table before) (hop : op.Valid)
    (hsplit : s.queued = op.request :: rest) (hcovers : CoversTable table s.flash)
    (mask : ℕ → BitVec 8) :
    CoversTable table (op.execute s.flash) ∧ CoversTable table (op.tear mask s.flash) := by
  rcases h.requests op.request (hsplit ▸ List.mem_cons_self) with hcodes | hoff | hwrite
  · exact covers_of_isErase (hcodes ▸ rfl) hcovers mask
  · have hsame := hoff.samePage s.flash mask
    exact ⟨hsame.1.covers hcovers, hsame.2.covers hcovers⟩
  · exact coversTable_of_write hop hwrite hcovers mask

/-- While the erase of the page is queued, an erase is the first operation. -/
theorem PageQueue.head_isErase (h : PageQueue s table before)
    (hsplit : s.queued = op.request :: rest) (hcodes : eraseCodes ∈ s.queued) :
    op.request.isErase = true := by
  have horder := h.erases
  rw [hsplit] at horder hcodes
  obtain ⟨hhead, -⟩ := List.pairwise_cons.mp horder
  rcases List.mem_cons.mp hcodes with hcodes | hrest
  · exact hcodes ▸ rfl
  · exact hhead _ hrest

theorem PageQueue.pageCovers (h : PageQueue s table before) (hpart : PartDone mask s s') :
    PageCovers s' table before := by
  cases hpart with
  | nothing hqueued hflash =>
    rw [PageCovers, hqueued, hflash]
    exact h.covers
  | torn op rest hop hsplit hqueued hflash =>
    rw [PageCovers, hqueued, hflash]
    rcases h.covers with hcovers | ⟨hcodes, hwrite, old, hold, hcovers⟩
    · exact .inl (h.coversTable hop hsplit hcovers mask).2
    · have herase := h.head_isErase hsplit hcodes
      exact .inr ⟨hcodes, hwrite, old, hold, (covers_of_isErase herase hcovers mask).2⟩
  | part op rest hop hsplit hqueued hflash =>
    rw [PageCovers, hqueued, hflash]
    rcases h.covers with hcovers | ⟨hcodes, hwrite, old, hold, hcovers⟩
    · exact .inl (h.coversTable hop hsplit hcovers mask).1
    · have herase := h.head_isErase hsplit hcodes
      exact .inr ⟨hcodes, hwrite, old, hold, (covers_of_isErase herase hcovers mask).1⟩
  | finished op rest hop hsplit hqueued hflash =>
    rw [PageCovers, hqueued, hflash]
    rcases h.covers with hcovers | ⟨hcodes, hwrite, old, hold, hcovers⟩
    · exact .inl (h.coversTable hop hsplit hcovers mask).1
    · have herase := h.head_isErase hsplit hcodes
      rw [hsplit] at hcodes hwrite
      rcases List.mem_cons.mp hcodes with hhead | hcodes
      · exact .inl ((erasedPage_execute hop hhead.symm).coversTable table)
      · have hwrite : writeCodes table ∈ rest := by
          rcases List.mem_cons.mp hwrite with hhead | hrest
          · rw [← hhead] at herase
            cases herase
          · exact hrest
        exact .inr ⟨hcodes, hwrite, old, hold, (covers_of_isErase herase hcovers mask).1⟩

/-- What an event leaves of the write that waits. -/
theorem PageQueue.writeAwaited (h : PageQueue s table before) (hpart : PartDone mask s s') :
    WriteAwaited s' := by
  intro written hwrite
  have hold := h.awaited written (hpart.sublist.subset hwrite)
  -- a part of an erase, or of an operation off the page, leaves an erased page
  have hpage {op : FsOp} {rest : List FsRequest} (hsplit : s.queued = op.request :: rest)
      (hother : op.request.isErase = true ∨ OffPage op.request) (herased : ErasedPage s.flash) :
      ErasedPage (op.execute s.flash) ∧ ErasedPage (op.tear mask s.flash) := by
    rcases hother with herase | hoff
    · exact covers_of_isErase herase herased mask
    · have hsame := hoff.samePage s.flash mask
      exact ⟨hsame.1.covers herased, hsame.2.covers herased⟩
  -- behind a write nothing is queued
  have halone {op : FsOp} {rest : List FsRequest} (hsplit : s.queued = op.request :: rest)
      (hmem : writeCodes written ∈ s.queued) (hnot : op.request.isErase ≠ true) :
      s.queued = [writeCodes written] ∧ op.request = writeCodes written := by
    have horder := h.erases
    rw [hsplit] at horder hmem
    obtain ⟨hhead, -⟩ := List.pairwise_cons.mp horder
    cases rest with
    | nil =>
      have heq := List.mem_singleton.mp hmem
      exact ⟨hsplit.trans (by rw [heq]), heq.symm⟩
    | cons r rest => exact absurd (hhead r List.mem_cons_self) hnot
  have hstays {op : FsOp} {rest : List FsRequest} (hsplit : s.queued = op.request :: rest)
      (hqueued : s'.queued = s.queued)
      (hflash : s'.flash = op.execute s.flash ∨ s'.flash = op.tear mask s.flash)
      (hlast : s'.LastAttempt op.request) :
      eraseCodes ∈ s'.queued ∨ ErasedPage s'.flash ∨
        s'.queued = [writeCodes written] ∧ s'.LastAttempt (writeCodes written) := by
    rw [hqueued] at hwrite ⊢
    by_cases herase : op.request.isErase = true
    · refine hold.imp_right fun hold => .inl ?_
      rcases hold with herased | ⟨hqueued, -⟩
      · obtain ⟨hexecute, htear⟩ := hpage hsplit (.inl herase) herased
        rcases hflash with hflash | hflash <;> rwa [hflash]
      · rw [hqueued] at hsplit
        rw [← (List.cons.inj hsplit).1] at herase
        cases herase
    · obtain ⟨halone, hrequest⟩ := halone hsplit hwrite herase
      exact .inr (.inr ⟨halone, hrequest ▸ hlast⟩)
  cases hpart with
  | nothing hqueued hflash hattempts =>
    rw [FlashSystem.LastAttempt, hqueued, hflash, hattempts]
    exact hold
  | torn op rest hop hsplit hqueued hflash hlast => exact hstays hsplit hqueued (.inr hflash) hlast
  | part op rest hop hsplit hqueued hflash hlast => exact hstays hsplit hqueued (.inl hflash) hlast
  | finished op rest hop hsplit hqueued hflash =>
    rw [hqueued] at hwrite ⊢
    have herase : op.request.isErase = true := by
      have horder := h.erases
      rw [hsplit] at horder
      exact (List.pairwise_cons.mp horder).1 _ hwrite
    rw [hflash]
    rcases hold with hcodes | herased | ⟨hqueued, -⟩
    · rw [hsplit] at hcodes
      rcases List.mem_cons.mp hcodes with hhead | hrest
      · exact .inr (.inl (erasedPage_execute hop hhead.symm))
      · exact .inl hrest
    · exact .inr (.inl (hpage hsplit (.inl herase) herased).1)
    · rw [hsplit] at hqueued
      rw [(List.cons.inj hqueued).2] at hwrite
      cases hwrite

theorem PageQueue.partDone (h : PageQueue s table before) (hcaller : s'.caller = s.caller)
    (hpart : PartDone mask s s') : PageQueue s' table before where
  requests r hr := h.requests r (hpart.sublist.subset hr)
  erases := h.erases.sublist hpart.sublist
  ready hc r hr := h.ready (hcaller ▸ hc) r (hpart.sublist.subset hr)
  covers := h.pageCovers hpart
  awaited := h.writeAwaited hpart

/-- Only the main loop goes on. -/
theorem PageQueue.of_eq (h : PageQueue s table before) (hqueued : s'.queued = s.queued)
    (hflash : s'.flash = s.flash) (hattempts : s'.attempts = s.attempts)
    (hready : s'.caller = .ready ∨ s'.caller = .starting false →
      ∀ r ∈ s.queued, FsRequest.isErase r = true) : PageQueue s' table before where
  requests := hqueued ▸ h.requests
  erases := hqueued ▸ h.erases
  ready hc := hqueued ▸ hready hc
  covers := by
    rw [PageCovers, hqueued, hflash]
    exact h.covers
  awaited := by
    intro written
    rw [FlashSystem.LastAttempt, hqueued, hflash, hattempts]
    exact h.awaited written

theorem FlashSystem.Fresh.of_eq (h : s.Fresh) (hqueued : s'.queued = s.queued)
    (hflash : s'.flash = s.flash) : s'.Fresh where
  erases := hqueued ▸ h.erases
  erased := hqueued ▸ hflash ▸ h.erased

theorem CallsLeft.imp {todo : List FlashCall} (h : CallsLeft s todo)
    (hfresh : s.Fresh → s'.Fresh) : CallsLeft s' todo :=
  h.imp_right fun ⟨table, rest, htodo, hset, hrest, hs⟩ =>
    ⟨table, rest, htodo, hset, hrest, hfresh hs⟩

/-- An erase, or a write off the page, is queued behind erases. -/
theorem PageQueue.queue {r : FsRequest} (h : PageQueue s table before)
    (herases : ∀ r ∈ s.queued, FsRequest.isErase r = true) (hr : r = eraseCodes ∨ OffPage r)
    (hqueued : s'.queued = s.queued ++ [r]) (hflash : s'.flash = s.flash)
    (hcaller : s'.caller = .ready ∨ s'.caller = .starting false → r.isErase = true) :
    PageQueue s' table before where
  requests := by
    rw [hqueued]
    exact List.forall_mem_append.mpr
      ⟨h.requests, List.forall_mem_singleton.mpr (hr.imp_right .inl)⟩
  erases := by
    rw [hqueued]
    exact List.pairwise_append.mpr
      ⟨h.erases, List.pairwise_singleton .., fun r hr _ _ => herases r hr⟩
  ready hc := by
    rw [hqueued]
    exact List.forall_mem_append.mpr ⟨herases, List.forall_mem_singleton.mpr (hcaller hc)⟩
  covers := by
    rw [PageCovers, hqueued, hflash]
    exact h.covers.imp_right fun ⟨hcodes, hwrite, hold⟩ =>
      ⟨List.mem_append_left _ hcodes, List.mem_append_left _ hwrite, hold⟩
  awaited := by
    -- no write is queued
    intro written hwrite
    rw [hqueued] at hwrite
    rcases List.mem_append.mp hwrite with hwrite | hwrite
    · cases herases _ hwrite
    · obtain rfl := List.mem_singleton.mp hwrite
      rcases hr with hcodes | hoff
      · cases hcodes
      · exact absurd hoff (by decide : ¬irTrigStartAddress ≤ irDataStartAddress)

/-- The write of a table is queued behind the erase of its page. -/
theorem PageQueue.queueWrite {written : IRDataTable} (h : PageQueue s table before)
    (hfresh : s.Fresh) (hqueued : s'.queued = s.queued ++ [writeCodes written])
    (hflash : s'.flash = s.flash) (hcaller : s'.caller = .starting true) :
    PageQueue s' written (table :: before) where
  requests := by
    rw [hqueued]
    refine List.forall_mem_append.mpr ⟨fun r hr => ?_, fun r hr => ?_⟩
    · rcases h.requests r hr with hcodes | hoff | hwrite
      · exact .inl hcodes
      · exact .inr (.inl hoff)
      · cases hwrite ▸ hfresh.erases r hr
    · exact .inr (.inr (List.mem_singleton.mp hr))
  erases := by
    rw [hqueued]
    exact List.pairwise_append.mpr
      ⟨h.erases, List.pairwise_singleton .., fun r hr _ _ => hfresh.erases r hr⟩
  ready hc := by
    rw [hcaller] at hc
    rcases hc with hc | hc <;> cases hc
  covers := by
    rw [PageCovers, hqueued, hflash]
    rcases hfresh.erased with hcodes | herased
    · refine .inr ⟨List.mem_append_left _ hcodes, List.mem_append_right _ List.mem_cons_self,
        table, rfl, ?_⟩
      rcases h.covers with hcovers | ⟨-, hwrite, -⟩
      · exact hcovers
      · cases hfresh.erases _ hwrite
    · exact .inl (herased.coversTable written)
  awaited _ _ := by
    rw [hqueued, hflash]
    rcases hfresh.erased with hcodes | herased
    · exact .inl (List.mem_append_left _ hcodes)
    · exact .inr (.inl herased)

theorem FlashSystem.call_of_place {c : FlashCall} (hcheck : c.check = .nrfSuccess)
    (hplace : s.fs.fifo.length < nrfFstorageSdQueueSize) :
    (s.call c).queued = s.queued ++ [c.request] ∧ (s.call c).flash = s.flash ∧
      (s.call c).caller = .starting c.waits := by
  rw [FlashSystem.call, if_pos hcheck, if_pos hplace]
  exact ⟨List.map_append, rfl, rfl⟩

/-- The call of the SoftDevice that `queue_start` makes. -/
theorem queued_start (waits : Bool) (hall : (s.start waits rc).Succeeded) :
    (s.start waits rc).queued = s.queued := by
  have hevents : ∀ e ∈ (s.fs.queueStart rc).2, e.2 = .nrfSuccess := fun e he =>
    hall e (List.mem_append_right _ he)
  change (s.fs.queueStart rc).1.fifo.map FsOp.request = s.fs.fifo.map FsOp.request
  rw [Fstorage.queueStart] at hevents ⊢
  split_ifs at hevents ⊢
  · rfl
  · rw [queueProcess_fifo hevents]

end Queue

/-- What holds of the queue, the page and the calls that are left. -/
structure PageInv (p : PowerSystem) : Prop extends PowerInv p where
  todo : CallsLeft p.sys p.todo
  statuses : StatusesSet p.stores.tIRDataCommom
  savedStatuses : ∀ table ∈ p.saved, StatusesSet table
  page : ∃ table before, p.saved = table :: before ∧ PageQueue p.sys table before

variable {p p' : PowerSystem} {mask : ℕ → BitVec 8}

/-- The start of the firmware from a page with set statuses. -/
theorem pageInv_boot {flash : Flash}
    (h : StatusesSet (flash.read irDataStartAddress : IRDataTable)) : PageInv (.boot flash) := by
  have hfound : (coldBoot flash).tIRDataCommom = flash.read irDataStartAddress :=
    midFlashInit_tIRDataCommom _
  rw [← hfound] at h
  refine
    { powerInv_boot flash with
      todo := .inl .nil
      statuses := h
      savedStatuses := ?_
      page := ?_ }
  · intro table htable
    exact List.mem_singleton.mp htable ▸ h
  · refine ⟨_, _, rfl, fun _ hr => (nomatch hr), .nil, fun _ _ hr => (nomatch hr), .inl ?_,
      fun _ hr => (nomatch hr)⟩
    rw [hfound]
    exact coversTable_read flash

/-- What a power failure leaves has all bits of one of the two tables that were saved last. -/
theorem PageInv.exists_coversTable (h : PageInv p) (mask : ℕ → BitVec 8) :
    ∃ table ∈ p.saved.take 2, CoversTable table (p.sys.flashAtPowerLoss mask) := by
  obtain ⟨table, before, hsaved, hpage⟩ := h.page
  obtain ⟨flash₀, hinv, -⟩ := h.flash
  have hlast : table ∈ p.saved.take 2 := by
    rw [hsaved]
    exact List.mem_cons_self
  have hbefore {old : IRDataTable} (hold : old ∈ before.head?) : old ∈ p.saved.take 2 := by
    obtain ⟨tables, rfl⟩ := List.head?_eq_some_iff.mp hold
    rw [hsaved]
    exact List.mem_cons_of_mem _ List.mem_cons_self
  rw [FlashSystem.flashAtPowerLoss, Fstorage.flashBehind]
  split
  · rename_i op fifo hstate hfifo
    have hop : op.Valid := hinv.fs.valid op (hfifo ▸ List.mem_cons_self)
    have hsplit : p.sys.queued = op.request :: fifo.map FsOp.request := by
      rw [FlashSystem.queued, hfifo, List.map_cons]
    rw [if_neg Bool.false_ne_true]
    rcases hpage.covers with hcovers | ⟨hcodes, -, old, hold, hcovers⟩
    · exact ⟨table, hlast, (hpage.coversTable hop hsplit hcovers mask).2⟩
    · have herase := hpage.head_isErase hsplit hcodes
      exact ⟨old, hbefore hold, (covers_of_isErase herase hcovers mask).2⟩
  · rcases hpage.covers with hcovers | ⟨-, -, old, hold, hcovers⟩
    · exact ⟨table, hlast, hcovers⟩
    · exact ⟨old, hbefore hold, hcovers⟩

theorem PageInv.powerLoss (h : PageInv p) (mask : ℕ → BitVec 8) :
    PageInv (.boot (p.sys.flashAtPowerLoss mask)) := by
  obtain ⟨table, htable, hcovers⟩ := h.exists_coversTable mask
  exact pageInv_boot (hcovers.statusesSet (h.savedStatuses table (List.mem_of_mem_take htable)))

theorem PageInv.op (h : PageInv p) {op : StoreOp} (hstep : powerStep (.op op) p = some p') :
    PageInv p' := by
  have hpower := h.toPowerInv.step hstep
  rw [powerStep] at hstep
  split_ifs at hstep
  · obtain rfl := Option.some.inj hstep
    exact
      { hpower with
        todo := .inl (pageTodo_storeCalls h.statuses op)
        statuses := h.statuses.storeStep op
        savedStatuses := h.savedStatuses
        page := h.page }
  · exact Option.some.inj hstep ▸ h

/-- A step of the flash storage that leaves the calls alone. -/
theorem PageInv.advance (h : PageInv p) {b : FlashStep} (hcall : ∀ c, b ≠ .call c)
    (hstep : p.advance b = some p') : PageInv p' := by
  have hpower := h.toPowerInv.advance hcall hstep
  obtain ⟨flash₀, hinv, -⟩ := h.flash
  obtain ⟨table, before, hsaved, hpage⟩ := h.page
  rw [PowerSystem.advance] at hstep
  split_ifs at hstep with hall
  obtain rfl := Option.some.inj hstep
  suffices hsys : ((p.sys.Fresh → (flashStep p.sys b).Fresh) ∧
      PageQueue (flashStep p.sys b) table before) from
    { hpower with
      todo := h.todo.imp hsys.1
      statuses := h.statuses
      savedStatuses := h.savedStatuses
      page := ⟨table, before, hsaved, hsys.2⟩ }
  cases b with
  | call c => exact absurd rfl (hcall c)
  | start rc =>
    rw [flashStep] at hall ⊢
    split at hall
    · rename_i waits hcaller
      have hqueued := queued_start waits hall
      refine ⟨fun hfresh => hfresh.of_eq hqueued rfl, hpage.of_eq hqueued rfl rfl fun hc => ?_⟩
      cases waits with
      | true => rcases hc with hc | hc <;> cases hc
      | false => exact hpage.ready (.inr hcaller)
    · exact ⟨id, hpage⟩
    · exact ⟨id, hpage⟩
  | poll =>
    rw [flashStep, FlashSystem.poll]
    split_ifs with hwaiting hidle
    · have hnil : p.sys.fs.fifo = [] := by
        rcases hinv.idle hidle with ⟨waits, hstarting⟩ | hbroken | hnil
        · rw [hwaiting] at hstarting
          cases hstarting
        · exact absurd hbroken h.succeeded.not_broken
        · exact hnil
      refine ⟨fun hfresh => hfresh.of_eq rfl rfl, hpage.of_eq rfl rfl rfl fun _ r hr => ?_⟩
      rw [FlashSystem.queued, hnil] at hr
      cases hr
    · exact ⟨id, hpage⟩
    · exact ⟨id, hpage⟩
  | sysEvt success mask rc =>
    have hevents : ∀ e ∈ (p.sys.fs.sysEvtHandler success rc).2, e.2 = .nrfSuccess := fun e he =>
      hall e (List.mem_append_right _ he)
    have hpart := partDone_sysEvt hinv.fs mask hevents
    exact ⟨fun hfresh => hfresh.partDone hpart, hpage.partDone rfl hpart⟩

theorem PageInv.call (h : PageInv p) (hstep : p.call = some p') : PageInv p' := by
  have hpower := h.toPowerInv.call hstep
  obtain ⟨table, before, hsaved, hpage⟩ := h.page
  rw [PowerSystem.call] at hstep
  split at hstep
  · exact Option.some.inj hstep ▸ h
  rename_i c todo htodo
  split_ifs at hstep with hready hplace
  · obtain rfl := Option.some.inj hstep
    have hcheck := h.checked c (htodo ▸ List.mem_cons_self)
    obtain ⟨hqueued, hflash, hcaller⟩ := FlashSystem.call_of_place hcheck hplace
    generalize p.sys.call c = sys at hpower hqueued hflash hcaller ⊢
    have herases := hpage.ready (.inl hready)
    have hleft := h.todo
    rw [htodo] at hleft
    rcases hleft with hleft | ⟨written, rest, hwrite, hset, hrest, hfresh⟩
    · rcases hleft.cons with ⟨hoff, hrest⟩ | ⟨rfl, hrest⟩
      -- a call that has nothing to do with the page
      · refine
          { hpower with
            todo := .inl hrest
            statuses := h.statuses
            savedStatuses := ?_
            page := ⟨table, before, ?_,
              hpage.queue herases (.inr hoff) hqueued hflash fun hc => ?_⟩ }
        · rw [savedCodes_offPage hoff]
          exact h.savedStatuses
        · rw [savedCodes_offPage hoff]
          exact hsaved
        · rw [hcaller] at hc
          cases c with
          | erase ulAddress ulLen => rfl
          | write ulAddress src => rcases hc with hc | hc <;> cases hc
      -- the erase of the page
      · have hcodes : FlashCall.request (.erase irDataStartAddress 1) = eraseCodes := rfl
        refine
          { hpower with
            todo := ?_
            statuses := h.statuses
            savedStatuses := h.savedStatuses
            page := ⟨table, before, hsaved,
              hpage.queue herases (.inl hcodes) hqueued hflash fun _ => rfl⟩ }
        rcases hrest with hrest | ⟨written, rest, hwrite, hset, hrest⟩
        · exact .inl hrest
        refine .inr ⟨written, rest, hwrite, hset, hrest, ?_, .inl ?_⟩
        · rw [hqueued]
          exact List.forall_mem_append.mpr ⟨herases, List.forall_mem_singleton.mpr rfl⟩
        · rw [hqueued]
          exact List.mem_append_right _ List.mem_cons_self
    -- the write behind the erase of the page
    · obtain ⟨rfl, rfl⟩ := List.cons.inj hwrite
      have hstored := savedCodes_write written
      have hrequest : (FlashCall.write irDataStartAddress (imageBytes written)).request =
          writeCodes written := rfl
      rw [hrequest] at hqueued
      refine
        { hpower with
          todo := .inl hrest
          statuses := h.statuses
          savedStatuses := ?_
          page := ⟨written, table :: before, ?_, hpage.queueWrite hfresh hqueued hflash hcaller⟩ }
      · rw [hstored]
        exact List.forall_mem_cons.mpr ⟨hset, h.savedStatuses⟩
      · rw [hstored, hsaved]
        rfl
  · exact Option.some.inj hstep ▸ h

theorem PageInv.step {a : PowerStep} (h : PageInv p) (hstep : powerStep a p = some p') :
    PageInv p' := by
  cases a with
  | op op => exact h.op hstep
  | call => exact h.call hstep
  | start rc => exact h.advance (fun _ => FlashStep.noConfusion) hstep
  | poll => exact h.advance (fun _ => FlashStep.noConfusion) hstep
  | sysEvt success mask rc => exact h.advance (fun _ => FlashStep.noConfusion) hstep
  | powerLoss mask => exact Option.some.inj hstep ▸ h.powerLoss mask

theorem PageInv.run (h : PageInv p) {labels : List PowerStep}
    (hrun : run powerStep labels p = some p') : PageInv p' := by
  induction labels generalizing p with
  | nil => exact Option.some.inj hrun ▸ h
  | cons a labels ih =>
    rw [run_cons, Option.bind_eq_some_iff] at hrun
    obtain ⟨t, hstep, hrest⟩ := hrun
    exact ih (h.step hstep) hrest

/-! ## The codes behind a power failure -/

theorem statusesSet_blank : StatusesSet (Flash.blank.read irDataStartAddress : IRDataTable) := by
  intro i
  rw [get_ulStatus_read]
  exact (by decide : (0xFF#8 ++ 0xFF#8 : BitVec 16) ≠ irCodeNone)

/-- At any moment of a run from a blank flash in which no call finds the queue full and no request
is given up or refused to start, whatever a power failure leaves of the part that is executing: it
has all bits of one of the two tables of codes that were saved last, and every slot that the next
start finds enabled was enabled in that table. -/
theorem no_code_from_power_loss (labels : List PowerStep)
    (hrun : run powerStep labels (.boot Flash.blank) = some p) (mask : ℕ → BitVec 8) :
    let flash := p.sys.flashAtPowerLoss mask
    ∃ table ∈ p.saved.take 2, CoversTable table flash ∧
      ∀ i : Fin maxIrCode, ((coldBoot flash).tIRDataCommom.get i).ulStatus = irCodeEnable →
        (table.get i).ulStatus = irCodeEnable := by
  intro flash
  have h := (pageInv_boot statusesSet_blank).run hrun
  obtain ⟨table, htable, hcovers⟩ := h.exists_coversTable mask
  refine ⟨table, htable, hcovers, fun i henabled => ?_⟩
  rw [coldBoot, midFlashInit_tIRDataCommom] at henabled
  exact hcovers.enabled (h.savedStatuses table (List.mem_of_mem_take htable)) henabled

/-- A code is to be saved. -/
def saveLabels : List PowerStep :=
  [.op (.insertNewIRCode (Vector.replicate sizeOfIRData 0) 7), .call, .start .nrfSuccess,
    .sysEvt true (fun _ => 0) .nrfSuccess]

/-- Its page is erased, and not written yet. -/
def behindErase : PowerSystem where
  stores := storeStep (coldBoot Flash.blank)
    (.insertNewIRCode (Vector.replicate sizeOfIRData 0) 7)
  todo := (storeCalls (coldBoot Flash.blank)
    (.insertNewIRCode (Vector.replicate sizeOfIRData 0) 7)).tail
  sys := runFlash [.call (.erase irDataStartAddress 1), .start .nrfSuccess,
    .sysEvt true (fun _ => 0) .nrfSuccess] (.boot Flash.blank)
  saved := [(coldBoot Flash.blank).tIRDataCommom]

theorem no_code_from_power_loss_behindErase :
    let flash := behindErase.sys.flashAtPowerLoss fun _ => 0
    ∃ table ∈ behindErase.saved.take 2, CoversTable table flash ∧
      ∀ i : Fin maxIrCode, ((coldBoot flash).tIRDataCommom.get i).ulStatus = irCodeEnable →
        (table.get i).ulStatus = irCodeEnable :=
  no_code_from_power_loss saveLabels rfl _

theorem ErasedPage.enabledCodes {flash : Flash} (h : ErasedPage flash) :
    enabledCodes (coldBoot flash).tIRDataCommom = Vector.replicate maxIrCode none := by
  apply enabledCodes_eq_replicate
  intro i hi
  have hstatus := get_ulStatus_read flash ⟨i, hi⟩
  rw [h.byte (slot_lt _ (by decide)), h.byte (slot_lt _ (by decide))] at hstatus
  rw [coldBoot, midFlashInit_tIRDataCommom]
  change (Vector.get (flash.read irDataStartAddress : IRDataTable) ⟨i, hi⟩).ulStatus ≠ _
  rw [hstatus]
  decide

/-- A write of the page of the codes is executing. -/
def FlashSystem.WriteExecuting (s : FlashSystem) : Prop :=
  s.fs.state = .opExecuting ∧ ∃ op ∈ s.fs.fifo.head?, op.request.isErase = false

/-- The page is erased, and the write of the table is still to be called, or it is queued and no
attempt at it has ended. -/
def PowerSystem.AwaitsWrite (p : PowerSystem) : Prop :=
  eraseCodes ∉ p.sys.queued ∧
    ((∃ src rest, p.todo = .write irDataStartAddress src :: rest) ∨
      ∃ table, writeCodes table ∈ p.sys.queued ∧ ¬p.sys.LastAttempt (writeCodes table))

/-- The next start finds no code. -/
def PowerSystem.LosesCodes (p : PowerSystem) (mask : ℕ → BitVec 8) : Prop :=
  enabledCodes (coldBoot (p.sys.flashAtPowerLoss mask)).tIRDataCommom =
    Vector.replicate maxIrCode none

theorem PageInv.erasedPage (h : PageInv p) (hawaits : p.AwaitsWrite) :
    ErasedPage p.sys.flash := by
  obtain ⟨herased, ⟨src, rest, htodo⟩ | ⟨table, hwrite, hnot⟩⟩ := hawaits
  · rcases h.todo with hleft | ⟨-, -, -, -, -, hfresh⟩
    · rw [htodo] at hleft
      rcases hleft.cons with ⟨hoff, -⟩ | ⟨hcodes, -⟩
      · exact absurd hoff (by decide : ¬irTrigStartAddress ≤ irDataStartAddress)
      · cases hcodes
    · exact hfresh.erased.resolve_left herased
  · obtain ⟨_, _, -, hpage⟩ := h.page
    rcases hpage.awaited table hwrite with hcodes | hpage | ⟨-, hlast⟩
    · exact absurd hcodes herased
    · exact hpage
    · exact absurd hlast hnot

/-- The attempt at a write has not cleared a bit. -/
theorem tear_allOnes {op : FsOp} {flash : Flash} (h : op.request.isErase = false) :
    op.tear (fun _ => 0xFF) flash = flash := by
  obtain ⟨request, progress⟩ := op
  cases request with
  | erase page pagesToErase => cases h
  | write dest src =>
    funext a
    change (if _ then flash a &&& (_ ||| BitVec.allOnes 8) else flash a) = flash a
    rw [BitVec.or_allOnes, BitVec.and_allOnes, ite_self]

/-- The write of its table. -/
def saveWrite : FlashCall :=
  .write irDataStartAddress (imageBytes behindErase.stores.tIRDataCommom)

/-- It is executing. -/
def behindWrite : PowerSystem where
  stores := behindErase.stores
  todo := []
  sys :=
    { behindErase.sys with
      caller := .waiting
      fs :=
        { state := .opExecuting
          queueRunning := true
          retries := 0
          fifo := [⟨saveWrite.request, 0⟩] }
      requested := [eraseCodes, saveWrite.request]
      returned := [(.erase irDataStartAddress 1, .nrfSuccess), (saveWrite, .nrfSuccess)] }
  saved := saveWrite.savedCodes ++ behindErase.saved

theorem run_behindWrite :
    run powerStep (saveLabels ++ [.call, .start .nrfSuccess]) (.boot Flash.blank) =
      some behindWrite := by
  have hcheck : saveWrite.check = .nrfSuccess :=
    check_saveCalls_irData _ (.inl rfl) _ (List.mem_cons_of_mem _ List.mem_cons_self)
  have hcall : powerStep .call behindErase =
      some { behindWrite with sys := behindErase.sys.call saveWrite } := rfl
  have hsave : run powerStep saveLabels (.boot Flash.blank) = some behindErase := rfl
  refine run_append_of_eq hsave ?_
  rw [run_cons, hcall, FlashSystem.call, if_pos hcheck]
  rfl

theorem awaitsWrite_behindWrite : behindWrite.AwaitsWrite := by
  refine ⟨fun hmem => ?_, .inr ⟨behindErase.stores.tIRDataCommom, List.mem_cons_self, ?_⟩⟩
  · cases List.mem_singleton.mp hmem
  · rintro ⟨attempt, hattempt, hrequest⟩
    obtain rfl : (⟨eraseCodes, 0⟩, true) = attempt := Option.some.inj hattempt
    exact absurd hrequest (FsRequest.noConfusion)

end IrRemote
