import IrRemote.Store.FlashQueue
import IrRemote.Store.Reboot

/-!
# The stores on the flash storage

The operations of the stores call `Mid_FlashErase` and `Mid_FlashWrite`. The models of the stores
let the calls take effect at once; behind the queue of the flash storage they come to the same
flash, once nothing is executing.

## Main definitions

* `storeCalls`, `runStoreCalls` — the calls of an operation and of a run

## Main results

* `storeStep_flash`, `runStore_flash` — what the operations do to the flash is what their calls do
* `stores_behind_queue` — the flash behind the queue is that of the stores
-/

set_option autoImplicit false

namespace IrRemote

open ByteImage

/-- The flash behind a call. -/
def FlashCall.apply (c : FlashCall) (flash : Flash) : Flash := c.request.apply flash

/-- A table is saved in its page. -/
def saveCalls {α : Type} [ByteImage α] (ulAddress : ℕ) (table : α) : List FlashCall :=
  [.erase ulAddress 1, .write ulAddress (imageBytes table)]

/-- The calls of a round of `Mid_RemoveIRCode`. -/
def removeCodeAtCalls (ulEraseID : BitVec 16) (s : StoreState) (i : Fin maxIrCode) :
    List FlashCall :=
  if (s.tIRDataCommom.get i).enabledID = some ulEraseID then
    saveCalls irDataStartAddress (removeCodeAt ulEraseID s i).tIRDataCommom
  else []

/-- The calls of its rounds. -/
def removeCodeCalls (ulEraseID : BitVec 16) : List (Fin maxIrCode) → StoreState → List FlashCall
  | [], _ => []
  | i :: slots, s =>
    removeCodeAtCalls ulEraseID s i ++ removeCodeCalls ulEraseID slots (removeCodeAt ulEraseID s i)

/-- The calls of an operation. The removal of a trigger writes the table of the codes. -/
def storeCalls (s : StoreState) : StoreOp → List FlashCall
  | .insertNewIRTrigger t =>
    if (midInsertNewIRTrigger t s).1 then
      saveCalls irTrigStartAddress (midInsertNewIRTrigger t s).2.atIRDataTrigger
    else []
  | .removeIRTrigger uwTrigID =>
    if (triggerSlot s.atIRDataTrigger uwTrigID).isSome then
      saveCalls irTrigStartAddress s.tIRDataCommom
    else []
  | .insertNewIRCode tIRData uwLearnID =>
    if (midInsertNewIRCode tIRData uwLearnID s).1 then
      saveCalls irDataStartAddress (midInsertNewIRCode tIRData uwLearnID s).2.tIRDataCommom
    else []
  | .removeIRCode ulEraseID => removeCodeCalls ulEraseID (List.finRange maxIrCode) s
  | .eraseAll => [.erase irDataStartAddress 1, .erase irTrigStartAddress 1]
  | .motionSens _ => []

/-- The calls of a run. -/
def runStoreCalls : StoreState → List StoreOp → List FlashCall
  | _, [] => []
  | s, op :: ops => storeCalls s op ++ runStoreCalls (storeStep s op) ops

/-- The flash behind the calls, one after the other. -/
def applyCalls (calls : List FlashCall) (flash : Flash) : Flash :=
  calls.foldl (fun flash c => c.apply flash) flash

theorem applyCalls_append (calls rest : List FlashCall) (flash : Flash) :
    applyCalls (calls ++ rest) flash = applyCalls rest (applyCalls calls flash) :=
  List.foldl_append

theorem applyAll_map_request (calls : List FlashCall) (flash : Flash) :
    applyAll (calls.map FlashCall.request) flash = applyCalls calls flash := by
  rw [applyAll, List.foldl_map]
  rfl

/-! ## The calls of an operation -/

section Calls

variable {α : Type} [ByteImage α] {ulAddress : ℕ}

/-- The bytes of a variable are written. -/
theorem apply_write (ulAddress : ℕ) (x : α) (flash : Flash) :
    (FlashCall.write ulAddress (imageBytes x)).apply flash = flash.write ulAddress x := by
  rw [Flash.write_eq_program]
  change flash.program ulAddress (bytesFrom (imageBytes x) 0) (imageBytes x).length = _
  rw [length_imageBytes]
  apply Flash.program_congr
  intro o ho
  rw [bytesFrom, Nat.zero_add, imageBytes, List.getD_eq_getElem?_getD, List.getElem?_map,
    List.getElem?_range ho]
  rfl

theorem apply_erase (h : ulAddress % eraseSize = 0) (ulLen : ℕ) (flash : Flash) :
    (FlashCall.erase ulAddress ulLen).apply flash =
      flash.erase ulAddress (ulLen * eraseSize) := by
  change flash.erase (ulAddress / eraseSize * eraseSize) _ = _
  rw [Nat.div_mul_cancel (Nat.dvd_of_mod_eq_zero h)]

theorem applyCalls_saveCalls (h : ulAddress % eraseSize = 0) (x : α) (flash : Flash) :
    applyCalls (saveCalls ulAddress x) flash =
      (flash.erase ulAddress (1 * eraseSize)).write ulAddress x := by
  rw [saveCalls, applyCalls, List.foldl_cons, List.foldl_cons, List.foldl_nil, apply_erase h,
    apply_write]

end Calls

theorem irDataStartAddress_mod : irDataStartAddress % eraseSize = 0 := by decide

theorem irTrigStartAddress_mod : irTrigStartAddress % eraseSize = 0 := by decide

theorem flash_removeCodes (ulEraseID : BitVec 16) (slots : List (Fin maxIrCode)) (s : StoreState) :
    (slots.foldl (removeCodeAt ulEraseID) s).flash =
      applyCalls (removeCodeCalls ulEraseID slots s) s.flash := by
  induction slots generalizing s with
  | nil => rfl
  | cons i slots ih =>
    rw [List.foldl_cons, ih, removeCodeCalls, applyCalls_append]
    congr 1
    have hget : s.tIRDataCommom.get i = s.tIRDataCommom[i] := rfl
    rw [removeCodeAtCalls, removeCodeAt, hget]
    simp only [IRDataT.enabledID_eq_some]
    split_ifs
    · rw [applyCalls_saveCalls irDataStartAddress_mod]
      rfl
    · rfl

theorem applyMotionSens_flash (t : IrDataTrigger) (s : StoreState) :
    (applyMotionSens t s).2.flash = s.flash := by
  rw [applyMotionSens]
  split_ifs <;> rfl

theorem flash_storeTrigger (i : Fin maxIrCode) (t : IrDataTrigger) (s : StoreState) :
    (storeTrigger i t s).flash =
      applyCalls (saveCalls irTrigStartAddress (storeTrigger i t s).atIRDataTrigger) s.flash := by
  rw [applyCalls_saveCalls irTrigStartAddress_mod, storeTrigger, midFlashWrite, midFlashErase]

/-- What an operation does to the flash is what its calls do. -/
theorem storeStep_flash (s : StoreState) (op : StoreOp) :
    (storeStep s op).flash = applyCalls (storeCalls s op) s.flash := by
  cases op with
  | insertNewIRTrigger t =>
    rw [storeStep, storeCalls, midInsertNewIRTrigger]
    by_cases hused : (triggerSlot s.atIRDataTrigger (t.1.uwTrigID.setWidth 16)).isSome
    · rw [if_pos hused]
      rfl
    · rw [if_neg hused]
      cases freeTriggerSlot s.atIRDataTrigger with
      | none => rfl
      | some i =>
        have hstored := flash_storeTrigger i (applyMotionSens t.1 s).1 (applyMotionSens t.1 s).2
        rw [applyMotionSens_flash] at hstored
        exact hstored
  | removeIRTrigger uwTrigID =>
    rw [storeStep, storeCalls, midRemoveIRTrigger]
    cases triggerSlot s.atIRDataTrigger uwTrigID with
    | none => rfl
    | some i =>
      rw [Option.isSome_some, if_pos rfl, applyCalls_saveCalls irTrigStartAddress_mod]
      rfl
  | insertNewIRCode tIRData uwLearnID =>
    rw [storeStep, storeCalls, midInsertNewIRCode]
    cases freeCodeSlot s.tIRDataCommom with
    | none => rfl
    | some i =>
      rw [if_pos rfl, applyCalls_saveCalls irDataStartAddress_mod]
      rfl
  | removeIRCode ulEraseID => exact flash_removeCodes ulEraseID _ s
  | eraseAll =>
    rw [storeCalls, applyCalls, List.foldl_cons, List.foldl_cons, List.foldl_nil,
      apply_erase irDataStartAddress_mod, apply_erase irTrigStartAddress_mod]
    rfl
  | motionSens ubMotionSensTemp => rfl

theorem runStore_flash (s : StoreState) (ops : List StoreOp) :
    (runStore s ops).flash = applyCalls (runStoreCalls s ops) s.flash := by
  induction ops generalizing s with
  | nil => rfl
  | cons op ops ih =>
    rw [runStoreCalls, applyCalls_append, ← storeStep_flash]
    exact ih (storeStep s op)

/-! ## The checks -/

theorem check_saveCalls {α : Type} [ByteImage α] {ulAddress : ℕ} (x : α)
    (hpage : ulAddress = irDataStartAddress ∨ ulAddress = irTrigStartAddress)
    (hpos : size α ≠ 0) (hword : size α % programUnit = 0) (hsize : size α ≤ eraseSize) :
    ∀ c ∈ saveCalls ulAddress x, c.check = .nrfSuccess := by
  have hbounds : addrIsWithinBounds ulAddress (size α) = true := by
    rw [addrIsWithinBounds, Bool.and_eq_true, decide_eq_true_iff, decide_eq_true_iff]
    rcases hpage with rfl | rfl
    · rw [irDataStartAddress, endAddressFstorage]
      rw [eraseSize] at hsize
      omega
    · rw [irTrigStartAddress, irDataStartAddress, endAddressFstorage, eraseSize]
      rw [eraseSize] at hsize
      omega
  intro c hc
  rcases List.mem_cons.mp hc with rfl | hc
  · rcases hpage with rfl | rfl <;> decide
  · obtain rfl := List.mem_singleton.mp hc
    have haligned : ulAddress % 4 = 0 := by rcases hpage with rfl | rfl <;> decide
    rw [FlashCall.check, length_imageBytes, if_neg (not_or.mpr ⟨hpos, not_not.mpr hword⟩),
      if_neg (not_not.mpr haligned), if_pos hbounds]

theorem check_saveCalls_irData {ulAddress : ℕ} (table : IRDataTable)
    (hpage : ulAddress = irDataStartAddress ∨ ulAddress = irTrigStartAddress) :
    ∀ c ∈ saveCalls ulAddress table, c.check = .nrfSuccess :=
  check_saveCalls table hpage (by decide) (by decide) size_irDataTable_le

theorem check_removeCodeCalls (ulEraseID : BitVec 16) (slots : List (Fin maxIrCode))
    (s : StoreState) : ∀ c ∈ removeCodeCalls ulEraseID slots s, c.check = .nrfSuccess := by
  induction slots generalizing s with
  | nil => exact fun _ hc => nomatch hc
  | cons i slots ih =>
    intro c hc
    rcases List.mem_append.mp hc with hc | hc
    · rw [removeCodeAtCalls] at hc
      split_ifs at hc
      · exact check_saveCalls_irData _ (.inl rfl) c hc
      · cases hc
    · exact ih _ c hc

/-- No call of the stores fails the checks of `nrf_fstorage`. -/
theorem check_storeCalls (s : StoreState) (op : StoreOp) :
    ∀ c ∈ storeCalls s op, c.check = .nrfSuccess := by
  cases op with
  | insertNewIRTrigger t =>
    rw [storeCalls]
    split_ifs
    · exact check_saveCalls _ (.inr rfl) (by decide) (by decide) size_irTriggerTable_le
    · exact fun _ hc => nomatch hc
  | removeIRTrigger uwTrigID =>
    rw [storeCalls]
    split_ifs
    · exact check_saveCalls_irData _ (.inr rfl)
    · exact fun _ hc => nomatch hc
  | insertNewIRCode tIRData uwLearnID =>
    rw [storeCalls]
    split_ifs
    · exact check_saveCalls_irData _ (.inl rfl)
    · exact fun _ hc => nomatch hc
  | removeIRCode ulEraseID => exact check_removeCodeCalls ulEraseID _ s
  | eraseAll =>
    rw [storeCalls]
    decide
  | motionSens _ => exact fun _ hc => nomatch hc

/-! ## Behind the queue -/

/-- What was requested are the calls that have succeeded. -/
theorem requested_runFlash (flash : Flash) (steps : List FlashStep) :
    let s := runFlash steps (.boot flash)
    s.requested = (s.returned.filter (·.2 = .nrfSuccess)).map fun call => call.1.request := by
  suffices hrun : ∀ s : FlashSystem,
      s.requested = (s.returned.filter (·.2 = .nrfSuccess)).map (fun call => call.1.request) →
      (runFlash steps s).requested =
        ((runFlash steps s).returned.filter (·.2 = .nrfSuccess)).map fun call => call.1.request from
    hrun _ rfl
  induction steps with
  | nil => exact fun _ hs => hs
  | cons a steps ih =>
    intro s hs
    refine ih (flashStep s a) ?_
    cases a with
    | call c =>
      rw [flashStep, FlashSystem.call]
      split_ifs with hready hcheck
      · change s.requested ++ [c.request] = _
        rw [List.filter_append, List.map_append, hs]
        rfl
      · rw [List.filter_append, List.map_append, ← hs]
        exact (List.append_nil _).symm
      · have hfilter : [(c, c.check)].filter (fun call => call.2 = .nrfSuccess) = [] :=
          List.filter_eq_nil_iff.mpr fun call hcall => by
            obtain rfl := List.mem_singleton.mp hcall
            exact fun hsuccess => hcheck (of_decide_eq_true hsuccess)
        rw [List.filter_append, List.map_append, ← hs, hfilter]
        exact (List.append_nil _).symm
      · exact hs
    | start rc =>
      rw [flashStep]
      split
      all_goals exact hs
    | poll =>
      rw [flashStep, FlashSystem.poll]
      split_ifs <;> exact hs
    | sysEvt success mask rc => exact hs

/-- A call returns what its checks say, or it is refused. -/
theorem returned_runFlash (flash : Flash) (steps : List FlashStep) :
    ∀ call ∈ (runFlash steps (.boot flash)).returned,
      call.2 = .nrfErrorNoMem ∨ call.2 = call.1.check := by
  suffices hrun : ∀ s : FlashSystem,
      (∀ call ∈ s.returned, call.2 = .nrfErrorNoMem ∨ call.2 = call.1.check) →
      ∀ call ∈ (runFlash steps s).returned, call.2 = .nrfErrorNoMem ∨ call.2 = call.1.check from
    hrun _ fun _ hcall => nomatch hcall
  induction steps with
  | nil => exact fun _ hs => hs
  | cons a steps ih =>
    intro s hs
    refine ih (flashStep s a) ?_
    cases a with
    | call c =>
      rw [flashStep, FlashSystem.call]
      split_ifs with hready hcheck
      · exact List.forall_mem_append.mpr
          ⟨hs, fun call hcall => .inr (List.mem_singleton.mp hcall ▸ hcheck.symm)⟩
      · exact List.forall_mem_append.mpr
          ⟨hs, fun call hcall => .inl (List.mem_singleton.mp hcall ▸ rfl)⟩
      · exact List.forall_mem_append.mpr
          ⟨hs, fun call hcall => .inr (List.mem_singleton.mp hcall ▸ rfl)⟩
      · exact hs
    | start rc =>
      rw [flashStep]
      split
      all_goals exact hs
    | poll =>
      rw [flashStep, FlashSystem.poll]
      split_ifs <;> exact hs
    | sysEvt success mask rc => exact hs

theorem check_runStoreCalls (s : StoreState) (ops : List StoreOp) :
    ∀ c ∈ runStoreCalls s ops, c.check = .nrfSuccess := by
  induction ops generalizing s with
  | nil => exact fun _ hc => nomatch hc
  | cons op ops ih => exact List.forall_mem_append.mpr ⟨check_storeCalls s op, ih _⟩

/-- The stores may take their calls for done at once: when the calls of some operations were made,
never four erases in a row, none was given up and nothing is executing any more, then none was
refused and the flash is that of the stores. -/
theorem stores_behind_queue (s : StoreState) (ops : List StoreOp) (steps : List FlashStep) :
    let t := runFlash steps (.boot s.flash)
    t.returned.map Prod.fst = runStoreCalls s ops → ¬t.FourErases → t.Succeeded → t.Quiet →
      (∀ call ∈ t.returned, call.2 = .nrfSuccess) ∧ t.flash = (runStore s ops).flash := by
  intro t hcalls herases hsucceeded hquiet
  have hinv : FlashInv s.flash t := (flashInv_boot s.flash).run steps
  have hreturned : ∀ call ∈ t.returned, call.2 = .nrfSuccess := by
    intro call hcall
    rcases returned_runFlash s.flash steps call hcall with hrefused | hcheck
    · have hnone : ¬t.Refused := fun hrefused =>
        (flash_refused s.flash steps hrefused).elim hsucceeded.not_broken herases
      exact absurd ⟨call.1, hrefused ▸ hcall⟩ hnone
    · rw [hcheck]
      exact check_runStoreCalls s ops _ (hcalls ▸ List.mem_map_of_mem hcall)
  have hrequested : t.requested = (runStoreCalls s ops).map FlashCall.request := by
    have hfilter := requested_runFlash s.flash steps
    change t.requested = (t.returned.filter _).map _ at hfilter
    rw [hfilter, List.filter_eq_self.mpr fun call hcall => decide_eq_true (hreturned call hcall),
      ← hcalls, List.map_map]
    rfl
  refine ⟨hreturned, ?_⟩
  rw [(hinv.flash_eq hsucceeded hquiet).2, hrequested, applyAll_map_request, runStore_flash]

/-- Both erases of `App_ControlHandle` are done, the first one at its second attempt. -/
def eraseAllSteps : List FlashStep :=
  [.call (.erase irDataStartAddress 1), .start .nrfSuccess, .sysEvt false (fun o => o) .nrfSuccess,
    .call (.erase irTrigStartAddress 1), .start .nrfSuccess,
    .sysEvt true (fun _ => 0) .nrfErrorBusy, .sysEvt true (fun _ => 0) .nrfSuccess,
    .sysEvt true (fun _ => 0) .nrfSuccess]

theorem stores_behind_queue_eraseAll :
    let t := runFlash eraseAllSteps (.boot blankStores.flash)
    (∀ call ∈ t.returned, call.2 = .nrfSuccess) ∧
      t.flash = (runStore blankStores [.eraseAll]).flash :=
  stores_behind_queue blankStores [.eraseAll] eraseAllSteps rfl
    (fun ⟨before, erases, hlength, _, hprefix⟩ => by
      have htwo : (before ++ erases).length ≤ 2 := hprefix.length_le
      rw [List.length_append, hlength, nrfFstorageSdQueueSize] at htwo
      omega)
    (fun e he => by
      have hresults : (runFlash eraseAllSteps (.boot blankStores.flash)).results =
          [(.erase 43 1, .nrfSuccess), (.erase 44 1, .nrfSuccess)] := by decide
      rw [hresults] at he
      simp only [List.mem_cons, List.not_mem_nil, or_false] at he
      rcases he with rfl | rfl <;> rfl)
    ⟨rfl, fun ⟨_, hstarting⟩ => nomatch hstarting⟩

end IrRemote
