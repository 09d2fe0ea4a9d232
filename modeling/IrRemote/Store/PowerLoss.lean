import IrRemote.Library.FaultMachine
import IrRemote.Store.FlashCalls

/-!
# Power failures

The operations of the stores change their tables in RAM and call the flash storage. The power may
fail at any moment: the tables are lost, the operation that the SoftDevice is executing is cut
short, and `Mid_FlashInit` reads both tables at the next start. A run in which a call is refused
or an operation fails has no result here.

## Main definitions

* `PowerSystem`, `powerStep` — the stores, their calls, the flash storage and power failures
* `FlashSystem.flashAtPowerLoss` — what the next start finds
* `PowerInv` — what is left to be done leads to the flash of the stores

## Main results

* `power_loss_between_operations` — a power failure between two operations is a reboot
-/

set_option autoImplicit false

namespace IrRemote

open FaultMachine ByteImage

instance (s : FlashSystem) : Decidable s.Succeeded :=
  inferInstanceAs (Decidable (∀ e ∈ s.results, e.2 = .nrfSuccess))

/-- The flash when the power fails. The part that is executing was done to some extent. -/
def FlashSystem.flashAtPowerLoss (mask : ℕ → BitVec 8) (s : FlashSystem) : Flash :=
  s.fs.flashBehind false mask s.flash

/-- The tables at the start of the firmware. -/
def coldBoot (flash : Flash) : StoreState :=
  midFlashInit { blankStores with flash }

/-- The stores, whose flash is the one that their calls will lead to, the calls that the current
operation has still to make, and the flash storage. The tables of codes record the run: those that
were to be saved, the last one first, and at the end the one that was found at the start. -/
structure PowerSystem where
  stores : StoreState
  todo : List FlashCall
  sys : FlashSystem
  saved : List IRDataTable

/-- The start of the firmware. -/
def PowerSystem.boot (flash : Flash) : PowerSystem where
  stores := coldBoot flash
  todo := []
  sys := .boot flash
  saved := [(coldBoot flash).tIRDataCommom]

/-- The table of codes that a call is to save. -/
def FlashCall.savedCodes : FlashCall → List IRDataTable
  | .write ulAddress src =>
    if ulAddress = irDataStartAddress then [ofBytes (bytesFrom src 0)] else []
  | .erase .. => []

/-- An operation of the stores, its next call, a step of the flash storage, or a power failure. -/
inductive PowerStep where
  | op (op : StoreOp)
  | call
  | start (rc : SdRetCode)
  | poll
  | sysEvt (success : Bool) (mask : ℕ → BitVec 8) (rc : SdRetCode)
  | powerLoss (mask : ℕ → BitVec 8)

/-- The flash storage goes on, if no operation fails. -/
def PowerSystem.advance (a : FlashStep) (p : PowerSystem) : Option PowerSystem :=
  if (flashStep p.sys a).Succeeded then some { p with sys := flashStep p.sys a } else none

/-- The next call of the current operation, if it finds a place in the queue. -/
def PowerSystem.call (p : PowerSystem) : Option PowerSystem :=
  match p.todo with
  | [] => some p
  | c :: todo =>
    if p.sys.caller = .ready then
      if p.sys.fs.fifo.length < nrfFstorageSdQueueSize then
        some
          { p with
            todo := todo
            sys := p.sys.call c
            saved := c.savedCodes ++ p.saved }
      else none
    else some p

/-- The main loop begins an operation when it is through with the one before. -/
def powerStep : PowerStep → PowerSystem → Option PowerSystem
  | .op op, p =>
    if p.todo = [] ∧ p.sys.caller = .ready then
      some { p with stores := storeStep p.stores op, todo := storeCalls p.stores op }
    else some p
  | .call, p => p.call
  | .start rc, p => p.advance (.start rc)
  | .poll, p => p.advance .poll
  | .sysEvt success mask rc, p => p.advance (.sysEvt success mask rc)
  | .powerLoss mask, p => some (.boot (p.sys.flashAtPowerLoss mask))

/-! ## What is left to be done -/

/-- The calls that are to be made and the operations that are queued lead to the flash that the
stores have. -/
structure PowerInv (p : PowerSystem) : Prop where
  succeeded : p.sys.Succeeded
  checked : ∀ c ∈ p.todo, c.check = .nrfSuccess
  flash : ∃ flash₀, FlashInv flash₀ p.sys ∧
    applyCalls p.todo (applyAll p.sys.requested flash₀) = p.stores.flash

theorem powerInv_boot (flash : Flash) : PowerInv (.boot flash) where
  succeeded := fun _ he => nomatch he
  checked := fun _ hc => nomatch hc
  flash := ⟨flash, flashInv_boot flash, rfl⟩

variable {p p' : PowerSystem} {a : PowerStep}

theorem flashStep_requested {s : FlashSystem} {a : FlashStep} (h : ∀ c, a ≠ .call c) :
    (flashStep s a).requested = s.requested := by
  cases a with
  | call c => exact absurd rfl (h c)
  | start rc =>
    rw [flashStep]
    split <;> rfl
  | poll =>
    rw [flashStep, FlashSystem.poll]
    split_ifs <;> rfl
  | sysEvt success mask rc => rfl

theorem PowerInv.advance (h : PowerInv p) {b : FlashStep} (hcall : ∀ c, b ≠ .call c)
    (hstep : p.advance b = some p') : PowerInv p' := by
  rw [PowerSystem.advance] at hstep
  split_ifs at hstep with hsucceeded
  obtain rfl := Option.some.inj hstep
  obtain ⟨flash₀, hinv, hflash⟩ := h.flash
  refine ⟨hsucceeded, h.checked, flash₀, hinv.step b, ?_⟩
  rw [flashStep_requested hcall]
  exact hflash

theorem PowerInv.call (h : PowerInv p) (hstep : p.call = some p') : PowerInv p' := by
  rw [PowerSystem.call] at hstep
  split at hstep
  · exact Option.some.inj hstep ▸ h
  · rename_i c todo htodo
    split_ifs at hstep with hready hplace
    · obtain rfl := Option.some.inj hstep
      obtain ⟨flash₀, hinv, hflash⟩ := h.flash
      obtain ⟨hcheck, hrest⟩ := List.forall_mem_cons.mp (htodo ▸ h.checked)
      refine ⟨?_, hrest, flash₀, hinv.call hready c, ?_⟩
      · rw [FlashSystem.call, if_pos hcheck, if_pos hplace]
        exact h.succeeded
      · rw [FlashSystem.call, if_pos hcheck, if_pos hplace]
        change applyCalls todo (applyAll (p.sys.requested ++ [c.request]) flash₀) = _
        rw [applyAll, List.foldl_append]
        rw [htodo] at hflash
        exact hflash
    · exact Option.some.inj hstep ▸ h

theorem PowerInv.step (h : PowerInv p) (hstep : powerStep a p = some p') : PowerInv p' := by
  cases a with
  | op op =>
    rw [powerStep] at hstep
    split_ifs at hstep with hready
    · obtain rfl := Option.some.inj hstep
      obtain ⟨flash₀, hinv, hflash⟩ := h.flash
      refine ⟨h.succeeded, check_storeCalls p.stores op, flash₀, hinv, ?_⟩
      rw [hready.1] at hflash
      rw [storeStep_flash, ← hflash]
      rfl
    · exact Option.some.inj hstep ▸ h
  | call => exact h.call hstep
  | start rc => exact h.advance (fun _ => FlashStep.noConfusion) hstep
  | poll => exact h.advance (fun _ => FlashStep.noConfusion) hstep
  | sysEvt success mask rc => exact h.advance (fun _ => FlashStep.noConfusion) hstep
  | powerLoss mask => exact Option.some.inj hstep ▸ powerInv_boot _

theorem PowerInv.run (h : PowerInv p) {labels : List PowerStep}
    (hrun : run powerStep labels p = some p') : PowerInv p' := by
  induction labels generalizing p with
  | nil => exact Option.some.inj hrun ▸ h
  | cons a labels ih =>
    rw [run_cons, Option.bind_eq_some_iff] at hrun
    obtain ⟨t, hstep, hrest⟩ := hrun
    exact ih (h.step hstep) hrest

/-- In a run in which no call finds the queue full and no request is given up or refused to start, a
power failure between two operations, when nothing is executing, is a reboot of the stores: it finds
the tables that the stores have in their flash. -/
theorem power_loss_between_operations (flash : Flash) (labels : List PowerStep)
    (hrun : run powerStep labels (.boot flash) = some p) (htodo : p.todo = [])
    (hquiet : p.sys.Quiet) (mask : ℕ → BitVec 8) :
    ∃ p', powerStep (.powerLoss mask) p = some p' ∧
      p'.stores.tIRDataCommom = (midFlashInit p.stores).tIRDataCommom ∧
      p'.stores.atIRDataTrigger = (midFlashInit p.stores).atIRDataTrigger := by
  have h := (powerInv_boot flash).run hrun
  obtain ⟨flash₀, hinv, hflash⟩ := h.flash
  rw [htodo] at hflash
  have heq : p.sys.flashAtPowerLoss mask = p.stores.flash := by
    rw [FlashSystem.flashAtPowerLoss, flashBehind_of_ne (by simp [hquiet.1])]
    exact (hinv.flash_eq h.succeeded hquiet).2.trans hflash
  refine ⟨_, rfl, ?_, ?_⟩
  · rw [heq, midFlashInit_tIRDataCommom]
    exact midFlashInit_tIRDataCommom _
  · rw [heq, midFlashInit_atIRDataTrigger]
    exact midFlashInit_atIRDataTrigger _

/-- Everything is erased, one page after the other. -/
def eraseAllLabels : List PowerStep :=
  [.op .eraseAll, .call, .start .nrfSuccess, .sysEvt true (fun _ => 0) .nrfSuccess, .call,
    .start .nrfSuccess, .sysEvt true (fun _ => 0) .nrfSuccess]

/-- The system behind them. -/
def behindEraseAll : PowerSystem where
  stores := storeStep (coldBoot Flash.blank) .eraseAll
  todo := []
  sys := runFlash
    [.call (.erase irDataStartAddress 1), .start .nrfSuccess, .sysEvt true (fun _ => 0) .nrfSuccess,
      .call (.erase irTrigStartAddress 1), .start .nrfSuccess,
      .sysEvt true (fun _ => 0) .nrfSuccess] (.boot Flash.blank)
  saved := [(coldBoot Flash.blank).tIRDataCommom]

theorem power_loss_between_operations_eraseAll :
    ∃ p', powerStep (.powerLoss fun _ => 0) behindEraseAll = some p' ∧
      p'.stores.tIRDataCommom = (midFlashInit behindEraseAll.stores).tIRDataCommom ∧
      p'.stores.atIRDataTrigger = (midFlashInit behindEraseAll.stores).atIRDataTrigger :=
  power_loss_between_operations Flash.blank eraseAllLabels rfl rfl
    ⟨rfl, fun ⟨_, hstarting⟩ => nomatch hstarting⟩ _

end IrRemote
