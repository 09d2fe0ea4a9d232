import IrRemote.Mid.Decode

/-!
# The control task and the stores

The part of `App_ControlHandle` that erases both stores, and the commands that send a code.

## Main definitions

* `appControlEraseAll` — the first switch was held for three seconds
* `appControlStartEmitIR`, `appControlStartEmitIRWithID` — the code of an identifier is sent

## Main results

* `flashTriggers_appControlEraseAll` — no trigger is left in flash
-/

set_option autoImplicit false

namespace IrRemote

/-- The branch of `App_ControlHandle` for the first switch behind three seconds. -/
def appControlEraseAll (s : StoreState) : StoreState :=
  let s := midFlashErase irDataStartAddress 1 s
  let s := midEraseAllIRCode s
  let s := midFlashErase irTrigStartAddress 1 s
  midEraseAllITrigger s

theorem flashTriggers_appControlEraseAll (s : StoreState) :
    flashTriggers (appControlEraseAll s).flash = ByteImage.ofBytes fun _ => 0xFF :=
  flashTriggers_erase _

/-! ## Sending a code -/

/-- The record under an identifier that is handed to `Mid_IrSendCommon`, if there is one. -/
def codeToEmit (uwBufferEmitID : BitVec 16) (s : StoreState) :
    Option (Vector (BitVec 8) sizeOfIRData) :=
  let ubIndex := linearSerachID s.tIRDataCommom uwBufferEmitID
  if ubIndex ≠ -1 then s.tIRDataCommom[ubIndex.toNat]?.map IRDataT.irData else none

/-- `App_ControlStartEmitIR`, up to the record that is sent. -/
def appControlStartEmitIR (pData : ℕ → BitVec 8) (len : BitVec 16) (s : StoreState) :
    Option (Vector (BitVec 8) sizeOfIRData) :=
  codeToEmit (convertID pData (len.setWidth 8)) s

/-- `App_ControlStartEmitIRWithID`, up to the record that is sent. -/
def appControlStartEmitIRWithID (pData : ℕ → BitVec 8) (len : BitVec 16) (s : StoreState) :
    Option (Vector (BitVec 8) sizeOfIRData) :=
  codeToEmit (convertArrayToNumber pData (len.setWidth 8)) s

/-- The code of the first slot that is enabled under the identifier is sent. -/
theorem codeToEmit_eq_toMap (uwBufferEmitID : BitVec 16) (s : StoreState) :
    codeToEmit uwBufferEmitID s =
      SlotTable.toMap IRDataT.enabledID IRDataT.irData s.tIRDataCommom uwBufferEmitID := by
  rw [codeToEmit, linearSerachID_eq, SlotTable.toMap]
  cases SlotTable.find IRDataT.enabledID s.tIRDataCommom uwBufferEmitID with
  | none => rfl
  | some i =>
    have hslot : (i : ℤ) ≠ -1 := by omega
    simp only [Option.map_some, Option.getD_some, if_pos hslot, Int.toNat_natCast,
      Vector.getElem?_eq_getElem i.isLt]
    rfl

end IrRemote
