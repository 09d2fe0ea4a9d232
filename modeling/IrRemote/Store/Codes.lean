import IrRemote.Store.Reboot

/-!
# The codes over a reboot

Every operation that changes the table of the codes saves it, and no operation on the triggers
reaches its page, not even the removal of a trigger, which writes the table of the codes over
the page of the triggers.

## Main definitions

* `enabledCodes` — the enabled codes of a table by slot
* `StoreCall`, `storeCall`, `runCalls` — the operations and their runs
* `KeepsCodes` — an operation touches neither the codes nor their page
* `CodesSaved` — the page holds the enabled codes of the table

## Main results

* `CodesSaved.storeCall` — every operation keeps the agreement
* `code_store_survives` — a reboot keeps the enabled codes
-/

set_option autoImplicit false

namespace IrRemote

/-! ## The codes as the user sees them -/

/-- A code, if it is enabled. -/
def enabledCode (e : IRDataT) : Option IRDataT :=
  if e.ulStatus = irCodeEnable then some e else none

/-- The enabled codes by slot. -/
def enabledCodes (table : IRDataTable) : Vector (Option IRDataT) maxIrCode :=
  table.map enabledCode

theorem enabledID_eq_map (e : IRDataT) : e.enabledID = (enabledCode e).map IRDataT.uwID := by
  rw [IRDataT.enabledID, enabledCode]
  split_ifs <;> rfl

theorem get_enabledCodes (table : IRDataTable) (i : Fin maxIrCode) :
    (enabledCodes table).get i = enabledCode (table.get i) := SlotTable.get_map enabledCode i

/-- A removal drops the enabled codes under its identifier. -/
theorem enabledCode_dropCode_eq_some {ulEraseID : BitVec 16} {e code : IRDataT} :
    enabledCode (dropCode ulEraseID e) = some code ↔
      enabledCode e = some code ∧ code.uwID ≠ ulEraseID := by
  rw [dropCode, enabledID_eq_map]
  constructor
  · intro h
    split_ifs at h with hdrop
    · rw [enabledCode, if_neg irCodeDisable_ne_enable] at h
      cases h
    · exact ⟨h, fun hid => hdrop (by rw [h, Option.map_some, hid])⟩
  · rintro ⟨h, hid⟩
    rw [h, Option.map_some, if_neg fun hdrop => hid (Option.some.inj hdrop), h]

/-- A table without any enabled code. -/
theorem enabledCodes_eq_replicate {table : IRDataTable}
    (h : ∀ (i : ℕ) (hi : i < maxIrCode), table[i].ulStatus ≠ irCodeEnable) :
    enabledCodes table = Vector.replicate maxIrCode none := by
  ext i hi : 1
  rw [enabledCodes, Vector.getElem_map, Vector.getElem_replicate, enabledCode]
  exact if_neg (h i hi)

/-- The search sees the enabled codes only. -/
theorem linearSerachID_congr {table table' : IRDataTable}
    (h : enabledCodes table = enabledCodes table') (uwKey : BitVec 16) :
    linearSerachID table uwKey = linearSerachID table' uwKey := by
  have hscan : SlotTable.find IRDataT.enabledID table uwKey =
      SlotTable.find IRDataT.enabledID table' uwKey := by
    unfold SlotTable.find
    congr 1
    funext i
    have hslot : enabledCode (table.get i) = enabledCode (table'.get i) := by
      have hget := congrArg (fun codes => codes.get i) h
      rwa [enabledCodes, enabledCodes, SlotTable.get_map, SlotTable.get_map] at hget
    rw [enabledID_eq_map, enabledID_eq_map, hslot]
  rw [linearSerachID_eq, linearSerachID_eq, hscan]

/-! ## Runs -/

/-- A call of one of the operations on the stores, and the reception of a sensitivity. -/
inductive StoreCall where
  | insertNewIRTrigger (tIRDataTrigger : IrDataTrigger)
  | removeIRTrigger (uwTrigID : BitVec 16)
  | insertNewIRCode (tIRData : Vector (BitVec 8) sizeOfIRData) (uwLearnID : BitVec 16)
  | removeIRCode (ulEraseID : BitVec 16)
  | eraseAll
  | motionSens (ubMotionSensTemp : BitVec 8)

/-- One call. -/
def storeCall (s : StoreState) : StoreCall → StoreState
  | .insertNewIRTrigger tIRDataTrigger => (midInsertNewIRTrigger tIRDataTrigger s).2
  | .removeIRTrigger uwTrigID => (midRemoveIRTrigger uwTrigID s).2
  | .insertNewIRCode tIRData uwLearnID => (midInsertNewIRCode tIRData uwLearnID s).2
  | .removeIRCode ulEraseID => (midRemoveIRCode ulEraseID s).2
  | .eraseAll => appControlEraseAll s
  | .motionSens ubMotionSensTemp => { s with ubMotionSensTemp }

/-- The calls one after the other. -/
def runCalls (s : StoreState) (calls : List StoreCall) : StoreState := calls.foldl storeCall s

/-! ## The page of the codes -/

/-- The codes in their page. -/
def flashCodes (flash : Flash) : IRDataTable := flash.read irDataStartAddress

theorem flashCodes_saveCodes (s : StoreState) :
    flashCodes (saveCodes s).flash = s.tIRDataCommom :=
  Flash.read_write_erase size_irDataTable_le s.tIRDataCommom s.flash

theorem flashCodes_erase (flash : Flash) :
    flashCodes (flash.erase irDataStartAddress (1 * eraseSize)) = ByteImage.ofBytes fun _ => 0xFF :=
  Flash.read_erase size_irDataTable_le flash

/-- The table of the codes ends in front of the page of the triggers. -/
theorem irDataTable_le_irTrigPage :
    irDataStartAddress + ByteImage.size IRDataTable ≤ irTrigStartAddress :=
  Nat.le_trans (Nat.add_le_add_left size_irDataTable_le _) irDataPage_le_irTrigPage

theorem flashCodes_erase_irTrig (flash : Flash) :
    flashCodes (flash.erase irTrigStartAddress (1 * eraseSize)) = flashCodes flash :=
  Flash.read_erase_of_disjoint (.inl irDataTable_le_irTrigPage) flash

/-- Whatever is written to the page of the triggers. -/
theorem flashCodes_write_irTrig {α : Type*} [ByteImage α] (x : α) (flash : Flash) :
    flashCodes (flash.write irTrigStartAddress x) = flashCodes flash :=
  Flash.read_write_of_disjoint (.inl irDataTable_le_irTrigPage) x flash

/-- The codes and their page are the same in two states. -/
structure KeepsCodes (s s' : StoreState) : Prop where
  table : s'.tIRDataCommom = s.tIRDataCommom
  page : flashCodes s'.flash = flashCodes s.flash

namespace KeepsCodes

theorem refl (s : StoreState) : KeepsCodes s s := ⟨rfl, rfl⟩

theorem storeTrigger (i : Fin maxIrCode) (t : IrDataTrigger) (s : StoreState) :
    KeepsCodes s (storeTrigger i t s) :=
  ⟨rfl, (flashCodes_write_irTrig ..).trans (flashCodes_erase_irTrig _)⟩

theorem dropTrigger (i : Fin maxIrCode) (s : StoreState) : KeepsCodes s (dropTrigger i s) :=
  ⟨rfl, (flashCodes_write_irTrig ..).trans (flashCodes_erase_irTrig _)⟩

theorem applyMotionSens (t : IrDataTrigger) (s : StoreState) :
    KeepsCodes s (applyMotionSens t s).2 := by
  unfold IrRemote.applyMotionSens
  split_ifs
  · exact ⟨rfl, rfl⟩
  · exact refl s

theorem midInsertNewIRTrigger (t : IrDataTrigger) (s : StoreState) :
    KeepsCodes s (midInsertNewIRTrigger t s).2 := by
  unfold IrRemote.midInsertNewIRTrigger
  split
  case isTrue => exact refl s
  case isFalse =>
    cases freeTriggerSlot s.atIRDataTrigger with
    | some i =>
      have hsens := applyMotionSens t s
      have hstore := storeTrigger i (IrRemote.applyMotionSens t s).1
        (IrRemote.applyMotionSens t s).2
      exact ⟨hstore.table.trans hsens.table, hstore.page.trans hsens.page⟩
    | none => exact refl s

theorem midRemoveIRTrigger (uwTrigID : BitVec 16) (s : StoreState) :
    KeepsCodes s (midRemoveIRTrigger uwTrigID s).2 := by
  cases hslot : triggerSlot s.atIRDataTrigger uwTrigID with
  | some i =>
    rw [midRemoveIRTrigger_of_slot hslot]
    exact dropTrigger i s
  | none =>
    rw [midRemoveIRTrigger_of_none hslot]
    exact refl s

end KeepsCodes

/-! ## What an operation does to the agreement -/

/-- The page holds the enabled codes of the table. -/
def CodesSaved (s : StoreState) : Prop :=
  enabledCodes (flashCodes s.flash) = enabledCodes s.tIRDataCommom

/-- Erased bytes are no enabled code. -/
theorem enabledCodes_erased :
    enabledCodes (ByteImage.ofBytes fun _ => 0xFF) = Vector.replicate maxIrCode none := by
  apply enabledCodes_eq_replicate
  intro i hi
  rw [ByteImage.getElem_ofBytes]
  decide

theorem enabledCodes_midEraseAllIRCode (s : StoreState) :
    enabledCodes (midEraseAllIRCode s).tIRDataCommom = Vector.replicate maxIrCode none := by
  apply enabledCodes_eq_replicate
  intro i hi
  rw [midEraseAllIRCode, Vector.getElem_map]
  exact irCodeDisable_ne_enable

namespace CodesSaved

variable {s s' : StoreState}

theorem midFlashInit (s : StoreState) : CodesSaved (midFlashInit s) := by
  rw [CodesSaved, midFlashInit_tIRDataCommom]
  rfl

theorem saveCodes (s : StoreState) : CodesSaved (saveCodes s) := by
  rw [CodesSaved, flashCodes_saveCodes]
  rfl

theorem of_keepsCodes (h : CodesSaved s) (hs : KeepsCodes s s') : CodesSaved s' := by
  rw [CodesSaved, hs.table, hs.page]
  exact h

theorem midInsertNewIRCode (h : CodesSaved s) (tIRData : Vector (BitVec 8) sizeOfIRData)
    (uwLearnID : BitVec 16) : CodesSaved (midInsertNewIRCode tIRData uwLearnID s).2 := by
  unfold IrRemote.midInsertNewIRCode
  split
  case h_1 => exact saveCodes _
  case h_2 => exact h

theorem removeCodeAt (h : CodesSaved s) (ulEraseID : BitVec 16) (i : Fin maxIrCode) :
    CodesSaved (removeCodeAt ulEraseID s i) := by
  unfold IrRemote.removeCodeAt
  split
  case isTrue => exact saveCodes _
  case isFalse => exact h

theorem foldl_removeCodeAt (h : CodesSaved s) (ulEraseID : BitVec 16)
    (slots : List (Fin maxIrCode)) :
    CodesSaved (slots.foldl (IrRemote.removeCodeAt ulEraseID) s) := by
  induction slots generalizing s with
  | nil => exact h
  | cons i slots ih => exact ih (h.removeCodeAt ulEraseID i)

theorem appControlEraseAll (s : StoreState) : CodesSaved (appControlEraseAll s) := by
  have hpage : flashCodes (IrRemote.appControlEraseAll s).flash = ByteImage.ofBytes fun _ => 0xFF :=
    (flashCodes_erase_irTrig _).trans (flashCodes_erase _)
  rw [CodesSaved, hpage, enabledCodes_erased]
  exact (enabledCodes_midEraseAllIRCode _).symm

theorem storeCall (h : CodesSaved s) (call : StoreCall) : CodesSaved (storeCall s call) := by
  cases call with
  | insertNewIRTrigger t => exact h.of_keepsCodes (.midInsertNewIRTrigger t s)
  | removeIRTrigger uwTrigID => exact h.of_keepsCodes (.midRemoveIRTrigger uwTrigID s)
  | insertNewIRCode tIRData uwLearnID => exact h.midInsertNewIRCode tIRData uwLearnID
  | removeIRCode ulEraseID =>
    dsimp only [IrRemote.storeCall, midRemoveIRCode]
    apply h.foldl_removeCodeAt
  | eraseAll => exact appControlEraseAll s
  | motionSens ubMotionSensTemp => exact h.of_keepsCodes ⟨rfl, rfl⟩

theorem runCalls (h : CodesSaved s) (calls : List StoreCall) : CodesSaved (runCalls s calls) := by
  induction calls generalizing s with
  | nil => exact h
  | cons call calls ih => exact ih (h.storeCall call)

end CodesSaved

/-- A reboot behind any run from a blank flash keeps the enabled codes in their slots, and
every search finds what it found before. -/
theorem code_store_survives (s ram : StoreState) (calls : List StoreCall) :
    let stores := runCalls (bootBlank s) calls
    let rebooted := midFlashInit { ram with flash := stores.flash }
    enabledCodes rebooted.tIRDataCommom = enabledCodes stores.tIRDataCommom ∧
      ∀ uwKey, linearSerachID rebooted.tIRDataCommom uwKey =
        linearSerachID stores.tIRDataCommom uwKey := by
  intro stores rebooted
  have hsaved : CodesSaved stores := (CodesSaved.midFlashInit _).runCalls calls
  have hcodes : enabledCodes rebooted.tIRDataCommom = enabledCodes stores.tIRDataCommom := by
    rw [midFlashInit_tIRDataCommom]
    exact hsaved
  exact ⟨hcodes, linearSerachID_congr hcodes⟩

end IrRemote
