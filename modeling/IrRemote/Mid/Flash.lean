import IrRemote.Library.Flash
import IrRemote.Op.StoreRecords

/-!
# The flash pages of the stores

The functions of `Mid_Flash.c` on the two tables in RAM and their pages. The calls of
`nrf_fstorage` succeed and take effect in the order in which they are issued.

## Main definitions

* `StoreState` — the tables, their counters and the flash
* `midFlashErase`, `midFlashWrite`, `midFlashRead` — the accesses
* `midFlashInit` — the tables are read back at start-up

## Main results

* `irDataPage_le_irTrigPage` — the table of the codes ends in front of the page of the triggers
-/

set_option autoImplicit false

namespace IrRemote

open ByteImage

/-- `ERASE_SIZE`. -/
def eraseSize : ℕ := 4096

/-- `IR_DATA_START_ADDRESS`, which is `START_ADDRESS_FSTORAGE`. -/
def irDataStartAddress : ℕ := 0x2b000

/-- `IR_TRIG_START_ADDRESS`. -/
def irTrigStartAddress : ℕ := irDataStartAddress + eraseSize

/-- `t_IRDataCommom`. -/
abbrev IRDataTable := Vector IRDataT maxIrCode

/-- `g_atIRDataTrigger`. -/
abbrev IRTriggerTable := Vector IrDataTrigger maxIrCode

/-- The globals of the two stores, and the flash. -/
structure StoreState where
  tIRDataCommom : IRDataTable
  atIRDataTrigger : IRTriggerTable
  ubIRCount : BitVec 8
  ubIRTriggerCount : BitVec 8
  ubMotionSensTemp : BitVec 8
  flash : Flash

/-- `Mid_FlashErase`, with the length in pages. -/
def midFlashErase (ulAddress ulLen : ℕ) (s : StoreState) : StoreState :=
  { s with flash := s.flash.erase ulAddress (ulLen * eraseSize) }

/-- `Mid_FlashWrite` of a whole variable. -/
def midFlashWrite {α : Type*} [ByteImage α] (ulAddress : ℕ) (src : α) (s : StoreState) :
    StoreState :=
  { s with flash := s.flash.write ulAddress src }

/-- `Mid_FlashRead` into a variable, which keeps its value when it is longer than the buffer
of 1024 bytes on the stack. -/
def midFlashRead {α : Type*} [ByteImage α] (data : α) (ulAddress : ℕ) (flash : Flash) : α :=
  if size α > 1024 then data else flash.read ulAddress

/-- `Mid_FlashInit`. -/
def midFlashInit (s : StoreState) : StoreState :=
  { s with
    tIRDataCommom := midFlashRead s.tIRDataCommom irDataStartAddress s.flash
    atIRDataTrigger := midFlashRead s.atIRDataTrigger irTrigStartAddress s.flash }

/-! ## The pages -/

theorem size_irDataTable_le : size IRDataTable ≤ eraseSize := by decide

theorem size_irTriggerTable_le : size IRTriggerTable ≤ eraseSize := by decide

theorem size_irTriggerTable_le_irDataTable : size IRTriggerTable ≤ size IRDataTable := by decide

/-- The table of the codes ends in front of the page of the triggers. -/
theorem irDataPage_le_irTrigPage : irDataStartAddress + eraseSize ≤ irTrigStartAddress :=
  Nat.le_refl _

/-- The triggers in the page of the triggers. -/
def flashTriggers (flash : Flash) : IRTriggerTable := flash.read irTrigStartAddress

theorem midFlashRead_of_le {α : Type*} [ByteImage α] (h : size α ≤ 1024) (data : α) (ulAddress : ℕ)
    (flash : Flash) : midFlashRead data ulAddress flash = flash.read ulAddress :=
  if_neg (Nat.not_lt_of_le h)

/-- The table of the triggers fits the buffer of `Mid_FlashRead`. -/
theorem midFlashInit_atIRDataTrigger (s : StoreState) :
    (midFlashInit s).atIRDataTrigger = flashTriggers s.flash :=
  midFlashRead_of_le (by decide) s.atIRDataTrigger ..

/-- So does the table of the codes. -/
theorem midFlashInit_tIRDataCommom (s : StoreState) :
    (midFlashInit s).tIRDataCommom = s.flash.read irDataStartAddress :=
  midFlashRead_of_le (by decide) s.tIRDataCommom ..

/-! ## What the writes do to the page of the triggers -/

/-- The page of the triggers is erased and written with their table. -/
theorem flashTriggers_write_erase (table : IRTriggerTable) (flash : Flash) :
    flashTriggers
        ((flash.erase irTrigStartAddress (1 * eraseSize)).write irTrigStartAddress table) = table :=
  Flash.read_write_erase size_irTriggerTable_le table flash

/-- It is erased and written with the table of the codes. -/
theorem flashTriggers_write_erase_irData (table : IRDataTable) (flash : Flash) :
    flashTriggers
        ((flash.erase irTrigStartAddress (1 * eraseSize)).write irTrigStartAddress table) =
      ofBytes (bytes table) :=
  Flash.read_write_erase_of_le size_irDataTable_le size_irTriggerTable_le_irDataTable table flash

/-- The page of the triggers is erased. -/
theorem flashTriggers_erase (flash : Flash) :
    flashTriggers (flash.erase irTrigStartAddress (1 * eraseSize)) = ofBytes fun _ => 0xFF :=
  Flash.read_erase size_irTriggerTable_le flash

/-- The page of the codes is not the page of the triggers. -/
theorem flashTriggers_erase_irData (flash : Flash) :
    flashTriggers (flash.erase irDataStartAddress (1 * eraseSize)) = flashTriggers flash :=
  Flash.read_erase_of_disjoint (.inr irDataPage_le_irTrigPage) flash

theorem flashTriggers_write_irData (table : IRDataTable) (flash : Flash) :
    flashTriggers (flash.write irDataStartAddress table) = flashTriggers flash :=
  Flash.read_write_of_disjoint (.inr (Nat.le_trans (Nat.add_le_add_left size_irDataTable_le _)
    irDataPage_le_irTrigPage)) table flash

end IrRemote
