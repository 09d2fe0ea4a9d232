import IrRemote.Library.PackedImage
import IrRemote.Store.Codes
import IrRemote.Store.PowerLoss

/-!
# The page of the codes

What the operations of the flash storage do to the bits in the page of the codes, done or cut
short, and the calls of the stores as the page sees them.

## Main definitions

* `CoversTable`, `ErasedPage` — what the page has of a table
* `eraseCodes`, `writeCodes`, `OffPage` — the requests
* `PageTodo` — the calls that an operation has still to make

## Main results

* `CoversTable.enabled` — a slot that is found enabled was written as an enabled one
* `pageTodo_storeCalls` — the calls of every operation
-/

set_option autoImplicit false

namespace IrRemote

open ByteImage

/-! ## Tables without padding -/

instance : PackedImage IRDataT where
  bytes_ofBytes f {o} ho := by
    change (if o < 2 then bytes (ofBytes f : BitVec 16) o
      else if o < 4 then bytes (ofBytes fun o => f (2 + o) : BitVec 16) (o - 2)
      else bytes (ofBytes fun o => f (4 + o) : Vector (BitVec 8) sizeOfIRData) (o - 4)) = f o
    change o < 2 + 2 + sizeOfIRData at ho
    split_ifs with hstatus hid
    · exact PackedImage.bytes_ofBytes f hstatus
    · rw [PackedImage.bytes_ofBytes _ (by change o - 2 < 2; omega)]
      congr 1
      omega
    · rw [PackedImage.bytes_ofBytes _ (by
        change o - 4 < sizeOfIRData * 1
        omega)]
      congr 1
      omega

/-- The statuses of a table are written ones. -/
def StatusesSet (table : IRDataTable) : Prop :=
  ∀ i : Fin maxIrCode, (table.get i).ulStatus ≠ irCodeNone

/-- The page has all bits of a table. -/
def CoversTable (table : IRDataTable) (flash : Flash) : Prop :=
  flash.Covers irDataStartAddress (bytes table) (size IRDataTable)

/-- The place of the table is erased. -/
def ErasedPage (flash : Flash) : Prop :=
  flash.Covers irDataStartAddress (fun _ => 0xFF) (size IRDataTable)

theorem ErasedPage.byte {flash : Flash} (h : ErasedPage flash) {o : ℕ}
    (ho : o < size IRDataTable) : flash (irDataStartAddress + o) = 0xFF :=
  (BitVec.allOnes_and.symm.trans (h o ho) :)

theorem ErasedPage.coversTable {flash : Flash} (h : ErasedPage flash) (table : IRDataTable) :
    CoversTable table flash := by
  intro o ho
  rw [h.byte ho]
  exact BitVec.and_allOnes

theorem coversTable_read (flash : Flash) :
    CoversTable (flash.read irDataStartAddress) flash := by
  intro o ho
  rw [Flash.read, PackedImage.bytes_ofBytes _ ho]
  exact BitVec.and_self

/-- A status is read off the first bytes of its slot. -/
theorem get_ulStatus_read (flash : Flash) (i : Fin maxIrCode) :
    ((flash.read irDataStartAddress : IRDataTable).get i).ulStatus =
      flash (irDataStartAddress + (i * size IRDataT + 1)) ++
        flash (irDataStartAddress + (i * size IRDataT + 0)) := by
  change ((ofBytes fun o => flash (irDataStartAddress + o) : IRDataTable)[i.1]).ulStatus = _
  rw [getElem_ofBytes]
  rfl

theorem get_ulStatus_bytes (table : IRDataTable) (i : Fin maxIrCode) :
    (table.get i).ulStatus =
      bytes table (i * size IRDataT + 1) ++ bytes table (i * size IRDataT + 0) := by
  have hread := get_ulStatus_read (fun a => bytes table (a - irDataStartAddress)) i
  have htable : (Flash.read irDataStartAddress fun a => bytes table (a - irDataStartAddress)) =
      table := by
    rw [Flash.read]
    simp only [Nat.add_sub_cancel_left]
    exact ofBytes_bytes table
  rw [htable] at hread
  simp only [Nat.add_sub_cancel_left] at hread
  exact hread

/-- The status of a slot lies in the table. -/
theorem slot_lt (i : Fin maxIrCode) {k : ℕ} (hk : k < 2) :
    i * size IRDataT + k < size IRDataTable := by
  have hsize : 2 ≤ size IRDataT := by decide
  change i * size IRDataT + k < maxIrCode * size IRDataT
  calc i * size IRDataT + k < i * size IRDataT + size IRDataT := by omega
    _ = (i + 1) * size IRDataT := (Nat.succ_mul ..).symm
    _ ≤ maxIrCode * size IRDataT := Nat.mul_le_mul_right _ i.isLt

/-- The status that is found has the bits of the status that was written. -/
theorem CoversTable.ulStatus {table : IRDataTable} {flash : Flash} (h : CoversTable table flash)
    (i : Fin maxIrCode) :
    (table.get i).ulStatus &&&
        ((flash.read irDataStartAddress : IRDataTable).get i).ulStatus =
      (table.get i).ulStatus := by
  rw [get_ulStatus_read, get_ulStatus_bytes, BitVec.and_append, h _ (slot_lt i (by decide)),
    h _ (slot_lt i (by decide))]

/-- `IR_CODE_ENABLE` is a single bit. -/
theorem eq_irCodeEnable {x : BitVec 16} (h : x &&& irCodeEnable = x) (hne : x ≠ irCodeNone) :
    x = irCodeEnable := by
  have hbit : irCodeEnable = BitVec.twoPow 16 1 := by decide
  rw [hbit, BitVec.and_twoPow] at h
  split_ifs at h
  · exact h.symm.trans hbit.symm
  · exact absurd h.symm hne

/-- A slot that is found enabled was written as an enabled one. -/
theorem CoversTable.enabled {table : IRDataTable} {flash : Flash} (h : CoversTable table flash)
    (hset : StatusesSet table) {i : Fin maxIrCode}
    (henabled : ((flash.read irDataStartAddress : IRDataTable).get i).ulStatus = irCodeEnable) :
    (table.get i).ulStatus = irCodeEnable := by
  have hbits := h.ulStatus i
  rw [henabled] at hbits
  exact eq_irCodeEnable hbits (hset i)

/-- What is found has set statuses again. -/
theorem CoversTable.statusesSet {table : IRDataTable} {flash : Flash}
    (h : CoversTable table flash) (hset : StatusesSet table) :
    StatusesSet (flash.read irDataStartAddress : IRDataTable) := by
  intro i hnone
  have hbits := h.ulStatus i
  rw [hnone] at hbits
  exact hset i (hbits.symm.trans BitVec.and_zero)

/-! ## Operations and the page -/

/-- The erase of the page of the codes. -/
def eraseCodes : FsRequest := .erase (irDataStartAddress / eraseSize) 1

/-- The write of a table of codes into its page. -/
def writeCodes (table : IRDataTable) : FsRequest := .write irDataStartAddress (imageBytes table)

/-- The request leaves the page of the codes alone. -/
def OffPage : FsRequest → Prop
  | .write dest _ => irTrigStartAddress ≤ dest
  | .erase page _ => irTrigStartAddress / eraseSize ≤ page

/-- What lies in the place of the table is as before. -/
def SamePage (flash flash' : Flash) : Prop :=
  ∀ o < size IRDataTable, flash' (irDataStartAddress + o) = flash (irDataStartAddress + o)

theorem SamePage.covers {flash flash' : Flash} {src : ℕ → BitVec 8} (h : SamePage flash flash')
    (hcovers : flash.Covers irDataStartAddress src (size IRDataTable)) :
    flash'.Covers irDataStartAddress src (size IRDataTable) :=
  hcovers.of_eq h

section Operations

variable {op : FsOp} {flash : Flash} {table : IRDataTable}

theorem lt_irTrigStartAddress {o : ℕ} (ho : o < size IRDataTable) :
    irDataStartAddress + o < irTrigStartAddress :=
  Nat.add_lt_add_left (Nat.lt_of_lt_of_le ho size_irDataTable_le) _

theorem OffPage.samePage (h : OffPage op.request) (flash : Flash) (mask : ℕ → BitVec 8) :
    SamePage flash (op.execute flash) ∧ SamePage flash (op.tear mask flash) := by
  obtain ⟨request, progress⟩ := op
  cases request with
  | write dest src =>
    have hout (o) (ho : o < size IRDataTable) :
        ¬(dest + progress ≤ irDataStartAddress + o ∧ irDataStartAddress + o <
          dest + progress + FsOp.chunkWords src progress * programUnit) := by
      have hlt := lt_irTrigStartAddress ho
      change irTrigStartAddress ≤ dest at h
      omega
    exact ⟨fun o ho => if_neg (hout o ho), fun o ho => if_neg (hout o ho)⟩
  | erase page pagesToErase =>
    have hout (o) (ho : o < size IRDataTable) :
        ¬((page + progress) * eraseSize ≤ irDataStartAddress + o ∧ irDataStartAddress + o <
          (page + progress) * eraseSize + eraseSize) := by
      have hlt := lt_irTrigStartAddress ho
      change irTrigStartAddress / eraseSize ≤ page at h
      have hpage : irTrigStartAddress ≤ (page + progress) * eraseSize :=
        calc irTrigStartAddress = irTrigStartAddress / eraseSize * eraseSize := rfl
          _ ≤ (page + progress) * eraseSize :=
            Nat.mul_le_mul_right _ (h.trans (Nat.le_add_right ..))
      omega
    exact ⟨fun o ho => if_neg (hout o ho), fun o ho => if_neg (hout o ho)⟩

/-- The erase of the page is done in one part. -/
theorem progress_eraseCodes (hop : op.Valid) (h : op.request = eraseCodes) : op.progress = 0 := by
  obtain ⟨request, progress⟩ := op
  obtain rfl : request = eraseCodes := h
  exact Nat.lt_one_iff.mp hop.2.1

theorem erasedPage_execute (hop : op.Valid) (h : op.request = eraseCodes) :
    ErasedPage (op.execute flash) := by
  have hprogress := progress_eraseCodes hop h
  obtain ⟨request, progress⟩ := op
  obtain rfl : request = eraseCodes := h
  obtain rfl : progress = 0 := hprogress
  exact Flash.covers_erase (Nat.le_refl _) (Nat.add_le_add_left size_irDataTable_le _)

/-- An erase clears no bit, whatever part of it is done. -/
theorem covers_of_isErase {start len : ℕ} {src : ℕ → BitVec 8} (h : op.request.isErase = true)
    (hcovers : flash.Covers start src len) (mask : ℕ → BitVec 8) :
    (op.execute flash).Covers start src len ∧ (op.tear mask flash).Covers start src len := by
  obtain ⟨request, progress⟩ := op
  cases request with
  | write dest src => cases h
  | erase page pagesToErase => exact ⟨hcovers.erase, hcovers.tearErase mask⟩

/-- A write of the table clears none of its bits, whatever part of it is done. -/
theorem coversTable_of_write (hop : op.Valid) (h : op.request = writeCodes table)
    (hcovers : CoversTable table flash) (mask : ℕ → BitVec 8) :
    CoversTable table (op.execute flash) ∧ CoversTable table (op.tear mask flash) := by
  obtain ⟨request, progress⟩ := op
  obtain rfl : request = writeCodes table := h
  obtain ⟨⟨-, hlen⟩, hlt, hoffset⟩ := hop
  change progress < (imageBytes table).length at hlt
  have hwords : FsOp.chunkWords (imageBytes table) progress * programUnit =
      FsOp.chunkLen (imageBytes table) progress := FsOp.chunkWords_mul hlen hoffset hlt
  have hle := FsOp.chunkLen_le (Nat.le_of_lt hlt)
  have hbytes (o) (ho : o < FsOp.chunkWords (imageBytes table) progress * programUnit) :
      bytesFrom (imageBytes table) progress o = bytes table (progress + o) := by
    rw [bytesFrom, imageBytes, List.getD_eq_getElem?_getD, List.getElem?_map,
      List.getElem?_range]
    · rfl
    · rw [length_imageBytes] at hle
      omega
  constructor
  · refine Flash.Covers.program hcovers fun o ho => ?_
    rw [hbytes o ho]
    exact BitVec.and_self
  · refine Flash.Covers.program hcovers fun o ho => ?_
    rw [hbytes o ho]
    ext i
    simp only [BitVec.getElem_and, BitVec.getElem_or]
    cases (bytes table (progress + o))[i] <;> rfl

end Operations

/-! ## The calls of the stores -/

/-- The calls that may be left when none of a table is under way: erases and writes off the page,
an erase of the page, and tables that are saved. -/
inductive PageTodo : List FlashCall → Prop where
  | nil : PageTodo []
  | off {c : FlashCall} {todo : List FlashCall} : OffPage c.request → PageTodo todo →
      PageTodo (c :: todo)
  | erase {todo : List FlashCall} : PageTodo todo →
      PageTodo (.erase irDataStartAddress 1 :: todo)
  | save {table : IRDataTable} {todo : List FlashCall} : StatusesSet table → PageTodo todo →
      PageTodo (saveCalls irDataStartAddress table ++ todo)

theorem StatusesSet.set {table : IRDataTable} (h : StatusesSet table) (i : Fin maxIrCode)
    {e : IRDataT} (he : e.ulStatus ≠ irCodeNone) : StatusesSet (table.set i e i.isLt) := by
  intro j
  have hget : (table.set i e i.isLt).get j = _ := SlotTable.get_set i e j
  change (Vector.get (table.set i e i.isLt) j).ulStatus ≠ irCodeNone
  rw [hget]
  split_ifs
  · exact he
  · exact h j

theorem StatusesSet.removeCodeAt {s : StoreState} (h : StatusesSet s.tIRDataCommom)
    (ulEraseID : BitVec 16) (i : Fin maxIrCode) :
    StatusesSet (removeCodeAt ulEraseID s i).tIRDataCommom := by
  rw [tIRDataCommom_removeCodeAt]
  refine h.set i ?_
  rw [dropCode]
  split_ifs
  · exact (by decide : irCodeDisable ≠ irCodeNone)
  · exact h i

theorem StatusesSet.midInsertNewIRCode {s : StoreState} (h : StatusesSet s.tIRDataCommom)
    (tIRData : Vector (BitVec 8) sizeOfIRData) (uwLearnID : BitVec 16) :
    StatusesSet (midInsertNewIRCode tIRData uwLearnID s).2.tIRDataCommom := by
  cases hslot : freeCodeSlot s.tIRDataCommom with
  | none =>
    rw [midInsertNewIRCode_of_full hslot]
    exact h
  | some i =>
    rw [midInsertNewIRCode_of_free hslot]
    exact h.set i (by decide : irCodeEnable ≠ irCodeNone)

theorem StatusesSet.foldl_removeCodeAt (ulEraseID : BitVec 16) (slots : List (Fin maxIrCode))
    {s : StoreState} (h : StatusesSet s.tIRDataCommom) :
    StatusesSet (slots.foldl (IrRemote.removeCodeAt ulEraseID) s).tIRDataCommom := by
  induction slots generalizing s with
  | nil => exact h
  | cons i slots ih => exact ih (h.removeCodeAt ulEraseID i)

/-- No operation leaves a slot without a status. -/
theorem StatusesSet.storeStep {s : StoreState} (h : StatusesSet s.tIRDataCommom) (op : StoreOp) :
    StatusesSet (storeStep s op).tIRDataCommom := by
  cases op with
  | insertNewIRTrigger t =>
    dsimp only [IrRemote.storeStep]
    rw [(KeepsCodes.midInsertNewIRTrigger t.1 s).table]
    exact h
  | removeIRTrigger uwTrigID =>
    dsimp only [IrRemote.storeStep]
    rw [(KeepsCodes.midRemoveIRTrigger uwTrigID s).table]
    exact h
  | insertNewIRCode tIRData uwLearnID => exact h.midInsertNewIRCode tIRData uwLearnID
  | removeIRCode ulEraseID => exact h.foldl_removeCodeAt ulEraseID _
  | eraseAll =>
    intro i
    change (Vector.get (midEraseAllIRCode s).tIRDataCommom i).ulStatus ≠ irCodeNone
    rw [midEraseAllIRCode, SlotTable.get_map]
    exact (by decide : irCodeDisable ≠ irCodeNone)
  | motionSens ubMotionSensTemp => exact h

theorem pageTodo_saveTriggers {α : Type} [ByteImage α] (x : α) :
    PageTodo (saveCalls irTrigStartAddress x) :=
  .off (Nat.le_refl _) (.off (Nat.le_refl _) .nil)

theorem pageTodo_removeCodeCalls (ulEraseID : BitVec 16) (slots : List (Fin maxIrCode))
    {s : StoreState} (h : StatusesSet s.tIRDataCommom) :
    PageTodo (removeCodeCalls ulEraseID slots s) := by
  induction slots generalizing s with
  | nil => exact .nil
  | cons i slots ih =>
    have hround := h.removeCodeAt ulEraseID i
    rw [removeCodeCalls, removeCodeAtCalls]
    split_ifs
    · exact .save hround (ih hround)
    · exact ih hround

/-- The calls of an operation. -/
theorem pageTodo_storeCalls {s : StoreState} (h : StatusesSet s.tIRDataCommom) (op : StoreOp) :
    PageTodo (storeCalls s op) := by
  cases op with
  | insertNewIRTrigger t =>
    rw [storeCalls]
    split_ifs
    · exact pageTodo_saveTriggers _
    · exact .nil
  | removeIRTrigger uwTrigID =>
    rw [storeCalls]
    split_ifs
    · exact pageTodo_saveTriggers _
    · exact .nil
  | insertNewIRCode tIRData uwLearnID =>
    have hsave := PageTodo.save (h.midInsertNewIRCode tIRData uwLearnID) .nil
    rw [List.append_nil] at hsave
    rw [storeCalls]
    split_ifs
    · exact hsave
    · exact .nil
  | removeIRCode ulEraseID => exact pageTodo_removeCodeCalls ulEraseID _ h
  | eraseAll => exact .erase (.off (Nat.le_refl _) .nil)
  | motionSens ubMotionSensTemp => exact .nil

/-- The first of the calls that are left. -/
theorem PageTodo.cons {c : FlashCall} {todo : List FlashCall} (h : PageTodo (c :: todo)) :
    OffPage c.request ∧ PageTodo todo ∨ c = .erase irDataStartAddress 1 ∧
      (PageTodo todo ∨ ∃ table rest,
        todo = .write irDataStartAddress (imageBytes table) :: rest ∧ StatusesSet table ∧
          PageTodo rest) := by
  generalize hcalls : c :: todo = calls at h
  cases h with
  | nil => cases hcalls
  | off hoff hrest =>
    obtain ⟨rfl, rfl⟩ := List.cons.inj hcalls
    exact .inl ⟨hoff, hrest⟩
  | erase hrest =>
    obtain ⟨rfl, rfl⟩ := List.cons.inj hcalls
    exact .inr ⟨rfl, .inl hrest⟩
  | save hset hrest =>
    obtain ⟨rfl, rfl⟩ := List.cons.inj hcalls
    exact .inr ⟨rfl, .inr ⟨_, _, rfl, hset, hrest⟩⟩

/-- A write of a table is recorded as the table. -/
theorem savedCodes_write (table : IRDataTable) :
    FlashCall.savedCodes (.write irDataStartAddress (imageBytes table)) = [table] := by
  have htable : (ofBytes (bytesFrom (imageBytes table) 0) : IRDataTable) =
      ofBytes (bytes table) := by
    apply ofBytes_congr
    intro o ho
    rw [bytesFrom, Nat.zero_add, imageBytes, List.getD_eq_getElem?_getD, List.getElem?_map,
      List.getElem?_range ho]
    rfl
  rw [FlashCall.savedCodes, if_pos rfl, htable, ofBytes_bytes]

theorem savedCodes_offPage {c : FlashCall} (h : OffPage c.request) : c.savedCodes = [] := by
  cases c with
  | erase ulAddress ulLen => rfl
  | write ulAddress src =>
    rw [FlashCall.savedCodes, if_neg]
    rintro rfl
    exact absurd h (by decide : ¬irTrigStartAddress ≤ irDataStartAddress)

end IrRemote
