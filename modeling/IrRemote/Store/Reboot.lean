import IrRemote.App.Control

/-!
# The stores over a reboot

Runs of the operations on the two stores, and what `Mid_FlashInit` reads back behind them.
The table of the triggers and its page agree but for the removal of a trigger, which writes
the table of the codes.

## Main definitions

* `activeTriggers` — the triggers of a table as the user sees them
* `StoreOp`, `storeStep`, `runStore` — the operations and their runs
* `Survives` — a reboot keeps the active triggers
* `lastRemoval` — the removal that wrote the page of the triggers last

## Main results

* `PageAgrees.storeStep` — what one operation does to the agreement
* `trigger_store_survives_iff` — when a run is survived
* `removal_loses_trigger` — two triggers, of which one is removed
-/

set_option autoImplicit false

namespace IrRemote

/-! ## The triggers as the user sees them -/

/-- A trigger without its done flag, if it is active. -/
def activeTrigger (t : IrDataTrigger) : Option IrDataTrigger :=
  if t.isActive then some { t with ubTriggerDone := 0 } else none

/-- The active triggers by slot. -/
def activeTriggers (table : IRTriggerTable) : Vector (Option IrDataTrigger) maxIrCode :=
  table.map activeTrigger

/-- A table without any active trigger. -/
theorem activeTriggers_eq_replicate {table : IRTriggerTable}
    (h : ∀ (i : ℕ) (hi : i < maxIrCode), table[i].isActive = false) :
    activeTriggers table = Vector.replicate maxIrCode none := by
  ext i hi : 1
  rw [activeTriggers, Vector.getElem_map, Vector.getElem_replicate, activeTrigger]
  exact if_neg (Bool.eq_false_iff.mp (h i hi))

/-- A reboot keeps the active triggers. -/
def Survives (s : StoreState) : Prop :=
  activeTriggers (midFlashInit s).atIRDataTrigger = activeTriggers s.atIRDataTrigger

instance (s : StoreState) : Decidable (Survives s) :=
  inferInstanceAs (Decidable (_ = _))

theorem survives_iff (s : StoreState) :
    Survives s ↔ activeTriggers (flashTriggers s.flash) = activeTriggers s.atIRDataTrigger := by
  rw [Survives, midFlashInit_atIRDataTrigger]

theorem KeepsTriggers.survives_iff {s s' : StoreState} (h : KeepsTriggers s s') :
    Survives s' ↔ Survives s := by
  rw [IrRemote.survives_iff, IrRemote.survives_iff, h.table, h.page]

theorem survives_midFlashInit (s : StoreState) : Survives (midFlashInit s) := by
  rw [survives_iff, midFlashInit_atIRDataTrigger]
  rfl

/-! ## Runs -/

/-- The operations on the stores, and the reception of a sensitivity between them. -/
inductive StoreOp where
  | insertNewIRTrigger (tIRDataTrigger : { t : IrDataTrigger // t.isActive })
  | removeIRTrigger (uwTrigID : BitVec 16)
  | insertNewIRCode (tIRData : Vector (BitVec 8) sizeOfIRData) (uwLearnID : BitVec 16)
  | removeIRCode (ulEraseID : BitVec 16)
  | eraseAll
  | motionSens (ubMotionSensTemp : BitVec 8)

/-- One operation. -/
def storeStep (s : StoreState) : StoreOp → StoreState
  | .insertNewIRTrigger t => (midInsertNewIRTrigger t s).2
  | .removeIRTrigger uwTrigID => (midRemoveIRTrigger uwTrigID s).2
  | .insertNewIRCode tIRData uwLearnID => (midInsertNewIRCode tIRData uwLearnID s).2
  | .removeIRCode ulEraseID => (midRemoveIRCode ulEraseID s).2
  | .eraseAll => appControlEraseAll s
  | .motionSens ubMotionSensTemp => { s with ubMotionSensTemp }

/-- The operations one after the other. -/
def runStore (s : StoreState) (ops : List StoreOp) : StoreState := ops.foldl storeStep s

/-- The first start of a device, from any content of the RAM. -/
def bootBlank (s : StoreState) : StoreState := midFlashInit { s with flash := Flash.blank }

/-- A removal of a trigger: the stores in front of it, and the slot. -/
structure Removal where
  stores : StoreState
  slot : Fin maxIrCode

/-- The table of the codes starts with the bytes of the triggers that a removal leaves. -/
def Removal.Kept (r : Removal) : Prop :=
  activeTriggers (codesAsTriggers r.stores.tIRDataCommom) =
    activeTriggers (clearTrigger r.stores.atIRDataTrigger r.slot)

instance (r : Removal) : Decidable r.Kept := inferInstanceAs (Decidable (_ = _))

/-- The removal that wrote the page of the triggers last, if a removal did. An operation
that fails writes nothing. -/
def noteRemoval (s : StoreState) (last : Option Removal) : StoreOp → Option Removal
  | .insertNewIRTrigger t => if (midInsertNewIRTrigger t s).1 then none else last
  | .removeIRTrigger uwTrigID =>
    ((triggerSlot s.atIRDataTrigger uwTrigID).map (Removal.mk s)).or last
  | .eraseAll => none
  | _ => last

/-- `noteRemoval` along a run. -/
def lastRemoval (s : StoreState) (last : Option Removal) : List StoreOp → Option Removal
  | [] => last
  | op :: ops => lastRemoval (storeStep s op) (noteRemoval s last op) ops

/-! ## What an operation does to the agreement -/

theorem survives_storeTrigger (i : Fin maxIrCode) (t : IrDataTrigger) (s : StoreState) :
    Survives (storeTrigger i t s) := by
  rw [survives_iff, flashTriggers_storeTrigger]

theorem survives_dropTrigger_iff (i : Fin maxIrCode) (s : StoreState) :
    Survives (dropTrigger i s) ↔ (Removal.mk s i).Kept := by
  rw [survives_iff, flashTriggers_dropTrigger]
  rfl

/-- Erased bytes are no active trigger. -/
theorem activeTriggers_erased :
    activeTriggers (ByteImage.ofBytes fun _ => 0xFF) = Vector.replicate maxIrCode none := by
  apply activeTriggers_eq_replicate
  intro i hi
  rw [ByteImage.getElem_ofBytes]
  rfl

theorem activeTriggers_midEraseAllITrigger (s : StoreState) :
    activeTriggers (midEraseAllITrigger s).atIRDataTrigger = Vector.replicate maxIrCode none := by
  apply activeTriggers_eq_replicate
  intro i hi
  rw [midEraseAllITrigger, Vector.getElem_map]
  rfl

theorem survives_appControlEraseAll (s : StoreState) : Survives (appControlEraseAll s) := by
  rw [survives_iff, flashTriggers_appControlEraseAll, activeTriggers_erased]
  exact (activeTriggers_midEraseAllITrigger _).symm

/-- The page of the triggers holds what is expected behind the last removal. -/
def PageAgrees (s : StoreState) (last : Option Removal) : Prop :=
  Survives s ↔ ∀ r, last = some r → r.Kept

namespace PageAgrees

variable {s s' : StoreState} {last : Option Removal}

theorem of_survives (h : Survives s) : PageAgrees s none := by
  refine iff_of_true h ?_
  rintro r ⟨⟩

theorem of_keepsTriggers (h : PageAgrees s last) (hs : KeepsTriggers s s') : PageAgrees s' last :=
  hs.survives_iff.trans h

theorem storeStep (h : PageAgrees s last) (op : StoreOp) :
    PageAgrees (storeStep s op) (noteRemoval s last op) := by
  cases op with
  | insertNewIRTrigger t =>
    rw [IrRemote.storeStep, noteRemoval]
    -- a failed insertion leaves the page as it was
    obtain hfail | ⟨i, t', s', hstore⟩ := midInsertNewIRTrigger_cases t s
    · rw [hfail]
      exact h
    · rw [hstore]
      exact of_survives (survives_storeTrigger i t' s')
  | removeIRTrigger uwTrigID =>
    rw [IrRemote.storeStep, noteRemoval]
    cases hslot : triggerSlot s.atIRDataTrigger uwTrigID with
    | none =>
      rw [midRemoveIRTrigger_of_none hslot]
      exact h
    | some i =>
      -- the one operation that writes another table than its own
      rw [midRemoveIRTrigger_of_slot hslot, PageAgrees, survives_dropTrigger_iff]
      constructor
      · rintro hkept r ⟨⟩
        exact hkept
      · intro hkept
        exact hkept _ rfl
  | insertNewIRCode tIRData uwLearnID =>
    exact h.of_keepsTriggers (.midInsertNewIRCode tIRData uwLearnID s)
  | removeIRCode ulEraseID => exact h.of_keepsTriggers (.midRemoveIRCode ulEraseID s)
  | eraseAll => exact of_survives (survives_appControlEraseAll s)
  | motionSens ubMotionSensTemp => exact h.of_keepsTriggers ⟨rfl, rfl⟩

theorem runStore (h : PageAgrees s last) (ops : List StoreOp) :
    PageAgrees (runStore s ops) (lastRemoval s last ops) := by
  induction ops generalizing s last with
  | nil => exact h
  | cons op ops ih => exact ih (h.storeStep op)

end PageAgrees

/-! ## Runs from a blank flash -/

/-- The active triggers survive a reboot exactly when the last removal behind which no
insertion and no erasure succeeded left the triggers with whose bytes the table of the codes
starts. -/
theorem trigger_store_survives_iff (s : StoreState) (ops : List StoreOp) :
    Survives (runStore (bootBlank s) ops) ↔
      ∀ r, lastRemoval (bootBlank s) none ops = some r → r.Kept :=
  (PageAgrees.of_survives (survives_midFlashInit _)).runStore ops

/-- The stores of a device that was never used. -/
def blankStores : StoreState where
  tIRDataCommom := Flash.blank.read irDataStartAddress
  atIRDataTrigger := Flash.blank.read irTrigStartAddress
  ubIRCount := 0
  ubIRTriggerCount := 0
  ubMotionSensTemp := 0
  flash := Flash.blank

/-- A motion trigger. -/
def motionOf (uwTrigID uwIrCode : BitVec 8) : { t : IrDataTrigger // t.isActive } :=
  ⟨{ ubMode := motionTrigger, uwTrigID, uwIrCode, ubDays := 0, tTime1 := ⟨0, 0⟩, tTime2 := ⟨0, 0⟩,
     ulTimeout := 0, ubMotionSen := 0, ubTriggerDone := 0 }, rfl⟩

/-- Two triggers are inserted and the first one is removed: the second one is lost. -/
theorem removal_loses_trigger :
    ¬∀ (s : StoreState) (ops : List StoreOp), Survives (runStore (bootBlank s) ops) := by
  intro h
  have hlost : ¬Survives (runStore (bootBlank blankStores) [.insertNewIRTrigger (motionOf 1 1),
      .insertNewIRTrigger (motionOf 2 2), .removeIRTrigger 1]) := by
    decide +kernel
  exact hlost (h blankStores _)

end IrRemote
