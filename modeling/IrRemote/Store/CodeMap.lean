import IrRemote.Library.FaultMachine
import IrRemote.Store.Reboot

/-!
# The codes as a map

The table of the codes is meant as a finite map from identifiers to codes. Its three scans
agree with that as long as no identifier is learned again while its code is stored and a slot
is free: the insertion does not look for the identifier, it takes the first free slot.

## Main definitions

* `CodeOp`, `codeStep` — the operations on the codes
* `CodeHistory`, `historyStep` — the store with the codes that were learned last
* `CodeMapLaw` — the store is the map of these codes
* `Relearns` — an identifier that is in use takes a second slot

## Main results

* `CodeMapInv.historyStep` — what an operation does to the map
* `code_store_map_iff` — the store is a map throughout the runs that do not relearn
-/

set_option autoImplicit false

namespace IrRemote

open FaultMachine (Along Throughout)

/-! ## Operations -/

/-- The operations on the codes. -/
inductive CodeOp where
  | insertNewIRCode (tIRData : Vector (BitVec 8) sizeOfIRData) (uwLearnID : BitVec 16)
  | removeIRCode (ulEraseID : BitVec 16)
  | eraseAllIRCode

/-- One operation. -/
def codeStep (s : StoreState) : CodeOp → StoreState
  | .insertNewIRCode tIRData uwLearnID => (midInsertNewIRCode tIRData uwLearnID s).2
  | .removeIRCode ulEraseID => (midRemoveIRCode ulEraseID s).2
  | .eraseAllIRCode => midEraseAllIRCode s

/-- The store, and for every identifier the code that was learned last and not removed. -/
structure CodeHistory where
  stores : StoreState
  learned : BitVec 16 → Option (Vector (BitVec 8) sizeOfIRData)

/-- One operation. A failed insertion leaves the map alone. -/
def historyStep (op : CodeOp) (h : CodeHistory) : Option CodeHistory :=
  some {
    stores := codeStep h.stores op
    learned := match op with
      | .insertNewIRCode tIRData uwLearnID =>
        if (midInsertNewIRCode tIRData uwLearnID h.stores).1 then
          Function.update h.learned uwLearnID (some tIRData)
        else h.learned
      | .removeIRCode ulEraseID => Function.update h.learned ulEraseID none
      | .eraseAllIRCode => fun _ => none }

/-- The slot holds an enabled code under the identifier. -/
def EnabledAt (table : IRDataTable) (i : ℕ) (uwID : BitVec 16) : Prop :=
  ∃ e, table[i]? = some e ∧ e.enabledID = some uwID

/-- The store is the map of the codes learned last. -/
structure CodeMapLaw (h : CodeHistory) : Prop where
  distinct : ∀ i j uwID, EnabledAt h.stores.tIRDataCommom i uwID →
    EnabledAt h.stores.tIRDataCommom j uwID → i = j
  found : ∀ uwID tIRData, h.learned uwID = some tIRData → ∃ i : ℕ,
    linearSerachID h.stores.tIRDataCommom uwID = i ∧
      (h.stores.tIRDataCommom[i]?).map IRDataT.irData = some tIRData
  absent : ∀ uwID, h.learned uwID = none → linearSerachID h.stores.tIRDataCommom uwID = -1
  emitted : ∀ pData len, appControlStartEmitIR pData len h.stores =
    h.learned (convertID pData (len.setWidth 8))
  emittedWithID : ∀ pData len, appControlStartEmitIRWithID pData len h.stores =
    h.learned (convertArrayToNumber pData (len.setWidth 8))
  full : ∀ tIRData uwLearnID, (midInsertNewIRCode tIRData uwLearnID h.stores).1 = false →
    ∃ ids : Fin maxIrCode → BitVec 16, Function.Injective ids ∧
      ∀ i : Fin maxIrCode, EnabledAt h.stores.tIRDataCommom i (ids i)

/-- An identifier is learned again that is in use, and a slot is free for its new code. -/
def Relearns (op : CodeOp) (h : CodeHistory) : Prop :=
  ∃ tIRData uwLearnID, op = .insertNewIRCode tIRData uwLearnID ∧
    (∃ i, EnabledAt h.stores.tIRDataCommom i uwLearnID) ∧
      ∃ e ∈ h.stores.tIRDataCommom, e.ulStatus ≠ irCodeEnable

/-! ## The map of the table -/

theorem enabledAt_iff {table : IRDataTable} {i : Fin maxIrCode} {uwID : BitVec 16} :
    EnabledAt table i uwID ↔ (table.get i).enabledID = some uwID := by
  rw [EnabledAt, Vector.getElem?_eq_getElem i.isLt]
  constructor
  · rintro ⟨e, he, hid⟩
    obtain rfl := Option.some.inj he
    exact hid
  · intro hid
    exact ⟨_, rfl, hid⟩

theorem EnabledAt.lt {table : IRDataTable} {i : ℕ} {uwID : BitVec 16}
    (h : EnabledAt table i uwID) : i < maxIrCode := by
  obtain ⟨e, he, -⟩ := h
  exact (Vector.getElem?_eq_some_iff.mp he).1

theorem freeCodeSlot_eq (table : IRDataTable) :
    freeCodeSlot table = SlotTable.free IRDataT.enabledID table := by
  unfold freeCodeSlot SlotTable.free
  congr 1
  funext i
  rw [decide_eq_decide, IRDataT.enabledID_eq_none]
  rfl

theorem ulStatus_of_freeCodeSlot {table : IRDataTable} {i : Fin maxIrCode}
    (h : freeCodeSlot table = some i) : (table.get i).ulStatus ≠ irCodeEnable := by
  rw [freeCodeSlot_eq] at h
  exact IRDataT.enabledID_eq_none.mp (SlotTable.key_of_free h)

theorem ulStatus_of_full {table : IRDataTable} (h : freeCodeSlot table = none) {e : IRDataT}
    (he : e ∈ table) : e.ulStatus = irCodeEnable := by
  rw [freeCodeSlot_eq, SlotTable.free_eq_none_iff] at h
  obtain ⟨i, hi, rfl⟩ := Vector.mem_iff_getElem.mp he
  by_contra hdisabled
  exact h ⟨i, hi⟩ (IRDataT.enabledID_eq_none.mpr hdisabled)

/-- The map of the codes that the table holds. -/
def codeMap (table : IRDataTable) : BitVec 16 → Option (Vector (BitVec 8) sizeOfIRData) :=
  SlotTable.toMap IRDataT.enabledID IRDataT.irData table

/-- No identifier is enabled twice, and the table holds what was learned. -/
structure CodeMapInv (h : CodeHistory) : Prop where
  distinct : SlotTable.Distinct IRDataT.enabledID h.stores.tIRDataCommom
  learned : h.learned = codeMap h.stores.tIRDataCommom

namespace CodeMapInv

variable {h h' : CodeHistory}

/-- An insertion fails when every slot holds an enabled code. -/
theorem full (hinv : CodeMapInv h) (hfull : freeCodeSlot h.stores.tIRDataCommom = none) :
    ∃ ids : Fin maxIrCode → BitVec 16, Function.Injective ids ∧
      ∀ i : Fin maxIrCode, EnabledAt h.stores.tIRDataCommom i (ids i) := by
  rw [freeCodeSlot_eq, SlotTable.free_eq_none_iff] at hfull
  obtain ⟨ids, hinj, hids⟩ := hinv.distinct.exists_injective hfull
  exact ⟨ids, hinj, fun i => enabledAt_iff.mpr (hids i)⟩

theorem codeMapLaw (hinv : CodeMapInv h) : CodeMapLaw h where
  distinct i j uwID hi hj := by
    have hslots := hinv.distinct ⟨i, hi.lt⟩ ⟨j, hj.lt⟩ uwID (enabledAt_iff.mp hi)
      (enabledAt_iff.mp hj)
    exact congrArg Fin.val hslots
  found uwID tIRData hlearned := by
    rw [hinv.learned, codeMap, SlotTable.toMap, Option.map_eq_some_iff] at hlearned
    obtain ⟨i, hfind, hdata⟩ := hlearned
    refine ⟨i, ?_, ?_⟩
    · rw [linearSerachID_eq, hfind]
      rfl
    · rw [Vector.getElem?_eq_getElem i.isLt, ← hdata]
      rfl
  absent uwID hlearned := by
    rw [hinv.learned, codeMap, SlotTable.toMap, Option.map_eq_none_iff] at hlearned
    rw [linearSerachID_eq, hlearned]
    rfl
  emitted pData len := by
    rw [hinv.learned]
    exact codeToEmit_eq_toMap _ _
  emittedWithID pData len := by
    rw [hinv.learned]
    exact codeToEmit_eq_toMap _ _
  full tIRData uwLearnID hfail := by
    -- an insertion that fails has found no free slot
    cases hslot : freeCodeSlot h.stores.tIRDataCommom with
    | none => exact hinv.full hslot
    | some i =>
      rw [midInsertNewIRCode_of_free hslot] at hfail
      cases hfail

/-- A new identifier takes a free slot. -/
theorem insert (hinv : CodeMapInv h) {tIRData : Vector (BitVec 8) sizeOfIRData}
    {uwLearnID : BitVec 16} (hop : ¬Relearns (.insertNewIRCode tIRData uwLearnID) h)
    (hstep : historyStep (.insertNewIRCode tIRData uwLearnID) h = some h') : CodeMapInv h' := by
  cases hslot : freeCodeSlot h.stores.tIRDataCommom with
  | none =>
    rw [historyStep, codeStep, midInsertNewIRCode_of_full hslot] at hstep
    exact Option.some.inj hstep ▸ hinv
  | some i =>
    have hnew : ∀ j : Fin maxIrCode, (h.stores.tIRDataCommom.get j).enabledID ≠ some uwLearnID := by
      intro j hj
      apply hop
      exact ⟨tIRData, uwLearnID, rfl, ⟨j, enabledAt_iff.mpr hj⟩, h.stores.tIRDataCommom.get i,
        Vector.getElem_mem i.isLt, ulStatus_of_freeCodeSlot hslot⟩
    have hfree := hslot
    rw [freeCodeSlot_eq] at hfree
    rw [historyStep, codeStep, midInsertNewIRCode_of_free hslot] at hstep
    obtain rfl := Option.some.inj hstep
    constructor
    · exact hinv.distinct.set (if_pos rfl) fun j hj => absurd hj (hnew j)
    · rw [hinv.learned]
      apply Eq.symm
      apply hinv.distinct.toMap_set (SlotTable.key_of_free hfree) _ hnew
      exact if_pos rfl

theorem remove (hinv : CodeMapInv h) {ulEraseID : BitVec 16}
    (hstep : historyStep (.removeIRCode ulEraseID) h = some h') : CodeMapInv h' := by
  obtain rfl := Option.some.inj hstep
  have htable := tIRDataCommom_midRemoveIRCode ulEraseID h.stores
  constructor
  · rw [codeStep, htable]
    apply hinv.distinct.map
    intro e uwID he
    rw [dropCode] at he
    split_ifs at he with hdrop
    · rw [IRDataT.enabledID, if_neg irCodeDisable_ne_enable] at he
      cases he
    · exact he
  · rw [codeStep, htable, hinv.learned, codeMap, codeMap]
    apply Eq.symm
    apply SlotTable.toMap_map
    · intro e he
      rw [dropCode, if_pos he, IRDataT.enabledID, if_neg irCodeDisable_ne_enable]
    · intro e he
      exact dropCode_of_ne he

theorem eraseAll (hstep : historyStep .eraseAllIRCode h = some h') : CodeMapInv h' := by
  obtain rfl := Option.some.inj hstep
  have hempty : ∀ i : Fin maxIrCode,
      ((midEraseAllIRCode h.stores).tIRDataCommom.get i).enabledID = none := by
    intro i
    rw [midEraseAllIRCode, SlotTable.get_map, IRDataT.enabledID,
      if_neg irCodeDisable_ne_enable]
  exact ⟨.of_empty hempty, (SlotTable.toMap_of_empty hempty).symm⟩

/-- An operation that does not relearn an identifier keeps the map. -/
theorem historyStep (hinv : CodeMapInv h) {op : CodeOp} (hop : ¬Relearns op h)
    (hstep : historyStep op h = some h') : CodeMapInv h' := by
  cases op with
  | insertNewIRCode tIRData uwLearnID => exact hinv.insert hop hstep
  | removeIRCode ulEraseID => exact hinv.remove hstep
  | eraseAllIRCode => exact eraseAll hstep

/-- An identifier that is learned again is in use twice. -/
theorem not_codeMapLaw {op : CodeOp} (hop : Relearns op h) :
    ∃ h', IrRemote.historyStep op h = some h' ∧ ¬CodeMapLaw h' := by
  obtain ⟨tIRData, uwLearnID, rfl, ⟨i, hi⟩, e, he, hdisabled⟩ := hop
  refine ⟨_, rfl, ?_⟩
  intro hlaw
  cases hslot : freeCodeSlot h.stores.tIRDataCommom with
  | none => exact hdisabled (ulStatus_of_full hslot he)
  | some j =>
    have hdistinct := hlaw.distinct j i uwLearnID
    rw [codeStep, midInsertNewIRCode_of_free hslot] at hdistinct
    have hij : (j : ℕ) ≠ i := by
      rintro rfl
      rw [freeCodeSlot_eq] at hslot
      have hused := enabledAt_iff.mp hi
      rw [SlotTable.key_of_free hslot] at hused
      cases hused
    apply hij
    apply hdistinct
    · exact ⟨_, Vector.getElem?_set_self j.isLt, if_pos rfl⟩
    · obtain ⟨e, he, hid⟩ := hi
      exact ⟨e, (Vector.getElem?_set_ne j.isLt hij).trans he, hid⟩

end CodeMapInv

/-! ## Runs -/

/-- Behind every part of a run from a store without enabled codes the store is the map of the
codes that were learned last, exactly when no step of the run learns an identifier again whose
code is stored while a slot is free. -/
theorem code_store_map_iff {s : StoreState} (hempty : ∀ i uwID, ¬EnabledAt s.tIRDataCommom i uwID)
    (ops : List CodeOp) :
    Throughout historyStep CodeMapLaw ops ⟨s, fun _ => none⟩ ↔
      Along historyStep (fun op h => ¬Relearns op h) ops ⟨s, fun _ => none⟩ := by
  have hslots : ∀ i : Fin maxIrCode, (s.tIRDataCommom.get i).enabledID = none := by
    intro i
    rw [Option.eq_none_iff_forall_ne_some]
    intro uwID hi
    exact hempty i uwID (enabledAt_iff.mpr hi)
  have hinv : CodeMapInv ⟨s, fun _ => none⟩ :=
    ⟨.of_empty hslots, (SlotTable.toMap_of_empty hslots).symm⟩
  refine FaultMachine.throughout_iff_along CodeMapInv ?_ ?_ ?_ hinv
  · intro op h h' hinv hop hstep
    exact hinv.historyStep hop hstep
  · intro h hinv
    exact hinv.codeMapLaw
  · intro op h _ hop
    exact CodeMapInv.not_codeMapLaw (not_not.mp hop)

/-- No code is enabled in a blank flash. -/
theorem not_enabledAt_blankStores (i : ℕ) (uwID : BitVec 16) :
    ¬EnabledAt blankStores.tIRDataCommom i uwID := by
  rintro ⟨e, he, hid⟩
  obtain ⟨hi, rfl⟩ := Vector.getElem?_eq_some_iff.mp he
  have hslot : blankStores.tIRDataCommom[i] = ByteImage.ofBytes fun _ => 0xFF :=
    ByteImage.getElem_ofBytes _ hi
  rw [hslot] at hid
  cases hid

/-- A code of which all bytes are the same. -/
def uniformCode (b : BitVec 8) : Vector (BitVec 8) sizeOfIRData := Vector.replicate sizeOfIRData b

theorem code_store_map_iff_one :
    Throughout historyStep CodeMapLaw [.insertNewIRCode (uniformCode 1) 1, .removeIRCode 1]
      ⟨blankStores, fun _ => none⟩ := by
  refine (code_store_map_iff not_enabledAt_blankStores _).mpr
    ⟨?_, fun h _ => ⟨?_, fun _ _ => trivial⟩⟩
  · rintro ⟨_, _, _, ⟨i, hi⟩, -⟩
    exact not_enabledAt_blankStores i _ hi
  · rintro ⟨_, _, hop, -⟩
    cases hop

/-- An identifier is learned twice: it is in use twice, and its first code is sent. -/
theorem relearned_code_not_sent :
    ¬∀ s : StoreState, (∀ i uwID, ¬EnabledAt s.tIRDataCommom i uwID) → ∀ ops : List CodeOp,
      Throughout historyStep CodeMapLaw ops ⟨s, fun _ => none⟩ := by
  intro h
  have hrun := h blankStores not_enabledAt_blankStores
    [.insertNewIRCode (uniformCode 1) 1, .insertNewIRCode (uniformCode 2) 1]
  have hlaw : CodeMapLaw _ := (hrun.2 _ rfl).2 _ rfl
  have hsent := hlaw.emitted (fun _ => 0x31) 1
  revert hsent
  decide +kernel

end IrRemote
