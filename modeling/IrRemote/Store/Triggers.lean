import IrRemote.Library.FaultMachine
import IrRemote.Store.Reboot

/-!
# The triggers as a table

What the insertion and the removal of a trigger promise for the table of the triggers. The
scans for an identifier take every slot for used whose mode is not `NONE`, also one that was
read from erased flash: such a slot blocks the identifier 0xFF.

## Main definitions

* `TriggerCall`, `triggerStep` — the operations on the triggers
* `InsertSpec`, `RemoveSpec` — what they promise for the table
* `TriggerInv` — what every reachable table satisfies

## Main results

* `TriggerInv.triggerStep` — every operation keeps the invariant
* `trigger_table_spec_iff` — the promises are kept but for the identifier of the erased slots
-/

set_option autoImplicit false

namespace IrRemote

/-! ## Operations and their specification -/

/-- The operations on the triggers. -/
inductive TriggerCall where
  | insertNewIRTrigger (tIRDataTrigger : { t : IrDataTrigger // t.isActive })
  | removeIRTrigger (uwTrigID : BitVec 16)
  | eraseAllITrigger

/-- One operation. -/
def triggerStep : TriggerCall → StoreState → Option StoreState
  | .insertNewIRTrigger t, s => some (midInsertNewIRTrigger t s).2
  | .removeIRTrigger uwTrigID, s => some (midRemoveIRTrigger uwTrigID s).2
  | .eraseAllITrigger, s => some (midEraseAllITrigger s)

/-- The identifier of an active trigger. -/
def IrDataTrigger.activeID (t : IrDataTrigger) : Option (BitVec 8) :=
  if t.isActive then some t.uwTrigID else none

/-- An insertion succeeds when a slot is not active and no active slot has the identifier. It
puts the trigger into a slot that was not active, up to the sensitivity. -/
structure InsertSpec (t : IrDataTrigger) (s : StoreState) : Prop where
  succeeds_iff : (midInsertNewIRTrigger t s).1 = true ↔
    (∃ u ∈ s.atIRDataTrigger, u.isActive = false) ∧
      ∀ u ∈ s.atIRDataTrigger, u.activeID ≠ some t.uwTrigID
  success : (midInsertNewIRTrigger t s).1 = true →
    ∃ (i : Fin maxIrCode) (ubMotionSen : BitVec 8), (s.atIRDataTrigger.get i).isActive = false ∧
      (midInsertNewIRTrigger t s).2.atIRDataTrigger =
        s.atIRDataTrigger.set i { t with ubMotionSen } i.isLt
  failure : (midInsertNewIRTrigger t s).1 = false →
    (midInsertNewIRTrigger t s).2.atIRDataTrigger = s.atIRDataTrigger

/-- A removal succeeds when an active slot has the identifier. Only this slot changes, and it
is not active any more. -/
structure RemoveSpec (uwTrigID : BitVec 8) (s : StoreState) : Prop where
  succeeds_iff : (midRemoveIRTrigger (uwTrigID.setWidth 16) s).1 = true ↔
    ∃ u ∈ s.atIRDataTrigger, u.activeID = some uwTrigID
  success : (midRemoveIRTrigger (uwTrigID.setWidth 16) s).1 = true →
    ∃ (i : Fin maxIrCode) (u : IrDataTrigger),
      (s.atIRDataTrigger.get i).activeID = some uwTrigID ∧ u.isActive = false ∧
        (midRemoveIRTrigger (uwTrigID.setWidth 16) s).2.atIRDataTrigger =
          s.atIRDataTrigger.set i u i.isLt
  failure : (midRemoveIRTrigger (uwTrigID.setWidth 16) s).1 = false →
    (midRemoveIRTrigger (uwTrigID.setWidth 16) s).2.atIRDataTrigger = s.atIRDataTrigger

theorem InsertSpec.of_fail {t : IrDataTrigger} {s : StoreState}
    (h : midInsertNewIRTrigger t s = (false, s))
    (hnot : ¬((∃ u ∈ s.atIRDataTrigger, u.isActive = false) ∧
      ∀ u ∈ s.atIRDataTrigger, u.activeID ≠ some t.uwTrigID)) : InsertSpec t s where
  succeeds_iff := by
    rw [h]
    exact iff_of_false Bool.false_ne_true hnot
  success hsuccess := by
    rw [h] at hsuccess
    cases hsuccess
  failure _ := by rw [h]

theorem RemoveSpec.of_fail {uwTrigID : BitVec 8} {s : StoreState}
    (h : midRemoveIRTrigger (uwTrigID.setWidth 16) s = (false, s))
    (hnot : ¬∃ u ∈ s.atIRDataTrigger, u.activeID = some uwTrigID) : RemoveSpec uwTrigID s where
  succeeds_iff := by
    rw [h]
    exact iff_of_false Bool.false_ne_true hnot
  success hsuccess := by
    rw [h] at hsuccess
    cases hsuccess
  failure _ := by rw [h]

/-- No two active triggers have one identifier. -/
def DistinctTriggers (table : IRTriggerTable) : Prop :=
  SlotTable.Distinct IrDataTrigger.activeID table

/-- A slot that was read from erased flash. -/
def IrDataTrigger.isErased (t : IrDataTrigger) : Bool := t.ubMode = 0xFF

/-! ## The invariant -/

theorem IrDataTrigger.activeID_eq_some {t : IrDataTrigger} {uwTrigID : BitVec 8} :
    t.activeID = some uwTrigID ↔ t.isActive = true ∧ t.uwTrigID = uwTrigID := by
  rw [IrDataTrigger.activeID]
  split_ifs with hactive
  · simp only [Option.some.injEq, hactive, true_and]
  · simp only [hactive, false_and, Bool.false_eq_true]

theorem IrDataTrigger.activeID_eq_none {t : IrDataTrigger} :
    t.activeID = none ↔ t.isActive = false := by
  rw [IrDataTrigger.activeID]
  split_ifs with hactive
  · simp only [hactive, Bool.true_eq_false]
  · simp only [hactive]

theorem IrDataTrigger.ubMode_of_isActive {t : IrDataTrigger} (h : t.isActive = true) :
    t.ubMode ≠ modeNone ∧ t.isErased = false := by
  simp only [IrDataTrigger.isActive, Bool.or_eq_true, decide_eq_true_eq] at h
  rw [IrDataTrigger.isErased, decide_eq_false_iff_not]
  obtain ((h | h) | h) | h := h <;> rw [h] <;> decide

theorem IrDataTrigger.hasID_iff {t : IrDataTrigger} {uwTrigID : BitVec 8} :
    t.hasID (uwTrigID.setWidth 16) = true ↔ t.uwTrigID = uwTrigID ∧ t.ubMode ≠ modeNone := by
  have hinj : t.uwTrigID.setWidth 16 = uwTrigID.setWidth 16 ↔ t.uwTrigID = uwTrigID := by
    constructor
    · intro h
      have := congrArg (BitVec.setWidth 8) h
      simpa using this
    · rintro rfl
      rfl
  rw [IrDataTrigger.hasID, Bool.and_eq_true, decide_eq_true_eq, decide_eq_true_eq, hinj]

/-- A slot is active, cleared or erased, and an erased slot keeps the others from its own
identifier. -/
structure TriggerInv (table : IRTriggerTable) : Prop where
  distinct : DistinctTriggers table
  mode : ∀ t ∈ table, t.isActive = true ∨ t.ubMode = modeNone ∨
    t.isErased = true ∧ t.uwTrigID = 0xFF
  erased : (∃ t ∈ table, t.isErased = true) → ∀ t ∈ table, t.activeID ≠ some 0xFF

namespace TriggerInv

variable {table : IRTriggerTable} {s s' : StoreState}

/-- The table of a device that starts with a blank flash. -/
theorem erasedTable : TriggerInv (flashTriggers Flash.blank) := by
  have hslot : ∀ t ∈ flashTriggers Flash.blank, t = ByteImage.ofBytes fun _ => 0xFF := by
    intro t ht
    obtain ⟨i, rfl⟩ := SlotTable.mem_iff.mp ht
    exact ByteImage.getElem_ofBytes _ i.isLt
  constructor
  · apply SlotTable.Distinct.of_empty
    intro i
    rw [hslot _ (SlotTable.get_mem i)]
    rfl
  · intro t ht
    rw [hslot t ht]
    exact .inr (.inr ⟨rfl, rfl⟩)
  · intro _ t ht
    rw [hslot t ht]
    decide

/-- A slot other than an erased one is found under its identifier when it is active. -/
theorem hasID_iff (h : TriggerInv table) {uwTrigID : BitVec 8}
    (hid : uwTrigID = 0xFF → ∀ t ∈ table, t.isErased = false) {t : IrDataTrigger} (ht : t ∈ table) :
    t.hasID (uwTrigID.setWidth 16) = true ↔ t.activeID = some uwTrigID := by
  rw [IrDataTrigger.hasID_iff, IrDataTrigger.activeID_eq_some]
  constructor
  · rintro ⟨rfl, hmode⟩
    obtain hactive | hnone | ⟨herased, hff⟩ := h.mode t ht
    · exact ⟨hactive, rfl⟩
    · exact absurd hnone hmode
    · rw [hid hff t ht] at herased
      cases herased
  · rintro ⟨hactive, rfl⟩
    exact ⟨rfl, (IrDataTrigger.ubMode_of_isActive hactive).1⟩

/-- An erased slot is found under its identifier. -/
theorem hasID_of_isErased (h : TriggerInv table) {t : IrDataTrigger} (ht : t ∈ table)
    (herased : t.isErased = true) {uwTrigID : BitVec 8} (hid : uwTrigID = 0xFF) :
    t.hasID (uwTrigID.setWidth 16) = true := by
  rw [IrDataTrigger.hasID_iff, hid]
  have hmode : t.ubMode = 0xFF := of_decide_eq_true herased
  obtain hactive | hnone | ⟨-, hff⟩ := h.mode t ht
  · rw [(IrDataTrigger.ubMode_of_isActive hactive).2] at herased
    cases herased
  · rw [IrDataTrigger.isErased, hnone] at herased
    cases herased
  · refine ⟨hff, ?_⟩
    rw [hmode]
    decide

/-- The scan for an identifier finds the active trigger of that identifier. -/
theorem triggerSlot_eq (h : TriggerInv table) {uwTrigID : BitVec 8}
    (hid : uwTrigID = 0xFF → ∀ t ∈ table, t.isErased = false) :
    triggerSlot table (uwTrigID.setWidth 16) =
      SlotTable.find IrDataTrigger.activeID table uwTrigID := by
  unfold triggerSlot SlotTable.find
  congr 1
  funext i
  rw [Bool.eq_iff_iff, decide_eq_true_iff]
  exact h.hasID_iff hid (SlotTable.get_mem i)

end TriggerInv

theorem hasID_of_triggerSlot {table : IRTriggerTable} {uwTrigID : BitVec 16}
    (h : triggerSlot table uwTrigID = none) {t : IrDataTrigger} (ht : t ∈ table) :
    t.hasID uwTrigID = false := by
  obtain ⟨i, rfl⟩ := SlotTable.mem_iff.mp ht
  exact Fin.find?_eq_none_iff.mp h i

theorem freeTriggerSlot_eq (table : IRTriggerTable) :
    freeTriggerSlot table = SlotTable.free IrDataTrigger.activeID table := by
  unfold freeTriggerSlot SlotTable.free
  congr 1
  funext i
  rw [Bool.eq_iff_iff, decide_eq_true_iff, IrDataTrigger.activeID_eq_none, Bool.not_eq_true']
  rfl

namespace TriggerInv

variable {table : IRTriggerTable} {s s' : StoreState}

/-! ## Steps -/

/-- Membership in a table of which one slot was changed. -/
theorem mem_set {i : Fin maxIrCode} {t u : IrDataTrigger} (h : u ∈ table.set i t i.isLt) :
    u = t ∨ u ∈ table := by
  obtain ⟨j, rfl⟩ := SlotTable.mem_iff.mp h
  rw [SlotTable.get_set]
  split_ifs
  · exact .inl rfl
  · exact .inr (SlotTable.get_mem j)

/-- A trigger under a new identifier is stored in a slot that is not active. -/
theorem set (h : TriggerInv table) {i : Fin maxIrCode} {t : IrDataTrigger}
    (ht : t.isActive = true) (hnew : triggerSlot table (t.uwTrigID.setWidth 16) = none) :
    TriggerInv (table.set i t i.isLt) := by
  have hmode := IrDataTrigger.ubMode_of_isActive ht
  have hid : t.activeID = some t.uwTrigID := IrDataTrigger.activeID_eq_some.mpr ⟨ht, rfl⟩
  constructor
  · apply h.distinct.set hid
    intro j hj
    obtain ⟨hactive, heq⟩ := IrDataTrigger.activeID_eq_some.mp hj
    have hused := IrDataTrigger.hasID_iff.mpr ⟨heq, (IrDataTrigger.ubMode_of_isActive hactive).1⟩
    rw [hasID_of_triggerSlot hnew (SlotTable.get_mem j)] at hused
    cases hused
  · intro u hu
    obtain rfl | hu := mem_set hu
    · exact .inl ht
    · exact h.mode u hu
  · rintro ⟨v, hvset, hverased⟩ u huset
    -- an erased slot was there before, and the new trigger has another identifier
    obtain rfl | hv := mem_set hvset
    · rw [hmode.2] at hverased
      cases hverased
    have hothers := h.erased ⟨v, hv, hverased⟩
    obtain rfl | hu := mem_set huset
    · rw [hid]
      intro hff
      have hused := h.hasID_of_isErased hv hverased (Option.some.inj hff)
      rw [hasID_of_triggerSlot hnew hv] at hused
      cases hused
    · exact hothers u hu

/-- A slot is cleared. -/
theorem set_none (h : TriggerInv table) {i : Fin maxIrCode} {t : IrDataTrigger}
    (ht : t.ubMode = modeNone) : TriggerInv (table.set i t i.isLt) := by
  have hid : t.activeID = none := by
    rw [IrDataTrigger.activeID_eq_none, IrDataTrigger.isActive, ht]
    decide
  constructor
  · exact h.distinct.set_none hid
  · intro u hu
    obtain rfl | hu := mem_set hu
    · exact .inr (.inl ht)
    · exact h.mode u hu
  · rintro ⟨v, hvset, hverased⟩ u huset
    obtain rfl | hv := mem_set hvset
    · rw [IrDataTrigger.isErased, ht] at hverased
      cases hverased
    obtain rfl | hu := mem_set huset
    · rw [hid]
      intro hnone
      cases hnone
    · exact h.erased ⟨v, hv, hverased⟩ u hu

/-- All slots are cleared. -/
theorem of_cleared (h : ∀ t ∈ table, t.ubMode = modeNone) : TriggerInv table := by
  have hid : ∀ t ∈ table, t.activeID = none := by
    intro t ht
    rw [IrDataTrigger.activeID_eq_none, IrDataTrigger.isActive, h t ht]
    decide
  constructor
  · apply SlotTable.Distinct.of_empty
    intro i
    exact hid _ (SlotTable.get_mem i)
  · intro t ht
    exact .inr (.inl (h t ht))
  · intro _ t ht
    rw [hid t ht]
    intro hnone
    cases hnone

/-- Every operation keeps the invariant. -/
theorem triggerStep (h : TriggerInv s.atIRDataTrigger) (call : TriggerCall) :
    ∃ s', triggerStep call s = some s' ∧ TriggerInv s'.atIRDataTrigger := by
  cases call with
  | insertNewIRTrigger t =>
    refine ⟨_, rfl, ?_⟩
    -- a trigger is only stored where its identifier was not found
    by_cases hnew : triggerSlot s.atIRDataTrigger (t.1.uwTrigID.setWidth 16) = none
    · cases hfree : freeTriggerSlot s.atIRDataTrigger with
      | none =>
        rw [midInsertNewIRTrigger_of_full hfree]
        exact h
      | some i =>
        obtain ⟨ubMotionSen, s', hs', -, hstore⟩ := midInsertNewIRTrigger_of_free hnew hfree
        rw [hstore, storeTrigger_atIRDataTrigger, hs']
        exact h.set t.2 hnew
    · rw [midInsertNewIRTrigger_of_used hnew]
      exact h
  | removeIRTrigger uwTrigID =>
    refine ⟨_, rfl, ?_⟩
    cases hslot : triggerSlot s.atIRDataTrigger uwTrigID with
    | none =>
      rw [midRemoveIRTrigger_of_none hslot]
      exact h
    | some i =>
      rw [midRemoveIRTrigger_of_slot hslot]
      exact h.set_none rfl
  | eraseAllITrigger =>
    refine ⟨_, rfl, of_cleared ?_⟩
    intro t ht
    obtain ⟨i, rfl⟩ := SlotTable.mem_iff.mp ht
    rw [midEraseAllITrigger, SlotTable.get_map]

theorem reachable (s : StoreState)
    (h : FaultMachine.Reachable IrRemote.triggerStep (bootBlank s) s') :
    TriggerInv s'.atIRDataTrigger := by
  have hpreserves : FaultMachine.Preserves IrRemote.triggerStep fun s =>
      TriggerInv s.atIRDataTrigger := fun call s hs => hs.triggerStep call
  refine hpreserves.reachable ?_ h
  rw [bootBlank, midFlashInit_atIRDataTrigger]
  exact erasedTable

/-! ## The specification -/

/-- What an insertion promises, for an identifier that no erased slot has. -/
theorem insertSpec (h : TriggerInv s.atIRDataTrigger) {t : IrDataTrigger}
    (hid : t.uwTrigID = 0xFF → ∀ u ∈ s.atIRDataTrigger, u.isErased = false) : InsertSpec t s := by
  have hscan := h.triggerSlot_eq hid
  by_cases hnew : triggerSlot s.atIRDataTrigger (t.uwTrigID.setWidth 16) = none
  · have hunused := SlotTable.find_eq_none_iff.mp (hscan ▸ hnew)
    -- the identifier is new: the insertion fails only if the table is full
    cases hfree : freeTriggerSlot s.atIRDataTrigger with
    | none =>
      refine .of_fail (midInsertNewIRTrigger_of_full hfree) ?_
      rintro ⟨⟨u, hu, hinactive⟩, -⟩
      obtain ⟨i, rfl⟩ := SlotTable.mem_iff.mp hu
      rw [freeTriggerSlot_eq, SlotTable.free_eq_none_iff] at hfree
      exact hfree i (IrDataTrigger.activeID_eq_none.mpr hinactive)
    | some i =>
      have hinactive : (s.atIRDataTrigger.get i).isActive = false := by
        rw [freeTriggerSlot_eq] at hfree
        exact IrDataTrigger.activeID_eq_none.mp (SlotTable.key_of_free hfree)
      obtain ⟨ubMotionSen, s', hs', -, hstore⟩ := midInsertNewIRTrigger_of_free hnew hfree
      constructor
      · rw [hstore]
        refine iff_of_true rfl ⟨⟨_, SlotTable.get_mem i, hinactive⟩, ?_⟩
        intro u hu
        obtain ⟨j, rfl⟩ := SlotTable.mem_iff.mp hu
        exact hunused j
      · intro _
        refine ⟨i, ubMotionSen, hinactive, ?_⟩
        rw [hstore, storeTrigger_atIRDataTrigger, hs']
      · rw [hstore]
        intro hfail
        cases hfail
  -- an active trigger has the identifier, since no erased slot has it
  · refine .of_fail (midInsertNewIRTrigger_of_used hnew) ?_
    rintro ⟨-, hunused⟩
    rw [hscan, ← ne_eq, Option.ne_none_iff_exists'] at hnew
    obtain ⟨i, hi⟩ := hnew
    exact absurd (SlotTable.key_of_find hi) (hunused _ (SlotTable.get_mem i))

/-- What a removal promises, for an identifier that no erased slot has. -/
theorem removeSpec (h : TriggerInv s.atIRDataTrigger) {uwTrigID : BitVec 8}
    (hid : uwTrigID = 0xFF → ∀ u ∈ s.atIRDataTrigger, u.isErased = false) :
    RemoveSpec uwTrigID s := by
  have hscan := h.triggerSlot_eq hid
  cases hslot : triggerSlot s.atIRDataTrigger (uwTrigID.setWidth 16) with
  | none =>
    refine .of_fail (midRemoveIRTrigger_of_none hslot) ?_
    rw [hscan, SlotTable.find_eq_none_iff] at hslot
    rintro ⟨u, hu, hactive⟩
    obtain ⟨j, rfl⟩ := SlotTable.mem_iff.mp hu
    exact hslot j hactive
  | some i =>
    have hdrop := midRemoveIRTrigger_of_slot hslot
    rw [hscan] at hslot
    have hactive := SlotTable.key_of_find hslot
    constructor
    · rw [hdrop]
      exact iff_of_true rfl ⟨_, SlotTable.get_mem i, hactive⟩
    · intro _
      rw [hdrop]
      exact ⟨i, _, hactive, rfl, rfl⟩
    · rw [hdrop]
      intro hfail
      cases hfail

/-- A removal under the identifier of an erased slot reports success without an active trigger. -/
theorem not_removeSpec (h : TriggerInv s.atIRDataTrigger) {uwTrigID : BitVec 8}
    (hid : uwTrigID = 0xFF) (herased : ∃ u ∈ s.atIRDataTrigger, u.isErased = true) :
    ¬RemoveSpec uwTrigID s := by
  intro hspec
  have hnone := h.erased herased
  obtain ⟨v, hv, hverased⟩ := herased
  have hused := h.hasID_of_isErased hv hverased hid
  cases hslot : triggerSlot s.atIRDataTrigger (uwTrigID.setWidth 16) with
  | none =>
    rw [hasID_of_triggerSlot hslot hv] at hused
    cases hused
  | some i =>
    have hdrop := midRemoveIRTrigger_of_slot hslot
    obtain ⟨u, hu, hactive⟩ := hspec.succeeds_iff.mp (by rw [hdrop])
    exact hnone u hu (hid ▸ hactive)

end TriggerInv

/-- In every state that the operations reach from a blank flash the active triggers have
different identifiers, and the operations keep their promises for an identifier exactly when it
is not the identifier of an erased slot that is left. -/
theorem trigger_table_spec_iff (s : StoreState) {s' : StoreState}
    (h : FaultMachine.Reachable triggerStep (bootBlank s) s') :
    DistinctTriggers s'.atIRDataTrigger ∧ ∀ uwTrigID : BitVec 8,
      ((∀ t : IrDataTrigger, t.isActive → t.uwTrigID = uwTrigID → InsertSpec t s') ∧
          RemoveSpec uwTrigID s' ↔
        (uwTrigID = 0xFF → ∀ u ∈ s'.atIRDataTrigger, u.isErased = false)) := by
  have hinv := TriggerInv.reachable s h
  refine ⟨hinv.distinct, fun uwTrigID => ⟨?_, ?_⟩⟩
  · rintro ⟨-, hremove⟩ hid u hu
    by_contra herased
    exact hinv.not_removeSpec hid ⟨u, hu, Bool.eq_true_of_not_eq_false herased⟩ hremove
  · intro hid
    refine ⟨?_, hinv.removeSpec hid⟩
    rintro t - rfl
    exact hinv.insertSpec hid

theorem trigger_table_spec_iff_motion :
    InsertSpec (motionOf 2 2).1
      (midInsertNewIRTrigger (motionOf 1 1) (bootBlank blankStores)).2 := by
  have hreachable : FaultMachine.Reachable triggerStep (bootBlank blankStores)
      (midInsertNewIRTrigger (motionOf 1 1) (bootBlank blankStores)).2 :=
    ⟨[.insertNewIRTrigger (motionOf 1 1)], rfl⟩
  have hid : (2 : BitVec 8) ≠ 0xFF := by decide
  have hspec := ((trigger_table_spec_iff blankStores hreachable).2 2).mpr fun h => absurd h hid
  exact hspec.1 _ rfl rfl

/-- On a blank device every slot is free and no trigger is active, and yet a trigger with the
identifier 0xFF is refused. -/
theorem erased_identifier_refused :
    ¬∀ s s' : StoreState, FaultMachine.Reachable triggerStep (bootBlank s) s' →
      ∀ t : IrDataTrigger, t.isActive → InsertSpec t s' := by
  intro h
  have hspec := h blankStores _ .refl (motionOf 0xFF 1).1 rfl
  have hrefused : (midInsertNewIRTrigger (motionOf 0xFF 1) (bootBlank blankStores)).1 = false := by
    decide +kernel
  have hfree : (∃ u ∈ (bootBlank blankStores).atIRDataTrigger, u.isActive = false) ∧
      ∀ u ∈ (bootBlank blankStores).atIRDataTrigger, u.activeID ≠ some 0xFF := by
    decide +kernel
  rw [hspec.succeeds_iff.mpr hfree] at hrefused
  cases hrefused

end IrRemote
