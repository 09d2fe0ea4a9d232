import Mathlib.Data.Fin.Tuple.Basic
import IrRemote.Mid.Flash
import IrRemote.Mid.Rtc
import IrRemote.Op.SupportFunction

/-!
# The stores of triggers and codes

The functions of `Mid_Decode.c` on the two tables and on the clock. Their logging and the
notification of the app are left out.

## Main definitions

* `midInsertNewIRTrigger`, `midRemoveIRTrigger`, `midEraseAllITrigger` — the triggers
* `midInsertNewIRCode`, `midRemoveIRCode`, `midEraseAllIRCode` — the codes
* `midDecodeRTCSet` — the clock

## Main results

* `flashTriggers_storeTrigger`, `flashTriggers_dropTrigger` — what the page of the triggers
  holds behind an insertion and behind a removal
* `KeepsTriggers` — an operation touches neither the triggers nor their page
-/

set_option autoImplicit false

namespace IrRemote

/-- `Mid_DecodeRTCSet`. The size of the event is handed over in a byte. -/
def midDecodeRTCSet (pEventData : List (BitVec 8)) : Option RtcState :=
  (convertStringToTimeStamp (pEventData.take (pEventData.length % 256))).map midRTCSetUnit

/-! ## Triggers -/

/-- The slot is in use under an identifier. The stored identifier is a byte. -/
def IrDataTrigger.hasID (t : IrDataTrigger) (uwTrigID : BitVec 16) : Bool :=
  t.uwTrigID.setWidth 16 = uwTrigID && t.ubMode ≠ modeNone

/-- The first slot in use under an identifier. -/
def triggerSlot (table : IRTriggerTable) (uwTrigID : BitVec 16) : Option (Fin maxIrCode) :=
  Fin.find? fun i => table[i].hasID uwTrigID

/-- The first slot without an active trigger. -/
def freeTriggerSlot (table : IRTriggerTable) : Option (Fin maxIrCode) :=
  Fin.find? fun i => !table[i].isActive

/-- The sensitivity that was received last is used up by the next trigger. -/
def applyMotionSens (tIRDataTrigger : IrDataTrigger) (s : StoreState) :
    IrDataTrigger × StoreState :=
  if s.ubMotionSensTemp ≠ 0xFF then
    ({ tIRDataTrigger with ubMotionSen := convertSensitivityToLevel s.ubMotionSensTemp },
      { s with ubMotionSensTemp := 0xFF })
  else (tIRDataTrigger, s)

/-- Put a trigger into a slot and save the table. -/
def storeTrigger (i : Fin maxIrCode) (tIRDataTrigger : IrDataTrigger) (s : StoreState) :
    StoreState :=
  let s := { s with
    atIRDataTrigger := s.atIRDataTrigger.set i tIRDataTrigger
    ubIRTriggerCount := s.ubIRTriggerCount + 1 }
  midFlashWrite irTrigStartAddress s.atIRDataTrigger (midFlashErase irTrigStartAddress 1 s)

theorem storeTrigger_atIRDataTrigger (i : Fin maxIrCode) (t : IrDataTrigger) (s : StoreState) :
    (storeTrigger i t s).atIRDataTrigger = s.atIRDataTrigger.set i t :=
  rfl

/-- `Mid_InsertNewIRTrigger`. -/
def midInsertNewIRTrigger (tIRDataTrigger : IrDataTrigger) (s : StoreState) : Bool × StoreState :=
  if (triggerSlot s.atIRDataTrigger (tIRDataTrigger.uwTrigID.setWidth 16)).isSome then (false, s)
  else match freeTriggerSlot s.atIRDataTrigger with
    | some i =>
      let (tIRDataTrigger, s) := applyMotionSens tIRDataTrigger s
      (true, storeTrigger i tIRDataTrigger s)
    | none => (false, s)

/-- An insertion fails and changes nothing, or it stores some trigger. -/
theorem midInsertNewIRTrigger_cases (t : IrDataTrigger) (s : StoreState) :
    midInsertNewIRTrigger t s = (false, s) ∨
      ∃ i t' s', midInsertNewIRTrigger t s = (true, storeTrigger i t' s') := by
  unfold midInsertNewIRTrigger
  split
  case isTrue => exact .inl rfl
  case isFalse =>
    cases freeTriggerSlot s.atIRDataTrigger with
    | some i => exact .inr ⟨i, _, _, rfl⟩
    | none => exact .inl rfl

theorem midInsertNewIRTrigger_of_used {t : IrDataTrigger} {s : StoreState}
    (h : triggerSlot s.atIRDataTrigger (t.uwTrigID.setWidth 16) ≠ none) :
    midInsertNewIRTrigger t s = (false, s) := by
  unfold midInsertNewIRTrigger
  exact if_pos (Option.isSome_iff_ne_none.mpr h)

theorem midInsertNewIRTrigger_of_full {t : IrDataTrigger} {s : StoreState}
    (h : freeTriggerSlot s.atIRDataTrigger = none) : midInsertNewIRTrigger t s = (false, s) := by
  unfold midInsertNewIRTrigger
  rw [h, ite_self]

/-- A trigger under a new identifier takes the first slot that is not active. Its
sensitivity may be replaced. -/
theorem midInsertNewIRTrigger_of_free {t : IrDataTrigger} {s : StoreState} {i : Fin maxIrCode}
    (hnew : triggerSlot s.atIRDataTrigger (t.uwTrigID.setWidth 16) = none)
    (hfree : freeTriggerSlot s.atIRDataTrigger = some i) :
    ∃ ubMotionSen s', s'.atIRDataTrigger = s.atIRDataTrigger ∧
      s'.ubIRTriggerCount = s.ubIRTriggerCount ∧
      midInsertNewIRTrigger t s = (true, storeTrigger i { t with ubMotionSen } s') := by
  unfold midInsertNewIRTrigger
  rw [hnew, hfree, Option.isSome_none, if_neg Bool.false_ne_true, applyMotionSens]
  split_ifs
  · exact ⟨_, { s with ubMotionSensTemp := 0xFF }, rfl, rfl, rfl⟩
  · exact ⟨t.ubMotionSen, s, rfl, rfl, rfl⟩

/-- A counter that is increased changes, even when it overflows. -/
theorem count_add_one_ne (n : BitVec 8) : n + 1 ≠ n := by
  intro h
  simp at h

/-- An insertion changes nothing when it is refused. -/
theorem midInsertNewIRTrigger_eq_self_iff {t : IrDataTrigger} {s : StoreState} :
    (midInsertNewIRTrigger t s).2 = s ↔
      triggerSlot s.atIRDataTrigger (t.uwTrigID.setWidth 16) ≠ none ∨
        freeTriggerSlot s.atIRDataTrigger = none := by
  by_cases hnew : triggerSlot s.atIRDataTrigger (t.uwTrigID.setWidth 16) = none
  · cases hfree : freeTriggerSlot s.atIRDataTrigger with
    | none =>
      rw [midInsertNewIRTrigger_of_full hfree]
      exact iff_of_true rfl (.inr rfl)
    | some i =>
      obtain ⟨ubMotionSen, s', -, hcount, hstore⟩ := midInsertNewIRTrigger_of_free hnew hfree
      rw [hstore]
      refine iff_of_false ?_ ?_
      · intro hs
        have hinserted : s'.ubIRTriggerCount + 1 = s.ubIRTriggerCount :=
          congrArg StoreState.ubIRTriggerCount hs
        exact count_add_one_ne _ (hcount ▸ hinserted)
      · rintro (hused | hfull)
        · exact hused hnew
        · exact Option.some_ne_none i hfull
  · rw [midInsertNewIRTrigger_of_used hnew]
    exact iff_of_true rfl (.inl hnew)

/-- The table without the trigger of a slot. -/
def clearTrigger (table : IRTriggerTable) (i : Fin maxIrCode) : IRTriggerTable :=
  table.set i { table[i] with ubMode := modeNone }

/-- Take the trigger out of a slot and rewrite the page of the triggers. The source writes
the table of the codes there. -/
def dropTrigger (i : Fin maxIrCode) (s : StoreState) : StoreState :=
  let s := { s with atIRDataTrigger := clearTrigger s.atIRDataTrigger i }
  let s := midFlashErase irTrigStartAddress 1 s
  let s := midFlashWrite irTrigStartAddress s.tIRDataCommom s
  { s with ubIRTriggerCount := s.ubIRTriggerCount - 1 }

/-- `Mid_RemoveIRTrigger`. -/
def midRemoveIRTrigger (uwTrigID : BitVec 16) (s : StoreState) : Bool × StoreState :=
  match triggerSlot s.atIRDataTrigger uwTrigID with
  | some i => (true, dropTrigger i s)
  | none => (false, s)

theorem midRemoveIRTrigger_of_slot {uwTrigID : BitVec 16} {s : StoreState} {i : Fin maxIrCode}
    (h : triggerSlot s.atIRDataTrigger uwTrigID = some i) :
    midRemoveIRTrigger uwTrigID s = (true, dropTrigger i s) := by
  unfold midRemoveIRTrigger
  rw [h]

theorem midRemoveIRTrigger_of_none {uwTrigID : BitVec 16} {s : StoreState}
    (h : triggerSlot s.atIRDataTrigger uwTrigID = none) :
    midRemoveIRTrigger uwTrigID s = (false, s) := by
  unfold midRemoveIRTrigger
  rw [h]

/-- A removal changes nothing when no slot in use has the identifier. -/
theorem midRemoveIRTrigger_eq_self_iff {uwTrigID : BitVec 16} {s : StoreState} :
    (midRemoveIRTrigger uwTrigID s).2 = s ↔ triggerSlot s.atIRDataTrigger uwTrigID = none := by
  cases hslot : triggerSlot s.atIRDataTrigger uwTrigID with
  | none =>
    rw [midRemoveIRTrigger_of_none hslot]
    exact iff_of_true rfl rfl
  | some i =>
    rw [midRemoveIRTrigger_of_slot hslot]
    refine iff_of_false ?_ (Option.some_ne_none i)
    intro hs
    have hcount : s.ubIRTriggerCount - 1 = s.ubIRTriggerCount :=
      congrArg StoreState.ubIRTriggerCount hs
    have hcancel := BitVec.sub_add_cancel s.ubIRTriggerCount 1
    rw [hcount] at hcancel
    exact count_add_one_ne _ hcancel

/-- `Mid_EraseAllITrigger`. -/
def midEraseAllITrigger (s : StoreState) : StoreState :=
  { s with atIRDataTrigger := s.atIRDataTrigger.map fun t =>
      { t with uwTrigID := 0, ubMode := modeNone } }

/-! ## Codes -/

/-- Save the table of the codes. -/
def saveCodes (s : StoreState) : StoreState :=
  midFlashWrite irDataStartAddress s.tIRDataCommom (midFlashErase irDataStartAddress 1 s)

/-- The first slot without an enabled code. -/
def freeCodeSlot (table : IRDataTable) : Option (Fin maxIrCode) :=
  Fin.find? fun i => table[i].ulStatus ≠ irCodeEnable

/-- `Mid_InsertNewIRCode`. -/
def midInsertNewIRCode (tIRData : Vector (BitVec 8) sizeOfIRData) (uwLearnID : BitVec 16)
    (s : StoreState) : Bool × StoreState :=
  match freeCodeSlot s.tIRDataCommom with
  | some i =>
    (true, saveCodes { s with
      tIRDataCommom := s.tIRDataCommom.set i
        { ulStatus := irCodeEnable, uwID := uwLearnID, irData := tIRData }
      ubIRCount := BitVec.ofNat 8 i })
  | none => (false, s)

/-- A round of the loop of `Mid_RemoveIRCode`. -/
def removeCodeAt (ulEraseID : BitVec 16) (s : StoreState) (i : Fin maxIrCode) : StoreState :=
  if s.tIRDataCommom[i].uwID = ulEraseID ∧ s.tIRDataCommom[i].ulStatus = irCodeEnable then
    saveCodes { s with
      tIRDataCommom := s.tIRDataCommom.set i
        { s.tIRDataCommom[i] with uwID := 0, ulStatus := irCodeDisable } }
  else s

/-- `Mid_RemoveIRCode`. The loop runs over all slots, and the result is always false. -/
def midRemoveIRCode (ulEraseID : BitVec 16) (s : StoreState) : Bool × StoreState :=
  (false, (List.finRange maxIrCode).foldl (removeCodeAt ulEraseID) s)

/-- `Mid_EraseAllIRCode`. -/
def midEraseAllIRCode (s : StoreState) : StoreState :=
  { s with tIRDataCommom := s.tIRDataCommom.map fun e =>
      { e with uwID := 0, ulStatus := irCodeDisable } }

theorem midInsertNewIRCode_of_free {tIRData : Vector (BitVec 8) sizeOfIRData}
    {uwLearnID : BitVec 16} {s : StoreState} {i : Fin maxIrCode}
    (h : freeCodeSlot s.tIRDataCommom = some i) :
    midInsertNewIRCode tIRData uwLearnID s = (true, saveCodes { s with
      tIRDataCommom := s.tIRDataCommom.set i
        { ulStatus := irCodeEnable, uwID := uwLearnID, irData := tIRData }
      ubIRCount := BitVec.ofNat 8 i }) := by
  unfold midInsertNewIRCode
  rw [h]

theorem midInsertNewIRCode_of_full {tIRData : Vector (BitVec 8) sizeOfIRData}
    {uwLearnID : BitVec 16} {s : StoreState} (h : freeCodeSlot s.tIRDataCommom = none) :
    midInsertNewIRCode tIRData uwLearnID s = (false, s) := by
  unfold midInsertNewIRCode
  rw [h]

/-- An insertion changes no slot but the first free one. -/
theorem get_midInsertNewIRCode {tIRData : Vector (BitVec 8) sizeOfIRData} {uwLearnID : BitVec 16}
    {s : StoreState} {j : Fin maxIrCode} (h : freeCodeSlot s.tIRDataCommom ≠ some j) :
    (midInsertNewIRCode tIRData uwLearnID s).2.tIRDataCommom.get j = s.tIRDataCommom.get j := by
  cases hslot : freeCodeSlot s.tIRDataCommom with
  | none => rw [midInsertNewIRCode_of_full hslot]
  | some i =>
    rw [midInsertNewIRCode_of_free hslot]
    refine (SlotTable.get_set ..).trans (if_neg ?_)
    rintro rfl
    exact h hslot

/-- The slot of a code that is removed. -/
def dropCode (ulEraseID : BitVec 16) (e : IRDataT) : IRDataT :=
  if e.enabledID = some ulEraseID then { e with uwID := 0, ulStatus := irCodeDisable } else e

theorem dropCode_of_ne {ulEraseID : BitVec 16} {e : IRDataT} (h : e.enabledID ≠ some ulEraseID) :
    dropCode ulEraseID e = e :=
  if_neg h

/-- No code is enabled under an identifier that was removed. -/
theorem enabledID_dropCode_ne (ulEraseID : BitVec 16) (e : IRDataT) :
    (dropCode ulEraseID e).enabledID ≠ some ulEraseID := by
  rw [dropCode]
  split_ifs with hdrop
  · rw [IRDataT.enabledID, if_neg irCodeDisable_ne_enable]
    intro hnone
    cases hnone
  · exact hdrop

/-- A round of the loop drops the code of its own slot. -/
theorem tIRDataCommom_removeCodeAt (ulEraseID : BitVec 16) (s : StoreState) (i : Fin maxIrCode) :
    (removeCodeAt ulEraseID s i).tIRDataCommom =
      s.tIRDataCommom.set i (dropCode ulEraseID (s.tIRDataCommom.get i)) := by
  have hget : s.tIRDataCommom.get i = s.tIRDataCommom[i] := rfl
  rw [removeCodeAt, dropCode, hget]
  simp only [← IRDataT.enabledID_eq_some]
  split_ifs
  · rfl
  · exact (Vector.set_getElem_self i.isLt).symm

/-- The rounds drop the codes of the slots they have come to. -/
theorem tIRDataCommom_foldl_removeCodeAt (ulEraseID : BitVec 16) (slots : List (Fin maxIrCode))
    (s : StoreState) (j : Fin maxIrCode) :
    (slots.foldl (removeCodeAt ulEraseID) s).tIRDataCommom.get j =
      if j ∈ slots then dropCode ulEraseID (s.tIRDataCommom.get j)
      else s.tIRDataCommom.get j := by
  induction slots generalizing s with
  | nil => rfl
  | cons i slots ih =>
    rw [List.foldl_cons, ih, tIRDataCommom_removeCodeAt, SlotTable.get_set]
    by_cases hij : i = j
    · have hmem : j ∈ i :: slots := hij ▸ List.mem_cons_self
      rw [if_pos hij, if_pos hmem, hij, dropCode_of_ne (enabledID_dropCode_ne ulEraseID _),
        ite_self]
    · rw [if_neg hij]
      simp only [List.mem_cons, (Ne.symm hij : j ≠ i), false_or]

/-- A removal drops every code that is enabled under the identifier. -/
theorem tIRDataCommom_midRemoveIRCode (ulEraseID : BitVec 16) (s : StoreState) :
    (midRemoveIRCode ulEraseID s).2.tIRDataCommom = s.tIRDataCommom.map (dropCode ulEraseID) := by
  ext i hi : 1
  rw [Vector.getElem_map]
  dsimp only [midRemoveIRCode]
  have hslot := tIRDataCommom_foldl_removeCodeAt ulEraseID (List.finRange maxIrCode) s ⟨i, hi⟩
  rw [if_pos (List.mem_finRange _)] at hslot
  exact hslot

/-! ## The page of the triggers -/

/-- An insertion saves the table. -/
theorem flashTriggers_storeTrigger (i : Fin maxIrCode) (t : IrDataTrigger) (s : StoreState) :
    flashTriggers (storeTrigger i t s).flash = (storeTrigger i t s).atIRDataTrigger :=
  flashTriggers_write_erase _ s.flash

/-- The start of the table of the codes, taken for a table of triggers. -/
def codesAsTriggers (table : IRDataTable) : IRTriggerTable :=
  ByteImage.ofBytes (ByteImage.bytes table)

/-- A removal saves the start of the table of the codes. -/
theorem flashTriggers_dropTrigger (i : Fin maxIrCode) (s : StoreState) :
    flashTriggers (dropTrigger i s).flash = codesAsTriggers s.tIRDataCommom :=
  flashTriggers_write_erase_irData _ s.flash

/-- The triggers and their page are the same in two states. -/
structure KeepsTriggers (s s' : StoreState) : Prop where
  table : s'.atIRDataTrigger = s.atIRDataTrigger
  page : flashTriggers s'.flash = flashTriggers s.flash

namespace KeepsTriggers

variable {s s' s'' : StoreState}

theorem refl (s : StoreState) : KeepsTriggers s s := ⟨rfl, rfl⟩

theorem trans (h : KeepsTriggers s s') (h' : KeepsTriggers s' s'') : KeepsTriggers s s'' :=
  ⟨h'.table.trans h.table, h'.page.trans h.page⟩

theorem saveCodes (s : StoreState) : KeepsTriggers s (saveCodes s) :=
  ⟨rfl, (flashTriggers_write_irData ..).trans (flashTriggers_erase_irData ..)⟩

theorem midInsertNewIRCode (tIRData : Vector (BitVec 8) sizeOfIRData) (uwLearnID : BitVec 16)
    (s : StoreState) : KeepsTriggers s (midInsertNewIRCode tIRData uwLearnID s).2 := by
  unfold IrRemote.midInsertNewIRCode
  split
  case h_1 i _ => exact ⟨rfl, (KeepsTriggers.saveCodes _).page⟩
  case h_2 => exact refl s

theorem removeCodeAt (ulEraseID : BitVec 16) (s : StoreState) (i : Fin maxIrCode) :
    KeepsTriggers s (removeCodeAt ulEraseID s i) := by
  unfold IrRemote.removeCodeAt
  split
  case isTrue => exact ⟨rfl, (KeepsTriggers.saveCodes _).page⟩
  case isFalse => exact refl s

theorem foldl_removeCodeAt (ulEraseID : BitVec 16) (slots : List (Fin maxIrCode))
    (s : StoreState) : KeepsTriggers s (slots.foldl (IrRemote.removeCodeAt ulEraseID) s) := by
  induction slots generalizing s with
  | nil => exact refl s
  | cons i slots ih => exact (removeCodeAt ulEraseID s i).trans (ih _)

theorem midRemoveIRCode (ulEraseID : BitVec 16) (s : StoreState) :
    KeepsTriggers s (midRemoveIRCode ulEraseID s).2 := by
  dsimp only [IrRemote.midRemoveIRCode]
  apply foldl_removeCodeAt

end KeepsTriggers

end IrRemote
