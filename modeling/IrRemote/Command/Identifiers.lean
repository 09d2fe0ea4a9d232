import IrRemote.App.Device
import IrRemote.Command.Queue
import IrRemote.Command.WellFormed

/-!
# Malformed identifiers

The learn, the emit and the erase characteristic take an identifier of one or two hexadecimal
digits. `ConvertID` answers zero for a payload that is none, and zero is an identifier; it also
looks at the second byte of a payload that has none.

## Main definitions

* `IdWrite`, `IdWrite.IsID` — a write to one of the three characteristics, and the identifiers
* `IdWrite.outcome` — what the handler of the write and its deferred part do
* `takenID` — the identifier that a payload is taken for
* `IdWrite.Ignored` — no session is started, no code is sent and none is erased

## Main results

* `toNat_convertID` — the value of `ConvertID` on any payload
* `takenID_of_not_isID` — a malformed payload is taken for zero, or for a digit that is left over
* `malformed_id_ignored_iff` — which malformed payloads are ignored
-/

set_option autoImplicit false

namespace IrRemote

/-! ## The writes -/

/-- The characteristics that take an identifier. -/
inductive IdCharacteristic where
  | irLearn
  | irEmmit
  | irErase
  deriving DecidableEq, Repr

/-- A write to one of them. The bytes of the payload are followed by what else the buffer holds. -/
structure IdWrite where
  characteristic : IdCharacteristic
  pData : ℕ → BitVec 8
  len : BitVec 16
  /-- The number of events that wait in the queue. -/
  waiting : ℕ
  /-- What the buffer of the queue holds behind the copy of the payload. -/
  stale : ℕ → BitVec 8

/-- The payload in the buffer of the queue. -/
def IdWrite.queued (w : IdWrite) (i : ℕ) : BitVec 8 :=
  if i < w.len.toNat then w.pData i else w.stale i

/-- One or two hexadecimal digits, or a digit and a space. -/
def IdWrite.IsID (w : IdWrite) : Prop :=
  (w.len = 1 ∧ IsHexDigit (w.pData 0)) ∨
    (w.len = 2 ∧ IsHexDigit (w.pData 0) ∧ (IsHexDigit (w.pData 1) ∨ w.pData 1 = 0x20))

/-- What a write leads to. -/
structure IdOutcome where
  /-- The identifier of a learn session that was started. -/
  started : Option (BitVec 16)
  /-- The record that was handed to `Mid_IrSendCommon`. -/
  sent : Option (Vector (BitVec 8) sizeOfIRData)
  device : DeviceState

/-- `on_write` for one of the three characteristics, with the event that it queues and the branch
of `App_ControlHandle` that takes up its flag. -/
def IdWrite.outcome (w : IdWrite) (s : DeviceState) : IdOutcome :=
  match w.characteristic with
  | .irLearn =>
    let uwIrID := convertID w.pData (w.len.setWidth 8)
    ⟨some uwIrID, none, appControlStartLearnIR uwIrID s⟩
  | .irEmmit =>
    if w.len.toNat ≤ schedMaxEventDataSize ∧ w.waiting < schedQueueSize then
      ⟨none, appControlStartEmitIR w.queued w.len s.stores, s⟩
    else ⟨none, none, s⟩
  | .irErase =>
    ⟨none, none, handleErase (appControlEraseIR (convertID w.pData (w.len.setWidth 8)) s)⟩

/-- No learn session is started, no code is sent and none is erased. -/
def IdWrite.Ignored (w : IdWrite) (s : DeviceState) : Prop :=
  let o := w.outcome s
  o.started = none ∧ o.sent = none ∧
    o.device.stores.tIRDataCommom = s.stores.tIRDataCommom ∧
    o.device.appStartLearnIRFlag = s.appStartLearnIRFlag ∧
    o.device.appLearnIRCountStartFlag = s.appLearnIRCountStartFlag ∧
    o.device.appLearnIRCountTimeoutFlag = s.appLearnIRCountTimeoutFlag

/-! ## The identifier of a payload -/

/-- The number that a payload is taken for. The length is handed over in a byte, and a space in
the second byte cuts the payload to its first one, whether or not it has so many. -/
def takenID (pData : ℕ → BitVec 8) (len : BitVec 16) : ℕ :=
  let length := len.toNat % 256
  let digits := if pData 1 = 0x20 then [pData 0] else readBytes pData (len.setWidth 8)
  if length ≤ 2 ∧ ∀ c ∈ digits, IsHexDigit c then hexValue digits else 0

section Taken

variable {pData : ℕ → BitVec 8} {len : BitVec 16}

theorem length_readBytes (pData : ℕ → BitVec 8) (len : BitVec 8) :
    (readBytes pData len).length = len.toNat := by
  rw [readBytes, List.length_map, List.length_range]

theorem toNat_hexDigits_getD {token : List (BitVec 8)} (hlen : token.length ≤ 4) :
    ((hexDigits token (0 : BitVec 16)).getD 0).toNat =
      if ∀ c ∈ token, IsHexDigit c then hexValue token else 0 := by
  split_ifs with hdigits
  · have hlt : hexValue token < 65536 :=
      (hexValue_lt hdigits).trans_le (Nat.pow_le_pow_right (by decide) (by omega : _ ≤ 16))
    rw [hexDigits_eq hdigits, Option.getD_some, BitVec.toNat_or, BitVec.toNat_ofNat,
      Nat.mod_eq_of_lt hlt]
    exact Nat.zero_or _
  · rw [hexDigits_eq_none_iff.mpr hdigits]
    rfl

/-- `ConvertID` computes the number that the payload is taken for. -/
theorem toNat_convertID : (convertID pData (len.setWidth 8)).toNat = takenID pData len := by
  have hlength : (len.setWidth 8).toNat = len.toNat % 256 := BitVec.toNat_setWidth 8 len
  have hlong : 2 < len.setWidth 8 ↔ ¬len.toNat % 256 ≤ 2 := by
    rw [BitVec.lt_def, hlength, not_le]
    rfl
  have hdigits : readBytes pData (if pData 1 = 0x20 then 1 else len.setWidth 8) =
      if pData 1 = 0x20 then [pData 0] else readBytes pData (len.setWidth 8) := by
    split_ifs <;> rfl
  rw [convertID, takenID]
  by_cases hshort : len.toNat % 256 ≤ 2
  · rw [if_neg (mt hlong.mp (not_not_intro hshort))]
    change ((hexDigits (readBytes pData _) (0 : BitVec 16)).getD 0).toNat = _
    rw [hdigits, toNat_hexDigits_getD]
    · simp only [hshort, true_and]
    · split_ifs
      · exact Nat.le_add_left 1 3
      · rw [length_readBytes, hlength]
        omega
  · rw [if_pos (hlong.mpr hshort), if_neg fun h => hshort h.1]
    rfl

/-- A malformed payload of less than 256 bytes is taken for zero, or it is empty and a digit and a
space are left over in its buffer. -/
theorem takenID_of_not_isID {w : IdWrite} (h : ¬w.IsID) (hlen : w.len.toNat < 256) :
    takenID w.pData w.len =
      if w.len = 0 ∧ w.pData 1 = 0x20 ∧ IsHexDigit (w.pData 0) then hexDigitValue (w.pData 0)
      else 0 := by
  have hmod : w.len.toNat % 256 = w.len.toNat := Nat.mod_eq_of_lt hlen
  have hfew (hshort : w.len.toNat ≤ 2) : w.len = 0 ∨ w.len = 1 ∨ w.len = 2 := by bv_omega
  rw [takenID, hmod]
  by_cases hspace : w.pData 1 = 0x20
  · -- the payload is cut to its first byte, and only an empty one is malformed then
    rw [if_pos hspace]
    refine if_congr ⟨?_, ?_⟩ (Nat.add_zero _) rfl
    · rintro ⟨hshort, hdigits⟩
      have hdigit := hdigits _ (List.mem_singleton.mpr rfl)
      obtain hzero | hone | htwo := hfew hshort
      · exact ⟨hzero, hspace, hdigit⟩
      · exact absurd (.inl ⟨hone, hdigit⟩) h
      · exact absurd (.inr ⟨htwo, hdigit, .inr hspace⟩) h
    · rintro ⟨hzero, -, hdigit⟩
      exact ⟨by rw [hzero]; decide, List.forall_mem_singleton.mpr hdigit⟩
  · have hright : (if w.len = 0 ∧ w.pData 1 = 0x20 ∧ IsHexDigit (w.pData 0) then
        hexDigitValue (w.pData 0) else 0) = 0 := if_neg fun hempty => hspace hempty.2.1
    rw [if_neg hspace, hright]
    refine ite_eq_right_iff.mpr fun ⟨hshort, hdigits⟩ => ?_
    obtain hzero | hone | htwo := hfew hshort
    · rw [hzero]
      rfl
    · rw [hone] at hdigits
      exact absurd (.inl ⟨hone, hdigits _ (List.mem_singleton.mpr rfl)⟩) h
    · rw [htwo] at hdigits
      obtain ⟨hfirst, hsecond⟩ := List.forall_mem_cons.mp hdigits
      exact absurd (.inr ⟨htwo, hfirst, .inl (hsecond _ (List.mem_singleton.mpr rfl))⟩) h

end Taken

/-! ## Malformed payloads -/

/-- No code is enabled under the identifier. -/
def NoCodeUnder (table : IRDataTable) (id : ℕ) : Prop :=
  ∀ i, (table.get i).enabledID ≠ some (BitVec.ofNat 16 id)

/-- The write is not to the learn characteristic. To the emit characteristic it is not queued, or
no code is enabled under what the queued bytes are taken for; to the erase characteristic no code
is enabled under what the payload is taken for. -/
def IdWrite.FindsNothing (w : IdWrite) (s : DeviceState) : Prop :=
  match w.characteristic with
  | .irLearn => False
  | .irEmmit =>
    ¬(w.len.toNat ≤ schedMaxEventDataSize ∧ w.waiting < schedQueueSize) ∨
      NoCodeUnder s.stores.tIRDataCommom (takenID w.queued w.len)
  | .irErase => NoCodeUnder s.stores.tIRDataCommom (takenID w.pData w.len)

section Malformed

variable {table : IRDataTable} {id : BitVec 16} {pData : ℕ → BitVec 8} {len : BitVec 16}

theorem noCodeUnder_takenID :
    NoCodeUnder table (takenID pData len) ↔
      ∀ i, (table.get i).enabledID ≠ some (convertID pData (len.setWidth 8)) := by
  rw [NoCodeUnder, ← toNat_convertID, BitVec.ofNat_toNat, BitVec.setWidth_eq]

/-- A removal keeps the table exactly when it finds no code. -/
theorem map_dropCode_eq_self_iff :
    table.map (dropCode id) = table ↔ ∀ i, (table.get i).enabledID ≠ some id := by
  constructor
  · intro hmap i hi
    have hget : (table.map (dropCode id)).get i = dropCode id (table.get i) :=
      SlotTable.get_map _ i
    rw [hmap] at hget
    exact enabledID_dropCode_ne id (table.get i) (hget ▸ hi)
  · intro h
    ext i hi : 1
    rw [Vector.getElem_map]
    exact dropCode_of_ne (h ⟨i, hi⟩)

theorem codeToEmit_eq_none_iff {s : StoreState} :
    codeToEmit id s = none ↔ ∀ i, (s.tIRDataCommom.get i).enabledID ≠ some id := by
  rw [codeToEmit_eq_toMap, SlotTable.toMap_eq_none_iff]

end Malformed

/-- A write is ignored exactly when it finds nothing to act on. -/
theorem IdWrite.ignored_iff (w : IdWrite) (s : DeviceState) : w.Ignored s ↔ w.FindsNothing s := by
  unfold Ignored FindsNothing outcome
  cases w.characteristic with
  | irLearn => exact iff_of_false (fun h => Option.some_ne_none _ h.1) not_false
  | irEmmit =>
    dsimp only
    split_ifs with hqueued
    · rw [noCodeUnder_takenID, ← codeToEmit_eq_none_iff]
      simp only [hqueued, not_true, false_or, and_self, true_and, and_true]
      rfl
    · simp only [hqueued, not_false_eq_true, true_or, and_self]
  | irErase =>
    have herase (id : BitVec 16) : handleErase (appControlEraseIR id s) = { s with
        stores := (midRemoveIRCode id s.stores).2
        appStartEraseIRFlag := false
        uwBufferEraseID := id } := by
      rw [handleErase, appControlEraseIR, if_pos rfl]
    simp only [herase, tIRDataCommom_midRemoveIRCode, map_dropCode_eq_self_iff,
      noCodeUnder_takenID, true_and, and_true]

/-- A malformed identifier is ignored exactly when what it is taken for finds nothing to act on. -/
theorem malformed_id_ignored_iff (w : IdWrite) (s : DeviceState) :
    (¬w.IsID → w.Ignored s) ↔ w.IsID ∨ w.FindsNothing s := by
  rw [w.ignored_iff, or_iff_not_imp_left]

/-- A code under the identifier zero. -/
def codeUnderZero : StoreState :=
  { blankStores with
    tIRDataCommom := blankStores.tIRDataCommom.set firstSlot
      ⟨irCodeEnable, 0, Vector.replicate sizeOfIRData 0⟩ firstSlot.isLt }

/-- A write of `z` to the erase characteristic erases it. -/
theorem malformed_id_erases_code :
    ¬∀ (w : IdWrite) (s : DeviceState), ¬w.IsID → w.Ignored s := by
  intro h
  have hmalformed : ¬IdWrite.IsID ⟨.irErase, fun _ => 0x7a, 1, 0, fun _ => 0⟩ := by
    unfold IdWrite.IsID
    decide
  have hkept := (h _ (deviceAtBoot 0 codeUnderZero) hmalformed).2.2.1
  have hstatus := congrArg
    (fun table : IRDataTable => (table.get firstSlot).ulStatus) hkept
  revert hstatus
  decide +kernel

end IrRemote
