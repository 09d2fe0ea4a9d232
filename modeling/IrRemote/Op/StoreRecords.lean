import IrRemote.Library.ByteImage
import IrRemote.Op.HeaderDefine

/-!
# The records of the stores

The learned codes and the triggers of `Op_HeaderDefine.h`, with their layout in memory: the
firmware copies both tables to flash byte by byte. The compiler is told to use short enums,
so the protocol of an `IRData` is a byte.

## Main definitions

* `IRDataT` — a learned code
* `IrDataTrigger` — a trigger
* the layouts of both
-/

set_option autoImplicit false

namespace IrRemote

open ByteImage

/-- `MAX_IR_CODE`. -/
def maxIrCode : ℕ := 10

/-- The first slot of a store. -/
def firstSlot : Fin maxIrCode := ⟨0, by decide⟩

/-! ## Learned codes -/

/-- `IR_CODE_NONE`. -/
def irCodeNone : BitVec 16 := 0
/-- `IR_CODE_DISABLE`. -/
def irCodeDisable : BitVec 16 := 1
/-- `IR_CODE_ENABLE`. -/
def irCodeEnable : BitVec 16 := 2

theorem irCodeDisable_ne_enable : irCodeDisable ≠ irCodeEnable := by decide

/-- `sizeof(IRData)`: the protocol and a byte of padding, three half words and a word, the
timing, the array, the number of bits, the flags and a byte of padding, and a pointer. -/
def sizeOfIRData : ℕ := 2 + 3 * 2 + 4 + 6 * 2 + 4 * rawDataArraySize + 2 + 2 + 4

/-- `IRData_t`. The store only copies the bytes of the `IRData`. -/
structure IRDataT where
  ulStatus : BitVec 16
  uwID : BitVec 16
  irData : Vector (BitVec 8) sizeOfIRData
  deriving DecidableEq

instance : ByteImage IRDataT where
  size := 2 + 2 + sizeOfIRData
  bytes e o :=
    if o < 2 then bytes e.ulStatus o
    else if o < 4 then bytes e.uwID (o - 2)
    else bytes e.irData (o - 4)
  ofBytes f := {
    ulStatus := ofBytes f
    uwID := ofBytes fun o => f (2 + o)
    irData := ofBytes fun o => f (4 + o) }
  ofBytes_congr {f g} h := by
    have hstatus : (ofBytes f : BitVec 16) = ofBytes g :=
      ofBytes_congr fun o ho => h o (Nat.lt_of_lt_of_le ho (by decide))
    have hid : (ofBytes fun o => f (2 + o) : BitVec 16) = ofBytes fun o => g (2 + o) :=
      ofBytes_congr fun o ho =>
        h (2 + o) (Nat.lt_of_lt_of_le (Nat.add_lt_add_left ho 2) (by decide))
    have hdata : (ofBytes fun o => f (4 + o) : Vector (BitVec 8) sizeOfIRData) =
        ofBytes fun o => g (4 + o) :=
      ofBytes_congr fun o ho =>
        h (4 + o) (Nat.lt_of_lt_of_le (Nat.add_lt_add_left ho 4) (by decide))
    rw [hstatus, hid, hdata]
  ofBytes_bytes e := by
    obtain ⟨ulStatus, uwID, irData⟩ := e
    rw [IRDataT.mk.injEq]
    refine ⟨?_, ?_, ?_⟩
    · refine Eq.trans (ofBytes_congr fun o ho => ?_) (ofBytes_bytes ulStatus)
      exact if_pos ho
    · refine Eq.trans (ofBytes_congr fun o (ho : o < 2) => ?_) (ofBytes_bytes uwID)
      have hstatus : ¬2 + o < 2 := by omega
      have hid : 2 + o < 4 := by omega
      simp only [hstatus, hid, if_true, if_false, Nat.add_sub_cancel_left]
    · refine Eq.trans (ofBytes_congr fun o _ => ?_) (ofBytes_bytes irData)
      have hstatus : ¬4 + o < 2 := by omega
      have hid : ¬4 + o < 4 := by omega
      simp only [hstatus, hid, if_false, Nat.add_sub_cancel_left]

/-- The bytes of a value, in their order. -/
def imageBytes {α : Type} [ByteImage α] (a : α) : List (BitVec 8) :=
  (List.range (size α)).map (bytes a)

@[simp] theorem length_imageBytes {α : Type} [ByteImage α] (a : α) :
    (imageBytes a).length = size α := by
  rw [imageBytes, List.length_map, List.length_range]

/-- The fields of an `IRData` in their order, with zeros for the padding. The pointer to the
receiver record comes last. -/
def IRData.imageBytes (irparamsAddress : BitVec 32) (d : IRData) : List (BitVec 8) :=
  let timing := d.distanceWidthTimingInfo
  let micros := [timing.headerMarkMicros, timing.headerSpaceMicros, timing.oneMarkMicros,
    timing.oneSpaceMicros, timing.zeroMarkMicros, timing.zeroSpaceMicros]
  [BitVec.ofNat 8 d.protocol.ctorIdx, 0] ++
    [d.address, d.command, d.extra].flatMap IrRemote.imageBytes ++
    IrRemote.imageBytes d.decodedRawData ++
    (micros.map (BitVec.ofNat 16)).flatMap IrRemote.imageBytes ++
    d.decodedRawDataArray.toList.flatMap IrRemote.imageBytes ++
    IrRemote.imageBytes (BitVec.ofNat 16 d.numberOfBits) ++
    [d.flags, 0] ++ IrRemote.imageBytes irparamsAddress

/-- The `sizeof(IRData)` bytes that `myMemCpy` copies. -/
def IRData.image (irparamsAddress : BitVec 32) (d : IRData) : Vector (BitVec 8) sizeOfIRData :=
  Vector.ofFn fun o => (d.imageBytes irparamsAddress).getD o 0

/-- The image of a fresh record: a pointer behind zeros. -/
example : IRData.zero.imageBytes 0x20000400 =
    List.replicate (sizeOfIRData - 4) 0 ++ [0x00, 0x04, 0x00, 0x20] := by
  decide +kernel

/-! ## Triggers -/

/-- `NONE`. -/
def modeNone : BitVec 8 := 0
/-- `MOTION_TRIGGER`. -/
def motionTrigger : BitVec 8 := 1
/-- `ONE_TRIGGER`. -/
def oneTrigger : BitVec 8 := 2
/-- `WINDOW_TRIGGER`. -/
def windowTrigger : BitVec 8 := 3
/-- `TIMEOUT_TRIGGER`. -/
def timeoutTrigger : BitVec 8 := 4

/-- `HourMin_t`. -/
structure HourMin where
  ubHour : BitVec 8
  ubMin : BitVec 8
  deriving DecidableEq, Repr

/-- `IrDataTrigger_t`. -/
structure IrDataTrigger where
  ubMode : BitVec 8
  uwTrigID : BitVec 8
  uwIrCode : BitVec 8
  ubDays : BitVec 8
  tTime1 : HourMin
  tTime2 : HourMin
  ulTimeout : BitVec 32
  ubMotionSen : BitVec 8
  ubTriggerDone : BitVec 8
  deriving DecidableEq, Repr

instance : ByteImage IrDataTrigger where
  size := 16
  bytes t
    | 0 => t.ubMode
    | 1 => t.uwTrigID
    | 2 => t.uwIrCode
    | 3 => t.ubDays
    | 4 => t.tTime1.ubHour
    | 5 => t.tTime1.ubMin
    | 6 => t.tTime2.ubHour
    | 7 => t.tTime2.ubMin
    | 12 => t.ubMotionSen
    | 13 => t.ubTriggerDone
    -- two bytes of padding follow
    | o => if o < 12 then bytes t.ulTimeout (o - 8) else 0
  ofBytes f := {
    ubMode := f 0
    uwTrigID := f 1
    uwIrCode := f 2
    ubDays := f 3
    tTime1 := ⟨f 4, f 5⟩
    tTime2 := ⟨f 6, f 7⟩
    ulTimeout := ofBytes fun o => f (8 + o)
    ubMotionSen := f 12
    ubTriggerDone := f 13 }
  ofBytes_congr {f g} h := by
    have htimeout : (ofBytes fun o => f (8 + o) : BitVec 32) = ofBytes fun o => g (8 + o) :=
      ofBytes_congr fun o ho =>
        h (8 + o) (Nat.lt_of_lt_of_le (Nat.add_lt_add_left ho 8) (by decide))
    simp only [h, Nat.reduceLT, htimeout]
  ofBytes_bytes t := by
    have htimeout : (ofBytes (bytes t.ulTimeout) : BitVec 32) = t.ulTimeout := ofBytes_bytes _
    exact congrArg (fun u => { t with ulTimeout := u }) htimeout

/-- The modes of an active trigger. -/
def IrDataTrigger.isActive (t : IrDataTrigger) : Bool :=
  t.ubMode = motionTrigger || t.ubMode = oneTrigger || t.ubMode = windowTrigger ||
    t.ubMode = timeoutTrigger

end IrRemote
