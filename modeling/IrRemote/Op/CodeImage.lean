import IrRemote.Op.StoreRecords
import Mathlib.Data.List.GetD

/-!
# Reading a stored code

A code is sent from the bytes that lie in its slot. This module reads an `IRData` off these
bytes, field by field, and shows which records are read back as they were stored.

## Main definitions

* `IRData.ofImage` — the record that the bytes of a slot hold
* `HasProtocolName` — the log finds a name for its protocol
* `IRData.Fits` — every counter fits into its half word

## Main results

* `ofImage_image` — a record that fits is read back
-/

set_option autoImplicit false

namespace IrRemote

open ByteImage

/-- The protocol in a byte. No case of a `switch` is taken for a byte behind the last one, as none
is taken for `UNKNOWN`. -/
def DecodeType.ofByte (b : BitVec 8) : DecodeType :=
  if b.toNat ≤ DecodeType.fast.ctorIdx then .ofNat b.toNat else .unknown

/-- `PROCOTL_LEN`, the length of `c_ubProtocolName`. -/
def procotlLen : ℕ := 30

/-- The protocol in the first byte of a slot has a name in `c_ubProtocolName`. -/
def HasProtocolName (image : Vector (BitVec 8) sizeOfIRData) : Prop :=
  (image.toList.getD 0 0).toNat < procotlLen

instance (image : Vector (BitVec 8) sizeOfIRData) : Decidable (HasProtocolName image) :=
  inferInstanceAs (Decidable (_ < _))

/-- The record in the bytes of a slot, at the offsets that the compiler has chosen. -/
def IRData.ofImage (image : Vector (BitVec 8) sizeOfIRData) : IRData :=
  let byte : ℕ → BitVec 8 := fun o => image.toList.getD o 0
  let half (o : ℕ) : BitVec 16 := ofBytes fun k => byte (o + k)
  { protocol := .ofByte (byte 0)
    address := half 2
    command := half 4
    extra := half 6
    decodedRawData := ofBytes fun k => byte (8 + k)
    distanceWidthTimingInfo := {
      headerMarkMicros := (half 12).toNat
      headerSpaceMicros := (half 14).toNat
      oneMarkMicros := (half 16).toNat
      oneSpaceMicros := (half 18).toNat
      zeroMarkMicros := (half 20).toNat
      zeroSpaceMicros := (half 22).toNat }
    decodedRawDataArray := ofBytes fun k => byte (24 + k)
    numberOfBits := (half 72).toNat
    flags := byte 74 }

/-- The durations fit into half words. -/
structure DistanceWidthTimingInfo.Fits (t : DistanceWidthTimingInfo) : Prop where
  headerMark : t.headerMarkMicros < 65536
  headerSpace : t.headerSpaceMicros < 65536
  oneMark : t.oneMarkMicros < 65536
  oneSpace : t.oneSpaceMicros < 65536
  zeroMark : t.zeroMarkMicros < 65536
  zeroSpace : t.zeroSpaceMicros < 65536

/-- The numbers of the record fit into their fields. -/
structure IRData.Fits (d : IRData) : Prop where
  timing : d.distanceWidthTimingInfo.Fits
  numberOfBits : d.numberOfBits < 65536

/-! ## Values among other bytes -/

section Parts

variable {α : Type} [ByteImage α] {parts : List (List (BitVec 8))} {j o : ℕ}

@[simp] theorem length_flatMap_imageBytes (as : List α) :
    (as.flatMap imageBytes).length = as.length * size α := by
  rw [List.length_flatMap, List.map_congr_left fun a _ => length_imageBytes a, List.map_const',
    List.sum_replicate_nat]

/-- A value is read where its image lies. -/
theorem ofBytes_getD_append (before after : List (BitVec 8)) (a : α) :
    (ofBytes fun k => (before ++ (imageBytes a ++ after)).getD (before.length + k) 0 : α) = a := by
  refine (ofBytes_congr fun k hk => ?_).trans (ofBytes_bytes a)
  have hbehind : before.length ≤ before.length + k := Nat.le_add_right ..
  have hinside : k < (imageBytes a).length := (length_imageBytes a).symm ▸ hk
  rw [List.getD_append_right _ _ _ _ hbehind, Nat.add_sub_cancel_left,
    List.getD_append _ _ _ _ hinside, List.getD_eq_getElem _ _ hinside]
  simp only [imageBytes, List.getElem_map, List.getElem_range]

/-- An array is read where the images of its slots lie, one behind the other. -/
theorem ofBytes_getD_array {n : ℕ} (before after : List (BitVec 8)) (v : Vector α n) :
    (ofBytes fun k =>
      (before ++ (v.toList.flatMap imageBytes ++ after)).getD (before.length + k) 0 :
        Vector α n) = v := by
  ext i hi
  have hi' : i < v.toList.length := by rwa [Vector.length_toList]
  have hsplit : v.toList = v.toList.take i ++ v[i] :: v.toList.drop (i + 1) := by
    rw [← Vector.getElem_toList hi', List.getElem_cons_drop, List.take_append_drop]
  have hlength : ((v.toList.take i).flatMap imageBytes).length = i * size α := by
    rw [length_flatMap_imageBytes, List.length_take_of_le (Nat.le_of_lt hi')]
  have hslot := ofBytes_getD_append (before ++ (v.toList.take i).flatMap imageBytes)
    ((v.toList.drop (i + 1)).flatMap imageBytes ++ after) v[i]
  rw [List.length_append, hlength] at hslot
  rw [getElem_ofBytes]
  refine Eq.trans (ofBytes_congr fun k _ => ?_) hslot
  conv_lhs => rw [hsplit]
  rw [List.flatMap_append, List.flatMap_cons, Nat.add_assoc]
  simp only [List.append_assoc]

/-- The parts in front of one part, and those behind it. -/
theorem flatten_eq_append {part : List (BitVec 8)} (h : parts[j]? = some part) :
    parts.flatten = (parts.take j).flatten ++ (part ++ (parts.drop (j + 1)).flatten) := by
  obtain ⟨hj, rfl⟩ := List.getElem?_eq_some_iff.mp h
  rw [← List.flatten_cons, List.getElem_cons_drop, ← List.flatten_append,
    List.take_append_drop]

/-- A value that is one of the parts. -/
theorem ofBytes_part {a : α} (h : parts[j]? = some (imageBytes a))
    (ho : (parts.take j).flatten.length = o) :
    (ofBytes fun k => parts.flatten.getD (o + k) 0 : α) = a := by
  rw [flatten_eq_append h, ← ho]
  exact ofBytes_getD_append _ _ a

/-- An array that is one of the parts. -/
theorem ofBytes_arrayPart {n : ℕ} {v : Vector α n}
    (h : parts[j]? = some (v.toList.flatMap imageBytes))
    (ho : (parts.take j).flatten.length = o) :
    (ofBytes fun k => parts.flatten.getD (o + k) 0 : Vector α n) = v := by
  rw [flatten_eq_append h, ← ho]
  exact ofBytes_getD_array _ _ v

end Parts

/-! ## Records that are read back -/

section IRData

variable {irparamsAddress : BitVec 32} {d : IRData}

theorem ofByte_ctorIdx (protocol : DecodeType) :
    DecodeType.ofByte (BitVec.ofNat 8 protocol.ctorIdx) = protocol := by
  cases protocol <;> rfl

/-- The parts of the image, one for each field and each byte of padding. -/
def IRData.imageParts (irparamsAddress : BitVec 32) (d : IRData) : List (List (BitVec 8)) :=
  let timing := d.distanceWidthTimingInfo
  let half (n : ℕ) := IrRemote.imageBytes (BitVec.ofNat 16 n)
  [[BitVec.ofNat 8 d.protocol.ctorIdx], [0], IrRemote.imageBytes d.address,
    IrRemote.imageBytes d.command, IrRemote.imageBytes d.extra,
    IrRemote.imageBytes d.decodedRawData, half timing.headerMarkMicros,
    half timing.headerSpaceMicros, half timing.oneMarkMicros, half timing.oneSpaceMicros,
    half timing.zeroMarkMicros, half timing.zeroSpaceMicros,
    d.decodedRawDataArray.toList.flatMap IrRemote.imageBytes, half d.numberOfBits,
    [d.flags], [0], IrRemote.imageBytes irparamsAddress]

theorem imageBytes_eq_flatten :
    d.imageBytes irparamsAddress = (d.imageParts irparamsAddress).flatten := by
  simp [IRData.imageBytes, IRData.imageParts]

/-- The sizes of the parts. -/
def imagePartSizes : List ℕ := [1, 1, 2, 2, 2, 4, 2, 2, 2, 2, 2, 2, 48, 2, 1, 1, 4]

/-- The offset of a part. -/
def imagePartOffset (j : ℕ) : ℕ := (imagePartSizes.take j).foldr (· + ·) 0

theorem length_flatten_take_imageParts (j : ℕ) :
    ((d.imageParts irparamsAddress).take j).flatten.length = imagePartOffset j := by
  have hlengths : (d.imageParts irparamsAddress).map List.length = imagePartSizes := by
    simp only [IRData.imageParts, List.map_cons, List.map_nil, length_imageBytes,
      length_flatMap_imageBytes, Vector.length_toList]
    rfl
  rw [List.length_flatten, List.map_take, hlengths]
  exact List.sum_eq_foldr

theorem toList_image :
    (d.image irparamsAddress).toList = (d.imageParts irparamsAddress).flatten := by
  have hlength : (d.imageParts irparamsAddress).flatten.length = sizeOfIRData :=
    length_flatten_take_imageParts 17
  rw [IRData.image, imageBytes_eq_flatten]
  apply List.ext_getElem
  · rw [Vector.length_toList, hlength]
  · intro o _ ho
    rw [Vector.getElem_toList, Vector.getElem_ofFn, List.getD_eq_getElem _ _ ho]

/-- A record that was decoded has the name of its protocol. -/
theorem hasProtocolName_image (irparamsAddress : BitVec 32) (d : IRData) :
    HasProtocolName (d.image irparamsAddress) := by
  have hbyte : (d.image irparamsAddress).toList.getD 0 0 =
      BitVec.ofNat 8 d.protocol.ctorIdx := by
    rw [toList_image]
    rfl
  rw [HasProtocolName, hbyte]
  cases d.protocol <;> decide

/-- The byte at an offset of the image. -/
def IRData.imageByte (irparamsAddress : BitVec 32) (d : IRData) (o : ℕ) : BitVec 8 :=
  (d.imageParts irparamsAddress).flatten.getD o 0

/-- A field is read from the part that it has in the image. -/
theorem ofBytes_imagePart {α : Type} [ByteImage α] {a : α} (j : ℕ)
    (h : (d.imageParts irparamsAddress)[j]? = some (imageBytes a)) :
    (ofBytes fun k => d.imageByte irparamsAddress (imagePartOffset j + k) : α) = a :=
  ofBytes_part h (length_flatten_take_imageParts j)

/-- A number that fits into a half word. -/
theorem toNat_ofBytes_imagePart {n : ℕ} (j : ℕ) (hn : n < 65536)
    (h : (d.imageParts irparamsAddress)[j]? = some (imageBytes (BitVec.ofNat 16 n))) :
    (ofBytes fun k => d.imageByte irparamsAddress (imagePartOffset j + k) :
      BitVec 16).toNat = n := by
  rw [ofBytes_imagePart j h, BitVec.toNat_ofNat]
  exact Nat.mod_eq_of_lt hn

/-- The durations are read back. -/
theorem timing_ofImage_image (h : d.distanceWidthTimingInfo.Fits) :
    (IRData.ofImage (d.image irparamsAddress)).distanceWidthTimingInfo =
      d.distanceWidthTimingInfo := by
  rw [IRData.ofImage, toList_image]
  exact (DistanceWidthTimingInfo.mk.injEq ..).mpr ⟨toNat_ofBytes_imagePart 6 h.headerMark rfl,
    toNat_ofBytes_imagePart 7 h.headerSpace rfl, toNat_ofBytes_imagePart 8 h.oneMark rfl,
    toNat_ofBytes_imagePart 9 h.oneSpace rfl, toNat_ofBytes_imagePart 10 h.zeroMark rfl,
    toNat_ofBytes_imagePart 11 h.zeroSpace rfl⟩

/-- A record that fits is read back. -/
theorem ofImage_image (h : d.Fits) : .ofImage (d.image irparamsAddress) = d := by
  have htiming : (IRData.ofImage (d.image irparamsAddress)).distanceWidthTimingInfo = _ :=
    timing_ofImage_image h.timing
  have harray : (ofBytes fun k => d.imageByte irparamsAddress (24 + k)) = d.decodedRawDataArray :=
    ofBytes_arrayPart (j := 12) rfl (length_flatten_take_imageParts 12)
  rw [IRData.ofImage, toList_image] at htiming ⊢
  exact (IRData.mk.injEq ..).mpr ⟨ofByte_ctorIdx d.protocol, ofBytes_imagePart 2 rfl,
    ofBytes_imagePart 3 rfl, ofBytes_imagePart 4 rfl, ofBytes_imagePart 5 rfl, htiming, harray,
    toNat_ofBytes_imagePart 13 h.numberOfBits rfl, ofBytes_imagePart 14 rfl⟩

end IRData

end IrRemote
