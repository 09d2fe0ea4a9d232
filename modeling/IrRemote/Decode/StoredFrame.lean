import IrRemote.Mid.IrRemoteDecode
import IrRemote.Op.CodeImage

/-!
# Decoded frames in their fields

The header gives half words to the number of bits and to the durations of an `IRData`. Every
decoder that accepts a frame, or refuses it, leaves numbers that fit, so that a learned frame is
read back from its slot as it was decoded.

## Main definitions

* `DecodeState.Fits` — the record of the last frame fits

## Main results

* `decoders_fit` — every decoder of the chain
* `midIrRemoteDecode_fits` — the whole chain
-/

set_option autoImplicit false

namespace IrRemote

/-- The record of the frame that was decoded last fits into its fields. -/
def DecodeState.Fits (s : DecodeState) : Prop :=
  s.decodedIRData.numberOfBits < 65536 ∧ s.decodedIRData.distanceWidthTimingInfo.Fits

theorem fits_zero : DecodeState.zero.Fits :=
  ⟨by decide, by decide, by decide, by decide, by decide, by decide, by decide⟩

variable {p : IrParams} {s t : DecodeState} {b : Bool}

theorem DecodeState.Fits.decodedIRData (h : s.Fits) : s.decodedIRData.Fits := ⟨h.2, h.1⟩

theorem fits_of_pulseDistanceWidth {n start oneMark zeroMark oneSpace : ℕ} {msb : Bool}
    (ht : decodePulseDistanceWidthData n start oneMark zeroMark oneSpace msb p s = some (b, t))
    (h : s.Fits) : t.Fits := by
  obtain ⟨-, data, -, rfl⟩ := decodePulseDistanceWidthData_spec ht
  exact h

theorem fits_of_checkForRepeat {ticks : ℕ}
    (ht : checkForRepeatSpaceTicksAndSetFlag ticks p s = some t) (h : s.Fits) : t.Fits := by
  obtain ⟨flags, rfl⟩ := checkForRepeatSpaceTicksAndSetFlag_spec ht
  exact h

/-- The decoder leaves a record that fits, whatever its answer. -/
def Decoder.KeepsFit (d : Decoder) : Prop :=
  ∀ p s, p.rawlen ≤ rawBufferLength → s.Fits →
    Attempt.Ensures DecodeState.Fits DecodeState.Fits (d p s)

/-! ## The decoders of one protocol -/

theorem decodeNec_keepsFit : Decoder.KeepsFit decodeNec := by
  intro p s _ hs
  unfold decodeNec
  refine .ite (fun _ => .refuse hs) fun _ => .bind fun _ _ => .ite (fun _ => .refuse hs) fun _ =>
    .ite (fun _ => ?repeated) fun _ => ?full
  case repeated =>
    exact .bind fun _ _ => .bind fun _ _ => .ite (fun _ => .accept hs) fun _ => .refuse hs
  case full =>
    refine .bind fun _ _ => .ite (fun _ => .refuse hs) fun _ => .bind fun ⟨b, u⟩ hu => ?_
    have hfit := fits_of_pulseDistanceWidth hu hs
    refine .ite (fun _ => .refuse hfit) fun _ => .bind fun v hv => ?_
    have hbits : v.Fits := fits_of_checkForRepeat hv ⟨(by decide : necBits < 65536), hfit.2⟩
    exact .ite (fun _ => .accept hbits) fun _ => .accept hbits

theorem decodeKaseikyo_keepsFit : Decoder.KeepsFit decodeKaseikyo := by
  intro p s _ hs
  unfold decodeKaseikyo
  refine .ite (fun _ => .refuse hs) fun _ => .bind fun _ _ => .ite (fun _ => .refuse hs) fun _ =>
    .bind fun ⟨b, u⟩ hu => ?_
  have hvendor := fits_of_pulseDistanceWidth hu hs
  refine .ite (fun _ => .refuse hvendor) fun _ => .bind fun ⟨b, v⟩ hv => ?_
  have hfit := fits_of_pulseDistanceWidth hv hvendor
  exact .ite (fun _ => .refuse hfit) fun _ => .bind fun w hw =>
    .accept (fits_of_checkForRepeat hw ⟨(by decide : kaseikyoBits < 65536), hfit.2⟩)

theorem fits_denonFields (gap : ℕ) (h : s.Fits) : (denonFields gap s).Fits := by
  have hbits : denonBits < 65536 := by decide
  simp only [denonFields]
  split
  · exact ⟨hbits, h.2⟩
  · exact ⟨hbits, h.2⟩

theorem decodeDenon_keepsFit : Decoder.KeepsFit decodeDenon := by
  intro p s _ hs
  unfold decodeDenon
  refine .ite (fun _ => .refuse hs) fun _ => .bind fun ⟨b, u⟩ hu => ?_
  have hfit := fits_of_pulseDistanceWidth hu hs
  exact .ite (fun _ => .refuse hfit) fun _ => .bind fun _ _ => .ite (fun _ => .refuse hfit) fun _ =>
    .bind fun gap _ => .accept (fits_denonFields gap hfit)

/-- The number of bits is read off the length of the frame. -/
theorem decodeSony_keepsFit : Decoder.KeepsFit decodeSony := by
  intro p s hlen hs
  unfold decodeSony
  refine .bind fun _ _ => .ite (fun _ => .refuse hs) fun _ => .ite (fun _ => .refuse hs) fun _ =>
    .bind fun ⟨b, u⟩ hu => ?_
  have hfit := fits_of_pulseDistanceWidth hu hs
  have hbits : (p.rawlen - 1) / 2 < 65536 := by
    rw [rawBufferLength] at hlen
    omega
  exact .ite (fun _ => .refuse hfit) fun _ => .bind fun v hv =>
    .accept (fits_of_checkForRepeat hv ⟨hbits, hfit.2⟩)

theorem decodeLG_keepsFit : Decoder.KeepsFit decodeLG := by
  intro p s _ hs
  unfold decodeLG
  refine .ite (fun _ => .refuse hs) fun _ => .bind fun t _ => ?_
  cases lgProtocol t with
  | none => exact .refuse hs
  | some found =>
    refine .ite (fun _ => ?repeated) fun _ => ?full
    case repeated =>
      exact .bind fun _ _ => .bind fun _ _ => .ite (fun _ => .accept hs) fun _ => .refuse hs
    case full =>
      refine .bind fun _ _ => .ite (fun _ => .refuse hs) fun _ => .bind fun ⟨b, u⟩ hu => ?_
      have hfit := fits_of_pulseDistanceWidth hu hs
      exact .ite (fun _ => .refuse hfit) fun _ => .accept ⟨(by decide : lgBits < 65536), hfit.2⟩

theorem decodeJVC_keepsFit : Decoder.KeepsFit decodeJVC := by
  intro p s _ hs
  unfold decodeJVC
  refine .ite (fun _ => .refuse hs) fun _ => .ite (fun _ => ?repeated) fun _ => ?full
  case repeated =>
    exact .bind fun _ _ => .bind fun _ _ => .bind fun _ _ =>
      .ite (fun _ => .accept hs) fun _ => .accept hs
  case full =>
    refine .bind fun _ _ => .ite (fun _ => .refuse hs) fun _ => .bind fun ⟨b, u⟩ hu => ?_
    have hfit := fits_of_pulseDistanceWidth hu hs
    exact .ite (fun _ => .refuse hfit) fun _ => .accept ⟨(by decide : jvcBits < 65536), hfit.2⟩

theorem decodeSamsung_keepsFit : Decoder.KeepsFit decodeSamsung := by
  intro p s _ hs
  unfold decodeSamsung
  refine .ite (fun _ => .refuse hs) fun _ => .bind fun _ _ => .ite (fun _ => .refuse hs) fun _ =>
    .ite (fun _ => .accept hs) fun _ => .bind fun ⟨b, u⟩ hu => ?_
  have hfit := fits_of_pulseDistanceWidth hu hs
  refine .ite (fun _ => .refuse hfit) fun _ => .ite (fun _ => ?long) fun _ => ?short
  case long =>
    refine .bind fun ⟨b, v⟩ hv => ?_
    have hlong : v.Fits := fits_of_pulseDistanceWidth hv hfit
    exact .ite (fun _ => .refuse hlong) fun _ => .bind fun w hw =>
      .accept (fits_of_checkForRepeat hw ⟨(by decide : samsung48Bits < 65536), hlong.2⟩)
  case short =>
    exact .bind fun w hw =>
      .accept (fits_of_checkForRepeat hw ⟨(by decide : samsungBits < 65536), hfit.2⟩)

theorem decodeFAST_keepsFit : Decoder.KeepsFit decodeFAST := by
  intro p s _ hs
  unfold decodeFAST
  refine .ite (fun _ => .refuse hs) fun _ => .bind fun _ _ => .ite (fun _ => .refuse hs) fun _ =>
    .bind fun ⟨b, u⟩ hu => ?_
  have hfit := fits_of_pulseDistanceWidth hu hs
  refine .ite (fun _ => .refuse hfit) fun _ => .bind fun v hv => ?_
  have hflags : v.Fits := fits_of_checkForRepeat hv hfit
  exact .accept ⟨(by decide : fastBits < 65536), hflags.2⟩

theorem decodeWhynter_keepsFit : Decoder.KeepsFit decodeWhynter := by
  intro p s _ hs
  unfold decodeWhynter
  refine .ite (fun _ => .refuse hs) fun _ => .bind fun _ _ => .ite (fun _ => .refuse hs) fun _ =>
    .bind fun ⟨b, u⟩ hu => ?_
  have hfit := fits_of_pulseDistanceWidth hu hs
  exact .ite (fun _ => .refuse hfit) fun _ =>
    .accept ⟨(by decide : whynterBits < 65536), hfit.2⟩

theorem decodeLegoPowerFunctions_keepsFit : Decoder.KeepsFit decodeLegoPowerFunctions := by
  intro p s _ hs
  unfold decodeLegoPowerFunctions
  refine .bind fun _ _ => .ite (fun _ => .refuse hs) fun _ => .ite (fun _ => .refuse hs) fun _ =>
    .bind fun ⟨b, u⟩ hu => ?_
  have hfit := fits_of_pulseDistanceWidth hu hs
  exact .ite (fun _ => .refuse hfit) fun _ => .bind fun _ _ => .ite (fun _ => .refuse hfit) fun _ =>
    .bind fun _ _ => .accept ⟨(by decide : legoBits < 65536), hfit.2⟩

theorem decodeBoseWave_keepsFit : Decoder.KeepsFit decodeBoseWave := by
  intro p s _ hs
  unfold decodeBoseWave
  refine .bind fun _ _ => .ite (fun _ => .refuse hs) fun _ => .ite (fun _ => .refuse hs) fun _ =>
    .bind fun ⟨b, u⟩ hu => ?_
  have hfit := fits_of_pulseDistanceWidth hu hs
  exact .ite (fun _ => .refuse hfit) fun _ => .bind fun _ _ => .ite (fun _ => .refuse hfit) fun _ =>
    .ite (fun _ => .refuse hfit) fun _ => .bind fun v hv =>
      .accept (fits_of_checkForRepeat hv ⟨(by decide : boseWaveBits < 65536), hfit.2⟩)

theorem decodeMagiQuest_keepsFit : Decoder.KeepsFit decodeMagiQuest := by
  intro p s _ hs
  unfold decodeMagiQuest
  refine .ite (fun _ => .refuse hs) fun _ => .bind fun ⟨b, u⟩ hu => ?_
  have hstart := fits_of_pulseDistanceWidth hu hs
  refine .ite (fun _ => .refuse hstart) fun _ => .ite (fun _ => .refuse hstart) fun _ =>
    .bind fun ⟨b, v⟩ hv => ?_
  have hwand := fits_of_pulseDistanceWidth hv hstart
  refine .ite (fun _ => .refuse hwand) fun _ => .bind fun ⟨b, w⟩ hw => ?_
  have hfit := fits_of_pulseDistanceWidth hw hwand
  exact .ite (fun _ => .refuse hfit) fun _ =>
    .accept ⟨(by decide : magiQuestBits < 65536), hfit.2⟩

/-! ## The biphase decoders -/

/-- The bits of a finished loop are counted in a byte. -/
def CountsInByte (r : Option (Option (ℕ × BitVec 32) × Biphase)) : Prop :=
  ∀ x v, r = some (some x, v) → x.1 < 256

namespace CountsInByte

variable {α : Type} {r r' : Option (Option (ℕ × BitVec 32) × Biphase)}

theorem stopped (v : Biphase) : CountsInByte (some (none, v)) := by
  rintro x w ⟨⟩

theorem finished {n : ℕ} (hn : n < 256) (data : BitVec 32) (v : Biphase) :
    CountsInByte (some (some (n, data), v)) := by
  rintro x w ⟨⟩
  exact hn

theorem bind {x : Option α} {f : α → Option (Option (ℕ × BitVec 32) × Biphase)}
    (h : ∀ a, CountsInByte (f a)) : CountsInByte (x >>= f) := by
  intro y v hy
  obtain ⟨a, -, ha⟩ := Option.bind_eq_some_iff.mp hy
  exact h a y v ha

theorem ite {c : Prop} [Decidable c] (hpos : CountsInByte r) (hneg : CountsInByte r') :
    CountsInByte (if c then r else r') := by
  split_ifs
  · exact hpos
  · exact hneg

end CountsInByte

theorem countsInByte_rc5Loop (rounds : ℕ) {n : ℕ} (hn : n < 256) (data : BitVec 32)
    (v : Biphase) : CountsInByte (rc5Loop p rounds n data v) := by
  induction rounds generalizing n data v with
  | zero =>
    rintro x w ⟨⟩
  | succ rounds ih =>
    have hnext (data : BitVec 32) (v : Biphase) :
        CountsInByte (rc5Loop p rounds ((n + 1) % 256) data v) := ih (Nat.mod_lt _ (by decide)) _ _
    rw [rc5Loop]
    refine .ite (.bind fun _ => .bind fun _ => ?_) (.finished hn _ _)
    exact .ite (hnext _ _) (.ite (hnext _ _) (.stopped _))

theorem countsInByte_rc6Loop (rounds : ℕ) {n : ℕ} (hn : n < 256) (data : BitVec 32)
    (v : Biphase) : CountsInByte (rc6Loop p rounds n data v) := by
  induction rounds generalizing n data v with
  | zero =>
    rintro x w ⟨⟩
  | succ rounds ih =>
    have hnext (data : BitVec 32) (v : Biphase) :
        CountsInByte (rc6Loop p rounds ((n + 1) % 256) data v) := ih (Nat.mod_lt _ (by decide)) _ _
    rw [rc6Loop]
    refine .ite (.bind fun _ => ?_) (.finished hn _ _)
    -- the halves of the toggle bit are read twice
    refine .ite (.bind fun _ => ?_) (.bind fun _ => ?_)
    all_goals
      refine .ite (.stopped _) (.bind fun _ => ?_)
      refine .ite (.bind fun _ => ?_) (.bind fun _ => ?_)
    all_goals exact .ite (.stopped _) (.ite (hnext _ _) (.ite (hnext _ _) (.stopped _)))

theorem decodeRC5_keepsFit : Decoder.KeepsFit decodeRC5 := by
  intro p s _ hs
  unfold decodeRC5
  refine .ite (fun _ => .refuse hs) fun _ => .bind fun ⟨level, v⟩ _ =>
    .ite (fun _ => .refuse hs) fun _ => .bind fun ⟨result, v⟩ hloop => ?_
  cases result with
  | none => exact .refuse hs
  | some r =>
    have hbits : r.1 < 65536 :=
      (countsInByte_rc5Loop _ (by decide) _ _ r v hloop).trans (by decide)
    exact .bind fun w hw => .accept (fits_of_checkForRepeat hw ⟨hbits, hs.2⟩)

theorem decodeRC6_keepsFit : Decoder.KeepsFit decodeRC6 := by
  intro p s _ hs
  unfold decodeRC6
  refine .ite (fun _ => .refuse hs) fun _ => .bind fun _ _ => .bind fun _ _ =>
    .ite (fun _ => .refuse hs) fun _ => .bind fun ⟨level, v⟩ _ =>
    .ite (fun _ => .refuse hs) fun _ => .bind fun ⟨level, v⟩ _ =>
    .ite (fun _ => .refuse hs) fun _ => .bind fun ⟨result, v⟩ hloop => ?_
  cases result with
  | none => exact .refuse hs
  | some r =>
    have hbits : r.1 < 65536 :=
      (countsInByte_rc6Loop _ (by decide) _ _ r v hloop).trans (by decide)
    refine .bind fun w hw => .accept ?_
    have hfit : w.Fits := fits_of_checkForRepeat hw ⟨hbits, hs.2⟩
    exact hfit

/-! ## The last decoders -/

/-- The durations are indices of the array. -/
theorem aggregateFrom_lt_size {n i tSum tWeightedSum short long : ℕ} {array : DurationArray}
    {r : ℕ × ℕ} (hshort : short < durationArraySize) (hlong : long < durationArraySize)
    (h : aggregateFrom n i array tSum tWeightedSum short long = some (some r)) :
    r.1 < durationArraySize ∧ r.2 < durationArraySize := by
  induction n generalizing i array tSum tWeightedSum short long with
  | zero =>
    cases h
    exact ⟨hshort, hlong⟩
  | succ n ih =>
    simp only [aggregateFrom] at h
    split_ifs at h with _ hindex
    · exact ih hindex hlong h
    · exact ih hshort hindex h
    · cases h
    · exact ih hshort hlong h

theorem durations_lt_size {start : ℕ} {r : ℕ × ℕ} (h : durations p start = some (some r)) :
    r.1 < durationArraySize ∧ r.2 < durationArraySize := by
  obtain ⟨c, -, h⟩ := Option.bind_eq_some_iff.mp h
  cases c with
  | none => cases h
  | some c => exact aggregateFrom_lt_size (by decide) (by decide) h

/-- The durations of a frame fit. -/
theorem fits_replayTiming {mark space : ℕ × ℕ} (headerMark headerSpace : ℕ)
    (hmark : mark.1 < durationArraySize ∧ mark.2 < durationArraySize)
    (hspace : space.1 < durationArraySize ∧ space.2 < durationArraySize) :
    (replayTiming headerMark headerSpace mark space).Fits := by
  have hmicros {n : ℕ} (hn : n < durationArraySize) : n * microsPerTick < 65536 := by
    rw [durationArraySize] at hn
    rw [microsPerTick]
    omega
  refine ⟨Nat.mod_lt _ (by decide), Nat.mod_lt _ (by decide), ?_, ?_, hmicros hmark.1, ?_⟩
  · simp only [replayTiming]
    split_ifs
    exacts [hmicros hmark.2, hmicros hmark.1]
  · simp only [replayTiming]
    split_ifs
    exacts [hmicros hspace.1, hmicros hspace.2]
  · simp only [replayTiming]
    split_ifs
    exacts [hmicros hspace.2, hmicros hspace.1]

theorem fits_of_decodeChunks {timing : ChunkTiming} {n i start bits : ℕ}
    (h : decodeChunks timing p n i start bits s = some (b, t)) (hs : s.Fits) : t.Fits := by
  induction n generalizing i start bits s with
  | zero =>
    cases h
    exact hs
  | succ n ih =>
    obtain ⟨⟨decoded, u⟩, hu, h⟩ := Option.bind_eq_some_iff.mp h
    have hfit : u.Fits := fits_of_pulseDistanceWidth hu hs
    simp only at h
    split_ifs at h
    · cases h
      exact hfit
    obtain ⟨v, hv, h⟩ := Option.bind_eq_some_iff.mp h
    rw [storeChunk] at hv
    split_ifs at hv
    cases hv
    exact ih h hfit

theorem distanceWidthBits_le (rawlen : ℕ) (mark space : ℕ × ℕ) :
    distanceWidthBits rawlen mark space ≤ rawlen := by
  rw [distanceWidthBits]
  split_ifs <;> omega

theorem decodeDistanceWidth_keepsFit : Decoder.KeepsFit decodeDistanceWidth := by
  intro p s hlen hs
  unfold decodeDistanceWidth
  refine .ite (fun _ => .refuse hs) fun _ => .bind fun mark hmark => ?_
  rcases mark with _ | mark
  · exact .refuse hs
  refine .bind fun space hspace => ?_
  rcases space with _ | space
  · exact .refuse hs
  have hbits : distanceWidthBits p.rawlen mark space < 65536 :=
    ((distanceWidthBits_le ..).trans hlen).trans_lt (by decide)
  refine .ite (fun _ => .refuse ⟨hbits, hs.2⟩) fun _ => .bind fun ⟨b, u⟩ hu => ?_
  have hchunks : u.Fits := fits_of_decodeChunks hu ⟨hbits, hs.2⟩
  refine .ite (fun _ => .refuse hchunks) fun _ => .bind fun v hv => ?_
  have hrepeat : v.Fits := fits_of_checkForRepeat hv hchunks
  exact .bind fun headerMark _ => .bind fun headerSpace _ => .accept
    ⟨hrepeat.1, fits_replayTiming headerMark headerSpace (durations_lt_size hmark)
      (durations_lt_size hspace)⟩

theorem decodeHash_keepsFit : Decoder.KeepsFit decodeHash := by
  intro p s _ hs
  unfold decodeHash
  exact .ite (fun _ => .refuse hs) fun _ =>
    .bind fun _ _ => .accept ⟨(by decide : 32 < 65536), hs.2⟩

/-! ## The chain -/

/-- Every decoder of the chain leaves a record that fits. -/
theorem decoders_keepsFit : ∀ d ∈ decoders, Decoder.KeepsFit d := by
  simp only [decoders, specificDecoders, List.cons_append, List.nil_append, List.forall_mem_cons]
  exact ⟨decodeNec_keepsFit, decodeKaseikyo_keepsFit, decodeDenon_keepsFit, decodeSony_keepsFit,
    decodeRC5_keepsFit, decodeRC6_keepsFit, decodeLG_keepsFit, decodeJVC_keepsFit,
    decodeSamsung_keepsFit, decodeFAST_keepsFit, decodeWhynter_keepsFit,
    decodeLegoPowerFunctions_keepsFit, decodeBoseWave_keepsFit, decodeMagiQuest_keepsFit,
    decodeDistanceWidth_keepsFit, decodeHash_keepsFit, fun _ h => absurd h List.not_mem_nil⟩

theorem fits_irRemoteInitDecodedIRData (h : s.Fits) : (irRemoteInitDecodedIRData p s).Fits := by
  rw [irRemoteInitDecodedIRData]
  split_ifs
  · exact ⟨(by decide : 0 < 65536), h.2⟩
  · exact ⟨(by decide : 0 < 65536), h.2⟩

theorem tryDecoders_ensures_fits (hlen : p.rawlen ≤ rawBufferLength) (hs : s.Fits) :
    Attempt.Ensures DecodeState.Fits DecodeState.Fits (tryDecoders decoders p s) := by
  refine .firstOf (fun a ha u hu => ?_) hs
  obtain ⟨d, hd, rfl⟩ := List.mem_map.mp ha
  exact decoders_keepsFit d hd p u hlen hu

/-- Whatever was received, the record of the frame fits into its fields. -/
theorem midIrRemoteDecode_fits (hlen : p.rawlen ≤ rawBufferLength) (hs : s.Fits)
    (h : midIrRemoteDecode p s = some (b, t)) : t.Fits := by
  have hinit : (irRemoteInitDecodedIRData p s).Fits := fits_irRemoteInitDecodedIRData hs
  have hensures : Attempt.Ensures DecodeState.Fits DecodeState.Fits (midIrRemoteDecode p s) := by
    refine .ite (fun _ => .refuse hs) fun _ => .ite (fun _ => .accept hinit) fun _ =>
      .bind fun ⟨accepted, u⟩ hu => .accept ?_
    cases accepted
    · exact (tryDecoders_ensures_fits hlen hinit).of_refuse hu
    · exact (tryDecoders_ensures_fits hlen hinit).of_accept hu
  cases b
  · exact hensures.of_refuse h
  · exact hensures.of_accept h

end IrRemote
