import IrRemote.Link.Frames
import IrRemote.RoundTrip.Nec

/-!
# The gap in front of a frame

A full frame of the NEC family behind a short gap is taken for a repeat of NEC2, which
differs from NEC in its repeats only. A frame that is not one of NEC but of Onkyo or Apple
is renamed too, and its fields are then sent as those of a NEC frame.

## Main definitions

* `IsNecWord` — the words whose frame is one of NEC

## Main results

* `decodeNec_accepts_iff` — these are the full frames the decoder accepts
* `gap_replay_iff` — the frames that are sent as the same frame behind two gaps
-/

set_option autoImplicit false

namespace IrRemote

/-- The words of NEC: not those of Apple, and with a command of 8 bits. -/
def IsNecWord (u : LongUnion) : Prop :=
  u.lowWord ≠ appleAddress ∧ u.midHighByte = ~~~u.highByte

instance (u : LongUnion) : Decidable (IsNecWord u) := inferInstanceAs (Decidable (_ ∧ _))

variable {p q : IrParams} {s : DecodeState} {u : LongUnion} {w : BitVec 32} {d : IRData}
  {repeats g g' : ℕ} {toggle : BitVec 8}

/-- The decoder accepts a full frame exactly when it has the header of NEC. -/
theorem decodeNec_accepts_iff (hlen : p.rawlen = 68) :
    (∃ t, decodeNec p s = some (true, t)) ↔
      (∃ t, p.raw 1 = some t ∧ matchMark t necHeaderMark = true) ∧
        ∃ u, p.raw 2 = some u ∧ matchSpace u necHeaderSpace = true := by
  obtain ⟨g, hg⟩ := p.exists_raw (show 0 < rawBufferLength by decide)
  obtain ⟨m, hm⟩ := p.exists_raw (show 1 < rawBufferLength by decide)
  obtain ⟨u, hu⟩ := p.exists_raw (show 2 < rawBufferLength by decide)
  obtain ⟨w, hw⟩ := exists_necWord p
  constructor
  · rintro ⟨t, ht⟩
    refine ⟨⟨m, hm, ?_⟩, u, hu, ?_⟩
    · by_contra hmark
      rw [decodeNec_of_mark hm (Bool.eq_false_iff.mpr hmark)] at ht
      cases ht
    · by_contra hspace
      rw [decodeNec_of_space hlen hu (Bool.eq_false_iff.mpr hspace)] at ht
      cases ht
  · rintro ⟨⟨t, ht, hmark⟩, v, hv, hspace⟩
    exact ⟨_, decodeNec_frame_afterGap hlen ht hmark hv hspace hw hg⟩

/-! ## The word that is sent -/

/-- What is sent of a decoded frame of the family is one frame, whatever the repeats. -/
theorem firstFrame_midIrSendCommon_nec
    (h : d.protocol ∈ [DecodeType.nec, .nec2, .onkyo, .apple]) :
    firstFrame (midIrSendCommon d repeats toggle).1 = some (midIrSendCommon d 0 toggle).1 := by
  simp only [List.mem_cons, List.not_mem_nil, or_false] at h
  rcases h with h | h | h | h <;> simp only [midIrSendCommon, h] <;>
    exact firstFrame_sendPulseDistanceWidthV1 _ _ _

/-- A single frame of NEC2 is one of NEC. -/
theorem sendNEC2_eq (a : BitVec 16) (c : BitVec 8) : sendNEC2 a c 0 = sendNEC a c 0 := by
  rw [sendNEC2, sendNEC, sendPulseDistanceWidthV1_zero, sendPulseDistanceWidthV1_zero]
  rfl

/-- The frame that is sent for a code of NEC2 is that of its word only when the word is one
of NEC. -/
theorem sendNEC_eq_necResent_iff :
    sendNEC (decodeNecValue u).2.1 ((decodeNecValue u).2.2.setWidth 8) 0 =
      sendNECRaw (necResent u).uLong 0 ↔ IsNecWord u := by
  by_cases happle : u.lowWord = appleAddress
  · -- the device of Apple is sent as an 8 bit address
    rw [sendNEC_eq, sendNECRaw_inj, LongUnion.uLong_inj, decodeNecValue, necResent, if_pos happle,
      if_pos happle, ← LongUnion.append_zero, necSentWord_byte]
    refine iff_of_false (fun h => ?_) fun h => h.1 happle
    rw [← h] at happle
    exact complements_ne_appleAddress _ happle
  by_cases hcommand : u.midHighByte = ~~~u.highByte
  -- a command with its complement is sent again as NEC, from the same fields
  · have hprotocol : (decodeNecValue u).1 = .nec := by
      rw [decodeNecValue, if_neg happle, if_pos hcommand]
    have hsent : (midIrSendCommon (necFields u.uLong DecodeState.zero.decodedIRData) 0 0#8).1 =
        sendNECRaw (necResent u).uLong 0 :=
      midIrSendCommon_necFields _
    simp only [necFields, LongUnion.ofULong_uLong, midIrSendCommon, hprotocol] at hsent
    exact iff_of_true hsent ⟨happle, hcommand⟩
  · -- the upper byte of an Onkyo command is sent as a complement
    rw [sendNEC_eq, sendNECRaw_inj, LongUnion.uLong_inj]
    refine iff_of_false (fun h => hcommand ?_) fun h => hcommand h.2
    have hhigh := congrArg LongUnion.highByte h
    have hresent : (necResent u).highByte = u.highByte := by
      rw [necResent, if_neg happle, if_neg hcommand]
      split_ifs <;> rfl
    rw [hresent, decodeNecValue, if_neg happle, if_neg hcommand, necSentWord] at hhigh
    rw [← hhigh, BitVec.not_not, LongUnion.highWord, BitVec.setWidth_append, dif_pos le_rfl,
      BitVec.setWidth_eq]

/-- Behind a repeat distance the fields of the word are sent as those of a NEC frame. -/
theorem firstFrame_necFieldsAfterGap (hflags : d.flags &&& irdataFlagsIsRepeat = 0) :
    firstFrame (midIrSendCommon (necFieldsAfterGap w g d) repeats toggle).1 =
      some (if g < necMaximumRepeatDistance / microsPerTick then
        sendNEC (decodeNecValue (LongUnion.ofULong w)).2.1
          ((decodeNecValue (LongUnion.ofULong w)).2.2.setWidth 8) 0
      else sendNECRaw (necResent (LongUnion.ofULong w)).uLong 0) := by
  by_cases hgap : g < necMaximumRepeatDistance / microsPerTick
  · rw [necFieldsAfterGap_of_lt hgap, if_pos hgap, ← sendNEC2_eq]
    exact firstFrame_midIrSendCommon_nec (List.mem_cons_of_mem _ (List.mem_cons_self ..))
  · have hprotocol := necFields_protocol (w := w) d
    have hmem : (necFields w d).protocol ∈ [DecodeType.nec, .nec2, .onkyo, .apple] := by
      simp only [List.mem_cons, List.not_mem_nil, or_false] at hprotocol ⊢
      tauto
    rw [necFieldsAfterGap_of_le (Nat.le_of_not_lt hgap) hflags, if_neg hgap,
      firstFrame_midIrSendCommon_nec hmem, ← LongUnion.uLong_ofULong w, midIrSendCommon_necFields,
      LongUnion.ofULong_uLong]

/-- Two frames that differ in the gap in front of them are sent as the same frame exactly
when both gaps are repeat distances, or neither is, or their word is one of NEC. -/
theorem gap_replay_iff (hp : NecFrameCapture p) (hq : NecFrameCapture q)
    (hsame : ∀ i, 1 ≤ i → i < 68 → p.raw i = q.raw i) (hg : p.raw 0 = some g)
    (hg' : q.raw 0 = some g') (s s' : DecodeState) (repeats : ℕ) (toggle : BitVec 8) :
    ∃ t t', midIrRemoteDecode p s = some (true, t) ∧ midIrRemoteDecode q s' = some (true, t') ∧
      (firstFrame (midIrSendCommon t.decodedIRData repeats toggle).1 =
          firstFrame (midIrSendCommon t'.decodedIRData repeats toggle).1 ↔
        (g < necMaximumRepeatDistance / microsPerTick ↔
          g' < necMaximumRepeatDistance / microsPerTick) ∨
        ∃ w, necWord p = some w ∧ IsNecWord (LongUnion.ofULong w)) := by
  obtain ⟨w, hw⟩ := exists_necWord p
  -- the word is read off the entries behind the gap
  have hword : necWord q = some w := by
    rw [← hw]
    refine decodeBits_congr fun j hj => ?_
    have hbits : necBits = 32 := rfl
    simp only [bitValue, hsame (3 + 2 * j) (by omega) (by omega),
      hsame (3 + 2 * j + 1) (by omega) (by omega)]
  obtain ⟨t, ht, hd⟩ := hp.decode hg hw s
  obtain ⟨t', ht', hd'⟩ := hq.decode hg' hword s'
  refine ⟨t, t', ht, ht', ?_⟩
  rw [hd, hd', firstFrame_necFieldsAfterGap (irRemoteInitDecodedIRData_not_repeat hp.overflowFlag),
    firstFrame_necFieldsAfterGap (irRemoteInitDecodedIRData_not_repeat hq.overflowFlag),
    Option.some.injEq]
  have hnec : (∃ w, necWord p = some w ∧ IsNecWord (LongUnion.ofULong w)) ↔
      IsNecWord (LongUnion.ofULong w) := by
    constructor
    · rintro ⟨v, hv, h⟩
      obtain rfl : w = v := Option.some.inj (hw.symm.trans hv)
      exact h
    · intro h
      exact ⟨w, hw, h⟩
  rw [hnec]
  -- the code depends on the gap only by the side of the limit on which it lies
  by_cases hlt : g < necMaximumRepeatDistance / microsPerTick <;>
    by_cases hlt' : g' < necMaximumRepeatDistance / microsPerTick
  · simp only [hlt, hlt', if_true, true_or]
  · simp only [hlt, hlt', if_true, if_false, iff_false, not_true, false_or]
    exact sendNEC_eq_necResent_iff
  · simp only [hlt, hlt', if_true, if_false, iff_true, false_or]
    exact eq_comm.trans sendNEC_eq_necResent_iff
  · simp only [hlt, hlt', if_false, true_or]

/-- A frame can be received behind any two gaps. -/
theorem exists_necCaptures (w : BitVec 32) (hg : recordGapTicks < g) (hg' : recordGapTicks < g') :
    ∃ p q, IdealCapture p (sendNECRaw w 0) ∧ IdealCapture q (sendNECRaw w 0) ∧
      p.raw 0 = some g ∧ q.raw 0 = some g' ∧ ∀ i, 1 ≤ i → i < 68 → p.raw i = q.raw i := by
  have hruns : (lineRuns (sendNECRaw w 0)).length = 67 := by
    rw [sendNECRaw, length_lineRuns_lsbFirst ⟨rfl, by decide⟩ (by decide)]
    rfl
  have hlen : (lineRuns (sendNECRaw w 0)).length < rawBufferLength := by
    rw [hruns]
    decide
  obtain ⟨p, hp, hpg, hpentry⟩ := exists_idealCapture hg hlen
  obtain ⟨q, hq, hqg, hqentry⟩ := exists_idealCapture hg' hlen
  refine ⟨p, q, hp, hq, hpg, hqg, fun i hi hlt => ?_⟩
  obtain ⟨i, rfl⟩ := Nat.exists_eq_add_of_le' hi
  rw [hpentry i (by omega), hqentry i (by omega)]

/-- A NEC frame behind a long and a short gap. -/
theorem gap_replay_iff_nec : ∃ p q t t', IdealCapture p (sendNECRaw 0xFD02F807 0) ∧
    IdealCapture q (sendNECRaw 0xFD02F807 0) ∧ p.raw 0 = some 2000 ∧ q.raw 0 = some 800 ∧
    midIrRemoteDecode p .zero = some (true, t) ∧ midIrRemoteDecode q .zero = some (true, t') ∧
    firstFrame (midIrSendCommon t.decodedIRData 0 initialSendToggleValue).1 =
      firstFrame (midIrSendCommon t'.decodedIRData 0 initialSendToggleValue).1 := by
  obtain ⟨p, q, hp, hq, hg, hg', hsame⟩ := @exists_necCaptures 2000 800 0xFD02F807 (by decide)
    (by decide)
  obtain ⟨t, t', ht, ht', hsent⟩ := gap_replay_iff hp.necFrameCapture hq.necFrameCapture hsame hg
    hg' .zero .zero 0 initialSendToggleValue
  exact ⟨p, q, t, t', hp, hq, hg, hg', ht, ht',
    hsent.mpr (.inr ⟨0xFD02F807, hp.necWord_eq, by decide⟩)⟩

/-- An Onkyo frame is sent as a NEC frame behind a short gap. -/
theorem gap_changes_onkyo : ∃ p q t t', NecFrameCapture p ∧ NecFrameCapture q ∧
    (∀ i, 1 ≤ i → i < 68 → p.raw i = q.raw i) ∧ p.raw 0 = some 2000 ∧ q.raw 0 = some 800 ∧
    midIrRemoteDecode p .zero = some (true, t) ∧ midIrRemoteDecode q .zero = some (true, t') ∧
    firstFrame (midIrSendCommon t.decodedIRData 0 initialSendToggleValue).1 =
      some (sendNECRaw 0x12340707 0) ∧
    firstFrame (midIrSendCommon t'.decodedIRData 0 initialSendToggleValue).1 =
      some (sendNECRaw 0xCB340707 0) ∧ sendNECRaw 0x12340707 0 ≠ sendNECRaw 0xCB340707 0 := by
  obtain ⟨p, q, hp, hq, hg, hg', hsame⟩ := @exists_necCaptures 2000 800 0x12340707 (by decide)
    (by decide)
  obtain ⟨t, ht, hd⟩ := hp.necFrameCapture.decode hg hp.necWord_eq .zero
  obtain ⟨t', ht', hd'⟩ := hq.necFrameCapture.decode hg' hq.necWord_eq .zero
  refine ⟨p, q, t, t', hp.necFrameCapture, hq.necFrameCapture, hsame, hg, hg', ht, ht', ?_, ?_,
    mt sendNECRaw_inj.mp (by decide)⟩
  · rw [hd, firstFrame_necFieldsAfterGap (irRemoteInitDecodedIRData_not_repeat hp.overflowFlag),
      if_neg (by decide)]
    exact congrArg (fun w => some (sendNECRaw w 0)) (by decide)
  · rw [hd', firstFrame_necFieldsAfterGap (irRemoteInitDecodedIRData_not_repeat hq.overflowFlag),
      if_pos (by decide), sendNEC_eq]
    exact congrArg (fun w => some (sendNECRaw w 0)) (by decide)

end IrRemote
