import IrRemote.Decode.Offered
import IrRemote.Link.IdealCapture

/-!
# Repeat frames of JVC

A repeat of JVC is a frame of 34 entries, told by the gap in front of it and by its outer marks.
The decoder takes every other frame of that length as well: the test decides only on what is
written, and not on the answer. The longest gap of the test is forty times too long besides,
because the division is by the second summand only.

## Main definitions

* `IsJvcRepeat` — a frame with the gap and the marks of a repeat
* `JvcRepeatRule` — repeats are accepted, and all other frames go on to the next decoders

## Main results

* `decodeJVC_short` — every frame of that length is accepted
* `jvc_repeat_rule_iff` — the rule holds of the repeats
-/

set_option autoImplicit false

namespace IrRemote

/-- The decoders in front of `decodeJVC`, and those behind it. -/
def decodersBeforeJVC : List Decoder := specificDecoders.take 7

def decodersBehindJVC : List Decoder := decoders.drop 8

/-- The longest gap in ticks: a repeat distance and a quarter of it. -/
def jvcRepeatGapTicks : ℕ := (jvcRepeatDistance + jvcRepeatDistance / 4) / microsPerTick

/-- A frame behind a short gap, with a first and a last mark of JVC. -/
def IsJvcRepeat (p : IrParams) : Prop :=
  (∃ g, p.raw 0 = some g ∧ g < jvcRepeatGapTicks) ∧
    (∃ t, p.raw 1 = some t ∧ matchMark t jvcBitMark = true) ∧
    ∃ t, p.raw (p.rawlen - 1) = some t ∧ matchMark t jvcBitMark = true

/-- A repeat is accepted with the code of the last decode in `s`. Any other frame is refused with
the data that `t` has, and the rest of the chain decides on it. -/
def JvcRepeatRule (p : IrParams) (s t : DecodeState) : Prop :=
  ∃ accepted u, decodeJVC p t = some (accepted, u) ∧
    (accepted = true ↔ IsJvcRepeat p) ∧
    (IsJvcRepeat p → u.decodedIRData.protocol = .jvc ∧
      u.decodedIRData.address = s.decodedIRData.address ∧
      u.decodedIRData.command = s.decodedIRData.command ∧
      u.decodedIRData.flags &&& irdataFlagsIsRepeat ≠ 0) ∧
    (¬IsJvcRepeat p → u.decodedIRData = t.decodedIRData ∧
      tryDecoders decoders p (irRemoteInitDecodedIRData p s) = tryDecoders decodersBehindJVC p u)

variable {p : IrParams} {s t : DecodeState} {g m e : ℕ}

/-- What a repeat gives. -/
def jvcRepeated (s : DecodeState) : DecodeState :=
  { s with
    decodedIRData.flags := irdataFlagsIsRepeat ||| irdataFlagsIsLsbFirst
    decodedIRData.address := s.lastDecodedAddress.setWidth 16
    decodedIRData.command := s.lastDecodedCommand.setWidth 16
    decodedIRData.protocol := .jvc }

/-- Every frame of the length of a repeat is accepted. -/
theorem decodeJVC_short (hlen : p.rawlen = 34) (hg : p.raw 0 = some g) (hm : p.raw 1 = some m)
    (he : p.raw (p.rawlen - 1) = some e) (s : DecodeState) :
    decodeJVC p s = some (true,
      if g < jvcMaximumRepeatTicks ∧ matchMark m jvcBitMark ∧ matchMark e jvcBitMark then
        jvcRepeated s
      else s) := by
  have hframe : ¬(p.rawlen ≠ 2 * jvcBits + 2 ∧ p.rawlen ≠ 2 * jvcBits + 4) := fun h => h.1 hlen
  have hshort : p.rawlen = 2 * jvcBits + 2 := hlen
  simp only [decodeJVC, if_neg hframe, if_pos hshort, hg, hm, he, Option.bind_eq_bind,
    Option.bind_some]
  split_ifs <;> rfl

/-- The test of the decoder has a longer gap. -/
theorem IsJvcRepeat.of_eq (h : IsJvcRepeat p) (hg : p.raw 0 = some g) (hm : p.raw 1 = some m)
    (he : p.raw (p.rawlen - 1) = some e) :
    g < jvcMaximumRepeatTicks ∧ matchMark m jvcBitMark ∧ matchMark e jvcBitMark := by
  obtain ⟨⟨g', hg', hgap⟩, ⟨m', hm', hfirst⟩, e', he', hlast⟩ := h
  obtain rfl := Option.some.inj (hg.symm.trans hg')
  obtain rfl := Option.some.inj (hm.symm.trans hm')
  obtain rfl := Option.some.inj (he.symm.trans he')
  exact ⟨hgap.trans (by decide), hfirst, hlast⟩

theorem exists_outer_entries (hlen : p.rawlen = 34) : ∃ g m e, p.raw 0 = some g ∧
    p.raw 1 = some m ∧ p.raw (p.rawlen - 1) = some e := by
  obtain ⟨g, hg⟩ := p.exists_raw (show 0 < rawBufferLength by decide)
  obtain ⟨m, hm⟩ := p.exists_raw (show 1 < rawBufferLength by decide)
  obtain ⟨e, he⟩ := p.exists_raw (show 34 - 1 < rawBufferLength by decide)
  exact ⟨g, m, e, hg, hm, hlen ▸ he⟩

/-- A frame that is no repeat is accepted too. -/
theorem JvcRepeatRule.isJvcRepeat (h : JvcRepeatRule p s t) (hlen : p.rawlen = 34) :
    IsJvcRepeat p := by
  obtain ⟨g, m, e, hg, hm, he⟩ := exists_outer_entries hlen
  obtain ⟨accepted, u, hu, haccepted, -, -⟩ := h
  rw [decodeJVC_short hlen hg hm he t] at hu
  obtain ⟨rfl, -⟩ := Prod.mk.inj (Option.some.inj hu)
  exact haccepted.mp rfl

/-- The code of the last decode comes back. -/
theorem IsJvcRepeat.rule (hrepeat : IsJvcRepeat p) (hlen : p.rawlen = 34)
    (h : OfferedBehind decodersBeforeJVC p s t) : JvcRepeatRule p s t := by
  obtain ⟨g, m, e, hg, hm, he⟩ := exists_outer_entries hlen
  have hdecode := decodeJVC_short hlen hg hm he t
  rw [if_pos (hrepeat.of_eq hg hm he)] at hdecode
  have hbefore : decodersBeforeJVC ⊆ specificDecoders := List.take_subset _ _
  refine ⟨true, jvcRepeated t, hdecode, iff_of_true rfl hrepeat, fun _ => ⟨rfl, ?_, ?_, ?_⟩,
    absurd hrepeat⟩
  · change t.lastDecodedAddress.setWidth 16 = s.decodedIRData.address
    rw [h.lastDecodedAddress hbefore, BitVec.setWidth_setWidth_of_le _ (by decide),
      BitVec.setWidth_eq]
  · change t.lastDecodedCommand.setWidth 16 = s.decodedIRData.command
    rw [h.lastDecodedCommand hbefore, BitVec.setWidth_setWidth_of_le _ (by decide),
      BitVec.setWidth_eq]
  · change (irdataFlagsIsRepeat ||| irdataFlagsIsLsbFirst) &&& irdataFlagsIsRepeat ≠ 0
    decide

/-- The rule holds of a frame with the length of a repeat exactly when it is one. -/
theorem jvc_repeat_rule_iff (hlen : p.rawlen = 34) (h : OfferedBehind decodersBeforeJVC p s t) :
    JvcRepeatRule p s t ↔ IsJvcRepeat p :=
  ⟨fun hrule => hrule.isJvcRepeat hlen, fun hrepeat => hrepeat.rule hlen h⟩

/-! ## Frames that come so far -/

/-- No other decoder in front knows a frame of that length whose first mark is none of RC5 or
RC6. -/
theorem exists_offeredBehind_short (hstop : p.stateForISR = .stop) (hov : p.overflowFlag = false)
    (hlen : p.rawlen = 34) (hm : p.raw 1 = some m) (hrc5 : timingIntervals rc5Unit true m = none)
    (hrc6 : matchMark m rc6HeaderMark = false) (s : DecodeState) :
    ∃ t, OfferedBehind decodersBeforeJVC p s t := by
  have hrefused : ∀ u, tryDecoders decodersBeforeJVC p u =
      some (false, { u with biphase := initBiphaselevel 1 rc5Unit u.biphase }) := by
    intro u
    rw [show decodersBeforeJVC = [decodeNec, decodeKaseikyo, decodeDenon, decodeSony, decodeRC5,
        decodeRC6, decodeLG] from rfl,
      tryDecoders_cons_of_refuse (decodeNec_of_rawlen (by omega) (by omega)),
      tryDecoders_cons_of_refuse (decodeKaseikyo_of_rawlen (by omega)),
      tryDecoders_cons_of_refuse (decodeDenon_of_rawlen (by omega)),
      tryDecoders_cons_of_refuse (decodeSony_of_rawlen (by omega) (by omega) (by omega)),
      tryDecoders_cons_of_refuse (decodeRC5_of_mark hm (by omega) hrc5),
      tryDecoders_cons_of_refuse (decodeRC6_of_mark hm hrc6),
      tryDecoders_cons_of_refuse (decodeLG_of_rawlen (by omega) (by omega))]
    rfl
  exact ⟨_, hstop, hov, hrefused _⟩

/-- The second frame of a key that is held, 25 ms behind the first one. -/
theorem jvc_repeat_rule_iff_held : ∃ p t,
    IdealCapture p (sendPulseDistanceWidthDataV3 jvcProtocolConstants 0x17C4 jvcBits) ∧
      p.raw 0 = some 500 ∧ JvcRepeatRule p .zero t := by
  obtain ⟨p, hp, hgap, hentry⟩ : ∃ p,
      IdealCapture p (sendPulseDistanceWidthDataV3 jvcProtocolConstants 0x17C4 jvcBits) ∧ _ :=
    exists_idealCapture (show recordGapTicks < 500 by decide) (by decide)
  have hlen : p.rawlen = 34 := hp.rawlen
  have hfirst : p.raw 1 = some 10 := (hentry 0 (by decide)).trans (by decide)
  have hlast : p.raw (p.rawlen - 1) = some 10 := by
    rw [hlen]
    exact (hentry 32 (by decide)).trans (by decide)
  obtain ⟨t, ht⟩ := exists_offeredBehind_short hp.stopped hp.overflowFlag hlen hfirst (by decide)
    (by decide) .zero
  refine ⟨p, t, hp, hgap, (jvc_repeat_rule_iff hlen ht).mpr ?_⟩
  exact ⟨⟨500, hgap, by decide⟩, ⟨10, hfirst, by decide⟩, 10, hlast, by decide⟩

/-- A frame of some other remote, with a first mark of 5 ms behind a pause. It is accepted, and no
decoder behind `decodeJVC` sees it. -/
theorem jvc_repeat_rule_other_frame : ∃ p t, p.rawlen = 34 ∧
    OfferedBehind decodersBeforeJVC p .zero t ∧ ¬JvcRepeatRule p .zero t := by
  let p := recordOf 2000 (List.replicate 33 100)
  have hlen : p.rawlen = 34 := rfl
  have hgap : p.raw 0 = some 2000 := raw_recordOf _ _ (by decide)
  have hfirst : p.raw 1 = some 100 := raw_recordOf _ _ (by decide)
  obtain ⟨t, ht⟩ := exists_offeredBehind_short rfl rfl hlen hfirst (by decide) (by decide) .zero
  refine ⟨p, t, hlen, ht, fun hrule => ?_⟩
  obtain ⟨⟨g, hg, hshort⟩, -⟩ := hrule.isJvcRepeat hlen
  obtain rfl := Option.some.inj (hgap.symm.trans hg)
  exact absurd hshort (by decide)

end IrRemote
