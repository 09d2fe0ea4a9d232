import IrRemote.Link.BitEntries
import IrRemote.Link.Frames
import IrRemote.Mid.IrSend
import IrRemote.RoundTrip.Rc5
import IrRemote.RoundTrip.Rc6

/-!
# Frames of 16 bits

JVC, FAST, BoseWave and Lego frames have a header and 16 bits, and the chain tells them by
their timing only. The header of FAST lies inside the windows of RC6, and its bits are read
as half bits up to the toggle bit; the header mark of BoseWave is a start bit of RC5.

## Main definitions

* `ShortCapture` — a capture of a frame of 16 bits
* `ShortCommand` — the commands of the four protocols

## Main results

* `decodeRC6_refuses_pulses` — no pulse distance frame with three units in a one is RC6
* `shortFrame_roundTrip` — every frame is decoded as what it is
-/

set_option autoImplicit false

namespace IrRemote

variable {p : IrParams} {s : DecodeState} {b : Biphase} {levels bits : List Bool}
  {data : BitVec 32} {n rounds : ℕ}

/-! ## RC6 and pulse distance frames -/

/-- A narrow bit without a transition ends the loop. -/
theorem rc6Loop_of_no_transition {l : Bool} (h : Reads p b (l :: l :: levels))
    (hmark : true ∈ l :: l :: levels) (hn : rc6Wide n = false) :
    ∃ b', rc6Loop p (rounds + 1) n data b = some (none, b') := by
  have hlt := h.lt_rawlen hmark
  obtain ⟨b₁, hstart, h₁⟩ := h.next
  obtain ⟨b₂, hend, -⟩ := h₁.next
  have hindex : ¬n = rc6ToggleBitIndex := by simpa [rc6Wide] using hn
  refine ⟨b₂, ?_⟩
  simp only [rc6Loop, if_pos hlt, if_neg hindex, hstart, hend, Option.bind_eq_bind,
    Option.bind_some]
  cases l <;> rfl

/-- So does a toggle bit whose first half is narrow. -/
theorem rc6Loop_of_narrow_start {l : Bool} (h : Reads p b (l :: (!l) :: levels))
    (hn : rc6Wide n = true) :
    ∃ b', rc6Loop p (rounds + 1) n data b = some (none, b') := by
  have hlt := h.lt_rawlen (by cases l <;> simp)
  obtain ⟨b₁, hstart, h₁⟩ := h.next
  obtain ⟨b₂, hend, -⟩ := h₁.next
  have hindex : n = rc6ToggleBitIndex := by simpa [rc6Wide] using hn
  refine ⟨b₂, ?_⟩
  simp only [rc6Loop, if_pos hlt, if_pos hindex, hstart, hend, Option.bind_eq_bind,
    Option.bind_some]
  cases l <;> rfl

/-- So does a toggle bit whose second half is narrow. -/
theorem rc6Loop_of_narrow_end {l : Bool} (h : Reads p b (l :: l :: (!l) :: l :: levels))
    (hn : rc6Wide n = true) :
    ∃ b', rc6Loop p (rounds + 1) n data b = some (none, b') := by
  have hlt := h.lt_rawlen (by cases l <;> simp)
  obtain ⟨b₁, hlevel₁, h₁⟩ := h.next
  obtain ⟨b₂, hlevel₂, h₂⟩ := h₁.next
  obtain ⟨b₃, hlevel₃, h₃⟩ := h₂.next
  obtain ⟨b₄, hlevel₄, -⟩ := h₃.next
  have hindex : n = rc6ToggleBitIndex := by simpa [rc6Wide] using hn
  refine ⟨b₄, ?_⟩
  simp only [rc6Loop, if_pos hlt, if_pos hindex, hlevel₁, hlevel₂, hlevel₃, hlevel₄,
    Option.bind_eq_bind, Option.bind_some]
  cases l <;> rfl

/-- The units of the space of a bit. -/
def pulseUnits (bit : Bool) : ℕ := if bit then 3 else 1

theorem pulseLevels_zero (bits : List Bool) :
    pulseLevels 1 pulseUnits (false :: bits) = true :: false :: pulseLevels 1 pulseUnits bits := rfl

theorem pulseLevels_one (bits : List Bool) : pulseLevels 1 pulseUnits (true :: bits) =
    true :: false :: false :: false :: pulseLevels 1 pulseUnits bits := rfl

/-- The mark and the first unit of the space are read as a one. -/
theorem rc6Loop_pulse (h : Reads p b (true :: false :: levels)) (hn : n < rc6ToggleBitIndex)
    (rounds : ℕ) (data : BitVec 32) : ∃ b', Reads p b' levels ∧
      rc6Loop p (rounds + 1) n data b = rc6Loop p rounds (n + 1) (data <<< 1 ||| 1) b' := by
  have hnarrow : rc6Wide n = false := decide_eq_false (Nat.ne_of_lt hn)
  have hmod : (n + 1) % 256 = n + 1 := Nat.mod_eq_of_lt (Nat.lt_of_le_of_lt hn (by decide))
  have hlt := h.lt_rawlen (List.mem_cons_self ..)
  obtain ⟨b₁, hmark, h₁⟩ := h.next
  obtain ⟨b₂, hspace, h₂⟩ := h₁.next
  exact ⟨b₂, h₂, by rw [rc6Loop_narrow hlt hnarrow hmark hspace, hmod]; rfl⟩

/-- The other two units of the space of a one are no transition. When the toggle bit reads
them as its first half, the next mark is too short for the second. -/
theorem rc6Loop_refuses_rest {bit : Bool}
    (h : Reads p b (false :: false :: pulseLevels 1 pulseUnits (bit :: bits)))
    (hn : n ≤ rc6ToggleBitIndex) : ∃ b', rc6Loop p (rounds + 1) n data b = some (none, b') := by
  have hnext : ∃ levels, pulseLevels 1 pulseUnits (bit :: bits) = true :: false :: levels := by
    cases bit <;> exact ⟨_, rfl⟩
  obtain ⟨levels, hlevels⟩ := hnext
  rw [hlevels] at h
  rcases Nat.lt_or_eq_of_le hn with hlt | rfl
  · exact rc6Loop_of_no_transition h (by simp) (decide_eq_false (Nat.ne_of_lt hlt))
  · exact rc6Loop_of_narrow_end (l := false) h rfl

/-- The zeros in front of the first one are read as ones. -/
theorem rc6Loop_refuses_pulses (hn : n ≤ rc6ToggleBitIndex)
    (hlen : rc6ToggleBitIndex < n + bits.length) (hrounds : rc6ToggleBitIndex < n + rounds)
    (h : Reads p b (pulseLevels 1 pulseUnits bits)) :
    ∃ b', rc6Loop p rounds n data b = some (none, b') := by
  induction bits generalizing n rounds data b with
  | nil =>
    rw [List.length_nil] at hlen
    omega
  | cons bit bits ih =>
    obtain ⟨rounds, rfl⟩ : ∃ r, rounds = r + 1 := ⟨rounds - 1, by omega⟩
    rw [List.length_cons] at hlen
    rcases Nat.lt_or_eq_of_le hn with hlt | rfl
    · cases bit with
      | false =>
        obtain ⟨b₁, hrest, hstep⟩ := rc6Loop_pulse (pulseLevels_zero bits ▸ h) hlt rounds data
        rw [hstep]
        exact ih hlt (by omega) (by omega) hrest
      | true =>
        obtain ⟨b₁, hrest, hstep⟩ := rc6Loop_pulse (pulseLevels_one bits ▸ h) hlt rounds data
        obtain ⟨next, bits, rfl⟩ := List.exists_cons_of_length_pos (show 0 < bits.length by omega)
        obtain ⟨rounds, rfl⟩ : ∃ r, rounds = r + 1 := ⟨rounds - 1, by omega⟩
        rw [hstep]
        exact rc6Loop_refuses_rest hrest hlt
    · cases bit <;> exact rc6Loop_of_narrow_start (l := true) h rfl

/-- A pulse distance frame with marks of one unit and spaces of one or three is no RC6 frame,
whatever its header. -/
theorem decodeRC6_refuses_pulses {t u : ℕ} (ht : p.raw 1 = some t) (hu : p.raw 2 = some u)
    (hlen : rc6ToggleBitIndex + 1 < bits.length)
    (h : Reads p (initBiphaselevel 3 rc6Unit s.biphase) (pulseLevels 1 pulseUnits bits)) :
    ∃ b', decodeRC6 p s = some (false, { s with biphase := b' }) := by
  obtain ⟨bit, bits, rfl⟩ := List.exists_cons_of_length_pos (show 0 < bits.length by omega)
  rw [List.length_cons] at hlen
  obtain ⟨next, rest, rfl⟩ := List.exists_cons_of_length_pos (show 0 < bits.length by omega)
  -- the first bit of RC6 is a mark and the first unit of a space
  have hloop : ∃ b₁ b₂ b₃, getBiphaselevel p (initBiphaselevel 3 rc6Unit s.biphase) =
        some (.mark, b₁) ∧ getBiphaselevel p b₁ = some (.space, b₂) ∧
      rc6Loop p biphaseRounds 0 0#32 b₂ = some (none, b₃) := by
    cases bit with
    | false =>
      obtain ⟨b₁, hmark, h₁⟩ := (pulseLevels_zero (next :: rest) ▸ h).next
      obtain ⟨b₂, hspace, h₂⟩ := h₁.next
      obtain ⟨b₃, hloop⟩ : ∃ b₃, rc6Loop p biphaseRounds 0 0#32 b₂ = some (none, b₃) :=
        rc6Loop_refuses_pulses (by decide) (by omega) (by decide) h₂
      exact ⟨b₁, b₂, b₃, hmark, hspace, hloop⟩
    | true =>
      obtain ⟨b₁, hmark, h₁⟩ := (pulseLevels_one (next :: rest) ▸ h).next
      obtain ⟨b₂, hspace, h₂⟩ := h₁.next
      obtain ⟨b₃, hloop⟩ : ∃ b₃, rc6Loop p biphaseRounds 0 0#32 b₂ = some (none, b₃) :=
        rc6Loop_refuses_rest h₂ (by decide)
      exact ⟨b₁, b₂, b₃, hmark, hspace, hloop⟩
  obtain ⟨b₁, b₂, b₃, hmark, hspace, hloop⟩ := hloop
  by_cases hheader : matchMark t rc6HeaderMark = true ∧ matchSpace u rc6HeaderSpace = true
  · refine ⟨b₃, ?_⟩
    have hshort : ¬(p.rawlen < minRc6Marks + 3 ∧ rc6Bits + 3 < p.rawlen) := by
      have hmarks : minRc6Marks + 3 = 15 := rfl
      have hbits : rc6Bits + 3 = 24 := rfl
      omega
    simp [decodeRC6, if_neg hshort, ht, hu, hheader, hmark, hspace, hloop]
  · rw [not_and_or, Bool.not_eq_true, Bool.not_eq_true] at hheader
    refine ⟨s.biphase, ?_⟩
    rcases hheader with hmark | hspace
    · exact decodeRC6_of_mark ht hmark
    · exact decodeRC6_of_space hu hspace

/-! ## The captures -/

/-- A capture of a header and 16 bits. -/
def ShortCapture (p : IrParams) (c : PulseDistanceWidthProtocolConstants) (x : BitVec 16) : Prop :=
  PulseDistanceCapture p c.distanceWidthTimingInfo.headerMarkMicros
    c.distanceWidthTimingInfo.headerSpaceMicros c.distanceWidthTimingInfo.zeroMarkMicros
    c.distanceWidthTimingInfo.bitSpace (BitWord.lsbBits 16 x)

variable {c : PulseDistanceWidthProtocolConstants} {x : BitVec 16} {f : List TxEvent}

theorem IdealCapture.short (hc : IsPulseDistance c) (hflags : c.flags = protocolIsLsbFirst)
    (h : IdealCapture p (sendFrame c (x.setWidth 32) 16)) : ShortCapture p c x := by
  have hsent := h.cons c.frequencyKHz
  rw [← sendPulseDistanceWidthV1_zero] at hsent
  have hframe := hsent.lsbFirst hc (by rw [hflags]; decide)
  rwa [BitWord.lsbBits_setWidth (by decide)] at hframe

theorem ShortCapture.rawlen_eq (h : ShortCapture p c x) : p.rawlen = 36 := by
  rw [h.rawlen, BitWord.lsbBits_length]

/-- The bits of the frame are decoded. -/
theorem ShortCapture.decode (h : ShortCapture p c x) (hc : IsPulseDistance c)
    (hflags : c.flags = protocolIsLsbFirst)
    (htold : SpacesTold c.distanceWidthTimingInfo.bitSpace c.distanceWidthTimingInfo.oneSpaceMicros)
    (s : DecodeState) :
    decodePulseDistanceWidthDatav3 c.distanceWidthTimingInfo c.flags 16 p s =
      some (true, { s with decodedIRData.decodedRawData := x.setWidth 32 }) := by
  have hdata := @BitsAt.decodeSpaces p 3 _ _ h.bitsAt _ htold hc.mark c.flags s
  have hcollected : collected c.flags (BitWord.lsbBits 16 x) = x.setWidth 32 := by
    rw [hflags]
    exact BitWord.collectLsb_lsbBits_setWidth (by decide)
  rw [BitWord.lsbBits_length, hcollected] at hdata
  exact hdata

/-! ## The decoders in front -/

/-- The header of FAST is read as a start bit and a zero, but the mark behind it is shorter
than a unit. -/
theorem decodeRC5_refuses_fast (h : ShortCapture p fastProtocolConstants x) :
    decodeRC5 p s = some (false, { s with biphase := ⟨3, 1, 0, rc5Unit⟩ }) := by
  obtain ⟨t, ht, hmark⟩ := h.headerMark
  obtain ⟨u, hu, hspace⟩ := h.headerSpace
  obtain ⟨v, hv, hfirst⟩ := h.mark 0 (Nat.zero_le _)
  have htwo : timingIntervals rc5Unit true t = some 2 :=
    (by decide : ∀ t ∈ roundings fastHeaderMark, timingIntervals rc5Unit true t = some 2) t ht
  have hone : timingIntervals rc5Unit false u = some 1 :=
    (by decide : ∀ u ∈ roundings fastHeaderSpace, timingIntervals rc5Unit false u = some 1) u hu
  have hnone : timingIntervals rc5Unit true v = none :=
    (by decide : ∀ v ∈ roundings fastBitMark, timingIntervals rc5Unit true v = none) v hv
  have hin₁ : ¬p.rawlen ≤ 1 := by rw [h.rawlen_eq]; decide
  have hin₂ : ¬p.rawlen ≤ 2 := by rw [h.rawlen_eq]; decide
  have hin₃ : ¬p.rawlen ≤ 3 := by rw [h.rawlen_eq]; decide
  -- the header mark is two units long: a start bit and the first half of the first bit
  have hlevel₁ : getBiphaselevel p (initBiphaselevel 1 rc5Unit s.biphase) =
      some (.mark, ⟨1, 2, 1, rc5Unit⟩) := by
    simp [getBiphaselevel, initBiphaselevel, Biphase.useInterval, hin₁, hmark, htwo]
  have hlevel₂ : getBiphaselevel p ⟨1, 2, 1, rc5Unit⟩ =
      some (.ofBool !false, ⟨2, 2, 0, rc5Unit⟩) := by
    simp [getBiphaselevel, Biphase.useInterval, BiphaseLevel.ofBool, hin₁]
  have hlevel₃ : getBiphaselevel p ⟨2, 2, 0, rc5Unit⟩ =
      some (.ofBool false, ⟨3, 1, 0, rc5Unit⟩) := by
    simp [getBiphaselevel, Biphase.useInterval, BiphaseLevel.ofBool, hin₂, hspace, hone]
  -- a bit mark is no multiple of the unit
  have hlevel₄ : getBiphaselevel p ⟨3, 1, 0, rc5Unit⟩ = some (.error, ⟨3, 1, 0, rc5Unit⟩) := by
    simp [getBiphaselevel, hin₃, hfirst, hnone]
  have hloop : rc5Loop p biphaseRounds 0 0#32 ⟨1, 2, 1, rc5Unit⟩ =
      some (none, ⟨3, 1, 0, rc5Unit⟩) := by
    rw [show biphaseRounds = 766 + 2 from rfl,
      rc5Loop_succ (Nat.lt_of_not_le hin₁) hlevel₂ hlevel₃]
    exact rc5Loop_of_no_transition (Nat.lt_of_not_le hin₃) hlevel₄ hlevel₄
  have hbits : ¬(p.rawlen < (rc5Bits + 1) / 2 + 2 ∧ rc5Bits + 2 < p.rawlen) := by
    rw [h.rawlen_eq]
    decide
  simp [decodeRC5, hbits, hlevel₁, hloop]

/-- The header of BoseWave is read as a start bit and a bit without a transition. -/
theorem decodeRC5_refuses_boseWave (h : ShortCapture p boseWaveProtocolConstants x) :
    decodeRC5 p s = some (false, { s with biphase := ⟨3, 2, 0, rc5Unit⟩ }) := by
  obtain ⟨t, ht, hmark⟩ := h.headerMark
  obtain ⟨u, hu, hspace⟩ := h.headerSpace
  have hone : timingIntervals rc5Unit true t = some 1 :=
    (by decide : ∀ t ∈ roundings boseWaveHeaderMark, timingIntervals rc5Unit true t = some 1) t ht
  have htwo : timingIntervals rc5Unit false u = some 2 :=
    (by decide : ∀ u ∈ roundings boseWaveHeaderSpace, timingIntervals rc5Unit false u = some 2) u hu
  have hin₁ : ¬p.rawlen ≤ 1 := by rw [h.rawlen_eq]; decide
  have hin₂ : ¬p.rawlen ≤ 2 := by rw [h.rawlen_eq]; decide
  have hlevel₁ : getBiphaselevel p (initBiphaselevel 1 rc5Unit s.biphase) =
      some (.mark, ⟨2, 1, 0, rc5Unit⟩) := by
    simp [getBiphaselevel, initBiphaselevel, Biphase.useInterval, hin₁, hmark, hone]
  have hlevel₂ : getBiphaselevel p ⟨2, 1, 0, rc5Unit⟩ = some (.space, ⟨2, 2, 1, rc5Unit⟩) := by
    simp [getBiphaselevel, Biphase.useInterval, hin₂, hspace, htwo]
  have hlevel₃ : getBiphaselevel p ⟨2, 2, 1, rc5Unit⟩ = some (.space, ⟨3, 2, 0, rc5Unit⟩) := by
    simp [getBiphaselevel, Biphase.useInterval, hin₂]
  have hloop : rc5Loop p biphaseRounds 0 0#32 ⟨2, 1, 0, rc5Unit⟩ =
      some (none, ⟨3, 2, 0, rc5Unit⟩) :=
    rc5Loop_of_no_transition (Nat.lt_of_not_le hin₂) hlevel₂ hlevel₃
  have hbits : ¬(p.rawlen < (rc5Bits + 1) / 2 + 2 ∧ rc5Bits + 2 < p.rawlen) := by
    rw [h.rawlen_eq]
    decide
  simp [decodeRC5, hbits, hlevel₁, hloop]

theorem ShortCapture.rc6_refuses_fast (h : ShortCapture p fastProtocolConstants x)
    (s : DecodeState) : ∃ b', decodeRC6 p s = some (false, { s with biphase := b' }) := by
  obtain ⟨t, -, hmark⟩ := h.headerMark
  obtain ⟨u, -, hspace⟩ := h.headerSpace
  have hmax : p.rawlen < 256 := by rw [h.rawlen_eq]; decide
  -- every pulse of the frame is a multiple of the RC6 unit, so the levels are read to the end
  have htold : PulsesTold rc6Unit fastBitMark
      fastProtocolConstants.distanceWidthTimingInfo.bitSpace 1 pulseUnits :=
    ⟨by decide, by decide, by decide, by decide⟩
  have hreads : Reads p (initBiphaselevel 3 rc6Unit s.biphase)
      (pulseLevels 1 pulseUnits (BitWord.lsbBits 16 x)) :=
    @PulseDistanceCapture.reads p rc6Unit _ _ _ _ _ _ _ [] _ h htold hmax
  exact decodeRC6_refuses_pulses hmark hspace (by rw [BitWord.lsbBits_length]; decide) hreads

/-- The four protocols go through RC5 and RC6 to `decodeLG`. -/
theorem tryDecoders_of_pass {b₁ b₂ : Biphase} (hlen : p.rawlen = 36)
    (hrc5 : decodeRC5 p s = some (false, { s with biphase := b₁ }))
    (hrc6 : decodeRC6 p { s with biphase := b₁ } = some (false, { s with biphase := b₂ })) :
    tryDecoders specificDecoders p s =
      tryDecoders (specificDecoders.drop 7) p { s with biphase := b₂ } := by
  rw [tryDecoders_of_short hlen, show specificDecoders.drop 4 = decodeRC5 :: decodeRC6 ::
      decodeLG :: specificDecoders.drop 7 from rfl, tryDecoders_cons_of_refuse hrc5,
    tryDecoders_cons_of_refuse hrc6,
    tryDecoders_cons_of_refuse (decodeLG_of_rawlen (by omega) (by omega))]

/-- Behind `decodeJVC` only FAST, Lego and BoseWave know the length. -/
theorem tryDecoders_of_not_jvc (hlen : p.rawlen = 36)
    (hjvc : checkHeader jvcProtocolConstants.distanceWidthTimingInfo p = some false) :
    tryDecoders (specificDecoders.drop 7) p s = tryDecoders (specificDecoders.drop 9) p s := by
  rw [show specificDecoders.drop 7 = decodeJVC :: decodeSamsung :: specificDecoders.drop 9 from rfl,
    tryDecoders_cons_of_refuse (decodeJVC_of_header hlen hjvc),
    tryDecoders_cons_of_refuse (decodeSamsung_of_rawlen (by omega) (by omega) (by omega))]

theorem tryDecoders_of_not_fast (hlen : p.rawlen = 36)
    (hfast : checkHeader fastProtocolConstants.distanceWidthTimingInfo p = some false) :
    tryDecoders (specificDecoders.drop 9) p s = tryDecoders (specificDecoders.drop 11) p s := by
  rw [show specificDecoders.drop 9 =
      decodeFAST :: decodeWhynter :: specificDecoders.drop 11 from rfl,
    tryDecoders_cons_of_refuse (decodeFAST_of_header hlen hfast),
    tryDecoders_cons_of_refuse (decodeWhynter_of_rawlen (by omega))]

/-! ## The frames in the chain -/

theorem ShortCapture.chain_jvc (h : ShortCapture p jvcProtocolConstants x) (s : DecodeState) :
    ∃ b', tryDecoders specificDecoders p s = some (true, { s with
      biphase := b'
      decodedIRData := jvcFields (x.setWidth 32) s.decodedIRData }) := by
  obtain ⟨t, ht, hmark⟩ := h.headerMark
  have hlong : 69 ≤ t := (by decide : ∀ t ∈ roundings jvcHeaderMark, 69 ≤ t) t ht
  have hin : 1 < p.rawlen := by rw [h.rawlen_eq]; decide
  have hheader : checkHeader jvcProtocolConstants.distanceWidthTimingInfo p = some true :=
    h.checkHeader (by decide)
  refine ⟨initBiphaselevel 1 rc5Unit s.biphase, ?_⟩
  rw [tryDecoders_of_pass h.rawlen_eq (decodeRC5_of_long_mark hmark hin hlong)
      (decodeRC6_of_long_mark hmark hlong),
    show specificDecoders.drop 7 = decodeJVC :: specificDecoders.drop 8 from rfl]
  exact tryDecoders_cons_of_accept (decodeJVC_frame h.rawlen_eq hheader
    (h.decode ⟨rfl, by decide⟩ rfl (by decide)))

theorem ShortCapture.chain_fast (h : ShortCapture p fastProtocolConstants x) (s : DecodeState) :
    ∃ b' g, tryDecoders specificDecoders p s = some (true, { s with
      biphase := b'
      decodedIRData := (fastFields (x.setWidth 32) s.decodedIRData).afterGap g
        (fastMaximumRepeatDistance / microsPerTick) }) := by
  obtain ⟨g, hg, -⟩ := h.gap
  obtain ⟨b', hrc6⟩ := h.rc6_refuses_fast { s with biphase := ⟨3, 1, 0, rc5Unit⟩ }
  have hjvc : checkHeader jvcProtocolConstants.distanceWidthTimingInfo p = some false :=
    h.checkHeader (by decide)
  have hheader : checkHeader fastProtocolConstants.distanceWidthTimingInfo p = some true :=
    h.checkHeader (by decide)
  refine ⟨b', g, ?_⟩
  rw [tryDecoders_of_pass h.rawlen_eq (decodeRC5_refuses_fast h) hrc6,
    tryDecoders_of_not_jvc h.rawlen_eq hjvc,
    show specificDecoders.drop 9 = decodeFAST :: specificDecoders.drop 10 from rfl]
  exact tryDecoders_cons_of_accept (decodeFAST_frame h.rawlen_eq hheader
    (h.decode ⟨rfl, by decide⟩ rfl (by decide)) hg)

theorem ShortCapture.chain_lego (h : ShortCapture p legoProtocolConstants x) (s : DecodeState) :
    ∃ b' g, tryDecoders specificDecoders p s = some (true, { s with
      biphase := b'
      decodedIRData :=
        legoFields g { s.decodedIRData with decodedRawData := x.setWidth 32 } }) := by
  obtain ⟨g, hg, -⟩ := h.gap
  obtain ⟨t, ht, hmark⟩ := h.headerMark
  obtain ⟨v, hv, hlast⟩ := h.mark 16 (by rw [BitWord.lsbBits_length])
  -- the header mark is too short for both of the biphase decoders
  obtain ⟨hrc5, hrc6⟩ := (by decide : ∀ t ∈ roundings legoHeaderMark,
    timingIntervals rc5Unit true t = none ∧ matchMark t rc6HeaderMark = false) t ht
  have hstop := (by decide : ∀ v ∈ roundings legoBitMark, matchMark v legoBitMark = true) v hv
  have hin : 1 < p.rawlen := by rw [h.rawlen_eq]; decide
  have hjvc : checkHeader jvcProtocolConstants.distanceWidthTimingInfo p = some false :=
    h.checkHeader (by decide)
  have hfast : checkHeader fastProtocolConstants.distanceWidthTimingInfo p = some false :=
    h.checkHeader (by decide)
  have hheader : checkHeader legoProtocolConstants.distanceWidthTimingInfo p = some true :=
    h.checkHeader (by decide)
  refine ⟨initBiphaselevel 1 rc5Unit s.biphase, g, ?_⟩
  rw [tryDecoders_of_pass h.rawlen_eq (decodeRC5_of_mark hmark hin hrc5)
      (decodeRC6_of_mark hmark hrc6),
    tryDecoders_of_not_jvc h.rawlen_eq hjvc, tryDecoders_of_not_fast h.rawlen_eq hfast,
    show specificDecoders.drop 11 = decodeLegoPowerFunctions :: specificDecoders.drop 12 from rfl]
  exact tryDecoders_cons_of_accept (decodeLego_frame h.rawlen_eq hheader
    (h.decode ⟨rfl, by decide⟩ rfl (by decide)) hlast hstop hg)

/-- A BoseWave frame whose bytes are complements. -/
theorem ShortCapture.chain_boseWave (h : ShortCapture p boseWaveProtocolConstants x)
    (hparity : (x &&& 0xFF).setWidth 8 ^^^ (x >>> 8).setWidth 8 = 0xFF#8) (s : DecodeState) :
    ∃ b' g, tryDecoders specificDecoders p s = some (true, { s with
      biphase := b'
      decodedIRData := (boseWaveFields (x.setWidth 32) s.decodedIRData).afterGap g
        (boseWaveMaximumRepeatDistance / microsPerTick) }) := by
  obtain ⟨g, hg, -⟩ := h.gap
  obtain ⟨t, ht, hmark⟩ := h.headerMark
  obtain ⟨v, hv, hlast⟩ := h.mark 16 (by rw [BitWord.lsbBits_length])
  have hrc6 := (by decide : ∀ t ∈ roundings boseWaveHeaderMark,
    matchMark t rc6HeaderMark = false) t ht
  -- every entry that the receiver may record for a duration is checked
  have hstop := (by decide : ∀ v ∈ roundings boseWaveBitMark,
    matchMark v boseWaveBitMark = true) v hv
  have hjvc : checkHeader jvcProtocolConstants.distanceWidthTimingInfo p = some false :=
    h.checkHeader (by decide)
  have hfast : checkHeader fastProtocolConstants.distanceWidthTimingInfo p = some false :=
    h.checkHeader (by decide)
  have hlego : checkHeader legoProtocolConstants.distanceWidthTimingInfo p = some false :=
    h.checkHeader (by decide)
  have hheader : checkHeader boseWaveProtocolConstants.distanceWidthTimingInfo p = some true :=
    h.checkHeader (by decide)
  refine ⟨⟨3, 2, 0, rc5Unit⟩, g, ?_⟩
  rw [tryDecoders_of_pass h.rawlen_eq (decodeRC5_refuses_boseWave h)
      (decodeRC6_of_mark hmark hrc6),
    tryDecoders_of_not_jvc h.rawlen_eq hjvc, tryDecoders_of_not_fast h.rawlen_eq hfast,
    show specificDecoders.drop 11 = decodeLegoPowerFunctions :: decodeBoseWave ::
      specificDecoders.drop 13 from rfl,
    tryDecoders_cons_of_refuse (decodeLego_of_header hlego)]
  have hword : ((x.setWidth 32).setWidth 16 : BitVec 16) = x :=
    BitVec.setWidth_setWidth_of_le _ (by decide)
  exact tryDecoders_cons_of_accept (decodeBoseWave_frame h.rawlen_eq hheader
    (h.decode ⟨rfl, by decide⟩ rfl (by decide)) hlast hstop (by rw [hword]; exact hparity) hg)

/-! ## The words of the frames -/

variable {high low : BitVec 8} {channel mode command : BitVec 4} {d : IRData} {repeats : ℕ}
  {toggle : BitVec 8}

/-- Two bytes of a frame, the lower one first. -/
theorem or_shiftLeft_bytes :
    low.setWidth 32 ||| (high.setWidth 32 <<< 8) = (high ++ low).setWidth 32 := by
  rw [BitVec.or_comm, BitVec.setWidth_append_eq_shiftLeft_setWidth_or]

theorem jvcFields_command : (jvcFields ((high ++ low).setWidth 32) d).command =
    high.setWidth 16 := by
  have hbits : jvcAddressBits = 8 := rfl
  ext i hi
  rw [jvcFields, BitVec.getElem_setWidth, BitVec.getElem_setWidth, BitVec.getLsbD_ushiftRight,
    BitVec.getLsbD_setWidth, BitVec.getLsbD_append, hbits]
  simp
  omega

theorem jvcFields_address : (jvcFields ((high ++ low).setWidth 32) d).address =
    low.setWidth 16 := by
  -- bit by bit: the mask leaves the low byte
  have hmask := (by decide : ∀ i < 16, (0xFF#32).getLsbD i = decide (i < 8))
  ext i hi
  rw [jvcFields, BitVec.getElem_setWidth, BitVec.getElem_setWidth, BitVec.getLsbD_and,
    BitVec.getLsbD_setWidth, BitVec.getLsbD_append, BitVec.ofNat_eq_ofNat, hmask i hi]
  by_cases hlow : i < 8
  · simp [hlow]
    omega
  · simp [hlow, BitVec.getLsbD_of_ge low i (Nat.le_of_not_lt hlow)]

/-- The complement of the command is received. -/
theorem fastFields_flags : (fastFields ((~~~low ++ low).setWidth 32) d).flags = d.flags := by
  rw [fastFields, LongUnion.lowByte_ofULong_setWidth, LongUnion.midLowByte_ofULong_setWidth]
  simp

theorem fastFields_command :
    (fastFields ((~~~low ++ low).setWidth 32) d).command = low.setWidth 16 := by
  rw [fastFields, LongUnion.lowByte_ofULong_setWidth, LongUnion.extractLsb'_append_low]

/-- The word of a BoseWave frame. -/
def boseWaveWord (c : BitVec 8) : BitVec 16 := (~~~(c.setWidth 16) <<< 8) ||| c.setWidth 16

theorem boseWaveWord_low (c : BitVec 8) : (boseWaveWord c &&& 0xFF).setWidth 8 = c := by
  revert c
  decide

theorem boseWaveWord_parity (c : BitVec 8) :
    (boseWaveWord c &&& 0xFF).setWidth 8 ^^^ (boseWaveWord c >>> 8).setWidth 8 = 0xFF#8 := by
  revert c
  decide

theorem boseWaveFields_command (c : BitVec 8) :
    (boseWaveFields ((boseWaveWord c).setWidth 32) d).command = c.setWidth 16 := by
  have hword : ((boseWaveWord c).setWidth 32).setWidth 16 = boseWaveWord c :=
    BitVec.setWidth_setWidth_of_le _ (by decide)
  rw [boseWaveFields, hword, boseWaveWord_low]

/-- The four nibbles of a Lego frame, the last of them the parity. -/
def legoWord (channel mode command : BitVec 4) : BitVec 16 :=
  channel ++ mode ++ command ++ (0xF ^^^ channel ^^^ mode ^^^ command)

theorem setWidth_and_nibble (x : BitVec 16) (k : ℕ) :
    ((x >>> k) &&& 0xF).setWidth 8 = (x.extractLsb' k 4).setWidth 8 := by
  have hmask := (by decide : ∀ i < 8, (0xF#16).getLsbD i = decide (i < 4))
  apply BitVec.eq_of_getLsbD_eq
  intro i hi
  simp only [BitVec.getLsbD_setWidth, BitVec.getLsbD_and, BitVec.getLsbD_ushiftRight,
    BitVec.getLsbD_extractLsb', BitVec.ofNat_eq_ofNat, hmask i hi]
  rw [Bool.and_comm (x.getLsbD _)]

theorem setWidth_ushiftRight_nibble (x : BitVec 16) :
    (x >>> 12).setWidth 8 = (x.extractLsb' 12 4).setWidth 8 := by
  apply BitVec.eq_of_getLsbD_eq
  intro i hi
  simp only [BitVec.getLsbD_setWidth, BitVec.getLsbD_ushiftRight, BitVec.getLsbD_extractLsb']
  by_cases hnibble : i < 4
  · simp [hnibble]
  · simp [hnibble, BitVec.getLsbD_of_ge x (12 + i) (by omega)]

theorem legoWord_channel :
    (legoWord channel mode command >>> 12).setWidth 8 = channel.setWidth 8 := by
  rw [setWidth_ushiftRight_nibble]
  congr 1
  exact (BitVec.extractLsb'_append_eq_of_le (by decide)).trans <|
    (BitVec.extractLsb'_append_eq_of_le (by decide)).trans <|
      (BitVec.extractLsb'_append_eq_of_le (Nat.le_refl 4)).trans BitVec.extractLsb'_eq_self

theorem legoWord_mode :
    ((legoWord channel mode command >>> 8) &&& 0xF).setWidth 8 = mode.setWidth 8 := by
  rw [setWidth_and_nibble]
  congr 1
  exact (BitVec.extractLsb'_append_eq_of_le (by decide)).trans <|
    (BitVec.extractLsb'_append_eq_of_le (by decide)).trans BitVec.extractLsb'_append_eq_right

theorem legoWord_command :
    ((legoWord channel mode command >>> 4) &&& 0xF).setWidth 8 = command.setWidth 8 := by
  rw [setWidth_and_nibble]
  congr 1
  exact (BitVec.extractLsb'_append_eq_of_le (by decide)).trans BitVec.extractLsb'_append_eq_right

theorem legoParity_nibbles :
    legoParity (channel.setWidth 8) (mode.setWidth 8) (command.setWidth 8) =
      (0xF ^^^ channel ^^^ mode ^^^ command).setWidth 8 := by
  rw [legoParity, BitVec.setWidth_xor, BitVec.setWidth_xor, BitVec.setWidth_xor]
  rfl

theorem legoWord_parity : (legoWord channel mode command &&& 0xF).setWidth 8 =
    legoParity (channel.setWidth 8) (mode.setWidth 8) (command.setWidth 8) := by
  rw [legoParity_nibbles, ← BitVec.ushiftRight_zero (legoWord channel mode command),
    setWidth_and_nibble]
  congr 1
  exact BitVec.extractLsb'_append_eq_right

theorem and_nibble (x : BitVec 8) : x &&& 0x0F = (x.setWidth 4).setWidth 8 := by
  revert x
  decide

/-- Two nibbles in a byte. -/
theorem shiftLeft_or_nibbles (x y : BitVec 4) :
    ((x.setWidth 8).setWidth 16 <<< 4) ||| (y.setWidth 8).setWidth 16 = (x ++ y).setWidth 16 := by
  revert x y
  decide

/-- The sender cuts its arguments to nibbles. -/
theorem sendLegoPowerFunctions_eq (aChannel aCommand aMode : BitVec 8) (five : Bool) :
    sendLegoPowerFunctions aChannel aCommand aMode five = sendLegoPowerFunctionsV2
      (legoWord (aChannel.setWidth 4) (aMode.setWidth 4) (aCommand.setWidth 4))
      (aChannel &&& 0x0F) five := by
  have hword (n m c q : BitVec 4) :
      ((((n.setWidth 8).setWidth 16 <<< 4) ||| (m.setWidth 8).setWidth 16) <<< 8) |||
        ((c.setWidth 8).setWidth 16 <<< 4) ||| (q.setWidth 8).setWidth 16 = n ++ m ++ c ++ q := by
    rw [BitVec.or_assoc, shiftLeft_or_nibbles, shiftLeft_or_nibbles,
      ← BitVec.setWidth_append_eq_shiftLeft_setWidth_or, BitVec.setWidth_eq]
    have hassoc : n ++ m ++ c ++ q = (n ++ m) ++ (c ++ q) := by
      rw [BitVec.append_assoc]
      rfl
    exact hassoc.symm
  simp only [sendLegoPowerFunctions, legoModeBits, legoCommandBits, legoParityBits, and_nibble,
    legoParity_nibbles, hword, legoWord]

/-- The parity is right. -/
theorem legoFields_legoWord (g : ℕ) :
    let f := legoFields g { d with
      decodedRawData := (legoWord channel mode command).setWidth 32 }
    f.address = (channel.setWidth 8).setWidth 16 ∧
      f.command = (command.setWidth 8).setWidth 16 ||| ((mode.setWidth 8).setWidth 16 <<< 4) ∧
      f.flags &&& irdataFlagsParityFailed = 0 := by
  have hword : ((legoWord channel mode command).setWidth 32).setWidth 16 =
      legoWord channel mode command := BitVec.setWidth_setWidth_of_le _ (by decide)
  simp only [legoFields, legoModeBits, legoCommandBits, legoParityBits, hword, Nat.reduceAdd,
    legoWord_channel, legoWord_mode, legoWord_command, legoWord_parity]
  refine ⟨trivial, trivial, ?_⟩
  split_ifs <;> simp_all <;> decide

/-! ## What is sent -/

/-- The commands of the four protocols, with the address their frames carry. -/
inductive ShortCommand (d : IRData) : BitVec 16 → Prop
  | jvc (hprotocol : d.protocol = .jvc) (haddress : d.address < 0x100)
      (hcommand : d.command < 0x100) : ShortCommand d d.address
  | fast (hprotocol : d.protocol = .fast) (hcommand : d.command < 0x100) : ShortCommand d 0
  | boseWave (hprotocol : d.protocol = .boseWave) (hcommand : d.command < 0x100) :
      ShortCommand d 0
  | legoPf (hprotocol : d.protocol = .legoPf) (haddress : d.address < 0x10)
      (hcommand : d.command < 0x100) : ShortCommand d d.address

/-- A repeated command of 16 bits has the same frame every time. -/
theorem shortCapture_of_mem (hc : IsPulseDistance c) (hflags : c.flags = protocolIsLsbFirst)
    {n : ℕ} (hf : f ∈ (.enableIROut c.frequencyKHz :: sendFrame c (x.setWidth 32) 16) ::
      List.replicate n (sendFrame c (x.setWidth 32) 16)) (h : IdealCapture p f) :
    ShortCapture p c x := by
  rcases List.mem_cons.mp hf with rfl | hf
  · exact h.tail.short hc hflags
  · rw [List.eq_of_mem_replicate hf] at h
    exact h.short hc hflags

theorem IdealCapture.jvc {a c : BitVec 8} (hf : f ∈ frames (sendJVC a c repeats))
    (h : IdealCapture p f) (hlen : p.rawlen = 36) :
    ShortCapture p jvcProtocolConstants (c ++ a) := by
  rw [sendJVC, show jvcAddressBits = 8 from rfl, or_shiftLeft_bytes,
    frames_sendCommands (((noWait_nil.cons rfl).cons rfl).cons rfl)
      (noWait_sendPulseDistanceWidthDataV3 _ _) rfl] at hf
  rcases List.mem_cons.mp hf with rfl | hf
  · exact h.tail.short ⟨rfl, by decide⟩ rfl
  · -- a repeat has no header
    rw [List.eq_of_mem_replicate hf, sendPulseDistanceWidthDataV3,
      sendPulseDistanceWidthDataV1_lsb (by decide)] at h
    have hrepeat := (h.headerless (filterMap_pulse?_data _ _ _ _)).rawlen
    rw [BitWord.lsbBits_length, hlen] at hrepeat
    exact absurd hrepeat (by decide)

theorem IdealCapture.fast {c : BitVec 8} (hf : f ∈ frames (sendFAST c repeats))
    (h : IdealCapture p f) : ShortCapture p fastProtocolConstants (~~~c ++ c) := by
  have hcarrier : NoWait [.enableIROut fastKhz] := noWait_nil.cons rfl
  have hframes : frames (sendFAST c repeats) =
      (.enableIROut fastKhz ::
          sendFrame fastProtocolConstants ((~~~c ++ c).setWidth 32) fastBits) ::
        List.replicate repeats
          (sendFrame fastProtocolConstants ((~~~c ++ c).setWidth 32) fastBits) := by
    rw [sendFAST, or_shiftLeft_bytes]
    exact frames_sendCommands hcarrier
      (noWait_sendFrame fastProtocolConstants ((~~~c ++ c).setWidth 32)) rfl
  rw [hframes] at hf
  exact shortCapture_of_mem ⟨rfl, by decide⟩ rfl hf h

theorem IdealCapture.boseWave {c : BitVec 8} (hf : f ∈ frames (sendBoseWave c repeats))
    (h : IdealCapture p f) : ShortCapture p boseWaveProtocolConstants (boseWaveWord c) := by
  rw [sendBoseWave, frames_sendPulseDistanceWidthV1 rfl] at hf
  exact shortCapture_of_mem ⟨rfl, by decide⟩ rfl hf h

theorem IdealCapture.legoPf {aChannel aCommand aMode : BitVec 8} {five : Bool}
    (hf : f ∈ frames (sendLegoPowerFunctions aChannel aCommand aMode five))
    (h : IdealCapture p f) : ShortCapture p legoProtocolConstants
      (legoWord (aChannel.setWidth 4) (aMode.setWidth 4) (aCommand.setWidth 4)) := by
  rw [sendLegoPowerFunctions_eq, sendLegoPowerFunctionsV2,
    frames_sendPulseDistanceWidthV1 rfl] at hf
  exact @shortCapture_of_mem p legoProtocolConstants _ _ ⟨rfl, by decide⟩ rfl _ hf h

theorem legoAddress_eq {a : BitVec 16} (h : a < 0x10) :
    (((a.setWidth 8).setWidth 4).setWidth 8).setWidth 16 = a := by
  rw [BitVec.lt_def] at h
  rw [← BitVec.toNat_inj]
  simp only [BitVec.toNat_setWidth, BitVec.ofNat_eq_ofNat, BitVec.toNat_ofNat, Nat.reducePow,
    Nat.reduceMod] at h ⊢
  omega

theorem legoCommand_eq {c : BitVec 16} (h : c < 0x100) :
    (((c.setWidth 8).setWidth 4).setWidth 8).setWidth 16 |||
      (((((c >>> 4).setWidth 8).setWidth 4).setWidth 8).setWidth 16 <<< 4) = c := by
  obtain ⟨y, rfl⟩ : ∃ y : BitVec 8, y.setWidth 16 = c :=
    ⟨c.setWidth 8, LongUnion.setWidth_setWidth_eq_iff.mpr h⟩
  clear h
  revert y
  decide

/-- Every frame of 36 entries is decoded as the command it was sent for. -/
theorem shortFrame_roundTrip {address : BitVec 16} (hd : ShortCommand d address)
    (hf : f ∈ frames (midIrSendCommon d repeats toggle).1) (h : IdealCapture p f)
    (hlen : p.rawlen = 36) (s : DecodeState) :
    ∃ s', midIrRemoteDecode p s = some (true, s') ∧
      s'.decodedIRData.protocol = d.protocol ∧
      s'.decodedIRData.address = address ∧
      s'.decodedIRData.command = d.command ∧
      s'.decodedIRData.flags &&& irdataFlagsParityFailed = 0 := by
  have hflags := irRemoteInitDecodedIRData_flags (s := s) h.overflowFlag
  have hmask : irdataFlagsIsRepeat &&& irdataFlagsParityFailed = 0 := by decide
  have hempty : irdataFlagsEmpty &&& irdataFlagsParityFailed = 0 := by decide
  cases hd with
  | jvc hprotocol haddress hcommand =>
    simp only [midIrSendCommon, hprotocol] at hf
    obtain ⟨b', hchain⟩ := (h.jvc hf hlen).chain_jvc (irRemoteInitDecodedIRData p s)
    refine ⟨_, midIrRemoteDecode_of_accept h.stopped h.overflowFlag hchain, hprotocol.symm, ?_, ?_,
      ?_⟩
    · exact jvcFields_address.trans (LongUnion.setWidth_setWidth_eq_iff.mpr haddress)
    · exact jvcFields_command.trans (LongUnion.setWidth_setWidth_eq_iff.mpr hcommand)
    · rw [jvcFields, hflags]
      exact hempty
  | fast hprotocol hcommand =>
    simp only [midIrSendCommon, hprotocol] at hf
    obtain ⟨b', g, hchain⟩ := (h.fast hf).chain_fast (irRemoteInitDecodedIRData p s)
    refine ⟨_, midIrRemoteDecode_of_accept h.stopped h.overflowFlag hchain, hprotocol.symm, rfl, ?_,
      ?_⟩
    · dsimp only [IRData.afterGap]
      rw [fastFields_command, LongUnion.setWidth_setWidth_eq_iff.mpr hcommand]
    · dsimp only
      rw [IRData.afterGap_and hmask, fastFields_flags, hflags]
      exact hempty
  | boseWave hprotocol hcommand =>
    simp only [midIrSendCommon, hprotocol] at hf
    obtain ⟨b', g, hchain⟩ := (h.boseWave hf).chain_boseWave (boseWaveWord_parity _)
      (irRemoteInitDecodedIRData p s)
    have haddress : (irRemoteInitDecodedIRData p s).decodedIRData.address = 0 := by
      rw [irRemoteInitDecodedIRData_eq h.overflowFlag]
    refine ⟨_, midIrRemoteDecode_of_accept h.stopped h.overflowFlag hchain, hprotocol.symm, ?_, ?_,
      ?_⟩
    · exact haddress
    · dsimp only [IRData.afterGap]
      rw [boseWaveFields_command, LongUnion.setWidth_setWidth_eq_iff.mpr hcommand]
    · dsimp only
      rw [IRData.afterGap_and hmask, boseWaveFields, hflags]
      exact hempty
  | legoPf hprotocol haddress hcommand =>
    simp only [midIrSendCommon, hprotocol] at hf
    obtain ⟨b', g, hchain⟩ := (h.legoPf hf).chain_lego (irRemoteInitDecodedIRData p s)
    obtain ⟨hreceived, hcode, hparity⟩ :=
      legoFields_legoWord (d := (irRemoteInitDecodedIRData p s).decodedIRData) g
    refine ⟨_, midIrRemoteDecode_of_accept h.stopped h.overflowFlag hchain, hprotocol.symm, ?_, ?_,
      hparity⟩
    · exact hreceived.trans (legoAddress_eq haddress)
    · exact hcode.trans (legoCommand_eq hcommand)

theorem exists_shortCapture (hc : IsPulseDistance c) (hflags : c.flags = protocolIsLsbFirst)
    (x : BitVec 16) : ∃ p, IdealCapture p (sendPulseDistanceWidthV1 c (x.setWidth 32) 16 0) := by
  have hlen : (lineRuns (sendPulseDistanceWidthV1 c (x.setWidth 32) 16 0)).length <
      rawBufferLength := by
    rw [length_lineRuns_lsbFirst hc (by rw [hflags]; decide)]
    decide
  obtain ⟨p, hp, -⟩ := exists_idealCapture (show recordGapTicks < 101 by decide) hlen
  exact ⟨p, hp⟩

/-- A FAST command. -/
theorem shortFrame_roundTrip_fast : ∃ p s', IdealCapture p (sendFAST 0xA5 0) ∧
    midIrRemoteDecode p .zero = some (true, s') ∧ s'.decodedIRData.protocol = .fast ∧
    s'.decodedIRData.command = 0xA5 := by
  have hsent : sendFAST 0xA5 0 =
      sendPulseDistanceWidthV1 fastProtocolConstants ((0x5AA5 : BitVec 16).setWidth 32) 16 0 := by
    decide
  obtain ⟨p, hp⟩ := @exists_shortCapture fastProtocolConstants ⟨rfl, by decide⟩ rfl 0x5AA5
  rw [← hsent] at hp
  let d : IRData := { IRData.zero with protocol := .fast, command := 0xA5 }
  have hmem : sendFAST 0xA5 0 ∈ frames (midIrSendCommon d 0 initialSendToggleValue).1 := by
    have hone : NoWait (sendFAST 0xA5 0) := by
      rw [hsent, sendPulseDistanceWidthV1_zero]
      exact (noWait_sendFrame _ _).cons rfl
    rw [show (midIrSendCommon d 0 initialSendToggleValue).1 = sendFAST 0xA5 0 from rfl,
      frames_of_noWait hone]
    exact List.mem_cons_self ..
  have hlen : p.rawlen = 36 := (hp.fast hmem).rawlen_eq
  obtain ⟨s', hs', hprotocol, -, hcommand, -⟩ :=
    shortFrame_roundTrip (.fast rfl (by decide)) hmem hp hlen .zero
  exact ⟨p, s', hp, hs', hprotocol, hcommand⟩

end IrRemote
