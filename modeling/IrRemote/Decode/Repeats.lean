import IrRemote.Decode.Offered
import IrRemote.Decode.Replayable
import IrRemote.Link.Frames
import IrRemote.RoundTrip.DistanceWidth
import IrRemote.RoundTrip.Nec
import IrRemote.RoundTrip.Samsung

/-!
# Repeat frames

A key that is held down is followed by special repeat frames, which carry no data. Their
decoders restore the protocol, the address and the command of the last frame; the number of
bits is cleared before every decode, and a Samsung code comes back as one of Samsung LG.

## Main definitions

* `NecRepeatCapture`, `SamsungRepeatCapture` — a repeat frame in the buffer
* `RepeatFrames` — the repeat frames that may follow a frame of a protocol
* `KeptByRepeats` — the frames whose code survives them

## Main results

* `run_necRepeats`, `run_samsungRepeats` — what any number of repeat frames leaves
* `repeats_keep_code_iff` — the frames that are sent again after their repeats
-/

set_option autoImplicit false

namespace IrRemote

/-- The decode of one frame of a session. -/
def decodeStep (irparams : IrParams) (s : DecodeState) : Option DecodeState :=
  (midIrRemoteDecode irparams s).map Prod.snd

/-! ## Repeat frames in the buffer -/

/-- A repeat frame of NEC, LG or a pulse distance remote. -/
structure NecRepeatCapture (q : IrParams) : Prop where
  stopped : q.stateForISR = .stop
  overflowFlag : q.overflowFlag = false
  rawlen : q.rawlen = 4
  headerMark : ∃ t, q.raw 1 = some t ∧ matchMark t necHeaderMark = true
  headerSpace : ∃ u, q.raw 2 = some u ∧ matchSpace u necRepeatHeaderSpace = true
  mark : ∃ t, q.raw 3 = some t ∧ matchMark t necBitMark = true

/-- A repeat frame of Samsung LG. -/
structure SamsungRepeatCapture (q : IrParams) : Prop where
  stopped : q.stateForISR = .stop
  overflowFlag : q.overflowFlag = false
  rawlen : q.rawlen = 6
  headerMark : ∃ t, q.raw 1 = some t ∧ matchMark t samsungHeaderMark = true
  headerSpace : ∃ u, q.raw 2 = some u ∧ matchSpace u samsungHeaderSpace = true

/-- The protocols whose repeat frames are those of NEC. -/
def necRepeatProtocols : List DecodeType := [.nec, .onkyo, .apple, .lg, .pulseDistance]

/-- The repeat frames that may follow a full frame of a protocol. -/
inductive RepeatFrames : DecodeType → List IrParams → Prop
  | nec {d : DecodeType} {qs : List IrParams} (protocol : d ∈ necRepeatProtocols)
      (repeats : ∀ q ∈ qs, NecRepeatCapture q) : RepeatFrames d qs
  | samsung {qs : List IrParams} (repeats : ∀ q ∈ qs, SamsungRepeatCapture q) :
      RepeatFrames .samsung qs

variable {p q : IrParams} {qs : List IrParams} {s s' t : DecodeState} {d : IRData}
  {protocol : DecodeType} {repeats : ℕ} {toggle : BitVec 8}

theorem IdealCapture.necRepeat (h : IdealCapture q sendNECSpecialRepeat) :
    NecRepeatCapture q := by
  have hframe : PulseDistanceCapture q necHeaderMark necRepeatHeaderSpace necBitMark
      (fun _ => necBitMark) [] := h.pulseDistanceCapture rfl
  obtain ⟨t, ht, hmark⟩ := hframe.headerMark
  obtain ⟨u, hu, hspace⟩ := hframe.headerSpace
  obtain ⟨v, hv, hbit⟩ := hframe.mark 0 le_rfl
  refine ⟨h.stopped, h.overflowFlag, hframe.rawlen, ⟨t, hmark, ?_⟩, ⟨u, hspace, ?_⟩, v, hbit, ?_⟩
  · exact (by decide : ∀ t ∈ roundings necHeaderMark, matchMark t necHeaderMark = true) t ht
  · exact (by decide : ∀ u ∈ roundings necRepeatHeaderSpace,
      matchSpace u necRepeatHeaderSpace = true) u hu
  · exact (by decide : ∀ t ∈ roundings necBitMark, matchMark t necBitMark = true) v hv

theorem IdealCapture.samsungRepeat (h : IdealCapture q sendSamsungLGSpecialRepeat) :
    SamsungRepeatCapture q := by
  have hframe : PulseDistanceCapture q samsungHeaderMark samsungHeaderSpace samsungBitMark
      (fun _ => samsungZeroSpace) [false] := h.pulseDistanceCapture rfl
  obtain ⟨t, ht, hmark⟩ := hframe.headerMark
  obtain ⟨u, hu, hspace⟩ := hframe.headerSpace
  refine ⟨h.stopped, h.overflowFlag, hframe.rawlen, ⟨t, hmark, ?_⟩, u, hspace, ?_⟩
  · exact (by decide : ∀ t ∈ roundings samsungHeaderMark, matchMark t samsungHeaderMark = true) t ht
  · exact (by decide : ∀ u ∈ roundings samsungHeaderSpace,
      matchSpace u samsungHeaderSpace = true) u hu

/-! ## One repeat frame -/

/-- What a repeat frame leaves of the frame in front of it: the address, the command, the
words and the timing. -/
def IRData.repeated (d : IRData) (protocol : DecodeType) : IRData :=
  { d with
    protocol := protocol
    decodedRawData := 0
    numberOfBits := 0
    flags := irdataFlagsIsRepeat ||| irdataFlagsIsLsbFirst }

theorem decodeStep_of_accept (hstop : q.stateForISR = .stop) (hov : q.overflowFlag = false)
    (h : tryDecoders specificDecoders q (irRemoteInitDecodedIRData q s) = some (true, s')) :
    decodeStep q s = some s' := by
  rw [decodeStep, midIrRemoteDecode_of_accept hstop hov h]
  rfl

theorem decodeStep_necRepeat (h : NecRepeatCapture q) (s : DecodeState) :
    ∃ s', decodeStep q s = some s' ∧
      s'.decodedIRData = s.decodedIRData.repeated s.decodedIRData.protocol := by
  obtain ⟨t, ht, hmark⟩ := h.headerMark
  obtain ⟨u, hu, hspace⟩ := h.headerSpace
  obtain ⟨v, hv, hbit⟩ := h.mark
  have hframe : ¬(q.rawlen ≠ 2 * necBits + 4 ∧ q.rawlen ≠ 4) := fun hne => hne.2 h.rawlen
  have hnec : decodeNec q (irRemoteInitDecodedIRData q s) =
      some (true, { irRemoteInitDecodedIRData q s with
        decodedIRData := s.decodedIRData.repeated s.decodedIRData.protocol }) := by
    rw [irRemoteInitDecodedIRData_eq h.overflowFlag]
    simp only [decodeNec, if_neg hframe, ht, hmark, if_pos h.rawlen, hu, hspace, hv, hbit,
      Option.bind_eq_bind, Option.bind_some, Bool.not_true, Bool.false_eq_true, if_false,
      Bool.and_self, if_true, IRData.repeated]
    simp
  exact ⟨_, decodeStep_of_accept h.stopped h.overflowFlag (tryDecoders_cons_of_accept hnec), rfl⟩

/-- A header mark of Samsung is three RC5 units long or more, and is refused. -/
theorem decodeRC5_of_samsungHeaderMark {m : ℕ} (hm : q.raw 1 = some m)
    (hmark : matchMark m samsungHeaderMark = true) (hlen : 1 < q.rawlen) (s : DecodeState) :
    ∃ b, decodeRC5 q s = some (false, { s with biphase := b }) := by
  have hwindow : 67 ≤ m ∧ m ≤ 113 := (matchMark_iff rfl rfl).mp hmark
  by_cases hlong : 69 ≤ m
  · exact ⟨_, decodeRC5_of_long_mark hm hlen hlong⟩
  · have hthree : timingIntervals rc5Unit true m = some 3 := by
      obtain rfl | rfl : m = 67 ∨ m = 68 := by omega
      · decide
      · decide
    exact ⟨_, decodeRC5_of_three_units hm hlen hthree⟩

theorem decodeStep_samsungRepeat (h : SamsungRepeatCapture q) (s : DecodeState) :
    ∃ s', decodeStep q s = some s' ∧
      s'.decodedIRData = s.decodedIRData.repeated .samsungLg := by
  have hlen := h.rawlen
  obtain ⟨t, ht, hmark⟩ := h.headerMark
  obtain ⟨u, hu, hspace⟩ := h.headerSpace
  have hrc6 : matchSpace u rc6HeaderSpace = false := by
    have hwindow : 66 ≤ u ∧ u ≤ 112 := (matchSpace_iff rfl rfl).mp hspace
    have hrc6 : matchSpace u rc6HeaderSpace = true ↔ 13 ≤ u ∧ u ≤ 22 := matchSpace_iff rfl rfl
    rw [Bool.eq_false_iff, Ne, hrc6]
    omega
  have hheader : checkHeader samsungProtocolConstants.distanceWidthTimingInfo q = some true := by
    rw [checkHeader_eq ht hu]
    exact congrArg some (Bool.and_eq_true_iff.mpr ⟨hmark, hspace⟩)
  have hframe : ¬(q.rawlen ≠ 2 * samsungBits + 4 ∧ q.rawlen ≠ 2 * samsung48Bits + 4 ∧
      q.rawlen ≠ 6) := fun hne => hne.2.2 hlen
  obtain ⟨b, hrc5⟩ := decodeRC5_of_samsungHeaderMark ht hmark (by omega)
    (irRemoteInitDecodedIRData q s)
  -- RC5 refuses the frame but has reset its counters, Samsung does not read them
  have hsamsung : decodeSamsung q { irRemoteInitDecodedIRData q s with biphase := b } =
      some (true, { irRemoteInitDecodedIRData q s with
        biphase := b
        decodedIRData := s.decodedIRData.repeated .samsungLg }) := by
    rw [irRemoteInitDecodedIRData_eq h.overflowFlag]
    simp only [decodeSamsung, if_neg hframe, hheader, if_pos hlen, Option.bind_eq_bind,
      Option.bind_some, Bool.not_true, Bool.false_eq_true, if_false, IRData.repeated]
    simp
  have hchain : tryDecoders specificDecoders q (irRemoteInitDecodedIRData q s) =
      tryDecoders (specificDecoders.drop 8) q
        { irRemoteInitDecodedIRData q s with biphase := b } := by
    rw [specificDecoders,
      tryDecoders_cons_of_refuse (decodeNec_of_rawlen (by omega) (by omega)),
      tryDecoders_cons_of_refuse (decodeKaseikyo_of_rawlen (by omega)),
      tryDecoders_cons_of_refuse (decodeDenon_of_rawlen (by omega)),
      tryDecoders_cons_of_refuse (decodeSony_of_rawlen (by omega) (by omega) (by omega)),
      tryDecoders_cons_of_refuse hrc5,
      tryDecoders_cons_of_refuse (decodeRC6_of_space hu hrc6),
      tryDecoders_cons_of_refuse (decodeLG_of_rawlen (by omega) (by omega)),
      tryDecoders_cons_of_refuse (decodeJVC_of_rawlen (by omega) (by omega))]
    rfl
  have haccept := hchain.trans (tryDecoders_cons_of_accept hsamsung)
  exact ⟨_, decodeStep_of_accept h.stopped h.overflowFlag haccept, rfl⟩

/-! ## Any number of them -/

/-- From the first repeat frame on nothing changes. -/
theorem run_repeated (hstep : ∀ q ∈ qs, ∀ s : DecodeState,
      s.decodedIRData = d ∨ s.decodedIRData = d.repeated protocol →
      ∃ t, decodeStep q s = some t ∧ t.decodedIRData = d.repeated protocol)
    (hs : s.decodedIRData = d) (hne : qs ≠ []) :
    ∃ s', FaultMachine.run decodeStep qs s = some s' ∧
      s'.decodedIRData = d.repeated protocol := by
  obtain ⟨q, qs, rfl⟩ := List.exists_cons_of_ne_nil hne
  obtain ⟨hfirst, hrest⟩ := List.forall_mem_cons.mp hstep
  obtain ⟨t, ht, hd⟩ := hfirst s (.inl hs)
  have hinv : ∀ q ∈ qs, ∀ u : DecodeState, u.decodedIRData = d.repeated protocol →
      ∃ v, decodeStep q u = some v ∧ v.decodedIRData = d.repeated protocol :=
    fun q hq u hu => hrest q hq u (.inr hu)
  obtain ⟨s', hs', hd'⟩ := FaultMachine.run_of_forall_mem hinv hd
  exact ⟨s', FaultMachine.run_cons_of_eq ht hs', hd'⟩

theorem run_necRepeats (hqs : ∀ q ∈ qs, NecRepeatCapture q) (s : DecodeState) (hne : qs ≠ []) :
    ∃ s', FaultMachine.run decodeStep qs s = some s' ∧
      s'.decodedIRData = s.decodedIRData.repeated s.decodedIRData.protocol := by
  refine run_repeated (fun q hq u hu => ?_) rfl hne
  obtain ⟨t, ht, hd⟩ := decodeStep_necRepeat (hqs q hq) u
  refine ⟨t, ht, hd.trans ?_⟩
  rcases hu with hu | hu
  · rw [hu]
  · rw [hu]
    rfl

theorem run_samsungRepeats (hqs : ∀ q ∈ qs, SamsungRepeatCapture q) (s : DecodeState)
    (hne : qs ≠ []) : ∃ s', FaultMachine.run decodeStep qs s = some s' ∧
      s'.decodedIRData = s.decodedIRData.repeated .samsungLg := by
  refine run_repeated (fun q hq u hu => ?_) rfl hne
  obtain ⟨t, ht, hd⟩ := decodeStep_samsungRepeat (hqs q hq) u
  refine ⟨t, ht, hd.trans ?_⟩
  rcases hu with hu | hu
  · rw [hu]
  · rw [hu]
    rfl

/-! ## The full frame in front of them -/

/-- What a full frame tells of the fields a repeat frame may lose. -/
structure FullFrame (p : IrParams) (s' : DecodeState) : Prop where
  samsung : s'.decodedIRData.protocol = .samsung → ∃ w, samsungWord p = some w ∧
    s'.decodedIRData.command = (samsungFields (LongUnion.ofULong w) s'.decodedIRData).command
  pulseDistance : s'.decodedIRData.protocol = .pulseDistance →
    s'.decodedIRData.numberOfBits = p.rawlen / 2 - 2

theorem FullFrame.of_mem {ds : List DecodeType} (h : s'.decodedIRData.protocol ∈ ds)
    (hsamsung : .samsung ∉ ds) (hpulse : .pulseDistance ∉ ds) : FullFrame p s' where
  samsung heq := absurd (heq ▸ h) hsamsung
  pulseDistance heq := absurd (heq ▸ h) hpulse

theorem FullFrame.of_eq (h : s'.decodedIRData.protocol = protocol) (hsamsung : protocol ≠ .samsung)
    (hpulse : protocol ≠ .pulseDistance) : FullFrame p s' where
  samsung heq := absurd (h.symm.trans heq) hsamsung
  pulseDistance heq := absurd (h.symm.trans heq) hpulse

/-- Without the repeat frames of NEC and LG, a decoder that accepts a frame gives its own
protocol. -/
theorem specificDecoders_fullFrame (hlen : p.rawlen ≠ 4) : ∀ decoder ∈ specificDecoders,
    ∀ s s' : DecodeState, s.decodedIRData.protocol = .unknown →
      decoder p s = some (true, s') → FullFrame p s' := by
  -- one case for every decoder of the chain, in its order
  simp only [specificDecoders, List.forall_mem_cons, List.not_mem_nil, false_imp_iff,
    implies_true, and_true]
  refine ⟨fun s s' hs h => ?nec, fun s s' hs h => ?kaseikyo, fun s s' hs h => ?denon,
    fun s s' hs h => ?sony, fun s s' hs h => ?rc5, fun s s' hs h => ?rc6, fun s s' hs h => ?lg,
    fun s s' hs h => ?jvc, fun s s' hs h => ?samsung, fun s s' hs h => ?fast,
    fun s s' hs h => ?whynter, fun s s' hs h => ?lego, fun s s' hs h => ?bose,
    fun s s' hs h => ?magi⟩
  case nec =>
    -- a repeat frame has a length of four
    have hframe := (decodeNec_ensures.of_accept h).resolve_left fun h => hlen h.1
    exact .of_mem hframe (by decide) (by decide)
  case kaseikyo =>
    obtain ⟨-, -, -, v, -, hprotocol⟩ := decodeKaseikyo_ensures.of_accept h
    rcases vendorProtocol_mem v with hmem | hother
    · exact .of_mem (hprotocol ▸ hmem) (by decide) (by decide)
    · exact .of_eq (hprotocol.trans hother) (by decide) (by decide)
  case denon => exact .of_mem (decodeDenon_ensures.of_accept h) (by decide) (by decide)
  case sony => exact .of_eq (decodeSony_ensures.of_accept h) (by decide) (by decide)
  case rc5 => exact .of_eq (decodeRC5_ensures.of_accept h) (by decide) (by decide)
  case rc6 => exact .of_eq (decodeRC6_ensures.of_accept h) (by decide) (by decide)
  case lg =>
    have hframe := (decodeLG_ensures.of_accept h).resolve_left fun h => hlen h.1
    obtain ⟨-, t, u, space, -, -, hprotocol, -⟩ := hframe
    exact .of_mem (lgProtocol_mem hprotocol) (by decide) (by decide)
  case jvc =>
    rcases decodeJVC_ensures.of_accept h with hjvc | rfl
    · exact .of_eq hjvc (by decide) (by decide)
    · exact .of_eq hs (by decide) (by decide)
  case samsung =>
    obtain ⟨hmem, hframe⟩ := decodeSamsung_ensures.of_accept h
    exact ⟨hframe, fun heq => absurd (heq ▸ hmem) (by decide)⟩
  case fast => exact .of_eq (decodeFAST_ensures.of_accept h) (by decide) (by decide)
  case whynter => exact .of_eq (decodeWhynter_ensures.of_accept h).1 (by decide) (by decide)
  case lego =>
    exact .of_eq (decodeLegoPowerFunctions_ensures.of_accept h) (by decide) (by decide)
  case bose => exact .of_eq (decodeBoseWave_ensures.of_accept h) (by decide) (by decide)
  case magi => exact .of_eq (decodeMagiQuest_ensures.of_accept h) (by decide) (by decide)

/-- The universal decoder counts the bits of a pulse distance frame off its length. -/
theorem decodeDistanceWidth_fullFrame (h : decodeDistanceWidth p s = some (true, s')) :
    FullFrame p s' := by
  obtain ⟨mark, space, -, hprotocol, hbits, htwo⟩ := decodeDistanceWidth_ensures.of_accept h
  by_cases hlong : 0 < mark.2
  · rw [if_pos hlong] at hprotocol
    exact .of_eq hprotocol (by decide) (by decide)
  · rw [if_neg hlong] at hprotocol
    have hspace : 0 < space.2 ∧ mark.2 = 0 := by omega
    refine ⟨fun heq => ?_, fun _ => ?_⟩
    · rw [hprotocol] at heq
      cases heq
    · rw [hbits, distanceWidthBits, if_pos hspace, Nat.sub_sub]

/-- And a decoder that refuses leaves the protocol unknown. -/
theorem decoders_fullFrame (hlen : p.rawlen ≠ 4) : ∀ decoder ∈ decoders, ∀ s : DecodeState,
    s.decodedIRData.protocol = .unknown → Attempt.Ensures (FullFrame p)
      (fun t => t.decodedIRData.protocol = .unknown) (decoder p s) := by
  intro decoder hdecoder s hs
  rcases List.mem_append.mp hdecoder with hspecific | huniversal
  · apply Attempt.Ensures.of_halves
    · exact fun s' => specificDecoders_fullFrame hlen decoder hspecific s s' hs
    · exact (refuses_of_mem_specificDecoders decoder hspecific p s).mono (fun _ => id)
        fun t ht => ht.protocol.trans hs
  · rcases List.mem_pair.mp huniversal with rfl | rfl
    · apply Attempt.Ensures.of_halves
      · exact fun s' => decodeDistanceWidth_fullFrame
      · refine decodeDistanceWidth_ensures.refusal fun t h => ?_
        obtain ⟨bits, rfl⟩ := h
        exact hs
    · exact decodeHash_ensures.mono (fun s' h => .of_eq h (by decide) (by decide))
        fun t h => h.1 ▸ hs

theorem midIrRemoteDecode_fullFrame (hlen : p.rawlen ≠ 4)
    (hdecode : midIrRemoteDecode p s = some (true, s')) : FullFrame p s' := by
  have hstop := stateForISR_of_midIrRemoteDecode hdecode
  obtain ⟨-, rfl⟩ | ⟨-, accepted, hchain⟩ := midIrRemoteDecode_cases hstop hdecode
  · have hunknown : (irRemoteInitDecodedIRData p s).decodedIRData.protocol = .unknown := rfl
    exact .of_eq hunknown (by decide) (by decide)
  · have hensures : Attempt.Ensures (FullFrame p) (fun t => t.decodedIRData.protocol = .unknown)
        (tryDecoders decoders p (irRemoteInitDecodedIRData p s)) := by
      refine .firstOf (fun a ha s hs => ?_) rfl
      obtain ⟨decoder, hdecoder, rfl⟩ := List.mem_map.mp ha
      exact decoders_fullFrame hlen decoder hdecoder s hs
    cases accepted with
    | true => exact hensures.of_accept hchain
    | false => exact .of_eq (hensures.of_refuse hchain) (by decide) (by decide)

/-! ## What is sent again -/

/-- The frames whose code survives their repeat frames. Samsung LG sends the complement of
a command byte in place of an upper byte, and a code without a length is sent without bits. -/
def KeptByRepeats (p : IrParams) : DecodeType → Prop
  | .pulseDistance => (p.rawlen / 2 - 2) % 256 = 0
  | .samsung => ∃ w, samsungWord p = some w ∧ ((LongUnion.ofULong w).highByte = 0#8 ∨
      (LongUnion.ofULong w).midHighByte = ~~~(LongUnion.ofULong w).highByte)
  | _ => True

theorem midIrSendCommon_repeated (h : d.protocol ∈ [DecodeType.nec, .onkyo, .apple, .lg]) :
    (midIrSendCommon (d.repeated d.protocol) repeats toggle).1 =
      (midIrSendCommon d repeats toggle).1 := by
  simp only [List.mem_cons, List.not_mem_nil, or_false] at h
  rcases h with h | h | h | h <;> simp only [midIrSendCommon, IRData.repeated, h]

/-- Without bits the frame is its header and at most a stop mark. -/
theorem midIrSendPulseDistance_repeated_eq_iff :
    midIrSendPulseDistance (d.repeated protocol) = midIrSendPulseDistance d ↔
      d.numberOfBits % 256 = 0 := by
  rw [midIrSendPulseDistance_eq, midIrSendPulseDistance_eq, numberOfChunks_eq, numberOfChunks_eq]
  refine ⟨fun h => ?_, fun h => by simp only [IRData.repeated, h, Nat.zero_mod]⟩
  by_contra hbits
  -- without bits there is at most a stop mark
  have hshort : (sendChunks d.distanceWidthTimingInfo.oneMarkMicros
      d.distanceWidthTimingInfo.oneSpaceMicros d.distanceWidthTimingInfo.zeroMarkMicros
      d.distanceWidthTimingInfo.zeroSpaceMicros (fun i => d.decodedRawDataArray[i]?.getD 0)
      protocolIsLsbFirst 1 0 0).1.length ≤ 1 :=
    length_sendChunks_le _ _ _ _ _ le_rfl (by decide)
  -- with bits there are at least two pulses
  have hlong := @two_le_length_sendChunks 0 ((d.numberOfBits % 256 - 1) / 32)
    d.distanceWidthTimingInfo.oneMarkMicros d.distanceWidthTimingInfo.oneSpaceMicros
    d.distanceWidthTimingInfo.zeroMarkMicros d.distanceWidthTimingInfo.zeroSpaceMicros
    (fun i => d.decodedRawDataArray[i]?.getD 0) _ (Nat.pos_of_ne_zero hbits)
    (Nat.mod_lt _ (by decide))
  have hlength := congrArg List.length h
  simp only [IRData.repeated, List.length_cons, Nat.zero_mod, Nat.zero_sub, Nat.zero_div,
    Nat.zero_add] at hlength
  omega

theorem firstFrame_midIrSendPulseDistance (d : IRData) :
    firstFrame (midIrSendPulseDistance d) = some (midIrSendPulseDistance d) := by
  rw [midIrSendPulseDistance_eq]
  exact firstFrame_of_noWait
    ((((noWait_sendChunks _ _ _ _ _ _ _ _).cons rfl).cons rfl).cons rfl)

/-- The two senders of Samsung differ in the upper byte of a command. -/
theorem firstFrame_sendSamsungLG_eq_iff (a : BitVec 16) (high low : BitVec 8) :
    firstFrame (sendSamsungLG a (high ++ low) repeats) =
      firstFrame (sendSamsung a (high ++ low) repeats) ↔ high = 0#8 ∨ high = ~~~low := by
  have hlow : (high ++ low).setWidth 8 = low := by
    rw [BitVec.setWidth_append, dif_pos le_rfl, BitVec.setWidth_eq]
  have hcomplement : (~~~(high ++ low)).setWidth 8 = ~~~low := by
    rw [BitVec.not_append, BitVec.setWidth_append, dif_pos le_rfl, BitVec.setWidth_eq]
  rw [sendSamsungLG, sendSamsung, firstFrame_sendPulseDistanceWidthV1,
    firstFrame_sendPulseDistanceWidthV1, Option.some.injEq]
  refine samsungFrame_inj.trans (LongUnion.uLong_inj.trans ?_)
  rw [samsungRawData, LongUnion.mk.injEq, hlow, hcomplement, LongUnion.extractLsb'_append_low,
    LongUnion.extractLsb'_append_high]
  -- only a command below 0x100 is sent with its complement by both
  by_cases hzero : high = 0#8
  · have hlt : (high ++ low : BitVec 16) < 0x100 := (LongUnion.append_lt_iff high low).mpr hzero
    rw [if_pos hlt]
    exact iff_of_true ⟨rfl, rfl, rfl, rfl⟩ (.inl hzero)
  · have hge : ¬(high ++ low : BitVec 16) < 0x100 := mt (LongUnion.append_lt_iff high low).mp hzero
    rw [if_neg hge, eq_comm (a := ~~~low)]
    simp only [true_and, hzero, false_or]

/-- One repeat frame keeps the code exactly when the frame in front of it is one of these. -/
theorem firstFrame_repeated_iff (hfull : FullFrame p s)
    (hprotocol : s.decodedIRData.protocol ∈ necRepeatProtocols) :
    firstFrame (midIrSendCommon (s.decodedIRData.repeated s.decodedIRData.protocol) repeats
        toggle).1 = firstFrame (midIrSendCommon s.decodedIRData repeats toggle).1 ↔
      KeptByRepeats p s.decodedIRData.protocol := by
  by_cases hpulse : s.decodedIRData.protocol = .pulseDistance
  · have hsend : ∀ d : IRData, d.protocol = .pulseDistance →
        firstFrame (midIrSendCommon d repeats toggle).1 = some (midIrSendPulseDistance d) := by
      intro d hd
      rw [← firstFrame_midIrSendPulseDistance]
      simp only [midIrSendCommon, hd]
    rw [hsend s.decodedIRData hpulse, hsend (s.decodedIRData.repeated _) hpulse,
      Option.some.injEq, midIrSendPulseDistance_repeated_eq_iff, hfull.pulseDistance hpulse, hpulse]
    rfl
  · have hmem : s.decodedIRData.protocol ∈ [DecodeType.nec, .onkyo, .apple, .lg] := by
      simpa [necRepeatProtocols, hpulse] using hprotocol
    rw [midIrSendCommon_repeated hmem]
    refine iff_of_true rfl ?_
    simp only [List.mem_cons, List.not_mem_nil, or_false] at hmem
    rcases hmem with h | h | h | h <;> rw [h] <;> trivial

/-- A code of Samsung LG keeps the word when the upper byte of its command is sent as the
complement of the lower one in any case. -/
theorem firstFrame_repeated_samsung_iff (hfull : FullFrame p s)
    (hprotocol : s.decodedIRData.protocol = .samsung) :
    firstFrame (midIrSendCommon (s.decodedIRData.repeated .samsungLg) repeats toggle).1 =
        firstFrame (midIrSendCommon s.decodedIRData repeats toggle).1 ↔
      KeptByRepeats p s.decodedIRData.protocol := by
  obtain ⟨w, hw, hcommand⟩ := hfull.samsung hprotocol
  have hsent : firstFrame (midIrSendCommon (s.decodedIRData.repeated .samsungLg) repeats toggle).1 =
        firstFrame (midIrSendCommon s.decodedIRData repeats toggle).1 ↔
      firstFrame (sendSamsungLG s.decodedIRData.address s.decodedIRData.command repeats) =
        firstFrame (sendSamsung s.decodedIRData.address s.decodedIRData.command repeats) := by
    simp only [midIrSendCommon, hprotocol, IRData.repeated]
  have hkept : KeptByRepeats p s.decodedIRData.protocol ↔
      ((LongUnion.ofULong w).highByte = 0#8 ∨
        (LongUnion.ofULong w).midHighByte = ~~~(LongUnion.ofULong w).highByte) := by
    rw [hprotocol]
    constructor
    · rintro ⟨w', hw', h⟩
      obtain rfl : w = w' := Option.some.inj (hw.symm.trans hw')
      exact h
    · intro h
      exact ⟨w, hw, h⟩
  rw [hsent, hkept, hcommand]
  simp only [samsungFields]
  by_cases hcomplement : (LongUnion.ofULong w).midHighByte = ~~~(LongUnion.ofULong w).highByte
  -- an 8 bit command is decoded from complements, and is sent with them again
  · rw [if_pos hcomplement, ← LongUnion.append_zero, firstFrame_sendSamsungLG_eq_iff]
    exact iff_of_true (.inl rfl) (.inr hcomplement)
  -- a 16 bit command keeps its upper byte only if that byte is zero
  · have hne : (LongUnion.ofULong w).highByte ≠ ~~~(LongUnion.ofULong w).midHighByte :=
      fun h => hcomplement (by rw [h, BitVec.not_not])
    rw [if_neg hcomplement, LongUnion.highWord, firstFrame_sendSamsungLG_eq_iff]
    simp only [hne, hcomplement]

/-- The code that is left after a full frame and its repeat frames is sent as the one that
was left after the full frame exactly when no repeat frame follows, or the frame is one
whose code survives them. -/
theorem repeats_keep_code_iff (hlen : p.rawlen ≠ 4)
    (hdecode : midIrRemoteDecode p s = some (true, s'))
    (hqs : RepeatFrames s'.decodedIRData.protocol qs) (repeats : ℕ) (toggle : BitVec 8) :
    ∃ t, FaultMachine.run decodeStep qs s' = some t ∧
      (firstFrame (midIrSendCommon t.decodedIRData repeats toggle).1 =
          firstFrame (midIrSendCommon s'.decodedIRData repeats toggle).1 ↔
        qs = [] ∨ KeptByRepeats p s'.decodedIRData.protocol) := by
  have hfull := midIrRemoteDecode_fullFrame hlen hdecode
  by_cases hnil : qs = []
  · subst hnil
    exact ⟨s', rfl, iff_of_true rfl (.inl rfl)⟩
  simp only [hnil, false_or]
  generalize hprotocol : s'.decodedIRData.protocol = protocol at hqs
  cases hqs with
  | nec hmem hqs =>
    obtain ⟨t, ht, hd⟩ := run_necRepeats hqs s' hnil
    subst hprotocol
    exact ⟨t, ht, hd ▸ firstFrame_repeated_iff hfull hmem⟩
  | samsung hqs =>
    obtain ⟨t, ht, hd⟩ := run_samsungRepeats hqs s' hnil
    exact ⟨t, ht, hprotocol ▸ hd ▸ firstFrame_repeated_samsung_iff hfull hprotocol⟩

theorem exists_necRepeatCapture : ∃ q, IdealCapture q sendNECSpecialRepeat := by
  obtain ⟨q, hq, -⟩ := exists_idealCapture (show recordGapTicks < 1000 by decide)
    (show (lineRuns sendNECSpecialRepeat).length < rawBufferLength by decide)
  exact ⟨q, hq⟩

theorem exists_samsungRepeatCapture : ∃ q, IdealCapture q sendSamsungLGSpecialRepeat := by
  obtain ⟨q, hq, -⟩ := exists_idealCapture (show recordGapTicks < 1000 by decide)
    (show (lineRuns sendSamsungLGSpecialRepeat).length < rawBufferLength by decide)
  exact ⟨q, hq⟩

/-- A NEC key that is held for two repeat frames. -/
theorem repeats_keep_code_iff_nec : ∃ p q s' t, IdealCapture p (sendNECRaw 0xFD02F807 0) ∧
    IdealCapture q sendNECSpecialRepeat ∧ midIrRemoteDecode p .zero = some (true, s') ∧
    FaultMachine.run decodeStep [q, q] s' = some t ∧
    firstFrame (midIrSendCommon t.decodedIRData 0 initialSendToggleValue).1 =
      firstFrame (midIrSendCommon s'.decodedIRData 0 initialSendToggleValue).1 := by
  obtain ⟨p, hp, hg⟩ := exists_necCapture 0xFD02F807
  obtain ⟨q, hq⟩ := exists_necRepeatCapture
  obtain ⟨s', hs', hd⟩ := decode_sendNECRaw (s := .zero) hp hg (by decide)
  have hlen : p.rawlen ≠ 4 := by
    rw [hp.nec.rawlen, BitWord.lsbBits_length]
    decide
  have hprotocol : s'.decodedIRData.protocol = .nec := by
    rw [hd]
    rfl
  have hqs : RepeatFrames s'.decodedIRData.protocol [q, q] := by
    rw [hprotocol]
    exact .nec (by decide) (by simpa using hq.necRepeat)
  obtain ⟨t, ht, hsent⟩ := repeats_keep_code_iff hlen hs' hqs 0 initialSendToggleValue
  refine ⟨p, q, s', t, hp, hq, hs', ht, hsent.mpr (.inr ?_)⟩
  rw [hprotocol]
  trivial

/-- A Samsung key with the command 0x1234 is sent with another upper byte after one repeat
frame. -/
theorem repeats_lose_code_samsung : ∃ p q s' t, IdealCapture p (samsungFrame 0x12340707) ∧
    IdealCapture q sendSamsungLGSpecialRepeat ∧ midIrRemoteDecode p .zero = some (true, s') ∧
    s'.decodedIRData.protocol = .samsung ∧ FaultMachine.run decodeStep [q] s' = some t ∧
    firstFrame (midIrSendCommon s'.decodedIRData 0 initialSendToggleValue).1 =
      some (samsungFrame 0x12340707) ∧
    firstFrame (midIrSendCommon t.decodedIRData 0 initialSendToggleValue).1 =
      some (samsungFrame 0xCB340707) ∧ samsungFrame 0xCB340707 ≠ samsungFrame 0x12340707 := by
  obtain ⟨p, hp⟩ := exists_samsungCapture 0x12340707
  obtain ⟨q, hq⟩ := exists_samsungRepeatCapture
  obtain ⟨s', g, hs', hd⟩ := decode_samsungFrame hp .zero
  obtain ⟨t, ht, hrepeated⟩ := decodeStep_samsungRepeat hq.samsungRepeat s'
  have hfirst : ∀ w, firstFrame (samsungFrame w) = some (samsungFrame w) :=
    fun w => firstFrame_sendPulseDistanceWidthV1 _ w 0
  have haddress : s'.decodedIRData.address = 0x0707 := by
    rw [hd]
    rfl
  have hcommand : s'.decodedIRData.command = 0x1234 := by
    rw [hd]
    rfl
  have hprotocol : s'.decodedIRData.protocol = .samsung := by
    rw [hd]
    rfl
  refine ⟨p, q, s', t, hp, hq, hs', hprotocol, FaultMachine.run_cons_of_eq ht rfl, ?_, ?_,
    mt samsungFrame_inj.mp (by decide)⟩
  · simp only [midIrSendCommon, hprotocol, haddress, hcommand]
    exact hfirst 0x12340707
  · simp only [midIrSendCommon, hrepeated, IRData.repeated, haddress, hcommand]
    exact hfirst 0xCB340707

end IrRemote
