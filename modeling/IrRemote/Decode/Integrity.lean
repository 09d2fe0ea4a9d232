import IrRemote.Decode.CheckedFormats

/-!
# Integrity flags

The senders put the right redundancy into every frame, repeats included, and the decoders flag a
frame exactly when it is not the right one. So no frame that has come as it was sent is flagged,
and every frame with a single wrong bit is.

## Main results

* `kaseikyoFormat_holds` and its siblings — the words of the senders
* `kaseikyoFormat_exact` and its siblings — the decoders
* `integrity_flags_exact` — the flag is right on all words, those with a wrong bit included
-/

set_option autoImplicit false

namespace IrRemote

open CheckDigits CheckedFormat LineSignal

/-! ## What the encoders send -/

namespace CheckedFormat

variable {c : CheckedFormat} {w v : BitVec c.bits}

theorem spelled_inj : c.spelled w = c.spelled v ↔ w = v := by
  refine ⟨fun h => ?_, congrArg _⟩
  unfold spelled at h
  split_ifs at h
  · exact BitWord.lsbBits_width_inj.mp (List.reverse_injective h)
  · exact BitWord.lsbBits_width_inj.mp h

theorem length_runs (w : BitVec c.bits) : (c.runs w).length = 2 * c.bits + 3 := by
  rw [runs, frameRuns, List.length_cons, List.length_cons, dataRuns_length, length_spelled]

theorem runs_inj (hspace : Function.Injective c.constants.distanceWidthTimingInfo.bitSpace) :
    c.runs w = c.runs v ↔ w = v := by
  rw [runs, runs, frameRuns_inj hspace, spelled_inj]

/-- The frames of a transmission have a word, but for the shorter ones. -/
def Carries (c : CheckedFormat) (tx : List TxEvent) (v : BitVec c.bits) : Prop :=
  ∀ f ∈ frames tx, f.filterMap TxEvent.pulse? = c.runs v ∨
    (f.filterMap TxEvent.pulse?).length < 2 * c.bits + 3

theorem carries_of_eq_or_nil {tx : List TxEvent}
    (h : ∀ f ∈ frames tx, f.filterMap TxEvent.pulse? = c.runs v ∨
      f.filterMap TxEvent.pulse? = []) : c.Carries tx v := by
  intro f hf
  refine (h f hf).imp id fun hnone => ?_
  rw [hnone]
  exact Nat.succ_pos _

/-- A sender all of whose full frames have words that hold. -/
theorem Encodes.holds (hw : c.Encodes w)
    (hspace : Function.Injective c.constants.distanceWidthTimingInfo.bitSpace)
    (h : ∀ tx, c.Sends tx → ∃ v, c.Holds v ∧ c.Carries tx v) : c.Holds w := by
  obtain ⟨tx, f, htx, hf, hruns⟩ := hw
  obtain ⟨v, hv, hframes⟩ := h tx htx
  rcases hframes f hf with hfull | hshort
  · rwa [(runs_inj hspace).mp (hruns.symm.trans hfull)]
  · rw [hruns, length_runs] at hshort
    exact absurd hshort (Nat.lt_irrefl _)

end CheckedFormat

/-- A frame of a word that is sent least significant bit first. -/
theorem pulses_sendFrame_lsb {c : CheckedFormat} (hc : IsPulseDistance c.constants)
    (hflags : c.constants.flags = protocolIsLsbFirst) (hn : c.bits ≤ 32) (w : BitVec c.bits) :
    (sendFrame c.constants (w.setWidth 32) c.bits).filterMap TxEvent.pulse? = c.runs w := by
  have hlsb : c.constants.flags &&& protocolIsMsbFirst = 0 := by
    rw [hflags]
    decide
  have hspelled : c.spelled w = BitWord.lsbBits c.bits (w.setWidth 32) := by
    rw [spelled, if_neg (not_not.mpr hlsb), BitWord.lsbBits_setWidth hn]
  rw [runs, hspelled]
  exact filterMap_pulse?_sendFrame hc (sendPulseDistanceWidthDataV1_lsb hlsb)

/-- The frames of a command that is sent with its carrier. -/
theorem pulses_of_mem_frames_sendCommands {tx g f : List TxEvent} {e : TxEvent} {n : ℕ}
    (h : NoWait tx) (htx : tx.filterMap TxEvent.pulse? = []) (hg : NoWait g)
    (he : e.isWait = true) (hf : f ∈ frames (tx ++ sendCommands g [e] n)) :
    f.filterMap TxEvent.pulse? = g.filterMap TxEvent.pulse? ∨ f.filterMap TxEvent.pulse? = [] := by
  obtain ⟨body, hbody, hf⟩ := mem_frames_sendCommands h hg he hf
  have hpulses : f.filterMap TxEvent.pulse? = body.filterMap TxEvent.pulse? := by
    rcases hf with rfl | rfl
    · rw [List.filterMap_append, htx, List.nil_append]
    · rfl
  rw [hpulses]
  rcases List.mem_cons.mp hbody with rfl | hbody
  · exact .inr rfl
  · rw [List.mem_singleton.mp hbody]
    exact .inl rfl

/-- The frames of a command in an array, behind some carriers. -/
theorem pulses_of_mem_frames_fromArray {c : PulseDistanceWidthProtocolConstants}
    {array : ℕ → BitVec 32} {n repeats : ℕ} {tx f : List TxEvent} (h : NoWait tx)
    (htx : tx.filterMap TxEvent.pulse? = [])
    (hf : f ∈ frames (tx ++ sendPulseDistanceWidthFromArray c array n repeats)) :
    f.filterMap TxEvent.pulse? =
        (sendPulseDistanceWidthFromArray c array n 0).filterMap TxEvent.pulse? ∨
      f.filterMap TxEvent.pulse? = [] := by
  have hcarrier : (tx ++ [TxEvent.enableIROut c.frequencyKHz]).filterMap TxEvent.pulse? = [] := by
    rw [List.filterMap_append, htx]
    rfl
  rw [sendPulseDistanceWidthFromArray, List.append_cons] at hf
  rw [sendPulseDistanceWidthFromArray, show (0 + 1) % 256 = 0 + 1 from rfl, sendCommands,
    sendCommands, if_neg (Nat.lt_irrefl 0), List.append_nil, List.append_nil,
    List.filterMap_cons_none rfl]
  exact pulses_of_mem_frames_sendCommands (e := .awaitPeriod c.repeatPeriodMillis)
    (h.append (noWait_nil.cons rfl)) hcarrier
    (((noWait_sendChunks _ _ _ _ _ _ _ _).cons rfl).cons rfl) rfl hf

/-- A word that is sent least significant bit first, and repeated. -/
theorem carries_sendCommands_lsb {c : CheckedFormat} (hc : IsPulseDistance c.constants)
    (hflags : c.constants.flags = protocolIsLsbFirst) (hn : c.bits ≤ 32) (kHz n : ℕ)
    (v : BitVec c.bits) {e : TxEvent} (he : e.isWait = true) :
    c.Carries (.enableIROut kHz ::
      sendCommands (sendFrame c.constants (v.setWidth 32) c.bits) [e] n) v := by
  apply carries_of_eq_or_nil
  intro f hf
  rw [← pulses_sendFrame_lsb hc hflags hn v]
  exact pulses_of_mem_frames_sendCommands (noWait_nil.cons rfl) rfl (noWait_sendFrame _ _) he hf

/-! ### Kaseikyo -/

/-- The vendor code and the word behind it. -/
def kaseikyoFrameWord (a v : BitVec 16) (c : BitVec 8) : BitVec kaseikyoFormat.bits :=
  (kaseikyoWord a v c).uLong ++ v

theorem spelled_kaseikyoFrameWord (a v : BitVec 16) (c : BitVec 8) :
    kaseikyoFormat.spelled (kaseikyoFrameWord a v c) =
      BitWord.lsbBits 16 v ++ BitWord.lsbBits 32 (kaseikyoWord a v c).uLong :=
  BitWord.lsbBits_append (n := 32)

theorem kaseikyoFrameWord_holds (a v : BitVec 16) (c : BitVec 8) :
    kaseikyoFormat.Holds (kaseikyoFrameWord a v c) := by
  have hvendor : (kaseikyoFrameWord a v c).extractLsb' 0 16 = v :=
    BitVec.extractLsb'_append_eq_right
  have hdata : (kaseikyoFrameWord a v c).extractLsb' 16 32 = (kaseikyoWord a v c).uLong :=
    BitVec.extractLsb'_append_eq_left
  rw [← kaseikyo_holds_iff, hvendor, hdata, LongUnion.ofULong_uLong]
  refine ⟨kaseikyoLowWord_parity.symm, ?_⟩
  simp only [kaseikyoWord]
  rw [BitVec.xor_comm, BitVec.xor_assoc]

theorem kaseikyoFormat_holds {w : BitVec kaseikyoFormat.bits} (hw : kaseikyoFormat.Encodes w) :
    kaseikyoFormat.Holds w := by
  refine hw.holds (bitSpace_injective (by decide)) ?_
  rintro _ ⟨a, c, repeats, v, rfl⟩
  refine ⟨kaseikyoFrameWord a v c, kaseikyoFrameWord_holds a v c, ?_⟩
  apply carries_of_eq_or_nil
  intro f hf
  have hcarrier : NoWait [.enableIROut kaseikyoKhz] := noWait_nil.cons rfl
  refine (pulses_of_mem_frames_fromArray hcarrier rfl hf).imp (fun hfull => ?_) id
  have hpulses := hfull.trans (filterMap_pulse?_twoWords (n := 16) ⟨rfl, by decide⟩ rfl
    (by decide) (by decide))
  rw [hpulses, runs, spelled_kaseikyoFrameWord, ← kaseikyo_bits, lowWord_kaseikyoWord]
  rfl

/-! ### LG -/

def lgFrameWord (a : BitVec 8) (c : BitVec 16) : BitVec lgFormat.bits :=
  (computeLGRawDataAndChecksum a c).setWidth lgBits

theorem setWidth_lgFrameWord (a : BitVec 8) (c : BitVec 16) :
    (lgFrameWord a c).setWidth 32 = computeLGRawDataAndChecksum a c := by
  have hfits : ((computeLGRawDataAndChecksum a c).setWidth lgBits).setWidth 32 =
      computeLGRawDataAndChecksum a c := by
    apply BitVec.eq_of_getLsbD_eq
    intro i hi
    rw [BitVec.getLsbD_setWidth, BitVec.getLsbD_setWidth, decide_eq_true hi, Bool.true_and]
    by_cases hin : i < lgBits
    · rw [decide_eq_true hin, Bool.true_and]
    · have hout : 28 ≤ i := Nat.le_of_not_lt hin
      rw [decide_eq_false hin, Bool.false_and, getLsbD_computeLGRawDataAndChecksum,
        if_neg (by omega), if_neg (by omega), BitVec.getLsbD_of_ge a _ (by omega)]
  exact hfits

theorem lgFrameWord_holds (a : BitVec 8) (c : BitVec 16) :
    lgFormat.Holds (lgFrameWord a c) := by
  rw [← lg_holds_iff, setWidth_lgFrameWord, lgCommand_eq, lgChecksum_eq]

theorem lgFormat_holds {w : BitVec lgFormat.bits} (hw : lgFormat.Encodes w) :
    lgFormat.Holds w := by
  refine hw.holds (bitSpace_injective (by decide)) ?_
  rintro _ ⟨a, c, repeats, rfl⟩
  refine ⟨lgFrameWord a c, lgFrameWord_holds a c, fun f hf => ?_⟩
  have hspelled : lgFormat.spelled (lgFrameWord a c) =
      BitWord.msbBits lgBits (computeLGRawDataAndChecksum a c) :=
    BitWord.msbBits_setWidth (Nat.le_refl _)
  have hfull : (sendFrame lgProtocolConstants (computeLGRawDataAndChecksum a c)
      lgBits).filterMap TxEvent.pulse? = _ :=
    filterMap_pulse?_sendFrame ⟨rfl, by decide⟩
      (sendPulseDistanceWidthDataV1_msb (n := 27) (by decide) (by decide))
  have hcarrier : NoWait [.enableIROut lgKhz] := noWait_nil.cons rfl
  have hspecial : NoWait sendNECSpecialRepeat :=
    (((noWait_nil.cons rfl).cons rfl).cons rfl).cons rfl
  obtain ⟨body, hbody, hf⟩ :=
    mem_frames_sendFrameOrRepeat rfl hspecial (noWait_sendFrame _ _) hcarrier hf
  have hpulses : f.filterMap TxEvent.pulse? = body.filterMap TxEvent.pulse? := by
    rcases hf with rfl | rfl <;> rfl
  rw [hpulses, runs, hspelled]
  simp only [List.mem_cons, List.not_mem_nil, or_false] at hbody
  rcases hbody with rfl | rfl | rfl
  · exact .inr (by decide)
  · exact .inl hfull
  · exact .inr (by decide)

/-! ### FAST -/

def fastFrameWord (c : BitVec 8) : BitVec fastFormat.bits := ~~~c ++ c

theorem fastFrameWord_holds (c : BitVec 8) : fastFormat.Holds (fastFrameWord c) := by
  have hlow : digit 8 (fastFrameWord c) 0 = c := BitVec.extractLsb'_append_eq_right
  have hhigh : digit 8 (fastFrameWord c) 1 = ~~~c := BitVec.extractLsb'_append_eq_left
  exact hhigh.trans (congrArg _ hlow.symm)

theorem fastFormat_holds {w : BitVec fastFormat.bits} (hw : fastFormat.Encodes w) :
    fastFormat.Holds w := by
  refine hw.holds (bitSpace_injective (by decide)) ?_
  rintro _ ⟨c, repeats, rfl⟩
  refine ⟨fastFrameWord c, fastFrameWord_holds c, ?_⟩
  rw [sendFAST, or_shiftLeft_bytes]
  exact carries_sendCommands_lsb (c := fastFormat) ⟨rfl, by decide⟩ rfl (by decide) _ _ _ rfl

/-! ### Lego -/

def legoFrameWord (channel mode command : BitVec 4) : BitVec legoFormat.bits :=
  legoWord channel mode command

theorem legoFrameWord_holds (channel mode command : BitVec 4) :
    legoFormat.Holds (legoFrameWord channel mode command) := by
  have hword : (legoFrameWord channel mode command).setWidth 16 = legoWord channel mode command :=
    BitVec.setWidth_eq _
  rw [← lego_holds_iff, hword, legoWord_channel, legoWord_mode, legoWord_command]
  exact legoWord_parity

theorem legoFormat_holds {w : BitVec legoFormat.bits} (hw : legoFormat.Encodes w) :
    legoFormat.Holds w := by
  refine hw.holds (bitSpace_injective (by decide)) ?_
  rintro _ ⟨channel, command, mode, five, rfl⟩
  refine ⟨_, legoFrameWord_holds (channel.setWidth 4) (mode.setWidth 4) (command.setWidth 4), ?_⟩
  rw [sendLegoPowerFunctions_eq, sendLegoPowerFunctionsV2, sendPulseDistanceWidthV1,
    sendFrameOrRepeat_of_none rfl]
  exact carries_sendCommands_lsb (c := legoFormat) ⟨rfl, by decide⟩ rfl (by decide) _ _ _ rfl

/-! ## The decoders -/

theorem kaseikyoFormat_exact : kaseikyoFormat.Exact where
  fits := by decide
  before := List.take_subset 1 specificDecoders
  rawlen {p t u} hu := by
    have haccept : decodeKaseikyo p t = some (true, u) := hu
    exact .inl (decodeKaseikyo_ensures.of_accept haccept).1
  flagged_iff hflags hlen hu hw := kaseikyoFormat_flagged_iff hflags hlen hu hw
  holds hw := kaseikyoFormat_holds hw
  flipBit hw hi _ := kaseikyoFormat_flipBit hw hi

theorem lgFormat_exact : lgFormat.Exact where
  fits := by decide
  before := List.take_subset 6 specificDecoders
  rawlen {p t u} hu := by
    by_contra hne
    rw [not_or] at hne
    have hrefuse := (decodeLG_of_rawlen (s := t) hne.1 hne.2).symm.trans hu
    cases hrefuse
  flagged_iff _ hlen hu hw := lgFormat_flagged_iff hlen hu hw
  holds hw := lgFormat_holds hw
  flipBit hw hi hcovered := lgFormat_flipBit hw hi hcovered

theorem fastFormat_exact : fastFormat.Exact where
  fits := by decide
  before := List.take_subset 9 specificDecoders
  rawlen {p t u} hu := by
    by_contra hne
    have hrefuse := (decodeFAST_of_rawlen (s := t) (not_or.mp hne).1).symm.trans hu
    cases hrefuse
  flagged_iff hflags hlen hu hw := fastFormat_flagged_iff hflags hlen hu hw
  holds hw := fastFormat_holds hw
  flipBit hw hi _ := fastFormat_flipBit hw hi

theorem legoFormat_exact : legoFormat.Exact where
  fits := by decide
  before := List.take_subset 11 specificDecoders
  rawlen {p t u} hu := by
    by_contra hne
    have hrefuse := (decodeLego_of_rawlen (s := t) (not_or.mp hne).1).symm.trans hu
    cases hrefuse
  flagged_iff _ hlen hu hw := legoFormat_flagged_iff hlen hu hw
  holds hw := legoFormat_holds hw
  flipBit hw hi _ := legoFormat_flipBit hw hi

theorem exact_of_mem_checkedFormats : ∀ c ∈ checkedFormats, c.Exact := by
  simp only [checkedFormats, List.forall_mem_cons, List.not_mem_nil, false_imp_iff, implies_true,
    and_true]
  exact ⟨kaseikyoFormat_exact, lgFormat_exact, fastFormat_exact, legoFormat_exact⟩

/-- A frame that is offered to one of the decoders behind those in front of it, and accepted,
has a word, unless it is a special repeat of LG. It is flagged exactly when the redundancy of
that word is wrong: never as it was sent, and always with a single wrong bit under the
redundancy. -/
theorem integrity_flags_exact {c : CheckedFormat} (hc : c ∈ checkedFormats) {p : IrParams}
    {s t u : DecodeState} (h : OfferedBehind c.before p s t) (hlen : p.rawlen ≠ 4)
    (hu : c.decode p t = some (true, u)) :
    (∃ w, c.Spells p w) ∧ ∀ w, c.Spells p w →
      (Flagged u ↔ ¬c.Holds w) ∧ (c.Encodes w → ¬Flagged u) ∧
        ∀ v i, c.Encodes v → i < c.bits → ¬c.Uncovered i → w = flipBit v i → Flagged u := by
  have hexact := exact_of_mem_checkedFormats c hc
  refine ⟨exists_spells p hexact.fits, fun w hw => ?_⟩
  have hflagged : Flagged u ↔ ¬c.Holds w :=
    hexact.flagged_iff (h.flags hexact.before) ((hexact.rawlen hu).resolve_right hlen) hu hw
  refine ⟨hflagged, ?_, ?_⟩
  · intro hsent
    rw [hflagged, not_not]
    exact hexact.holds hsent
  · rintro v i hsent hi hcovered rfl
    exact hflagged.mpr (hexact.flipBit (hexact.holds hsent) hi hcovered)

/-- A Panasonic frame comes as it was sent. -/
theorem integrity_flags_exact_panasonic : ∃ p u,
    IdealCapture p (sendKaseikyo 0xABC 0x5D 0 panasonicVendorIdCode) ∧
      decodeKaseikyo p (irRemoteInitDecodedIRData p .zero) = some (true, u) ∧ ¬Flagged u := by
  obtain ⟨p, hp⟩ := exists_kaseikyoCapture 0xABC 0x5D panasonicVendorIdCode
  have hframe := hp.kaseikyo
  have hlen : p.rawlen = 100 := by
    rw [hframe.rawlen, List.length_append, BitWord.lsbBits_length, BitWord.lsbBits_length]
  have hheader : checkHeader kaseikyoProtocolConstants.distanceWidthTimingInfo p = some true :=
    hframe.checkHeader (by decide)
  obtain ⟨u, hu⟩ := decodeKaseikyo_accepts (s := irRemoteInitDecodedIRData p .zero) hlen hheader
  have hoffered : OfferedBehind kaseikyoFormat.before p .zero (irRemoteInitDecodedIRData p .zero) :=
    { stopped := hp.stopped
      overflowFlag := hp.overflowFlag
      refused := tryDecoders_cons_of_refuse (decodeNec_of_rawlen (by omega) (by omega)) }
  obtain ⟨-, hword⟩ :=
    integrity_flags_exact (List.mem_cons_self ..) hoffered (by omega) hu
  have hspells : kaseikyoFormat.Spells p (kaseikyoFrameWord 0xABC panasonicVendorIdCode 0x5D) := by
    rw [← spelled_kaseikyoFrameWord] at hframe
    exact spells_of_capture (c := kaseikyoFormat) hframe (by decide)
  obtain ⟨hflagged, -⟩ := hword _ hspells
  exact ⟨p, u, hp, hu, fun hset => hflagged.mp hset (kaseikyoFrameWord_holds _ _ _)⟩

end IrRemote
