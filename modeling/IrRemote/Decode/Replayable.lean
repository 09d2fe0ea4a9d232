import IrRemote.Mid.IrRemoteDecode
import IrRemote.Mid.IrSend
import IrRemote.Receiver.Capture

/-!
# Learned frames and the send dispatcher

The application learns every decoded frame whose protocol is known. The decoders and the
dispatcher each have their own list of protocols, and four kinds of frames are decoded
to a protocol without a sender: a learned key of that kind is silently dead.

## Main definitions

* `UnsendableFrame` — the four kinds of frames
* `IsRepeatFrame` — the answer to a special repeat frame, which carries no code

## Main results

* `midIrRemoteDecode_unsendable_iff` — the frames that are decoded to such a protocol
* `emitsMark_learned_iff` — a learned frame can be emitted unless it is one of them
-/

set_option autoImplicit false

namespace IrRemote

/-- The frames the dispatcher has no sender for, once they are decoded in state `s`. -/
inductive UnsendableFrame (p : IrParams) (s : DecodeState) : Prop
  /-- A Kaseikyo frame of another vendor than the five known ones. -/
  | kaseikyo (v : BitVec 16) (rawlen : p.rawlen = 100)
      (header : checkHeader kaseikyoProtocolConstants.distanceWidthTimingInfo p = some true)
      (vendor : kaseikyoVendor p = some v) (unknown : v ∉ knownVendorIdCodes)
  /-- An LG frame with the header of LG2. -/
  | lg2 (t u : ℕ) (rawlen : p.rawlen = 60) (headerMark : p.raw 1 = some t)
      (headerSpace : p.raw 2 = some u) (notLg : matchMark t lgHeaderMark = false)
      (mark : matchMark t lg2HeaderMark = true) (space : matchSpace u lg2HeaderSpace = true)
  /-- A Whynter frame whose header is none of Samsung, and which is no RC5 frame. -/
  | whynter (t : DecodeState) (rawlen : p.rawlen = 68)
      (header : checkHeader whynterProtocolConstants.distanceWidthTimingInfo p = some true)
      (notSamsung :
        checkHeader samsungProtocolConstants.distanceWidthTimingInfo p = some false)
      (notRC5 : decodeRC5 p (irRemoteInitDecodedIRData p s) = some (false, t))
  /-- A frame of no known protocol with two durations of marks. -/
  | pulseWidth (t : DecodeState) (mark : ℕ × ℕ)
      (refused : tryDecoders specificDecoders p (irRemoteInitDecodedIRData p s) = some (false, t))
      (durations : durations p 3 = some (some mark)) (long : 0 < mark.2)

/-- A special repeat frame sets the repeat flag and carries no bits. -/
def IsRepeatFrame (d : IRData) : Prop :=
  d.flags &&& irdataFlagsIsRepeat ≠ 0 ∧ d.numberOfBits = 0

variable {p : IrParams} {s s' t : DecodeState} {repeats : ℕ} {toggle : BitVec 8}

/-! ## From the frame to the protocol -/

theorem tryDecoders_kaseikyo (rawlen : p.rawlen = 100)
    (header : checkHeader kaseikyoProtocolConstants.distanceWidthTimingInfo p = some true) :
    ∃ s', tryDecoders specificDecoders p s = some (true, s') ∧
      s'.decodedIRData.numberOfBits = kaseikyoBits ∧
      ∃ v, kaseikyoVendor p = some v ∧ s'.decodedIRData.protocol = vendorProtocol v := by
  obtain ⟨s', hs'⟩ := decodeKaseikyo_accepts (s := s) rawlen header
  refine ⟨s', ?_, (decodeKaseikyo_ensures.of_accept hs').2.2⟩
  rw [specificDecoders,
    tryDecoders_cons_of_refuse (decodeNec_of_rawlen (by omega) (by omega)),
    tryDecoders_cons_of_accept hs']

theorem tryDecoders_lg2 {t u : ℕ} (rawlen : p.rawlen = 60) (headerMark : p.raw 1 = some t)
    (headerSpace : p.raw 2 = some u) (notLg : matchMark t lgHeaderMark = false)
    (mark : matchMark t lg2HeaderMark = true) (space : matchSpace u lg2HeaderSpace = true) :
    ∃ s', tryDecoders specificDecoders p s = some (true, s') ∧
      s'.decodedIRData.protocol = .lg2 := by
  have hwindow : 142 ≤ t ∧ t ≤ 239 := (matchMark_iff rfl rfl).mp mark
  have hprotocol : lgProtocol t = some (.lg2, lg2HeaderSpace) := by simp [lgProtocol, notLg, mark]
  obtain ⟨s', hs', hlg2⟩ := decodeLG_accepts
    (s := { s with biphase := initBiphaselevel 1 rc5Unit s.biphase }) rawlen headerMark headerSpace
    hprotocol space
  refine ⟨s', ?_, hlg2⟩
  rw [tryDecoders_of_long_mark (decodeNec_of_rawlen (by omega) (by omega))
    (decodeKaseikyo_of_rawlen (by omega)) headerMark (by omega) (by omega) (by omega)]
  exact tryDecoders_cons_of_accept hs'

theorem tryDecoders_whynter (rawlen : p.rawlen = 68)
    (header : checkHeader whynterProtocolConstants.distanceWidthTimingInfo p = some true)
    (notSamsung : checkHeader samsungProtocolConstants.distanceWidthTimingInfo p = some false)
    (notRC5 : decodeRC5 p s = some (false, t)) :
    ∃ s', tryDecoders specificDecoders p s = some (true, s') ∧
      s'.decodedIRData.protocol = .whynter := by
  obtain ⟨m, hm⟩ := p.exists_raw (show 1 < rawBufferLength by decide)
  obtain ⟨u, hu⟩ := p.exists_raw (show 2 < rawBufferLength by decide)
  rw [checkHeader_eq hm hu, Option.some.injEq, Bool.and_eq_true] at header
  have hmark : 43 ≤ m ∧ m ≤ 72 := (matchMark_iff rfl rfl).mp header.1
  have hspace : 42 ≤ u ∧ u ≤ 71 := (matchSpace_iff rfl rfl).mp header.2
  have hnec : matchMark m necHeaderMark = false := by
    have hwindow : matchMark m necHeaderMark = true ↔ 134 ≤ m ∧ m ≤ 225 := matchMark_iff rfl rfl
    rw [Bool.eq_false_iff, Ne, hwindow]
    omega
  have hrc6 : matchSpace u rc6HeaderSpace = false := by
    have hwindow : matchSpace u rc6HeaderSpace = true ↔ 13 ≤ u ∧ u ≤ 22 := matchSpace_iff rfl rfl
    rw [Bool.eq_false_iff, Ne, hwindow]
    omega
  obtain ⟨s', hs'⟩ := decodeWhynter_accepts (s := t) rawlen
    (by rw [checkHeader_eq hm hu, header.1, header.2]; rfl)
  refine ⟨s', ?_, (decodeWhynter_ensures.of_accept hs').1⟩
  rw [specificDecoders, tryDecoders_cons_of_refuse (decodeNec_of_mark hm hnec),
    tryDecoders_cons_of_refuse (decodeKaseikyo_of_rawlen (by omega)),
    tryDecoders_cons_of_refuse (decodeDenon_of_rawlen (by omega)),
    tryDecoders_cons_of_refuse (decodeSony_of_rawlen (by omega) (by omega) (by omega)),
    tryDecoders_cons_of_refuse notRC5,
    tryDecoders_cons_of_refuse (decodeRC6_of_space hu hrc6),
    tryDecoders_cons_of_refuse (decodeLG_of_rawlen (by omega) (by omega)),
    tryDecoders_cons_of_refuse (decodeJVC_of_rawlen (by omega) (by omega)),
    tryDecoders_cons_of_refuse (decodeSamsung_of_header notSamsung),
    tryDecoders_cons_of_refuse (decodeFAST_of_rawlen (by omega)),
    tryDecoders_cons_of_accept hs']

/-! ## From the protocol to the frame -/

/-- A frame that is accepted in state `s` carries no code, has a sender, or is one of the
frames without. -/
def Accounted (p : IrParams) (s s' : DecodeState) : Prop :=
  IsRepeatFrame s'.decodedIRData ∨ s'.decodedIRData.protocol = .unknown ∨
    s'.decodedIRData.protocol ∉ unsendableProtocols ∨ UnsendableFrame p s

theorem Accounted.of_mem {ds : List DecodeType} (h : s'.decodedIRData.protocol ∈ ds)
    (hds : ∀ d ∈ ds, d ∉ unsendableProtocols) : Accounted p s s' :=
  .inr (.inr (.inl (hds _ h)))

theorem Accounted.of_eq {d : DecodeType} (h : s'.decodedIRData.protocol = d)
    (hd : d ∉ unsendableProtocols) : Accounted p s s' :=
  .inr (.inr (.inl (h ▸ hd)))

theorem Accounted.of_repeat (h : RepeatAnswer t s') (ht : t.decodedIRData.numberOfBits = 0) :
    Accounted p s s' :=
  .inl ⟨h.flag, h.numberOfBits.trans ht⟩

/-- What the specific decoders leave when they refuse: nothing of the frame, and what the
refusals tell of a frame of 68 entries. -/
structure Refused (p : IrParams) (s t : DecodeState) : Prop where
  protocol : t.decodedIRData.protocol = .unknown
  numberOfBits : t.decodedIRData.numberOfBits = 0
  rc5 : p.rawlen = 68 → ∃ u, decodeRC5 p (irRemoteInitDecodedIRData p s) = some (false, u)

theorem Refused.withData (h : Refused p s t) {u : DecodeState}
    (hu : ∃ data, u = { t with decodedIRData.decodedRawData := data }) : Refused p s u := by
  obtain ⟨data, rfl⟩ := hu
  exact ⟨h.protocol, h.numberOfBits, h.rc5⟩

theorem Refused.withBiphase (h : Refused p s t) {u : DecodeState}
    (hu : ∃ b, u = { t with biphase := b }) : Refused p s u := by
  obtain ⟨b, rfl⟩ := hu
  exact ⟨h.protocol, h.numberOfBits, h.rc5⟩

/-- The header mark of an LG frame tells whether its protocol has a sender. -/
theorem Accounted.of_lgProtocol {m u space : ℕ} (hlen : p.rawlen = 60) (hm : p.raw 1 = some m)
    (hu : p.raw 2 = some u) (hprotocol : lgProtocol m = some (s'.decodedIRData.protocol, space))
    (hspace : matchSpace u space = true) : Accounted p s s' := by
  unfold lgProtocol at hprotocol
  split_ifs at hprotocol with hlg hlg2
  · obtain ⟨hlg, -⟩ := Prod.mk.inj (Option.some.inj hprotocol)
    exact .of_eq hlg.symm (by decide)
  · obtain ⟨-, rfl⟩ := Prod.mk.inj (Option.some.inj hprotocol)
    exact .inr (.inr (.inr (.lg2 m u hlen hm hu (Bool.eq_false_iff.mpr hlg) hlg2 hspace)))

/-- The specific decoders account for every frame they accept: one step for each of them,
with the state the earlier refusals left. -/
theorem specificDecoders_accounted : Attempt.Ensures (Accounted p s) (Refused p s)
    (tryDecoders specificDecoders p (irRemoteInitDecodedIRData p s)) := by
  rw [tryDecoders, specificDecoders]
  simp only [List.map_cons, List.map_nil]
  -- one decoder after the other; what it leaves behind a refusal goes to the next one
  apply Attempt.Ensures.firstOf_cons (R := (· = irRemoteInitDecodedIRData p s))
  · refine decodeNec_ensures.mono (fun s' h => ?_) fun _ => id
    exact h.elim (fun h => .of_repeat h.2 rfl) (.of_mem · (by decide))
  rintro _ rfl
  apply Attempt.Ensures.firstOf_cons (R := (· = irRemoteInitDecodedIRData p s))
  · refine decodeKaseikyo_ensures.mono (fun s' h => ?_) fun _ => id
    obtain ⟨hlen, hheader, -, v, hv, hprotocol⟩ := h
    by_cases hknown : v ∈ knownVendorIdCodes
    · have hne : vendorProtocol v ≠ .kaseikyo := fun heq =>
        (vendorProtocol_eq_kaseikyo_iff v).mp heq hknown
      exact .of_mem (hprotocol ▸ (vendorProtocol_mem v).resolve_right hne) (by decide)
    · exact .inr (.inr (.inr (.kaseikyo v hlen hheader hv hknown)))
  rintro _ rfl
  -- Denon leaves the data of a frame it refuses, but none of a frame of 68 entries
  apply Attempt.Ensures.firstOf_cons (R := fun t =>
    (∃ data, t = { irRemoteInitDecodedIRData p s with decodedIRData.decodedRawData := data }) ∧
      (p.rawlen = 68 → t = irRemoteInitDecodedIRData p s))
  · by_cases hlen : p.rawlen = 32
    · exact decodeDenon_ensures.mono (fun s' h => .of_mem h (by decide)) fun t h =>
        ⟨h, fun h' => by omega⟩
    · rw [decodeDenon_of_rawlen hlen]
      exact .refuse ⟨⟨_, rfl⟩, fun _ => rfl⟩
  intro t ht
  apply Attempt.Ensures.firstOf_cons (R := (· = t))
  · exact decodeSony_ensures.mono (fun s' h => .of_eq h (by decide)) fun _ => id
  rintro _ rfl
  obtain ⟨⟨data, hdata⟩, hinit⟩ := ht
  apply Attempt.Ensures.firstOf_cons (R := Refused p s)
  · intro b u hu
    cases b with
    | true => exact .of_eq (decodeRC5_ensures.of_accept hu) (by decide)
    | false =>
      obtain ⟨biphase, rfl⟩ := decodeRC5_ensures.of_refuse hu
      -- the refusal itself is kept, a Whynter frame was refused by RC5
      exact ⟨hdata ▸ rfl, hdata ▸ rfl, fun hlen => ⟨_, hinit hlen ▸ hu⟩⟩
  intro t ht
  apply Attempt.Ensures.firstOf_cons (R := Refused p s)
  · exact decodeRC6_ensures.mono (fun s' h => .of_eq h (by decide)) fun _ => ht.withBiphase
  intro t ht
  apply Attempt.Ensures.firstOf_cons (R := Refused p s)
  · refine decodeLG_ensures.mono (fun s' h => ?_) fun u h => h ▸ ht
    rcases h with ⟨-, hrepeat⟩ | ⟨hlen, m, u, space, hm, hu, hprotocol, hspace⟩
    · exact .of_repeat hrepeat ht.numberOfBits
    · exact .of_lgProtocol hlen hm hu hprotocol hspace
  intro t ht
  apply Attempt.Ensures.firstOf_cons (R := Refused p s)
  · refine decodeJVC_ensures.mono (fun s' h => ?_) fun u h => h ▸ ht
    rcases h with hjvc | rfl
    · exact .of_eq hjvc (by decide)
    · exact .inr (.inl ht.protocol)
  intro t ht
  apply Attempt.Ensures.firstOf_cons (R := fun t => Refused p s t ∧ (p.rawlen = 68 →
    checkHeader samsungProtocolConstants.distanceWidthTimingInfo p = some false))
  · intro b u hu
    cases b with
    | true => exact .of_mem (decodeSamsung_ensures.of_accept hu).1 (by decide)
    | false =>
      obtain rfl : u = t := decodeSamsung_ensures.of_refuse hu
      exact ⟨ht, fun hlen => checkHeader_of_decodeSamsung_refuse hlen hu⟩
  rintro t ⟨ht, hsamsung⟩
  apply Attempt.Ensures.firstOf_cons (R := Refused p s)
  · exact decodeFAST_ensures.mono (fun s' h => .of_eq h (by decide)) fun u h => h ▸ ht
  intro t ht
  apply Attempt.Ensures.firstOf_cons (R := Refused p s)
  · refine decodeWhynter_ensures.mono (fun s' h => ?_) fun u h => h ▸ ht
    obtain ⟨-, hlen, hheader⟩ := h
    obtain ⟨u, hu⟩ := ht.rc5 hlen
    exact .inr (.inr (.inr (.whynter u hlen hheader (hsamsung hlen) hu)))
  intro t ht
  apply Attempt.Ensures.firstOf_cons (R := Refused p s)
  · exact decodeLegoPowerFunctions_ensures.mono (fun s' h => .of_eq h (by decide)) fun _ =>
      ht.withData
  intro t ht
  apply Attempt.Ensures.firstOf_cons (R := Refused p s)
  · exact decodeBoseWave_ensures.mono (fun s' h => .of_eq h (by decide)) fun _ => ht.withData
  intro t ht
  apply Attempt.Ensures.firstOf_cons (R := Refused p s)
  · exact decodeMagiQuest_ensures.mono (fun s' h => .of_eq h (by decide)) fun _ => ht.withData
  exact fun t ht => .refuse ht

/-! ## Both directions -/

/-- What the last two decoders leave of a frame all others have refused. -/
theorem tryLastDecoders_ensures : Attempt.Ensures
    (fun s' => s'.decodedIRData.protocol = .unknown ∨ ∃ mark, durations p 3 = some (some mark) ∧
      s'.decodedIRData.protocol = if 0 < mark.2 then .pulseWidth else .pulseDistance)
    (fun s' => s'.decodedIRData.protocol = t.decodedIRData.protocol)
    (tryDecoders [decodeDistanceWidth, decodeHash] p t) := by
  rw [tryDecoders, List.map_cons, List.map_cons]
  apply Attempt.Ensures.firstOf_cons (R := fun u =>
    u.decodedIRData.protocol = t.decodedIRData.protocol)
  · apply decodeDistanceWidth_ensures.mono
    · rintro s' ⟨mark, _, hmark, hprotocol, _⟩
      exact .inr ⟨mark, hmark, hprotocol⟩
    · rintro u ⟨bits, rfl⟩
      rfl
  intro u hu
  apply Attempt.Ensures.firstOf_cons (R := fun v =>
    v.decodedIRData.protocol = t.decodedIRData.protocol)
  · exact decodeHash_ensures.mono (fun _ => .inl) fun v hv => hv.1 ▸ hu
  exact fun v hv => .refuse hv

/-- Unless they have two durations of marks, the frames without a sender are accepted by
the decoder of their protocol. -/
theorem UnsendableFrame.cases (h : UnsendableFrame p s) :
    (∃ s', tryDecoders specificDecoders p (irRemoteInitDecodedIRData p s) = some (true, s') ∧
      s'.decodedIRData.protocol ∈ unsendableProtocols) ∨
    (∃ t, tryDecoders specificDecoders p (irRemoteInitDecodedIRData p s) = some (false, t)) ∧
      ∃ mark, durations p 3 = some (some mark) ∧ 0 < mark.2 := by
  cases h with
  | kaseikyo v rawlen header vendor unknown =>
    obtain ⟨s', hs', -, w, hw, hprotocol⟩ := tryDecoders_kaseikyo rawlen header
    obtain rfl : v = w := Option.some.inj (vendor.symm.trans hw)
    refine .inl ⟨s', hs', ?_⟩
    rw [hprotocol, (vendorProtocol_eq_kaseikyo_iff v).mpr unknown]
    decide
  | lg2 t u rawlen headerMark headerSpace notLg mark space =>
    obtain ⟨s', hs', hprotocol⟩ := tryDecoders_lg2 rawlen headerMark headerSpace notLg mark space
    exact .inl ⟨s', hs', hprotocol ▸ by decide⟩
  | whynter t rawlen header notSamsung notRC5 =>
    obtain ⟨s', hs', hprotocol⟩ := tryDecoders_whynter rawlen header notSamsung notRC5
    exact .inl ⟨s', hs', hprotocol ▸ by decide⟩
  | pulseWidth t mark refused durations long =>
    exact .inr ⟨⟨t, refused⟩, mark, durations, long⟩

/-- A learned frame is decoded to a protocol without a sender exactly when it is one of
the four kinds of frames. -/
theorem midIrRemoteDecode_unsendable_iff (hstop : p.stateForISR = .stop)
    (hdecode : midIrRemoteDecode p s = some (true, s'))
    (hknown : s'.decodedIRData.protocol ≠ .unknown) (hfull : ¬IsRepeatFrame s'.decodedIRData) :
    s'.decodedIRData.protocol ∈ unsendableProtocols ↔ UnsendableFrame p s := by
  obtain ⟨-, rfl⟩ | ⟨-, accepted, hchain⟩ := midIrRemoteDecode_cases hstop hdecode
  · exact absurd rfl hknown
  -- a decoder of one protocol accepts the frame, or the last decoders do
  rw [decoders, tryDecoders_append, Option.bind_eq_some_iff] at hchain
  obtain ⟨⟨specific, t⟩, hspecific, hlast⟩ := hchain
  have haccounted := specificDecoders_accounted (p := p) (s := s)
  cases specific with
  | true =>
    obtain ⟨-, rfl⟩ := Prod.mk.inj (Option.some.inj hlast)
    constructor
    · intro hmem
      have hcases := haccounted.of_accept hspecific
      exact ((hcases.resolve_left hfull).resolve_left hknown).resolve_left (not_not.mpr hmem)
    · intro h
      rcases h.cases with ⟨u, hu, hmem⟩ | ⟨⟨u, hu⟩, -⟩
      · rw [hspecific] at hu
        cases hu
        exact hmem
      · rw [hspecific] at hu
        cases hu
  | false =>
    -- only the universal decoder is left
    have hunknown := (haccounted.of_refuse hspecific).protocol
    obtain ⟨mark, hmark, hprotocol⟩ : ∃ mark, durations p 3 = some (some mark) ∧
        s'.decodedIRData.protocol = if 0 < mark.2 then .pulseWidth else .pulseDistance := by
      cases accepted with
      | true => exact (tryLastDecoders_ensures.of_accept hlast).resolve_left hknown
      | false =>
        exact absurd ((tryLastDecoders_ensures.of_refuse hlast).trans hunknown) hknown
    rw [hprotocol]
    constructor
    · intro hmem
      by_cases hlong : 0 < mark.2
      · exact .pulseWidth t mark hspecific hmark hlong
      · rw [if_neg hlong] at hmem
        exact absurd hmem (by decide)
    · intro h
      rcases h.cases with ⟨u, hu, -⟩ | ⟨-, mark', hmark', hlong⟩
      · rw [hspecific] at hu
        cases hu
      · obtain rfl : mark = mark' := Option.some.inj (Option.some.inj (hmark.symm.trans hmark'))
        rw [if_pos hlong]
        decide

/-- A frame that is learned under a known protocol, and is no special repeat frame, is
emitted with at least one mark exactly when it is none of the four kinds. -/
theorem emitsMark_learned_iff (hstop : p.stateForISR = .stop)
    (hdecode : midIrRemoteDecode p s = some (true, s'))
    (hknown : s'.decodedIRData.protocol ≠ .unknown) (hfull : ¬IsRepeatFrame s'.decodedIRData)
    (hrepeats : repeats < 255) :
    EmitsMark (midIrSendCommon s'.decodedIRData repeats toggle).1 ↔ ¬UnsendableFrame p s := by
  rw [emitsMark_midIrSendCommon_iff hrepeats,
    midIrRemoteDecode_unsendable_iff hstop hdecode hknown hfull]

/-! ## A key of an unknown vendor -/

/-- The marks and spaces, in samples, of a Kaseikyo frame of zeros only. -/
def kaseikyoZeroMarks : List ℕ := 69 :: List.replicate 49 9
def kaseikyoZeroSpaces : List ℕ := 34 :: List.replicate 48 9

theorem exists_kaseikyoZero : ∃ p, ReachableReceiver p ∧
    Captured p kaseikyoZeroMarks kaseikyoZeroSpaces :=
  exists_reachable_captured (by decide) (by decide) (by decide) (by decide)

theorem kaseikyoZero_header (h : Captured p kaseikyoZeroMarks kaseikyoZeroSpaces) :
    checkHeader kaseikyoProtocolConstants.distanceWidthTimingInfo p = some true := by
  rw [checkHeader_eq (h.mark 0 (by decide)) (h.space 0 (by decide))]
  decide

theorem kaseikyoZero_vendor (h : Captured p kaseikyoZeroMarks kaseikyoZeroSpaces) :
    kaseikyoVendor p = some 0 := by
  have hbits : ∀ j (hj : j < (List.replicate 16 false).length), bitValue p kaseikyoBitMark
      kaseikyoBitMark kaseikyoOneSpace (3 + 2 * j) = some (List.replicate 16 false)[j] := by
      intro j hj
      rw [List.length_replicate] at hj
      have hspace := h.space (j + 1) (by simp [kaseikyoZeroSpaces]; omega)
      rw [bitValue, if_pos rfl, show 3 + 2 * j + 1 = 2 * (j + 1) + 2 by omega, hspace]
      simp only [kaseikyoZeroSpaces, List.getElem_cons_succ, List.getElem_replicate,
        Option.map_some]
      decide
  have hdata : decodeBits _ false _ 3 0#32 1#32 = _ := decodeBits_lsb hbits
  rw [List.length_replicate] at hdata
  rw [kaseikyoVendor, show kaseikyoVendorIdBits = 16 from rfl, hdata]
  decide

theorem kaseikyoZero_decode (h : Captured p kaseikyoZeroMarks kaseikyoZeroSpaces) :
    ∃ s', midIrRemoteDecode p s = some (true, s') ∧ s'.decodedIRData.protocol = .kaseikyo ∧
      ¬IsRepeatFrame s'.decodedIRData := by
  obtain ⟨s', hs', hbits, v, hv, hprotocol⟩ := tryDecoders_kaseikyo
    (s := irRemoteInitDecodedIRData p s) h.rawlen (kaseikyoZero_header h)
  obtain rfl : 0 = v := Option.some.inj ((kaseikyoZero_vendor h).symm.trans hv)
  refine ⟨s', midIrRemoteDecode_of_accept h.stopped h.overflowFlag hs', hprotocol,
    fun hrepeat => ?_⟩
  exact absurd (hbits.symm.trans hrepeat.2) (by decide)

theorem emitsMark_learned_iff_kaseikyoZero : ∃ (p : IrParams) (s' : DecodeState),
    UnsendableFrame p .zero ∧
    (EmitsMark (midIrSendCommon s'.decodedIRData 1 initialSendToggleValue).1 ↔
      ¬UnsendableFrame p .zero) := by
  obtain ⟨p, -, h⟩ := exists_kaseikyoZero
  obtain ⟨s', hs', hprotocol, hfull⟩ := kaseikyoZero_decode (s := .zero) h
  refine ⟨p, s', .kaseikyo 0 h.rawlen (kaseikyoZero_header h) (kaseikyoZero_vendor h) (by decide),
    emitsMark_learned_iff h.stopped hs' ?_ hfull (by decide)⟩
  rw [hprotocol]
  decide

/-- The key is learned, and nothing is emitted for it. -/
theorem not_emitsMark_kaseikyoZero : ∃ p s', ReachableReceiver p ∧ p.stateForISR = .stop ∧
    midIrRemoteDecode p .zero = some (true, s') ∧ s'.decodedIRData.protocol ≠ .unknown ∧
    ¬IsRepeatFrame s'.decodedIRData ∧
    ¬EmitsMark (midIrSendCommon s'.decodedIRData 1 initialSendToggleValue).1 := by
  obtain ⟨p, hp, h⟩ := exists_kaseikyoZero
  obtain ⟨s', hs', hprotocol, hfull⟩ := kaseikyoZero_decode (s := .zero) h
  refine ⟨p, s', hp, h.stopped, hs', ?_, hfull, ?_⟩
  · rw [hprotocol]
    decide
  · rw [emitsMark_midIrSendCommon_iff (by decide), hprotocol]
    decide

end IrRemote
