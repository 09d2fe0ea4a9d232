import IrRemote.Protocol.Denon
import IrRemote.Protocol.DistanceWidth
import IrRemote.Protocol.Exotic
import IrRemote.Protocol.Jvc
import IrRemote.Protocol.Kaseikyo
import IrRemote.Protocol.Lg
import IrRemote.Protocol.Nec
import IrRemote.Protocol.Rc5Rc6
import IrRemote.Protocol.Samsung
import IrRemote.Protocol.Sony

/-!
# The decoder chain

`Mid_IrRemoteDecode` offers a complete frame to one decoder after the other until one
accepts it. The universal decoder and the hash come last.

## Main definitions

* `specificDecoders`, `decoders` — the chain
* `midIrRemoteDecode` — `Mid_IrRemoteDecode`

## Main results

* `midIrRemoteDecode_of_stop` — a frame that fitted the buffer goes through the chain
* `midIrRemoteDecode_cases` — what a frame that is reported went through
* `tryDecoders_append` — a frame the first decoders refuse goes to the others
* `tryDecoders_of_long_mark` — the decoders a long header mark passes
* `tryDecoders_of_rawlen` — those a frame of an unknown length passes
-/

set_option autoImplicit false

namespace IrRemote

/-- The decoders of single protocols, in the order in which they are tried. -/
def specificDecoders : List Decoder :=
  [decodeNec, decodeKaseikyo, decodeDenon, decodeSony, decodeRC5, decodeRC6, decodeLG, decodeJVC,
    decodeSamsung, decodeFAST, decodeWhynter, decodeLegoPowerFunctions, decodeBoseWave,
    decodeMagiQuest]

/-- All decoders, in the order in which they are tried. -/
def decoders : List Decoder := specificDecoders ++ [decodeDistanceWidth, decodeHash]

/-- Offer a frame to the decoders of a list. -/
def tryDecoders (ds : List Decoder) (irparams : IrParams) : Attempt DecodeState :=
  Attempt.firstOf (ds.map fun d => d irparams)

/-- `Mid_IrRemoteDecode`. A frame nothing decodes is reported all the same. -/
def midIrRemoteDecode (irparams : IrParams) (s : DecodeState) : Option (Bool × DecodeState) :=
  if irparams.stateForISR ≠ .stop then some (false, s)
  else
    let s := irRemoteInitDecodedIRData irparams s
    if s.decodedIRData.flags &&& irdataFlagsWasOverflow ≠ 0 then
      some (true, { s with decodedIRData.protocol := .unknown })
    else do
      let (_, s) ← tryDecoders decoders irparams s
      return (true, s)

variable {p q : IrParams} {s s' t : DecodeState} {d : Decoder} {ds es : List Decoder} {b : Bool}

theorem tryDecoders_cons_of_refuse (h : d p s = some (false, t)) :
    tryDecoders (d :: ds) p s = tryDecoders ds p t :=
  Attempt.firstOf_cons_of_refuse h

theorem tryDecoders_cons_of_accept (h : d p s = some (true, t)) :
    tryDecoders (d :: ds) p s = some (true, t) :=
  Attempt.firstOf_cons_of_accept h

theorem tryDecoders_append (ds es : List Decoder) :
    tryDecoders (ds ++ es) p s =
      (tryDecoders ds p s).bind fun r =>
        if r.1 then some (true, r.2) else tryDecoders es p r.2 := by
  rw [tryDecoders, List.map_append]
  exact Attempt.firstOf_append _ _ _

theorem tryDecoders_append_of_refuse (h : tryDecoders ds p s = some (false, t)) :
    tryDecoders (ds ++ es) p s = tryDecoders es p t := by
  rw [tryDecoders, List.map_append]
  exact Attempt.firstOf_append_of_refuse h

theorem tryDecoders_append_of_accept (h : tryDecoders ds p s = some (true, t)) :
    tryDecoders (ds ++ es) p s = some (true, t) := by
  rw [tryDecoders, List.map_append]
  exact Attempt.firstOf_append_of_accept h

theorem tryDecoders_congr (h : ∀ d ∈ ds, ∀ s, d p s = d q s) :
    tryDecoders ds p = tryDecoders ds q :=
  congrArg Attempt.firstOf (List.map_congr_left fun d hd => funext (h d hd))

/-- A frame with a header mark of more than three RC5 units that is no NEC or Kaseikyo frame
is refused up to `decodeRC6`, unless it has a length of Denon or Sony. -/
theorem tryDecoders_take_of_long_mark {m : ℕ} (hnec : decodeNec p s = some (false, s))
    (hkaseikyo : decodeKaseikyo p s = some (false, s)) (hm : p.raw 1 = some m) (hlong : 69 ≤ m)
    (hlen : 32 < p.rawlen) (hne : p.rawlen ≠ 42) :
    tryDecoders (specificDecoders.take 6) p s =
      some (false, { s with biphase := initBiphaselevel 1 rc5Unit s.biphase }) := by
  rw [show specificDecoders.take 6 = [decodeNec, decodeKaseikyo, decodeDenon, decodeSony,
      decodeRC5, decodeRC6] from rfl, tryDecoders_cons_of_refuse hnec,
    tryDecoders_cons_of_refuse hkaseikyo,
    tryDecoders_cons_of_refuse (decodeDenon_of_rawlen (by omega)),
    tryDecoders_cons_of_refuse (decodeSony_of_rawlen (by omega) (by omega) (by omega)),
    tryDecoders_cons_of_refuse (decodeRC5_of_long_mark hm (by omega) hlong),
    tryDecoders_cons_of_refuse (decodeRC6_of_long_mark hm hlong)]
  rfl

/-- It goes on to `decodeLG`. -/
theorem tryDecoders_of_long_mark {m : ℕ} (hnec : decodeNec p s = some (false, s))
    (hkaseikyo : decodeKaseikyo p s = some (false, s)) (hm : p.raw 1 = some m) (hlong : 69 ≤ m)
    (hlen : 32 < p.rawlen) (hne : p.rawlen ≠ 42) :
    tryDecoders specificDecoders p s = tryDecoders (specificDecoders.drop 6) p
      { s with biphase := initBiphaselevel 1 rc5Unit s.biphase } :=
  tryDecoders_append_of_refuse (tryDecoders_take_of_long_mark hnec hkaseikyo hm hlong hlen hne)

/-- A frame of 16 bits with a header goes on to `decodeRC5`. -/
theorem tryDecoders_of_short (hlen : p.rawlen = 36) :
    tryDecoders specificDecoders p s = tryDecoders (specificDecoders.drop 4) p s := by
  rw [specificDecoders, tryDecoders_cons_of_refuse (decodeNec_of_rawlen (by omega) (by omega)),
    tryDecoders_cons_of_refuse (decodeKaseikyo_of_rawlen (by omega)),
    tryDecoders_cons_of_refuse (decodeDenon_of_rawlen (by omega)),
    tryDecoders_cons_of_refuse (decodeSony_of_rawlen (by omega) (by omega) (by omega))]
  rfl

/-- Behind `decodeLG`, a frame of no length they know is refused without a trace. -/
theorem tryDecoders_behind_decodeLG (hlen : p.rawlen ∉ [6, 34, 36, 68, 100, 112]) :
    tryDecoders (specificDecoders.drop 7) p s = some (false, s) := by
  simp only [List.mem_cons, List.not_mem_nil, or_false, not_or] at hlen
  obtain ⟨h₆, h₃₄, h₃₆, h₆₈, h₁₀₀, h₁₁₂⟩ := hlen
  rw [show specificDecoders.drop 7 = [decodeJVC, decodeSamsung, decodeFAST, decodeWhynter,
      decodeLegoPowerFunctions, decodeBoseWave, decodeMagiQuest] from rfl,
    tryDecoders_cons_of_refuse (decodeJVC_of_rawlen h₃₄ h₃₆),
    tryDecoders_cons_of_refuse (decodeSamsung_of_rawlen h₆₈ h₁₀₀ h₆),
    tryDecoders_cons_of_refuse (decodeFAST_of_rawlen h₃₆),
    tryDecoders_cons_of_refuse (decodeWhynter_of_rawlen h₆₈),
    tryDecoders_cons_of_refuse (decodeLego_of_rawlen h₃₆),
    tryDecoders_cons_of_refuse (decodeBoseWave_of_rawlen h₃₆),
    tryDecoders_cons_of_refuse (decodeMagiQuest_of_rawlen h₁₁₂)]
  rfl

/-- From `decodeLG` on, a frame of no length they know is refused without a trace. -/
theorem tryDecoders_of_rawlen (hlen : p.rawlen ∉ [4, 6, 34, 36, 60, 68, 100, 112]) :
    tryDecoders (specificDecoders.drop 6) p s = some (false, s) := by
  have hbehind : p.rawlen ∉ [6, 34, 36, 68, 100, 112] := fun h => hlen (by simp_all)
  simp only [List.mem_cons, List.not_mem_nil, or_false, not_or] at hlen
  rw [show specificDecoders.drop 6 = decodeLG :: specificDecoders.drop 7 from rfl,
    tryDecoders_cons_of_refuse (decodeLG_of_rawlen hlen.2.2.2.2.1 hlen.1),
    tryDecoders_behind_decodeLG hbehind]

/-- The start of a decode, for a frame that fitted the buffer: the last frame is put aside. -/
theorem irRemoteInitDecodedIRData_eq (hov : p.overflowFlag = false) :
    irRemoteInitDecodedIRData p s = { s with
      lastDecodedProtocol := s.decodedIRData.protocol
      lastDecodedCommand := s.decodedIRData.command.setWidth 32
      lastDecodedAddress := s.decodedIRData.address.setWidth 32
      decodedIRData := { s.decodedIRData with
        protocol := .unknown
        address := 0
        command := 0
        decodedRawData := 0
        numberOfBits := 0
        flags := irdataFlagsEmpty } } := by
  simp [irRemoteInitDecodedIRData, hov]

theorem irRemoteInitDecodedIRData_flags (hov : p.overflowFlag = false) :
    (irRemoteInitDecodedIRData p s).decodedIRData.flags = irdataFlagsEmpty := by
  rw [irRemoteInitDecodedIRData_eq hov]

theorem irRemoteInitDecodedIRData_not_repeat (hov : p.overflowFlag = false) :
    (irRemoteInitDecodedIRData p s).decodedIRData.flags &&& irdataFlagsIsRepeat = 0 := by
  rw [irRemoteInitDecodedIRData_flags hov]
  rfl

/-- A frame that fitted the buffer goes through the chain, and is reported. -/
theorem midIrRemoteDecode_of_stop (hstop : p.stateForISR = .stop) (hov : p.overflowFlag = false) :
    midIrRemoteDecode p s =
      (tryDecoders decoders p (irRemoteInitDecodedIRData p s)).map fun r => (true, r.2) := by
  simp only [midIrRemoteDecode, hstop, irRemoteInitDecodedIRData_flags hov]
  cases tryDecoders decoders p (irRemoteInitDecodedIRData p s) <;> simp [irdataFlagsEmpty]

/-- A frame that did not fit the buffer is reported as unknown. -/
theorem midIrRemoteDecode_of_overflow (hstop : p.stateForISR = .stop)
    (hov : p.overflowFlag = true) :
    midIrRemoteDecode p s = some (true, irRemoteInitDecodedIRData p s) := by
  have hflags : (irRemoteInitDecodedIRData p s).decodedIRData.flags &&&
      irdataFlagsWasOverflow ≠ 0 := by
    simp [irRemoteInitDecodedIRData, hov, irdataFlagsWasOverflow]
  simp only [midIrRemoteDecode, hstop, ne_eq, not_true, if_false, if_pos hflags]
  rfl

/-- Only a frame that has ended is reported. -/
theorem stateForISR_of_midIrRemoteDecode (h : midIrRemoteDecode p s = some (true, s')) :
    p.stateForISR = .stop := by
  by_contra hrun
  rw [midIrRemoteDecode, if_pos hrun] at h
  cases h

/-- Otherwise no frame has ended. -/
theorem midIrRemoteDecode_eq_false (h : midIrRemoteDecode p s = some (false, s')) :
    p.stateForISR ≠ .stop ∧ s' = s := by
  by_cases hstop : p.stateForISR = .stop
  · cases hov : p.overflowFlag with
    | true =>
      rw [midIrRemoteDecode_of_overflow hstop hov] at h
      cases h
    | false =>
      rw [midIrRemoteDecode_of_stop hstop hov] at h
      obtain ⟨r, -, hr⟩ := Option.map_eq_some_iff.mp h
      cases hr
  · rw [midIrRemoteDecode, if_pos hstop] at h
    cases h
    exact ⟨hstop, rfl⟩

/-- A frame that is reported did not fit the buffer, or it went through the chain. -/
theorem midIrRemoteDecode_cases (hstop : p.stateForISR = .stop)
    (h : midIrRemoteDecode p s = some (true, s')) :
    p.overflowFlag = true ∧ s' = irRemoteInitDecodedIRData p s ∨
      p.overflowFlag = false ∧ ∃ accepted,
        tryDecoders decoders p (irRemoteInitDecodedIRData p s) = some (accepted, s') := by
  cases hov : p.overflowFlag with
  | true =>
    rw [midIrRemoteDecode_of_overflow hstop hov] at h
    obtain ⟨-, hs'⟩ := Prod.mk.inj (Option.some.inj h)
    exact .inl ⟨rfl, hs'.symm⟩
  | false =>
    rw [midIrRemoteDecode_of_stop hstop hov, Option.map_eq_some_iff] at h
    obtain ⟨⟨accepted, t⟩, hchain, ht⟩ := h
    obtain ⟨-, rfl⟩ := Prod.mk.inj ht
    exact .inr ⟨rfl, accepted, hchain⟩

/-- The result of a decode is that of the first decoder which accepts the frame. -/
theorem midIrRemoteDecode_of_accept (hstop : p.stateForISR = .stop) (hov : p.overflowFlag = false)
    (h : tryDecoders specificDecoders p (irRemoteInitDecodedIRData p s) = some (true, s')) :
    midIrRemoteDecode p s = some (true, s') := by
  rw [midIrRemoteDecode_of_stop hstop hov, decoders, tryDecoders_append_of_accept h]
  rfl

end IrRemote
