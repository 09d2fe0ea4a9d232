import IrRemote.Mid.IrRemoteDecode
import IrRemote.Receiver.Capture
import IrRemote.Receiver.Invariant

/-!
# Stale buffer contents

The receiver does not clear its buffer between two frames. Some decoders read before
they check the length of the frame, and the bit loop steps over one entry behind it, so
that the decoding of a short frame could depend on a longer one received before it.

From four entries on no decoder reads behind the frame. A frame of two entries is offered
to `decodeRC6` with a stale header space; but then the level behind the header is that of
the end of the frame, and the decoder refuses.

## Main definitions

* `decodeOutcome` — the part of a decode that is seen by the application

## Main results

* `midIrRemoteDecode_sameFrame` — the outcome does not depend on what stands behind the
  frame
-/

set_option autoImplicit false

namespace IrRemote

/-- The return value of `Mid_IrRemoteDecode`, the decoded frame, and what is kept for the
next repeat. The static variables of `getBiphaselevel` are set anew by each of its users. -/
def decodeOutcome (r : Bool × DecodeState) :
    Bool × IRData × DecodeType × BitVec 32 × BitVec 32 × BitVec 8 :=
  (r.1, r.2.decodedIRData, r.2.lastDecodedProtocol, r.2.lastDecodedCommand, r.2.lastDecodedAddress,
    r.2.repeatCount)

variable {p q : IrParams} {s : DecodeState}

/-! ## Frames of four entries and more -/

theorem SameFrame.tryDecoders (h : SameFrame p q) (hlen : 3 ≤ p.rawlen)
    (hbuf : p.rawlen ≤ rawBufferLength) : tryDecoders decoders p = tryDecoders decoders q := by
  apply tryDecoders_congr
  simp only [decoders, specificDecoders, List.cons_append, List.nil_append, List.forall_mem_cons]
  exact ⟨fun _ => h.decodeNec, fun _ => h.decodeKaseikyo, fun _ => h.decodeDenon,
    fun _ => h.decodeSony, fun _ => h.decodeRC5 (by omega), fun _ => h.decodeRC6 hlen,
    fun _ => h.decodeLG, fun _ => h.decodeJVC, fun _ => h.decodeSamsung, fun _ => h.decodeFAST,
    fun _ => h.decodeWhynter, fun _ => h.decodeLegoPowerFunctions, fun _ => h.decodeBoseWave,
    fun _ => h.decodeMagiQuest, fun _ => h.decodeDistanceWidth hbuf, fun _ => h.decodeHash,
    List.forall_mem_nil _⟩

/-! ## Frames of two entries -/

/-- The decoders in front of `decodeRC6`. -/
def earlyDecoders : List Decoder :=
  [decodeNec, decodeKaseikyo, decodeDenon, decodeSony, decodeRC5]

theorem SameFrame.tryEarlyDecoders (h : SameFrame p q) (hlen : 1 ≤ p.rawlen) :
    IrRemote.tryDecoders earlyDecoders p = IrRemote.tryDecoders earlyDecoders q := by
  apply tryDecoders_congr
  simp only [earlyDecoders, List.forall_mem_cons]
  exact ⟨fun _ => h.decodeNec, fun _ => h.decodeKaseikyo, fun _ => h.decodeDenon,
    fun _ => h.decodeSony, fun _ => h.decodeRC5 hlen, List.forall_mem_nil _⟩

/-- Whatever header `decodeRC6` reads, there is no mark behind it. -/
theorem decodeRC6_of_short (hlen : p.rawlen ≤ 3) :
    ∃ b, decodeRC6 p s = some (false, { s with biphase := b }) := by
  obtain ⟨t, ht⟩ := p.exists_raw (show 1 < rawBufferLength by decide)
  obtain ⟨u, hu⟩ := p.exists_raw (show 2 < rawBufferLength by decide)
  have hlevel : getBiphaselevel p (initBiphaselevel 3 rc6Unit s.biphase) =
      some (.space, initBiphaselevel 3 rc6Unit s.biphase) := by
    simp [getBiphaselevel, initBiphaselevel, hlen]
  by_cases hheader : matchMark t rc6HeaderMark = true ∧ matchSpace u rc6HeaderSpace = true
  · have hguard : ¬rc6Bits + 3 < p.rawlen := Nat.not_lt.mpr (hlen.trans (by decide))
    exact ⟨initBiphaselevel 3 rc6Unit s.biphase,
      by simp [decodeRC6, ht, hu, hheader, hlevel, hguard]⟩
  · refine ⟨s.biphase, ?_⟩
    by_cases hmark : matchMark t rc6HeaderMark = true
    · exact decodeRC6_of_space hu (by simpa [hmark] using hheader)
    · exact decodeRC6_of_mark ht (by simpa using hmark)

/-- From `decodeRC6` on, the decoders refuse a frame of two entries. -/
theorem tryLateDecoders_of_short (hlen : p.rawlen = 2) :
    ∃ b, tryDecoders (decodeRC6 :: decoders.drop 6) p s =
      some (false, { s with biphase := b }) := by
  obtain ⟨b, hb⟩ := decodeRC6_of_short (s := s) (show p.rawlen ≤ 3 by omega)
  refine ⟨b, (tryDecoders_cons_of_refuse hb).trans ?_⟩
  have hspecific := tryDecoders_of_rawlen (s := { s with biphase := b })
    (show p.rawlen ∉ [4, 6, 34, 36, 60, 68, 100, 112] by rw [hlen]; decide)
  have hdistance : decodeDistanceWidth p { s with biphase := b } =
      some (false, { s with biphase := b }) := if_pos (by omega)
  have hhash : decodeHash p { s with biphase := b } = some (false, { s with biphase := b }) :=
    if_pos (by omega)
  rw [show decoders.drop 6 = specificDecoders.drop 6 ++ [decodeDistanceWidth, decodeHash] from rfl,
    tryDecoders_append_of_refuse hspecific, tryDecoders_cons_of_refuse hdistance,
    tryDecoders_cons_of_refuse hhash]
  rfl

/-- What a result of the chain leaves for the application. -/
def chainOutcome (r : Bool × DecodeState) := decodeOutcome (true, r.2)

theorem SameFrame.tryDecoders_of_short (h : SameFrame p q) (hlen : p.rawlen = 2) :
    (IrRemote.tryDecoders decoders p s).map chainOutcome =
      (IrRemote.tryDecoders decoders q s).map chainOutcome := by
  rw [show decoders = earlyDecoders ++ (IrRemote.decodeRC6 :: decoders.drop 6) from rfl,
    tryDecoders_append, tryDecoders_append, h.tryEarlyDecoders (by omega)]
  cases hearly : IrRemote.tryDecoders earlyDecoders q s with
  | none => simp only [Option.bind_none, Option.map_none]
  | some r =>
    obtain ⟨accepted, t⟩ := r
    simp only [Option.bind_some]
    cases accepted
    · obtain ⟨b, hb⟩ := tryLateDecoders_of_short (s := t) hlen
      obtain ⟨b', hb'⟩ := tryLateDecoders_of_short (s := t) (h.rawlen ▸ hlen)
      simp only [Bool.false_eq_true, if_false, hb, hb', Option.map_some, chainOutcome,
        decodeOutcome]
    · simp only [if_true, Option.map_some]

/-! ## All frames -/

/-- Two states that differ behind the recorded frame only give the same outcome. -/
theorem midIrRemoteDecode_sameFrame (hp : ReachableReceiver p) (hstop : p.stateForISR = .stop)
    (h : SameFrame p q) (s : DecodeState) :
    (midIrRemoteDecode p s).map decodeOutcome = (midIrRemoteDecode q s).map decodeOutcome := by
  have hinv := hp.inv
  obtain ⟨heven, hlen⟩ := hinv.stop_even hstop
  have hchain : ∀ s, (tryDecoders decoders p s).map chainOutcome =
      (tryDecoders decoders q s).map chainOutcome := by
    intro s
    by_cases hshort : p.rawlen = 2
    · exact h.tryDecoders_of_short hshort
    · rw [h.tryDecoders (by omega) hinv.rawlen_le]
  cases hov : p.overflowFlag with
  | true =>
    rw [midIrRemoteDecode_of_overflow hstop hov,
      midIrRemoteDecode_of_overflow (h.stateForISR ▸ hstop) (h.overflowFlag ▸ hov),
      h.irRemoteInitDecodedIRData]
  | false =>
    rw [midIrRemoteDecode_of_stop hstop hov,
      midIrRemoteDecode_of_stop (h.stateForISR ▸ hstop) (h.overflowFlag ▸ hov),
      h.irRemoteInitDecodedIRData, Option.map_map, Option.map_map]
    exact hchain _

/-- A frame of two entries, recorded after a longer one. -/
theorem midIrRemoteDecode_sameFrame_one_mark :
    ∃ p q : IrParams, p.rawlen = 2 ∧ p.raw 2 ≠ q.raw 2 ∧
      (midIrRemoteDecode p .zero).map decodeOutcome =
        (midIrRemoteDecode q .zero).map decodeOutcome := by
  obtain ⟨p, hp, hcaptured⟩ := exists_reachable_captured (show ∀ m ∈ [53], 1 ≤ m by decide)
    (show ∀ s ∈ [], 1 ≤ s ∧ s ≤ recordGapTicks by decide) rfl (by decide)
  have hlen : p.rawlen = 2 := hcaptured.rawlen
  have hinside : 2 < rawBufferLength := by decide
  let q : IrParams := { p with rawbuf := p.rawbuf.set 2 (p.rawbuf[2] + 1) hinside }
  have hsame : SameFrame p q := ⟨rfl, rfl, rfl, fun i hi =>
    (Vector.getElem?_set_ne hinside (by omega)).symm⟩
  refine ⟨p, q, hlen, ?_, midIrRemoteDecode_sameFrame hp hcaptured.stopped hsame .zero⟩
  rw [show q.raw 2 = some (p.rawbuf[2] + 1) from Vector.getElem?_set_self hinside,
    show p.raw 2 = some p.rawbuf[2] from Vector.getElem?_eq_getElem hinside]
  simp

end IrRemote
