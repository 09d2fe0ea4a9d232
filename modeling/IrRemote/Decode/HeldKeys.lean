import IrRemote.Decode.Repeats
import IrRemote.RoundTrip.Denon

/-!
# Held keys

A Denon or Sharp key that is held sends its frames in pairs, one close behind the other. The
decoder counts the frames behind the last long gap in a byte, and from the third one on it marks
them as repeats. Behind 256 frames the byte starts again, and with it the marking.

## Main definitions

* `AcceptedByDenon` — a frame that is offered to `decodeDenon` and accepted
* `HeldKey` — the frames of a key that is held
* `MarksRepeats` — which of its frames are marked as repeats

## Main results

* `HeldInv.step` — the byte counts the frames, and marks them
* `held_denon_key_iff` — the marking is right for 256 frames, and for no more
-/

set_option autoImplicit false

namespace IrRemote

variable {q start : IrParams} {frames : List IrParams} {s t : DecodeState} {n : ℕ}

/-- `Mid_IrRemoteDecode` passes the frame on to `decodeDenon`, which accepts it in some state. -/
structure AcceptedByDenon (q : IrParams) : Prop where
  stopped : q.stateForISR = .stop
  overflowFlag : q.overflowFlag = false
  accepted : ∃ s t, decodeDenon q s = some (true, t)

/-- The frames of a held key: a first one behind a long gap, and the others behind shorter ones. -/
structure HeldKey (start : IrParams) (frames : List IrParams) : Prop where
  accepted : ∀ q ∈ start :: frames, AcceptedByDenon q
  long : ∃ g, start.raw 0 = some g ∧ 1125 ≤ g
  short : ∀ q ∈ frames, ∃ g, q.raw 0 = some g ∧ g < 1125

/-- The frame that was decoded last is marked as a repeat. -/
def DecodeState.IsRepeat (s : DecodeState) : Prop :=
  s.decodedIRData.flags &&& irdataFlagsIsRepeat ≠ 0

instance (s : DecodeState) : Decidable s.IsRepeat := inferInstanceAs (Decidable (_ ≠ _))

/-- The first two frames are not marked as repeats, and all others are. -/
def MarksRepeats (frames : List IrParams) (s : DecodeState) : Prop :=
  ∀ i < frames.length, ∃ t, FaultMachine.run decodeStep (frames.take (i + 1)) s = some t ∧
    (t.IsRepeat ↔ 2 ≤ i)

/-! ## One frame -/

/-- What the decoder checks does not depend on the state. -/
theorem AcceptedByDenon.decodeStep (h : AcceptedByDenon q) {g : ℕ} (hg : q.raw 0 = some g)
    (s : DecodeState) : ∃ u : DecodeState, IrRemote.decodeStep q s = some (denonFields g u) ∧
      u.decodedIRData.flags = 0 ∧ u.repeatCount = s.repeatCount := by
  obtain ⟨u, v, hdecode⟩ := h.accepted
  have hlen : q.rawlen = 32 := by
    by_contra hlen
    rw [decodeDenon_of_rawlen hlen] at hdecode
    simp at hdecode
  obtain ⟨m, hm⟩ := q.exists_raw (show 31 < rawBufferLength by decide)
  have hmark : matchMark m denonHeaderMark = true := by
    obtain ⟨data, hframe⟩ := exists_decodeDenon (s := u) hlen hm hg
    by_contra hmark
    rw [if_neg hmark] at hframe
    simp [hdecode] at hframe
  obtain ⟨data, hframe⟩ := exists_decodeDenon (s := irRemoteInitDecodedIRData q s) hlen hm hg
  rw [if_pos hmark] at hframe
  have hchain : tryDecoders specificDecoders q (irRemoteInitDecodedIRData q s) = _ :=
    (tryDecoders_cons_of_refuse (decodeNec_of_rawlen (by omega) (by omega))).trans <|
      (tryDecoders_cons_of_refuse (decodeKaseikyo_of_rawlen (by omega))).trans <|
        tryDecoders_cons_of_accept hframe
  refine ⟨_, decodeStep_of_accept h.stopped h.overflowFlag hchain, ?_, ?_⟩
  · rw [irRemoteInitDecodedIRData_eq h.overflowFlag]
    rfl
  · rw [irRemoteInitDecodedIRData_eq h.overflowFlag]

/-- Behind a long gap the count starts. -/
theorem denonFields_of_long {g : ℕ} (hg : 1125 ≤ g) (hflags : s.decodedIRData.flags = 0) :
    (denonFields g s).repeatCount = 0 ∧ ¬(denonFields g s).IsRepeat := by
  have hlong : ¬g < (denonAutoRepeatDistance + denonAutoRepeatDistance / 4) / microsPerTick :=
    Nat.not_lt.mpr hg
  rw [denonFields]
  dsimp only
  rw [if_neg hlong]
  refine ⟨rfl, not_not_intro ?_⟩
  rw [hflags]
  rfl

/-- Behind a shorter one it goes on. -/
theorem denonFields_of_short {g : ℕ} (hg : g < 1125) (hflags : s.decodedIRData.flags = 0) :
    (denonFields g s).repeatCount = s.repeatCount + 1 ∧
      ((denonFields g s).IsRepeat ↔ 1 < s.repeatCount + 1) := by
  have hshort : g < (denonAutoRepeatDistance + denonAutoRepeatDistance / 4) / microsPerTick := hg
  rw [denonFields]
  dsimp only
  rw [if_pos hshort]
  refine ⟨rfl, ?_⟩
  rw [DecodeState.IsRepeat]
  dsimp only
  rw [hflags]
  by_cases hrepeat : 1 < s.repeatCount + 1
  -- the other flags are other bits
  · rw [if_pos hrepeat]
    refine iff_of_true ?_ hrepeat
    split_ifs <;> decide
  · rw [if_neg hrepeat]
    refine iff_of_false (not_not_intro ?_) hrepeat
    split_ifs <;> decide

/-! ## The run -/

/-- Behind `n` frames in all, the byte has counted those behind the first one. -/
structure HeldInv (n : ℕ) (s : DecodeState) : Prop where
  repeatCount : s.repeatCount = BitVec.ofNat 8 n
  isRepeat : s.IsRepeat ↔ 1 < s.repeatCount

theorem HeldInv.of_long (h : AcceptedByDenon q) {g : ℕ} (hg : q.raw 0 = some g) (hlong : 1125 ≤ g)
    (s : DecodeState) : ∃ t, decodeStep q s = some t ∧ HeldInv 0 t := by
  obtain ⟨u, hdecode, hflags, -⟩ := h.decodeStep hg s
  obtain ⟨hcount, hrepeat⟩ := denonFields_of_long hlong hflags
  refine ⟨_, hdecode, hcount, iff_of_false hrepeat ?_⟩
  rw [hcount]
  decide

/-- One more frame. -/
theorem HeldInv.step (hs : HeldInv n s) (h : AcceptedByDenon q) {g : ℕ} (hg : q.raw 0 = some g)
    (hshort : g < 1125) : ∃ t, decodeStep q s = some t ∧ HeldInv (n + 1) t := by
  obtain ⟨u, hdecode, hflags, hsame⟩ := h.decodeStep hg s
  obtain ⟨hcount, hrepeat⟩ := denonFields_of_short hshort hflags
  refine ⟨_, hdecode, ?_, ?_⟩
  · rw [hcount, hsame, hs.repeatCount, BitVec.ofNat_add]
    rfl
  · rw [hcount]
    exact hrepeat

/-- Any number of them. -/
theorem HeldInv.run (hs : HeldInv n s) (haccepted : ∀ q ∈ frames, AcceptedByDenon q)
    (hshort : ∀ q ∈ frames, ∃ g, q.raw 0 = some g ∧ g < 1125) :
    ∃ t, FaultMachine.run decodeStep frames s = some t ∧ HeldInv (n + frames.length) t := by
  induction frames generalizing n s with
  | nil => exact ⟨s, rfl, hs⟩
  | cons q frames ih =>
    obtain ⟨hq, hrest⟩ := List.forall_mem_cons.mp haccepted
    obtain ⟨⟨g, hg, hlt⟩, hshort⟩ := List.forall_mem_cons.mp hshort
    obtain ⟨t, ht, hnext⟩ := hs.step hq hg hlt
    obtain ⟨u, hu, hlast⟩ := ih hnext hrest hshort
    refine ⟨u, FaultMachine.run_cons_of_eq ht hu, ?_⟩
    rwa [List.length_cons, Nat.add_comm frames.length, ← Nat.add_assoc]

/-- Behind each of its frames, the byte has counted those behind the first one. -/
theorem HeldKey.run (h : HeldKey start frames) (s : DecodeState) {i : ℕ}
    (hi : i < (start :: frames).length) :
    ∃ t, FaultMachine.run decodeStep ((start :: frames).take (i + 1)) s = some t ∧
      HeldInv i t := by
  obtain ⟨g, hg, hlong⟩ := h.long
  obtain ⟨hfirst, hrest⟩ := List.forall_mem_cons.mp h.accepted
  obtain ⟨t, ht, hinv⟩ := HeldInv.of_long hfirst hg hlong s
  have haccepted : ∀ q ∈ frames.take i, AcceptedByDenon q := fun q hq =>
    hrest q (List.mem_of_mem_take hq)
  have hshort : ∀ q ∈ frames.take i, ∃ g, q.raw 0 = some g ∧ g < 1125 := fun q hq =>
    h.short q (List.mem_of_mem_take hq)
  obtain ⟨u, hu, hlast⟩ := hinv.run haccepted hshort
  rw [Nat.zero_add, List.length_take_of_le (Nat.le_of_lt_succ hi)] at hlast
  exact ⟨u, FaultMachine.run_cons_of_eq ht hu, hlast⟩

/-- Behind 256 further frames the byte has come back to zero, and the frame is not marked. -/
theorem HeldKey.not_marksRepeats (h : HeldKey start frames) (hi : 256 < (start :: frames).length)
    (s : DecodeState) : ¬MarksRepeats (start :: frames) s := by
  intro hmarks
  obtain ⟨t, ht, hinv⟩ := h.run s hi
  obtain ⟨u, hu, hiff⟩ := hmarks 256 hi
  obtain rfl := Option.some.inj (ht.symm.trans hu)
  have hrepeat := hinv.isRepeat.mp (hiff.mpr (by decide))
  rw [hinv.repeatCount] at hrepeat
  exact absurd hrepeat (by decide)

/-- The marking of a held key is right exactly as long as it has no more than 256 frames, whatever
was decoded before. -/
theorem held_denon_key_iff (h : HeldKey start frames) (s : DecodeState) :
    MarksRepeats (start :: frames) s ↔ (start :: frames).length ≤ 256 := by
  constructor
  · intro hmarks
    by_contra hlong
    exact h.not_marksRepeats (Nat.not_le.mp hlong) s hmarks
  · intro hlength i hi
    obtain ⟨t, ht, hinv⟩ := h.run s hi
    refine ⟨t, ht, hinv.isRepeat.trans ?_⟩
    rw [hinv.repeatCount, BitVec.lt_def, BitVec.toNat_ofNat, Nat.mod_eq_of_lt (hi.trans_le hlength)]
    exact Iff.rfl

/-- A key that is held for so many frames behind the first one. -/
theorem exists_heldKey (n : ℕ) : ∃ start q, HeldKey start (List.replicate n q) := by
  obtain ⟨p, hp, hpgap⟩ := exists_denonCapture 0x0B 0x5A (firstFrameBits false)
    (show recordGapTicks < 2000 by decide)
  obtain ⟨q, hq, hqgap⟩ := exists_denonCapture 0x0B 0x5A (firstFrameBits false)
    (show recordGapTicks < 900 by decide)
  have hpframe : AcceptedByDenon p :=
    ⟨hp.stopped, hp.overflowFlag, .zero, _, decodeDenon_denonFrame hp hpgap⟩
  have hqframe : AcceptedByDenon q :=
    ⟨hq.stopped, hq.overflowFlag, .zero, _, decodeDenon_denonFrame hq hqgap⟩
  refine ⟨p, q, List.forall_mem_cons.mpr ⟨hpframe, fun r hr => ?_⟩, ⟨2000, hpgap, by decide⟩,
    fun r hr => ?_⟩
  · exact (List.eq_of_mem_replicate hr) ▸ hqframe
  · exact ⟨900, List.eq_of_mem_replicate hr ▸ hqgap, by decide⟩

/-- Four frames of a held key are marked. -/
theorem held_denon_key_four :
    ∃ start frames, HeldKey start frames ∧ MarksRepeats (start :: frames) .zero := by
  obtain ⟨start, q, h⟩ := exists_heldKey 3
  refine ⟨start, _, h, (held_denon_key_iff h .zero).mpr ?_⟩
  rw [List.length_cons, List.length_replicate]
  decide

/-- The 257th frame is not. -/
theorem held_denon_key_unmarked : ¬∀ (start : IrParams) (frames : List IrParams) (s : DecodeState),
    HeldKey start frames → MarksRepeats (start :: frames) s := by
  intro h
  obtain ⟨start, q, hkey⟩ := exists_heldKey 256
  refine hkey.not_marksRepeats ?_ .zero (h start _ .zero hkey)
  rw [List.length_cons, List.length_replicate]
  decide

end IrRemote
