import IrRemote.Mid.Transmit

/-!
# The frames of a transmission

A command that is repeated is sent as several frames with waits between them.

## Main definitions

* `frames`, `firstFrame` — the frames of a transmission
* `NoWait` — transmissions of one frame

## Main results

* `frames_append_wait` — the first frame ends with the first wait
* `frames_sendCommands` — the frames of a repeated command
-/

set_option autoImplicit false

namespace IrRemote

/-- The waits between two frames. -/
def TxEvent.isWait : TxEvent → Bool
  | .delayMs _ => true
  | .awaitPeriod _ => true
  | _ => false

/-- What is sent in front of the first wait, between two waits, and behind the last. -/
def frames (tx : List TxEvent) : List (List TxEvent) := tx.splitOnP TxEvent.isWait

/-- The frame in front of the first wait. -/
def firstFrame (tx : List TxEvent) : Option (List TxEvent) := (frames tx)[0]?

/-- A transmission of one frame. -/
def NoWait (tx : List TxEvent) : Prop := ∀ e ∈ tx, e.isWait = false

variable {f pause tx tx' : List TxEvent} {e w : TxEvent} {n : ℕ}

theorem NoWait.append (h : NoWait tx) (h' : NoWait tx') : NoWait (tx ++ tx') := by
  intro e he
  rcases List.mem_append.mp he with he | he
  · exact h e he
  · exact h' e he

theorem NoWait.cons (he : e.isWait = false) (h : NoWait tx) : NoWait (e :: tx) :=
  List.forall_mem_cons.mpr ⟨he, h⟩

theorem noWait_nil : NoWait [] := List.forall_mem_nil _

theorem frames_of_noWait (h : NoWait tx) : frames tx = [tx] := List.splitOnP_eq_singleton h

theorem firstFrame_of_noWait (h : NoWait tx) : firstFrame tx = some tx := by
  rw [firstFrame, frames_of_noWait h]
  rfl

/-- The first frame ends with the first wait. -/
theorem frames_append_wait (h : NoWait tx) (hw : w.isWait = true) (rest : List TxEvent) :
    frames (tx ++ w :: rest) = tx :: frames rest :=
  List.splitOnP_append_cons_of_forall_mem h w hw rest

/-- The frames of a repeated command. What is sent once is in front of the first. -/
theorem frames_sendCommands (h : NoWait tx) (hf : NoWait f) (hw : w.isWait = true) :
    frames (tx ++ sendCommands f [w] (n + 1)) = (tx ++ f) :: List.replicate n f := by
  induction n generalizing tx with
  | zero =>
    simp only [sendCommands, Nat.lt_irrefl, if_false, List.append_nil, List.replicate_zero]
    exact frames_of_noWait (h.append hf)
  | succ n ih =>
    have hsplit : tx ++ sendCommands f [w] (n + 2) =
        (tx ++ f) ++ w :: sendCommands f [w] (n + 1) := by
      simp [sendCommands]
    have hrest := ih noWait_nil
    rw [List.nil_append, List.nil_append] at hrest
    rw [hsplit, frames_append_wait (h.append hf) hw, hrest, List.replicate_succ]

/-- The frames of a repeated command are the same, but for what is sent once. -/
theorem mem_frames_sendCommands {g : List TxEvent} (h : NoWait tx) (hg : NoWait g)
    (hw : w.isWait = true) (hf : f ∈ frames (tx ++ sendCommands g [w] n)) :
    ∃ body ∈ [[], g], f = tx ++ body ∨ f = body := by
  cases n with
  | zero =>
    rw [sendCommands, List.append_nil, frames_of_noWait h, List.mem_singleton] at hf
    exact ⟨[], List.mem_cons_self .., .inl (hf.trans (List.append_nil tx).symm)⟩
  | succ n =>
    rw [frames_sendCommands h hg hw, List.mem_cons] at hf
    refine ⟨g, by simp, ?_⟩
    exact hf.imp id List.eq_of_mem_replicate

/-- Special repeat frames may take the place of the others. -/
theorem mem_frames_sendFrameOrRepeat {c : PulseDistanceWidthProtocolConstants}
    {g special : List TxEvent} {repeats : ℕ} (hc : c.specialSendRepeatFunction = some special)
    (hspecial : NoWait special) (hg : NoWait g) (h : NoWait tx)
    (hf : f ∈ frames (tx ++ sendFrameOrRepeat c g repeats n)) :
    ∃ body ∈ [[], g, special], f = tx ++ body ∨ f = body := by
  induction n generalizing tx with
  | zero =>
    rw [sendFrameOrRepeat, List.append_nil, frames_of_noWait h, List.mem_singleton] at hf
    exact ⟨[], List.mem_cons_self .., .inl (hf.trans (List.append_nil tx).symm)⟩
  | succ n ih =>
    obtain ⟨body, hmem, hbody, hstep⟩ : ∃ body ∈ [[], g, special], NoWait body ∧
        sendFrameOrRepeat c g repeats (n + 1) =
          body ++ (if 0 < n then [.awaitPeriod c.repeatPeriodMillis] else []) ++
            sendFrameOrRepeat c g repeats n := by
      rw [sendFrameOrRepeat, hc]
      dsimp only
      split_ifs
      all_goals exact ⟨_, by simp, by assumption, rfl⟩
    rw [hstep] at hf
    rcases Nat.eq_zero_or_pos n with rfl | hpos
    · rw [if_neg (Nat.lt_irrefl 0), sendFrameOrRepeat, List.append_nil, List.append_nil,
        frames_of_noWait (h.append hbody), List.mem_singleton] at hf
      exact ⟨body, hmem, .inl hf⟩
    · rw [if_pos hpos, ← List.append_assoc, ← List.append_assoc, List.append_assoc (tx ++ body),
        List.singleton_append, frames_append_wait (h.append hbody) rfl, List.mem_cons] at hf
      rcases hf with rfl | hf
      · exact ⟨body, hmem, .inl rfl⟩
      · obtain ⟨body', hmem', hf'⟩ := ih noWait_nil hf
        rw [List.nil_append, or_self] at hf'
        exact ⟨body', hmem', .inr hf'⟩

/-! ## The senders of one frame -/

theorem noWait_sendDataBits {pulses : Bool → List TxEvent} (h : ∀ b, NoWait (pulses b))
    (msb : Bool) (data mask : BitVec 32) : NoWait (sendDataBits pulses msb n data mask) := by
  induction n generalizing data mask with
  | zero => exact noWait_nil
  | succ n ih => exact (h _).append (ih _ _)

theorem noWait_sendBit (oneMark oneSpace zeroMark zeroSpace : ℕ) (b : Bool) :
    NoWait (sendBit oneMark oneSpace zeroMark zeroSpace b) := by
  cases b <;> exact (noWait_nil.cons rfl).cons rfl

theorem noWait_sendPulseDistanceWidthDataV1 (oneMark oneSpace zeroMark zeroSpace : ℕ)
    (data : BitVec 32) (flags : BitVec 8) : NoWait
      (sendPulseDistanceWidthDataV1 oneMark oneSpace zeroMark zeroSpace data n flags) := by
  refine (noWait_sendDataBits (noWait_sendBit _ _ _ _) _ _ _).append ?_
  unfold stopMark
  split_ifs
  · exact noWait_nil.cons rfl
  · exact noWait_nil

theorem noWait_sendChunks (oneMark oneSpace zeroMark zeroSpace : ℕ) (array : ℕ → BitVec 32)
    (flags : BitVec 8) (i bits : ℕ) : NoWait
      (sendChunks oneMark oneSpace zeroMark zeroSpace array flags n i bits).1 := by
  induction n generalizing i bits with
  | zero => exact noWait_nil
  | succ n ih => exact (noWait_sendPulseDistanceWidthDataV1 _ _ _ _ _ _).append (ih _ _)

theorem noWait_sendPulseDistanceWidthDataV3 (c : PulseDistanceWidthProtocolConstants)
    (data : BitVec 32) : NoWait (sendPulseDistanceWidthDataV3 c data n) :=
  noWait_sendPulseDistanceWidthDataV1 _ _ _ _ _ _

theorem noWait_sendFrame (c : PulseDistanceWidthProtocolConstants) (data : BitVec 32) :
    NoWait (sendFrame c data n) :=
  ((noWait_sendPulseDistanceWidthDataV3 c data).cons rfl).cons rfl

/-- The first frame of a command is a regular one. -/
theorem exists_frames_sendPulseDistanceWidthV1 (c : PulseDistanceWidthProtocolConstants)
    (data : BitVec 32) (repeats : ℕ) : ∃ rest,
    frames (sendPulseDistanceWidthV1 c data n repeats) =
      sendPulseDistanceWidthV1 c data n 0 :: rest := by
  have hframe := noWait_sendFrame (n := n) c data
  have hfirst : NoWait (.enableIROut c.frequencyKHz :: sendFrame c data n) := hframe.cons rfl
  rw [sendPulseDistanceWidthV1_zero]
  cases repeats with
  | zero =>
    rw [sendPulseDistanceWidthV1_zero]
    exact ⟨[], frames_of_noWait hfirst⟩
  | succ repeats =>
    have hsplit : sendPulseDistanceWidthV1 c data n (repeats + 1) =
        (.enableIROut c.frequencyKHz :: sendFrame c data n) ++ .awaitPeriod c.repeatPeriodMillis ::
          sendFrameOrRepeat c (sendFrame c data n) (repeats + 1) (repeats + 1) := by
      cases h : c.specialSendRepeatFunction <;>
        simp [sendPulseDistanceWidthV1, sendFrameOrRepeat, h]
    exact ⟨_, hsplit ▸ frames_append_wait hfirst rfl _⟩

theorem firstFrame_sendPulseDistanceWidthV1 (c : PulseDistanceWidthProtocolConstants)
    (data : BitVec 32) (repeats : ℕ) :
    firstFrame (sendPulseDistanceWidthV1 c data n repeats) =
      some (sendPulseDistanceWidthV1 c data n 0) := by
  obtain ⟨rest, hrest⟩ := exists_frames_sendPulseDistanceWidthV1 (n := n) c data repeats
  rw [firstFrame, hrest]
  rfl

/-- A protocol without special repeat frames repeats its regular frame. -/
theorem sendFrameOrRepeat_of_none {c : PulseDistanceWidthProtocolConstants}
    (hc : c.specialSendRepeatFunction = none) (f : List TxEvent) (repeats : ℕ) :
    sendFrameOrRepeat c f repeats n = sendCommands f [.awaitPeriod c.repeatPeriodMillis] n := by
  induction n with
  | zero => rfl
  | succ n ih => rw [sendFrameOrRepeat, sendCommands, hc, ih]

theorem frames_sendPulseDistanceWidthV1 {c : PulseDistanceWidthProtocolConstants}
    (hc : c.specialSendRepeatFunction = none) (data : BitVec 32) (repeats : ℕ) :
    frames (sendPulseDistanceWidthV1 c data n repeats) =
      (.enableIROut c.frequencyKHz :: sendFrame c data n) ::
        List.replicate repeats (sendFrame c data n) := by
  rw [sendPulseDistanceWidthV1, sendFrameOrRepeat_of_none hc]
  exact frames_sendCommands (noWait_nil.cons rfl) (noWait_sendFrame c data) rfl

end IrRemote
