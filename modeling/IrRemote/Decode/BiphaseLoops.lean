import IrRemote.Library.Traced
import IrRemote.Receiver.Capture
import IrRemote.Receiver.Invariant
import IrRemote.RoundTrip.Rc5
import IrRemote.RoundTrip.Rc6

/-!
# The loops of the biphase decoders

The loops of `decodeRC5` and `decodeRC6` compare the offset into the buffer, a byte, with a
length that a byte need not hold. Every bit has a transition, and a transition is read at
an entry of its own, so each round advances the offset. When it wraps, the loop reads the
gap before the frame, which is longer than every interval, and gives up.

## Main definitions

* `ReadsTo` — successive levels, and the position behind them
* `Positioned` — the positions the loops reach
* `decodeRC5Traced`, `decodeRC6Traced` — the decoders with the entries they read

## Main results

* `ReadsTo.advance` — a transition advances the offset, or wraps it
* `rc5Loop_round`, `rc6Loop_round` — what a round of the loops does
* `defined_rc5Loop`, `defined_rc6Loop` — the loops end
* `biphase_loops_end` — on every captured frame, and the entries they read
-/

set_option autoImplicit false

namespace IrRemote

open Manchester

variable {p : IrParams} {b b' b₁ : Biphase} {unit : ℕ} {l : Bool} {levels rest : List Bool}

/-! ## Successive levels -/

/-- Successive calls of `getBiphaselevel` give these levels and end in this position. -/
def ReadsTo (p : IrParams) : Biphase → List Bool → Biphase → Prop
  | b, [], b' => b' = b
  | b, l :: levels, b' =>
    ∃ b₁, getBiphaselevel p b = some (.ofBool l, b₁) ∧ ReadsTo p b₁ levels b'

/-- Behind the frame there is silence only. -/
theorem Reads.eq_replicate (h : Reads p b levels) (hend : p.rawlen ≤ b.decodeRawbuffOffset) :
    levels = List.replicate levels.length false := by
  cases h with
  | silence n => rw [List.length_replicate]
  | level hlt => exact absurd hend (Nat.not_le.mpr hlt)

theorem Reads.cons (hlevel : getBiphaselevel p b = some (.ofBool l, b'))
    (h : Reads p b' levels) : Reads p b (l :: levels) := by
  rcases Nat.lt_or_ge b.decodeRawbuffOffset p.rawlen with hlt | hend
  · exact .level hlt hlevel h
  · rw [getBiphaselevel, if_pos hend] at hlevel
    obtain ⟨hl, rfl⟩ := Prod.mk.inj (Option.some.inj hlevel)
    obtain rfl : l = false := by
      cases l with
      | false => rfl
      | true => exact absurd hl (by decide)
    rw [h.eq_replicate hend, ← List.replicate_succ]
    exact .silence _ hend

theorem ReadsTo.reads (h : ReadsTo p b levels b') (hrest : Reads p b' rest) :
    Reads p b (levels ++ rest) := by
  induction levels generalizing b with
  | nil =>
    obtain rfl : b' = b := h
    exact hrest
  | cons l levels ih =>
    obtain ⟨b₁, hlevel, h₁⟩ := h
    exact (ih h₁).cons hlevel

/-! ## Positions -/

/-- A position of a loop: when the offset has wrapped no interval of the gap is used. -/
structure Positioned (unit : ℕ) (b : Biphase) : Prop where
  offset_lt : b.decodeRawbuffOffset < 256
  timeUnit : b.timeUnit = unit
  wrapped : b.decodeRawbuffOffset = 0 → b.usedTimingIntervals = 0

theorem positioned_initBiphaselevel {offset : ℕ} (hoffset : offset < 256) (unit : ℕ)
    (b : Biphase) : Positioned unit (initBiphaselevel offset unit b) where
  offset_lt := hoffset
  timeUnit := rfl
  wrapped _ := rfl

/-- The intervals of an entry are used one by one, then the offset advances or wraps. -/
theorem Positioned.useInterval (h : Positioned unit b) (hpos : b.decodeRawbuffOffset ≠ 0) :
    Positioned unit b.useInterval ∧
      (b.useInterval.decodeRawbuffOffset = b.decodeRawbuffOffset ∨
        b.useInterval.decodeRawbuffOffset = b.decodeRawbuffOffset + 1 ∨
        b.useInterval.decodeRawbuffOffset = 0) := by
  have hlt := h.offset_lt
  unfold Biphase.useInterval
  dsimp only
  split_ifs
  · refine ⟨⟨Nat.mod_lt _ (by decide), h.timeUnit, fun _ => rfl⟩, .inr ?_⟩
    dsimp only
    omega
  · exact ⟨⟨hlt, h.timeUnit, fun hzero => absurd hzero hpos⟩, .inl rfl⟩

/-- The gap before the frame is no number of intervals. -/
def GapRefused (unit : ℕ) (p : IrParams) : Prop :=
  0 < p.rawlen ∧ ∀ t, p.raw 0 = some t → timingIntervals unit false t = none

theorem getBiphaselevel_of_wrapped (h : Positioned unit b) (hgap : GapRefused unit p)
    (hzero : b.decodeRawbuffOffset = 0) : getBiphaselevel p b = some (.error, b) := by
  obtain ⟨t, ht⟩ := p.exists_raw (show 0 < rawBufferLength by decide)
  have hin : ¬p.rawlen ≤ b.decodeRawbuffOffset := by
    rw [hzero]
    exact Nat.not_le.mpr hgap.1
  have hspace : decide (b.decodeRawbuffOffset % 2 = 1) = false := by
    rw [hzero]
    rfl
  have hintervals : timingIntervals b.timeUnit (decide (b.decodeRawbuffOffset % 2 = 1)) t =
      none := by
    rw [hspace, h.timeUnit]
    exact hgap.2 t ht
  rw [← hzero] at ht
  simp only [getBiphaselevel, if_neg hin, if_pos (h.wrapped hzero), ht, hintervals,
    Option.bind_eq_bind, Option.bind_some]

/-- What a call inside the frame gives: an error, or the level of the entry and the
position behind one of its intervals. -/
theorem Positioned.getBiphaselevel_cases (h : Positioned unit b) (hgap : GapRefused unit p)
    (hlt : b.decodeRawbuffOffset < p.rawlen) :
    getBiphaselevel p b = some (.error, b) ∨
      ∃ b', getBiphaselevel p b = some (.ofBool (decide (b.decodeRawbuffOffset % 2 = 1)), b') ∧
        Positioned unit b' ∧
        (b'.decodeRawbuffOffset = b.decodeRawbuffOffset ∨
          b'.decodeRawbuffOffset = b.decodeRawbuffOffset + 1 ∨ b'.decodeRawbuffOffset = 0) := by
  by_cases hzero : b.decodeRawbuffOffset = 0
  · exact .inl (getBiphaselevel_of_wrapped h hgap hzero)
  obtain ⟨t, ht⟩ := p.exists_raw
    (Nat.lt_trans h.offset_lt (show 256 < rawBufferLength by decide))
  have hin : ¬p.rawlen ≤ b.decodeRawbuffOffset := Nat.not_le.mpr hlt
  by_cases hused : b.usedTimingIntervals = 0
  · cases hintervals : timingIntervals b.timeUnit (decide (b.decodeRawbuffOffset % 2 = 1)) t with
    | none =>
      refine .inl ?_
      simp only [getBiphaselevel, if_neg hin, if_pos hused, ht, hintervals, Option.bind_eq_bind,
        Option.bind_some]
    | some n =>
      have hnext : Positioned unit { b with currentTimingIntervals := n } :=
        ⟨h.offset_lt, h.timeUnit, h.wrapped⟩
      refine .inr ⟨_, ?_, hnext.useInterval hzero⟩
      simp only [getBiphaselevel, if_neg hin, if_pos hused, ht, hintervals, Option.bind_eq_bind,
        Option.bind_some, BiphaseLevel.ofBool]
  · refine .inr ⟨_, ?_, h.useInterval hzero⟩
    simp only [getBiphaselevel, if_neg hin, if_neg hused, BiphaseLevel.ofBool]

/-- A call gives some level, at every position. -/
theorem Positioned.exists_getBiphaselevel (h : Positioned unit b) (hgap : GapRefused unit p) :
    ∃ level b', getBiphaselevel p b = some (level, b') ∧ Positioned unit b' := by
  rcases Nat.lt_or_ge b.decodeRawbuffOffset p.rawlen with hlt | hend
  · rcases h.getBiphaselevel_cases hgap hlt with herror | ⟨b', hlevel, hb', -⟩
    · exact ⟨_, _, herror, h⟩
    · exact ⟨_, _, hlevel, hb'⟩
  · exact ⟨_, _, if_pos hend, h⟩

theorem Positioned.defined_level {α : Type} {f : BiphaseLevel × Biphase → Option α}
    (h : Positioned unit b) (hgap : GapRefused unit p)
    (hf : ∀ level b', Positioned unit b' → Attempt.Defined (f (level, b'))) :
    Attempt.Defined (getBiphaselevel p b >>= f) := by
  obtain ⟨level, b', hlevel, hb'⟩ := h.exists_getBiphaselevel hgap
  rw [hlevel]
  exact hf level b' hb'

theorem ofBool_injective : Function.Injective BiphaseLevel.ofBool := by decide

theorem ReadsTo.eq_nil_of_wrapped (h : ReadsTo p b levels b') (hb : Positioned unit b)
    (hgap : GapRefused unit p) (hzero : b.decodeRawbuffOffset = 0) : b' = b ∧ levels = [] := by
  cases levels with
  | nil => exact ⟨h, rfl⟩
  | cons l levels =>
    obtain ⟨b₁, hlevel, -⟩ := h
    rw [getBiphaselevel_of_wrapped hb hgap hzero] at hlevel
    cases l <;> simp [BiphaseLevel.ofBool] at hlevel

/-- One level: inside the frame it is that of the entry, behind the frame nothing moves. -/
theorem Positioned.level (hb : Positioned unit b) (hgap : GapRefused unit p)
    (hlevel : getBiphaselevel p b = some (.ofBool l, b')) :
    Positioned unit b' ∧
      (p.rawlen ≤ b.decodeRawbuffOffset ∧ b' = b ∨
        b.decodeRawbuffOffset < p.rawlen ∧ l = decide (b.decodeRawbuffOffset % 2 = 1) ∧
          (b'.decodeRawbuffOffset = b.decodeRawbuffOffset ∨
            b'.decodeRawbuffOffset = b.decodeRawbuffOffset + 1 ∨
            b'.decodeRawbuffOffset = 0)) := by
  rcases Nat.lt_or_ge b.decodeRawbuffOffset p.rawlen with hlt | hend
  · rcases hb.getBiphaselevel_cases hgap hlt with herror | ⟨b₁, hlevel₁, hb₁, hmove⟩
    -- an error is no level
    · rw [herror] at hlevel
      cases l <;> simp [BiphaseLevel.ofBool] at hlevel
    · rw [hlevel₁] at hlevel
      obtain ⟨hl, rfl⟩ := Prod.mk.inj (Option.some.inj hlevel)
      exact ⟨hb₁, .inr ⟨hlt, (ofBool_injective hl).symm, hmove⟩⟩
  · rw [getBiphaselevel, if_pos hend] at hlevel
    obtain ⟨-, rfl⟩ := Prod.mk.inj (Option.some.inj hlevel)
    exact ⟨hb, .inl ⟨hend, rfl⟩⟩

theorem ReadsTo.positioned (h : ReadsTo p b levels b') (hb : Positioned unit b)
    (hgap : GapRefused unit p) : Positioned unit b' := by
  induction levels generalizing b with
  | nil =>
    obtain rfl : b' = b := h
    exact hb
  | cons l levels ih =>
    obtain ⟨b₁, hlevel, h₁⟩ := h
    exact ih h₁ (hb.level hgap hlevel).1

/-- The offset never falls but by wrapping. -/
theorem ReadsTo.offset_le (h : ReadsTo p b levels b') (hb : Positioned unit b)
    (hgap : GapRefused unit p) :
    b.decodeRawbuffOffset ≤ b'.decodeRawbuffOffset ∨ b'.decodeRawbuffOffset = 0 := by
  induction levels generalizing b with
  | nil =>
    obtain rfl : b' = b := h
    exact .inl le_rfl
  | cons l levels ih =>
    obtain ⟨b₁, hlevel, h₁⟩ := h
    obtain ⟨hb₁, hmove⟩ := hb.level hgap hlevel
    rcases hmove with ⟨-, rfl⟩ | ⟨-, -, hsame | hnext | hwrap⟩
    · exact ih h₁ hb₁
    · exact hsame ▸ ih h₁ hb₁
    · have := ih h₁ hb₁
      omega
    -- behind the wrap the gap is read, which is an error
    · obtain ⟨rfl, -⟩ := h₁.eq_nil_of_wrapped hb₁ hgap hwrap
      exact .inr hwrap

/-- The levels of one entry are equal, so a transition advances the offset or wraps it. -/
theorem ReadsTo.advance (h : ReadsTo p b levels b') (hb : Positioned unit b)
    (hgap : GapRefused unit p) (hlt : b.decodeRawbuffOffset < p.rawlen) (hmark : true ∈ levels)
    (hspace : false ∈ levels) :
    b.decodeRawbuffOffset < b'.decodeRawbuffOffset ∨ b'.decodeRawbuffOffset = 0 := by
  -- as long as the offset stays, so does the level
  have hlevels : (b.decodeRawbuffOffset < b'.decodeRawbuffOffset ∨ b'.decodeRawbuffOffset = 0) ∨
      ∀ l ∈ levels, l = decide (b.decodeRawbuffOffset % 2 = 1) := by
    clear hmark hspace
    induction levels generalizing b with
    | nil => exact .inr fun l hl => absurd hl List.not_mem_nil
    | cons l levels ih =>
      obtain ⟨b₁, hlevel, h₁⟩ := h
      obtain ⟨hb₁, hmove⟩ := hb.level hgap hlevel
      rcases hmove with ⟨hend, -⟩ | ⟨-, hl, hsame | hnext | hwrap⟩
      · exact absurd hlt (Nat.not_lt.mpr hend)
      · rcases ih h₁ hb₁ (hsame ▸ hlt) with hmoved | hrest
        · exact .inl (hsame ▸ hmoved)
        · exact .inr (List.forall_mem_cons.mpr ⟨hl, hsame ▸ hrest⟩)
      · have := h₁.offset_le hb₁ hgap
        exact .inl (by omega)
      · obtain ⟨rfl, -⟩ := h₁.eq_nil_of_wrapped hb₁ hgap hwrap
        exact .inl (.inr hwrap)
  rcases hlevels with hmoved | hall
  · exact hmoved
  · exact absurd ((hall _ hmark).trans (hall _ hspace).symm) (by decide)

/-! ## Rounds -/

variable {rounds n : ℕ} {data : BitVec 32}

/-- A round of the loop of `decodeRC5` gives up, or it reads the halves of a bit. -/
theorem rc5Loop_round (hb : Positioned unit b) (hgap : GapRefused unit p)
    (hlt : b.decodeRawbuffOffset < p.rawlen) (rounds n : ℕ) (data : BitVec 32) :
    (∃ b', rc5Loop p (rounds + 1) n data b = some (none, b')) ∨
      ∃ bit b', ReadsTo p b [!bit, bit] b' ∧ rc5Loop p (rounds + 1) n data b =
        rc5Loop p rounds ((n + 1) % 256) (if bit then data <<< 1 ||| 1 else data <<< 1) b' := by
  obtain ⟨tStartLevel, b₁, h₁, hb₁⟩ := hb.exists_getBiphaselevel hgap
  obtain ⟨tEndLevel, b₂, h₂, -⟩ := hb₁.exists_getBiphaselevel hgap
  by_cases hbit : ∃ bit, tStartLevel = .ofBool !bit ∧ tEndLevel = .ofBool bit
  · obtain ⟨bit, rfl, rfl⟩ := hbit
    exact .inr ⟨bit, b₂, ⟨b₁, h₁, b₂, h₂, rfl⟩, rc5Loop_succ hlt h₁ h₂⟩
  · have hone : ¬(tStartLevel = .space ∧ tEndLevel = .mark) := fun h => hbit ⟨true, h⟩
    have hzero : ¬(tStartLevel = .mark ∧ tEndLevel = .space) := fun h => hbit ⟨false, h⟩
    refine .inl ⟨b₂, ?_⟩
    simp only [rc5Loop, if_pos hlt, h₁, h₂, if_neg hone, if_neg hzero, Option.bind_eq_bind,
      Option.bind_some, Option.pure_def]

/-- The halves of a bit of RC6. -/
def rc6Halves (n : ℕ) (bit : Bool) : List Bool :=
  if rc6Wide n then [bit, bit, !bit, !bit] else [bit, !bit]

theorem mem_rc6Halves (n : ℕ) (bit l : Bool) : l ∈ rc6Halves n bit := mem_unitsOfBit _ bit l

/-- A round of the loop of `decodeRC6` gives up, or it reads the halves of a bit. -/
theorem rc6Loop_round (hb : Positioned unit b) (hgap : GapRefused unit p)
    (hlt : b.decodeRawbuffOffset < p.rawlen) (rounds n : ℕ) (data : BitVec 32) :
    (∃ b', rc6Loop p (rounds + 1) n data b = some (none, b')) ∨
      ∃ bit b', ReadsTo p b (rc6Halves n bit) b' ∧ rc6Loop p (rounds + 1) n data b =
        rc6Loop p rounds ((n + 1) % 256) (if bit then data <<< 1 ||| 1 else data <<< 1) b' := by
  obtain ⟨level₁, b₁, h₁, hb₁⟩ := hb.exists_getBiphaselevel hgap
  obtain ⟨level₂, b₂, h₂, hb₂⟩ := hb₁.exists_getBiphaselevel hgap
  cases hwide : rc6Wide n with
  | false =>
    have hindex : ¬n = rc6ToggleBitIndex := by simpa [rc6Wide] using hwide
    by_cases hbit : ∃ bit, level₁ = .ofBool bit ∧ level₂ = .ofBool !bit
    · obtain ⟨bit, rfl, rfl⟩ := hbit
      refine .inr ⟨bit, b₂, ?_, rc6Loop_narrow hlt hwide h₁ h₂⟩
      rw [rc6Halves, hwide]
      exact ⟨b₁, h₁, b₂, h₂, rfl⟩
    · have hone : ¬(level₁ = .mark ∧ level₂ = .space) := fun h => hbit ⟨true, h⟩
      have hzero : ¬(level₁ = .space ∧ level₂ = .mark) := fun h => hbit ⟨false, h⟩
      refine .inl ⟨b₂, ?_⟩
      simp only [rc6Loop, if_pos hlt, if_neg hindex, h₁, h₂, if_neg hone, if_neg hzero,
        Option.bind_eq_bind, Option.bind_some, Option.pure_def, ne_eq, not_true_eq_false, if_false]
  | true =>
    have hindex : n = rc6ToggleBitIndex := by simpa [rc6Wide] using hwide
    obtain ⟨level₃, b₃, h₃, hb₃⟩ := hb₂.exists_getBiphaselevel hgap
    obtain ⟨level₄, b₄, h₄, -⟩ := hb₃.exists_getBiphaselevel hgap
    -- the toggle bit is read in four halves, of which two and two are equal
    by_cases hstart : level₁ = level₂
    · by_cases hend : level₃ = level₄
      · subst hstart hend
        by_cases hbit : ∃ bit, level₁ = .ofBool bit ∧ level₃ = .ofBool !bit
        · obtain ⟨bit, rfl, rfl⟩ := hbit
          refine .inr ⟨bit, b₄, ?_, rc6Loop_wide hlt hwide h₁ h₂ h₃ h₄⟩
          rw [rc6Halves, hwide]
          exact ⟨b₁, h₁, b₂, h₂, b₃, h₃, b₄, h₄, rfl⟩
        · have hone : ¬(level₁ = .mark ∧ level₃ = .space) := fun h => hbit ⟨true, h⟩
          have hzero : ¬(level₁ = .space ∧ level₃ = .mark) := fun h => hbit ⟨false, h⟩
          refine .inl ⟨b₄, ?_⟩
          simp only [rc6Loop, if_pos hlt, if_pos hindex, h₁, h₂, h₃, h₄, if_neg hone, if_neg hzero,
            Option.bind_eq_bind, Option.bind_some, Option.pure_def, ne_eq, not_true_eq_false,
            if_false]
      · refine .inl ⟨b₄, ?_⟩
        simp only [rc6Loop, if_pos hlt, if_pos hindex, h₁, h₂, h₃, h₄, hstart, hend,
          Option.bind_eq_bind, Option.bind_some, Option.pure_def, ne_eq, not_true_eq_false,
          if_false, not_false_eq_true, if_true]
    · refine .inl ⟨b₂, ?_⟩
      simp only [rc6Loop, if_pos hlt, if_pos hindex, h₁, h₂, hstart, Option.bind_eq_bind,
        Option.bind_some, Option.pure_def, ne_eq, not_false_eq_true, if_true]

/-! ## The loops end -/

/-- The advances that are left before the offset has wrapped. -/
def Biphase.advancesLeft (b : Biphase) : ℕ := (256 - b.decodeRawbuffOffset) % 256

theorem ReadsTo.advancesLeft_lt (h : ReadsTo p b levels b') (hb : Positioned unit b)
    (hgap : GapRefused unit p) (hlt : b.decodeRawbuffOffset < p.rawlen)
    (hlevels : ∀ l, l ∈ levels) : b'.advancesLeft < b.advancesLeft := by
  have hpos : b.decodeRawbuffOffset ≠ 0 := fun hzero =>
    List.ne_nil_of_mem (hlevels true) (h.eq_nil_of_wrapped hb hgap hzero).2
  have hmove := h.advance hb hgap hlt (hlevels true) (hlevels false)
  have hlt₀ := hb.offset_lt
  have hlt₁ := (h.positioned hb hgap).offset_lt
  unfold Biphase.advancesLeft
  omega

/-- A loop whose rounds give up or read both levels, and which ends behind the frame. -/
structure RoundsAdvance (p : IrParams) (unit : ℕ)
    (loop : ℕ → ℕ → BitVec 32 → Biphase → Option (Option (ℕ × BitVec 32) × Biphase)) : Prop where
  round : ∀ {b}, Positioned unit b → b.decodeRawbuffOffset < p.rawlen → ∀ rounds n data,
    (∃ b', loop (rounds + 1) n data b = some (none, b')) ∨
      ∃ levels n' data' b', ReadsTo p b levels b' ∧ (∀ l, l ∈ levels) ∧
        loop (rounds + 1) n data b = loop rounds n' data' b'
  stop : ∀ {b}, ¬b.decodeRawbuffOffset < p.rawlen → ∀ rounds n data,
    loop (rounds + 1) n data b = some (some (n, data), b)

/-- Every round advances the offset, so there are at most as many as it has values. -/
theorem RoundsAdvance.defined
    {loop : ℕ → ℕ → BitVec 32 → Biphase → Option (Option (ℕ × BitVec 32) × Biphase)}
    (h : RoundsAdvance p unit loop) (hb : Positioned unit b) (hgap : GapRefused unit p)
    (hrounds : b.advancesLeft < rounds) (n : ℕ) (data : BitVec 32) :
    Attempt.Defined (loop rounds n data b) := by
  induction rounds generalizing n data b with
  | zero => exact absurd hrounds (Nat.not_lt_zero _)
  | succ rounds ih =>
    by_cases hlt : b.decodeRawbuffOffset < p.rawlen
    · rcases h.round hb hlt rounds n data with ⟨b', hend⟩ | ⟨_, _, _, b', hreads, hboth, hloop⟩
      · exact ⟨_, hend⟩
      · have hleft := hreads.advancesLeft_lt hb hgap hlt hboth
        rw [hloop]
        exact ih (hreads.positioned hb hgap) (by omega) _ _
    · exact ⟨_, h.stop hlt rounds n data⟩

theorem mem_halves (bit l : Bool) : l ∈ [!bit, bit] := by cases bit <;> cases l <;> decide

theorem roundsAdvance_rc5Loop (hgap : GapRefused unit p) :
    RoundsAdvance p unit (rc5Loop p) where
  round hb hlt rounds n data :=
    (rc5Loop_round hb hgap hlt rounds n data).imp_right fun ⟨bit, b', hreads, hloop⟩ =>
      ⟨_, _, _, b', hreads, mem_halves bit, hloop⟩
  stop hlt _ _ _ := if_neg hlt

theorem roundsAdvance_rc6Loop (hgap : GapRefused unit p) :
    RoundsAdvance p unit (rc6Loop p) where
  round hb hlt rounds n data :=
    (rc6Loop_round hb hgap hlt rounds n data).imp_right fun ⟨bit, b', hreads, hloop⟩ =>
      ⟨_, _, _, b', hreads, mem_rc6Halves n bit, hloop⟩
  stop hlt _ _ _ := if_neg hlt

theorem defined_rc5Loop (hb : Positioned unit b) (hgap : GapRefused unit p)
    (hrounds : b.advancesLeft < rounds) (n : ℕ) (data : BitVec 32) :
    Attempt.Defined (rc5Loop p rounds n data b) :=
  (roundsAdvance_rc5Loop hgap).defined hb hgap hrounds n data

theorem defined_rc6Loop (hb : Positioned unit b) (hgap : GapRefused unit p)
    (hrounds : b.advancesLeft < rounds) (n : ℕ) (data : BitVec 32) :
    Attempt.Defined (rc6Loop p rounds n data b) :=
  (roundsAdvance_rc6Loop hgap).defined hb hgap hrounds n data

/-! ## The entries they read -/

/-- `getBiphaselevel` with the entry it reads. -/
def getBiphaselevelTraced (irparams : IrParams) (b : Biphase) :
    Traced ℕ (BiphaseLevel × Biphase) :=
  if irparams.rawlen ≤ b.decodeRawbuffOffset then pure (.space, b)
  else
    let isMark : Bool := b.decodeRawbuffOffset % 2 = 1
    let level : BiphaseLevel := if isMark then .mark else .space
    if b.usedTimingIntervals = 0 then do
      match timingIntervals b.timeUnit isMark
        (← Traced.read irparams.raw b.decodeRawbuffOffset) with
      | some n => pure (level, { b with currentTimingIntervals := n }.useInterval)
      | none => pure (.error, b)
    else pure (level, b.useInterval)

/-- The loop of `decodeRC5` with the entries it reads. -/
def rc5LoopTraced (irparams : IrParams) :
    ℕ → ℕ → BitVec 32 → Biphase → Traced ℕ (Option (ℕ × BitVec 32) × Biphase)
  | 0, _, _, _ => Traced.fail
  | rounds + 1, tBitIndex, tDecodedRawData, b =>
    if b.decodeRawbuffOffset < irparams.rawlen then do
      let (tStartLevel, b) ← getBiphaselevelTraced irparams b
      let (tEndLevel, b) ← getBiphaselevelTraced irparams b
      if tStartLevel = .space ∧ tEndLevel = .mark then
        rc5LoopTraced irparams rounds ((tBitIndex + 1) % 256) (tDecodedRawData <<< 1 ||| 1) b
      else if tStartLevel = .mark ∧ tEndLevel = .space then
        rc5LoopTraced irparams rounds ((tBitIndex + 1) % 256) (tDecodedRawData <<< 1) b
      else return (none, b)
    else pure (some (tBitIndex, tDecodedRawData), b)

/-- The loop of `decodeRC6` with the entries it reads. -/
def rc6LoopTraced (irparams : IrParams) :
    ℕ → ℕ → BitVec 32 → Biphase → Traced ℕ (Option (ℕ × BitVec 32) × Biphase)
  | 0, _, _, _ => Traced.fail
  | rounds + 1, tBitIndex, tDecodedRawData, b =>
    if b.decodeRawbuffOffset < irparams.rawlen then do
      let (tStartLevel, b) ← getBiphaselevelTraced irparams b
      let (tStartLevel', b) ←
        if tBitIndex = rc6ToggleBitIndex then getBiphaselevelTraced irparams b
        else pure (tStartLevel, b)
      if tStartLevel ≠ tStartLevel' then
        return (none, b)
      let (tEndLevel, b) ← getBiphaselevelTraced irparams b
      let (tEndLevel', b) ←
        if tBitIndex = rc6ToggleBitIndex then getBiphaselevelTraced irparams b
        else pure (tEndLevel, b)
      if tEndLevel ≠ tEndLevel' then
        return (none, b)
      if tStartLevel = .mark ∧ tEndLevel = .space then
        rc6LoopTraced irparams rounds ((tBitIndex + 1) % 256) (tDecodedRawData <<< 1 ||| 1) b
      else if tStartLevel = .space ∧ tEndLevel = .mark then
        rc6LoopTraced irparams rounds ((tBitIndex + 1) % 256) (tDecodedRawData <<< 1) b
      else return (none, b)
    else pure (some (tBitIndex, tDecodedRawData), b)

/-- `checkForRepeatSpaceTicksAndSetFlag` with the entry it reads. -/
def checkForRepeatSpaceTicksAndSetFlagTraced (aMaximumRepeatSpaceTicks : ℕ)
    (irparams : IrParams) (s : DecodeState) : Traced ℕ DecodeState := do
  let gap ← Traced.read irparams.raw 0
  return if gap < aMaximumRepeatSpaceTicks then
    { s with decodedIRData.flags := s.decodedIRData.flags ||| irdataFlagsIsRepeat }
  else s

/-- `decodeRC5` with the entries it reads. -/
def decodeRC5Traced (irparams : IrParams) (s : DecodeState) : Traced ℕ (Bool × DecodeState) := do
  let b := initBiphaselevel 1 rc5Unit s.biphase
  if irparams.rawlen < (rc5Bits + 1) / 2 + 2 ∧ rc5Bits + 2 < irparams.rawlen then
    return (false, { s with biphase := b })
  let (level, b) ← getBiphaselevelTraced irparams b
  if level ≠ .mark then
    return (false, { s with biphase := b })
  let (result, b) ← rc5LoopTraced irparams biphaseRounds 0 0 b
  match result with
  | none => return (false, { s with biphase := b })
  | some (tBitIndex, tDecodedRawData) =>
    let s ← checkForRepeatSpaceTicksAndSetFlagTraced (rc5MaximumRepeatDistance / microsPerTick)
      irparams { s with
        biphase := b
        decodedIRData := rc5Fields tBitIndex tDecodedRawData s.decodedIRData }
    return (true, s)

/-- `decodeRC6` with the entries it reads. -/
def decodeRC6Traced (irparams : IrParams) (s : DecodeState) : Traced ℕ (Bool × DecodeState) := do
  if irparams.rawlen < minRc6Marks + 3 ∧ rc6Bits + 3 < irparams.rawlen then
    return (false, s)
  if !matchMark (← Traced.read irparams.raw 1) rc6HeaderMark ||
      !matchSpace (← Traced.read irparams.raw 2) rc6HeaderSpace then
    return (false, s)
  let b := initBiphaselevel 3 rc6Unit s.biphase
  let (level, b) ← getBiphaselevelTraced irparams b
  if level ≠ .mark then
    return (false, { s with biphase := b })
  let (level, b) ← getBiphaselevelTraced irparams b
  if level ≠ .space then
    return (false, { s with biphase := b })
  let (result, b) ← rc6LoopTraced irparams biphaseRounds 0 0 b
  match result with
  | none => return (false, { s with biphase := b })
  | some (tBitIndex, tDecodedRawData) =>
    let s ← checkForRepeatSpaceTicksAndSetFlagTraced (rc6MaximumRepeatDistance / microsPerTick)
      irparams { s with
        biphase := b
        decodedIRData := rc6Fields tBitIndex tDecodedRawData s.decodedIRData }
    return (true, { s with decodedIRData.protocol := .rc6 })

theorem result_getBiphaselevelTraced (p : IrParams) (b : Biphase) :
    (getBiphaselevelTraced p b).result = getBiphaselevel p b := by
  unfold getBiphaselevelTraced getBiphaselevel
  simp only [Traced.result_ite, Traced.result_bind, Traced.result_pure, Traced.result_read]
  congr 2
  refine Option.bind_congr fun t _ => ?_
  cases timingIntervals b.timeUnit (decide (b.decodeRawbuffOffset % 2 = 1)) t <;> rfl

theorem result_rc5LoopTraced (p : IrParams) (rounds n : ℕ) (data : BitVec 32) (b : Biphase) :
    (rc5LoopTraced p rounds n data b).result = rc5Loop p rounds n data b := by
  induction rounds generalizing n data b with
  | zero => rfl
  | succ rounds ih =>
    simp only [rc5LoopTraced, rc5Loop, Traced.result_ite, Traced.result_bind, Traced.result_pure,
      result_getBiphaselevelTraced, ih, Option.pure_def]

theorem result_rc6LoopTraced (p : IrParams) (rounds n : ℕ) (data : BitVec 32) (b : Biphase) :
    (rc6LoopTraced p rounds n data b).result = rc6Loop p rounds n data b := by
  induction rounds generalizing n data b with
  | zero => rfl
  | succ rounds ih =>
    simp only [rc6LoopTraced, rc6Loop, Traced.result_ite, Traced.result_bind, Traced.result_pure,
      result_getBiphaselevelTraced, ih, Option.pure_def]

theorem result_checkForRepeatSpaceTicksAndSetFlagTraced (ticks : ℕ) (p : IrParams)
    (s : DecodeState) : (checkForRepeatSpaceTicksAndSetFlagTraced ticks p s).result =
      checkForRepeatSpaceTicksAndSetFlag ticks p s := by
  simp only [checkForRepeatSpaceTicksAndSetFlagTraced, checkForRepeatSpaceTicksAndSetFlag,
    Traced.result_bind, Traced.result_pure, Traced.result_read, Option.pure_def]

variable {s : DecodeState}

theorem result_decodeRC5Traced (p : IrParams) (s : DecodeState) :
    (decodeRC5Traced p s).result = decodeRC5 p s := by
  unfold decodeRC5Traced decodeRC5
  simp only [Traced.result_ite, Traced.result_bind, Traced.result_pure,
    result_getBiphaselevelTraced, result_rc5LoopTraced, Option.pure_def]
  congr 1
  refine Option.bind_congr fun r _ => ?_
  obtain ⟨level, b⟩ := r
  congr 1
  refine Option.bind_congr fun r _ => ?_
  obtain ⟨result, b⟩ := r
  cases result with
  | none => rfl
  | some data =>
    simp only [Traced.result_bind, Traced.result_pure,
      result_checkForRepeatSpaceTicksAndSetFlagTraced]

theorem result_decodeRC6Traced (p : IrParams) (s : DecodeState) :
    (decodeRC6Traced p s).result = decodeRC6 p s := by
  unfold decodeRC6Traced decodeRC6
  simp only [Traced.result_ite, Traced.result_bind, Traced.result_pure, Traced.result_read,
    result_getBiphaselevelTraced, result_rc6LoopTraced, Option.pure_def]
  congr 1
  refine Option.bind_congr fun t _ => Option.bind_congr fun u _ => ?_
  congr 1
  refine Option.bind_congr fun r _ => ?_
  obtain ⟨level, b⟩ := r
  congr 1
  refine Option.bind_congr fun r _ => ?_
  obtain ⟨level, b⟩ := r
  congr 1
  refine Option.bind_congr fun r _ => ?_
  obtain ⟨result, b⟩ := r
  cases result with
  | none => rfl
  | some data =>
    simp only [Traced.result_bind, Traced.result_pure,
      result_checkForRepeatSpaceTicksAndSetFlagTraced]

/-! ## The entries are told by a byte -/

/-- The offset is a byte, whatever is read. -/
theorem offset_lt_of_getBiphaselevel {level : BiphaseLevel}
    (h : getBiphaselevel p b = some (level, b')) (hb : b.decodeRawbuffOffset < 256) :
    b'.decodeRawbuffOffset < 256 := by
  have huse : ∀ c : Biphase, c.decodeRawbuffOffset < 256 →
      c.useInterval.decodeRawbuffOffset < 256 := by
    intro c hc
    unfold Biphase.useInterval
    dsimp only
    split_ifs
    · exact Nat.mod_lt _ (by decide)
    · exact hc
  -- the offset stays, or an interval is used
  rw [getBiphaselevel] at h
  split_ifs at h with hend hused
  · obtain ⟨-, rfl⟩ := Prod.mk.inj (Option.some.inj h)
    exact hb
  · obtain ⟨t, -, h⟩ := Option.bind_eq_some_iff.mp h
    split at h
    · obtain ⟨-, rfl⟩ := Prod.mk.inj (Option.some.inj h)
      exact huse _ hb
    · obtain ⟨-, rfl⟩ := Prod.mk.inj (Option.some.inj h)
      exact hb
  · obtain ⟨-, rfl⟩ := Prod.mk.inj (Option.some.inj h)
    exact huse _ hb

theorem readsIn_getBiphaselevelTraced (hb : b.decodeRawbuffOffset < 256) :
    (getBiphaselevelTraced p b).ReadsIn (· < 256) := by
  unfold getBiphaselevelTraced
  refine .ite (fun _ => .pure _) fun _ => .ite (fun _ => .bind (.read hb) fun t _ => ?_)
    fun _ => .pure _
  split <;> exact .pure _

/-- A level is read at a byte offset, and so is what follows. -/
theorem readsIn_level {α : Type} {f : BiphaseLevel × Biphase → Traced ℕ α}
    (hb : b.decodeRawbuffOffset < 256)
    (hf : ∀ level b', b'.decodeRawbuffOffset < 256 → (f (level, b')).ReadsIn (· < 256)) :
    (getBiphaselevelTraced p b >>= f).ReadsIn (· < 256) := by
  refine .bind (readsIn_getBiphaselevelTraced hb) fun ⟨level, b'⟩ h => hf level b' ?_
  rw [result_getBiphaselevelTraced] at h
  exact offset_lt_of_getBiphaselevel h hb

theorem readsIn_rc5LoopTraced (hb : b.decodeRawbuffOffset < 256) :
    (rc5LoopTraced p rounds n data b).ReadsIn (· < 256) := by
  induction rounds generalizing n data b with
  | zero => exact .fail
  | succ rounds ih =>
    unfold rc5LoopTraced
    exact .ite (fun _ => readsIn_level hb fun _ _ h₁ => readsIn_level h₁ fun _ _ h₂ =>
      .ite (fun _ => ih h₂) fun _ => .ite (fun _ => ih h₂) fun _ => .pure _) fun _ => .pure _

theorem readsIn_rc6LoopTraced (hb : b.decodeRawbuffOffset < 256) :
    (rc6LoopTraced p rounds n data b).ReadsIn (· < 256) := by
  induction rounds generalizing n data b with
  | zero => exact .fail
  | succ rounds ih =>
    unfold rc6LoopTraced
    -- the second halves of the toggle bit are read like the first
    by_cases hindex : n = rc6ToggleBitIndex
    · simp only [if_pos hindex]
      exact .ite (fun _ => readsIn_level hb fun _ _ h₁ => readsIn_level h₁ fun _ _ h₂ =>
        .ite (fun _ => .pure _) fun _ => readsIn_level h₂ fun _ _ h₃ => readsIn_level h₃
          fun _ _ h₄ => .ite (fun _ => .pure _) fun _ => .ite (fun _ => ih h₄) fun _ =>
            .ite (fun _ => ih h₄) fun _ => .pure _) fun _ => .pure _
    · simp only [if_neg hindex]
      exact .ite (fun _ => readsIn_level hb fun _ _ h₁ => .ite (fun _ => .pure _) fun _ =>
        readsIn_level h₁ fun _ _ h₂ => .ite (fun _ => .pure _) fun _ =>
          .ite (fun _ => ih h₂) fun _ => .ite (fun _ => ih h₂) fun _ => .pure _) fun _ => .pure _

theorem readsIn_checkForRepeatSpaceTicksAndSetFlagTraced (ticks : ℕ) :
    (checkForRepeatSpaceTicksAndSetFlagTraced ticks p s).ReadsIn (· < 256) :=
  .bind (.read (by decide)) fun _ _ => .pure _

theorem readsIn_decodeRC5Traced : (decodeRC5Traced p s).ReadsIn (· < 256) := by
  have hstart : (initBiphaselevel 1 rc5Unit s.biphase).decodeRawbuffOffset < 256 :=
    (positioned_initBiphaselevel (by decide) _ _).offset_lt
  unfold decodeRC5Traced
  refine .ite (fun _ => .pure _) fun _ => readsIn_level hstart fun _ _ h₁ =>
    .ite (fun _ => .pure _) fun _ => .bind (readsIn_rc5LoopTraced h₁) fun ⟨result, b⟩ _ => ?_
  cases result with
  | none => exact .pure _
  | some data => exact .bind (readsIn_checkForRepeatSpaceTicksAndSetFlagTraced _) fun _ _ => .pure _

theorem readsIn_decodeRC6Traced : (decodeRC6Traced p s).ReadsIn (· < 256) := by
  have hstart : (initBiphaselevel 3 rc6Unit s.biphase).decodeRawbuffOffset < 256 :=
    (positioned_initBiphaselevel (by decide) _ _).offset_lt
  unfold decodeRC6Traced
  refine .ite (fun _ => .pure _) fun _ => .bind (.read (by decide)) fun _ _ =>
    .bind (.read (by decide)) fun _ _ => .ite (fun _ => .pure _) fun _ =>
    readsIn_level hstart fun _ _ h₁ => .ite (fun _ => .pure _) fun _ =>
    readsIn_level h₁ fun _ _ h₂ => .ite (fun _ => .pure _) fun _ =>
    .bind (readsIn_rc6LoopTraced h₂) fun ⟨result, b⟩ _ => ?_
  cases result with
  | none => exact .pure _
  | some data => exact .bind (readsIn_checkForRepeatSpaceTicksAndSetFlagTraced _) fun _ _ => .pure _

/-! ## Captured frames -/

/-- A gap is longer than three intervals of either protocol. -/
theorem timingIntervals_of_gap {t : ℕ} (ht : recordGapTicks < t) :
    timingIntervals rc5Unit false t = none ∧ timingIntervals rc6Unit false t = none := by
  have hgap : recordGapTicks = 100 := rfl
  constructor
  · have hone : matchTicks t 869 = true ↔ 13 ≤ t ∧ t ≤ 22 := matchTicks_iff rfl rfl
    have htwo : matchTicks t 1758 = true ↔ 26 ≤ t ∧ t ≤ 44 := matchTicks_iff rfl rfl
    have hthree : matchTicks t 2647 = true ↔ 39 ≤ t ∧ t ≤ 67 := matchTicks_iff rfl rfl
    simp only [timingIntervals, rc5Unit, markExcessMicros, Bool.false_eq_true, if_false,
      Nat.reduceMul, Nat.reduceAdd, Nat.reduceSub, Nat.reduceMod, hone, htwo, hthree]
    rw [if_neg (by omega), if_neg (by omega), if_neg (by omega)]
  · have hone : matchTicks t 424 = true ↔ 6 ≤ t ∧ t ≤ 11 := matchTicks_iff rfl rfl
    have htwo : matchTicks t 868 = true ↔ 13 ≤ t ∧ t ≤ 22 := matchTicks_iff rfl rfl
    have hthree : matchTicks t 1312 = true ↔ 19 ≤ t ∧ t ≤ 33 := matchTicks_iff rfl rfl
    simp only [timingIntervals, rc6Unit, markExcessMicros, Bool.false_eq_true, if_false,
      Nat.reduceMul, Nat.reduceAdd, Nat.reduceSub, Nat.reduceMod, hone, htwo, hthree]
    rw [if_neg (by omega), if_neg (by omega), if_neg (by omega)]

theorem ReceiverInv.gapRefused (h : ReceiverInv p) (hs : p.stateForISR = .stop) :
    GapRefused rc5Unit p ∧ GapRefused rc6Unit p := by
  have hpos : 0 < p.rawlen := Nat.lt_of_lt_of_le (by decide) (h.stop_even hs).2
  have hgap := h.gap (by simp [hs])
  exact ⟨⟨hpos, fun t ht => (timingIntervals_of_gap (hgap t ht)).1⟩,
    ⟨hpos, fun t ht => (timingIntervals_of_gap (hgap t ht)).2⟩⟩

theorem advancesLeft_lt_biphaseRounds (b : Biphase) : b.advancesLeft < biphaseRounds :=
  Nat.lt_trans (Nat.mod_lt _ (by decide)) (show 256 < biphaseRounds by decide)

theorem defined_decodeRC5 (hgap : GapRefused rc5Unit p) (s : DecodeState) :
    Attempt.Defined (decodeRC5 p s) := by
  have hstart : Positioned rc5Unit (initBiphaselevel 1 rc5Unit s.biphase) :=
    positioned_initBiphaselevel (by decide) _ _
  unfold decodeRC5
  refine .ite (fun _ => .some _) fun _ => hstart.defined_level hgap fun _ b₁ hb₁ =>
    .ite (fun _ => .some _) fun _ =>
    .bind (defined_rc5Loop hb₁ hgap (advancesLeft_lt_biphaseRounds b₁) _ _)
      fun ⟨result, b₂⟩ _ => ?_
  cases result with
  | none => exact .some _
  | some data =>
    exact .bind (exists_checkForRepeatSpaceTicksAndSetFlag ..) fun _ _ => .some _

theorem defined_decodeRC6 (hgap : GapRefused rc6Unit p) (s : DecodeState) :
    Attempt.Defined (decodeRC6 p s) := by
  have hstart : Positioned rc6Unit (initBiphaselevel 3 rc6Unit s.biphase) :=
    positioned_initBiphaselevel (by decide) _ _
  unfold decodeRC6
  refine .ite (fun _ => .some _) fun _ => .bind (p.exists_raw (by decide)) fun _ _ =>
    .bind (p.exists_raw (by decide)) fun _ _ => .ite (fun _ => .some _) fun _ =>
    hstart.defined_level hgap fun _ b₁ hb₁ => .ite (fun _ => .some _) fun _ =>
    hb₁.defined_level hgap fun _ b₂ hb₂ => .ite (fun _ => .some _) fun _ =>
    .bind (defined_rc6Loop hb₂ hgap (advancesLeft_lt_biphaseRounds b₂) _ _)
      fun ⟨result, b₃⟩ _ => ?_
  cases result with
  | none => exact .some _
  | some data =>
    exact .bind (exists_checkForRepeatSpaceTicksAndSetFlag ..) fun _ _ => .some _

/-- The loops of both decoders end on every captured frame, also on one that is longer than
the offset can count, and they read entries below 256. -/
theorem biphase_loops_end (h : ReachableReceiver p) (hs : p.stateForISR = .stop)
    (s : DecodeState) :
    (∃ r, (decodeRC5Traced p s).result = some r ∧ decodeRC5 p s = some r) ∧
      (∃ r, (decodeRC6Traced p s).result = some r ∧ decodeRC6 p s = some r) ∧
      (∀ i ∈ (decodeRC5Traced p s).reads, i < 256) ∧
      ∀ i ∈ (decodeRC6Traced p s).reads, i < 256 := by
  obtain ⟨hgap₅, hgap₆⟩ := h.inv.gapRefused hs
  obtain ⟨r₅, hr₅⟩ := defined_decodeRC5 hgap₅ s
  obtain ⟨r₆, hr₆⟩ := defined_decodeRC6 hgap₆ s
  exact ⟨⟨r₅, (result_decodeRC5Traced p s).trans hr₅, hr₅⟩,
    ⟨r₆, (result_decodeRC6Traced p s).trans hr₆, hr₆⟩, readsIn_decodeRC5Traced,
    readsIn_decodeRC6Traced⟩

/-- A frame of 300 entries, which the offset cannot count. -/
theorem biphase_loops_end_long : ∃ p : IrParams, p.rawlen = 300 ∧
    (∃ r, (decodeRC5Traced p .zero).result = some r ∧ decodeRC5 p .zero = some r) ∧
    (∃ r, (decodeRC6Traced p .zero).result = some r ∧ decodeRC6 p .zero = some r) ∧
    (∀ i ∈ (decodeRC5Traced p .zero).reads, i < 256) ∧
    ∀ i ∈ (decodeRC6Traced p .zero).reads, i < 256 := by
  obtain ⟨p, hp, hcaptured⟩ := exists_reachable_captured
    (show ∀ m ∈ List.replicate 150 18, 1 ≤ m by simp)
    (show ∀ s ∈ List.replicate 149 18, 1 ≤ s ∧ s ≤ recordGapTicks from
      fun s hs => List.eq_of_mem_replicate hs ▸ by decide)
    (by simp) (by simp [rawBufferLength])
  have hlen : p.rawlen = 300 := by simpa using hcaptured.rawlen
  exact ⟨p, hlen, biphase_loops_end hp hcaptured.stopped .zero⟩

end IrRemote
