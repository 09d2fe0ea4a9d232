import IrRemote.Library.WrapCounter
import IrRemote.Mid.Delay

/-!
# Delays when the timer wraps

The timer is read in microseconds, a sixteenth of its 32-bit counter. Their difference is
taken modulo a word, which makes up for a wrapped word but not for a wrapped counter: a
delay that is waiting then returns at once, and a mark that goes on has lost its carrier.
So two runs that start at different counter values agree as long as the counters pass their
ends at the same poll, or at a poll that does not matter.

## Main definitions

* `captures` — what is read of a counter
* `carrierStarts` — the polls at which a period of the carrier is due
* `TimerIndependent`, `SameTurn` — the runs agree, and when they do

## Main results

* `over_iff` — the polls at which a delay is over
* `pinWrites_markPolls` — the carrier of a mark
* `timerIndependent_iff` — the exact condition
-/

set_option autoImplicit false

namespace IrRemote

open WrapCounter

/-- The counter has 32 bits. -/
def timerCounts : ℕ := 4294967296

/-- What is read of a counter that started at `c`, at polls so many ticks later. -/
def captures (c : ℕ) (elapsed : List ℕ) : List ℕ := elapsed.map (value timerCounts c)

variable {c c' d e next periodTimeMicros tNextPeriodEnding : ℕ} {elapsed : List ℕ}

/-! ## Readings -/

theorem sysTimerGetUsValue_lt (hc : c < timerCounts) : sysTimerGetUsValue c < 268435456 :=
  Nat.div_lt_of_lt_mul hc

theorem units_le_turn (he : e < timerCounts) : units 16 c e ≤ 268435456 :=
  units_le (by decide) he

theorem reading_before (h : ¬Passed timerCounts c e) :
    sysTimerGetUsValue (value timerCounts c e) = sysTimerGetUsValue c + units 16 c e :=
  reading_of_not_passed (m := 268435456) (k := 16) (by decide) h

theorem reading_behind (hc : c < timerCounts) (he : e < timerCounts)
    (h : Passed timerCounts c e) : sysTimerGetUsValue (value timerCounts c e) + 268435456 =
      sysTimerGetUsValue c + units 16 c e :=
  reading_of_passed (m := 268435456) (k := 16) (by decide) hc he h

/-- The time that a poll finds, in the words of the timer. -/
def foundMicros (c e : ℕ) : ℕ :=
  subMicros (sysTimerGetUsValue (value timerCounts c e)) (sysTimerGetUsValue c)

theorem foundMicros_before (hc : c < timerCounts) (he : e < timerCounts)
    (h : ¬Passed timerCounts c e) : foundMicros c e = units 16 c e := by
  have hreading := reading_before h
  have hstart := sysTimerGetUsValue_lt hc
  have hunits := units_le_turn (c := c) he
  unfold foundMicros subMicros
  omega

/-- Behind the end of the counter, far too much time seems to have passed. -/
theorem foundMicros_behind (hc : c < timerCounts) (he : e < timerCounts)
    (h : Passed timerCounts c e) :
    foundMicros c e = (units 16 c e + 4026531840) % 4294967296 := by
  have hreading := reading_behind hc he h
  have hstart := sysTimerGetUsValue_lt hc
  unfold foundMicros subMicros
  omega

/-- A turn of the counter is a multiple of the 16 bits that a mark looks at. -/
theorem foundMicros_mod (hc : c < timerCounts) (he : e < timerCounts) :
    foundMicros c e % 65536 = units 16 c e % 65536 := by
  by_cases h : Passed timerCounts c e
  · rw [foundMicros_behind hc he h]
    omega
  · rw [foundMicros_before hc he h]

/-- The polls at which a delay is over. -/
theorem over_iff (hc : c < timerCounts) (he : e < timerCounts) (hd : d < 65536) :
    d ≤ foundMicros c e ↔
      (units 16 c e < 268435456 ∧ (Passed timerCounts c e ∨ d ≤ units 16 c e)) ∨ d = 0 := by
  have hunits := units_le_turn (c := c) he
  by_cases h : Passed timerCounts c e
  · -- at the very end of a turn no time seems to have passed at all
    rw [foundMicros_behind hc he h]
    simp only [h, true_or, and_true]
    omega
  · have hlt : units 16 c e < 268435456 := by
      by_contra hle
      exact h (passed_of_units (Nat.not_lt.mp hle))
    rw [foundMicros_before hc he h]
    simp only [h, hlt, false_or, true_and]
    omega

theorem customDelayMicroseconds_captures :
    customDelayMicroseconds d c (captures c elapsed) =
      elapsed.findIdx? fun e => decide (d ≤ foundMicros c e) := by
  rw [customDelayMicroseconds, customDelayPolls_eq, captures, List.findIdx?_map]
  rfl

theorem returned_mark (hc : c < timerCounts) (he : ∀ e ∈ elapsed, e < timerCounts) :
    (mark periodTimeMicros d c (captures c elapsed)).returned =
      elapsed.findIdx? fun e => decide (d ≤ units 16 c e % 65536) := by
  refine (returned_markPolls _).trans ?_
  rw [captures, List.findIdx?_map]
  refine findIdx?_congr_of_mem fun e hmem => ?_
  exact congrArg (fun t => decide (d ≤ t)) (foundMicros_mod hc (he e hmem))

/-! ## The carrier -/

/-- The polls at which a period of the carrier is due, up to the end of the mark. -/
def carrierStarts (periodTimeMicros d c : ℕ) : ℕ → List ℕ → List ℕ
  | _, [] => []
  | next, e :: elapsed =>
    if d ≤ units 16 c e % 65536 then []
    else if units 16 c e < next then carrierStarts periodTimeMicros d c next elapsed
    else e :: carrierStarts periodTimeMicros d c (next + periodTimeMicros) elapsed

theorem carrierStarts_sublist :
    (carrierStarts periodTimeMicros d c next elapsed).Sublist elapsed := by
  induction elapsed generalizing next with
  | nil => exact List.Sublist.slnil
  | cons e elapsed ih =>
    rw [carrierStarts]
    split_ifs
    · exact List.nil_sublist _
    · exact ih.cons e
    · exact ih.cons_cons e

theorem carrierStarts_congr (h : c % 16 = c' % 16) :
    carrierStarts periodTimeMicros d c next elapsed =
      carrierStarts periodTimeMicros d c' next elapsed := by
  induction elapsed generalizing next with
  | nil => rfl
  | cons e elapsed ih => simp only [carrierStarts, units_congr h, ih]

/-- A poll in the off time. -/
theorem pinWrites_wait (hc : c < timerCounts) (he : e < timerCounts)
    (hover : ¬d ≤ units 16 c e % 65536)
    (hwait : sysTimerGetUsValue (value timerCounts c e) < tNextPeriodEnding) :
    (markPolls periodTimeMicros d (sysTimerGetUsValue c) tNextPeriodEnding
      (captures c (e :: elapsed))).pinWrites =
      (markPolls periodTimeMicros d (sysTimerGetUsValue c) tNextPeriodEnding
        (captures c elapsed)).pinWrites := by
  rw [← foundMicros_mod hc he, foundMicros] at hover
  rw [captures, List.map_cons, markPolls, if_neg hover, if_pos hwait]
  rfl

/-- A poll behind the off time. -/
theorem pinWrites_pulse (hc : c < timerCounts) (he : e < timerCounts)
    (hover : ¬d ≤ units 16 c e % 65536)
    (hdue : tNextPeriodEnding ≤ sysTimerGetUsValue (value timerCounts c e)) :
    (markPolls periodTimeMicros d (sysTimerGetUsValue c) tNextPeriodEnding
      (captures c (e :: elapsed))).pinWrites =
      true :: false :: (markPolls periodTimeMicros d (sysTimerGetUsValue c)
        ((tNextPeriodEnding + periodTimeMicros) % 4294967296) (captures c elapsed)).pinWrites := by
  rw [← foundMicros_mod hc he, foundMicros] at hover
  rw [captures, List.map_cons, markPolls, if_neg hover, if_neg (Nat.not_lt.mpr hdue)]
  rfl

/-- The poll at which a mark returns. -/
theorem pinWrites_over (hc : c < timerCounts) (he : e < timerCounts)
    (hover : d ≤ units 16 c e % 65536) :
    (markPolls periodTimeMicros d (sysTimerGetUsValue c) tNextPeriodEnding
      (captures c (e :: elapsed))).pinWrites = [] := by
  rw [← foundMicros_mod hc he, foundMicros] at hover
  rw [captures, List.map_cons, markPolls, if_pos hover]

/-- Behind the end of its counter a mark starts no period. -/
theorem pinWrites_of_passed (hc : c < timerCounts) (he : ∀ e ∈ elapsed, e < timerCounts)
    (hpassed : ∀ e ∈ elapsed, Passed timerCounts c e)
    (hnext : sysTimerGetUsValue c < tNextPeriodEnding) :
    (markPolls periodTimeMicros d (sysTimerGetUsValue c) tNextPeriodEnding
      (captures c elapsed)).pinWrites = [] := by
  induction elapsed with
  | nil => rfl
  | cons e elapsed ih =>
    obtain ⟨he, hrest⟩ := List.forall_mem_cons.mp he
    obtain ⟨hfirst, hpassed⟩ := List.forall_mem_cons.mp hpassed
    have hreading := reading_behind hc he hfirst
    have hunits := units_le_turn (c := c) he
    by_cases hover : d ≤ units 16 c e % 65536
    · exact pinWrites_over hc he hover
    -- the reading is at most that of the start, and the end of the period is behind it
    · rw [pinWrites_wait hc he hover (by omega)]
      exact ih hrest hpassed

/-- A poll that shows a period of the carrier to be due: the counter has not passed its end,
or the period is 0 and the counter has just made a turn. -/
def Shown (periodTimeMicros c e : ℕ) : Prop :=
  ¬Passed timerCounts c e ∨ (periodTimeMicros = 0 ∧ units 16 c e = 268435456)

instance : Decidable (Shown periodTimeMicros c e) := inferInstanceAs (Decidable (_ ∨ _))

/-- The periods of a mark: those that are due at a poll that shows it. -/
def shownStarts (periodTimeMicros d c next : ℕ) (elapsed : List ℕ) : List ℕ :=
  (carrierStarts periodTimeMicros d c next elapsed).filter
    fun e => decide (Shown periodTimeMicros c e)

theorem shownStarts_cons (hover : ¬d ≤ units 16 c e % 65536) :
    shownStarts periodTimeMicros d c next (e :: elapsed) =
      if units 16 c e < next then shownStarts periodTimeMicros d c next elapsed
      else (if Shown periodTimeMicros c e then [e] else []) ++
        shownStarts periodTimeMicros d c (next + periodTimeMicros) elapsed := by
  rw [shownStarts, carrierStarts, if_neg hover]
  split_ifs with hwait hshown
  · rfl
  · rw [List.filter_cons_of_pos (by simpa using hshown)]
    rfl
  · rw [List.filter_cons_of_neg (by simpa using hshown)]
    rfl

theorem shownStarts_of_passed (hpassed : ∀ e ∈ elapsed, Passed timerCounts c e)
    (hperiod : periodTimeMicros ≠ 0) : shownStarts periodTimeMicros d c next elapsed = [] := by
  refine List.filter_eq_nil_iff.mpr fun e hmem hshown => ?_
  rcases of_decide_eq_true hshown with h | ⟨hzero, -⟩
  · exact h (hpassed e (carrierStarts_sublist.subset hmem))
  · exact hperiod hzero

/-- The pin is switched on and off at the polls that show a period to be due. -/
theorem pinWrites_markPolls (hc : c < timerCounts) (he : ∀ e ∈ elapsed, e < timerCounts)
    (hsorted : elapsed.Pairwise (· ≤ ·)) (hperiod : periodTimeMicros < 65536)
    (hle : next ≤ 268435456 + periodTimeMicros) (hzero : next = 0 ↔ periodTimeMicros = 0) :
    (markPolls periodTimeMicros d (sysTimerGetUsValue c) (sysTimerGetUsValue c + next)
      (captures c elapsed)).pinWrites =
      (shownStarts periodTimeMicros d c next elapsed).flatMap fun _ => [true, false] := by
  -- the end of the period is the start of the mark and a number of periods, up to the wrap
  induction elapsed generalizing next with
  | nil => rfl
  | cons e elapsed ih =>
    obtain ⟨hfirst, hsorted'⟩ := List.pairwise_cons.mp hsorted
    obtain ⟨hlt, hrest⟩ := List.forall_mem_cons.mp he
    have hstart := sysTimerGetUsValue_lt hc
    have hunits := units_le_turn (c := c) hlt
    by_cases hover : d ≤ units 16 c e % 65536
    · rw [pinWrites_over hc hlt hover, shownStarts, carrierStarts, if_pos hover]
      rfl
    have hstep : (sysTimerGetUsValue c + next + periodTimeMicros) % 4294967296 =
        sysTimerGetUsValue c + (next + periodTimeMicros) := by omega
    by_cases hpassed : Passed timerCounts c e
    · have hreading := reading_behind hc hlt hpassed
      by_cases hperiod0 : periodTimeMicros = 0
      · -- every poll is due, and shown when the counter has made a turn
        have hnext := hzero.mpr hperiod0
        have hdue : ¬units 16 c e < next := by omega
        by_cases hturn : units 16 c e = 268435456
        · have hshown : Shown periodTimeMicros c e := .inr ⟨hperiod0, hturn⟩
          rw [pinWrites_pulse hc hlt hover (by omega), hstep,
            ih hrest hsorted' (by omega) (by omega), shownStarts_cons hover, if_neg hdue,
            if_pos hshown]
          rfl
        · have hshown : ¬Shown periodTimeMicros c e :=
            fun h => h.elim (fun h => h hpassed) fun h => hturn h.2
          rw [pinWrites_wait hc hlt hover (by omega), ih hrest hsorted' hle hzero,
            shownStarts_cons hover, if_neg hdue, if_neg hshown, List.nil_append, hperiod0,
            Nat.add_zero]
      · -- all polls from here on find the counter behind its end
        have hall : ∀ u ∈ e :: elapsed, Passed timerCounts c u :=
          List.forall_mem_cons.mpr ⟨hpassed, fun u hu => hpassed.mono le_rfl (hfirst u hu)⟩
        rw [pinWrites_of_passed hc he hall (by omega), shownStarts_of_passed hall hperiod0]
        rfl
    · have hreading := reading_before hpassed
      by_cases hwait : units 16 c e < next
      · rw [pinWrites_wait hc hlt hover (by omega), ih hrest hsorted' hle hzero,
          shownStarts_cons hover, if_pos hwait]
      · rw [pinWrites_pulse hc hlt hover (by omega), hstep,
          ih hrest hsorted' (by omega) (by omega), shownStarts_cons hover, if_neg hwait,
          if_pos (.inl hpassed)]
        rfl

/-- The carrier of a mark. -/
theorem pinWrites_mark (hc : c < timerCounts) (he : ∀ e ∈ elapsed, e < timerCounts)
    (hsorted : elapsed.Pairwise (· ≤ ·)) (hperiod : periodTimeMicros < 65536) :
    (mark periodTimeMicros d c (captures c elapsed)).pinWrites =
      true :: false :: (shownStarts periodTimeMicros d c periodTimeMicros elapsed).flatMap
        fun _ => [true, false] := by
  have hstart := sysTimerGetUsValue_lt hc
  have hfirst : (sysTimerGetUsValue c + periodTimeMicros) % 4294967296 =
      sysTimerGetUsValue c + periodTimeMicros := Nat.mod_eq_of_lt (by omega)
  rw [← pinWrites_markPolls hc he hsorted hperiod (by omega) Iff.rfl, ← hfirst]
  rfl

/-! ## Two runs -/

/-- A function that waits `d` microseconds returns, if at all, at most one of them early. -/
def NotEarly (elapsed : List ℕ) (d : ℕ) (returned : Option ℕ) : Prop :=
  ∀ k e, returned = some k → elapsed[k]? = some e → 16 * d ≤ e + 16

/-- Whether two runs that start at the counter values `c` and `c'` and poll after the same
times agree, and none of them returns early. -/
structure TimerIndependent (periodTimeMicros d c c' : ℕ) (elapsed : List ℕ) : Prop where
  delay : customDelayMicroseconds d c (captures c elapsed) =
    customDelayMicroseconds d c' (captures c' elapsed)
  space : space d c (captures c elapsed) = space d c' (captures c' elapsed)
  mark : mark periodTimeMicros d c (captures c elapsed) =
    mark periodTimeMicros d c' (captures c' elapsed)
  delay_not_early : ∀ b ∈ [c, c'],
    NotEarly elapsed d (customDelayMicroseconds d b (captures b elapsed))
  space_not_early : ∀ b ∈ [c, c'], NotEarly elapsed d (IrRemote.space d b (captures b elapsed))
  mark_not_early : ∀ b ∈ [c, c'],
    NotEarly elapsed d (IrRemote.mark periodTimeMicros d b (captures b elapsed)).returned

/-- At the polls before the end of the delay both counters have passed their ends or
neither has, and they pass them at most in its last microsecond; and the same holds of the
polls at which a period of the carrier is due. -/
structure SameTurn (periodTimeMicros d c c' : ℕ) (elapsed : List ℕ) : Prop where
  waiting : ∀ e ∈ elapsed, units 16 c e < d →
    (Passed timerCounts c e ↔ Passed timerCounts c' e)
  last : ∀ e ∈ elapsed, units 16 c e < d → Passed timerCounts c e → 16 * d ≤ e + 16
  carrier : ∀ e ∈ carrierStarts periodTimeMicros d c periodTimeMicros elapsed,
    (Passed timerCounts c e ↔ Passed timerCounts c' e)

/-- What two initial values of the counter and the times of the polls have to be. -/
structure Polled (c c' : ℕ) (elapsed : List ℕ) : Prop where
  left : c < timerCounts
  right : c' < timerCounts
  congr : c % 16 = c' % 16
  sorted : elapsed.Pairwise (· ≤ ·)
  total : ∀ e ∈ elapsed, e < timerCounts

theorem Polled.symm (h : Polled c c' elapsed) : Polled c' c elapsed :=
  ⟨h.right, h.left, h.congr.symm, h.sorted, h.total⟩

/-! ### Delays -/

/-- The poll at which a delay returns finds it over. -/
theorem over_of_customDelay {k : ℕ}
    (h : customDelayMicroseconds d c (captures c elapsed) = some k) (hk : elapsed[k]? = some e) :
    d ≤ foundMicros c e := by
  rw [customDelayMicroseconds_captures] at h
  obtain ⟨hlt, hover, -⟩ := List.findIdx?_eq_some_iff_getElem.mp h
  obtain rfl : elapsed[k] = e := Option.some.inj ((List.getElem?_eq_getElem hlt).symm.trans hk)
  exact of_decide_eq_true hover

/-- A delay is over at the latest when its counter has passed its end. -/
theorem exists_return_of_passed (h : Polled c c' elapsed) (hd : d < 65536) (hmem : e ∈ elapsed)
    (hwait : units 16 c e < d) (hpassed : Passed timerCounts c e) :
    ∃ k a, customDelayMicroseconds d c (captures c elapsed) = some k ∧ elapsed[k]? = some a ∧
      a ≤ e := by
  have hover : d ≤ foundMicros c e :=
    (over_iff h.left (h.total e hmem) hd).mpr (.inl ⟨by omega, .inl hpassed⟩)
  obtain ⟨k, a, hk, ha, hle⟩ := exists_findIdx?_of_mem
    (p := fun e => decide (d ≤ foundMicros c e)) h.sorted hmem (decide_eq_true hover)
  exact ⟨k, a, customDelayMicroseconds_captures.trans hk, ha, hle⟩

/-- When the delays agree, a counter does not pass its end alone. -/
theorem passed_of_delay_eq (h : Polled c c' elapsed) (hd : d < 65536)
    (heq : customDelayMicroseconds d c (captures c elapsed) =
      customDelayMicroseconds d c' (captures c' elapsed)) (hmem : e ∈ elapsed)
    (hwait : units 16 c e < d) (hpassed : Passed timerCounts c e) : Passed timerCounts c' e := by
  obtain ⟨k, a, hk, ha, hle⟩ := exists_return_of_passed h hd hmem hwait hpassed
  have hover := over_of_customDelay (heq.symm.trans hk) ha
  rw [over_iff h.right (h.total a (List.mem_of_getElem? ha)) hd, units_congr h.congr.symm] at hover
  have hmono : units 16 c a ≤ units 16 c e := units_mono hle
  rcases hover with ⟨-, hpassed' | hover⟩ | hzero
  · exact hpassed'.mono le_rfl hle
  · omega
  · omega

theorem delay_eq (h : Polled c c' elapsed) (hd : d < 65536)
    (hwaiting : ∀ e ∈ elapsed, units 16 c e < d →
      (Passed timerCounts c e ↔ Passed timerCounts c' e)) :
    customDelayMicroseconds d c (captures c elapsed) =
      customDelayMicroseconds d c' (captures c' elapsed) := by
  rw [customDelayMicroseconds_captures, customDelayMicroseconds_captures]
  refine findIdx?_congr_of_mem fun e hmem => decide_eq_decide.mpr ?_
  rw [over_iff h.left (h.total e hmem) hd, over_iff h.right (h.total e hmem) hd,
    units_congr h.congr.symm]
  -- behind the end of the delay the counters do not matter
  by_cases hwait : units 16 c e < d
  · rw [hwaiting e hmem hwait]
  · simp only [Nat.not_lt.mp hwait, or_true]

theorem delay_not_early (h : Polled c c' elapsed) (hd : d < 65536)
    (hlast : ∀ e ∈ elapsed, units 16 c e < d → Passed timerCounts c e → 16 * d ≤ e + 16) :
    NotEarly elapsed d (customDelayMicroseconds d c (captures c elapsed)) := by
  intro k e hk he
  have hmem := List.mem_of_getElem? he
  have hover := (over_iff h.left (h.total e hmem) hd).mp (over_of_customDelay hk he)
  rcases hover with ⟨-, hover⟩ | rfl
  · by_cases hwait : units 16 c e < d
    · exact hlast e hmem hwait (hover.resolve_right (Nat.not_le.mpr hwait))
    · exact le_of_le_units (by decide) (Nat.not_lt.mp hwait)
  · exact Nat.zero_le _

/-! ### Marks -/

/-- A mark is never early. -/
theorem mark_not_early (h : Polled c c' elapsed) :
    NotEarly elapsed d (mark periodTimeMicros d c (captures c elapsed)).returned := by
  intro k e hk he
  rw [returned_mark h.left h.total] at hk
  obtain ⟨hlt, hover, -⟩ := List.findIdx?_eq_some_iff_getElem.mp hk
  obtain rfl : elapsed[k] = e := Option.some.inj ((List.getElem?_eq_getElem hlt).symm.trans he)
  exact le_of_le_units (c := c) (by decide) ((of_decide_eq_true hover).trans (Nat.mod_le _ _))

/-- The periods that are due are the same for both counters, which may not show them. -/
theorem shown_iff (periodTimeMicros : ℕ) (h : c % 16 = c' % 16) :
    (Shown periodTimeMicros c e ↔ Shown periodTimeMicros c' e) ↔
      (Passed timerCounts c e ↔ Passed timerCounts c' e) := by
  have hturn : units 16 c e = 268435456 → Passed timerCounts c e ∧ Passed timerCounts c' e :=
    fun hunits => ⟨passed_of_units (m := 268435456) (k := 16) hunits.ge,
      passed_of_units (m := 268435456) (k := 16) (units_congr h ▸ hunits.ge)⟩
  unfold Shown
  rw [units_congr h.symm]
  tauto

theorem shownStarts_congr (h : c % 16 = c' % 16)
    (hcarrier : ∀ e ∈ carrierStarts periodTimeMicros d c next elapsed,
      (Passed timerCounts c e ↔ Passed timerCounts c' e)) :
    shownStarts periodTimeMicros d c next elapsed =
      shownStarts periodTimeMicros d c' next elapsed := by
  rw [shownStarts, shownStarts, carrierStarts_congr h.symm]
  exact List.filter_congr fun e he => decide_eq_decide.mpr ((shown_iff _ h).mpr (hcarrier e he))

/-- Of two counters that show as many periods, the first shows those of the second. -/
theorem passed_iff_of_length_eq (h : c % 16 = c' % 16) (hle : c ≤ c')
    (hlength : (shownStarts periodTimeMicros d c next elapsed).length =
      (shownStarts periodTimeMicros d c' next elapsed).length)
    (he : e ∈ carrierStarts periodTimeMicros d c next elapsed) :
    Passed timerCounts c e ↔ Passed timerCounts c' e := by
  rw [shownStarts, shownStarts, carrierStarts_congr h.symm] at hlength
  have hshown : ∀ u, Shown periodTimeMicros c' u → Shown periodTimeMicros c u := by
    rintro u (hnot | ⟨hzero, hunits⟩)
    · exact .inl fun hpassed => hnot (hpassed.mono hle le_rfl)
    · exact .inr ⟨hzero, (units_congr h).trans hunits⟩
  -- what the later counter shows, the earlier one shows too
  have hsublist := List.monotone_filter_right
    (carrierStarts periodTimeMicros d c next elapsed)
    (fun u hu => decide_eq_true (hshown u (of_decide_eq_true hu)))
  have heq := hsublist.eq_of_length hlength.symm
  rw [← shown_iff periodTimeMicros h]
  refine ⟨fun hc => ?_, hshown e⟩
  have hmem : e ∈ (carrierStarts periodTimeMicros d c next elapsed).filter
      fun u => decide (Shown periodTimeMicros c u) := List.mem_filter.mpr ⟨he, decide_eq_true hc⟩
  rw [← heq] at hmem
  exact of_decide_eq_true (List.mem_filter.mp hmem).2

theorem length_pulses (l : List ℕ) :
    (l.flatMap fun _ => [true, false]).length = 2 * l.length := by
  induction l with
  | nil => rfl
  | cons _ l ih =>
    simp only [List.flatMap_cons, List.length_append, ih, List.length_cons, List.length_nil]
    omega

theorem mark_eq (h : Polled c c' elapsed) (hperiod : periodTimeMicros < 65536)
    (hcarrier : ∀ e ∈ carrierStarts periodTimeMicros d c periodTimeMicros elapsed,
      (Passed timerCounts c e ↔ Passed timerCounts c' e)) :
    mark periodTimeMicros d c (captures c elapsed) =
      mark periodTimeMicros d c' (captures c' elapsed) := by
  apply MarkRun.ext
  · rw [pinWrites_mark h.left h.total h.sorted hperiod,
      pinWrites_mark h.right h.total h.sorted hperiod, shownStarts_congr h.congr hcarrier]
  · rw [returned_mark h.left h.total, returned_mark h.right h.total]
    simp only [units_congr h.congr]

/-- When the marks agree, the periods are shown by both counters or by none. -/
theorem passed_iff_of_mark_eq (h : Polled c c' elapsed) (hperiod : periodTimeMicros < 65536)
    (heq : mark periodTimeMicros d c (captures c elapsed) =
      mark periodTimeMicros d c' (captures c' elapsed))
    (he : e ∈ carrierStarts periodTimeMicros d c periodTimeMicros elapsed) :
    Passed timerCounts c e ↔ Passed timerCounts c' e := by
  have hlength : (shownStarts periodTimeMicros d c periodTimeMicros elapsed).length =
      (shownStarts periodTimeMicros d c' periodTimeMicros elapsed).length := by
    have hwrites := congrArg (fun r => r.pinWrites.length) heq
    simp only [pinWrites_mark h.left h.total h.sorted hperiod,
      pinWrites_mark h.right h.total h.sorted hperiod, List.length_cons, length_pulses] at hwrites
    omega
  -- the counts of the periods tell, whichever counter is ahead
  rcases Nat.le_total c c' with hle | hle
  · exact passed_iff_of_length_eq h.congr hle hlength he
  · rw [carrierStarts_congr h.congr] at he
    exact (passed_iff_of_length_eq h.congr.symm hle hlength.symm he).symm

/-! ### The exact condition -/

/-- Two runs that poll after the same times agree, and none is early, exactly when their
counters pass their ends at the same poll wherever it matters. -/
theorem timerIndependent_iff (h : Polled c c' elapsed) (hd : d < 65536)
    (hperiod : periodTimeMicros < 65536) :
    TimerIndependent periodTimeMicros d c c' elapsed ↔
      SameTurn periodTimeMicros d c c' elapsed := by
  constructor
  · intro hindependent
    refine ⟨fun e he hwait => ⟨?_, ?_⟩, fun e he hwait hpassed => ?_, fun e he => ?_⟩
    · exact passed_of_delay_eq h hd hindependent.delay he hwait
    · exact passed_of_delay_eq h.symm hd hindependent.delay.symm he
        (units_congr h.congr ▸ hwait)
    · obtain ⟨k, a, hk, ha, hle⟩ := exists_return_of_passed h hd he hwait hpassed
      have hearly := hindependent.delay_not_early c (List.mem_cons_self ..) k a hk ha
      omega
    · exact passed_iff_of_mark_eq h hperiod hindependent.mark he
  · intro hturn
    have hdelay := delay_eq h hd hturn.waiting
    have hmark := mark_eq h hperiod hturn.carrier
    have hearly : ∀ b ∈ [c, c'],
        NotEarly elapsed d (customDelayMicroseconds d b (captures b elapsed)) := by
      have hleft := delay_not_early h hd hturn.last
      exact List.forall_mem_cons.mpr ⟨hleft, List.forall_mem_singleton.mpr (hdelay ▸ hleft)⟩
    have hmarkEarly : ∀ b ∈ [c, c'],
        NotEarly elapsed d (mark periodTimeMicros d b (captures b elapsed)).returned :=
      List.forall_mem_cons.mpr
        ⟨mark_not_early h, List.forall_mem_singleton.mpr (mark_not_early h.symm)⟩
    exact ⟨hdelay, hdelay, hmark, hearly, hearly, hmarkEarly⟩

/-- Two marks and delays of 5 microseconds in the first turn of the counter. -/
theorem timerIndependent_iff_first_turn :
    TimerIndependent 26 5 0 16 [20, 50, 90] ↔ SameTurn 26 5 0 16 [20, 50, 90] :=
  timerIndependent_iff ⟨by decide, by decide, by decide, by decide, by decide⟩ (by decide)
    (by decide)

/-- A delay of 4500 microseconds that starts one microsecond before the end of the counter
is over at the first poll, after 1 microsecond, and not after 4500 as from 0 on. -/
theorem delay_ends_early : Polled 4294967280 0 [16, 1600, 72000] ∧
    customDelayMicroseconds 4500 4294967280 (captures 4294967280 [16, 1600, 72000]) = some 0 ∧
    customDelayMicroseconds 4500 0 (captures 0 [16, 1600, 72000]) = some 2 ∧
    (mark 26 4500 4294967280 (captures 4294967280 [16, 1600, 72000])).pinWrites = [true, false] ∧
    (mark 26 4500 0 (captures 0 [16, 1600, 72000])).pinWrites = [true, false, true, false] ∧
    ¬TimerIndependent 26 4500 4294967280 0 [16, 1600, 72000] := by
  refine ⟨⟨by decide, by decide, by decide, by decide, by decide⟩, by decide, by decide,
    by decide, by decide, fun h => ?_⟩
  exact absurd h.delay (by decide)

end IrRemote
