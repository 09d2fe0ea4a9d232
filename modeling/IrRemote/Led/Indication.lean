import IrRemote.Library.FaultMachine
import IrRemote.Mid.LedControl

/-!
# Which LEDs are lit

An indication that starts while another one runs begins in `LED_STATE_ON` without its
`LED_START_ON_FLAG`, and no pin is set: an LED that the other one has lit stays lit until the new
indication switches off its own colours, and longer if it is none of them.

## Main definitions

* `LedEvent`, `ledStep` — the indications that are set, and the handler
* `LedState.ShowsOwnColors` — the LEDs that are lit belong to the current type
* `FindsOwnColors` — no indication is set over the LEDs of another one
* `LedRow.OnSchedule`, `LedRow.elapsed` — how far an indication has come
* `CurrentIndicationOnly` — what is promised of a run

## Main results

* `ledStep_preserves` — no handler reads past the table
* `lit_eq_empty_of_ticks` — a finite indication ends with all LEDs off
* `current_indication_only_iff` — the LEDs are those of the current type under this condition
-/

set_option autoImplicit false

namespace IrRemote

open FaultMachine

/-! ## Indications and ticks -/

/-- `LED_TYPE_OFF` and the types whose row has an indication. -/
abbrev LedType := { ubLedType : BitVec 8 // ubLedType ≤ 8 }

/-- A call of `Mid_LedControlSet` or of `Mid_LedControlHandle`. -/
inductive LedEvent where
  | set (ubLedType : LedType)
  | handle
  deriving DecidableEq

/-- One call. -/
def ledStep : LedEvent → LedState → Option LedState
  | .set ubLedType, s => some (midLedControlSet ubLedType s)
  | .handle, s => midLedControlHandle s

/-- The row of a type. -/
def ledRow (ubLedType : BitVec 8) : LedRow :=
  gAubLedData.getD ubLedType.toNat ⟨0, 0, 0, 0, 0⟩

/-- The lit LEDs have the colours of the current type. -/
def LedState.ShowsOwnColors (s : LedState) : Prop := s.lit ⊆ (ledRow s.ubLedType).colors

instance (s : LedState) : Decidable s.ShowsOwnColors :=
  inferInstanceAs (Decidable (s.lit ⊆ (ledRow s.ubLedType).colors))

/-- A type is set when no LED of another colour is lit, or switches them all off. -/
def FindsOwnColors : LedEvent → LedState → Prop
  | .set ubLedType, s =>
    ubLedType.val = ledTypeOff ∨ s.lit ⊆ (ledRow ubLedType).colors
  | .handle, _ => True

instance : (a : LedEvent) → (s : LedState) → Decidable (FindsOwnColors a s)
  | .set _, _ => inferInstanceAs (Decidable (_ ∨ _))
  | .handle, _ => inferInstanceAs (Decidable True)

theorem ledType_toNat_lt (ubLedType : LedType) : ubLedType.val.toNat < totalLedType :=
  (Nat.lt_succ_of_le (BitVec.le_def.mp ubLedType.property)).trans (by decide)

theorem getElem?_ledRow {ubLedType : BitVec 8} (h : ubLedType.toNat < totalLedType) :
    gAubLedData[ubLedType.toNat]? = some (ledRow ubLedType) := by
  have hlength : ubLedType.toNat < gAubLedData.length := h
  rw [ledRow, List.getD_eq_getElem?_getD, List.getElem?_eq_getElem hlength, Option.getD_some]

/-- No indication is running, and no LED is lit. -/
structure LedState.Idle (s : LedState) : Prop where
  ledStartControlFlag : s.ledStartControlFlag = false
  lit : s.lit = ∅
  time : s.ubLedCountTime = 0
  continues : s.ubLedCountContinuesTime = 0

theorem LedState.idle_setOff (s : LedState) : s.setOff.Idle := ⟨rfl, rfl, rfl, rfl⟩

theorem LedState.idle_boot : LedState.boot.Idle := ⟨rfl, rfl, rfl, rfl⟩

/-! ## How far an indication has come -/

section Schedule

/-- The indication ends after some repetitions. -/
def LedRow.IsFinite (row : LedRow) : Prop := row.continuesTimess ≠ 0xFF

instance (row : LedRow) : Decidable row.IsFinite := inferInstanceAs (Decidable (_ ≠ _))

/-- How long a state lasts. -/
def LedRow.duration (row : LedRow) : LedControlState → ℕ
  | .none => 0
  | .on => row.onTime.toNat
  | .off => row.offTime.toNat
  | .delay => row.deplayTime.toNat

/-- Where a state begins within a repetition. -/
def LedRow.start (row : LedRow) : LedControlState → ℕ
  | .none => 0
  | .on => 0
  | .off => row.onTime.toNat + 1
  | .delay => row.onTime.toNat + row.offTime.toNat + 2

/-- The length of a repetition. -/
def LedRow.period (row : LedRow) : ℕ :=
  row.onTime.toNat + row.offTime.toNat + row.deplayTime.toNat + 3

/-- The variables are those of a running indication. -/
structure LedRow.OnSchedule (row : LedRow) (s : LedState) : Prop where
  started : s.ubLedControlState ≠ .none
  time : s.ubLedCountTime = 0 ∨ s.ubLedCountTime.toNat < row.duration s.ubLedControlState
  continues : row.IsFinite →
    s.ubLedCountContinuesTime = 0 ∨ s.ubLedCountContinuesTime < row.continuesTimess

/-- How far a finite indication has come, in ticks at least. -/
def LedRow.elapsed (row : LedRow) (s : LedState) : ℕ :=
  s.ubLedCountContinuesTime.toNat * row.period +
    (row.start s.ubLedControlState + s.ubLedCountTime.toNat)

/-- A finite indication ends before it has come so far. -/
def LedRow.ticks (row : LedRow) : ℕ := (row.continuesTimess.toNat + 1) * row.period

variable {row : LedRow} {s t u : LedState} {m n : ℕ}

/-- From `s` to `t` the indication goes on, at least `n` ticks far. -/
structure LedRow.GoesOn (row : LedRow) (n : ℕ) (s t : LedState) : Prop where
  ubLedType : t.ubLedType = s.ubLedType
  ledStartControlFlag : t.ledStartControlFlag = s.ledStartControlFlag
  lit : t.lit ⊆ s.lit ∪ row.colors
  onSchedule : row.OnSchedule t
  elapsed : row.IsFinite → row.elapsed s + n ≤ row.elapsed t

theorem LedRow.GoesOn.refl (h : row.OnSchedule s) : row.GoesOn 0 s s where
  ubLedType := rfl
  ledStartControlFlag := rfl
  lit := Finset.subset_union_left
  onSchedule := h
  elapsed _ := Nat.le_refl _

theorem LedRow.GoesOn.trans (h : row.GoesOn m s t) (h' : row.GoesOn n t u) :
    row.GoesOn (m + n) s u where
  ubLedType := h'.ubLedType.trans h.ubLedType
  ledStartControlFlag := h'.ledStartControlFlag.trans h.ledStartControlFlag
  lit := h'.lit.trans (Finset.union_subset h.lit Finset.subset_union_right)
  onSchedule := h'.onSchedule
  elapsed hfinite := by
    have hfirst := h.elapsed hfinite
    have hsecond := h'.elapsed hfinite
    omega

theorem LedRow.GoesOn.mono (h : row.GoesOn n s t) (hle : m ≤ n) : row.GoesOn m s t :=
  { h with elapsed := fun hfinite => (Nat.add_le_add_left hle _).trans (h.elapsed hfinite) }

theorem LedRow.OnSchedule.countTime_le (h : row.OnSchedule s) :
    s.ubLedCountTime.toNat ≤ row.duration s.ubLedControlState := by
  obtain hzero | hlt := h.time
  · rw [hzero]
    exact Nat.zero_le _
  · exact hlt.le

theorem LedRow.OnSchedule.countTime_lt (h : row.OnSchedule s) : s.ubLedCountTime.toNat < 255 := by
  have hduration : row.duration s.ubLedControlState ≤ 255 := by
    cases s.ubLedControlState with
    | none => exact Nat.zero_le _
    | on => exact Nat.le_of_lt_succ row.onTime.isLt
    | off => exact Nat.le_of_lt_succ row.offTime.isLt
    | delay => exact Nat.le_of_lt_succ row.deplayTime.isLt
  obtain hzero | hlt := h.time
  · rw [hzero]
    decide
  · exact hlt.trans_le hduration

/-- The counter of the time does not wrap. -/
theorem LedRow.OnSchedule.countTime_succ (h : row.OnSchedule s) :
    (s.ubLedCountTime + 1).toNat = s.ubLedCountTime.toNat + 1 := by
  have hlt := h.countTime_lt
  rw [BitVec.toNat_add, Nat.mod_eq_of_lt]
  · rfl
  · exact Nat.succ_lt_succ hlt

/-- Another tick of the same state. -/
theorem LedRow.OnSchedule.wait (h : row.OnSchedule s)
    (hbefore : s.ubLedCountTime.toNat + 1 < row.duration s.ubLedControlState) :
    row.GoesOn 1 s { s with ubLedCountTime := s.ubLedCountTime + 1 } where
  ubLedType := rfl
  ledStartControlFlag := rfl
  lit := Finset.subset_union_left
  onSchedule := ⟨h.started, .inr (h.countTime_succ.trans_lt hbefore), h.continues⟩
  elapsed _ := by
    simp only [LedRow.elapsed, h.countTime_succ]
    omega

/-- The last tick of a state, up to the flags. -/
theorem LedRow.OnSchedule.next (h : row.OnSchedule s) (hstarted : t.ubLedControlState ≠ .none)
    (hstart : row.start s.ubLedControlState + row.duration s.ubLedControlState + 1 =
      row.start t.ubLedControlState)
    (htype : t.ubLedType = s.ubLedType) (hcontrol : t.ledStartControlFlag = s.ledStartControlFlag)
    (hlit : t.lit = s.lit) (htime : t.ubLedCountTime = 0)
    (hcontinues : t.ubLedCountContinuesTime = s.ubLedCountContinuesTime) :
    row.GoesOn 1 s t where
  ubLedType := htype
  ledStartControlFlag := hcontrol
  lit := hlit ▸ Finset.subset_union_left
  onSchedule := ⟨hstarted, .inl htime, hcontinues ▸ h.continues⟩
  elapsed _ := by
    have hle := h.countTime_le
    have hzero : t.ubLedCountTime.toNat = 0 := by rw [htime]; rfl
    simp only [LedRow.elapsed, hcontinues, hzero, ← hstart]
    omega

theorem LedRow.OnSchedule.switchOn (h : row.OnSchedule s) : row.GoesOn 0 s (s.switchOn row) := by
  rw [LedState.switchOn]
  split_ifs
  · exact ⟨rfl, rfl, Finset.union_subset_union_right LedRow.switchedOn_subset,
      ⟨h.started, h.time, h.continues⟩, fun _ => Nat.le_refl _⟩
  · exact .refl h

theorem LedRow.OnSchedule.switchOff (h : row.OnSchedule s) :
    row.GoesOn 0 s (s.switchOff row) := by
  rw [LedState.switchOff]
  split_ifs
  · exact ⟨rfl, rfl, Finset.sdiff_subset.trans Finset.subset_union_left,
      ⟨h.started, h.time, h.continues⟩, fun _ => Nat.le_refl _⟩
  · exact .refl h

theorem LedRow.OnSchedule.not_le_iff (h : row.OnSchedule s) {time : BitVec 8} :
    ¬time ≤ s.ubLedCountTime + 1 ↔ s.ubLedCountTime.toNat + 1 < time.toNat := by
  rw [BitVec.le_def, h.countTime_succ, Nat.not_le]

theorem LedRow.OnSchedule.countOn (h : row.OnSchedule s) (hstate : s.ubLedControlState = .on) :
    row.GoesOn 1 s (s.countOn row) := by
  rw [LedState.countOn]
  split_ifs with hdone
  · refine h.next (show LedControlState.off ≠ .none by decide) ?_ rfl rfl rfl rfl rfl
    rw [hstate]
    simp only [LedRow.start, LedRow.duration, Nat.zero_add]
  · have hbefore := h.not_le_iff.mp hdone
    refine h.wait ?_
    rwa [hstate]

theorem LedRow.OnSchedule.countOff (h : row.OnSchedule s) (hstate : s.ubLedControlState = .off) :
    row.GoesOn 1 s (s.countOff row) := by
  rw [LedState.countOff]
  split_ifs with hdone
  · refine h.next (show LedControlState.delay ≠ .none by decide) ?_ rfl rfl rfl rfl rfl
    rw [hstate]
    simp only [LedRow.start, LedRow.duration]
    omega
  · have hbefore := h.not_le_iff.mp hdone
    refine h.wait ?_
    rwa [hstate]

/-- The state in front of the counting. -/
theorem LedState.ubLedControlState_switchOn :
    (s.switchOn row).ubLedControlState = s.ubLedControlState := by
  rw [LedState.switchOn]
  split_ifs <;> rfl

theorem LedState.ubLedControlState_switchOff :
    (s.switchOff row).ubLedControlState = s.ubLedControlState := by
  rw [LedState.switchOff]
  split_ifs <;> rfl

/-- A state that is not the current one does nothing, and the current one counts a tick. -/
theorem LedRow.OnSchedule.handleOn (h : row.OnSchedule s) :
    row.GoesOn (if s.ubLedControlState = .on then 1 else 0) s (s.handleOn row) := by
  rw [LedState.handleOn]
  split_ifs with hstate
  · have hswitch := h.switchOn
    exact Nat.zero_add 1 ▸ hswitch.trans
      (hswitch.onSchedule.countOn (LedState.ubLedControlState_switchOn.trans hstate))
  · exact .refl h

theorem LedRow.OnSchedule.handleOff (h : row.OnSchedule s) :
    row.GoesOn (if s.ubLedControlState = .off then 1 else 0) s (s.handleOff row) := by
  rw [LedState.handleOff]
  split_ifs with hstate
  · have hswitch := h.switchOff
    exact Nat.zero_add 1 ▸ hswitch.trans
      (hswitch.onSchedule.countOff (LedState.ubLedControlState_switchOff.trans hstate))
  · exact .refl h

/-- The counter of the repetitions of a finite indication does not wrap. -/
theorem LedRow.OnSchedule.continues_succ (h : row.OnSchedule s) (hfinite : row.IsFinite) :
    (s.ubLedCountContinuesTime + 1).toNat = s.ubLedCountContinuesTime.toNat + 1 := by
  have hlt : s.ubLedCountContinuesTime.toNat < 255 := by
    obtain hzero | hbefore := h.continues hfinite
    · rw [hzero]
      decide
    · exact (BitVec.lt_def.mp hbefore).trans_le (Nat.le_of_lt_succ row.continuesTimess.isLt)
  rw [BitVec.toNat_add, Nat.mod_eq_of_lt]
  · rfl
  · exact Nat.succ_lt_succ hlt

/-- A repetition is not longer than its states. -/
theorem LedRow.OnSchedule.start_add_lt (h : row.OnSchedule s) :
    row.start s.ubLedControlState + s.ubLedCountTime.toNat < row.period := by
  have htime := h.countTime_le
  cases hstate : s.ubLedControlState with
  | none => exact absurd hstate h.started
  | on | off | delay =>
    rw [hstate] at htime
    simp only [LedRow.start, LedRow.duration, LedRow.period] at htime ⊢
    omega

/-- The begin of another repetition. -/
theorem LedRow.OnSchedule.begin (h : row.OnSchedule s)
    (hgoes : ¬row.Stops (s.ubLedCountContinuesTime + 1)) :
    row.GoesOn 1 s
      { s with
        ubLedCountTime := 0
        ubLedCountContinuesTime := s.ubLedCountContinuesTime + 1
        ubLedControlState := .on
        ledStartOnFlag := true } where
  ubLedType := rfl
  ledStartControlFlag := rfl
  lit := Finset.subset_union_left
  onSchedule := by
    refine ⟨show LedControlState.on ≠ .none by decide, .inl rfl, fun hfinite => .inr ?_⟩
    exact BitVec.not_le.mp fun hle => hgoes ⟨hle, hfinite⟩
  elapsed hfinite := by
    calc row.elapsed s + 1
        = s.ubLedCountContinuesTime.toNat * row.period +
            (row.start s.ubLedControlState + s.ubLedCountTime.toNat + 1) := rfl
      _ ≤ s.ubLedCountContinuesTime.toNat * row.period + row.period :=
        Nat.add_le_add_left h.start_add_lt _
      _ = (s.ubLedCountContinuesTime + 1).toNat * row.period := by
        rw [h.continues_succ hfinite, Nat.succ_mul]
      _ ≤ _ := Nat.le_add_right _ _

/-- The last state ends the indication, or counts. -/
theorem LedRow.OnSchedule.handleDelay (h : row.OnSchedule s) :
    (s.handleDelay row).Idle ∨
      row.GoesOn (if s.ubLedControlState = .delay then 1 else 0) s (s.handleDelay row) := by
  rw [LedState.handleDelay]
  split_ifs with hstate hdone hstops
  · exact .inl s.idle_setOff
  · exact .inr (h.begin hstops)
  · have hbefore := h.not_le_iff.mp hdone
    refine .inr (h.wait ?_)
    rwa [hstate]
  · exact .inr (.refl h)

/-- A tick ends the indication, or one of the three states counts it. -/
theorem LedRow.OnSchedule.handle (h : row.OnSchedule s) :
    (((s.handleOn row).handleOff row).handleDelay row).Idle ∨
      row.GoesOn 1 s (((s.handleOn row).handleOff row).handleDelay row) := by
  have hon := h.handleOn
  have hoff := hon.onSchedule.handleOff
  obtain hidle | hdelay := hoff.onSchedule.handleDelay
  · exact .inl hidle
  · refine .inr (((hon.trans hoff).trans hdelay).mono ?_)
    cases hstate : s.ubLedControlState with
    | none => exact absurd hstate h.started
    | on => simp [Nat.add_assoc]
    | off => simp [LedState.handleOn, hstate]
    | delay => simp [LedState.handleOn, LedState.handleOff, hstate]

/-- A finite indication that is running has not come to its end. -/
theorem LedRow.OnSchedule.elapsed_lt (h : row.OnSchedule s) (hfinite : row.IsFinite) :
    row.elapsed s < row.ticks := by
  have hcontinues : s.ubLedCountContinuesTime.toNat ≤ row.continuesTimess.toNat := by
    obtain hzero | hbefore := h.continues hfinite
    · rw [hzero]
      exact Nat.zero_le _
    · exact (BitVec.lt_def.mp hbefore).le
  calc row.elapsed s
      < s.ubLedCountContinuesTime.toNat * row.period + row.period :=
        Nat.add_lt_add_left h.start_add_lt _
    _ = (s.ubLedCountContinuesTime.toNat + 1) * row.period := (Nat.succ_mul _ _).symm
    _ ≤ row.ticks := Nat.mul_le_mul_right _ (Nat.succ_le_succ hcontinues)

end Schedule

/-! ## Runs -/

/-- The indication of a row is running. -/
structure LedState.Running (s : LedState) : Prop where
  ledStartControlFlag : s.ledStartControlFlag = true
  inTable : s.ubLedType.toNat < totalLedType
  onSchedule : (ledRow s.ubLedType).OnSchedule s

/-- What holds behind every call. -/
def LedInv (s : LedState) : Prop := s.Idle ∨ s.Running

section Runs

variable {s t u : LedState} {ubLedType : LedType} {n : ℕ}

theorem LedState.Idle.showsOwnColors (h : s.Idle) : s.ShowsOwnColors := by
  rw [LedState.ShowsOwnColors, h.lit]
  exact Finset.empty_subset _

theorem LedState.Idle.handle (h : s.Idle) : midLedControlHandle s = some s := by
  rw [midLedControlHandle, h.ledStartControlFlag]
  rfl

theorem LedState.Running.goesOn (h : s.Running) (hgoes : (ledRow s.ubLedType).GoesOn n s t) :
    t.Running where
  ledStartControlFlag := hgoes.ledStartControlFlag.trans h.ledStartControlFlag
  inTable := by
    rw [hgoes.ubLedType]
    exact h.inTable
  onSchedule := by
    rw [hgoes.ubLedType]
    exact hgoes.onSchedule

/-- While an indication runs, a tick ends it or takes it further. -/
theorem LedState.Running.handle (h : s.Running) :
    ∃ t, midLedControlHandle s = some t ∧
      (t.Idle ∨ t.Running ∧ (ledRow s.ubLedType).GoesOn 1 s t) := by
  refine ⟨(((s.handleOn (ledRow s.ubLedType)).handleOff (ledRow s.ubLedType)).handleDelay
    (ledRow s.ubLedType)), ?_, h.onSchedule.handle.imp_right fun hgoes => ⟨h.goesOn hgoes, hgoes⟩⟩
  rw [midLedControlHandle, if_pos h.ledStartControlFlag, getElem?_ledRow h.inTable,
    Option.map_some]

/-- A type that is set begins with the on time. -/
theorem LedInv.running_set (h : LedInv s) (hoff : ubLedType.val ≠ ledTypeOff) :
    (midLedControlSet ubLedType s).Running := by
  have hrow := ledType_toNat_lt ubLedType
  rw [midLedControlSet, if_neg hoff, if_pos hrow]
  have hon : LedControlState.on ≠ .none := by decide
  obtain hidle | hrun := h
  · rw [if_pos hidle.ledStartControlFlag]
    exact ⟨rfl, hrow, hon, .inl hidle.time, fun _ => .inl hidle.continues⟩
  · rw [if_neg (ne_false_of_eq_true hrun.ledStartControlFlag)]
    exact ⟨hrun.ledStartControlFlag, hrow, hon, .inl rfl, fun _ => .inl rfl⟩

@[simp] theorem ubLedType_midLedControlSet (ubLedType : BitVec 8) (s : LedState) :
    (midLedControlSet ubLedType s).ubLedType = ubLedType := by
  rw [midLedControlSet]
  split_ifs with hoff
  · exact hoff.symm
  all_goals rfl

theorem LedInv.set (h : LedInv s) (ubLedType : LedType) :
    LedInv (midLedControlSet ubLedType s) := by
  by_cases hoff : ubLedType.val = ledTypeOff
  · rw [midLedControlSet, if_pos hoff]
    exact .inl s.idle_setOff
  · exact .inr (h.running_set hoff)

/-- Every call keeps the invariant, and no handler reads past the table. -/
theorem ledStep_preserves : Preserves ledStep LedInv := by
  intro a s hs
  cases a with
  | set ubLedType => exact ⟨_, rfl, hs.set ubLedType⟩
  | handle =>
    obtain hidle | hrun := hs
    · exact ⟨s, hidle.handle, .inl hidle⟩
    · obtain ⟨t, ht, hnext⟩ := hrun.handle
      exact ⟨t, ht, hnext.imp_right And.left⟩

theorem LedState.Idle.ticks (h : s.Idle) (n : ℕ) :
    run ledStep (List.replicate n .handle) s = some s := by
  induction n with
  | zero => rfl
  | succ n ih => exact run_cons_of_eq h.handle ih

/-- Ticks end an indication, or take it as far. -/
theorem LedState.Running.ticks (h : s.Running)
    (hrun : run ledStep (List.replicate n .handle) s = some t) :
    t.Idle ∨ (ledRow s.ubLedType).GoesOn n s t := by
  induction n generalizing s with
  | zero =>
    obtain rfl := Option.some.inj hrun
    exact .inr (.refl h.onSchedule)
  | succ n ih =>
    obtain ⟨u, hu, hnext⟩ := h.handle
    rw [List.replicate_succ, run_cons, show ledStep .handle s = some u from hu,
      Option.bind_some] at hrun
    obtain hidle | ⟨hrunning, hgoes⟩ := hnext
    · rw [hidle.ticks, Option.some.injEq] at hrun
      exact .inl (hrun ▸ hidle)
    · refine (ih hrunning hrun).imp_right fun hrest => ?_
      rw [hgoes.ubLedType] at hrest
      exact Nat.add_comm 1 n ▸ hgoes.trans hrest

/-- Behind a finite indication that is not interrupted, no LED is lit. -/
theorem lit_eq_empty_of_ticks (h : LedInv s) (hfinite : (ledRow ubLedType).IsFinite)
    (hticks : (ledRow ubLedType).ticks ≤ n)
    (hrun : run ledStep (.set ubLedType :: List.replicate n .handle) s = some t) : t.lit = ∅ := by
  rw [run_cons, ledStep, Option.bind_some] at hrun
  by_cases hoff : ubLedType.val = ledTypeOff
  · rw [midLedControlSet, if_pos hoff, s.idle_setOff.ticks] at hrun
    exact Option.some.inj hrun ▸ rfl
  · have hrunning := h.running_set hoff
    obtain hidle | hgoes := hrunning.ticks hrun
    · exact hidle.lit
    · -- the indication would have come past its end
      rw [ubLedType_midLedControlSet] at hgoes
      have hlt := hgoes.onSchedule.elapsed_lt hfinite
      have hle := hgoes.elapsed hfinite
      omega

end Runs

/-! ## The current indication -/

/-- At every point only LEDs of the current type are lit, and a finite indication that is not
interrupted ends with all LEDs off. -/
structure CurrentIndicationOnly (events : List LedEvent) : Prop where
  showsOwnColors : Throughout ledStep LedState.ShowsOwnColors events .boot
  ends : ∀ (first : List LedEvent) (ubLedType : LedType) (n : ℕ) (t : LedState),
    first ++ .set ubLedType :: List.replicate n .handle <+: events →
    (ledRow ubLedType).IsFinite → (ledRow ubLedType).ticks ≤ n →
    run ledStep (first ++ .set ubLedType :: List.replicate n .handle) .boot = some t → t.lit = ∅

section

variable {s t : LedState} {ubLedType : LedType}

/-- Only `LED_TYPE_OFF` sets the pins. -/
theorem lit_midLedControlSet (ubLedType : BitVec 8) (s : LedState) :
    (midLedControlSet ubLedType s).lit = if ubLedType = ledTypeOff then ∅ else s.lit := by
  rw [midLedControlSet]
  split_ifs <;> rfl

/-- A type shows its own colours from the begin if it finds no others. -/
theorem showsOwnColors_set_iff :
    (midLedControlSet ubLedType s).ShowsOwnColors ↔ FindsOwnColors (.set ubLedType) s := by
  rw [LedState.ShowsOwnColors, ubLedType_midLedControlSet, lit_midLedControlSet, FindsOwnColors]
  split_ifs with hoff
  · exact iff_of_true (Finset.empty_subset _) (.inl hoff)
  · exact (or_iff_right hoff).symm

/-- A tick lights LEDs of the current type only. -/
theorem LedInv.showsOwnColors_handle (h : LedInv s) (hshows : s.ShowsOwnColors)
    (ht : midLedControlHandle s = some t) : t.ShowsOwnColors := by
  obtain hidle | hrun := h
  · rw [hidle.handle, Option.some.injEq] at ht
    exact ht ▸ hshows
  · obtain ⟨u, hu, hnext⟩ := hrun.handle
    obtain rfl := Option.some.inj (hu.symm.trans ht)
    obtain hidle | ⟨-, hgoes⟩ := hnext
    · exact hidle.showsOwnColors
    · rw [LedState.ShowsOwnColors, hgoes.ubLedType]
      exact hgoes.lit.trans (Finset.union_subset hshows (Finset.Subset.refl _))

end

/-- The LEDs show the current indication as long as none is set over the LEDs of another one. -/
theorem current_indication_only_iff (events : List LedEvent) :
    CurrentIndicationOnly events ↔ Along ledStep FindsOwnColors events .boot := by
  have hiff : Throughout ledStep LedState.ShowsOwnColors events .boot ↔
      Along ledStep FindsOwnColors events .boot := by
    refine throughout_iff_along (fun s => LedInv s ∧ s.ShowsOwnColors) ?_ (fun s hs => hs.2) ?_
      ⟨.inl LedState.idle_boot, LedState.idle_boot.showsOwnColors⟩
    · intro a s t hs hfinds hstep
      obtain ⟨u, hu, hinv⟩ := ledStep_preserves a s hs.1
      obtain rfl := Option.some.inj (hu.symm.trans hstep)
      refine ⟨hinv, ?_⟩
      cases a with
      | set ubLedType =>
        obtain rfl := Option.some.inj hstep
        exact showsOwnColors_set_iff.mpr hfinds
      | handle => exact hs.1.showsOwnColors_handle hs.2 hstep
    · intro a s hs hnot
      cases a with
      | set ubLedType => exact ⟨_, rfl, fun hshows => hnot (showsOwnColors_set_iff.mp hshows)⟩
      | handle => exact absurd trivial hnot
  refine ⟨fun h => hiff.mp h.showsOwnColors, fun h => ⟨hiff.mpr h, ?_⟩⟩
  intro first ubLedType n t _ hfinite hticks hrun
  obtain ⟨s, hs, hinv⟩ := ledStep_preserves.run first (.inl LedState.idle_boot)
  rw [run_append, hs, Option.bind_some] at hrun
  exact lit_eq_empty_of_ticks hinv hfinite hticks hrun

/-- The red LED of a connection is lit when the blue indication of a command begins. -/
theorem receive_over_connect :
    ¬CurrentIndicationOnly [.set ⟨1, by decide⟩, .handle, .set ⟨3, by decide⟩] := by
  intro h
  obtain ⟨t, ht, hnot⟩ : ∃ t, run ledStep [.set ⟨1, by decide⟩, .handle, .set ⟨3, by decide⟩]
      LedState.boot = some t ∧ ¬t.ShowsOwnColors := ⟨_, rfl, by decide⟩
  exact hnot (h.showsOwnColors.last ht)

end IrRemote
