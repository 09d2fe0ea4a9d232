import IrRemote.App.Alarm
import IrRemote.Library.FaultMachine

/-!
# The grade of a motion

A motion opens two seconds of sensing, and the three seconds behind them the sensor is disabled.
The motions of the sensing are counted in a byte, and the grade follows the count. The handler of
the timer clears the grade when it ends the sensing, but the count is cleared by a sample of the
three seconds only.

## Main definitions

* `GradeLabel`, `gradeStep` — the samples and the timer in any order
* `GradeRecord`, `noteGrade` — the samples of the window
* `motionLevel` — the grade of so many motions
* `GradesItsWindow` — what is promised of the end of a window
* `SampledInTime` — how often the sensor is sampled

## Main results

* `motionGrade_level` — one more motion
* `GradeInv.step` — nothing is left of a window in the next one
* `motion_grade_of_window` — the grade is that of the motions of the window
-/

set_option autoImplicit false

namespace IrRemote

/-! ## The sensor and the timer -/

/-- A sample of the sensor, and a call of the timer with the time and the triggers of the day. -/
inductive GradeLabel where
  | motionSample (sample : BitVec 16)
  | sysTimer100ms (date : DateTime) (table : IRTriggerTable)

/-- One step. -/
def gradeStep : GradeLabel → AlarmState → Option AlarmState
  | .motionSample sample, s => some (midMotionSensorHandler sample s)
  | .sysTimer100ms date table, s => some (sysTimer100msAlarms date table s).1

/-- The motions and the samples since the window was opened, and whether a sample was handled since
the sensor was disabled. -/
structure GradeRecord where
  motions : ℕ
  samples : ℕ
  handled : Bool
  deriving DecidableEq

/-- The start. -/
def GradeRecord.zero : GradeRecord := ⟨0, 0, false⟩

/-- What a step from `s` to `t` makes of the record. -/
def noteGrade (a : GradeLabel) (s t : AlarmState) (h : GradeRecord) : GradeRecord :=
  match a with
  | .motionSample sample =>
    if s.motionSensorDisable then { h with handled := true }
    else if s.motionSensorStartSensing then
      { h with
        motions := h.motions + if IsMotion sample then 1 else 0
        samples := h.samples + 1 }
    else if t.motionSensorStartSensing then { h with motions := 1, samples := 1 }
    else h
  | .sysTimer100ms _ _ =>
    if s.motionSensorDisable = false ∧ t.motionSensorDisable = true then
      { h with handled := false }
    else h

/-- The grade of so many motions: the numbers of `SENSITIVITY_LEVEL_NONE` to
`SENSITIVITY_LEVEL_4`. -/
def motionLevel (n : ℕ) : BitVec 8 :=
  if n < 4 then 0
  else if n ≤ 6 then 1
  else if n ≤ 12 then 2
  else if n ≤ 18 then 3
  else if n ≤ 24 then 4
  else 5

/-- The call that ends the window compares the grade of its motions. -/
def GradesItsWindow (r : AlarmState × GradeRecord) : Prop :=
  r.1.EndsSensing → r.1.ubMotionSensorGrade = motionLevel r.2.motions

/-- The next call of the timer ends the three seconds in which the sensor is disabled. -/
def AlarmState.EndsDisable (s : AlarmState) : Prop :=
  s.motionSensorDisable = true ∧ time3sBy100ms ≤ (s.ubMotionSensorDisableTime + 1).toNat

instance (s : AlarmState) : Decidable s.EndsDisable := inferInstanceAs (Decidable (_ ∧ _))

/-- At most 255 samples are handled in a window, and at least one while the sensor is disabled. -/
def SampledInTime : GradeLabel → AlarmState × GradeRecord → Prop
  | .motionSample _, r => r.1.motionSensorStartSensing = true → r.2.samples < 255
  | .sysTimer100ms _ _, r => r.1.EndsDisable → r.2.handled = true

instance : (a : GradeLabel) → (r : AlarmState × GradeRecord) → Decidable (SampledInTime a r)
  | .motionSample _, _ => inferInstanceAs (Decidable (_ → _))
  | .sysTimer100ms _ _, _ => inferInstanceAs (Decidable (_ → _))

/-! ## Grades -/

/-- The grade of the motions so far and one more, as long as they fit into a byte. -/
theorem motionGrade_level {n : ℕ} {count : BitVec 8} (hcount : count.toNat = n + 1) :
    motionGrade count (motionLevel n) = motionLevel (n + 1) := by
  have hbyte : ∀ m : Fin 255, motionGrade (BitVec.ofNat 8 (m + 1)) (motionLevel m) =
      motionLevel (m + 1) := by decide +kernel
  have hlt := count.isLt
  rw [hcount] at hlt
  obtain rfl : count = BitVec.ofNat 8 (n + 1) := by
    rw [← hcount, BitVec.ofNat_toNat, BitVec.setWidth_eq]
  exact hbyte ⟨n, Nat.lt_of_succ_lt_succ hlt⟩

/-- The sensor senses, and the count is that of the motions of the window. -/
structure SensesWindow (s : AlarmState) (h : GradeRecord) : Prop where
  sensing : s.motionSensorStartSensing = true
  enabled : s.motionSensorDisable = false
  count : s.ubMotionCount.toNat = h.motions
  motions : h.motions ≤ h.samples
  samples : h.samples ≤ 255
  grade : s.ubMotionSensorGrade = motionLevel h.motions

/-- The sensor does not sense. The grade is cleared, and so is the count unless the sensor is
disabled and was not sampled since. -/
structure RestsCleared (s : AlarmState) (h : GradeRecord) : Prop where
  resting : s.motionSensorStartSensing = false
  grade : s.ubMotionSensorGrade = 0
  count : s.motionSensorDisable = false ∨ h.handled = true → s.ubMotionCount = 0

/-- What holds behind every step. -/
structure GradeInv (r : AlarmState × GradeRecord) : Prop where
  disableTime : r.1.motionSensorDisable = false → r.1.ubMotionSensorDisableTime = 0
  window : SensesWindow r.1 r.2 ∨ RestsCleared r.1 r.2

section Invariant

variable {s : AlarmState} {h : GradeRecord} {r r' : AlarmState × GradeRecord} {a : GradeLabel}
  {date : DateTime} {table : IRTriggerTable}

theorem gradeInv_zero : GradeInv (.zero, .zero) := ⟨fun _ => rfl, .inr ⟨rfl, rfl, fun _ => rfl⟩⟩

/-- The window is graded by its motions. -/
theorem GradeInv.gradesItsWindow (hr : GradeInv r) : GradesItsWindow r := by
  rintro ⟨hsensing, -⟩
  obtain hwindow | hrests := hr.window
  · exact hwindow.grade
  · exact absurd hsensing (ne_true_of_eq_false hrests.resting)

/-! ### Samples -/

/-- A motion that is counted: the handler in its first branch. -/
theorem midMotionSensorHandler_of_motion {sample : BitVec 16} (hmotion : IsMotion sample)
    (henabled : s.motionSensorDisable = false) :
    midMotionSensorHandler sample s =
      { s with
        motionSensorTimeoutCount := false
        motionSensorStartSensing := true
        ubMotionCount := s.ubMotionCount + 1
        ubMotionSensorGrade := motionGrade (s.ubMotionCount + 1) s.ubMotionSensorGrade } :=
  if_pos ⟨hmotion, henabled⟩

/-- A sample of the window. -/
theorem SensesWindow.sample (hs : SensesWindow s h) (sample : BitVec 16) (hless : h.samples < 255) :
    SensesWindow (midMotionSensorHandler sample s)
      { h with
        motions := h.motions + if IsMotion sample then 1 else 0
        samples := h.samples + 1 } := by
  have hmotions := hs.motions
  by_cases hmotion : IsMotion sample
  · have hcount : (s.ubMotionCount + 1).toNat = h.motions + 1 := by
      rw [BitVec.toNat_add, hs.count, Nat.mod_eq_of_lt]
      · rfl
      · exact Nat.succ_lt_succ (hmotions.trans_lt hless)
    rw [midMotionSensorHandler_of_motion hmotion hs.enabled, if_pos hmotion]
    exact ⟨rfl, hs.enabled, hcount, Nat.succ_le_succ hmotions, hless,
      (congrArg _ hs.grade).trans (motionGrade_level hcount)⟩
  · have hstate : midMotionSensorHandler sample s = s :=
      (if_neg fun h => hmotion h.1).trans (if_neg (ne_false_of_eq_true hs.sensing))
    rw [hstate, if_neg hmotion]
    exact ⟨hs.sensing, hs.enabled, hs.count, Nat.le_succ_of_le hmotions, hless, hs.grade⟩

/-- A sample opens a window with the first motion, or clears the count. -/
theorem RestsCleared.sample (hs : RestsCleared s h) (henabled : s.motionSensorDisable = false)
    (hdisableTime : s.motionSensorDisable = false → s.ubMotionSensorDisableTime = 0)
    (sample : BitVec 16) :
    GradeInv (midMotionSensorHandler sample s, noteGrade (.motionSample sample) s
      (midMotionSensorHandler sample s) h) := by
  have hcleared := hs.count (.inl henabled)
  by_cases hmotion : IsMotion sample
  · have hstate := midMotionSensorHandler_of_motion hmotion henabled
    have hone : (s.ubMotionCount + 1).toNat = 0 + 1 := by
      rw [hcleared]
      rfl
    have hnote : noteGrade (.motionSample sample) s (midMotionSensorHandler sample s) h =
        { h with motions := 1, samples := 1 } := by
      simp only [noteGrade, henabled, hs.resting, hstate, Bool.false_eq_true, if_false, if_true]
    rw [hnote, hstate]
    exact ⟨hdisableTime, .inl ⟨rfl, henabled, hone, le_rfl, Nat.le_of_ble_eq_true rfl,
      (congrArg _ hs.grade).trans (motionGrade_level hone)⟩⟩
  · have hstate : midMotionSensorHandler sample s =
        { s with ubMotionCount := 0, motionSensorTimeoutCount := true } :=
      (if_neg fun h => hmotion h.1).trans (if_pos hs.resting)
    have hnote : noteGrade (.motionSample sample) s (midMotionSensorHandler sample s) h = h := by
      simp only [noteGrade, henabled, hs.resting, hstate, Bool.false_eq_true, if_false]
    rw [hnote, hstate]
    exact ⟨hdisableTime, .inr ⟨hs.resting, hs.grade, fun _ => rfl⟩⟩

/-- A sample while the sensor is disabled clears the count. -/
theorem RestsCleared.disabledSample (hs : RestsCleared s h)
    (hdisable : s.motionSensorDisable = true) (sample : BitVec 16) :
    RestsCleared (midMotionSensorHandler sample s) { h with handled := true } := by
  have hstate : midMotionSensorHandler sample s =
      { s with ubMotionCount := 0, motionSensorTimeoutCount := true } :=
    (if_neg fun hmotion => by simp [hdisable] at hmotion).trans (if_pos hs.resting)
  rw [hstate]
  exact ⟨hs.resting, hs.grade, fun _ => rfl⟩

theorem ubMotionSensorDisableTime_midMotionSensorHandler (sample : BitVec 16) :
    (midMotionSensorHandler sample s).ubMotionSensorDisableTime = s.ubMotionSensorDisableTime ∧
      (midMotionSensorHandler sample s).motionSensorDisable = s.motionSensorDisable := by
  rw [midMotionSensorHandler]
  split_ifs <;> exact ⟨rfl, rfl⟩

theorem GradeInv.motionSample (hr : GradeInv (s, h)) (sample : BitVec 16)
    (hless : s.motionSensorStartSensing = true → h.samples < 255) :
    GradeInv (midMotionSensorHandler sample s, noteGrade (.motionSample sample) s
      (midMotionSensorHandler sample s) h) := by
  obtain ⟨htime, hdisable⟩ := ubMotionSensorDisableTime_midMotionSensorHandler (s := s) sample
  have hdisableTime : (midMotionSensorHandler sample s).motionSensorDisable = false →
      (midMotionSensorHandler sample s).ubMotionSensorDisableTime = 0 := by
    rw [htime, hdisable]
    exact hr.disableTime
  obtain hwindow | hrests := hr.window
  · have hsensing : s.motionSensorStartSensing = true := hwindow.sensing
    have henabled : s.motionSensorDisable = false := hwindow.enabled
    refine ⟨hdisableTime, .inl ?_⟩
    simpa only [noteGrade, henabled, hsensing, Bool.false_eq_true, if_false, if_true] using
      hwindow.sample sample (hless hsensing)
  · cases hflag : s.motionSensorDisable with
    | false => exact hrests.sample hflag hr.disableTime sample
    | true =>
      have hnext := hrests.disabledSample hflag sample
      refine ⟨hdisableTime, .inr ?_⟩
      simpa only [noteGrade, hflag, if_true] using hnext

/-! ### The timer -/

/-- The call that ends the window disables the sensor. -/
theorem SensesWindow.endsSensing (hs : SensesWindow s h)
    (hdisableTime : s.ubMotionSensorDisableTime = 0) (hends : s.EndsSensing) :
    GradeInv ((sysTimer100msAlarms date table s).1, noteGrade (.sysTimer100ms date table) s
      (sysTimer100msAlarms date table s).1 h) := by
  -- the call counts itself as the first of the three seconds
  have hone : ¬time3sBy100ms ≤ (s.ubMotionSensorDisableTime + 1).toNat := by
    rw [hdisableTime]
    decide
  have hends' : AlarmState.EndsSensing { s with onTimePreMinutes := date.minute } := hends
  rw [sysTimer100msAlarms_eq, appAlarmMotionTriggerHandler_of_endsSensing hends']
  dsimp only
  rw [countDisableTime, if_pos rfl, if_neg hone]
  have hnote : ∀ t : AlarmState, t.motionSensorDisable = true →
      noteGrade (.sysTimer100ms date table) s t h = { h with handled := false } :=
    fun t ht => if_pos ⟨hs.enabled, ht⟩
  rw [hnote _ rfl]
  exact ⟨fun hoff => Bool.noConfusion hoff, .inr ⟨rfl, rfl, fun hcleared => by simp at hcleared⟩⟩

/-- Any other call counts the time, and may enable the sensor again. -/
theorem GradeInv.not_endsSensing (hr : GradeInv (s, h)) (hends : ¬s.EndsSensing)
    (hhandled : s.EndsDisable → h.handled = true) :
    GradeInv ((sysTimer100msAlarms date table s).1, noteGrade (.sysTimer100ms date table) s
      (sysTimer100msAlarms date table s).1 h) := by
  have hends' : ¬AlarmState.EndsSensing { s with onTimePreMinutes := date.minute } := hends
  rw [sysTimer100msAlarms_eq, appAlarmMotionTriggerHandler_of_not_endsSensing hends']
  dsimp only
  -- the sensor is not disabled by this call, so the record stays
  have hsame : ∀ t : AlarmState, (t.motionSensorDisable = true → s.motionSensorDisable = true) →
      GradeInv (t, h) → GradeInv (t, noteGrade (.sysTimer100ms date table) s t h) := by
    intro t ht hinv
    have hnote : noteGrade (.sysTimer100ms date table) s t h = h :=
      if_neg fun hset => by simp [ht hset.2] at hset
    rwa [hnote]
  generalize (if s.motionSensorStartSensing then s.ubMotionSensorCountTime + 1
    else s.ubMotionSensorCountTime) = countTime
  rw [countDisableTime]
  split_ifs with hdisable hlast
  · have hcleared := hhandled ⟨hdisable, hlast⟩
    refine hsame _ (fun _ => hdisable) ⟨fun _ => rfl, hr.window.imp (fun hs => ?_) fun hs => ?_⟩
    · exact absurd hdisable (ne_true_of_eq_false hs.enabled)
    · exact ⟨hs.resting, hs.grade, fun _ => hs.count (.inr hcleared)⟩
  · refine hsame _ (fun _ => hdisable) ⟨fun hoff => absurd hdisable (ne_true_of_eq_false hoff),
      hr.window.imp (fun hs => ?_) fun hs => ?_⟩
    · exact ⟨hs.sensing, hs.enabled, hs.count, hs.motions, hs.samples, hs.grade⟩
    · exact ⟨hs.resting, hs.grade, hs.count⟩
  · refine hsame _ id ⟨hr.disableTime, hr.window.imp (fun hs => ?_) fun hs => ?_⟩
    · exact ⟨hs.sensing, hs.enabled, hs.count, hs.motions, hs.samples, hs.grade⟩
    · exact ⟨hs.resting, hs.grade, hs.count⟩

/-- Nothing of a window is left when the next one begins. -/
theorem GradeInv.step (hr : GradeInv r) (hsampled : SampledInTime a r)
    (hrun : FaultMachine.recorded gradeStep noteGrade a r = some r') : GradeInv r' := by
  obtain ⟨s, h⟩ := r
  cases a with
  | motionSample sample =>
    obtain rfl := Option.some.inj hrun
    exact hr.motionSample sample hsampled
  | sysTimer100ms date table =>
    obtain rfl := Option.some.inj hrun
    by_cases hends : s.EndsSensing
    · obtain hwindow | hrests := hr.window
      · exact hwindow.endsSensing (hr.disableTime hwindow.enabled) hends
      · exact absurd hends.1 (ne_true_of_eq_false hrests.resting)
    · exact hr.not_endsSensing hends hsampled

end Invariant

/-- In a run from the start in which the sensor is sampled in time, the call that ends a window
compares the grade of the motions of this window. -/
theorem motion_grade_of_window (labels : List GradeLabel)
    (h : FaultMachine.Along (FaultMachine.recorded gradeStep noteGrade) SampledInTime labels
      (.zero, .zero)) :
    FaultMachine.Throughout (FaultMachine.recorded gradeStep noteGrade) GradesItsWindow labels
      (.zero, .zero) :=
  h.throughout GradeInv (fun _ _ _ hr hsampled hrun => hr.step hsampled hrun)
    (fun _ hr => hr.gradesItsWindow) gradeInv_zero

/-- A trigger of a motion of `SENSITIVITY_LEVEL_1`. -/
def levelOne : IrDataTrigger where
  ubMode := motionTrigger
  uwTrigID := 1
  uwIrCode := 7
  ubDays := 0x7F
  tTime1 := ⟨0, 0⟩
  tTime2 := ⟨0, 0⟩
  ulTimeout := 0
  ubMotionSen := 2
  ubTriggerDone := 0

/-- So many motions, and calls of the timer until the sensing ends, a sample while the sensor is
disabled, and calls until it is enabled. -/
def gradedWindow (motions : ℕ) : List GradeLabel :=
  List.replicate motions (.motionSample 0) ++
    List.replicate time2sBy100ms
      (.sysTimer100ms (midRTCConvertUnixToDate 0) (Vector.replicate maxIrCode levelOne)) ++
    .motionSample 100 ::
    List.replicate time3sBy100ms
      (.sysTimer100ms (midRTCConvertUnixToDate 0) (Vector.replicate maxIrCode levelOne))

/-- A window of thirteen motions, and one of five. -/
theorem motion_grade_of_window_twice :
    FaultMachine.Throughout (FaultMachine.recorded gradeStep noteGrade) GradesItsWindow
      (gradedWindow 13 ++ gradedWindow 5) (.zero, .zero) :=
  motion_grade_of_window _ (by decide +kernel)

end IrRemote
