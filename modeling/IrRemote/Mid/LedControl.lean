import Mathlib.Data.Finset.Option
import Mathlib.Data.Fintype.Basic

/-!
# The LEDs

`Mid_LedControl.c`. An indication is a row of `g_aubLedData`: it lights the LEDs of its colours,
switches them off, waits, and begins again until it has done so often enough.
`Mid_LedControlHandle` runs every 100 ms and passes on to the next state within the same call. An
LED is lit while its pin is low.

## Main definitions

* `gAubLedData` — the table of the indications
* `LedState` — the variables and the pins
* `midLedControlSet`, `midLedControlHandle` — the two functions

## Main results

* `LedRow.switchedOn_subset` — a row lights LEDs of its colours only
-/

set_option autoImplicit false

namespace IrRemote

/-! ## The table -/

/-- The LEDs, in the order of `Lable`. -/
inductive LedColor where
  | red
  | green
  | blue
  deriving DecidableEq, Repr

instance : Fintype LedColor where
  elems := {.red, .green, .blue}
  complete color := by cases color <;> decide

/-- `COLOR_RED_BIT`, `COLOR_GREEN_BIT` and `COLOR_BLUE_BIT`. -/
def LedColor.bit : LedColor → ℕ
  | .red => 0
  | .green => 1
  | .blue => 2

/-- `COLOR_RED_MASK`. -/
def colorRedMask : BitVec 8 := 1
/-- `COLOR_GREEN_MASK`. -/
def colorGreenMask : BitVec 8 := 2
/-- `COLOR_BLUE_MASK`. -/
def colorBlueMask : BitVec 8 := 4

/-- `LED_MODE_0_MASK`. -/
def ledMode0Mask : BitVec 8 := 0x00
/-- `LED_MODE_1_MASK`. -/
def ledMode1Mask : BitVec 8 := 0x08

/-- A row of `g_aubLedData`. -/
structure LedRow where
  config : BitVec 8
  onTime : BitVec 8
  offTime : BitVec 8
  continuesTimess : BitVec 8
  deplayTime : BitVec 8
  deriving DecidableEq, Repr

/-- `TOTAL_LED_TYPE`. -/
def totalLedType : ℕ := 20

/-- `LED_TYPE_OFF`. -/
def ledTypeOff : BitVec 8 := 0

/-- `g_aubLedData`. -/
def gAubLedData : List LedRow :=
  [⟨0, 0, 0, 0, 0⟩,
    ⟨ledMode0Mask ||| colorRedMask, 2, 2, 3, 0⟩,
    ⟨ledMode0Mask ||| colorRedMask, 5, 2, 3, 0⟩,
    ⟨ledMode0Mask ||| colorBlueMask, 2, 2, 4, 0⟩,
    ⟨ledMode0Mask ||| colorGreenMask, 2, 2, 5, 0⟩,
    ⟨ledMode0Mask ||| colorRedMask, 10, 10, 0xFF, 0⟩,
    ⟨ledMode1Mask ||| colorGreenMask ||| colorBlueMask, 10, 10, 0xFF, 0⟩,
    ⟨ledMode0Mask ||| colorBlueMask, 50, 2, 1, 0⟩,
    ⟨colorRedMask ||| colorGreenMask ||| colorBlueMask, 10, 10, 2, 10⟩] ++
  -- the rows that the initializer leaves out are zero
  List.replicate (totalLedType - 9) ⟨0, 0, 0, 0, 0⟩

/-- The colour bit of the LED is set. -/
def LedRow.HasColor (row : LedRow) (color : LedColor) : Prop := row.config.getLsbD color.bit = true

instance (row : LedRow) (color : LedColor) : Decidable (row.HasColor color) :=
  inferInstanceAs (Decidable (_ = _))

/-- The colours of a row. -/
def LedRow.colors (row : LedRow) : Finset LedColor := Finset.univ.filter row.HasColor

/-- The mode of a row. -/
def LedRow.mode (row : LedRow) : BitVec 8 := (row.config &&& 0x18) >>> 3

/-- The LEDs whose pins are cleared at the begin of the on time. -/
def LedRow.switchedOn (row : LedRow) : Finset LedColor :=
  if row.mode = 0 then row.colors
  else if row.mode = 1 then ([LedColor.red, .green, .blue].find? row.HasColor).toFinset
  else ∅

/-- The LEDs whose pins are set at the begin of the off time. -/
def LedRow.switchedOff (row : LedRow) : Finset LedColor :=
  if row.mode = 0 then row.colors
  -- this loop goes from the last LED to the first
  else if row.mode = 1 then ([LedColor.blue, .green, .red].find? row.HasColor).toFinset
  else ∅

/-! ## The state -/

/-- `g_ubLedControlState`; it is none of the three at the start. -/
inductive LedControlState where
  | none
  | on
  | off
  | delay
  deriving DecidableEq, Repr

/-- The variables of `Mid_LedControl.c`, and the LEDs that are lit. -/
structure LedState where
  ubLedControlState : LedControlState
  ubLedType : BitVec 8
  ubLedCountTime : BitVec 8
  ubLedCountContinuesTime : BitVec 8
  ledStartControlFlag : Bool
  ledStartOnFlag : Bool
  ledStartOffFlag : Bool
  lit : Finset LedColor
  deriving DecidableEq

/-- The state behind `Mid_LedControlInit`. -/
def LedState.boot : LedState where
  ubLedControlState := .none
  ubLedType := 0
  ubLedCountTime := 0
  ubLedCountContinuesTime := 0
  ledStartControlFlag := false
  ledStartOnFlag := false
  ledStartOffFlag := false
  lit := ∅

/-- `Mid_LedControlSet` with `LED_TYPE_OFF`. -/
def LedState.setOff (s : LedState) : LedState :=
  { s with
    ubLedType := ledTypeOff
    ubLedCountContinuesTime := 0
    ubLedCountTime := 0
    ledStartControlFlag := false
    ledStartOnFlag := false
    ledStartOffFlag := false
    lit := ∅ }

/-- `Mid_LedControlSet`. -/
def midLedControlSet (ubLedType : BitVec 8) (s : LedState) : LedState :=
  if ubLedType = ledTypeOff then s.setOff
  else if ubLedType.toNat < totalLedType then
    if s.ledStartControlFlag = false then
      { s with
        ubLedType := ubLedType
        ubLedControlState := .on
        ledStartControlFlag := true
        ledStartOnFlag := true }
    else
      -- another indication is running: no pin is set
      { s with
        ubLedType := ubLedType
        ubLedControlState := .on
        ubLedCountContinuesTime := 0
        ubLedCountTime := 0
        ledStartOffFlag := false
        ledStartOnFlag := false }
  else { s with ubLedType := ubLedType }

/-- `LED_START_ON_FLAG`: the pins are cleared. -/
def LedState.switchOn (row : LedRow) (s : LedState) : LedState :=
  if s.ledStartOnFlag then { s with lit := s.lit ∪ row.switchedOn, ledStartOnFlag := false }
  else s

/-- The on time is counted. -/
def LedState.countOn (row : LedRow) (s : LedState) : LedState :=
  if row.onTime ≤ s.ubLedCountTime + 1 then
    { s with ubLedCountTime := 0, ubLedControlState := .off, ledStartOffFlag := true }
  else { s with ubLedCountTime := s.ubLedCountTime + 1 }

/-- `Mid_LedControlHandle` in `LED_STATE_ON`. -/
def LedState.handleOn (row : LedRow) (s : LedState) : LedState :=
  if s.ubLedControlState = .on then (s.switchOn row).countOn row else s

/-- `LED_START_OFF_FLAG`: the pins are set. -/
def LedState.switchOff (row : LedRow) (s : LedState) : LedState :=
  if s.ledStartOffFlag then { s with lit := s.lit \ row.switchedOff, ledStartOffFlag := false }
  else s

/-- The off time is counted. -/
def LedState.countOff (row : LedRow) (s : LedState) : LedState :=
  if row.offTime ≤ s.ubLedCountTime + 1 then
    { s with ubLedCountTime := 0, ubLedControlState := .delay }
  else { s with ubLedCountTime := s.ubLedCountTime + 1 }

/-- `Mid_LedControlHandle` in `LED_STATE_OFF`. -/
def LedState.handleOff (row : LedRow) (s : LedState) : LedState :=
  if s.ubLedControlState = .off then (s.switchOff row).countOff row else s

/-- The row stops after the last repetition. -/
def LedRow.Stops (row : LedRow) (ubLedCountContinuesTime : BitVec 8) : Prop :=
  row.continuesTimess ≤ ubLedCountContinuesTime ∧ row.continuesTimess ≠ 0xFF

instance (row : LedRow) (count : BitVec 8) : Decidable (row.Stops count) :=
  inferInstanceAs (Decidable (_ ∧ _))

/-- `Mid_LedControlHandle` in `LED_STATE_DELAY`. -/
def LedState.handleDelay (row : LedRow) (s : LedState) : LedState :=
  if s.ubLedControlState = .delay then
    if row.deplayTime ≤ s.ubLedCountTime + 1 then
      if row.Stops (s.ubLedCountContinuesTime + 1) then s.setOff
      else
        { s with
          ubLedCountTime := 0
          ubLedCountContinuesTime := s.ubLedCountContinuesTime + 1
          ubLedControlState := .on
          ledStartOnFlag := true }
    else { s with ubLedCountTime := s.ubLedCountTime + 1 }
  else s

/-- `Mid_LedControlHandle`. A type without a row has no defined result. -/
def midLedControlHandle (s : LedState) : Option LedState :=
  if s.ledStartControlFlag then
    gAubLedData[s.ubLedType.toNat]?.map fun row =>
      ((s.handleOn row).handleOff row).handleDelay row
  else some s

/-! ## Colours -/

section Colors

variable {row : LedRow} {color : LedColor}

theorem LedRow.mem_colors : color ∈ row.colors ↔ row.HasColor color := by
  rw [LedRow.colors, Finset.mem_filter, and_iff_right (Finset.mem_univ color)]

/-- A loop that stops at its first colour finds one of the row. -/
theorem LedRow.toFinset_find?_subset (order : List LedColor) :
    (order.find? row.HasColor).toFinset ⊆ row.colors := by
  intro color hcolor
  have hfind := List.find?_some (Option.mem_toFinset.mp hcolor)
  exact LedRow.mem_colors.mpr (of_decide_eq_true hfind)

theorem LedRow.switchedOn_subset : row.switchedOn ⊆ row.colors := by
  rw [LedRow.switchedOn]
  split_ifs
  · exact Finset.Subset.refl _
  · exact LedRow.toFinset_find?_subset _
  · exact Finset.empty_subset _

end Colors

end IrRemote
