import Mathlib.Data.Vector.Basic

/-!
# The keys

`Mid_KeyControl.c`. Every 20 ms an event of the scheduler reads the two switches. Two equal
samples fill the buffer, and from then on a counter runs as long as the samples stay the same. The
flags of a hold are set when the counter passes their time; `App_ControlHandle` looks at them
later, and clears them.

## Main definitions

* `KeySample` — what the pins read
* `KeyState`, `KeyFlags` — the variables and the flags
* `keyCan`, `midKeyHandler` — the two functions

## Main results

* `keyCan_value` — the value of the keys is that of the last sample
-/

set_option autoImplicit false

namespace IrRemote

/-! ## Samples -/

/-- Whether the pins of the switches are not low. -/
structure KeySample where
  switch1 : Bool
  switch2 : Bool
  deriving DecidableEq, Repr

/-- The bits that `_KeyCan` sets. -/
def KeySample.value (sample : KeySample) : BitVec 32 :=
  (if sample.switch1 then 1 else 0) ||| if sample.switch2 then 2 else 0

/-- Switch 1 is pressed, and switch 2 is not. -/
def KeySample.switch1Alone : KeySample := ⟨true, false⟩

theorem KeySample.value_injective : Function.Injective KeySample.value := by
  rintro ⟨_ | _, _ | _⟩ ⟨_ | _, _ | _⟩ h
  all_goals first | rfl | exact absurd h (by decide)

/-! ## The state -/

/-- `KEY_1CLICK_COUNT`. -/
def key1ClickCount : BitVec 16 := 3
/-- `KEY_0_5SEC_COUNT`. -/
def key0_5SecCount : BitVec 16 := 25
/-- `KEY_1SEC_COUNT`. -/
def key1SecCount : BitVec 16 := 50
/-- `KEY_1_5SEC_COUNT`. -/
def key1_5SecCount : BitVec 16 := 75
/-- `KEY_2SEC_COUNT`. -/
def key2SecCount : BitVec 16 := 100
/-- `KEY_3SEC_COUNT`. -/
def key3SecCount : BitVec 16 := 150
/-- `KEY_5SEC_COUNT`. -/
def key5SecCount : BitVec 16 := 250
/-- `KEY_7SEC_COUNT`. -/
def key7SecCount : BitVec 16 := 350
/-- `KEY_CONTINUS_REFRESH_COUNT`. -/
def keyContinusRefreshCount : BitVec 16 := 10
/-- `KEY_SHORTERROR_COUNT`. -/
def keyShortErrorCount : BitVec 16 := 1500
/-- `KEY_OFF_DEBOUCE`. -/
def keyOffDebouce : BitVec 8 := 1
/-- `KEY_ON_DEBOUNCE`. -/
def keyOnDebounce : BitVec 8 := 2

/-- `KeyFlag1` and `KeyFlag2`. -/
structure KeyFlags where
  key1ClickFlag : Bool
  key0_5SecClickFlag : Bool
  key1SecClickFlag : Bool
  key1_5SecClickFlag : Bool
  key2SecClickFlag : Bool
  key3SecClickFlag : Bool
  key5SecClickFlag : Bool
  key7SecClickFlag : Bool
  keyReleaseClickFlag : Bool
  keyPressHoldFlag : Bool
  errorKeyShortFlag : Bool
  deriving DecidableEq, Repr

/-- The variables of `Mid_KeyControl.c`. -/
structure KeyState where
  flags : KeyFlags
  ulKeyInValue : BitVec 32
  ubKeyOffCount : BitVec 8
  uwKeyContinousCount : BitVec 16
  uwKeyNotSameCount : BitVec 16
  ubKeyBufferIndex : BitVec 8
  aulKeyBuffer : Vector (BitVec 32) 3
  deriving DecidableEq, Repr

/-- All of them are zero at the start. -/
def KeyState.zero : KeyState where
  flags := ⟨false, false, false, false, false, false, false, false, false, false, false⟩
  ulKeyInValue := 0
  ubKeyOffCount := 0
  uwKeyContinousCount := 0
  uwKeyNotSameCount := 0
  ubKeyBufferIndex := 0
  aulKeyBuffer := #v[0, 0, 0]

/-! ## The functions -/

/-- `sbi` or `cbi`, by a pin. -/
def setKeyBit (value : BitVec 32) (bit : ℕ) (pin : Bool) : BitVec 32 :=
  if pin then value ||| (1#32 <<< bit) else value &&& ~~~(1#32 <<< bit)

/-- `_KeyCan`. -/
def keyCan (sample : KeySample) (s : KeyState) : KeyState :=
  { s with ulKeyInValue := setKeyBit (setKeyBit s.ulKeyInValue 0 sample.switch1) 1 sample.switch2 }

/-- A key that was held for a short time is released. -/
def KeyState.releaseClick (s : KeyState) : KeyState :=
  if 0 < s.uwKeyContinousCount ∧ s.uwKeyContinousCount < key1_5SecCount ∧
      s.flags.keyReleaseClickFlag = false then
    { s with flags.keyReleaseClickFlag := true, ulKeyInValue := s.aulKeyBuffer[0] }
  else s

/-- The first branch of `Mid_KeyHandler`: no key is pressed. -/
def KeyState.countRelease (s : KeyState) : KeyState :=
  if s.ulKeyInValue = 0 then
    if keyOffDebouce ≤ s.ubKeyOffCount + 1 then
      { { s with ubKeyOffCount := keyOffDebouce, ubKeyBufferIndex := 0 }.releaseClick with
        uwKeyContinousCount := 0 }
    else { s with ubKeyOffCount := s.ubKeyOffCount + 1 }
  else s

/-- Its second branch: a sample for the buffer. -/
def KeyState.fillBuffer (s : KeyState) : KeyState :=
  if s.ubKeyBufferIndex = 0 then
    { s with
      aulKeyBuffer := s.aulKeyBuffer.set 0 s.ulKeyInValue
      ubKeyBufferIndex := s.ubKeyBufferIndex + 1 }
  else if s.aulKeyBuffer[(s.ubKeyBufferIndex - 1).toNat]? ≠ some s.ulKeyInValue then
    -- `ClearLongBuffer`
    { s with aulKeyBuffer := #v[s.ulKeyInValue, 0, 0], ubKeyBufferIndex := 0 }
  else
    { s with
      aulKeyBuffer := s.aulKeyBuffer.setIfInBounds s.ubKeyBufferIndex.toNat s.ulKeyInValue
      ubKeyBufferIndex := s.ubKeyBufferIndex + 1 }

/-- Its third branch: the sample is compared with the buffer. It is full, so that the case of an
empty one in the source does not occur. -/
def KeyState.countHold (s : KeyState) : Option KeyState :=
  s.aulKeyBuffer[(s.ubKeyBufferIndex - 1).toNat]?.map fun value =>
    if value = s.ulKeyInValue then
      { s with uwKeyContinousCount := s.uwKeyContinousCount + 1, uwKeyNotSameCount := 0 }
    else { s with uwKeyNotSameCount := s.uwKeyNotSameCount + 1, uwKeyContinousCount := 0 }

/-- The flag of the counter, behind that of the click. -/
def KeyFlags.raiseHold (uwKeyContinousCount : BitVec 16) (flags : KeyFlags) : KeyFlags :=
  if uwKeyContinousCount = key0_5SecCount then { flags with key0_5SecClickFlag := true }
  else if uwKeyContinousCount = key1SecCount then { flags with key1SecClickFlag := true }
  else if uwKeyContinousCount = key1_5SecCount then { flags with key1_5SecClickFlag := true }
  else if uwKeyContinousCount = key2SecCount then { flags with key2SecClickFlag := true }
  else if uwKeyContinousCount = key3SecCount then { flags with key3SecClickFlag := true }
  else if uwKeyContinousCount = key5SecCount then { flags with key5SecClickFlag := true }
  else if uwKeyContinousCount = key7SecCount then { flags with key7SecClickFlag := true }
  else if uwKeyContinousCount = keyShortErrorCount then { flags with errorKeyShortFlag := true }
  else flags

/-- The flags of the counter. -/
def KeyState.raiseCount (s : KeyState) : KeyState :=
  if s.uwKeyContinousCount = key1ClickCount ∧ s.ubKeyOffCount = keyOffDebouce then
    if s.flags.key1ClickFlag = false then
      { s with flags.key1ClickFlag := true, ubKeyOffCount := 0 }
    else s
  else if s.ubKeyOffCount = 0 then
    { s with flags := s.flags.raiseHold s.uwKeyContinousCount }
  else s

/-- `KEY_PRESS_HOLD_FLAG`. -/
def KeyState.raisePressHold (s : KeyState) : KeyState :=
  if key1SecCount ≤ s.uwKeyContinousCount ∧
      s.uwKeyContinousCount % keyContinusRefreshCount = 0 then
    { s with flags.keyPressHoldFlag := true }
  else s

/-- `ERROR_KEYSHORT_FLAG` by the samples that were not the same. -/
def KeyState.raiseNotSame (s : KeyState) : KeyState :=
  if s.uwKeyNotSameCount = keyShortErrorCount ∧ s.ubKeyOffCount = 0 ∧
      s.flags.errorKeyShortFlag = false then
    { s with flags.errorKeyShortFlag := true, ubKeyBufferIndex := 0 }
  else s

/-- `Mid_KeyHandler`. -/
def midKeyHandler (sample : KeySample) (s : KeyState) : Option KeyState :=
  let s := (keyCan sample s).countRelease
  if s.ulKeyInValue = 0 then some s
  else if s.ubKeyBufferIndex < keyOnDebounce then some s.fillBuffer
  else s.countHold.map fun s => s.raiseCount.raisePressHold.raiseNotSame

/-- The flags that `App_ControlHandle` clears. -/
def KeyState.clearFlags (s : KeyState) : KeyState :=
  { s with
    flags :=
      ⟨false, false, false, false, false, false, false, false, false, false,
        s.flags.errorKeyShortFlag⟩ }

/-- Behind a sample the value is that of the sample. -/
theorem keyCan_value {s : KeyState} {last : KeySample} (h : s.ulKeyInValue = last.value)
    (sample : KeySample) : (keyCan sample s).ulKeyInValue = sample.value := by
  rw [keyCan, h]
  obtain ⟨last1, last2⟩ := last
  obtain ⟨switch1, switch2⟩ := sample
  cases last1 <;> cases last2 <;> cases switch1 <;> cases switch2 <;> rfl

end IrRemote
