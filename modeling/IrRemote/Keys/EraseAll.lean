import IrRemote.App.Device
import IrRemote.Library.FaultMachine
import IrRemote.Mid.KeyControl

/-!
# Erasing everything by a key

`App_ControlHandle` erases all codes and triggers when it finds the flag of a hold of three seconds
and the value of switch 1. The flag tells of the hold, and the value of the last sample. When the
main loop is late, a hold of switch 2 can set the flag and a later sample the value.

## Main definitions

* `KeyEvent`, `keyStep` — the scans and `App_ControlHandle`
* `KeyRecord`, `noteKey` — the samples, and those behind which the flag was set
* `ErasesBehindHold` — what is promised of an erasure
* `FlagFitsValue` — the flag was set by a sample of the value that is found

## Main results

* `stores_handleKey` — the erasure is that of `App_ControlHandle`
* `KeyInv.step` — the counter counts equal samples
* `erase_all_iff` — everything is erased behind a hold of switch 1 alone under this condition
-/

set_option autoImplicit false

namespace IrRemote

open FaultMachine

/-! ## The scans and the main loop -/

/-- `App_ControlHandle` erases everything. -/
def KeyState.ErasesAll (s : KeyState) : Prop :=
  s.flags.key3SecClickFlag = true ∧ s.ulKeyInValue = keySwitch1

instance (s : KeyState) : Decidable s.ErasesAll := inferInstanceAs (Decidable (_ ∧ _))

/-- The flag and the value are all that the device has to know of the keys. -/
theorem stores_handleKey {d : DeviceState} {s : KeyState}
    (hflag : d.key3SecClickFlag = s.flags.key3SecClickFlag)
    (hvalue : d.ulKeyInValue = s.ulKeyInValue) :
    (handleKey d).stores = if s.ErasesAll then appControlEraseAll d.stores else d.stores := by
  rw [handleKey, hflag, hvalue]
  rfl

/-- An event of the scheduler with the pins that it reads, or a call of `App_ControlHandle`. -/
inductive KeyEvent where
  | keyHandler (sample : KeySample)
  | controlHandle
  deriving DecidableEq

/-- One of them. -/
def keyStep : KeyEvent → KeyState → Option KeyState
  | .keyHandler sample, s => midKeyHandler sample s
  | .controlHandle, s => some s.clearFlags

/-- The samples so far, the last one first: at this point, at the call that has set
`KEY_3SEC_CLICK_FLAG` last, and at the call that had set it for each erasure. -/
structure KeyRecord where
  samples : List KeySample
  raised : List KeySample
  erased : List (List KeySample)
  deriving DecidableEq

/-- What an event adds. -/
def noteKey (a : KeyEvent) (s t : KeyState) (r : KeyRecord) : KeyRecord :=
  match a with
  | .keyHandler sample =>
    { r with
      samples := sample :: r.samples
      raised :=
        if s.flags.key3SecClickFlag = false ∧ t.flags.key3SecClickFlag = true then
          sample :: r.samples
        else r.raised }
  | .controlHandle => if s.ErasesAll then { r with erased := r.raised :: r.erased } else r

/-- The last `n` samples were all this one. -/
def HeldFor (n : ℕ) (sample : KeySample) (samples : List KeySample) : Prop :=
  List.replicate n sample <+: samples

instance (n : ℕ) (sample : KeySample) (samples : List KeySample) :
    Decidable (HeldFor n sample samples) := inferInstanceAs (Decidable (_ <+: _))

/-- At every erasure the flag had been set behind three seconds of switch 1 alone. -/
def ErasesBehindHold (r : KeyState × KeyRecord) : Prop :=
  ∀ samples ∈ r.2.erased, HeldFor key3SecCount.toNat .switch1Alone samples

instance (r : KeyState × KeyRecord) : Decidable (ErasesBehindHold r) :=
  inferInstanceAs (Decidable (∀ samples ∈ r.2.erased, _))

/-- When `App_ControlHandle` finds the flag and the value of switch 1, the call that has set the
flag had read switch 1 alone. -/
def FlagFitsValue : KeyEvent → KeyState × KeyRecord → Prop
  | .keyHandler _, _ => True
  | .controlHandle, r => r.1.ErasesAll → r.2.raised.head? = some .switch1Alone

instance : (a : KeyEvent) → (r : KeyState × KeyRecord) → Decidable (FlagFitsValue a r)
  | .keyHandler _, _ => inferInstanceAs (Decidable True)
  | .controlHandle, _ => inferInstanceAs (Decidable (_ → _))

/-! ## Holds -/

section HeldFor

variable {m n : ℕ} {sample : KeySample} {samples : List KeySample}

theorem heldFor_zero : HeldFor 0 sample samples := List.nil_prefix

theorem heldFor_succ : HeldFor (n + 1) sample (sample :: samples) ↔ HeldFor n sample samples := by
  rw [HeldFor, List.replicate_succ, List.prefix_cons_inj]
  rfl

theorem HeldFor.mono (h : HeldFor n sample samples) (hle : m ≤ n) : HeldFor m sample samples := by
  refine List.IsPrefix.trans ?_ h
  exact ⟨List.replicate (n - m) sample, by rw [List.replicate_append_replicate,
    Nat.add_sub_cancel' hle]⟩

/-- A sample goes on with the hold that it continues. -/
theorem HeldFor.head_eq (h : HeldFor (n + 1) sample samples) :
    samples.head? = some sample := by
  obtain ⟨rest, rfl⟩ := h
  rfl

end HeldFor

/-! ## The counter -/

section Flags

variable {s t u : KeyState}

/-- The branches for the flags change neither the counter nor the buffer. -/
structure KeyState.Raises (s t : KeyState) : Prop where
  value : t.ulKeyInValue = s.ulKeyInValue
  buffer : t.aulKeyBuffer = s.aulKeyBuffer
  count : t.uwKeyContinousCount = s.uwKeyContinousCount
  notSame : t.uwKeyNotSameCount = s.uwKeyNotSameCount
  index : t.ubKeyBufferIndex = s.ubKeyBufferIndex ∨
    t.ubKeyBufferIndex = 0 ∧ s.uwKeyNotSameCount = keyShortErrorCount
  off : s.ubKeyOffCount ≤ keyOffDebouce → t.ubKeyOffCount ≤ keyOffDebouce
  key3Sec : t.flags.key3SecClickFlag = true →
    s.flags.key3SecClickFlag = true ∨ s.uwKeyContinousCount = key3SecCount

theorem KeyState.Raises.refl (s : KeyState) : s.Raises s :=
  ⟨rfl, rfl, rfl, rfl, .inl rfl, id, .inl⟩

theorem KeyState.Raises.trans (h : s.Raises t) (h' : t.Raises u) : s.Raises u where
  value := h'.value.trans h.value
  buffer := h'.buffer.trans h.buffer
  count := h'.count.trans h.count
  notSame := h'.notSame.trans h.notSame
  index := by
    obtain hindex | ⟨hzero, hnotSame⟩ := h'.index
    · rw [hindex]
      exact h.index
    · exact .inr ⟨hzero, h.notSame ▸ hnotSame⟩
  off := h'.off ∘ h.off
  key3Sec hflag := (h'.key3Sec hflag).elim h.key3Sec fun hcount => .inr (h.count ▸ hcount)

theorem KeyFlags.key3SecClickFlag_raiseHold {count : BitVec 16} {flags : KeyFlags}
    (h : (flags.raiseHold count).key3SecClickFlag = true) :
    flags.key3SecClickFlag = true ∨ count = key3SecCount := by
  rw [KeyFlags.raiseHold] at h
  split_ifs at h
  all_goals first | exact .inl h | exact .inr ‹_›

theorem KeyState.raises_raiseCount (s : KeyState) : s.Raises s.raiseCount := by
  rw [KeyState.raiseCount]
  split_ifs
  · exact ⟨rfl, rfl, rfl, rfl, .inl rfl, fun _ => Nat.zero_le _, .inl⟩
  · exact .refl s
  · exact ⟨rfl, rfl, rfl, rfl, .inl rfl, id, KeyFlags.key3SecClickFlag_raiseHold⟩
  · exact .refl s

theorem KeyState.raises_raisePressHold (s : KeyState) : s.Raises s.raisePressHold := by
  rw [KeyState.raisePressHold]
  split_ifs
  · exact ⟨rfl, rfl, rfl, rfl, .inl rfl, id, .inl⟩
  · exact .refl s

theorem KeyState.raises_raiseNotSame (s : KeyState) : s.Raises s.raiseNotSame := by
  rw [KeyState.raiseNotSame]
  split_ifs with h
  · exact ⟨rfl, rfl, rfl, rfl, .inr ⟨rfl, h.1⟩, id, .inl⟩
  · exact .refl s

/-- All the flags behind a sample that was compared. -/
theorem KeyState.raises (s : KeyState) : s.Raises s.raiseCount.raisePressHold.raiseNotSame :=
  (s.raises_raiseCount.trans (KeyState.raises_raisePressHold _)).trans
    (KeyState.raises_raiseNotSame _)

end Flags

/-- The counter counts the samples at the end that are equal to the buffer. -/
structure KeyInv (s : KeyState) (samples : List KeySample) : Prop where
  value : ∃ sample : KeySample, s.ulKeyInValue = sample.value
  first : ∃ sample : KeySample, s.aulKeyBuffer.get 0 = sample.value
  index : s.ubKeyBufferIndex ≤ keyOnDebounce
  off : s.ubKeyOffCount ≤ keyOffDebouce
  filling : s.ubKeyBufferIndex < keyOnDebounce → s.uwKeyContinousCount = 0
  held : ∃ sample : KeySample, s.aulKeyBuffer.get 1 = sample.value ∧
    HeldFor s.uwKeyContinousCount.toNat sample samples

section Step

variable {s t : KeyState} {samples : List KeySample} {sample : KeySample}

theorem keyInv_zero : KeyInv .zero [] :=
  ⟨⟨⟨false, false⟩, rfl⟩, ⟨⟨false, false⟩, rfl⟩, by decide, by decide, fun _ => rfl,
    ⟨⟨false, false⟩, rfl, heldFor_zero⟩⟩

/-- While the counter is zero it is no matter what the samples are. -/
theorem KeyInv.of_count (hvalue : ∃ sample : KeySample, s.ulKeyInValue = sample.value)
    (hfirst : ∃ sample : KeySample, s.aulKeyBuffer.get 0 = sample.value)
    (hsecond : ∃ sample : KeySample, s.aulKeyBuffer.get 1 = sample.value)
    (hindex : s.ubKeyBufferIndex ≤ keyOnDebounce) (hoff : s.ubKeyOffCount ≤ keyOffDebouce)
    (hcount : s.uwKeyContinousCount = 0) : KeyInv s samples where
  value := hvalue
  first := hfirst
  index := hindex
  off := hoff
  filling _ := hcount
  held := by
    obtain ⟨sample, hsample⟩ := hsecond
    refine ⟨sample, hsample, ?_⟩
    rw [hcount]
    exact heldFor_zero

theorem KeyInv.second (h : KeyInv s samples) :
    ∃ sample : KeySample, s.aulKeyBuffer.get 1 = sample.value :=
  h.held.imp fun _ => And.left

/-- What a sample has made of the value: a key is pressed, or the buffer is empty. -/
def KeyState.Scanned (sample : KeySample) (s : KeyState) : Prop :=
  s.ulKeyInValue ≠ 0 ∧ s.ulKeyInValue = sample.value ∨
    s.ubKeyBufferIndex = 0 ∧ s.uwKeyContinousCount = 0

theorem KeyState.releaseClick_cases (s : KeyState) :
    s.releaseClick = s ∨
      ∃ flags : KeyFlags, flags.key3SecClickFlag = s.flags.key3SecClickFlag ∧
        s.releaseClick = { s with flags := flags, ulKeyInValue := s.aulKeyBuffer.get 0 } := by
  rw [KeyState.releaseClick]
  split_ifs
  · exact .inr ⟨{ s.flags with keyReleaseClickFlag := true }, rfl, rfl⟩
  · exact .inl rfl

theorem KeyInv.keyCan (h : KeyInv s samples) (sample : KeySample) :
    KeyInv (keyCan sample s) samples := by
  obtain ⟨last, hlast⟩ := h.value
  exact { h with value := ⟨sample, keyCan_value hlast sample⟩ }

/-- Behind the first branch the counter is that of the samples before this one, or zero. -/
theorem KeyInv.countRelease (h : KeyInv s samples) (sample : KeySample) :
    KeyInv (IrRemote.keyCan sample s).countRelease samples ∧
      (IrRemote.keyCan sample s).countRelease.Scanned sample ∧
      (IrRemote.keyCan sample s).countRelease.flags.key3SecClickFlag =
        s.flags.key3SecClickFlag := by
  obtain ⟨last, hlast⟩ := h.value
  have hcan := h.keyCan sample
  have hvalue := keyCan_value hlast sample
  rw [KeyState.countRelease]
  split_ifs with hzero hoff
  · obtain hsame | ⟨flags, hflag, hreleased⟩ := KeyState.releaseClick_cases
      { IrRemote.keyCan sample s with ubKeyOffCount := keyOffDebouce, ubKeyBufferIndex := 0 }
    · rw [hsame]
      exact ⟨.of_count hcan.value hcan.first hcan.second (Nat.zero_le _) (Nat.le_refl _) rfl,
        .inr ⟨rfl, rfl⟩, rfl⟩
    · rw [hreleased]
      exact ⟨.of_count hcan.first hcan.first hcan.second (Nat.zero_le _) (Nat.le_refl _) rfl,
        .inr ⟨rfl, rfl⟩, hflag⟩
  · -- the counter of the released samples stays at its bound
    have hle : s.ubKeyOffCount.toNat ≤ 1 := h.off
    refine absurd ?_ hoff
    rw [BitVec.le_def, BitVec.toNat_add, Nat.mod_eq_of_lt (by simp [IrRemote.keyCan]; omega)]
    exact Nat.le_add_left _ _
  · exact ⟨hcan, .inl ⟨hzero, hvalue⟩, rfl⟩

/-- A sample is put into the buffer. -/
theorem KeyInv.fillBuffer (h : KeyInv s samples) (hindex : s.ubKeyBufferIndex < keyOnDebounce) :
    KeyInv s.fillBuffer (sample :: samples) := by
  have hcount := h.filling hindex
  have hnext : s.ubKeyBufferIndex + 1 ≤ keyOnDebounce := by
    rw [keyOnDebounce] at hindex ⊢
    bv_omega
  rw [KeyState.fillBuffer]
  split_ifs with hzero hsame
  · refine .of_count h.value ?_ ?_ hnext h.off hcount
    · exact h.value.imp fun _ hvalue => (Vector.getElem_set_self _).trans hvalue
    · exact h.second.imp fun _ hsecond =>
        (Vector.getElem_set_ne (by decide) _ Nat.zero_ne_one).trans hsecond
  · exact .of_count h.value h.value ⟨⟨false, false⟩, rfl⟩ (Nat.zero_le _) h.off hcount
  · have hone : s.ubKeyBufferIndex.toNat = 1 := by
      rw [keyOnDebounce] at hindex
      bv_omega
    refine .of_count h.value ?_ ?_ hnext h.off hcount
    · rw [hone]
      exact h.first.imp fun _ hfirst =>
        (Vector.getElem_setIfInBounds_ne (by decide) Nat.one_ne_zero).trans hfirst
    · rw [hone]
      exact h.value.imp fun _ hvalue =>
        (Vector.getElem_setIfInBounds_self (by decide)).trans hvalue

theorem KeyState.flags_fillBuffer (s : KeyState) : s.fillBuffer.flags = s.flags := by
  rw [KeyState.fillBuffer]
  split_ifs <;> rfl

/-- A sample is compared with the buffer. -/
theorem KeyInv.countHold (h : KeyInv s samples) (hindex : ¬s.ubKeyBufferIndex < keyOnDebounce)
    (hvalue : s.ulKeyInValue = sample.value) :
    ∃ t, s.countHold = some t ∧ KeyInv t (sample :: samples) ∧
      (t.uwKeyNotSameCount = keyShortErrorCount → t.uwKeyContinousCount = 0) ∧
      t.flags = s.flags := by
  have hfull : s.ubKeyBufferIndex = 2 := by
    have hle := h.index
    rw [keyOnDebounce] at hindex hle
    bv_omega
  obtain ⟨last, hlast, hheld⟩ := h.held
  have hget : s.aulKeyBuffer[(s.ubKeyBufferIndex - 1).toNat]? = some (s.aulKeyBuffer.get 1) := by
    rw [hfull]
    rfl
  refine ⟨_, by rw [KeyState.countHold, hget, Option.map_some], ?_⟩
  split_ifs with hsame
  · -- the sample is the one that the counter counts
    obtain rfl : last = sample := KeySample.value_injective (by rw [← hlast, hsame, hvalue])
    refine ⟨{ h with filling := fun hlt => absurd hlt hindex, held := ⟨last, hlast, ?_⟩ }, ?_, rfl⟩
    · refine (heldFor_succ.mpr hheld).mono ?_
      rw [BitVec.toNat_add]
      exact Nat.mod_le _ _
    · exact fun hzero => absurd hzero (show (0 : BitVec 16) ≠ keyShortErrorCount by decide)
  · exact ⟨.of_count h.value h.first h.second h.index h.off rfl, fun _ => rfl, rfl⟩

theorem KeyInv.raises (h : KeyInv s samples)
    (hnotSame : s.uwKeyNotSameCount = keyShortErrorCount → s.uwKeyContinousCount = 0)
    (hraises : s.Raises t) : KeyInv t samples where
  value := hraises.value ▸ h.value
  first := hraises.buffer ▸ h.first
  index := by
    obtain hindex | ⟨hzero, -⟩ := hraises.index
    · exact hindex ▸ h.index
    · exact hzero ▸ Nat.zero_le _
  off := hraises.off h.off
  filling := by
    rw [hraises.count]
    obtain hindex | ⟨-, hcount⟩ := hraises.index
    · exact hindex ▸ h.filling
    · exact fun _ => hnotSame hcount
  held := by
    rw [hraises.buffer, hraises.count]
    exact h.held

/-- A scan keeps the invariant, and sets the flag behind three seconds of its sample. -/
theorem KeyInv.step (h : KeyInv s samples) (sample : KeySample) :
    ∃ t, midKeyHandler sample s = some t ∧ KeyInv t (sample :: samples) ∧
      (t.flags.key3SecClickFlag = true → s.flags.key3SecClickFlag = true ∨
        HeldFor key3SecCount.toNat sample (sample :: samples)) := by
  obtain ⟨hscan, hscanned, hflag⟩ := h.countRelease sample
  rw [midKeyHandler, ← hflag]
  generalize (IrRemote.keyCan sample s).countRelease = u at hscan hscanned ⊢
  split_ifs with hzero hindex
  · -- no key is pressed, and the counter starts again
    have hcount : u.uwKeyContinousCount = 0 := by
      obtain ⟨hne, -⟩ | ⟨-, hcount⟩ := hscanned
      · exact absurd hzero hne
      · exact hcount
    exact ⟨u, rfl, .of_count hscan.value hscan.first hscan.second hscan.index hscan.off hcount,
      .inl⟩
  · exact ⟨_, rfl, hscan.fillBuffer hindex, fun h => .inl (u.flags_fillBuffer ▸ h)⟩
  · have hvalue : u.ulKeyInValue = sample.value := by
      obtain ⟨-, hvalue⟩ | ⟨hempty, -⟩ := hscanned
      · exact hvalue
      · rw [hempty] at hindex
        exact absurd (by decide) hindex
    obtain ⟨v, hv, hcounted, hnotSame, hflags⟩ := hscan.countHold hindex hvalue
    have hraises := v.raises
    have hinv := hcounted.raises hnotSame hraises
    refine ⟨_, by rw [hv, Option.map_some], hinv, fun hset => ?_⟩
    refine (hflags ▸ hraises.key3Sec hset).imp_right fun hcount => ?_
    obtain ⟨last, -, hheld⟩ := hinv.held
    rw [hraises.count, hcount] at hheld
    obtain rfl := Option.some.inj (HeldFor.head_eq hheld)
    exact hheld

theorem KeyInv.clearFlags (h : KeyInv s samples) : KeyInv s.clearFlags samples := { h with }

end Step

/-! ## Erasures -/

/-- Next to the promise, a flag that is set was set behind three seconds of one value. -/
structure EraseAllInv (r : KeyState × KeyRecord) : Prop where
  counter : KeyInv r.1 r.2.samples
  flag : r.1.flags.key3SecClickFlag = true →
    ∃ sample, HeldFor key3SecCount.toNat sample r.2.raised
  erased : ErasesBehindHold r

section Erasures

variable {r r' : KeyState × KeyRecord}

theorem noteKey_controlHandle_samples {s t : KeyState} {record : KeyRecord} :
    (noteKey .controlHandle s t record).samples = record.samples := by
  rw [noteKey]
  split_ifs <;> rfl

theorem eraseAllInv_zero : EraseAllInv (.zero, ⟨[], [], []⟩) := ⟨keyInv_zero, nofun, nofun⟩

theorem EraseAllInv.keyHandler (h : EraseAllInv r) {sample : KeySample}
    (hstep : recorded keyStep noteKey (.keyHandler sample) r = some r') : EraseAllInv r' := by
  obtain ⟨t, ht, hinv, hflag⟩ := h.counter.step sample
  have hrecorded : recorded keyStep noteKey (.keyHandler sample) r =
      some (t, noteKey (.keyHandler sample) r.1 t r.2) := recorded_eq_some_iff.mpr ⟨ht, rfl⟩
  obtain rfl := Option.some.inj (hrecorded.symm.trans hstep)
  refine ⟨hinv, fun hset => ?_, h.erased⟩
  have hset' : t.flags.key3SecClickFlag = true := hset
  rw [noteKey]
  dsimp only
  split_ifs with hraised
  · have hbefore : ¬r.1.flags.key3SecClickFlag = true := ne_true_of_eq_false hraised.1
    exact ⟨sample, (hflag hset').resolve_left hbefore⟩
  · refine h.flag (Bool.eq_true_of_not_eq_false fun hbefore => hraised ⟨hbefore, hset'⟩)

/-- The erasure of a flag that fits is behind a hold of switch 1 alone, and no other one is. -/
theorem EraseAllInv.heldFor_iff (h : EraseAllInv r) (herases : r.1.ErasesAll) :
    HeldFor key3SecCount.toNat .switch1Alone r.2.raised ↔
      r.2.raised.head? = some .switch1Alone := by
  obtain ⟨sample, hheld⟩ := h.flag herases.1
  have hhead := HeldFor.head_eq hheld
  constructor
  · exact HeldFor.head_eq
  · intro hsw
    obtain rfl := Option.some.inj (hhead.symm.trans hsw)
    exact hheld

end Erasures

/-- Everything is erased behind three seconds of switch 1 alone only, as long as no flag of another
hold is found together with the value of switch 1. -/
theorem erase_all_iff (events : List KeyEvent) :
    Throughout (recorded keyStep noteKey) ErasesBehindHold events (.zero, ⟨[], [], []⟩) ↔
      Along (recorded keyStep noteKey) FlagFitsValue events (.zero, ⟨[], [], []⟩) := by
  refine throughout_iff_along EraseAllInv ?_ (fun r hr => hr.erased) ?_ eraseAllInv_zero
  · intro a r r' hr hfits hstep
    cases a with
    | keyHandler sample => exact hr.keyHandler hstep
    | controlHandle =>
      obtain rfl := Option.some.inj hstep
      have herased : ∀ samples ∈ (noteKey .controlHandle r.1 r.1.clearFlags r.2).erased,
          HeldFor key3SecCount.toNat .switch1Alone samples := by
        rw [noteKey]
        split_ifs with herases
        · exact List.forall_mem_cons.mpr
            ⟨(hr.heldFor_iff herases).mpr (hfits herases), hr.erased⟩
        · exact hr.erased
      have hcounter : KeyInv r.1.clearFlags
          (noteKey .controlHandle r.1 r.1.clearFlags r.2).samples := by
        rw [noteKey_controlHandle_samples]
        exact hr.counter.clearFlags
      exact ⟨hcounter, nofun, herased⟩
  · intro a r hr hnot
    cases a with
    | keyHandler sample => exact absurd trivial hnot
    | controlHandle =>
      obtain ⟨herases, hhead⟩ := Classical.not_imp.mp hnot
      refine ⟨_, rfl, fun hpromise => hhead ((hr.heldFor_iff herases).mp (hpromise _ ?_))⟩
      have herased : noteKey .controlHandle r.1 r.1.clearFlags r.2 =
          { r.2 with erased := r.2.raised :: r.2.erased } := if_pos herases
      change r.2.raised ∈ (noteKey .controlHandle r.1 r.1.clearFlags r.2).erased
      rw [herased]
      exact List.mem_cons_self

/-- Both switches are held for three seconds, then switch 2 is released first, and the main loop
is late by one scan. -/
def bothHeld : List KeyEvent :=
  (List.replicate 151 [.keyHandler ⟨true, true⟩, .controlHandle]).flatten ++
    [.keyHandler ⟨true, true⟩, .keyHandler .switch1Alone, .controlHandle]

/-- Everything is erased behind three seconds of both switches. -/
theorem erase_all_behind_both :
    ¬∀ events, Throughout (recorded keyStep noteKey) ErasesBehindHold events
      (.zero, ⟨[], [], []⟩) := by
  intro h
  have hrun : (run (recorded keyStep noteKey) bothHeld (.zero, ⟨[], [], []⟩)).map
      (fun r => decide (ErasesBehindHold r)) = some false := by decide +kernel
  obtain ⟨r, hr, hnot⟩ := Option.map_eq_some_iff.mp hrun
  exact of_decide_eq_false hnot ((h bothHeld).last hr)

end IrRemote
