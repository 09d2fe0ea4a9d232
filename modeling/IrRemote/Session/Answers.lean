import IrRemote.App.Device
import IrRemote.Store.Reboot

/-!
# The answer to a learn session

A learn session should be answered once, with a success exactly when its code was stored. The
main loop answers when it takes up a detected frame, the timer when five seconds are over. The
timer looks at the protocol of the frame that was decoded last, which may be a frame of an earlier
session; a frame that is taken up behind the five seconds is answered a second time, and a known
frame for which no slot is free is not answered at all.

## Main definitions

* `SessionRecord` — the notifications since the last request
* `Answered` — one notification at the end of the session, and it is true
* `AnswersOnce` — the timer ends no session behind a known frame, and the frame that the main loop
  takes up is the first answer of the session or no answer

## Main results

* `sessions_answered` — the runs in which every session is answered once
-/

set_option autoImplicit false

namespace IrRemote

/-- What was sent and stored since the last request. -/
structure SessionRecord where
  sent : List Noti
  /-- A detected frame was taken up, or the five seconds were over. -/
  ended : Bool
  stored : Bool
  deriving DecidableEq

/-- The record at the start of a session. -/
def SessionRecord.zero : SessionRecord := ⟨[], false, false⟩

/-- The next `App_ControlHandle` stores a code. -/
def DeviceState.Stores (s : DeviceState) : Prop :=
  s.Detected ∧ s.protocol ≠ .unknown ∧ s.insertNewIRCode.1 = true

instance (s : DeviceState) : Decidable s.Stores := inferInstanceAs (Decidable (_ ∧ _ ∧ _))

/-- What an event adds to the record. -/
def noteSession (a : DeviceEvent) (s t : DeviceState) (h : SessionRecord) : SessionRecord :=
  match a with
  | .startLearnIR _ => .zero
  | .processMain => {
      sent := h.sent ++ t.notis.drop s.notis.length
      ended := h.ended || s.Detected
      stored := h.stored || s.Stores }
  | .sysTimer100ms => { h with
      sent := h.sent ++ t.notis.drop s.notis.length
      ended := h.ended || s.TimesOut }
  | _ => { h with sent := h.sent ++ t.notis.drop s.notis.length }

/-- At most one notification is sent, exactly one when the session has ended, and it is a success
exactly when a code was stored. -/
def Answered (s : DeviceState × SessionRecord) : Prop :=
  s.2.sent.length ≤ 1 ∧ (s.2.ended = true → s.2.sent.length = 1) ∧
    ∀ noti ∈ s.2.sent, noti = .learnIRSuccess ↔ s.2.stored = true

/-- A request is issued when no session is active or the last one has timed out. -/
def IssuedInTurn (a : DeviceEvent) (s : DeviceState) : Prop :=
  match a with
  | .startLearnIR _ => ¬(s.appStartLearnIRFlag = true ∧ s.appLearnIRCountStartFlag = true)
  | _ => True

instance : (a : DeviceEvent) → (s : DeviceState) → Decidable (IssuedInTurn a s)
  | .startLearnIR _, _ => inferInstanceAs (Decidable (¬_))
  | .eraseIR _, _ | .sample _ _, _ | .processMain, _ | .sysTimer100ms, _ | .startScan, _
  | .stopScan, _ | .resume, _ => inferInstanceAs (Decidable True)

/-- When the five seconds are over, the last frame was decoded as unknown. A frame that is taken up
before is unknown or finds a free slot; one that is taken up behind them is known and finds
none. -/
def AnswersOnce (a : DeviceEvent) (s : DeviceState) : Prop :=
  match a with
  | .sysTimer100ms => s.TimesOut → s.protocol = .unknown
  | .processMain =>
    s.Detected →
      if s.appLearnIRCountStartFlag then
        s.protocol = .unknown ∨ freeCodeSlot s.stores.tIRDataCommom ≠ none
      else s.protocol ≠ .unknown ∧ freeCodeSlot s.stores.tIRDataCommom = none
  | _ => True

instance : (a : DeviceEvent) → (s : DeviceState) → Decidable (AnswersOnce a s)
  | .sysTimer100ms, _ | .processMain, _ => inferInstanceAs (Decidable (_ → _))
  | .startLearnIR _, _ | .eraseIR _, _ | .sample _ _, _ | .startScan, _ | .stopScan, _
  | .resume, _ => inferInstanceAs (Decidable True)

/-! ## The invariant -/

/-- The flags say how far the session is, and what was sent in it. -/
def SessionInv (s : DeviceState × SessionRecord) : Prop :=
  match s.1.appStartLearnIRFlag, s.1.appLearnIRCountStartFlag with
  | true, true => s.2 = .zero
  | true, false => s.2 = ⟨[.learnIRFail], true, false⟩
  | false, true => False
  | false, false =>
    s.2 = .zero ∨ s.2 = ⟨[.learnIRFail], true, false⟩ ∨ s.2 = ⟨[.learnIRSuccess], true, true⟩

section Steps

variable {s t : DeviceState} {h : SessionRecord}

theorem SessionInv.answered {s : DeviceState × SessionRecord} (hs : SessionInv s) :
    Answered s := by
  have hrecord : s.2 = .zero ∨ s.2 = ⟨[.learnIRFail], true, false⟩ ∨
      s.2 = ⟨[.learnIRSuccess], true, true⟩ := by
    rw [SessionInv] at hs
    split at hs
    · exact .inl hs
    · exact .inr (.inl hs)
    · exact hs.elim
    · exact hs
  rw [Answered]
  obtain h | h | h := hrecord <;> rw [h] <;> simp [SessionRecord.zero]

/-- Behind the first branch of `App_ControlHandle` nothing is sent, and the flags of the session
stay. -/
theorem session_processMain (h : processMain s = some t) :
    t.appStartLearnIRFlag = (handleLearn s).appStartLearnIRFlag ∧
      t.appLearnIRCountStartFlag = (handleLearn s).appLearnIRCountStartFlag ∧
      t.notis = (handleLearn s).notis := by
  obtain ⟨stores, hstores⟩ := exists_handleKey_handleErase_handleEmit (handleLearn s)
  obtain ⟨decode, scan, delay, detect, rfl⟩ := exists_detectFrame h
  rw [appControlHandle, hstores]
  exact ⟨rfl, rfl, rfl⟩

theorem SessionInv.congr (hs : SessionInv (s, h))
    (hstart : t.appStartLearnIRFlag = s.appStartLearnIRFlag)
    (hcount : t.appLearnIRCountStartFlag = s.appLearnIRCountStartFlag) : SessionInv (t, h) := by
  rw [SessionInv, hstart, hcount]
  exact hs

/-- An event that sends nothing and leaves the flags of the session alone. -/
theorem SessionInv.of_frame (hs : SessionInv (s, h))
    (hstart : t.appStartLearnIRFlag = s.appStartLearnIRFlag)
    (hcount : t.appLearnIRCountStartFlag = s.appLearnIRCountStartFlag)
    (hnotis : t.notis = s.notis) :
    SessionInv (t, { h with sent := h.sent ++ t.notis.drop s.notis.length }) := by
  rw [hnotis, List.drop_length, List.append_nil]
  exact hs.congr hstart hcount

/-- The session is over. -/
theorem SessionInv.of_answer (hstart : t.appStartLearnIRFlag = false)
    (hcount : t.appLearnIRCountStartFlag = false)
    (hanswer : h = ⟨[.learnIRFail], true, false⟩ ∨ h = ⟨[.learnIRSuccess], true, true⟩) :
    SessionInv (t, h) := by
  rw [SessionInv, hstart, hcount]
  exact .inr hanswer

/-- A frame is taken up. -/
theorem SessionInv.detected (hs : SessionInv (s, h)) (hdetected : s.Detected)
    (hc : AnswersOnce .processMain s) :
    SessionInv (handleLearn s, {
      sent := h.sent ++ (handleLearn s).notis.drop s.notis.length
      ended := h.ended || s.Detected
      stored := h.stored || s.Stores }) := by
  replace hc := hc hdetected
  have hended : (h.ended || decide s.Detected) = true := by simp [hdetected]
  rw [handleLearn_of_detected hdetected, hended]
  rw [SessionInv, hdetected.1] at hs
  cases hcount : s.appLearnIRCountStartFlag with
  | true =>
    -- the first answer of the session
    rw [hcount] at hs hc
    obtain rfl : h = .zero := hs
    by_cases hprotocol : s.protocol = .unknown
    · have hstores : ¬s.Stores := fun h => h.2.1 hprotocol
      rw [if_neg (not_not.mpr hprotocol)]
      refine SessionInv.of_answer rfl rfl (.inl ?_)
      simp [hstores, libBleNoti, stopProcess, SessionRecord.zero]
    · have hfree := hc.resolve_left hprotocol
      obtain ⟨hstored, hinsert⟩ := insertDecodedCode_of_free (s := stopProcess s) hfree
      have hstores : s.Stores := ⟨hdetected, hprotocol, hstored⟩
      rw [if_pos hprotocol, hinsert]
      refine SessionInv.of_answer rfl rfl (.inr ?_)
      simp [hstores, libBleNoti, stopProcess, SessionRecord.zero]
  | false =>
    -- the timer has answered before, and there is no other answer
    rw [hcount] at hs hc
    obtain rfl : h = ⟨[.learnIRFail], true, false⟩ := hs
    obtain ⟨hprotocol, hfull⟩ := hc
    obtain ⟨hstored, hinsert⟩ := insertDecodedCode_of_full (s := stopProcess s) hfull
    have hstores : ¬s.Stores := fun h => by
      have hstored' : s.insertNewIRCode.1 = false := hstored
      rw [h.2.2] at hstored'
      cases hstored'
    rw [if_pos hprotocol, hinsert]
    refine SessionInv.of_answer rfl rfl (.inl ?_)
    simp [hstores, stopProcess]

theorem SessionInv.processMain (hs : SessionInv (s, h)) (hc : AnswersOnce .processMain s)
    (hstep : processMain s = some t) : SessionInv (t, noteSession .processMain s t h) := by
  obtain ⟨hstart, hcount, hnotis⟩ := session_processMain hstep
  have hnote : noteSession .processMain s t h = {
      sent := h.sent ++ (handleLearn s).notis.drop s.notis.length
      ended := h.ended || s.Detected
      stored := h.stored || s.Stores } := by
    rw [← hnotis]
    rfl
  rw [hnote]
  refine SessionInv.congr (s := handleLearn s) ?_ hstart hcount
  by_cases hdetected : s.Detected
  · exact hs.detected hdetected hc
  · have hstores : ¬s.Stores := fun h => hdetected h.1
    rw [handleLearn_of_not_detected hdetected, decide_eq_false hdetected,
      decide_eq_false hstores, Bool.or_false, Bool.or_false]
    exact hs.of_frame rfl rfl rfl

/-- The timer answers a session that has not been answered. -/
theorem SessionInv.countLearnTime (hs : SessionInv (s, h)) (hc : AnswersOnce .sysTimer100ms s) :
    SessionInv (countLearnTime s, { h with
      sent := h.sent ++ (countLearnTime s).notis.drop s.notis.length
      ended := h.ended || s.TimesOut }) := by
  by_cases htime : s.TimesOut
  · rw [SessionInv, htime.1.1, htime.1.2] at hs
    obtain rfl : h = .zero := hs
    have hstart : (libBleNoti .learnIRFail (stopCount s)).appStartLearnIRFlag = true := htime.1.1
    have hcount : (libBleNoti .learnIRFail (stopCount s)).appLearnIRCountStartFlag = false := rfl
    have hsent : (libBleNoti .learnIRFail (stopCount s)).notis.drop s.notis.length =
        [.learnIRFail] := List.drop_left
    rw [countLearnTime_of_timesOut htime, if_pos (hc htime), hsent, decide_eq_true htime,
      SessionInv, hstart, hcount]
    rfl
  · obtain ⟨n, hn⟩ := exists_countLearnTime_of_not_timesOut htime
    rw [hn, decide_eq_false htime, Bool.or_false]
    exact hs.of_frame rfl rfl rfl

theorem SessionInv.sysTimer100ms (hs : SessionInv (s, h)) (hc : AnswersOnce .sysTimer100ms s) :
    SessionInv (sysTimer100msCall s, noteSession .sysTimer100ms s (sysTimer100msCall s) h) := by
  obtain ⟨hnotis, hstart, hcount, -⟩ := countDelayTime_frame (IrRemote.countLearnTime s)
  have hnote : noteSession .sysTimer100ms s (sysTimer100msCall s) h = { h with
      sent := h.sent ++ (IrRemote.countLearnTime s).notis.drop s.notis.length
      ended := h.ended || s.TimesOut } := by
    rw [← hnotis]
    rfl
  rw [hnote]
  exact (hs.countLearnTime hc).congr hstart hcount

theorem SessionInv.deviceStep {a : DeviceEvent} {s t : DeviceState × SessionRecord}
    (hs : SessionInv s) (hc : AnswersOnce a s.1)
    (hstep : FaultMachine.recorded deviceStep noteSession a s = some t) : SessionInv t := by
  obtain ⟨hdevice, hnote⟩ := FaultMachine.recorded_eq_some_iff.mp hstep
  obtain ⟨t, h⟩ := t
  dsimp only at hdevice hnote
  subst hnote
  cases a with
  | startLearnIR uwIrID =>
    obtain rfl := Option.some.inj hdevice
    exact rfl
  | processMain => exact hs.processMain hc hdevice
  | sysTimer100ms =>
    obtain rfl := Option.some.inj hdevice
    exact hs.sysTimer100ms hc
  | sample eventType tIRInputLevel =>
    obtain ⟨p, rfl, -⟩ := timerSample_eq_some hdevice
    exact hs.of_frame rfl rfl rfl
  | eraseIR | startScan | stopScan | resume =>
    obtain rfl := Option.some.inj hdevice
    exact hs.of_frame rfl rfl rfl

end Steps

/-- Every session is answered once, and truthfully, in a run whose steps meet the condition. -/
theorem sessions_answered (irparamsAddress : BitVec 32) (stores : StoreState)
    (labels : List DeviceEvent)
    (h : FaultMachine.Along (FaultMachine.recorded deviceStep noteSession)
      (fun a s => AnswersOnce a s.1) labels (deviceAtBoot irparamsAddress stores, .zero)) :
    FaultMachine.Throughout (FaultMachine.recorded deviceStep noteSession) Answered labels
      (deviceAtBoot irparamsAddress stores, .zero) := by
  refine h.throughout SessionInv (fun a s t hs hc hstep => ?_) (fun s hs => hs.answered) (.inl rfl)
  exact hs.deviceStep hc hstep

/-- A session in which a code is stored. -/
def learnOnce : List DeviceEvent :=
  [.startLearnIR 1] ++ (frameLevels [90, 90, 11, 11, 11]).map (.sample .compare0) ++
    [.processMain, .processMain, .sysTimer100ms]

theorem sessions_answered_learnOnce :
    FaultMachine.Throughout (FaultMachine.recorded deviceStep noteSession) Answered learnOnce
      (deviceAtBoot 0 blankStores, .zero) :=
  sessions_answered 0 blankStores learnOnce (by decide +kernel)

/-- In a second session nothing is received: its five seconds end without an answer, because the
code of the first one was known. -/
theorem session_not_answered :
    ¬∀ (irparamsAddress : BitVec 32) (stores : StoreState) (labels : List DeviceEvent),
      FaultMachine.Along deviceStep IssuedInTurn labels (deviceAtBoot irparamsAddress stores) →
        FaultMachine.Throughout (FaultMachine.recorded deviceStep noteSession) Answered labels
          (deviceAtBoot irparamsAddress stores, .zero) := by
  intro h
  have hissued : FaultMachine.Along deviceStep IssuedInTurn
      (learnOnce ++ .startLearnIR 2 :: List.replicate 50 .sysTimer100ms)
      (deviceAtBoot 0 blankStores) := by
    decide +kernel
  have hrun : (FaultMachine.run (FaultMachine.recorded deviceStep noteSession)
      (learnOnce ++ .startLearnIR 2 :: List.replicate 50 .sysTimer100ms)
      (deviceAtBoot 0 blankStores, .zero)).map Prod.snd = some ⟨[], true, false⟩ := by
    decide +kernel
  obtain ⟨s, hs, hrecord⟩ := Option.map_eq_some_iff.mp hrun
  have hanswered := ((h 0 blankStores _ hissued).last hs).2.1
  rw [hrecord] at hanswered
  cases hanswered rfl

end IrRemote
