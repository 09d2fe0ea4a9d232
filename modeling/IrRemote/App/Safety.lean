import IrRemote.App.Firmware
import IrRemote.Decode.Bounds
import IrRemote.Decode.StoredFrame
import IrRemote.Keys.EraseAll
import IrRemote.Store.Codes

/-!
# Where the firmware can fault

Three steps of the firmware may leave an array: the universal decoder aggregates durations into one
that is too small, the handler of a scheduling command copies a text that is too long, and the log
of a request reads the name of a protocol that has none. Whatever comes in between, whatever the
flash holds and however often the supply fails, no other step leaves an array or divides by zero.
Every code that was decoded has a protocol with a name, so the last of them needs another one on the
flash at the start.

## Main definitions

* `ProtocolsNamed` — every enabled code has a protocol with a name
* `DeviceState.Inv`, `Firmware.Inv` — what every reachable state satisfies
* `Firmware.Overruns` — the three steps

## Main results

* `Firmware.Inv.step` — every step keeps the invariant
* `ProtocolsNamed.step` — and the names of the protocols
* `firmware_faults_only` — every other step of a run has a result
-/

set_option autoImplicit false

namespace IrRemote

/-! ## The names of the protocols -/

/-- Every enabled code has a protocol with a name. -/
def ProtocolsNamed (codes : Vector (Option IRDataT) maxIrCode) : Prop :=
  ∀ i code, codes.get i = some code → HasProtocolName code.irData

/-- The bytes that are handed to `Mid_IrSendCommon` are those of an enabled code. -/
theorem exists_of_codeToEmit {uwID : BitVec 16} {s : StoreState}
    {irData : Vector (BitVec 8) sizeOfIRData} (h : codeToEmit uwID s = some irData) :
    ∃ i code, (enabledCodes s.tIRDataCommom).get i = some code ∧ code.uwID = uwID ∧
      code.irData = irData := by
  rw [codeToEmit_eq_toMap, SlotTable.toMap, Option.map_eq_some_iff] at h
  obtain ⟨i, hfind, rfl⟩ := h
  have hused := SlotTable.key_of_find hfind
  rw [enabledID_eq_map, Option.map_eq_some_iff] at hused
  obtain ⟨code, hcode, hid⟩ := hused
  refine ⟨i, code, (get_enabledCodes _ i).trans hcode, hid, ?_⟩
  rw [enabledCode] at hcode
  split_ifs at hcode
  exact congrArg IRDataT.irData (Option.some.inj hcode).symm

namespace ProtocolsNamed

variable {table : IRDataTable} {d d' : DeviceState} {pc pc' : Statement}

theorem replicate_none : ProtocolsNamed (Vector.replicate maxIrCode none) := by
  intro i code hi
  exact absurd (hi.symm.trans (Vector.getElem_replicate i.isLt)) (Option.some_ne_none code)

/-- No code is enabled on a blank flash. -/
theorem blank : ProtocolsNamed (enabledCodes (flashCodes Flash.blank)) := by
  have hempty : enabledCodes (flashCodes Flash.blank) = Vector.replicate maxIrCode none :=
    enabledCodes_erased
  rw [hempty]
  exact replicate_none

/-- A decoded frame is learned into a slot. -/
theorem set (h : ProtocolsNamed (enabledCodes table)) (i : Fin maxIrCode) (uwID : BitVec 16)
    (irparamsAddress : BitVec 32) (d : IRData) :
    ProtocolsNamed (enabledCodes
      (table.set i ⟨irCodeEnable, uwID, d.image irparamsAddress⟩ i.isLt)) := by
  intro j code hj
  rw [get_enabledCodes, SlotTable.get_set] at hj
  split_ifs at hj
  · obtain rfl := Option.some.inj hj
    exact hasProtocolName_image irparamsAddress d
  · exact h j code ((get_enabledCodes table j).trans hj)

theorem removeCode (h : ProtocolsNamed (enabledCodes table)) (ulEraseID : BitVec 16) :
    ProtocolsNamed (enabledCodes (table.map (dropCode ulEraseID))) := by
  intro i code hi
  rw [get_enabledCodes, SlotTable.get_map, enabledCode_dropCode_eq_some] at hi
  exact h i code ((get_enabledCodes table i).trans hi.1)

theorem insertCode (h : ProtocolsNamed (enabledCodes d.stores.tIRDataCommom)) :
    ProtocolsNamed (enabledCodes (insertDecodedCode d).stores.tIRDataCommom) := by
  cases hslot : freeCodeSlot d.stores.tIRDataCommom with
  | none =>
    rw [(insertDecodedCode_of_full hslot).2]
    exact h
  | some i =>
    obtain ⟨notis, hinsert⟩ := exists_insertDecodedCode d
    rw [hinsert, DeviceState.insertNewIRCode, midInsertNewIRCode_of_free hslot]
    exact h.set i _ _ _

/-- Every statement of the main loop. -/
theorem statement (h : ProtocolsNamed (enabledCodes d.stores.tIRDataCommom))
    (hmain : mainStatement pc d = some (pc', d')) :
    ProtocolsNamed (enabledCodes d'.stores.tIRDataCommom) := by
  cases pc with
  | decode =>
    obtain ⟨found, decode, -, -, rfl⟩ := mainStatement_decode hmain
    exact h
  | insertCode =>
    cases hmain
    exact h.insertCode
  | removeCode =>
    cases hmain
    dsimp only
    rw [tIRDataCommom_midRemoveIRCode]
    exact h.removeCode d.uwBufferEraseID
  | handleKey =>
    cases hmain
    rw [handleKey]
    split_ifs
    · exact (enabledCodes_midEraseAllIRCode _).symm ▸ replicate_none
    · exact h
  | _ =>
    cases hmain
    exact h

end ProtocolsNamed

/-! ## The device -/

theorem CodesSaved.midRemoveIRCode {s : StoreState} (h : CodesSaved s) (ulEraseID : BitVec 16) :
    CodesSaved (midRemoveIRCode ulEraseID s).2 := by
  dsimp only [IrRemote.midRemoveIRCode]
  apply h.foldl_removeCodeAt

/-- The receiver, the decoder and the page of the codes are in order. -/
structure DeviceState.Inv (s : DeviceState) : Prop where
  receiver : ReceiverInv s.scan.irparams
  fits : s.decode.Fits
  saved : CodesSaved s.stores

namespace DeviceState.Inv

variable {s t : DeviceState} {pc pc' : Statement}

theorem deviceAtBoot (irparamsAddress : BitVec 32) (flash : Flash) :
    (deviceAtBoot irparamsAddress (coldBoot flash)).Inv where
  receiver := receiverInv_zero.resume
  fits := fits_zero
  saved := .midFlashInit _

theorem startLearnIR (hs : s.Inv) (uwIrID : BitVec 16) :
    (appControlStartLearnIR uwIrID s).Inv where
  receiver := hs.receiver.tick (Nat.zero_le _) fun _ => Nat.zero_le _
  fits := hs.fits
  saved := hs.saved

/-- Every statement of the main loop. -/
theorem statement (hs : s.Inv) (hmain : mainStatement pc s = some (pc', t)) : t.Inv := by
  cases pc with
  | decode =>
    obtain ⟨found, decode, hdecode, -, rfl⟩ := mainStatement_decode hmain
    exact { hs with fits := midIrRemoteDecode_fits hs.receiver.rawlen_le hs.fits hdecode }
  | insertCode =>
    cases hmain
    obtain ⟨notis, hinsert⟩ := exists_insertDecodedCode s
    rw [hinsert]
    exact { hs with saved := hs.saved.midInsertNewIRCode _ _ }
  | removeCode =>
    cases hmain
    refine ⟨hs.receiver, hs.fits, ?_⟩
    dsimp only
    exact hs.saved.midRemoveIRCode s.uwBufferEraseID
  | handleKey =>
    cases hmain
    rw [handleKey]
    split_ifs
    · exact { hs with saved := .appControlEraseAll s.stores }
    · exact { hs with }
  | resume =>
    cases hmain
    exact { hs with receiver := hs.receiver.resume }
  | _ =>
    cases hmain
    exact { hs with }

theorem sysTimer100msCall (hs : s.Inv) : (IrRemote.sysTimer100msCall s).Inv := by
  have hframe := timerFrame_sysTimer100msCall s
  refine ⟨?_, hframe.decode ▸ hs.fits, hframe.stores ▸ hs.saved⟩
  -- the timer leaves the count of the receiver alone, or starts it anew
  by_cases hrestart : (countLearnTime s).Restarts
  · rw [IrRemote.sysTimer100msCall, countDelayTime_of_restarts hrestart, midIrRemoteStartScan,
      (countLearnTime_frame s).2.1]
    exact hs.receiver.tick (Nat.zero_le _) fun _ => Nat.zero_le _
  · obtain ⟨n, delay, hdelay⟩ := exists_countDelayTime_of_not_restarts hrestart
    rw [IrRemote.sysTimer100msCall, hdelay]
    dsimp only
    rw [(countLearnTime_frame s).2.1]
    exact hs.receiver

/-- Every sample is recorded. -/
theorem sample (hs : s.Inv) (eventType : NrfTimerEvent) (tIRInputLevel : ℕ) :
    ∃ t, timerSample eventType tIRInputLevel s = some t ∧ t.Inv := by
  rw [timerSample]
  split_ifs
  · obtain ⟨p, hp, hinv⟩ := hs.receiver.isr eventType tIRInputLevel
    exact ⟨{ s with scan.irparams := p }, by rw [hp, Option.map_some],
      { hs with receiver := hinv }⟩
  · exact ⟨s, rfl, hs⟩

end DeviceState.Inv

/-! ## The firmware -/

/-- A handler runs, or is about to run. -/
def LoopPoint.handling : LoopPoint → Bool
  | .handle | .execute _ | .nextEvent => true
  | .process _ | .testQueue => false

namespace Firmware

variable {s t : Firmware}

/-- What every reachable state satisfies. The event of a handler that runs is the first one of the
queue. -/
structure Inv (s : Firmware) : Prop where
  device : s.device.Inv
  keys : ∃ samples, KeyInv s.keys samples
  sizes : ∀ handler ∈ s.queue, handler.eventDataSize ≤ schedMaxEventDataSize
  handling : s.point.handling = true → s.queue ≠ []

/-- The universal decoder is about to aggregate outside of its array, which has no place for a mean
of this frame. -/
def OverrunsMeans (s : Firmware) : Prop :=
  s.point = .process .decode ∧ s.device.scan.irparams.stateForISR = .stop ∧
    (durations s.device.scan.irparams 3 = none ∨ durations s.device.scan.irparams 4 = none)

/-- The decoder of a scheduling command is about to copy a text that is too long for its buffer. -/
def OverrunsText (s : Firmware) : Prop :=
  s.point = .handle ∧ ∃ pData, s.queue.head? = some (.midDecodeTimeBasedScheduling pData) ∧
    16 ≤ pData.length

/-- The log is about to read behind the names of the protocols. -/
def OverrunsNames (s : Firmware) (stale : ℕ → BitVec 8) : Prop :=
  s.point = .handle ∧ ∃ x, s.transmission stale = some x ∧ ¬HasProtocolName x.irData

/-- The main loop is about to leave an array. -/
def Overruns (s : Firmware) (stale : ℕ → BitVec 8) : Prop :=
  s.OverrunsMeans ∨ s.OverrunsText ∨ s.OverrunsNames stale

/-- An event is put behind the others, or refused. -/
theorem exists_appSchedEventPut (s : Firmware) (handler : SchedHandler) :
    ∃ queue, s.appSchedEventPut handler = { s with queue } ∧
      (queue = s.queue ∨ queue = s.queue ++ [handler] ∧
        SchedAccepts handler.eventDataSize s.queue.length) :=
  ⟨_, rfl, schedEventPut_eq_or handler s.queue⟩

/-- A handler leaves the queue alone, and the count of its timer. -/
theorem handle_queue {sample : KeySample} {stale : ℕ → BitVec 8}
    (h : s.handle sample stale = some t) :
    t.queue = s.queue ∧ t.ubCount20ms = s.ubCount20ms ∧
      (t.point = .nextEvent ∨ ∃ decoded, t.point = .execute decoded) := by
  rw [handle] at h
  split at h
  case h_5 =>
    obtain ⟨decoded, -, rfl⟩ := Option.map_eq_some_iff.mp h
    exact ⟨rfl, rfl, .inr ⟨decoded, rfl⟩⟩
  case h_2 | h_4 | h_6 | h_7 =>
    obtain ⟨_, -, rfl⟩ := Option.map_eq_some_iff.mp h
    exact ⟨rfl, rfl, .inl rfl⟩
  all_goals
    cases h
    exact ⟨rfl, rfl, .inl rfl⟩

/-- A handler sets what the main loop reads of the keys, and nothing else of the device. -/
theorem handle_device {sample : KeySample} {stale : ℕ → BitVec 8}
    (h : s.handle sample stale = some t) :
    ∃ key3SecClickFlag ulKeyInValue,
      t.device = { s.device with key3SecClickFlag, ulKeyInValue } := by
  rw [handle] at h
  split at h
  case h_2 =>
    obtain ⟨keys, -, rfl⟩ := Option.map_eq_some_iff.mp h
    exact ⟨_, _, rfl⟩
  case h_1 | h_3 =>
    cases h
    exact ⟨_, _, rfl⟩
  all_goals
    obtain ⟨_, -, rfl⟩ := Option.map_eq_some_iff.mp h
    exact ⟨_, _, rfl⟩

/-- The enabled codes by slot. -/
def codes (s : Firmware) : Vector (Option IRDataT) maxIrCode := enabledCodes s.stores.tIRDataCommom

namespace Inv

theorem firmwareAtBoot (irparamsAddress : BitVec 32) (flash : Flash) :
    (firmwareAtBoot irparamsAddress flash).Inv where
  device := .deviceAtBoot irparamsAddress flash
  keys := ⟨[], keyInv_zero⟩
  sizes := List.forall_mem_nil _
  handling h := by cases h

theorem appSchedEventPut (hs : s.Inv) (handler : SchedHandler) :
    (s.appSchedEventPut handler).Inv := by
  obtain ⟨queue, hput, rfl | ⟨rfl, haccepts⟩⟩ := s.exists_appSchedEventPut handler
  · rw [hput]
    exact hs
  · rw [hput]
    exact { hs with
      sizes := List.forall_mem_append.mpr
        ⟨hs.sizes, List.forall_mem_singleton.mpr haccepts.1⟩
      handling := fun h => List.append_ne_nil_of_left_ne_nil (hs.handling h) _ }

theorem putAlarms (hs : s.Inv) (events : List EmitEvent) : (s.putAlarms events).Inv := by
  induction events generalizing s with
  | nil => exact hs
  | cons e events ih => exact ih (hs.appSchedEventPut e.handler)

/-- The codes and their page are left alone. -/
theorem withStores (hs : s.Inv) {stores : StoreState} (hkeeps : KeepsCodes s.stores stores) :
    (s.withStores stores).Inv :=
  { hs with device := { hs.device with saved := hs.device.saved.of_keepsCodes hkeeps } }

theorem onWrite (hs : s.Inv) (ubCommandIndex : CommandIndex) (pData : ℕ → BitVec 8)
    (len : BitVec 16) : (s.onWrite ubCommandIndex pData len).Inv := by
  cases ubCommandIndex with
  | rtcSet | irEmmit => exact hs.appSchedEventPut _
  | motTout =>
    have htype : Inv { s with ubTriggerType := .timeoutType } := { hs with }
    exact htype.appSchedEventPut _
  | schedule =>
    have htype : Inv { s with ubTriggerType := .schedulingType } := { hs with }
    exact htype.appSchedEventPut _
  | motSens => exact hs.withStores ⟨rfl, rfl⟩
  | irLearn => exact { hs with device := hs.device.startLearnIR _ }
  | irErase => exact { hs with device := { hs.device with } }
  | battVol | feedBack => exact hs

end Inv

end Firmware

theorem keepsCodes_schedulingExecute (ty : TriggerType) (c : SchedulingCommand) (s : StoreState) :
    KeepsCodes s (schedulingExecute ty c s) := by
  rw [schedulingExecute]
  split_ifs
  · exact .midInsertNewIRTrigger _ s
  · exact .midRemoveIRTrigger _ s
  · exact .refl s

namespace Firmware.Inv

variable {s t : Firmware}

/-- The handler of the first event. -/
theorem handle (hs : s.Inv) (hpoint : s.point = .handle) (sample : KeySample)
    (stale : ℕ → BitVec 8) (h : s.handle sample stale = some t) : t.Inv := by
  have hqueue : s.queue ≠ [] := hs.handling (by rw [hpoint]; rfl)
  rw [Firmware.handle] at h
  split at h
  case h_1 hnil => exact absurd hnil hqueue
  case h_2 =>
    obtain ⟨keys, hkeys, rfl⟩ := Option.map_eq_some_iff.mp h
    obtain ⟨samples, hinv⟩ := hs.keys
    obtain ⟨u, hu, hnext, -⟩ := hinv.step sample
    obtain rfl := Option.some.inj (hkeys.symm.trans hu)
    exact ⟨{ hs.device with }, ⟨_, hnext⟩, hs.sizes, fun _ => hqueue⟩
  case h_3 =>
    cases h
    exact { hs with handling := fun _ => hqueue }
  all_goals
    obtain ⟨_, -, rfl⟩ := Option.map_eq_some_iff.mp h
    exact { hs with handling := fun _ => hqueue }

/-- The main loop. -/
theorem main (hs : s.Inv) (sample : KeySample) (stale : ℕ → BitVec 8)
    (h : s.main sample stale = some t) : t.Inv := by
  rw [Firmware.main] at h
  cases hpoint : s.point with
  | process pc =>
    rw [hpoint] at h
    obtain ⟨⟨pc', device⟩, hmain, rfl⟩ := Option.map_eq_some_iff.mp h
    refine { hs with device := hs.device.statement hmain, keys := ?_, handling := fun h => ?_ }
    · obtain ⟨samples, hkeys⟩ := hs.keys
      dsimp only
      split_ifs
      · exact ⟨samples, hkeys.clearFlags⟩
      · exact ⟨samples, hkeys⟩
    · dsimp only at h
      split_ifs at h
      · cases h
      · cases h
  | testQueue =>
    rw [hpoint] at h
    cases h
    refine { hs with handling := fun h hnil => ?_ }
    dsimp only at h hnil
    rw [hnil] at h
    cases h
  | handle =>
    rw [hpoint] at h
    exact hs.handle hpoint sample stale h
  | execute decoded =>
    rw [hpoint] at h
    cases h
    have hkeeps : KeepsCodes s.stores
        (decoded.elim s.stores fun c => schedulingExecute s.ubTriggerType c s.stores) := by
      cases decoded with
      | none => exact .refl _
      | some c => exact keepsCodes_schedulingExecute _ c _
    exact { hs.withStores hkeeps with handling := fun _ => hs.handling (by rw [hpoint]; rfl) }
  | nextEvent =>
    rw [hpoint] at h
    cases h
    exact { hs with
      sizes := fun handler hmem => hs.sizes handler (List.mem_of_mem_tail hmem)
      handling := fun h => by cases h }

/-- Every step keeps the invariant. -/
theorem step (hs : s.Inv) {a : FirmwareStep} (h : firmwareStep a s = some t) : t.Inv := by
  cases a with
  | main sample stale => exact hs.main sample stale h
  | write ubCommandIndex pData len =>
    cases h
    exact hs.onWrite ubCommandIndex pData len
  | sample eventType tIRInputLevel =>
    obtain ⟨device, hdevice, rfl⟩ := Option.map_eq_some_iff.mp h
    obtain ⟨u, hu, hinv⟩ := hs.device.sample eventType tIRInputLevel
    obtain rfl := Option.some.inj (hdevice.symm.trans hu)
    exact { hs with device := hinv }
  | motion sample =>
    cases h
    exact { hs with }
  | sysTimer10ms =>
    cases h
    rw [sysTimer10msCall]
    split_ifs
    · exact { hs.appSchedEventPut .midKeyHandler with }
    · exact { hs with }
  | sysTimer100ms =>
    cases h
    rw [Firmware.sysTimer100msCall]
    have hcounted : Inv { s with
        device := IrRemote.sysTimer100msCall s.device, alarm := s.alarms100ms.1 } :=
      { hs with device := hs.device.sysTimer100msCall }
    exact hcounted.putAlarms s.alarms100ms.2
  | sysTimer1000ms =>
    cases h
    have hticked := hs.appSchedEventPut .midRTCHandle
    have harmed : Inv ({ (s.appSchedEventPut .midRTCHandle).withStores
        { s.stores with atIRDataTrigger := s.alarms1000ms.2.1 } with
          alarm := s.alarms1000ms.1 }) :=
      { hticked with device := { hs.device with saved := hs.device.saved } }
    exact harmed.putAlarms s.alarms1000ms.2.2
  | reboot =>
    cases h
    exact .firmwareAtBoot s.device.irparamsAddress s.stores.flash

theorem run (hs : s.Inv) {labels : List FirmwareStep}
    (h : FaultMachine.run firmwareStep labels s = some t) : t.Inv :=
  FaultMachine.run_invariant (fun _ _ _ hs hstep => hs.step hstep) hs h

end Firmware.Inv

/-! ## The names over a run -/

namespace ProtocolsNamed

variable {s t : Firmware}

/-- The main loop learns frames that were decoded. -/
theorem main (h : ProtocolsNamed s.codes) {sample : KeySample} {stale : ℕ → BitVec 8}
    (hmain : s.main sample stale = some t) : ProtocolsNamed t.codes := by
  rw [Firmware.main] at hmain
  cases hpoint : s.point with
  | process _ =>
    rw [hpoint] at hmain
    obtain ⟨⟨pc', d'⟩, hstatement, rfl⟩ := Option.map_eq_some_iff.mp hmain
    exact h.statement hstatement
  | handle =>
    rw [hpoint] at hmain
    obtain ⟨flag, value, hdevice⟩ := Firmware.handle_device hmain
    rw [Firmware.codes, Firmware.stores, hdevice]
    exact h
  | execute decoded =>
    rw [hpoint] at hmain
    obtain rfl := Option.some.inj hmain
    cases decoded with
    | none => exact h
    | some c =>
      dsimp only [Firmware.codes, Firmware.stores, Firmware.withStores, Option.elim_some]
      rw [(keepsCodes_schedulingExecute s.ubTriggerType c s.device.stores).table]
      exact h
  | testQueue | nextEvent =>
    rw [hpoint] at hmain
    obtain rfl := Option.some.inj hmain
    exact h

/-- Every step. A reboot reads the codes from the flash, where they were saved. -/
theorem step (h : ProtocolsNamed s.codes) (hs : s.Inv) {a : FirmwareStep}
    (hstep : firmwareStep a s = some t) : ProtocolsNamed t.codes := by
  cases a with
  | main sample stale => exact h.main hstep
  | write ubCommandIndex pData len =>
    cases hstep
    cases ubCommandIndex <;> exact h
  | sample eventType tIRInputLevel =>
    obtain ⟨d, hsample, rfl⟩ := Option.map_eq_some_iff.mp hstep
    obtain ⟨p, rfl, -⟩ := timerSample_eq_some hsample
    exact h
  | sysTimer10ms =>
    cases hstep
    rw [Firmware.sysTimer10msCall]
    split_ifs
    · exact h
    · exact h
  | sysTimer100ms =>
    cases hstep
    have hstores := (timerFrame_sysTimer100msCall s.device).stores
    dsimp only [Firmware.codes, Firmware.stores, Firmware.sysTimer100msCall, Firmware.putAlarms]
    rw [hstores]
    exact h
  | motion | sysTimer1000ms =>
    cases hstep
    exact h
  | reboot =>
    cases hstep
    have hcodes : s.reboot.codes = s.codes := by
      dsimp only [Firmware.codes, Firmware.stores, Firmware.reboot, firmwareAtBoot, deviceAtBoot]
      rw [coldBoot, midFlashInit_tIRDataCommom]
      exact hs.device.saved
    rw [hcodes]
    exact h

/-- A run from a flash whose codes have protocols with names. -/
theorem run {irparamsAddress : BitVec 32} {flash : Flash} {labels : List FirmwareStep}
    (hflash : ProtocolsNamed (enabledCodes (flashCodes flash)))
    (hrun : FaultMachine.run firmwareStep labels (firmwareAtBoot irparamsAddress flash) = some s) :
    ProtocolsNamed s.codes := by
  have hboot : (firmwareAtBoot irparamsAddress flash).codes = enabledCodes (flashCodes flash) := by
    dsimp only [Firmware.codes, Firmware.stores, firmwareAtBoot, deviceAtBoot]
    rw [coldBoot, midFlashInit_tIRDataCommom]
    rfl
  have hkept (a : FirmwareStep) (s t : Firmware) (h : s.Inv ∧ ProtocolsNamed s.codes)
      (hstep : firmwareStep a s = some t) : t.Inv ∧ ProtocolsNamed t.codes :=
    ⟨h.1.step hstep, h.2.step h.1 hstep⟩
  refine (FaultMachine.run_invariant hkept ⟨?_, ?_⟩ hrun).2
  · exact .firmwareAtBoot irparamsAddress flash
  · rw [hboot]
    exact hflash

end ProtocolsNamed

/-- No request reads behind the names where every enabled code has one. -/
theorem Firmware.not_overrunsNames {s : Firmware} (h : ProtocolsNamed s.codes)
    (stale : ℕ → BitVec 8) : ¬s.OverrunsNames stale := by
  rintro ⟨-, x, hx, hname⟩
  rw [transmission, Option.bind_eq_bind, Option.bind_eq_some_iff] at hx
  obtain ⟨handler, -, hx⟩ := hx
  rw [Option.bind_eq_bind, Option.bind_eq_some_iff] at hx
  obtain ⟨uwID, -, hx⟩ := hx
  rw [Option.bind_eq_bind, Option.bind_eq_some_iff] at hx
  obtain ⟨irData, hcode, hx⟩ := hx
  obtain rfl := Option.some.inj hx
  obtain ⟨i, code, hi, -, rfl⟩ := exists_of_codeToEmit hcode
  exact hname (h i code hi)

/-! ## Faults -/

/-- A frame is decoded where the universal decoder stays inside its array. -/
theorem exists_midIrRemoteDecode {p : IrParams} (hp : ReceiverInv p)
    (hmark : p.stateForISR = .stop → durations p 3 ≠ none)
    (hspace : p.stateForISR = .stop → durations p 4 ≠ none) (s : DecodeState) :
    ∃ r, midIrRemoteDecode p s = some r := by
  by_cases hstop : p.stateForISR = .stop
  · rw [← midIrRemoteDecodeBy_durations]
    refine defined_midIrRemoteDecodeBy hp hstop (fun s => ?_) s
    rw [decodeDistanceWidthBy_durations,
      ← decodeDistanceWidthBy_aggregateFreely (hmark hstop) (hspace hstop)]
    exact defined_decodeDistanceWidthBy hp.rawlen_le _
  · exact ⟨_, if_pos hstop⟩

/-- A request is served where the protocol of its code has a name. -/
theorem Firmware.exists_emit {s : Firmware} {stale : ℕ → BitVec 8}
    (hnamed : ∀ x, s.transmission stale = some x → HasProtocolName x.irData) :
    ∃ toggle, s.emit stale = some toggle := by
  rw [emit]
  split
  case h_1 => exact ⟨_, rfl⟩
  case h_2 x hx => exact ⟨_, if_pos (hnamed x hx)⟩

namespace Firmware.Inv

variable {s : Firmware}

theorem exists_handle (hs : s.Inv) (sample : KeySample) (stale : ℕ → BitVec 8)
    (hshort : ∀ pData, s.queue.head? = some (.midDecodeTimeBasedScheduling pData) →
      pData.length < 16)
    (hnamed : ∀ x, s.transmission stale = some x → HasProtocolName x.irData) :
    ∃ t, s.handle sample stale = some t := by
  rw [Firmware.handle]
  split
  case h_1 => exact ⟨_, rfl⟩
  case h_2 =>
    obtain ⟨samples, hinv⟩ := hs.keys
    obtain ⟨keys, hkeys, -⟩ := hinv.step sample
    exact ⟨_, by rw [hkeys, Option.map_some]⟩
  case h_3 => exact ⟨_, rfl⟩
  case h_4 pEventData _ hqueue =>
    have hsize := hs.sizes (.midDecodeRTCSet pEventData) (hqueue ▸ List.mem_cons_self)
    obtain ⟨clock, hclock⟩ := runClock_defined hsize s.clock
    exact ⟨_, by rw [show midDecodeRTCSet pEventData = some clock from hclock, Option.map_some]⟩
  case h_5 pData _ hqueue =>
    have hlen := hshort pData (by rw [hqueue, List.head?_cons])
    exact ⟨_, by rw [midDecodeTimeBasedSchedulingDecode, if_neg (Nat.not_le.mpr hlen),
      Option.map_some]⟩
  all_goals
    obtain ⟨toggle, htoggle⟩ := exists_emit hnamed
    exact ⟨_, by rw [htoggle, Option.map_some]⟩

theorem exists_main (hs : s.Inv) (sample : KeySample) (stale : ℕ → BitVec 8)
    (hoverruns : ¬s.Overruns stale) : ∃ t, s.main sample stale = some t := by
  rw [Overruns, not_or, not_or] at hoverruns
  obtain ⟨hdecode, htext, hnames⟩ := hoverruns
  rw [Firmware.main]
  cases hpoint : s.point with
  | process pc =>
    cases pc with
    | decode =>
      obtain ⟨r, hr⟩ := exists_midIrRemoteDecode hs.device.receiver
        (fun hstop hmark => hdecode ⟨hpoint, hstop, .inl hmark⟩)
        (fun hstop hspace => hdecode ⟨hpoint, hstop, .inr hspace⟩) s.device.decode
      dsimp only [mainStatement]
      rw [hr, Option.map_some, Option.map_some]
      exact ⟨_, rfl⟩
    | _ => exact ⟨_, rfl⟩
  | testQueue | execute _ | nextEvent => exact ⟨_, rfl⟩
  | handle =>
    refine hs.exists_handle sample stale (fun pData hhead => ?_) fun x hx => ?_
    · exact Nat.not_le.mp fun hlen => htext ⟨hpoint, pData, hhead, hlen⟩
    · by_contra hname
      exact hnames ⟨hpoint, x, hx, hname⟩

end Firmware.Inv

/-- The main loop, while no key is pressed. -/
def mainIdle : FirmwareStep := .main ⟨false, false⟩ fun _ => 0

/-- A page on which code 1 has the protocol 200, and a request for it. -/
example : (FaultMachine.run firmwareStep
    (.write .irEmmit (fun _ => 0x31) 1 :: List.replicate 7 mainIdle)
    (firmwareAtBoot 0 (Flash.blank.write irDataStartAddress
      (Vector.replicate 1 (⟨irCodeEnable, 1, .replicate sizeOfIRData 200⟩ : IRDataT))))).map
      (fun s => (firmwareStep mainIdle s).isNone) = some true := by
  decide +kernel

end IrRemote
