import IrRemote.App.Safety
import IrRemote.Library.History
import IrRemote.Session.Attribution
import IrRemote.Store.CodeMap

/-!
# What the firmware replays

The app, an alarm or nobody knows who asks for the code of an identifier, and the firmware hands
what it finds in the store to the sender. This was put there when a session ended: it is the record
of the frame that was decoded last, under the identifier that was asked for last, and nothing makes
the frame come in behind the request. It has been through the flash, over any number of reboots, and
the record of the frame is read back from its bytes as it was decoded.

## Main definitions

* `ReplayEvent`, `noteReplay` — the history of a run
* `DecodedLast`, `RequestedLast`, `Learned` — what the history says of a code
* `ServedAsLearned` — what is promised of a request to send a code

## Main results

* `ReplayInv.step` — the store holds exactly the learned codes
* `replays_learned` — every request looks up a learned code, if there is one
-/

set_option autoImplicit false

namespace IrRemote

open History (Since Always)

/-! ## The history of a run -/

/-- An event of the history. A call of the decoder is recorded with what it reads, and a request
to send a code with what it sends. -/
inductive ReplayEvent where
  | rebooted
  | requested (uwIrID : BitVec 16)
  | decoded (irparams : IrParams) (before : DecodeState)
  | learned (uwLearnID : BitVec 16)
  | erased (ulEraseID : BitVec 16)
  | erasedAll
  | emitted (uwID : BitVec 16) (sLastSendToggleValue : BitVec 8) (sent : Option (List TxEvent))

/-- What a statement of `ProcessMain` adds. -/
def noteStatement (pc : Statement) (d : DeviceState) (log : List ReplayEvent) :
    List ReplayEvent :=
  match pc with
  | .decode =>
    if d.scan.irparams.stateForISR = .stop then .decoded d.scan.irparams d.decode :: log else log
  | .insertCode => if d.insertNewIRCode.1 then .learned d.uwBufferLearnID :: log else log
  | .removeCode => .erased d.uwBufferEraseID :: log
  | .handleKey =>
    if d.key3SecClickFlag ∧ d.ulKeyInValue = keySwitch1 then .erasedAll :: log else log
  | _ => log

/-- What the handler of the first event adds. -/
def Firmware.noteHandle (s : Firmware) (stale : ℕ → BitVec 8) (log : List ReplayEvent) :
    List ReplayEvent :=
  (s.queue.head?.bind (Firmware.emitID stale)).elim log fun uwID =>
    .emitted uwID s.sLastSendToggleValue ((s.transmission stale).map fun x => x.send.1) :: log

/-- What a step adds. -/
def noteReplay (a : FirmwareStep) (s _t : Firmware) (log : List ReplayEvent) :
    List ReplayEvent :=
  match a with
  | .main _ stale =>
    match s.point with
    | .process pc => noteStatement pc s.device log
    | .handle => s.noteHandle stale log
    | _ => log
  | .write .irLearn pData len => .requested (convertID pData (len.setWidth 8)) :: log
  | .reboot => .rebooted :: log
  | _ => log

namespace ReplayEvent

/-- The frame that was decoded last is another one, or lost. -/
def EndsDecode : ReplayEvent → Prop
  | .rebooted | .decoded .. => True
  | _ => False

/-- The identifier that was asked for last is another one, or lost. -/
def EndsRequest : ReplayEvent → Prop
  | .rebooted | .requested _ => True
  | _ => False

/-- The codes under the identifier are erased. A reboot does not end them. -/
def EndsCode (uwID : BitVec 16) : ReplayEvent → Prop
  | .erased ulEraseID => ulEraseID = uwID
  | .erasedAll => True
  | _ => False

end ReplayEvent

/-- The frame that was decoded last since the start has this record. -/
def DecodedLast (d : IRData) : List ReplayEvent → Prop :=
  Since ReplayEvent.EndsDecode fun e _ => ∃ p before after, e = .decoded p before ∧
    midIrRemoteDecode p before = some (true, after) ∧ after.decodedIRData = d

/-- The last request since the start was to learn this identifier. -/
def RequestedLast (uwID : BitVec 16) : List ReplayEvent → Prop :=
  Since ReplayEvent.EndsRequest fun e _ => e = .requested uwID

/-- The codes of the identifier were not erased since a record of a known protocol was inserted
under it. When it was inserted, it was that of the frame decoded last, and the identifier the one
asked for last. Which of these two came first is left open. -/
def Learned (uwID : BitVec 16) (d : IRData) : List ReplayEvent → Prop :=
  Since (ReplayEvent.EndsCode uwID) fun e before =>
    e = .learned uwID ∧ d.protocol ≠ .unknown ∧ DecodedLast d before ∧ RequestedLast uwID before

/-- What was sent for a request is what the sender makes of a learned record, and the sender was
called if there is one. For a protocol without a case of its own it sends no mark. -/
structure ServedAsLearned (uwID : BitVec 16) (sLastSendToggleValue : BitVec 8)
    (sent : Option (List TxEvent)) (before : List ReplayEvent) : Prop where
  faithful : ∀ events, sent = some events → ∃ d, Learned uwID d before ∧
    events = (midIrSendCommon d 1 sLastSendToggleValue).1
  complete : ∀ d, Learned uwID d before → sent ≠ none

/-- Every request of the history was served so. -/
def ReplaysLearned : List ReplayEvent → Prop :=
  Always fun e before => ∀ uwID toggle sent, e = .emitted uwID toggle sent →
    ServedAsLearned uwID toggle sent before

/-! ## The store -/

/-- The enabled codes are those that were learned and not erased. -/
structure CodesLearned (irparamsAddress : BitVec 32)
    (codes : Vector (Option IRDataT) maxIrCode) (log : List ReplayEvent) : Prop where
  sound : ∀ i e, codes.get i = some e → ∃ d : IRData, d.Fits ∧
    e.irData = d.image irparamsAddress ∧ Learned e.uwID d log
  complete : ∀ uwID d, Learned uwID d log → ∃ i e, codes.get i = some e ∧ e.uwID = uwID

namespace CodesLearned

variable {irparamsAddress : BitVec 32} {codes : Vector (Option IRDataT) maxIrCode}
  {log : List ReplayEvent} {table : IRDataTable}

/-- An event that neither learns nor erases a code. -/
theorem cons (h : CodesLearned irparamsAddress codes log) (e : ReplayEvent)
    (hends : ∀ uwID, ¬e.EndsCode uwID) (hlearned : ∀ uwID, e ≠ .learned uwID) :
    CodesLearned irparamsAddress codes (e :: log) where
  sound i code hi := by
    obtain ⟨d, hfits, himage, hd⟩ := h.sound i code hi
    exact ⟨d, hfits, himage, hd.cons (hends _)⟩
  complete uwID d hd := by
    obtain ⟨hevent, -⟩ | ⟨-, hd⟩ := History.since_cons.mp hd
    · exact absurd hevent (hlearned uwID)
    · exact h.complete uwID d hd

/-- A frame is learned into a free slot. -/
theorem learn (h : CodesLearned irparamsAddress (enabledCodes table) log) {i : Fin maxIrCode}
    (hfree : enabledCode (table.get i) = none) {uwID : BitVec 16} {d : IRData} (hfits : d.Fits)
    (hprotocol : d.protocol ≠ .unknown) (hdecoded : DecodedLast d log)
    (hrequested : RequestedLast uwID log) :
    CodesLearned irparamsAddress
      (enabledCodes (table.set i ⟨irCodeEnable, uwID, d.image irparamsAddress⟩ i.isLt))
      (.learned uwID :: log) where
  sound j code hj := by
    rw [get_enabledCodes, SlotTable.get_set] at hj
    split_ifs at hj
    · obtain rfl := Option.some.inj hj
      exact ⟨d, hfits, rfl, .head ⟨rfl, hprotocol, hdecoded, hrequested⟩⟩
    · obtain ⟨d', hfits', himage, hd'⟩ := h.sound j code ((get_enabledCodes table j).trans hj)
      exact ⟨d', hfits', himage, hd'.cons id⟩
  complete id d' hd' := by
    obtain ⟨hevent, -⟩ | ⟨-, hd'⟩ := History.since_cons.mp hd'
    · obtain rfl := ReplayEvent.learned.inj hevent
      exact ⟨i, _, by rw [get_enabledCodes, SlotTable.get_set, if_pos rfl]; rfl, rfl⟩
    · obtain ⟨j, code, hj, hid⟩ := h.complete id d' hd'
      refine ⟨j, code, ?_, hid⟩
      -- the slot was free, so this is another one
      rw [get_enabledCodes] at hj ⊢
      rw [SlotTable.get_set, if_neg, hj]
      rintro rfl
      rw [hfree] at hj
      cases hj

/-- The codes of an identifier are erased. -/
theorem erase (h : CodesLearned irparamsAddress (enabledCodes table) log)
    (ulEraseID : BitVec 16) :
    CodesLearned irparamsAddress (enabledCodes (table.map (dropCode ulEraseID)))
      (.erased ulEraseID :: log) where
  sound i code hi := by
    rw [get_enabledCodes, SlotTable.get_map, enabledCode_dropCode_eq_some] at hi
    obtain ⟨hi, hid⟩ := hi
    obtain ⟨d, hfits, himage, hd⟩ := h.sound i code ((get_enabledCodes table i).trans hi)
    exact ⟨d, hfits, himage, hd.cons (Ne.symm hid)⟩
  complete uwID d hd := by
    obtain ⟨hevent, -⟩ | ⟨hends, hd⟩ := History.since_cons.mp hd
    · cases hevent
    · obtain ⟨i, code, hi, rfl⟩ := h.complete uwID d hd
      refine ⟨i, code, ?_, rfl⟩
      rw [get_enabledCodes] at hi ⊢
      rw [SlotTable.get_map, enabledCode_dropCode_eq_some]
      exact ⟨hi, Ne.symm hends⟩

/-- All codes are erased. -/
theorem eraseAll (irparamsAddress : BitVec 32) (log : List ReplayEvent) :
    CodesLearned irparamsAddress (Vector.replicate maxIrCode none) (.erasedAll :: log) where
  sound i code hi := by
    have hempty : (Vector.replicate maxIrCode (none : Option IRDataT)).get i = none :=
      Vector.getElem_replicate i.isLt
    rw [hempty] at hi
    cases hi
  complete uwID d hd := by
    obtain ⟨hevent, -⟩ | ⟨hends, -⟩ := History.since_cons.mp hd
    · cases hevent
    · exact absurd trivial hends

end CodesLearned

/-! ## The frame that waits -/

/-- Nothing but `ProcessMain` passes a frame on. -/
def LoopPoint.protocolKnown : LoopPoint → Bool
  | .process pc => pc.protocolKnown
  | _ => false

/-- The main loop is between the test of the learn flag and the insertion. -/
def LoopPoint.inSession : LoopPoint → Bool
  | .process pc => pc.inSession
  | _ => false

/-- The history knows the record of the last frame, and for which identifier it may be stored. -/
structure FrameNoted (point : LoopPoint) (d : DeviceState) (log : List ReplayEvent) : Prop where
  decoded : d.protocol ≠ .unknown → DecodedLast d.decode.decodedIRData log
  requested : d.appStartLearnIRFlag = true ∨ point.inSession = true →
    RequestedLast d.uwBufferLearnID log
  known : point.protocolKnown = true → d.protocol ≠ .unknown

namespace FrameNoted

variable {point point' : LoopPoint} {pc pc' : Statement} {d d' : DeviceState}
  {log : List ReplayEvent}

theorem cons (h : FrameNoted point d log) (e : ReplayEvent) (hdecode : ¬e.EndsDecode)
    (hrequest : ¬e.EndsRequest) : FrameNoted point d (e :: log) where
  decoded hprotocol := (h.decoded hprotocol).cons hdecode
  requested hsession := (h.requested hsession).cons hrequest
  known := h.known

/-- A step that leaves the frame and the identifier alone. -/
theorem of_frame (h : FrameNoted point d log) (hdecode : d'.decode = d.decode)
    (hid : d'.uwBufferLearnID = d.uwBufferLearnID)
    (hsession : d'.appStartLearnIRFlag = true ∨ point'.inSession = true →
      d.appStartLearnIRFlag = true ∨ point.inSession = true)
    (hknown : point'.protocolKnown = true → d.protocol ≠ .unknown) :
    FrameNoted point' d' log := by
  have hprotocol : d'.protocol = d.protocol :=
    congrArg (fun x => x.decodedIRData.protocol) hdecode
  refine ⟨fun hknown => ?_, fun hs => ?_, fun hpoint => ?_⟩
  · rw [hdecode]
    exact h.decoded (hprotocol ▸ hknown)
  · rw [hid]
    exact h.requested (hsession hs)
  · rw [hprotocol]
    exact hknown hpoint

/-- Any other part of the state may change while the main loop is not in `ProcessMain`. -/
theorem leave (h : FrameNoted point d log) (hsession : point'.inSession = false)
    (hknown : point'.protocolKnown = false) : FrameNoted point' d log :=
  h.of_frame rfl rfl
    (fun hs => .inl (hs.resolve_right (Bool.not_eq_true _ ▸ hsession)))
    fun hpoint => absurd (hknown.symm.trans hpoint) Bool.false_ne_true

theorem deviceAtBoot (irparamsAddress : BitVec 32) (stores : StoreState)
    (log : List ReplayEvent) :
    FrameNoted (.process .testStartLearn) (deviceAtBoot irparamsAddress stores) log where
  decoded h := absurd rfl h
  requested h := by
    obtain h | h := h
    · cases h
    · cases h
  known h := by cases h

/-- The decoder. -/
theorem decode (h : FrameNoted (.process .decode) d log)
    (hmain : mainStatement .decode d = some (pc', d')) :
    FrameNoted (.process pc') d' (noteStatement .decode d log) := by
  obtain ⟨found, decode, hdecode, rfl, rfl⟩ := mainStatement_decode hmain
  rw [noteStatement]
  cases found with
  | false =>
    obtain ⟨hstop, rfl⟩ := midIrRemoteDecode_eq_false hdecode
    rw [if_neg hstop]
    exact h.leave rfl rfl
  | true =>
    rw [if_pos (stateForISR_of_midIrRemoteDecode hdecode)]
    exact {
      decoded := fun _ => .head ⟨_, _, decode, rfl, hdecode, rfl⟩
      requested := fun hsession => (h.requested hsession).cons id
      known := fun hpc => by cases hpc }

/-- The statements other than the decoder pass the frame on. -/
theorem statement (h : FrameNoted (.process pc) d log)
    (hmain : mainStatement pc d = some (pc', d')) (hpc : pc ≠ .decode) :
    FrameNoted (.process pc') d' log := by
  obtain ⟨-, hdecode, hid, hstart, -⟩ := learn_frame hmain hpc
  obtain ⟨-, -, hknown, hsession⟩ := successors_frame (mem_successors hmain) hpc
  refine h.of_frame hdecode hid (fun hs => ?_) fun hs => ?_
  · obtain hs | hs := hs
    · exact .inl (hstart hs)
    · obtain hs | rfl := hsession hs
      · exact .inr hs
      -- a session is entered through the test of the learn flag
      · rw [mainStatement] at hmain
        split_ifs at hmain with hflag
        · exact .inl hflag
        · cases hmain
          cases hs
  · obtain hs | rfl := hknown hs
    · exact h.known hs
    -- and its frame through the test of the protocol
    · cases hmain
      exact of_decide_eq_true hs

end FrameNoted

/-! ## The statements of the main loop -/

/-- The part of the invariant that the device keeps. -/
structure DeviceNoted (point : LoopPoint) (d : DeviceState) (log : List ReplayEvent) : Prop where
  codes : CodesLearned d.irparamsAddress (enabledCodes d.stores.tIRDataCommom) log
  frame : FrameNoted point d log

namespace DeviceNoted

variable {point : LoopPoint} {pc pc' : Statement} {d d' : DeviceState} {log : List ReplayEvent}

/-- The insertion. -/
theorem insertCode (h : DeviceNoted (.process .insertCode) d log) (hsafe : d.Inv)
    (hframe : FrameNoted (.process .testEmit) (insertDecodedCode d) log) :
    DeviceNoted (.process .testEmit) (insertDecodedCode d) (noteStatement .insertCode d log) := by
  rw [noteStatement]
  cases hslot : freeCodeSlot d.stores.tIRDataCommom with
  | none =>
    obtain ⟨hfail, hsame⟩ := insertDecodedCode_of_full hslot
    rw [hfail, if_neg Bool.false_ne_true]
    rw [hsame] at hframe ⊢
    exact ⟨h.codes, hframe⟩
  | some i =>
    obtain ⟨hstored, hinsert⟩ :=
      insertDecodedCode_of_free (by rw [hslot]; exact Option.some_ne_none i)
    rw [if_pos hstored]
    refine ⟨?_, hframe.cons _ id id⟩
    rw [hinsert, DeviceState.insertNewIRCode, midInsertNewIRCode_of_free hslot]
    have hprotocol := h.frame.known rfl
    refine h.codes.learn ?_ hsafe.fits.decodedIRData hprotocol (h.frame.decoded hprotocol)
      (h.frame.requested (.inr rfl))
    exact if_neg (ulStatus_of_freeCodeSlot hslot)

/-- The removal of a code. -/
theorem removeCode (h : DeviceNoted (.process .removeCode) d log) {stores : StoreState}
    (htable : stores.tIRDataCommom = d.stores.tIRDataCommom.map (dropCode d.uwBufferEraseID))
    (hframe : FrameNoted (.process .clearErase) { d with stores } log) :
    DeviceNoted (.process .clearErase) { d with stores }
      (noteStatement .removeCode d log) := by
  refine ⟨?_, hframe.cons _ id id⟩
  dsimp only
  rw [htable]
  exact h.codes.erase d.uwBufferEraseID

/-- The key that erases everything. -/
theorem handleKey (h : DeviceNoted (.process .handleKey) d log)
    (hframe : FrameNoted (.process .testScanDelay) (IrRemote.handleKey d) log) :
    DeviceNoted (.process .testScanDelay) (IrRemote.handleKey d)
      (noteStatement .handleKey d log) := by
  rw [noteStatement]
  split_ifs with herase
  · refine ⟨?_, hframe.cons _ id id⟩
    have hcodes : enabledCodes (IrRemote.handleKey d).stores.tIRDataCommom =
        Vector.replicate maxIrCode none := by
      rw [IrRemote.handleKey, if_pos herase]
      exact enabledCodes_midEraseAllIRCode _
    rw [hcodes]
    exact .eraseAll _ log
  · refine ⟨?_, hframe⟩
    rw [IrRemote.handleKey, if_neg herase]
    exact h.codes

/-- Every statement. -/
theorem statement (h : DeviceNoted (.process pc) d log) (hsafe : d.Inv)
    (hmain : mainStatement pc d = some (pc', d')) :
    DeviceNoted (.process pc') d' (noteStatement pc d log) := by
  cases pc with
  | decode =>
    have hframe := h.frame.decode hmain
    obtain ⟨found, decode, -, rfl, rfl⟩ := mainStatement_decode hmain
    refine ⟨?_, hframe⟩
    rw [noteStatement]
    split_ifs
    · exact h.codes.cons _ (fun _ => id) fun _ hevent => by cases hevent
    · exact h.codes
  | insertCode =>
    have hframe := h.frame.statement hmain (by decide)
    cases hmain
    exact h.insertCode hsafe hframe
  | removeCode =>
    have hframe := h.frame.statement hmain (by decide)
    cases hmain
    exact h.removeCode (tIRDataCommom_midRemoveIRCode d.uwBufferEraseID d.stores) hframe
  | handleKey =>
    have hframe := h.frame.statement hmain (by decide)
    cases hmain
    exact h.handleKey hframe
  | _ =>
    have hframe := h.frame.statement hmain (by simp)
    cases hmain
    exact ⟨h.codes, hframe⟩

/-- A step that touches neither the codes nor the frame. -/
theorem of_frame {point' : LoopPoint} (h : DeviceNoted point d log)
    (haddress : d'.irparamsAddress = d.irparamsAddress)
    (hcodes : d'.stores.tIRDataCommom = d.stores.tIRDataCommom)
    (hframe : FrameNoted point' d' log) : DeviceNoted point' d' log := by
  refine ⟨?_, hframe⟩
  rw [haddress, hcodes]
  exact h.codes

end DeviceNoted

/-! ## Requests to send a code -/

/-- Only a request is served. -/
theorem ReplaysLearned.cons {log : List ReplayEvent} (h : ReplaysLearned log) {e : ReplayEvent}
    (he : ∀ uwID toggle sent, e ≠ .emitted uwID toggle sent) : ReplaysLearned (e :: log) :=
  History.always_cons.mpr
    ⟨fun uwID toggle sent hevent => absurd hevent (he uwID toggle sent), h⟩

theorem ReplaysLearned.noteStatement {log : List ReplayEvent} (h : ReplaysLearned log)
    (pc : Statement) (d : DeviceState) : ReplaysLearned (noteStatement pc d log) := by
  cases pc with
  | decode | insertCode | handleKey =>
    rw [IrRemote.noteStatement]
    split_ifs
    · exact h.cons nofun
    · exact h
  | removeCode => exact h.cons nofun
  | _ => exact h

namespace Firmware

variable {s t : Firmware} {stale : ℕ → BitVec 8} {log : List ReplayEvent}

/-- What is sent for a request. -/
theorem transmission_eq {uwID : BitVec 16} (h : s.queue.head?.bind (emitID stale) = some uwID) :
    s.transmission stale = (codeToEmit uwID s.stores).map fun irData =>
      ⟨uwID, irData, s.sLastSendToggleValue⟩ := by
  obtain ⟨handler, hhead, hid⟩ := Option.bind_eq_some_iff.mp h
  rw [transmission, hhead, Option.bind_eq_bind, Option.bind_some, hid, Option.bind_eq_bind,
    Option.bind_some, Option.map_eq_bind]
  rfl

/-- The handler of a request looks up a learned code, if there is one. -/
theorem replays_noteHandle (h : ReplaysLearned log)
    (hcodes : CodesLearned s.device.irparamsAddress (enabledCodes s.stores.tIRDataCommom) log) :
    ReplaysLearned (s.noteHandle stale log) := by
  rw [noteHandle]
  cases hid : s.queue.head?.bind (emitID stale) with
  | none => exact h
  | some uwID =>
    refine History.always_cons.mpr ⟨fun id toggle sent hevent => ?_, h⟩
    obtain ⟨rfl, rfl, rfl⟩ := ReplayEvent.emitted.inj hevent
    rw [transmission_eq hid]
    cases hcode : codeToEmit uwID s.stores with
    | none =>
      -- no slot is enabled under the identifier, so none was learned
      refine ⟨fun events hsent => (by cases hsent), fun d hd => ?_⟩
      obtain ⟨i, code, hi, rfl⟩ := hcodes.complete uwID d hd
      rw [codeToEmit_eq_toMap, SlotTable.toMap_eq_none_iff] at hcode
      rw [get_enabledCodes] at hi
      refine absurd ?_ (hcode i)
      rw [enabledID_eq_map, hi, Option.map_some]
    | some irData =>
      refine ⟨fun events hsent => ?_, fun _ _ => Option.some_ne_none _⟩
      obtain rfl := Option.some.inj hsent
      obtain ⟨i, code, hi, rfl, rfl⟩ := exists_of_codeToEmit hcode
      obtain ⟨d, hfits, himage, hd⟩ := hcodes.sound i code hi
      -- the bytes of the slot are read back as the record of the frame
      refine ⟨d, hd, ?_⟩
      dsimp only
      rw [Transmission.send, himage, ofImage_image hfits]

/-- Behind a handler the main loop is not in `ProcessMain`. -/
theorem handle_point {sample : KeySample} (h : s.handle sample stale = some t) :
    t.point.inSession = false ∧ t.point.protocolKnown = false := by
  obtain ⟨-, -, hnext | ⟨decoded, hexecute⟩⟩ := handle_queue h
  · rw [hnext]
    exact ⟨rfl, rfl⟩
  · rw [hexecute]
    exact ⟨rfl, rfl⟩

end Firmware

/-- The timer does not move the receiver record. -/
theorem irparamsAddress_sysTimer100msCall (d : DeviceState) :
    (sysTimer100msCall d).irparamsAddress = d.irparamsAddress := by
  have hlearn : (countLearnTime d).irparamsAddress = d.irparamsAddress := by
    by_cases htime : d.TimesOut
    · rw [countLearnTime_of_timesOut htime]
      split_ifs <;> rfl
    · obtain ⟨n, hn⟩ := exists_countLearnTime_of_not_timesOut htime
      rw [hn]
  rw [sysTimer100msCall, ← hlearn]
  by_cases hrestart : (countLearnTime d).Restarts
  · rw [countDelayTime_of_restarts hrestart]
  · obtain ⟨n, delay, hdelay⟩ := exists_countDelayTime_of_not_restarts hrestart
    rw [hdelay]

/-! ## The invariant -/

/-- The store holds exactly the learned codes, and every request was served from it. -/
structure ReplayInv (r : Firmware × List ReplayEvent) : Prop where
  safe : r.1.Inv
  noted : DeviceNoted r.1.point r.1.device r.2
  replays : ReplaysLearned r.2

section Steps

variable {s t : Firmware} {log : List ReplayEvent}

theorem DeviceNoted.handle {sample : KeySample} {stale : ℕ → BitVec 8}
    (h : DeviceNoted s.point s.device log) (hmain : s.handle sample stale = some t) :
    DeviceNoted t.point t.device (s.noteHandle stale log) := by
  obtain ⟨flag, value, hdevice⟩ := Firmware.handle_device hmain
  obtain ⟨hsession, hknown⟩ := Firmware.handle_point hmain
  have hframe : FrameNoted t.point t.device log := by
    rw [hdevice]
    refine h.frame.of_frame rfl rfl ?_ fun hp => ?_
    · rw [hsession]
      exact fun hs => .inl (hs.resolve_right Bool.false_ne_true)
    · rw [hknown] at hp
      cases hp
  have hnoted : DeviceNoted t.point t.device log :=
    h.of_frame (by rw [hdevice]) (by rw [hdevice]) hframe
  rw [Firmware.noteHandle]
  cases s.queue.head?.bind (Firmware.emitID stale) with
  | none => exact hnoted
  | some uwID =>
    exact ⟨hnoted.codes.cons _ (fun _ => id) fun _ hevent => (by cases hevent),
      hnoted.frame.cons _ id id⟩

/-- The main loop. -/
theorem ReplayInv.main {sample : KeySample} {stale : ℕ → BitVec 8} (h : ReplayInv (s, log))
    (hmain : s.main sample stale = some t) :
    ReplayInv (t, noteReplay (.main sample stale) s t log) := by
  have hsafe := h.safe.main sample stale hmain
  have hnoted : DeviceNoted s.point s.device log := h.noted
  rw [Firmware.main] at hmain
  rw [noteReplay]
  cases hpoint : s.point with
  | process pc =>
    rw [hpoint] at hmain hnoted
    obtain ⟨⟨pc', d'⟩, hstatement, rfl⟩ := Option.map_eq_some_iff.mp hmain
    have hnext := hnoted.statement h.safe.device hstatement
    refine ⟨hsafe, ⟨hnext.codes, ?_⟩, h.replays.noteStatement pc s.device⟩
    -- behind `ProcessMain` no frame is passed on
    dsimp only
    split_ifs
    · exact hnext.frame.leave rfl rfl
    · exact hnext.frame
  | testQueue =>
    rw [hpoint] at hmain hnoted
    obtain rfl := Option.some.inj hmain
    refine ⟨hsafe, ⟨hnoted.codes, ?_⟩, h.replays⟩
    dsimp only
    split_ifs
    · exact hnoted.frame.leave rfl rfl
    · exact hnoted.frame.leave rfl rfl
  | handle =>
    rw [hpoint] at hmain
    exact ⟨hsafe, hnoted.handle hmain, Firmware.replays_noteHandle h.replays hnoted.codes⟩
  | execute decoded =>
    rw [hpoint] at hmain hnoted
    obtain rfl := Option.some.inj hmain
    refine ⟨hsafe, hnoted.of_frame rfl ?_ ?_, h.replays⟩
    · cases decoded with
      | none => rfl
      | some c => exact (keepsCodes_schedulingExecute s.ubTriggerType c s.stores).table
    · exact hnoted.frame.of_frame rfl rfl id fun hp => by cases hp
  | nextEvent =>
    rw [hpoint] at hmain hnoted
    obtain rfl := Option.some.inj hmain
    exact ⟨hsafe, ⟨hnoted.codes, hnoted.frame.leave rfl rfl⟩, h.replays⟩

/-- A write of the app. -/
theorem ReplayInv.onWrite (h : ReplayInv (s, log)) (ubCommandIndex : CommandIndex)
    (pData : ℕ → BitVec 8) (len : BitVec 16) :
    ReplayInv (s.onWrite ubCommandIndex pData len,
      noteReplay (.write ubCommandIndex pData len) s t log) := by
  have hsafe := h.safe.onWrite ubCommandIndex pData len
  cases ubCommandIndex with
  | rtcSet | irEmmit | motTout | schedule => exact ⟨hsafe, h.noted, h.replays⟩
  | motSens | battVol | feedBack | irErase =>
    exact ⟨hsafe, h.noted.of_frame rfl rfl (h.noted.frame.of_frame rfl rfl id h.noted.frame.known),
      h.replays⟩
  | irLearn =>
    -- the identifier of the last request is replaced
    refine ⟨hsafe, ⟨h.noted.codes.cons _ (fun _ => id) fun _ hevent => (by cases hevent), ?_⟩,
      h.replays.cons nofun⟩
    exact {
      decoded := fun hprotocol => (h.noted.frame.decoded hprotocol).cons id
      requested := fun _ => .head rfl
      known := h.noted.frame.known }

/-- The supply fails: the codes are read back from the flash. -/
theorem ReplayInv.reboot (h : ReplayInv (s, log)) : ReplayInv (s.reboot, .rebooted :: log) := by
  refine ⟨.firmwareAtBoot _ _, ⟨?_, .deviceAtBoot _ _ _⟩, h.replays.cons nofun⟩
  have hcodes : enabledCodes (coldBoot s.stores.flash).tIRDataCommom =
      enabledCodes s.stores.tIRDataCommom := by
    rw [coldBoot, midFlashInit_tIRDataCommom]
    exact h.safe.device.saved
  refine CodesLearned.cons ?_ _ (fun _ => id) fun _ hevent => by cases hevent
  dsimp only [Firmware.reboot, firmwareAtBoot, IrRemote.deviceAtBoot]
  rw [hcodes]
  exact h.noted.codes

/-- Every step. -/
theorem ReplayInv.step {a : FirmwareStep} {r r' : Firmware × List ReplayEvent} (h : ReplayInv r)
    (hstep : FaultMachine.recorded firmwareStep noteReplay a r = some r') : ReplayInv r' := by
  obtain ⟨s, log⟩ := r
  obtain ⟨t, log'⟩ := r'
  obtain ⟨hfirmware, hnote⟩ := FaultMachine.recorded_eq_some_iff.mp hstep
  dsimp only at hfirmware hnote
  rw [hnote]
  have hsafe : t.Inv := h.safe.step hfirmware
  have hnoted : DeviceNoted s.point s.device log := h.noted
  cases a with
  | main sample stale => exact h.main hfirmware
  | write ubCommandIndex pData len =>
    obtain rfl := Option.some.inj hfirmware
    exact h.onWrite ubCommandIndex pData len
  | sample eventType tIRInputLevel =>
    obtain ⟨d, hsample, rfl⟩ := Option.map_eq_some_iff.mp hfirmware
    obtain ⟨p, rfl, -⟩ := timerSample_eq_some hsample
    exact ⟨hsafe, hnoted.of_frame rfl rfl (hnoted.frame.of_frame rfl rfl id hnoted.frame.known),
      h.replays⟩
  | motion sample =>
    obtain rfl := Option.some.inj hfirmware
    exact ⟨hsafe, hnoted, h.replays⟩
  | sysTimer10ms =>
    obtain rfl := Option.some.inj hfirmware
    refine ⟨hsafe, ?_, h.replays⟩
    rw [Firmware.sysTimer10msCall]
    split_ifs
    · exact hnoted
    · exact hnoted
  | sysTimer100ms =>
    obtain rfl := Option.some.inj hfirmware
    refine ⟨hsafe, ?_, h.replays⟩
    have htimer := timerFrame_sysTimer100msCall s.device
    refine hnoted.of_frame (irparamsAddress_sysTimer100msCall s.device)
      (congrArg StoreState.tIRDataCommom htimer.stores) ?_
    refine hnoted.frame.of_frame htimer.decode htimer.learnID (fun hs => ?_) hnoted.frame.known
    exact hs.imp_left (htimer.startLearn ▸ ·)
  | sysTimer1000ms =>
    obtain rfl := Option.some.inj hfirmware
    refine ⟨hsafe, ?_, h.replays⟩
    exact hnoted.of_frame rfl rfl (hnoted.frame.of_frame rfl rfl id hnoted.frame.known)
  | reboot =>
    obtain rfl := Option.some.inj hfirmware
    exact h.reboot

end Steps

/-! ## Runs -/

theorem replayInv_firmwareAtBoot (irparamsAddress : BitVec 32) :
    ReplayInv (firmwareAtBoot irparamsAddress Flash.blank, []) where
  safe := .firmwareAtBoot irparamsAddress Flash.blank
  noted := by
    refine ⟨⟨fun i code hi => ?_, fun uwID d hd => hd.elim⟩, .deviceAtBoot _ _ _⟩
    -- erased bytes are no code
    have hempty : enabledCodes (coldBoot Flash.blank).tIRDataCommom =
        Vector.replicate maxIrCode none := by
      rw [coldBoot, midFlashInit_tIRDataCommom]
      exact enabledCodes_erased
    have hslot : (enabledCodes (coldBoot Flash.blank).tIRDataCommom).get i = some code := hi
    rw [hempty] at hslot
    exact absurd (hslot.symm.trans (Vector.getElem_replicate i.isLt)) (Option.some_ne_none code)
  replays := trivial

end IrRemote
