import IrRemote.App.Interleaving
import IrRemote.Store.Reboot

/-!
# Erase requests

A request of the app to erase a code sets a flag and leaves the identifier in one variable; the
next `App_ControlHandle` removes the code and then clears the flag. A request that comes in before
the last one was taken up replaces its identifier, and one that comes in between the removal and
the clearing of the flag is cleared with it.

## Main definitions

* `EraseRequest` — a request, with the slots that it is about
* `RequestsHonoured` — behind the first complete `App_ControlHandle` these slots are free of it
* `LosesNoCode` — a request comes in when no other one is lost by it, and is not lost itself

## Main results

* `erase_requests_honoured` — runs in which every request comes in so
-/

set_option autoImplicit false

namespace IrRemote

/-- A request, from its arrival to the end of the first `App_ControlHandle` that begins behind
it. -/
structure EraseRequest where
  uwIrID : BitVec 16
  /-- The slots that were enabled under the identifier and were not learned again since. -/
  slots : Fin maxIrCode → Bool
  /-- `App_ControlHandle` has begun. -/
  handling : Bool

/-- The learned codes. -/
def ProgramState.codes (s : ProgramState) : IRDataTable := s.device.stores.tIRDataCommom

/-- The record of the requests. -/
def noteRequests (a : Activity) (s _t : ProgramState) (requests : List EraseRequest) :
    List EraseRequest :=
  match a with
  | .eraseIR uwIrID =>
    requests ++ [⟨uwIrID, fun i => (s.codes.get i).enabledID = some uwIrID, false⟩]
  | .main =>
    match s.pc with
    | .testStartLearn => requests.map fun r => { r with handling := true }
    | .insertCode =>
      requests.map fun r => { r with slots := fun i => r.slots i && freeCodeSlot s.codes ≠ some i }
    -- `App_ControlHandle` is complete
    | .testScanDelay => requests.filter fun r => !r.handling
    | _ => requests
  | _ => requests

/-- No slot of the request is enabled under its identifier any more. -/
def EraseRequest.Done (r : EraseRequest) (s : ProgramState) : Prop :=
  ∀ i, r.slots i = true → (s.codes.get i).enabledID ≠ some r.uwIrID

/-- When `App_ControlHandle` is complete, the requests it has begun with are done. -/
def RequestsHonoured (s : ProgramState × List EraseRequest) : Prop :=
  s.1.pc = .testScanDelay → ∀ r ∈ s.2, r.handling = true → r.Done s.1

/-- A request does not come in while another one is pending, unless that one has the same
identifier or no code under its own; nor before the flag of the last one is cleared, unless it has
no code itself. -/
def LosesNoCode (a : Activity) (s : ProgramState) : Prop :=
  match a with
  | .eraseIR uwIrID =>
    s.device.appStartEraseIRFlag = true →
      if s.pc = .clearErase then ∀ i, (s.codes.get i).enabledID ≠ some uwIrID
      else uwIrID = s.device.uwBufferEraseID ∨
        ∀ i, (s.codes.get i).enabledID ≠ some s.device.uwBufferEraseID
  | _ => True

/-! ## The invariant -/

/-- The statements of `App_ControlHandle` behind the first one and up to the removal. -/
def Statement.beforeRemoval : Statement → Bool
  | .testStartLearn | .clearErase | .handleKey | .testScanDelay | .decode | .stopScan | .resume
  | .setScanDelay | .setDetect => false
  | _ => true

/-- The request will be taken up: its identifier is the one that is pending, and an
`App_ControlHandle` that has begun has not come to the removal. -/
structure EraseRequest.Pending (r : EraseRequest) (s : ProgramState) : Prop where
  flag : s.device.appStartEraseIRFlag = true
  id : s.device.uwBufferEraseID = r.uwIrID
  kept : s.pc ≠ .clearErase
  ahead : r.handling = true → s.pc.beforeRemoval

/-- Every request is done, or it is pending. -/
structure EraseInv (s : ProgramState × List EraseRequest) : Prop where
  flag : s.1.pc = .removeCode ∨ s.1.pc = .clearErase → s.1.device.appStartEraseIRFlag = true
  key : s.1.device.key3SecClickFlag = false
  requests : ∀ r ∈ s.2, r.Done s.1 ∨ r.Pending s.1

section Steps

variable {s t : ProgramState} {d d' : DeviceState} {pc pc' : Statement} {r : EraseRequest}
  {requests : List EraseRequest}

theorem EraseRequest.Done.of_codes (h : r.Done s) (hcodes : t.codes = s.codes) : r.Done t := by
  intro i hi
  rw [hcodes]
  exact h i hi

/-- The requests are where they were behind a step that touches neither the codes nor the
requests, and in the main loop comes no further than to the removal. -/
theorem EraseInv.of_frame (h : EraseInv (s, requests)) (hcodes : t.codes = s.codes)
    (hflag : t.device.appStartEraseIRFlag = s.device.appStartEraseIRFlag)
    (hid : t.device.uwBufferEraseID = s.device.uwBufferEraseID)
    (hkey : t.device.key3SecClickFlag = s.device.key3SecClickFlag)
    (hremove : t.pc = .removeCode → s.device.appStartEraseIRFlag = true)
    (hclear : t.pc = .clearErase → s.pc = .clearErase)
    (hahead : s.pc.beforeRemoval = true → t.pc.beforeRemoval = true) :
    EraseInv (t, requests) where
  flag := by
    rintro (hpc | hpc)
    · exact hflag.trans (hremove hpc)
    · exact hflag.trans (h.flag (.inr (hclear hpc)))
  key := hkey.trans h.key
  requests := fun r hr => by
    obtain hdone | hpending := h.requests r hr
    · exact .inl (hdone.of_codes hcodes)
    · refine .inr ⟨hflag.trans hpending.flag, hid.trans hpending.id, fun hpc => ?_, fun hr => ?_⟩
      · exact hpending.kept (hclear hpc)
      · exact hahead (hpending.ahead hr)

/-- The statements that touch neither the codes nor the requests. -/
theorem erase_frame (h : mainStatement pc d = some (pc', d'))
    (hpc : pc ∉ [Statement.insertCode, .removeCode, .clearErase, .handleKey]) :
    d'.stores = d.stores ∧ d'.appStartEraseIRFlag = d.appStartEraseIRFlag ∧
      d'.uwBufferEraseID = d.uwBufferEraseID ∧ d'.key3SecClickFlag = d.key3SecClickFlag := by
  cases pc with
  | decode =>
    obtain ⟨found, decode, -, -, rfl⟩ := mainStatement_decode h
    exact ⟨rfl, rfl, rfl, rfl⟩
  | insertCode | removeCode | clearErase | handleKey => exact absurd (by decide) hpc
  | _ =>
    cases h
    exact ⟨rfl, rfl, rfl, rfl⟩

/-- The way to the removal. -/
theorem successors_removal (h : pc' ∈ pc.successors) (hpc : pc ∉ [.testErase, .removeCode]) :
    pc' ≠ .removeCode ∧ pc' ≠ .clearErase ∧
      (pc.beforeRemoval = true → pc'.beforeRemoval = true) := by
  revert hpc h pc'
  cases pc with
  | clearDetect known | clearStartLearn known | clearCountStart known => cases known <;> decide
  | _ => decide

theorem EraseInv.subset {requests' : List EraseRequest} (h : EraseInv (s, requests))
    (hsub : ∀ r ∈ requests', r ∈ requests) : EraseInv (s, requests') :=
  ⟨h.flag, h.key, fun r hr => h.requests r (hsub r hr)⟩

/-- `App_ControlHandle` begins with every request there is. -/
theorem EraseInv.begin (h : EraseInv (⟨.testStartLearn, d⟩, requests))
    (hpc : pc = .testDetect ∨ pc = .testEmit) :
    EraseInv (⟨pc, d⟩, requests.map fun r => { r with handling := true }) := by
  have hpc' : pc ≠ .removeCode ∧ pc ≠ .clearErase ∧ pc.beforeRemoval = true := by
    obtain rfl | rfl := hpc <;> decide
  refine ⟨fun hflag => ?_, h.key, ?_⟩
  · obtain hflag | hflag := hflag
    · exact absurd hflag hpc'.1
    · exact absurd hflag hpc'.2.1
  · intro _ hmem
    obtain ⟨r, hr, rfl⟩ := List.mem_map.mp hmem
    obtain hdone | hpending := h.requests r hr
    · exact .inl hdone
    · exact .inr ⟨hpending.flag, hpending.id, hpc'.2.1, fun _ => hpc'.2.2⟩

/-- An insertion changes a slot that was not enabled, and the requests are not about it. -/
theorem EraseInv.insert (h : EraseInv (⟨.insertCode, d⟩, requests)) :
    EraseInv (⟨.testEmit, insertDecodedCode d⟩, requests.map fun r =>
      { r with slots := fun i => r.slots i && freeCodeSlot d.stores.tIRDataCommom ≠ some i }) := by
  obtain ⟨notis, hinsert⟩ := exists_insertDecodedCode d
  rw [hinsert]
  refine ⟨fun h => ?_, h.key, ?_⟩
  · obtain h | h := h <;> cases h
  intro _ hmem
  obtain ⟨r, hr, rfl⟩ := List.mem_map.mp hmem
  obtain hdone | hpending := h.requests r hr
  · refine .inl fun i hi hid => ?_
    rw [Bool.and_eq_true, decide_eq_true_eq] at hi
    -- the request is not about the slot of the new code, and the others are kept
    have hkept : d.insertNewIRCode.2.tIRDataCommom.get i = d.stores.tIRDataCommom.get i :=
      get_midInsertNewIRCode hi.2
    exact hdone i hi.1 ((congrArg IRDataT.enabledID hkept).symm.trans hid)
  · refine .inr ⟨hpending.flag, hpending.id, fun h => ?_, fun _ => rfl⟩
    cases h

/-- The removal does what is pending. -/
theorem EraseInv.remove (h : EraseInv (⟨.removeCode, d⟩, requests)) :
    EraseInv (⟨.clearErase, { d with
      stores := (midRemoveIRCode d.uwBufferEraseID d.stores).2 }⟩, requests) := by
  refine ⟨fun _ => h.flag (.inl rfl), h.key, fun r hr => .inl fun i hi hid => ?_⟩
  have htable : (midRemoveIRCode d.uwBufferEraseID d.stores).2.tIRDataCommom.get i =
      dropCode d.uwBufferEraseID (d.stores.tIRDataCommom.get i) := by
    rw [tIRDataCommom_midRemoveIRCode, SlotTable.get_map]
  replace hid := (congrArg IRDataT.enabledID htable).symm.trans hid
  obtain hdone | hpending := h.requests r hr
  -- a request that is done stays so, since a removal enables no slot
  · by_cases hdrop : (d.stores.tIRDataCommom.get i).enabledID = some d.uwBufferEraseID
    · rw [dropCode, if_pos hdrop, IRDataT.enabledID, if_neg irCodeDisable_ne_enable] at hid
      cases hid
    · rw [dropCode_of_ne hdrop] at hid
      exact hdone i hi hid
  -- a pending one is for the identifier that is removed
  · rw [← hpending.id] at hid
    exact enabledID_dropCode_ne _ _ hid

/-- Where nothing is pending, every request is done. -/
theorem EraseInv.done (h : EraseInv (s, requests))
    (hnone : s.device.appStartEraseIRFlag = false ∨ s.pc = .clearErase) :
    ∀ r ∈ requests, r.Done s := by
  intro r hr
  obtain hdone | hpending := h.requests r hr
  · exact hdone
  · obtain hoff | hpc := hnone
    · rw [hpending.flag] at hoff
      cases hoff
    · exact absurd hpc hpending.kept

/-- Requests that are done stay so in a state with the same codes. -/
theorem EraseInv.of_done (hdone : ∀ r ∈ requests, r.Done s) (hcodes : t.codes = s.codes)
    (hpc : t.pc ≠ .removeCode ∧ t.pc ≠ .clearErase)
    (hkey : t.device.key3SecClickFlag = false) : EraseInv (t, requests) := by
  refine ⟨fun h => ?_, hkey, fun r hr => .inl ((hdone r hr).of_codes hcodes)⟩
  obtain h | h := h
  · exact absurd h hpc.1
  · exact absurd h hpc.2

/-- The next statement. -/
theorem EraseInv.main (h : EraseInv (⟨pc, d⟩, requests))
    (hmain : mainStatement pc d = some (pc', d')) :
    EraseInv (⟨pc', d'⟩, noteRequests .main ⟨pc, d⟩ ⟨pc', d'⟩ requests) := by
  have hsucc := mem_successors hmain
  cases pc with
  | testStartLearn =>
    cases hmain
    refine h.begin ?_
    split_ifs
    · exact .inl rfl
    · exact .inr rfl
  | insertCode =>
    cases hmain
    exact h.insert
  | removeCode =>
    cases hmain
    exact h.remove
  | testErase =>
    cases hmain
    cases hflag : d.appStartEraseIRFlag with
    | true =>
      rw [if_pos rfl]
      exact h.of_frame rfl rfl rfl rfl (fun _ => hflag) (fun h => by cases h) fun _ => rfl
    | false =>
      -- there is nothing to remove
      rw [if_neg Bool.false_ne_true]
      exact EraseInv.of_done (h.done (.inl hflag)) rfl (by simp) h.key
  | clearErase =>
    cases hmain
    exact EraseInv.of_done (h.done (.inr rfl)) rfl (by simp) h.key
  | handleKey =>
    cases hmain
    -- no key is pressed in these runs, so the stores are not erased
    have hkey : handleKey d = { d with key3SecClickFlag := false } := by
      have hoff : d.key3SecClickFlag = false := h.key
      rw [handleKey, hoff]
      simp
    rw [hkey]
    exact h.of_frame rfl rfl rfl h.key.symm (fun h => by cases h) (fun h => by cases h) fun h => h
  | testScanDelay =>
    obtain ⟨hremove, hclear, hahead⟩ := successors_removal hsucc (by simp)
    cases hmain
    have hnext : EraseInv (⟨if d.irScanDelayFlag then .testStartLearn else .decode, d⟩, requests) :=
      h.of_frame rfl rfl rfl rfl (fun h => absurd h hremove) (fun h => absurd h hclear) hahead
    exact hnext.subset fun r hr => (List.mem_filter.mp hr).1
  | _ =>
    obtain ⟨hstores, hflag, hid, hkey⟩ := erase_frame hmain (by simp)
    obtain ⟨hremove, hclear, hahead⟩ := successors_removal hsucc (by simp)
    exact h.of_frame (congrArg StoreState.tIRDataCommom hstores) hflag hid hkey
      (fun h => absurd h hremove) (fun h => absurd h hclear) hahead

/-- A request comes in. -/
theorem EraseInv.eraseIR {uwIrID : BitVec 16} (h : EraseInv (s, requests))
    (hc : LosesNoCode (.eraseIR uwIrID) s) :
    EraseInv (⟨s.pc, appControlEraseIR uwIrID s.device⟩, noteRequests (.eraseIR uwIrID) s
      ⟨s.pc, appControlEraseIR uwIrID s.device⟩ requests) := by
  refine ⟨fun _ => rfl, h.key, fun r hr => ?_⟩
  obtain hr | hr := List.mem_append.mp hr
  · obtain hdone | hpending := h.requests r hr
    · exact .inl hdone
    · obtain hid | hnone : uwIrID = s.device.uwBufferEraseID ∨
          ∀ i, (s.codes.get i).enabledID ≠ some s.device.uwBufferEraseID := by
        have := hc hpending.flag
        rwa [if_neg hpending.kept] at this
      · exact .inr ⟨rfl, hid.trans hpending.id, hpending.kept, hpending.ahead⟩
      -- the identifier is overwritten, but no code was left under it
      · exact .inl fun i _ => hpending.id ▸ hnone i
  · obtain rfl := List.mem_singleton.mp hr
    by_cases hpc : s.pc = .clearErase
    -- the flag is about to be cleared, and the request with it
    · have hnone := hc (h.flag (.inr hpc))
      rw [if_pos hpc] at hnone
      exact .inl fun i _ => hnone i
    · exact .inr ⟨rfl, rfl, hpc, fun h => by cases h⟩

theorem EraseInv.programStep {a : Activity} {s t : ProgramState × List EraseRequest}
    (h : EraseInv s) (hc : LosesNoCode a s.1)
    (hstep : FaultMachine.recorded programStep noteRequests a s = some t) : EraseInv t := by
  obtain ⟨hprogram, hnote⟩ := FaultMachine.recorded_eq_some_iff.mp hstep
  obtain ⟨t, requests⟩ := t
  dsimp only at hprogram hnote
  subst hnote
  cases a with
  | main =>
    obtain ⟨⟨pc', d'⟩, hmain, rfl⟩ := Option.map_eq_some_iff.mp hprogram
    exact h.main hmain
  | eraseIR uwIrID =>
    obtain rfl := Option.some.inj hprogram
    exact h.eraseIR hc
  | startLearnIR uwIrID =>
    obtain rfl := Option.some.inj hprogram
    exact h.of_frame rfl rfl rfl rfl (fun hpc => h.flag (.inl hpc)) id id
  | sample eventType tIRInputLevel =>
    obtain ⟨d, hsample, rfl⟩ := Option.map_eq_some_iff.mp hprogram
    obtain ⟨p, rfl, -⟩ := timerSample_eq_some hsample
    exact h.of_frame rfl rfl rfl rfl (fun hpc => h.flag (.inl hpc)) id id
  | sysTimer100ms =>
    obtain rfl := Option.some.inj hprogram
    have hframe := timerFrame_sysTimer100msCall s.1.device
    exact h.of_frame (congrArg StoreState.tIRDataCommom hframe.stores) hframe.erase hframe.eraseID
      hframe.key (fun hpc => h.flag (.inl hpc)) id id

end Steps

/-- Every request is honoured in a run in which each comes in without losing a code. -/
theorem erase_requests_honoured (irparamsAddress : BitVec 32) (stores : StoreState)
    (labels : List Activity)
    (h : FaultMachine.Along (FaultMachine.recorded programStep noteRequests)
      (fun a s => LosesNoCode a s.1) labels (programAtBoot irparamsAddress stores, [])) :
    FaultMachine.Throughout (FaultMachine.recorded programStep noteRequests) RequestsHonoured labels
      (programAtBoot irparamsAddress stores, []) := by
  refine h.throughout EraseInv (fun a s t hs hc hstep => hs.programStep hc hstep) ?_ ?_
  · intro s hs hpc r hr hhandling
    obtain hdone | hpending := hs.requests r hr
    · exact hdone
    · have hahead := hpending.ahead hhandling
      rw [hpc] at hahead
      cases hahead
  · refine ⟨fun h => ?_, rfl, fun r hr => by cases hr⟩
    obtain h | h := h <;> cases h

/-- The stores with a code under each of the identifiers. -/
def storesWith (ids : List (BitVec 16)) : StoreState :=
  ids.foldl (fun s id => (midInsertNewIRCode (Vector.replicate sizeOfIRData 0) id s).2) blankStores

/-- A request between two passes of the main loop. -/
theorem erase_requests_honoured_single :
    FaultMachine.Throughout (FaultMachine.recorded programStep noteRequests) RequestsHonoured
      (.eraseIR 1 :: List.replicate 6 .main) (programAtBoot 0 (storesWith [1, 2]), []) := by
  refine erase_requests_honoured 0 (storesWith [1, 2]) _ ⟨?_, fun s _ => ?_⟩
  · intro hflag
    cases hflag
  · refine FaultMachine.along_of_forall (fun a ha s => ?_) s
    rw [List.eq_of_mem_replicate ha]
    trivial

/-- The second request comes in before the main loop has taken up the first one. -/
theorem erase_request_lost :
    ¬∀ (irparamsAddress : BitVec 32) (stores : StoreState) (labels : List Activity),
      FaultMachine.Throughout (FaultMachine.recorded programStep noteRequests) RequestsHonoured
        labels (programAtBoot irparamsAddress stores, []) := by
  intro h
  have hrun : (FaultMachine.run (FaultMachine.recorded programStep noteRequests)
      ([.eraseIR 1, .eraseIR 2] ++ List.replicate 6 .main)
      (programAtBoot 0 (storesWith [1, 2]), [])).map (fun s => (s.1.pc, s.2.any fun r =>
        r.handling && r.slots ⟨0, by decide⟩ &&
          (s.1.codes.get ⟨0, by decide⟩).enabledID = some r.uwIrID)) =
      some (.testScanDelay, true) := by
    decide +kernel
  obtain ⟨s, hs, hlost⟩ := Option.map_eq_some_iff.mp hrun
  obtain ⟨hpc, hany⟩ := Prod.mk.inj hlost
  obtain ⟨r, hr, hr'⟩ := List.any_eq_true.mp hany
  simp only [Bool.and_eq_true, decide_eq_true_eq] at hr'
  have hhonoured := (h 0 (storesWith [1, 2]) _).last hs
  exact hhonoured hpc r hr hr'.1.1 _ hr'.1.2 hr'.2

end IrRemote
