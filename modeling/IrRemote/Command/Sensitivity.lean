import IrRemote.Command.Queue

/-!
# The sensitivity of a trigger

A write to the sensitivity characteristic is stored at once, and the next trigger that is created
takes the value and leaves `0xFF` behind. The commands that create the triggers wait in the queue,
so a value may be taken by a command that was written before it. Nothing stores `0xFF` at the
start: the first trigger takes the zero that the variable holds then.

## Main definitions

* `SensStep`, `sensStep` — the writes to the sensitivity characteristic, and the command queue
* `SensRecord` — the values that were written, and which of them the commands should have
* `AttributesSensitivity` — every trigger has the sensitivity that was written for it
* `KnowsSensitivity` — the last value was written before the command, and no older one is left

## Main results

* `sensitivity_attributed` — the runs in which every trigger has its own sensitivity
-/

set_option autoImplicit false

namespace IrRemote

/-! ## The events -/

/-- `Mid_DecodeCommand` for the sensitivity characteristic. -/
def decodeMotSens (ubData : BitVec 8) (s : StoreState) : StoreState :=
  { s with ubMotionSensTemp := (convertCharToHex ubData).getD s.ubMotionSensTemp }

/-- A write of one hexadecimal digit to the sensitivity characteristic, or an event of the command
queue. -/
inductive SensStep where
  | motSens (digit : { c : BitVec 8 // IsHexDigit c })
  | command (a : QueueStep)

/-- The sensitivity is stored at once. -/
def sensStep (a : SensStep) (s : QueueState) : Option QueueState :=
  match a with
  | .motSens digit => some { s with stores := decodeMotSens digit s.stores }
  | .command a => queueStep a s

/-- The start of the device, from any content of the flash. The variable of the sensitivity is
zero. -/
def sensAtBoot (stores : StoreState) : QueueState :=
  queueAtBoot (midFlashInit { stores with ubMotionSensTemp := 0 })

/-- The trigger that the handler is about to insert. -/
def createOfHead (s : QueueState) : Option IrDataTrigger :=
  match s.queue, s.decoded with
  | _ :: _, some (some c) =>
    if c.ubCommand = createCommand then some (schedulingMode s.ubTriggerType c) else none
  | _, _ => none

/-- The slot that an insertion takes, unless it is rejected. -/
def insertSlot (tIRDataTrigger : IrDataTrigger) (s : StoreState) : Option (Fin maxIrCode) :=
  if (midInsertNewIRTrigger tIRDataTrigger s).1 then freeTriggerSlot s.atIRDataTrigger else none

/-- The slot that the handler is about to fill. -/
def createSlot (s : QueueState) : Option (Fin maxIrCode) :=
  (createOfHead s).bind fun t => insertSlot t s.stores

/-! ## The record -/

/-- The sensitivity of a trigger that was created, and the one it should have. -/
structure SensGrant where
  stored : BitVec 8
  expected : BitVec 8
  deriving DecidableEq

/-- The record of a run. -/
structure SensRecord where
  /-- The values written to the sensitivity characteristic. -/
  values : List (BitVec 8)
  /-- For the commands in the queue, how many values had been written before them. -/
  marks : List ℕ
  /-- The places of the values that triggers have used. -/
  used : List ℕ
  grants : List SensGrant
  /-- The variable before and behind the commands that were rejected. -/
  refusals : List (BitVec 8 × BitVec 8)

/-- Nothing was written. -/
def SensRecord.zero : SensRecord := ⟨[], [], [], [], []⟩

/-- The last of the first `mark` values that no trigger has used. -/
def SensRecord.lastUnused (h : SensRecord) (mark : ℕ) : Option ℕ :=
  ((List.range mark).filter fun k => k ∉ h.used).getLast?

/-- The sensitivity that belongs to a command written behind `mark` values. -/
def SensRecord.expected (h : SensRecord) (mark : ℕ) : BitVec 8 :=
  match h.lastUnused mark with
  | some k => convertSensitivityToLevel (h.values.getD k 0)
  | none => 0

/-- What the execution of a command adds to the record. -/
def noteCreate (s t : QueueState) (h : SensRecord) : SensRecord :=
  let mark := h.marks.headD 0
  match createOfHead s, createSlot s with
  | some _, some i => { h with
      marks := h.marks.tail
      used := h.used ++ (h.lastUnused mark).toList
      grants := h.grants ++ [⟨(t.stores.atIRDataTrigger.get i).ubMotionSen, h.expected mark⟩] }
  | some _, none => { h with
      marks := h.marks.tail
      refusals := h.refusals ++ [(s.stores.ubMotionSensTemp, t.stores.ubMotionSensTemp)] }
  | none, _ => { h with marks := h.marks.tail }

/-- What an event adds to the record. -/
def noteSens (a : SensStep) (s t : QueueState) (h : SensRecord) : SensRecord :=
  match a with
  | .motSens digit => { h with values := h.values ++ [(convertCharToHex digit).getD 0] }
  | .command (.write _ _) =>
    if s.queue.length < t.queue.length then { h with marks := h.marks ++ [h.values.length] } else h
  | .command .decode => h
  | .command .execute => if t.queue.length < s.queue.length then noteCreate s t h else h

/-- Every trigger was stored with the sensitivity that belongs to its command, and no command that
was rejected has used a value up. -/
def AttributesSensitivity (r : QueueState × SensRecord) : Prop :=
  (∀ g ∈ r.2.grants, g.stored = g.expected) ∧ ∀ x ∈ r.2.refusals, x.1 = x.2

/-- No value was written since the command that is about to create a trigger. It is not the first
one, or a value was written; and of the values only the last one may be left over. -/
def KnowsSensitivity (a : SensStep) (r : QueueState × SensRecord) : Prop :=
  match a with
  | .command .execute =>
    (createSlot r.1).isSome →
      r.2.marks.headD 0 = r.2.values.length ∧ (r.2.values ≠ [] ∨ r.2.grants ≠ []) ∧
        ∀ k ∈ r.2.lastUnused r.2.values.length, k + 1 = r.2.values.length
  | _ => True

instance : (a : SensStep) → (r : QueueState × SensRecord) → Decidable (KnowsSensitivity a r)
  | .command .execute, _ => inferInstanceAs (Decidable (_ → _ ∧ _ ∧ _))
  | .motSens _, _ | .command (.write _ _), _ | .command .decode, _ =>
    inferInstanceAs (Decidable True)

/-! ## What an execution stores -/

section Executions

variable {s : QueueState} {trigger : IrDataTrigger} {i : Fin maxIrCode} {c c' : SchedulingCommand}
  {ty : TriggerType} {token : List (BitVec 8)} {tokens : List (List (BitVec 8))}

/-- No token of a command is a sensitivity. -/
theorem decodeNext_ubMotionSen (h : decodeNext ty c token = some c') :
    c'.tIRDataTrigger.ubMotionSen = c.tIRDataTrigger.ubMotionSen := by
  rw [decodeNext] at h
  obtain ⟨d, hd, hc'⟩ := Option.bind_eq_some_iff.mp h
  obtain rfl := Option.some.inj hc'
  unfold decodeComponent at hd
  split at hd
  case h_1 =>
    dsimp only at hd
    split_ifs at hd
    obtain rfl := Option.some.inj hd
    rfl
  case h_5 =>
    cases ty with
    | noneType =>
      obtain rfl := Option.some.inj hd
      rfl
    | schedulingType =>
      obtain ⟨tTime1, -, rfl⟩ := Option.map_eq_some_iff.mp hd
      rfl
    | timeoutType =>
      obtain ⟨ulTimeOutTemp, -, rfl⟩ := Option.map_eq_some_iff.mp hd
      rfl
  case h_7 =>
    obtain rfl := Option.some.inj hd
    rfl
  all_goals
    obtain ⟨ubTemp, -, rfl⟩ := Option.map_eq_some_iff.mp hd
    rfl

theorem foldlM_decodeNext_ubMotionSen (h : tokens.foldlM (decodeNext ty) c = some c') :
    c'.tIRDataTrigger.ubMotionSen = c.tIRDataTrigger.ubMotionSen := by
  induction tokens generalizing c with
  | nil =>
    obtain rfl := Option.some.inj h
    rfl
  | cons token tokens ih =>
    rw [List.foldlM_cons] at h
    obtain ⟨d, hd, h⟩ := Option.bind_eq_some_iff.mp h
    exact (ih h).trans (decodeNext_ubMotionSen hd)

theorem ubMotionSen_schedulingMode (ty : TriggerType) (c : SchedulingCommand) :
    (schedulingMode ty c).ubMotionSen = c.tIRDataTrigger.ubMotionSen := by
  unfold schedulingMode
  dsimp only
  split_ifs
  · rfl
  · rfl
  · cases ty <;> rfl
  · rfl
  · rfl

theorem ubMotionSen_decode {text : List (BitVec 8)}
    (h : midDecodeTimeBasedSchedulingDecode ty text = some (some c)) :
    c.tIRDataTrigger.ubMotionSen = 0 := by
  rw [midDecodeTimeBasedSchedulingDecode] at h
  split_ifs at h
  rw [decodeTokens_eq] at h
  exact foldlM_decodeNext_ubMotionSen (Option.some.inj h)

theorem midInsertNewIRTrigger_of_insertSlot {s : StoreState} (h : insertSlot trigger s = some i) :
    (midInsertNewIRTrigger trigger s).2 =
      storeTrigger i (applyMotionSens trigger s).1 (applyMotionSens trigger s).2 := by
  rw [insertSlot, midInsertNewIRTrigger] at h
  rw [midInsertNewIRTrigger]
  split_ifs at h ⊢ with hused
  · contradiction
  · rw [h]

theorem midInsertNewIRTrigger_of_insertSlot_none {s : StoreState}
    (h : insertSlot trigger s = none) : (midInsertNewIRTrigger trigger s).2 = s := by
  rw [midInsertNewIRTrigger_eq_self_iff]
  rw [insertSlot, midInsertNewIRTrigger] at h
  cases hfree : freeTriggerSlot s.atIRDataTrigger with
  | none => exact .inr rfl
  | some i =>
    left
    intro hnew
    rw [hnew, hfree, Option.isSome_none, if_neg Bool.false_ne_true] at h
    exact Option.some_ne_none i h

/-- A removal keeps the variable. -/
theorem ubMotionSensTemp_midRemoveIRTrigger (uwTrigID : BitVec 16) (s : StoreState) :
    (midRemoveIRTrigger uwTrigID s).2.ubMotionSensTemp = s.ubMotionSensTemp := by
  cases hslot : triggerSlot s.atIRDataTrigger uwTrigID with
  | none => rw [midRemoveIRTrigger_of_none hslot]
  | some i =>
    rw [midRemoveIRTrigger_of_slot hslot]
    rfl

/-- What the end of a handler changes: the trigger is inserted, or the variable is kept. -/
theorem executeHead_stores (h : executeHead s ≠ s) :
    (executeHead s).queue.length < s.queue.length ∧ (executeHead s).decoded = none ∧
      (∀ trigger, createOfHead s = some trigger →
        (executeHead s).stores = (midInsertNewIRTrigger trigger s.stores).2) ∧
      (createOfHead s = none →
        (executeHead s).stores.ubMotionSensTemp = s.stores.ubMotionSensTemp) := by
  unfold executeHead createOfHead at *
  split at h
  next e queue d hqueue hdecoded =>
    simp only [hqueue, hdecoded]
    refine ⟨Nat.lt_succ_self _, trivial, ?_⟩
    cases d with
    | none => exact ⟨fun _ hnone => (by cases hnone), fun _ => rfl⟩
    | some c =>
      simp only [Option.elim_some, schedulingExecute]
      split_ifs with hcreate hdelete
      · refine ⟨fun trigger htrigger => ?_, fun hnone => (by cases hnone)⟩
        rw [Option.some.inj htrigger]
      · exact ⟨fun _ hnone => (by cases hnone),
          fun _ => ubMotionSensTemp_midRemoveIRTrigger _ _⟩
      · exact ⟨fun _ hnone => (by cases hnone), fun _ => rfl⟩
  next => exact (h rfl).elim

end Executions

/-! ## The invariant -/

/-- What the variable holds: the zero of the start, nothing because the last value was used, or
the last value. -/
def SlotHolds (ubMotionSensTemp : BitVec 8) (h : SensRecord) : Prop :=
  (h.values = [] ∧ h.grants = []) ∨
    (ubMotionSensTemp = 0xFF ∧ (h.values ≠ [] → h.values.length - 1 ∈ h.used)) ∨
    (ubMotionSensTemp ≠ 0xFF ∧ h.values.getLast? = some ubMotionSensTemp ∧
      h.values.length - 1 ∉ h.used)

/-- The variable holds what the record says, and the trigger that is being decoded has no
sensitivity of its own. -/
structure SensInv (r : QueueState × SensRecord) : Prop where
  used : ∀ k ∈ r.2.used, k < r.2.values.length
  slot : SlotHolds r.1.stores.ubMotionSensTemp r.2
  decoded : ∀ c, r.1.decoded = some (some c) → c.tIRDataTrigger.ubMotionSen = 0
  attributes : AttributesSensitivity r

section Invariant

variable {h : SensRecord} {s t : QueueState} {r : QueueState × SensRecord} {mark k : ℕ}
  {trigger : IrDataTrigger} {i : Fin maxIrCode}

theorem SensRecord.lt_of_lastUnused (hk : h.lastUnused mark = some k) :
    k < mark ∧ k ∉ h.used := by
  have hmem := List.mem_filter.mp (List.mem_of_getLast? hk)
  exact ⟨List.mem_range.mp hmem.1, of_decide_eq_true hmem.2⟩

/-- A last value that is not used yet is the one that counts. -/
theorem SensRecord.lastUnused_succ (hk : k ∉ h.used) : h.lastUnused (k + 1) = some k := by
  rw [lastUnused, List.range_succ, List.filter_append, List.filter_singleton,
    decide_eq_true hk, cond_true, List.getLast?_concat]

/-- The trigger is stored with the sensitivity of its command, and the variable is empty. -/
theorem SlotHolds.create {s : StoreState} (hslot : SlotHolds s.ubMotionSensTemp h)
    (hsens : trigger.ubMotionSen = 0) (hfirst : h.values ≠ [] ∨ h.grants ≠ [])
    (hleft : ∀ k ∈ h.lastUnused h.values.length, k + 1 = h.values.length) :
    (applyMotionSens trigger s).1.ubMotionSen = h.expected h.values.length ∧
      (applyMotionSens trigger s).2.ubMotionSensTemp = 0xFF ∧
      (h.values ≠ [] → h.values.length - 1 ∈
        h.used ++ (h.lastUnused h.values.length).toList) := by
  obtain ⟨hvalues, hgrants⟩ | ⟨hempty, hused⟩ | ⟨hfull, hlast, hunused⟩ := hslot
  · exact absurd hgrants (hfirst.resolve_left (not_not_intro hvalues))
  · -- the last value was used, and no other one is left over
    have hnone : h.lastUnused h.values.length = none := by
      rw [Option.eq_none_iff_forall_ne_some]
      intro k hk
      have hend := hleft k hk
      refine (h.lt_of_lastUnused hk).2 ?_
      have hne : h.values ≠ [] := List.ne_nil_of_length_pos (by omega)
      rw [show k = h.values.length - 1 by omega]
      exact hused hne
    rw [applyMotionSens, if_neg (not_not_intro hempty), SensRecord.expected, hnone]
    exact ⟨hsens, hempty, fun hne => List.mem_append_left _ (hused hne)⟩
  · have hlength : h.values.length - 1 + 1 = h.values.length :=
      Nat.sub_add_cancel (List.length_pos_of_ne_nil fun hnil => by simp [hnil] at hlast)
    have hcounts := SensRecord.lastUnused_succ hunused
    rw [hlength] at hcounts
    have hvalue : h.values.getD (h.values.length - 1) 0 = s.ubMotionSensTemp := by
      rw [List.getD_eq_getElem?_getD, ← List.getLast?_eq_getElem?, hlast]
      rfl
    rw [applyMotionSens, if_pos hfull, SensRecord.expected, hcounts]
    exact ⟨(congrArg convertSensitivityToLevel hvalue).symm, rfl,
      fun _ => List.mem_append_right _ (List.mem_singleton.mpr rfl)⟩

theorem exists_of_createOfHead (hs : createOfHead s = some trigger) :
    ∃ c, s.decoded = some (some c) ∧ schedulingMode s.ubTriggerType c = trigger := by
  unfold createOfHead at hs
  split at hs
  next e queue c hqueue hdecoded =>
    split_ifs at hs
    exact ⟨c, hdecoded, Option.some.inj hs⟩
  next => cases hs

theorem sensInv_sensAtBoot (stores : StoreState) : SensInv (sensAtBoot stores, .zero) where
  used := fun _ hk => nomatch hk
  slot := .inl ⟨rfl, rfl⟩
  decoded := fun _ hc => nomatch hc
  attributes := ⟨fun _ hg => (nomatch hg), fun _ hx => (nomatch hx)⟩

/-- A value is written to the variable. -/
theorem SensInv.motSens (hr : SensInv (s, h)) (digit : { c : BitVec 8 // IsHexDigit c }) :
    SensInv ({ s with stores := decodeMotSens digit s.stores },
      { h with values := h.values ++ [(convertCharToHex digit).getD 0] }) := by
  have hdigit : ∀ c, IsHexDigit c →
      (convertCharToHex c).isSome ∧ convertCharToHex c ≠ some 0xFF := by decide
  obtain ⟨hsome, hnot⟩ := hdigit digit digit.2
  obtain ⟨v, hconvert⟩ := Option.isSome_iff_exists.mp hsome
  have hne : v ≠ 0xFF := fun hv => hnot (hv ▸ hconvert)
  have hnew : h.values.length ∉ h.used := fun hk => (hr.used _ hk).false
  refine ⟨fun k hk => ?_, .inr (.inr ?_), hr.decoded, hr.attributes⟩
  · rw [List.length_append]
    exact (hr.used k hk).trans (Nat.lt_succ_self _)
  · dsimp only [decodeMotSens]
    rw [hconvert, List.getLast?_concat, List.length_append]
    exact ⟨hne, rfl, hnew⟩

/-- The rest of a handler. -/
theorem SensInv.execute (hr : SensInv (s, h))
    (hknows : KnowsSensitivity (.command .execute) (s, h)) :
    SensInv (executeHead s, noteSens (.command .execute) s (executeHead s) h) := by
  by_cases hexec : executeHead s = s
  · rw [hexec, noteSens, if_neg (Nat.lt_irrefl _)]
    exact hr
  obtain ⟨hlength, hdecoded, hinsert, hkeep⟩ := executeHead_stores hexec
  have hnothing (c : SchedulingCommand) (hc : (executeHead s).decoded = some (some c)) :
      c.tIRDataTrigger.ubMotionSen = 0 := by
    rw [hdecoded] at hc
    cases hc
  rw [noteSens, if_pos hlength, noteCreate]
  cases hcreate : createOfHead s with
  | none =>
    refine ⟨hr.used, ?_, hnothing, hr.attributes⟩
    rw [hkeep hcreate]
    exact hr.slot
  | some trigger =>
    have hslot : createSlot s = insertSlot trigger s.stores := by
      rw [createSlot, hcreate, Option.bind_some]
    rw [hinsert trigger hcreate, hslot]
    cases hinsertSlot : insertSlot trigger s.stores with
    | none =>
      rw [midInsertNewIRTrigger_of_insertSlot_none hinsertSlot]
      refine ⟨hr.used, ?_, hnothing, hr.attributes.1, fun x hx => ?_⟩
      · rw [hinsert trigger hcreate, midInsertNewIRTrigger_of_insertSlot_none hinsertSlot]
        exact hr.slot
      · obtain hx | hx := List.mem_append.mp hx
        · exact hr.attributes.2 x hx
        · rw [List.mem_singleton.mp hx]
    | some i =>
      obtain ⟨hmark, hfirst, hleft⟩ := hknows (by rw [hslot, hinsertSlot]; rfl)
      obtain ⟨c, hc, htrigger⟩ := exists_of_createOfHead hcreate
      have hsens : trigger.ubMotionSen = 0 := by
        rw [← htrigger, ubMotionSen_schedulingMode, hr.decoded c hc]
      obtain ⟨hstored, hempty, hused⟩ := hr.slot.create hsens hfirst hleft
      dsimp only at hmark
      rw [midInsertNewIRTrigger_of_insertSlot hinsertSlot, hmark]
      refine ⟨fun k hk => ?_, .inr (.inl ⟨?_, hused⟩), hnothing, fun g hg => ?_,
        hr.attributes.2⟩
      · obtain hk | hk := List.mem_append.mp hk
        · exact hr.used k hk
        · exact (h.lt_of_lastUnused (Option.mem_toList.mp hk)).1
      · rw [hinsert trigger hcreate, midInsertNewIRTrigger_of_insertSlot hinsertSlot]
        exact hempty
      · obtain hg | hg := List.mem_append.mp hg
        · exact hr.attributes.1 g hg
        · rw [List.mem_singleton.mp hg]
          refine Eq.trans ?_ hstored
          rw [storeTrigger_atIRDataTrigger]
          exact congrArg IrDataTrigger.ubMotionSen ((SlotTable.get_set ..).trans (if_pos rfl))

/-- Only the rest of a handler reads the variable. -/
theorem SensInv.step {a : SensStep} {r' : QueueState × SensRecord} (hr : SensInv r)
    (hknows : KnowsSensitivity a r) (hrun : FaultMachine.recorded sensStep noteSens a r = some r') :
    SensInv r' := by
  obtain ⟨s, h⟩ := r
  obtain ⟨t, h'⟩ := r'
  obtain ⟨hstep, hnote⟩ := FaultMachine.recorded_eq_some_iff.mp hrun
  change sensStep a s = some t at hstep
  change h' = noteSens a s t h at hnote
  subst hnote
  cases a with
  | motSens digit =>
    obtain rfl := Option.some.inj hstep
    exact hr.motSens digit
  | command a =>
    cases a with
    | write ch pData =>
      obtain rfl := Option.some.inj hstep
      have hstores : (midDecodeCommand ch pData s).stores = s.stores ∧
          (midDecodeCommand ch pData s).decoded = s.decoded := by
        rw [midDecodeCommand, appSchedEventPut]
        split_ifs <;> exact ⟨rfl, rfl⟩
      have hrecord (g : SensRecord) (hvalues : g.values = h.values) (hused : g.used = h.used)
          (hgrants : g.grants = h.grants) (hrefusals : g.refusals = h.refusals) :
          SensInv (midDecodeCommand ch pData s, g) := by
        refine ⟨?_, ?_, ?_, ?_⟩
        · rw [hvalues, hused]
          exact hr.used
        · rw [SlotHolds, hvalues, hused, hgrants, hstores.1]
          exact hr.slot
        · rw [hstores.2]
          exact hr.decoded
        · rw [AttributesSensitivity, hgrants, hrefusals]
          exact hr.attributes
      rw [noteSens]
      split_ifs
      · exact hrecord _ rfl rfl rfl rfl
      · exact hrecord _ rfl rfl rfl rfl
    | decode =>
      change decodeHead s = some t at hstep
      rw [decodeHead] at hstep
      split at hstep
      next e queue hqueue hdecoded =>
        obtain ⟨d, hd, rfl⟩ := Option.map_eq_some_iff.mp hstep
        refine ⟨hr.used, hr.slot, fun c hc => ?_, hr.attributes⟩
        rw [Option.some.inj hc] at hd
        exact ubMotionSen_decode hd
      next =>
        obtain rfl := Option.some.inj hstep
        exact hr
    | execute =>
      obtain rfl := Option.some.inj hstep
      exact hr.execute hknows

end Invariant

/-- A run in which the commands find the value that was written for them gives every trigger its
own sensitivity. -/
theorem sensitivity_attributed (stores : StoreState) (labels : List SensStep)
    (h : FaultMachine.Along (FaultMachine.recorded sensStep noteSens) KnowsSensitivity labels
      (sensAtBoot stores, .zero)) :
    FaultMachine.Throughout (FaultMachine.recorded sensStep noteSens) AttributesSensitivity labels
      (sensAtBoot stores, .zero) :=
  h.throughout SensInv (fun _ _ _ hs ha hstep => hs.step ha hstep) (fun _ hs => hs.attributes)
    (sensInv_sensAtBoot stores)

/-- A sensitivity, and the command that it is for. -/
def sensThenCommand : List SensStep :=
  [.motSens ⟨0x35, by decide⟩, .command (.write .schedule halfPastNoon), .command .decode,
    .command .execute]

/-- The sensitivity 5. -/
theorem sensitivity_attributed_single :
    FaultMachine.Throughout (FaultMachine.recorded sensStep noteSens) AttributesSensitivity
      sensThenCommand (sensAtBoot blankStores, .zero) :=
  sensitivity_attributed blankStores sensThenCommand (by decide +kernel)

/-- `halfPastNoon` is the first command, and no sensitivity was written: the trigger gets the
level 5. -/
theorem first_trigger_sensitivity :
    ¬∀ (stores : StoreState) (labels : List SensStep),
      FaultMachine.Throughout (FaultMachine.recorded sensStep noteSens) AttributesSensitivity
        labels (sensAtBoot stores, .zero) := by
  intro h
  have hlast := (h blankStores
    [.command (.write .schedule halfPastNoon), .command .decode, .command .execute]).last rfl
  have hgrant := hlast.1 ⟨5, 0⟩ (by decide +kernel)
  revert hgrant
  decide

end IrRemote
