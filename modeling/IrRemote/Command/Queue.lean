import IrRemote.Library.FaultMachine
import IrRemote.Mid.Scheduling
import IrRemote.Sched.Events
import IrRemote.Store.Reboot

/-!
# The queue of commands

A write to the schedule or to the timeout characteristic sets `g_ubTriggerType` and puts the text
into the event queue; the main loop takes the events out in their order. The handler of an event
reads the variable in the decoder and once more when it selects the mode, and both times it finds
the type of the last write.

## Main definitions

* `QueueState`, `queueStep` — the variable, the queue, the stores and the handler that is running
* `createdTrigger` — the trigger that a command describes under its own characteristic
* `InterpretsCommands` — every command was executed under its own characteristic, in order
* `ReadsOwnType` — the last write before each of the two reads was to the characteristic of the
  command

## Main results

* `executeHead_decodeHead` — an event that is not interrupted
* `commands_under_own_characteristic` — runs whose reads find the type of their command
-/

set_option autoImplicit false

namespace IrRemote

/-- The characteristics whose texts are queued for `Mid_DecodeTimeBasedScheduling`. -/
inductive Characteristic where
  | schedule
  | motTout
  deriving DecidableEq, Repr

/-- The value of `g_ubTriggerType` behind a write to the characteristic. -/
def Characteristic.triggerType : Characteristic → TriggerType
  | .schedule => .schedulingType
  | .motTout => .timeoutType

/-- An event of the queue. The characteristic is not part of the event that the source queues and
is read by no step. -/
structure QueuedCommand where
  characteristic : Characteristic
  text : List (BitVec 8)
  deriving DecidableEq, Repr

/-- An event that was executed, between two states of the stores. -/
structure ExecutedCommand where
  command : QueuedCommand
  before : StoreState
  after : StoreState

/-- The state of the command queue. The fields behind the stores record the run. -/
structure QueueState where
  ubTriggerType : TriggerType
  queue : List QueuedCommand
  /-- What the handler of the first event has decoded, when it is running. -/
  decoded : Option (Option SchedulingCommand)
  stores : StoreState
  lastWrite : Option Characteristic
  accepted : List QueuedCommand
  executed : List ExecutedCommand

/-- No command was written yet. -/
def queueAtBoot (stores : StoreState) : QueueState where
  ubTriggerType := .noneType
  queue := []
  decoded := none
  stores := stores
  lastWrite := none
  accepted := []
  executed := []

/-- `app_sched_event_put`. An event that is too long or finds the queue full is dropped. -/
def appSchedEventPut (e : QueuedCommand) (s : QueueState) : QueueState :=
  if e.text.length ≤ schedMaxEventDataSize ∧ s.queue.length < schedQueueSize then
    { s with queue := s.queue ++ [e], accepted := s.accepted ++ [e] }
  else s

/-- `Mid_DecodeCommand` for one of the two characteristics. The length is handed over in a
byte. -/
def midDecodeCommand (ch : Characteristic) (pData : List (BitVec 8)) (s : QueueState) :
    QueueState :=
  appSchedEventPut ⟨ch, pData.take (pData.length % 256)⟩
    { s with ubTriggerType := ch.triggerType, lastWrite := some ch }

/-- `Mid_DecodeTimeBasedScheduling` on the first event, up to the end of the decoder. -/
def decodeHead (s : QueueState) : Option QueueState :=
  match s.queue, s.decoded with
  | e :: _, none =>
    (midDecodeTimeBasedSchedulingDecode s.ubTriggerType e.text).map fun d =>
      { s with decoded := some d }
  | _, _ => some s

/-- The rest of `Mid_DecodeTimeBasedScheduling`. The event leaves the queue behind its handler. -/
def executeHead (s : QueueState) : QueueState :=
  match s.queue, s.decoded with
  | e :: queue, some d =>
    let stores := d.elim s.stores fun c => schedulingExecute s.ubTriggerType c s.stores
    { s with
      queue := queue
      decoded := none
      stores := stores
      executed := s.executed ++ [⟨e, s.stores, stores⟩] }
  | _, _ => s

/-- A write, or one of the two parts of the handler of the first event. -/
inductive QueueStep where
  | write (ch : Characteristic) (pData : List (BitVec 8))
  | decode
  | execute

/-- A text that overruns the buffer of the decoder has no result. -/
def queueStep (a : QueueStep) (s : QueueState) : Option QueueState :=
  match a with
  | .write ch pData => some (midDecodeCommand ch pData s)
  | .decode => decodeHead s
  | .execute => some (executeHead s)

/-- Without a write between its parts the handler is `midDecodeTimeBasedScheduling`. -/
theorem executeHead_decodeHead {s : QueueState} {e : QueuedCommand} {queue : List QueuedCommand}
    (hqueue : s.queue = e :: queue) (hdecoded : s.decoded = none) :
    (decodeHead s).map (fun t => (executeHead t).stores) =
      midDecodeTimeBasedScheduling s.ubTriggerType e.text s.stores := by
  rw [decodeHead, hqueue, hdecoded, Option.map_map, midDecodeTimeBasedScheduling]
  cases midDecodeTimeBasedSchedulingDecode s.ubTriggerType e.text with
  | none => rfl
  | some d =>
    simp only [Option.map_some, Function.comp_apply, executeHead, Option.bind_eq_bind,
      Option.bind_some]
    cases d <;> rfl

/-- The decoder changes neither the queue nor the record of the writes. -/
theorem decodeHead_frame {s t : QueueState} (h : queueStep .decode s = some t) :
    t.queue = s.queue ∧ t.lastWrite = s.lastWrite := by
  rw [queueStep, decodeHead] at h
  split at h
  · obtain ⟨d, -, rfl⟩ := Option.map_eq_some_iff.mp h
    exact ⟨rfl, rfl⟩
  · obtain rfl := Option.some.inj h
    exact ⟨rfl, rfl⟩

/-! ## Commands and their characteristics -/

/-- The tokens of a text, up to its first NUL. -/
def textTokens (text : List (BitVec 8)) : List (List (BitVec 8)) :=
  commandTokens (text.takeWhile (· ≠ 0))

/-- A command with five components that creates a trigger. -/
def CreatesTimed (text : List (BitVec 8)) : Prop :=
  (textTokens text).length = 5 ∧ (textTokens text).head? = some [createCommand]

/-- The trigger that the five components describe: under the schedule characteristic the last one
is a time of the day, under the timeout characteristic a number in hexadecimal digits. -/
def createdTrigger (ch : Characteristic) (tokens : List (List (BitVec 8))) :
    Option IrDataTrigger :=
  match tokens with
  | [_, id, irCode, days, time] => do
    let uwTrigID ← convertStringToHex id
    let uwIrCode ← convertStringToHex irCode
    let ubDays ← convertStringToHex days
    let t := { SchedulingCommand.zero.tIRDataTrigger with uwTrigID, uwIrCode, ubDays }
    match ch with
    | .schedule =>
      (decodeHourMin time).map fun tTime1 => { t with ubMode := oneTrigger, tTime1 }
    | .motTout =>
      (convertStringToHex32Bit time).map fun ulTimeout =>
        { t with ubMode := timeoutTrigger, ulTimeout }
  | _ => none

/-- The trigger that the command describes is inserted, and if it describes none the stores are
as before. -/
def ExecutedCommand.Interpreted (x : ExecutedCommand) : Prop :=
  CreatesTimed x.command.text →
    x.after = (createdTrigger x.command.characteristic (textTokens x.command.text)).elim x.before
      fun t => (midInsertNewIRTrigger t x.before).2

/-- The accepted commands are executed in their order, each with five components as its own
characteristic has them. -/
def InterpretsCommands (s : QueueState) : Prop :=
  s.accepted = s.executed.map ExecutedCommand.command ++ s.queue ∧
    ∀ x ∈ s.executed, x.Interpreted

section Decoding

variable {ch : Characteristic} {text : List (BitVec 8)} {s : StoreState}

/-- The decoder with the type of the characteristic reads the trigger off the five tokens. -/
theorem map_schedulingMode_foldlM {id irCode days time : List (BitVec 8)} :
    ([[createCommand], id, irCode, days, time].foldlM (decodeNext ch.triggerType) .zero).map
        (schedulingMode ch.triggerType) =
      createdTrigger ch [[createCommand], id, irCode, days, time] := by
  simp only [List.foldlM_cons, List.foldlM_nil, createdTrigger, decodeNext, decodeComponent]
  cases convertStringToHex id with
  | none => rfl
  | some uwTrigID =>
    cases convertStringToHex irCode with
    | none => rfl
    | some uwIrCode =>
      cases convertStringToHex days with
      | none => rfl
      | some ubDays =>
        cases ch with
        | schedule =>
          simp only [Characteristic.triggerType]
          cases decodeHourMin time <;> rfl
        | motTout =>
          simp only [Characteristic.triggerType]
          cases convertStringToHex32Bit time <;> rfl

theorem exists_tokens_of_createsTimed (h : CreatesTimed text) :
    ∃ id irCode days time, textTokens text = [[createCommand], id, irCode, days, time] := by
  obtain ⟨hlen, hhead⟩ := h
  match htokens : textTokens text with
  | [command, id, irCode, days, time] =>
    rw [htokens] at hhead
    obtain rfl := Option.some.inj hhead
    exact ⟨id, irCode, days, time, rfl⟩
  | [] | [_] | [_, _] | [_, _, _] | [_, _, _, _] | _ :: _ :: _ :: _ :: _ :: _ :: _ =>
    rw [htokens] at hlen
    simp at hlen

/-- Executed as a command of its characteristic, the text inserts the trigger it describes. -/
theorem schedulingExecute_of_createsTimed (ch : Characteristic) (h : CreatesTimed text)
    (hlen : text.length ≤ 15) :
    ∃ d, midDecodeTimeBasedSchedulingDecode ch.triggerType text = some d ∧
      ∀ s, (d.elim s fun c => schedulingExecute ch.triggerType c s) =
        (createdTrigger ch (textTokens text)).elim s fun t => (midInsertNewIRTrigger t s).2 := by
  obtain ⟨id, irCode, days, time, htokens⟩ := exists_tokens_of_createsTimed h
  refine ⟨(textTokens text).foldlM (decodeNext ch.triggerType) .zero, ?_, fun s => ?_⟩
  · rw [midDecodeTimeBasedSchedulingDecode, if_neg (by omega), decodeTokens_eq]
    change some (((textTokens text).take 6).foldlM _ _) = _
    rw [List.take_of_length_le (h.1.trans_le (by decide))]
  rw [htokens, ← map_schedulingMode_foldlM]
  cases hdecode : [[createCommand], id, irCode, days, time].foldlM
      (decodeNext ch.triggerType) .zero with
  | none => rfl
  | some c =>
    have hcreate : c.ubCommand = createCommand := (foldlM_decodeNext_fields hdecode).2.1
    rw [Option.map_some, Option.elim_some, Option.elim_some, schedulingExecute, if_pos hcreate]

end Decoding

/-! ## Runs -/

/-- The handler that is about to read finds a text that fits its buffer, and for a command with
five components the last write was to the characteristic of the command. -/
def ReadsOwnType (a : QueueStep) (s : QueueState) : Prop :=
  match a with
  | .write _ _ => True
  | .decode =>
    ∀ e ∈ s.queue.head?, s.decoded = none →
      e.text.length ≤ 15 ∧ (CreatesTimed e.text → s.lastWrite = some e.characteristic)
  | .execute =>
    ∀ e ∈ s.queue.head?, s.decoded ≠ none → CreatesTimed e.text →
      s.lastWrite = some e.characteristic

/-- What the handler of the first event holds was decoded under its own characteristic. -/
structure QueueInv (s : QueueState) : Prop where
  type : ∀ ch ∈ s.lastWrite, s.ubTriggerType = ch.triggerType
  decoded : ∀ d ∈ s.decoded, ∃ e ∈ s.queue.head?, CreatesTimed e.text →
    e.text.length ≤ 15 ∧
      midDecodeTimeBasedSchedulingDecode e.characteristic.triggerType e.text = some d
  interprets : InterpretsCommands s

section Runs

variable {s t : QueueState}

theorem queueInv_queueAtBoot (stores : StoreState) : QueueInv (queueAtBoot stores) where
  type := fun _ h => by cases h
  decoded := fun _ h => by cases h
  interprets := ⟨rfl, fun _ h => by cases h⟩

theorem QueueInv.midDecodeCommand (h : QueueInv s) (ch : Characteristic)
    (pData : List (BitVec 8)) : QueueInv (midDecodeCommand ch pData s) := by
  have htype : ∀ ch' ∈ some ch, ch.triggerType = ch'.triggerType := by
    rintro ch' ⟨⟩
    rfl
  rw [IrRemote.midDecodeCommand, appSchedEventPut]
  split_ifs
  · refine ⟨htype, fun d hd => ?_, ?_, h.interprets.2⟩
    · obtain ⟨e, he, hdecode⟩ := h.decoded d hd
      refine ⟨e, ?_, hdecode⟩
      rw [List.head?_append, Option.mem_def.mp he]
      rfl
    · change s.accepted ++ _ = _ ++ (s.queue ++ _)
      rw [h.interprets.1, List.append_assoc]
  · exact ⟨htype, h.decoded, h.interprets⟩

theorem QueueInv.decodeHead (h : QueueInv s) (hread : ReadsOwnType .decode s) :
    ∃ t, decodeHead s = some t ∧ QueueInv t := by
  rw [IrRemote.decodeHead]
  split
  next e queue hqueue hdecoded =>
    have hhead : e ∈ s.queue.head? := by
      rw [hqueue]
      rfl
    obtain ⟨hlen, hown⟩ := hread e hhead hdecoded
    rw [midDecodeTimeBasedSchedulingDecode, if_neg (by omega), Option.map_some]
    refine ⟨_, rfl, h.type, ?_, h.interprets⟩
    rintro d ⟨⟩
    refine ⟨e, hhead, fun hcreate => ⟨hlen, ?_⟩⟩
    rw [midDecodeTimeBasedSchedulingDecode, if_neg (by omega), h.type _ (hown hcreate)]
  next => exact ⟨s, rfl, h⟩

theorem QueueInv.executeHead (h : QueueInv s) (hread : ReadsOwnType .execute s) :
    QueueInv (executeHead s) := by
  rw [IrRemote.executeHead]
  split
  next e queue d hqueue hdecoded =>
    have hhead : s.queue.head? = some e := by
      rw [hqueue]
      rfl
    refine ⟨h.type, ?_, ?_, ?_⟩
    · intro d hd
      cases hd
    · rw [h.interprets.1, hqueue, List.map_append, List.append_assoc]
      rfl
    · intro x hx
      obtain hx | hx := List.mem_append.mp hx
      · exact h.interprets.2 x hx
      obtain rfl := List.mem_singleton.mp hx
      intro hcreate
      -- the decoder and the mode selection have both read the type of the command itself
      obtain ⟨e', he', hdecode⟩ := h.decoded d hdecoded
      obtain rfl := Option.some.inj (hhead.symm.trans he')
      obtain ⟨hlen, hdecode⟩ := hdecode hcreate
      have hlast := hread e hhead (hdecoded ▸ Option.some_ne_none d) hcreate
      obtain ⟨d', hd', hexecute⟩ := schedulingExecute_of_createsTimed e.characteristic
        hcreate hlen
      obtain rfl := Option.some.inj (hd'.symm.trans hdecode)
      dsimp only
      rw [h.type _ hlast]
      exact hexecute s.stores
  next => exact h

theorem QueueInv.queueStep {a : QueueStep} (h : QueueInv s) (hread : ReadsOwnType a s) :
    ∃ t, queueStep a s = some t ∧ QueueInv t := by
  cases a with
  | write ch pData => exact ⟨_, rfl, h.midDecodeCommand ch pData⟩
  | decode => exact h.decodeHead hread
  | execute => exact ⟨_, rfl, h.executeHead hread⟩

end Runs

/-- A run in which every read finds the type of its own command does not fault, and it executes
the commands in their order, each as its own characteristic has it. -/
theorem commands_under_own_characteristic (stores : StoreState) (labels : List QueueStep)
    (h : FaultMachine.Along queueStep ReadsOwnType labels (queueAtBoot stores)) :
    (∃ s, FaultMachine.run queueStep labels (queueAtBoot stores) = some s) ∧
      FaultMachine.Throughout queueStep InterpretsCommands labels (queueAtBoot stores) := by
  have hboot := queueInv_queueAtBoot stores
  constructor
  · obtain ⟨t, hrun, -⟩ := h.run QueueInv (fun a s hs ha => hs.queueStep ha) hboot
    exact ⟨t, hrun⟩
  · refine h.throughout QueueInv (fun a s t hs ha hstep => ?_) (fun s hs => hs.interprets) hboot
    obtain ⟨u, hu, hinv⟩ := hs.queueStep ha
    rw [hstep] at hu
    exact Option.some.inj hu ▸ hinv

/-- `c-1-2-3-1230`, a command for the schedule characteristic. -/
def halfPastNoon : List (BitVec 8) :=
  [0x63, 0x2d, 0x31, 0x2d, 0x32, 0x2d, 0x33, 0x2d, 0x31, 0x32, 0x33, 0x30]

/-- A command that is executed before the next write. -/
theorem commands_under_own_characteristic_single :
    FaultMachine.Throughout queueStep InterpretsCommands
      [.write .schedule halfPastNoon, .decode, .execute] (queueAtBoot blankStores) := by
  refine (commands_under_own_characteristic blankStores _ ?_).2
  refine ⟨trivial, ?_⟩
  rintro s ⟨⟩
  refine ⟨?_, fun t ht => ⟨?_, fun _ _ => trivial⟩⟩
  · rintro e ⟨⟩ -
    exact ⟨by decide, fun _ => rfl⟩
  · obtain ⟨hqueue, hlast⟩ := decodeHead_frame ht
    rw [ReadsOwnType, hqueue, hlast]
    rintro e ⟨⟩ - -
    rfl

/-- A command for the timeout characteristic is written before `halfPastNoon` is executed: the
four digits are read as a timeout. -/
theorem queued_command_reinterpreted :
    ¬∀ (stores : StoreState) (labels : List QueueStep),
      FaultMachine.Throughout queueStep InterpretsCommands labels (queueAtBoot stores) := by
  intro h
  have hlast := (h blankStores
    [.write .schedule halfPastNoon,
      .write .motTout [0x63, 0x2d, 0x32, 0x2d, 0x32, 0x2d, 0x33, 0x2d, 0x31, 0x30], .decode,
      .execute]).last rfl
  have hexecuted := hlast.2 _ (List.mem_singleton.mpr rfl) ⟨by decide, by decide⟩
  have hmode := congrArg
    (fun s : StoreState => (s.atIRDataTrigger.get ⟨0, by decide⟩).ubMode) hexecuted
  revert hmode
  decide +kernel

end IrRemote
