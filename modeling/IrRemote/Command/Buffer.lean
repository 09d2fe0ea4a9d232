import IrRemote.Command.Queue
import IrRemote.Command.WellFormed

/-!
# The buffer of the decoder

The decoder copies the text into `TempData`, writes a NUL behind it, and overwrites the dash that
ends a token with a NUL. The buffer has 16 bytes, and the event queue accepts texts of 24.

## Main definitions

* `decodeWrites` — the indices of `TempData` that the decoder writes
* `IsWindowCommand`, `SchedulingCall.ExecutesWindow` — the commands for a window of the day
* `DecodedInBuffer` — no write misses the buffer, and a command for a window is decoded

## Main results

* `decodeWrites_lt_iff` — the texts whose writes stay in the buffer
* `window_command_decoded_by_loop` — the loop over the tokens decodes the commands for a window
* `queued_command_in_buffer_iff` — the writes whose text is decoded in the buffer
-/

set_option autoImplicit false

namespace IrRemote

/-- The number of bytes of `TempData`. -/
def tempDataSize : ℕ := 16

/-! ## The writes -/

/-- Where `my_strtok` stops that starts to search at the offset `pos`. -/
def strtokStop (delim : List (BitVec 8)) (pos : ℕ) (srcString : List (BitVec 8)) : ℕ :=
  let skipped := srcString.takeWhile fun c => isDelim c delim
  let token := (srcString.dropWhile fun c => isDelim c delim).takeWhile fun c => !isDelim c delim
  pos + skipped.length + token.length

/-- The index that `my_strtok` overwrites. A token that the NUL ends is left as it is. -/
def strtokWrite (delim : List (BitVec 8)) (pos : ℕ) (srcString : List (BitVec 8)) : List ℕ :=
  let stop := strtokStop delim pos srcString
  if stop < pos + srcString.length then [stop] else []

/-- The indices that the loop over the tokens overwrites. Behind the last component `my_strtok` is
called once more. -/
def tokenWrites (ubTriggerType : TriggerType) : ℕ → ℕ → List (BitVec 8) → SchedulingCommand →
    List ℕ
  | 0, pos, srcString, _ => strtokWrite commandDelim pos srcString
  | n + 1, pos, srcString, c =>
    strtokWrite commandDelim pos srcString ++
      match myStrtok commandDelim srcString with
      | none => []
      | some (token, backupString) =>
        match decodeNext ubTriggerType c token with
        | none => []
        | some c =>
          tokenWrites ubTriggerType n (strtokStop commandDelim pos srcString + 1) backupString c

/-- The indices of `TempData` that `Mid_DecodeTimeBasedSchedulingDecode` writes: `strncpy` fills as
many bytes as the text has, then come the NUL and the tokens. -/
def decodeWrites (ubTriggerType : TriggerType) (pData : List (BitVec 8)) : List ℕ :=
  List.range pData.length ++ [pData.length] ++
    tokenWrites ubTriggerType 6 0 (pData.takeWhile (· ≠ 0)) .zero

section Writes

variable {ty : TriggerType} {text delim token backup : List (BitVec 8)} {pos : ℕ}

theorem strtokWrite_lt : ∀ i ∈ strtokWrite delim pos text, i < pos + text.length := by
  intro i hi
  rw [strtokWrite] at hi
  split_ifs at hi with hstop
  · exact List.mem_singleton.mp hi ▸ hstop
  · cases hi

/-- Behind the dash that ends the token the search goes on in the rest of the text. -/
theorem strtokStop_backup (h : myStrtok delim text = some (token, backup)) (hne : backup ≠ []) :
    strtokStop delim pos text + 1 + backup.length = pos + text.length := by
  rw [myStrtok] at h
  split_ifs at h
  obtain ⟨rfl, rfl⟩ := Prod.mk.inj (Option.some.inj h)
  have hskip := congrArg List.length
    (List.takeWhile_append_dropWhile (p := fun c => isDelim c delim) (l := text))
  have htoken := congrArg List.length (List.takeWhile_append_dropWhile
    (p := fun c => !isDelim c delim) (l := text.dropWhile fun c => isDelim c delim))
  have hpos := List.length_pos_of_ne_nil hne
  rw [List.length_append] at hskip htoken
  rw [List.length_drop] at hpos ⊢
  rw [strtokStop]
  omega

theorem tokenWrites_nil {n : ℕ} {c : SchedulingCommand} : tokenWrites ty n pos [] c = [] := by
  have hwrite : strtokWrite commandDelim pos [] = [] := if_neg (Nat.lt_irrefl pos)
  cases n with
  | zero => exact hwrite
  | succ n =>
    rw [tokenWrites, hwrite]
    rfl

/-- The tokens are overwritten inside the text. -/
theorem tokenWrites_lt (n pos : ℕ) (text : List (BitVec 8)) (c : SchedulingCommand) :
    ∀ i ∈ tokenWrites ty n pos text c, i < pos + text.length := by
  induction n generalizing pos text c with
  | zero => exact strtokWrite_lt
  | succ n ih =>
    intro i hi
    rw [tokenWrites] at hi
    obtain hi | hi := List.mem_append.mp hi
    · exact strtokWrite_lt i hi
    · cases hscan : myStrtok commandDelim text with
      | none => rw [hscan] at hi; cases hi
      | some next =>
        rw [hscan] at hi
        cases hdecode : decodeNext ty c next.1 with
        | none => simp only [hdecode, List.not_mem_nil] at hi
        | some d =>
          simp only [hdecode] at hi
          -- the rest of the text starts behind the index that was overwritten
          by_cases hbackup : next.2 = []
          · rw [hbackup, tokenWrites_nil] at hi
            cases hi
          · exact (ih _ _ _ i hi).trans_eq (strtokStop_backup hscan hbackup)

/-- The NUL behind the text is the last byte that is written. -/
theorem decodeWrites_lt_iff {size : ℕ} :
    (∀ i ∈ decodeWrites ty text, i < size) ↔ text.length < size := by
  constructor
  · intro h
    refine h text.length (List.mem_append_left _ (List.mem_append_right _ ?_))
    exact List.mem_singleton.mpr rfl
  · intro h i hi
    rw [decodeWrites, List.mem_append, List.mem_append, List.mem_range, List.mem_singleton] at hi
    obtain (hcopy | rfl) | htoken := hi
    · exact hcopy.trans h
    · exact h
    · have hinside := tokenWrites_lt 6 0 _ _ i htoken
      have htext := (List.takeWhile_prefix (p := fun c : BitVec 8 => decide (c ≠ 0))
        (l := text)).length_le
      omega

end Writes

/-! ## Windows of the day -/

/-- The tokens of a command `c-I-K-D-hhmm-hhmm`. -/
def IsWindowCommand (tokens : List (List (BitVec 8))) : Prop :=
  match tokens with
  | [command, id, irCode, days, time1, time2] =>
    command = [createCommand] ∧ IsHexByte id ∧ IsHexByte irCode ∧ IsHexByte days ∧
      IsCommandTime .schedulingType time1 ∧ IsCommandTime .schedulingType time2
  | _ => False

/-- The end of a window; midnight is the end of the day. -/
def HourMin.EndsAt (tTime2 : HourMin) (time : List (BitVec 8)) : Prop :=
  let hour := decimalValue (time.take 2)
  let min := decimalValue (time.drop 2)
  if hour = 0 ∧ min = 0 then tTime2 = ⟨24, 0⟩
  else tTime2.ubHour.toNat = hour ∧ tTime2.ubMin.toNat = min

/-- The call creates the window that the tokens describe. -/
def SchedulingCall.ExecutesWindow (tokens : List (List (BitVec 8))) (call : SchedulingCall) :
    Prop :=
  match tokens, call with
  | [_, id, irCode, days, time1, time2], .midInsertNewIRTrigger t =>
    t.ubMode = windowTrigger ∧ t.Reads id irCode days time1 [] ∧ t.tTime2.EndsAt time2
  | _, _ => False

/-- The writes stay in the buffer, and a command for a window makes the call that it asks for. -/
def DecodedInBuffer (ch : Characteristic) (text : List (BitVec 8)) : Prop :=
  (∀ i ∈ decodeWrites ch.triggerType text, i < tempDataSize) ∧
    ∀ tokens, ch = .schedule → IsWindowCommand tokens → text = commandText tokens →
      ∃ call : SchedulingCall, call.ExecutesWindow tokens ∧
        midDecodeTimeBasedSchedulingCalls ch.triggerType text = some [call]

/-- The write puts the text into the event queue. -/
def Queues (ch : Characteristic) (pData : List (BitVec 8)) (s : QueueState)
    (text : List (BitVec 8)) : Prop :=
  (midDecodeCommand ch pData s).queue = s.queue ++ [⟨ch, text⟩]

section Windows

variable {tokens : List (List (BitVec 8))}

theorem IsWindowCommand.length_text (h : IsWindowCommand tokens) :
    17 ≤ (commandText tokens).length := by
  match tokens, h with
  | [_, id, irCode, days, time1, time2], ⟨rfl, hid, hir, hdays, htime1, htime2⟩ =>
    simp only [commandText, List.intercalate_cons_cons, List.intercalate_singleton,
      List.length_append, List.length_singleton]
    have hidLen := hid.1
    have hirLen := hir.1
    have hdaysLen := hdays.1
    have hlen1 := htime1.1
    have hlen2 := htime2.1
    omega

theorem IsWindowCommand.isToken (h : IsWindowCommand tokens) : ∀ token ∈ tokens, IsToken token := by
  match tokens, h with
  | [_, id, irCode, days, time1, time2], ⟨hcommand, hid, hir, hdays, htime1, htime2⟩ =>
    simp only [List.forall_mem_cons, hcommand, isToken_command.1, hid.isToken, hir.isToken,
      hdays.isToken, htime1.isToken, htime2.isToken, true_and]
    exact fun _ h => nomatch h

theorem schedulingMode_window (ty : TriggerType) (command : BitVec 8) (t : IrDataTrigger) :
    schedulingMode ty ⟨command, t, 6⟩ =
      { t with
        ubMode := windowTrigger
        tTime2 := if t.tTime2.ubMin = 0 ∧ t.tTime2.ubHour = 0 then ⟨24, 0⟩ else t.tTime2 } := by
  by_cases hmidnight : t.tTime2.ubMin = 0 ∧ t.tTime2.ubHour = 0
  · rw [if_pos hmidnight]
    exact if_pos hmidnight
  · rw [if_neg hmidnight]
    exact if_neg hmidnight

/-- The end of a window is replaced exactly when both of its numbers are zero. -/
theorem HourMin.endsAt {tTime2 : HourMin} {time : List (BitVec 8)}
    (hhour : tTime2.ubHour.toNat = decimalValue (time.take 2))
    (hmin : tTime2.ubMin.toNat = decimalValue (time.drop 2)) :
    (if tTime2.ubMin = 0 ∧ tTime2.ubHour = 0 then (⟨24, 0⟩ : HourMin) else tTime2).EndsAt time := by
  have hzero : (tTime2.ubMin = 0 ∧ tTime2.ubHour = 0) ↔
      decimalValue (time.take 2) = 0 ∧ decimalValue (time.drop 2) = 0 := by
    rw [← hhour, ← hmin, and_comm, ← BitVec.toNat_inj, ← BitVec.toNat_inj]
    rfl
  unfold EndsAt
  by_cases hmidnight : tTime2.ubMin = 0 ∧ tTime2.ubHour = 0
  · rw [if_pos hmidnight]
    exact (if_pos (hzero.mp hmidnight)).mpr rfl
  · rw [if_neg hmidnight]
    exact (if_neg (mt hzero.mpr hmidnight)).mpr ⟨hhour, hmin⟩

/-- The loop over the tokens, on a buffer of any size, decodes a command for a window. -/
theorem window_command_decoded_by_loop (h : IsWindowCommand tokens) :
    ∃ c, ∃ call : SchedulingCall,
      decodeTokens .schedulingType 6 (commandText tokens) .zero = some c ∧
      schedulingCalls .schedulingType c = [call] ∧ call.ExecutesWindow tokens := by
  rw [decodeTokens_eq, commandTokens_commandText h.isToken]
  match tokens, h with
  | [_, id, irCode, days, time1, time2], ⟨rfl, hid, hir, hdays, htime1, htime2⟩ =>
    obtain ⟨uwTrigID, hconvert, hvalue⟩ := convertStringToHex_eq hid
    obtain ⟨uwIrCode, hconvertIr, hvalueIr⟩ := convertStringToHex_eq hir
    obtain ⟨ubDays, hconvertDays, hvalueDays⟩ := convertStringToHex_eq hdays
    obtain ⟨tTime1, hconvertTime1, hhour1, hmin1⟩ := decodeHourMin_eq htime1.1 htime1.2
    obtain ⟨tTime2, hconvertTime2, hhour2, hmin2⟩ := decodeHourMin_eq htime2.1 htime2.2
    let t := { SchedulingCommand.zero.tIRDataTrigger with
      uwTrigID, uwIrCode, ubDays, tTime1, tTime2 }
    have hdecode : ([[createCommand], id, irCode, days, time1, time2].take 6).foldlM
        (decodeNext .schedulingType) .zero = some ⟨createCommand, t, 6⟩ := by
      simp only [List.take_succ_cons, List.take_zero, List.foldlM_cons, List.foldlM_nil,
        decodeNext, decodeComponent, hconvert, hconvertIr, hconvertDays, hconvertTime1,
        hconvertTime2]
      rfl
    refine ⟨_, .midInsertNewIRTrigger (schedulingMode .schedulingType ⟨createCommand, t, 6⟩),
      hdecode, rfl, ?_⟩
    rw [SchedulingCall.ExecutesWindow, schedulingMode_window]
    exact ⟨rfl, ⟨hvalue, hvalueIr, hvalueDays, hhour1, hmin1, rfl⟩, HourMin.endsAt hhour2 hmin2⟩

end Windows

/-- A text is decoded in the buffer exactly when it has at most 15 bytes. -/
theorem decodedInBuffer_iff (ch : Characteristic) (text : List (BitVec 8)) :
    DecodedInBuffer ch text ↔ text.length ≤ 15 := by
  rw [DecodedInBuffer, decodeWrites_lt_iff, tempDataSize, Nat.lt_succ_iff]
  refine and_iff_left_of_imp fun hlen tokens _ hwindow htext => ?_
  -- a command for a window is too long
  have hlong := hwindow.length_text
  rw [← htext] at hlong
  omega

/-- Which texts are queued. -/
theorem queues_iff (ch : Characteristic) (pData : List (BitVec 8)) (s : QueueState)
    (text : List (BitVec 8)) :
    Queues ch pData s text ↔ (pData.length % 256 ≤ schedMaxEventDataSize ∧
      s.queue.length < schedQueueSize) ∧ text = pData.take (pData.length % 256) := by
  have hlength : (pData.take (pData.length % 256)).length = pData.length % 256 := by
    rw [List.length_take, Nat.min_eq_left (Nat.mod_le _ _)]
  rw [Queues, midDecodeCommand, appSchedEventPut]
  dsimp only
  rw [hlength]
  split_ifs with hput
  · simp only [hput, List.append_cancel_left_eq, List.cons.injEq, QueuedCommand.mk.injEq, true_and,
      and_true]
    exact eq_comm
  · simp only [hput, false_and, iff_false]
    intro hqueue
    have hcount := congrArg List.length hqueue
    rw [List.length_append, List.length_singleton] at hcount
    omega

/-- What a write queues is decoded in the buffer, unless it has 16 to 24 bytes. -/
theorem queued_command_in_buffer_iff (ch : Characteristic) (pData : List (BitVec 8))
    (s : QueueState) :
    (∀ text, Queues ch pData s text → DecodedInBuffer ch text) ↔
      ¬(16 ≤ pData.length % 256 ∧ pData.length % 256 ≤ schedMaxEventDataSize ∧
        s.queue.length < schedQueueSize) := by
  simp only [decodedInBuffer_iff, queues_iff]
  have hlength : (pData.take (pData.length % 256)).length = pData.length % 256 := by
    rw [List.length_take, Nat.min_eq_left (Nat.mod_le _ _)]
  constructor
  · rintro h ⟨hlong, hput⟩
    have hshort := h _ ⟨hput, rfl⟩
    rw [hlength] at hshort
    omega
  · rintro h text ⟨hput, rfl⟩
    rw [hlength]
    by_contra hlong
    exact h ⟨by omega, hput⟩

/-- `c-1-2-3-0800-0900` -/
theorem window_command_overruns_buffer :
    ¬∀ (ch : Characteristic) (pData : List (BitVec 8)) (s : QueueState) (text : List (BitVec 8)),
      Queues ch pData s text → DecodedInBuffer ch text := by
  intro h
  have hdecoded := h .schedule
    [0x63, 0x2d, 0x31, 0x2d, 0x32, 0x2d, 0x33, 0x2d, 0x30, 0x38, 0x30, 0x30, 0x2d, 0x30, 0x39, 0x30,
      0x30] (queueAtBoot blankStores) _ rfl
  have hwrite := hdecoded.1 17 (by decide)
  revert hwrite
  decide

end IrRemote
