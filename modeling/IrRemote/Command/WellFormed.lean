import Mathlib.Data.Nat.Digits.Defs
import IrRemote.Command.Malformed

/-!
# Well-formed commands

The numbers of a command are read digit by digit: a hexadecimal digit is shifted to its place
and combined by OR, a decimal one is added to ten times what was read so far. For a well-formed
command the trigger that is created has the numbers that the digits stand for.

## Main definitions

* `hexValue`, `decimalValue` — the number a token stands for
* `commandText` — the text of a list of tokens
* `SchedulingCall`, `schedulingCalls` — the calls that a decoded command makes
* `SchedulingCall.Executes` — the call that a well-formed command asks for

## Main results

* `hexDigits_eq`, `strToInt_eq` — the loops compute the value of their digits
* `well_formed_command_decoded` — a well-formed command makes the call it asks for
-/

set_option autoImplicit false

namespace IrRemote

/-! ## The numbers of a command -/

/-- The value of a decimal digit. -/
def digitValue (c : BitVec 8) : ℕ := c.toNat - 0x30

/-- The value of a hexadecimal digit of either case. -/
def hexDigitValue (c : BitVec 8) : ℕ :=
  if IsDigit c then digitValue c
  else if 0x61 ≤ c then c.toNat - 0x61 + 10
  else c.toNat - 0x41 + 10

/-- The number that a token of decimal digits stands for; zero for an absent token. -/
def decimalValue (token : List (BitVec 8)) : ℕ := Nat.ofDigits 10 (token.reverse.map digitValue)

/-- The number that a token of hexadecimal digits stands for; zero for an absent token. -/
def hexValue (token : List (BitVec 8)) : ℕ := Nat.ofDigits 16 (token.reverse.map hexDigitValue)

section Numbers

variable {c : BitVec 8} {token : List (BitVec 8)}

theorem digitValue_lt (h : IsDigit c) : digitValue c < 10 := by
  obtain ⟨-, hhigh⟩ := h
  rw [BitVec.le_def] at hhigh
  change c.toNat ≤ 57 at hhigh
  rw [digitValue]
  omega

theorem convertCharToHex_eq (h : IsHexDigit c) :
    convertCharToHex c = some (BitVec.ofNat 8 (hexDigitValue c)) ∧ hexDigitValue c < 16 := by
  revert c
  decide

theorem decimalValue_cons :
    decimalValue (c :: token) = digitValue c * 10 ^ token.length + decimalValue token := by
  rw [decimalValue, List.reverse_cons, List.map_append, Nat.ofDigits_append, List.length_map,
    List.length_reverse, List.map_singleton, Nat.ofDigits_singleton, Nat.mul_comm, Nat.add_comm]
  rfl

theorem hexValue_cons :
    hexValue (c :: token) = hexDigitValue c <<< (token.length * 4) + hexValue token := by
  rw [hexValue, List.reverse_cons, List.map_append, Nat.ofDigits_append, List.length_map,
    List.length_reverse, List.map_singleton, Nat.ofDigits_singleton, Nat.shiftLeft_eq,
    Nat.mul_comm token.length, Nat.pow_mul, Nat.mul_comm, Nat.add_comm]
  rfl

theorem decimalValue_lt (h : ∀ c ∈ token, IsDigit c) : decimalValue token < 10 ^ token.length := by
  rw [decimalValue]
  refine (Nat.ofDigits_lt_base_pow_length (by decide) ?_).trans_eq (by simp)
  rintro _ hx
  obtain ⟨c, hc, rfl⟩ := List.mem_map.mp hx
  exact digitValue_lt (h c (List.mem_reverse.mp hc))

theorem hexValue_lt (h : ∀ c ∈ token, IsHexDigit c) : hexValue token < 2 ^ (token.length * 4) := by
  rw [hexValue, Nat.mul_comm token.length, Nat.pow_mul]
  refine (Nat.ofDigits_lt_base_pow_length (by decide) ?_).trans_eq (by simp)
  rintro _ hx
  obtain ⟨c, hc, rfl⟩ := List.mem_map.mp hx
  exact (convertCharToHex_eq (h c (List.mem_reverse.mp hc))).2

/-- The digits of a token go to the places below those that were read before. -/
theorem hexDigits_eq {w : ℕ} (h : ∀ c ∈ token, IsHexDigit c) (result : BitVec w) :
    hexDigits token result = some (result ||| BitVec.ofNat w (hexValue token)) := by
  induction token generalizing result with
  | nil => exact congrArg some (BitVec.or_zero).symm
  | cons c token ih =>
    obtain ⟨hc, htoken⟩ := List.forall_mem_cons.mp h
    obtain ⟨hconvert, hlt⟩ := convertCharToHex_eq hc
    have hplace : (BitVec.ofNat 8 (hexDigitValue c)).setWidth w <<< (token.length * 4) =
        BitVec.ofNat w (hexDigitValue c <<< (token.length * 4)) := by
      rw [← BitVec.toNat_inj, BitVec.toNat_shiftLeft, BitVec.toNat_setWidth, BitVec.toNat_ofNat,
        BitVec.toNat_ofNat, Nat.mod_eq_of_lt (hlt.trans (by decide : 16 < 256)), Nat.shiftLeft_eq,
        Nat.shiftLeft_eq, Nat.mod_mul_mod]
    rw [hexDigits, hconvert, Option.bind_eq_bind, Option.bind_some, ih htoken, hplace,
      hexValue_cons, Nat.shiftLeft_add_eq_or_of_lt (hexValue_lt htoken), BitVec.ofNat_or,
      BitVec.or_assoc]

theorem convertStringToHex_eq (h : IsHexByte token) :
    ∃ ubTemp : BitVec 8, convertStringToHex token = some ubTemp ∧
      ubTemp.toNat = hexValue token := by
  obtain ⟨hlen, hdigits⟩ := h
  have hshort : token.length ≤ 2 := by omega
  refine ⟨BitVec.ofNat 8 (hexValue token), ?_, ?_⟩
  · rw [convertStringToHex, if_neg (Nat.not_lt_of_le hshort), hexDigits_eq hdigits]
    exact congrArg some BitVec.zero_or
  · have hlt : hexValue token < 256 :=
      (hexValue_lt hdigits).trans_le (Nat.pow_le_pow_right (by decide) (by omega : _ ≤ 8))
    rw [BitVec.toNat_ofNat, Nat.mod_eq_of_lt hlt]

/-- Up to eight digits fit the word. -/
theorem convertStringToHex32Bit_eq (hlen : token.length ≤ 8) (hdigits : ∀ c ∈ token, IsHexDigit c) :
    ∃ ulTemp : BitVec 32, convertStringToHex32Bit token = some ulTemp ∧
      ulTemp.toNat = hexValue token := by
  refine ⟨BitVec.ofNat 32 (hexValue token), ?_, ?_⟩
  · rw [convertStringToHex32Bit, hexDigits_eq hdigits]
    exact congrArg some BitVec.zero_or
  · have hlt : hexValue token < 2 ^ 32 :=
      (hexValue_lt hdigits).trans_le (Nat.pow_le_pow_right (by decide) (by omega))
    rw [BitVec.toNat_ofNat, Nat.mod_eq_of_lt hlt]

/-- The digits of a token go behind those that were read before. -/
theorem strToInt_foldl (h : ∀ c ∈ token, IsDigit c) (n : ℕ) :
    token.foldl (fun ulRet ubData => ulRet * 10 + (ubData.setWidth 32 - 48)) (BitVec.ofNat 32 n) =
      BitVec.ofNat 32 (n * 10 ^ token.length + decimalValue token) := by
  induction token generalizing n with
  | nil => rw [List.foldl_nil, List.length_nil, Nat.pow_zero, Nat.mul_one]; rfl
  | cons c token ih =>
    obtain ⟨hc, htoken⟩ := List.forall_mem_cons.mp h
    have hdigit : c.setWidth 32 - 48 = BitVec.ofNat 32 (digitValue c) := by
      obtain ⟨hlow, -⟩ := hc
      rw [BitVec.le_def] at hlow
      change 48 ≤ c.toNat at hlow
      rw [digitValue]
      bv_omega
    have hstep : BitVec.ofNat 32 n * 10 + BitVec.ofNat 32 (digitValue c) =
        BitVec.ofNat 32 (n * 10 + digitValue c) := by
      rw [BitVec.ofNat_add, BitVec.ofNat_mul]
      rfl
    rw [List.foldl_cons, hdigit, hstep, ih htoken, decimalValue_cons, List.length_cons]
    congr 1
    ring

theorem strToInt_eq (h : ∀ c ∈ token, IsDigit c) :
    strToInt token = BitVec.ofNat 32 (decimalValue token) := by
  have hfold := strToInt_foldl h 0
  rwa [Nat.zero_mul, Nat.zero_add] at hfold

theorem toNat_strToInt_setWidth (hlen : token.length ≤ 2) (h : ∀ c ∈ token, IsDigit c) :
    ((strToInt token).setWidth 8).toNat = decimalValue token := by
  have hlt : decimalValue token < 100 :=
    (decimalValue_lt h).trans_le (Nat.pow_le_pow_right (by decide : 0 < 10) hlen)
  rw [strToInt_eq h, BitVec.toNat_setWidth, BitVec.toNat_ofNat]
  omega

theorem decodeHourMin_eq (hlen : token.length = 4) (h : ∀ c ∈ token, IsDigit c) :
    ∃ time, decodeHourMin token = some time ∧
      time.ubHour.toNat = decimalValue (token.take 2) ∧
      time.ubMin.toNat = decimalValue (token.drop 2) := by
  have hmin : (token.drop 2).take 2 = token.drop 2 :=
    List.take_of_length_le (by rw [List.length_drop]; omega)
  rw [decodeHourMin, if_pos hlen, if_pos (checkStringIsNumber_iff.mpr h), hmin]
  refine ⟨_, rfl, ?_, ?_⟩
  · exact toNat_strToInt_setWidth (List.length_take_le 2 token)
      fun c hc => h c (List.mem_of_mem_take hc)
  · refine toNat_strToInt_setWidth ?_ fun c hc => h c (List.mem_of_mem_drop hc)
    rw [List.length_drop]
    omega

end Numbers

/-! ## The calls of a command -/

/-- A call that `Mid_DecodeTimeBasedScheduling` makes. -/
inductive SchedulingCall where
  | midInsertNewIRTrigger (tIRDataTrigger : IrDataTrigger)
  | midRemoveIRTrigger (uwTrigID : BitVec 16)
  deriving DecidableEq

/-- The stores behind the call. -/
def SchedulingCall.run (s : StoreState) : SchedulingCall → StoreState
  | .midInsertNewIRTrigger tIRDataTrigger => (IrRemote.midInsertNewIRTrigger tIRDataTrigger s).2
  | .midRemoveIRTrigger uwTrigID => (IrRemote.midRemoveIRTrigger uwTrigID s).2

/-- The calls of `schedulingExecute`, in their order. -/
def schedulingCalls (ubTriggerType : TriggerType) (c : SchedulingCommand) : List SchedulingCall :=
  let tIRDataTrigger := schedulingMode ubTriggerType c
  if c.ubCommand = createCommand then [.midInsertNewIRTrigger tIRDataTrigger]
  else if c.ubCommand = deleteCommand then
    [.midRemoveIRTrigger (tIRDataTrigger.uwTrigID.setWidth 16)]
  else []

/-- The calls of `midDecodeTimeBasedScheduling`; none for a text that is rejected. -/
def midDecodeTimeBasedSchedulingCalls (ubTriggerType : TriggerType) (pData : List (BitVec 8)) :
    Option (List SchedulingCall) :=
  (midDecodeTimeBasedSchedulingDecode ubTriggerType pData).map fun decoded =>
    decoded.elim [] (schedulingCalls ubTriggerType)

/-- The decoder changes the stores by its calls only. -/
theorem midDecodeTimeBasedScheduling_eq_calls (ty : TriggerType) (text : List (BitVec 8))
    (s : StoreState) :
    midDecodeTimeBasedScheduling ty text s =
      (midDecodeTimeBasedSchedulingCalls ty text).map fun calls =>
        calls.foldl SchedulingCall.run s := by
  have hexecute (c : SchedulingCommand) :
      schedulingExecute ty c s = (schedulingCalls ty c).foldl SchedulingCall.run s := by
    rw [schedulingExecute, schedulingCalls]
    split_ifs <;> rfl
  rw [midDecodeTimeBasedScheduling, midDecodeTimeBasedSchedulingCalls, Option.map_map]
  cases midDecodeTimeBasedSchedulingDecode ty text with
  | none => rfl
  | some decoded =>
    cases decoded with
    | none => rfl
    | some c => exact congrArg some (hexecute c)

/-! ## The meaning of a well-formed command -/

/-- The text that joins the tokens with dashes. -/
def commandText (tokens : List (List (BitVec 8))) : List (BitVec 8) := [0x2d].intercalate tokens

/-- The trigger has the numbers of the tokens; an absent token counts as zero. -/
structure IrDataTrigger.Reads (t : IrDataTrigger) (id irCode days time timeout : List (BitVec 8)) :
    Prop where
  uwTrigID : t.uwTrigID.toNat = hexValue id
  uwIrCode : t.uwIrCode.toNat = hexValue irCode
  ubDays : t.ubDays.toNat = hexValue days
  ubHour : t.tTime1.ubHour.toNat = decimalValue (time.take 2)
  ubMin : t.tTime1.ubMin.toNat = decimalValue (time.drop 2)
  ulTimeout : t.ulTimeout.toNat = hexValue timeout

/-- The call is the one that the tokens of a well-formed command ask for. -/
def SchedulingCall.Executes (ubTriggerType : TriggerType) (tokens : List (List (BitVec 8)))
    (call : SchedulingCall) : Prop :=
  match tokens, call with
  | [_, id], .midRemoveIRTrigger uwTrigID => uwTrigID.toNat = hexValue id
  | [_, id, irCode], .midInsertNewIRTrigger t =>
    t.ubMode = motionTrigger ∧ t.Reads id irCode [] [] []
  | [_, id, irCode, days, time], .midInsertNewIRTrigger t =>
    match ubTriggerType with
    | .schedulingType => t.ubMode = oneTrigger ∧ t.Reads id irCode days time []
    | .timeoutType => t.ubMode = timeoutTrigger ∧ t.Reads id irCode days [] time
    | .noneType => False
  | _, _ => False

section Meaning

variable {ty : TriggerType} {tokens : List (List (BitVec 8))} {token : List (BitVec 8)}

theorem IsDigit.ne_dash {c : BitVec 8} (h : IsDigit c) : c ≠ 0x2d ∧ c ≠ 0 := by
  revert c
  decide

theorem IsHexDigit.ne_dash {c : BitVec 8} (h : IsHexDigit c) : c ≠ 0x2d ∧ c ≠ 0 := by
  revert c
  decide

/-- A token that neither is empty nor holds a dash or a NUL. -/
def IsToken (token : List (BitVec 8)) : Prop := token ≠ [] ∧ ∀ c ∈ token, c ≠ 0x2d ∧ c ≠ 0

theorem IsHexByte.isToken (h : IsHexByte token) : IsToken token := by
  obtain ⟨hlen, hdigits⟩ := h
  refine ⟨?_, fun c hc => (hdigits c hc).ne_dash⟩
  rintro rfl
  simp at hlen

theorem IsCommandTime.isToken (h : IsCommandTime ty token) : IsToken token := by
  cases ty with
  | noneType => exact h.elim
  | schedulingType =>
    obtain ⟨hlen, hdigits⟩ := h
    refine ⟨?_, fun c hc => (hdigits c hc).ne_dash⟩
    rintro rfl
    simp at hlen
  | timeoutType => exact ⟨h.1, fun c hc => (h.2 c hc).ne_dash⟩

theorem isToken_command : IsToken [createCommand] ∧ IsToken [deleteCommand] := by
  unfold IsToken
  decide

theorem WellFormedCommand.isToken (h : WellFormedCommand ty tokens) :
    ∀ token ∈ tokens, IsToken token := by
  match tokens, h with
  | [_, id], ⟨hcommand, hid⟩ =>
    simp only [List.forall_mem_cons, hcommand, isToken_command.2, hid.isToken, true_and]
    exact fun _ h => nomatch h
  | [_, id, irCode], ⟨hcommand, hid, hir⟩ =>
    simp only [List.forall_mem_cons, hcommand, isToken_command.1, hid.isToken, hir.isToken,
      true_and]
    exact fun _ h => nomatch h
  | [_, id, irCode, days, time], ⟨hcommand, hid, hir, hdays, htime⟩ =>
    simp only [List.forall_mem_cons, hcommand, isToken_command.1, hid.isToken, hir.isToken,
      hdays.isToken, htime.isToken, true_and]
    exact fun _ h => nomatch h

/-- The tokens are read off the text that joins them. -/
theorem commandTokens_commandText (h : ∀ token ∈ tokens, IsToken token) :
    commandTokens (commandText tokens) = tokens := by
  refine Pieces.pieces_intercalate (by decide) fun token htoken => ?_
  obtain ⟨hne, hfree⟩ := h token htoken
  exact ⟨hne, fun c hc => decide_eq_false (hfree c hc).1⟩

theorem takeWhile_commandText (h : ∀ token ∈ tokens, IsToken token) :
    (commandText tokens).takeWhile (· ≠ 0) = commandText tokens := by
  rw [List.takeWhile_eq_self_iff]
  induction tokens with
  | nil => exact fun c hc => nomatch hc
  | cons token tokens ih =>
    obtain ⟨⟨-, htoken⟩, htokens⟩ := List.forall_mem_cons.mp h
    have hfree (c : BitVec 8) (hc : c ∈ token) : decide (c ≠ 0) = true :=
      decide_eq_true (htoken c hc).2
    cases tokens with
    | nil => rwa [commandText, List.intercalate_singleton]
    | cons next tokens =>
      intro c hc
      rw [commandText, List.intercalate_cons_cons, List.mem_append, List.mem_append,
        List.mem_singleton] at hc
      obtain (hc | rfl) | hc := hc
      · exact hfree c hc
      · rfl
      · exact ih htokens c hc

theorem midDecodeTimeBasedSchedulingDecode_commandText (h : ∀ token ∈ tokens, IsToken token)
    (hlen : (commandText tokens).length ≤ 15) (hcount : tokens.length ≤ 6) :
    midDecodeTimeBasedSchedulingDecode ty (commandText tokens) =
      some (tokens.foldlM (decodeNext ty) .zero) := by
  rw [midDecodeTimeBasedSchedulingDecode, if_neg (Nat.not_le_of_lt (Nat.lt_succ_of_le hlen)),
    takeWhile_commandText h, decodeTokens_eq, commandTokens_commandText h,
    List.take_of_length_le hcount]

/-- `d-I` -/
theorem executes_delete {id : List (BitVec 8)} (hid : IsHexByte id) :
    ∃ c call, [[deleteCommand], id].foldlM (decodeNext ty) .zero = some c ∧
      schedulingCalls ty c = [call] ∧ call.Executes ty [[deleteCommand], id] := by
  obtain ⟨uwTrigID, hconvert, hvalue⟩ := convertStringToHex_eq hid
  have hdecode : [[deleteCommand], id].foldlM (decodeNext ty) .zero = some {
      ubCommand := deleteCommand
      tIRDataTrigger := { SchedulingCommand.zero.tIRDataTrigger with uwTrigID }
      ubNumOfCompenent := 2 } := by
    simp only [List.foldlM_cons, List.foldlM_nil, decodeNext, decodeComponent, hconvert]
    rfl
  refine ⟨_, .midRemoveIRTrigger (uwTrigID.setWidth 16), hdecode, rfl, ?_⟩
  rw [SchedulingCall.Executes, BitVec.toNat_setWidth_of_le (by decide), hvalue]

/-- `c-I-K` -/
theorem executes_motion {id irCode : List (BitVec 8)} (hid : IsHexByte id)
    (hir : IsHexByte irCode) :
    ∃ c call, [[createCommand], id, irCode].foldlM (decodeNext ty) .zero = some c ∧
      schedulingCalls ty c = [call] ∧ call.Executes ty [[createCommand], id, irCode] := by
  obtain ⟨uwTrigID, hconvert, hvalue⟩ := convertStringToHex_eq hid
  obtain ⟨uwIrCode, hconvertIr, hvalueIr⟩ := convertStringToHex_eq hir
  let t := { SchedulingCommand.zero.tIRDataTrigger with uwTrigID, uwIrCode }
  have hdecode : [[createCommand], id, irCode].foldlM (decodeNext ty) .zero =
      some ⟨createCommand, t, 3⟩ := by
    simp only [List.foldlM_cons, List.foldlM_nil, decodeNext, decodeComponent, hconvert,
      hconvertIr]
    rfl
  refine ⟨_, .midInsertNewIRTrigger { t with ubMode := motionTrigger }, hdecode, rfl, rfl, ?_⟩
  exact ⟨hvalue, hvalueIr, rfl, rfl, rfl, rfl⟩

/-- `c-I-K-D-hhmm`, or `c-I-K-D-X` -/
theorem executes_timed {id irCode days time : List (BitVec 8)} (hid : IsHexByte id)
    (hir : IsHexByte irCode) (hdays : IsHexByte days) (htime : IsCommandTime ty time)
    (hlen : time.length ≤ 8) :
    ∃ c call, [[createCommand], id, irCode, days, time].foldlM (decodeNext ty) .zero = some c ∧
      schedulingCalls ty c = [call] ∧
        call.Executes ty [[createCommand], id, irCode, days, time] := by
  obtain ⟨uwTrigID, hconvert, hvalue⟩ := convertStringToHex_eq hid
  obtain ⟨uwIrCode, hconvertIr, hvalueIr⟩ := convertStringToHex_eq hir
  obtain ⟨ubDays, hconvertDays, hvalueDays⟩ := convertStringToHex_eq hdays
  let t := { SchedulingCommand.zero.tIRDataTrigger with uwTrigID, uwIrCode, ubDays }
  cases ty with
  | noneType => exact htime.elim
  | schedulingType =>
    obtain ⟨tTime1, hconvertTime, hhour, hmin⟩ := decodeHourMin_eq htime.1 htime.2
    have hdecode : [[createCommand], id, irCode, days, time].foldlM (decodeNext .schedulingType)
        .zero = some ⟨createCommand, { t with tTime1 }, 5⟩ := by
      simp only [List.foldlM_cons, List.foldlM_nil, decodeNext, decodeComponent, hconvert,
        hconvertIr, hconvertDays, hconvertTime]
      rfl
    refine ⟨_, .midInsertNewIRTrigger { t with tTime1, ubMode := oneTrigger }, hdecode, rfl, rfl,
      ?_⟩
    exact ⟨hvalue, hvalueIr, hvalueDays, hhour, hmin, rfl⟩
  | timeoutType =>
    obtain ⟨ulTimeout, hconvertTime, hvalueTime⟩ := convertStringToHex32Bit_eq hlen htime.2
    have hdecode : [[createCommand], id, irCode, days, time].foldlM (decodeNext .timeoutType)
        .zero = some ⟨createCommand, { t with ulTimeout }, 5⟩ := by
      simp only [List.foldlM_cons, List.foldlM_nil, decodeNext, decodeComponent, hconvert,
        hconvertIr, hconvertDays, hconvertTime]
      rfl
    refine ⟨_, .midInsertNewIRTrigger { t with ulTimeout, ubMode := timeoutTrigger }, hdecode, rfl,
      rfl, ?_⟩
    exact ⟨hvalue, hvalueIr, hvalueDays, rfl, rfl, hvalueTime⟩

/-- The last token of a timed command leaves room for the others. -/
theorem length_time_le {command id irCode days time : List (BitVec 8)} (hid : IsHexByte id)
    (hir : IsHexByte irCode) (hdays : IsHexByte days)
    (hlen : (commandText [command, id, irCode, days, time]).length ≤ 15) : time.length ≤ 8 := by
  simp only [commandText, List.intercalate_cons_cons, List.intercalate_singleton,
    List.length_append, List.length_singleton] at hlen
  have hidLen := hid.1
  have hirLen := hir.1
  have hdaysLen := hdays.1
  omega

theorem WellFormedCommand.executes (h : WellFormedCommand ty tokens)
    (hlen : (commandText tokens).length ≤ 15) :
    ∃ c call, tokens.foldlM (decodeNext ty) .zero = some c ∧ schedulingCalls ty c = [call] ∧
      call.Executes ty tokens := by
  match tokens, h with
  | [_, id], ⟨rfl, hid⟩ => exact executes_delete hid
  | [_, id, irCode], ⟨rfl, hid, hir⟩ => exact executes_motion hid hir
  | [_, id, irCode, days, time], ⟨rfl, hid, hir, hdays, htime⟩ =>
    exact executes_timed hid hir hdays htime (length_time_le hid hir hdays hlen)

theorem WellFormedCommand.length_le (h : WellFormedCommand ty tokens) : tokens.length ≤ 6 := by
  match tokens, h with
  | [_, _], _ | [_, _, _], _ | [_, _, _, _, _], _ => simp

end Meaning

/-- A well-formed command of at most 15 bytes makes one call: the one that its tokens ask for. -/
theorem well_formed_command_decoded {ty : TriggerType} {tokens : List (List (BitVec 8))}
    (hcommand : WellFormedCommand ty tokens) (hlen : (commandText tokens).length ≤ 15) :
    ∃ call : SchedulingCall, call.Executes ty tokens ∧
      midDecodeTimeBasedSchedulingCalls ty (commandText tokens) = some [call] ∧
      ∀ s, midDecodeTimeBasedScheduling ty (commandText tokens) s = some (call.run s) := by
  obtain ⟨c, call, hdecode, hcalls, hexecutes⟩ := hcommand.executes hlen
  have hmake : midDecodeTimeBasedSchedulingCalls ty (commandText tokens) = some [call] := by
    rw [midDecodeTimeBasedSchedulingCalls, midDecodeTimeBasedSchedulingDecode_commandText
      hcommand.isToken hlen hcommand.length_le, hdecode, Option.map_some, Option.elim_some, hcalls]
  refine ⟨call, hexecutes, hmake, fun s => ?_⟩
  rw [midDecodeTimeBasedScheduling_eq_calls, hmake]
  rfl

/-- `c-a-B-7F-2359` -/
theorem well_formed_command_decoded_schedule :
    ∃ call : SchedulingCall,
      call.Executes .schedulingType
        [[0x63], [0x61], [0x42], [0x37, 0x46], [0x32, 0x33, 0x35, 0x39]] ∧
      midDecodeTimeBasedSchedulingCalls .schedulingType
        [0x63, 0x2d, 0x61, 0x2d, 0x42, 0x2d, 0x37, 0x46, 0x2d, 0x32, 0x33, 0x35, 0x39] =
          some [call] := by
  have hcommand : WellFormedCommand .schedulingType
      [[0x63], [0x61], [0x42], [0x37, 0x46], [0x32, 0x33, 0x35, 0x39]] := by
    unfold WellFormedCommand IsHexByte IsCommandTime
    decide
  obtain ⟨call, hexecutes, hcalls, -⟩ := well_formed_command_decoded hcommand (by decide)
  exact ⟨call, hexecutes, hcalls⟩

end IrRemote
