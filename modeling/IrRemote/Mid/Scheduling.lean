import IrRemote.Mid.Decode

/-!
# Commands for the triggers

A command is written to the schedule or to the timeout characteristic as a text of tokens
between dashes. The command handler notes the characteristic in `g_ubTriggerType` and queues the
text; the queued event is decoded and executed later and reads the variable twice.

## Main definitions

* `midDecodeTimeBasedSchedulingDecode` — the tokens are decoded one after the other
* `schedulingMode`, `schedulingExecute` — the mode is selected and the command is executed
* `midDecodeTimeBasedScheduling` — both

## Main results

* `decodeTokens_eq` — the loop decodes the first pieces of the text
* `foldlM_decodeNext_eq_none_iff` — the texts that are rejected
* `foldlM_decodeNext_fields` — the command and the identifier that are decoded
-/

set_option autoImplicit false

namespace IrRemote

/-- The values of `g_ubTriggerType`. -/
inductive TriggerType where
  | noneType
  | schedulingType
  | timeoutType
  deriving DecidableEq, Repr

/-- `CREATE_COMMAND`. -/
def createCommand : BitVec 8 := 0x63
/-- `DELETE_COMMAND`. -/
def deleteCommand : BitVec 8 := 0x64

/-- The delimiter of the tokens. -/
def commandDelim : List (BitVec 8) := [0x2d]

/-! ## Decoding -/

/-- The results of `Mid_DecodeTimeBasedSchedulingDecode`. -/
structure SchedulingCommand where
  ubCommand : BitVec 8
  tIRDataTrigger : IrDataTrigger
  ubNumOfCompenent : ℕ
  deriving DecidableEq, Repr

/-- The results before the first token. -/
def SchedulingCommand.zero : SchedulingCommand where
  ubCommand := 0
  tIRDataTrigger := {
    ubMode := 0, uwTrigID := 0, uwIrCode := 0, ubDays := 0, tTime1 := ⟨0, 0⟩, tTime2 := ⟨0, 0⟩
    ulTimeout := 0, ubMotionSen := 0, ubTriggerDone := 0 }
  ubNumOfCompenent := 0

/-- A time of the day in four digits. -/
def decodeHourMin (token : List (BitVec 8)) : Option HourMin :=
  if token.length = 4 then
    if checkStringIsNumber token then
      some {
        ubHour := (strToInt (token.take 2)).setWidth 8
        ubMin := (strToInt ((token.drop 2).take 2)).setWidth 8 }
    else none
  else none

/-- The decoding of one token; `none` where the source returns false. -/
def decodeComponent (ubTriggerType : TriggerType) (token : List (BitVec 8))
    (c : SchedulingCommand) : Option SchedulingCommand :=
  match c.ubNumOfCompenent with
  | 0 =>
    if token.length = 1 then
      let command := token.headD 0
      if command = createCommand ∨ command = deleteCommand then
        some { c with ubCommand := command }
      else none
    else none
  | 1 => (convertStringToHex token).map fun ubTemp => { c with tIRDataTrigger.uwTrigID := ubTemp }
  | 2 => (convertStringToHex token).map fun ubTemp => { c with tIRDataTrigger.uwIrCode := ubTemp }
  | 3 => (convertStringToHex token).map fun ubTemp => { c with tIRDataTrigger.ubDays := ubTemp }
  | 4 =>
    match ubTriggerType with
    | .schedulingType =>
      (decodeHourMin token).map fun tTime1 => { c with tIRDataTrigger.tTime1 := tTime1 }
    | .timeoutType =>
      (convertStringToHex32Bit token).map fun ulTimeOutTemp =>
        { c with tIRDataTrigger.ulTimeout := ulTimeOutTemp }
    | .noneType => some c
  | 5 => (decodeHourMin token).map fun tTime2 => { c with tIRDataTrigger.tTime2 := tTime2 }
  | _ => some c

/-- One token, and it is counted. -/
def decodeNext (ubTriggerType : TriggerType) (c : SchedulingCommand) (token : List (BitVec 8)) :
    Option SchedulingCommand := do
  let c ← decodeComponent ubTriggerType token c
  some { c with ubNumOfCompenent := c.ubNumOfCompenent + 1 }

/-- The loop over the tokens, which stops behind the given number of tokens. -/
def decodeTokens (ubTriggerType : TriggerType) : ℕ → List (BitVec 8) → SchedulingCommand →
    Option SchedulingCommand
  | 0, _, c => some c
  | n + 1, srcString, c =>
    match myStrtok commandDelim srcString with
    | none => some c
    | some (token, backupString) => do
      let c ← decodeNext ubTriggerType c token
      decodeTokens ubTriggerType n backupString c

/-- `Mid_DecodeTimeBasedSchedulingDecode`. The outer `none` is a text that does not fit the 16
bytes of `TempData`, the inner one is a result of false. -/
def midDecodeTimeBasedSchedulingDecode (ubTriggerType : TriggerType) (pData : List (BitVec 8)) :
    Option (Option SchedulingCommand) :=
  if 16 ≤ pData.length then none
  else some (decodeTokens ubTriggerType 6 (pData.takeWhile (· ≠ 0)) .zero)

/-! ## Execution -/

/-- The trigger of a command with the mode that its number of tokens selects. -/
def schedulingMode (ubTriggerType : TriggerType) (c : SchedulingCommand) : IrDataTrigger :=
  if c.ubNumOfCompenent = 6 then
    let t := { c.tIRDataTrigger with ubMode := windowTrigger }
    if t.tTime2.ubMin = 0 ∧ t.tTime2.ubHour = 0 then { t with tTime2 := ⟨24, 0⟩ } else t
  else if c.ubNumOfCompenent = 5 then
    match ubTriggerType with
    | .schedulingType => { c.tIRDataTrigger with ubMode := oneTrigger }
    | .timeoutType => { c.tIRDataTrigger with ubMode := timeoutTrigger }
    | .noneType => c.tIRDataTrigger
  else if c.ubNumOfCompenent = 3 then { c.tIRDataTrigger with ubMode := motionTrigger }
  else c.tIRDataTrigger

/-- The rest of `Mid_DecodeTimeBasedScheduling`, behind the decoding. -/
def schedulingExecute (ubTriggerType : TriggerType) (c : SchedulingCommand) (s : StoreState) :
    StoreState :=
  let tIRDataTrigger := schedulingMode ubTriggerType c
  if c.ubCommand = createCommand then (midInsertNewIRTrigger tIRDataTrigger s).2
  else if c.ubCommand = deleteCommand then
    (midRemoveIRTrigger (tIRDataTrigger.uwTrigID.setWidth 16) s).2
  else s

/-- `Mid_DecodeTimeBasedScheduling`, with `g_ubTriggerType` unchanged while it runs. -/
def midDecodeTimeBasedScheduling (ubTriggerType : TriggerType) (pData : List (BitVec 8))
    (s : StoreState) : Option StoreState := do
  let decoded ← midDecodeTimeBasedSchedulingDecode ubTriggerType pData
  match decoded with
  | some c => some (schedulingExecute ubTriggerType c s)
  | none => some s

/-! ## The texts that are decoded -/

/-- A decimal digit. -/
def IsDigit (c : BitVec 8) : Prop := 0x30 ≤ c ∧ c ≤ 0x39

/-- A hexadecimal digit. -/
def IsHexDigit (c : BitVec 8) : Prop :=
  IsDigit c ∨ 0x61 ≤ c ∧ c ≤ 0x66 ∨ 0x41 ≤ c ∧ c ≤ 0x46

instance (c : BitVec 8) : Decidable (IsDigit c) := inferInstanceAs (Decidable (_ ∧ _))

instance (c : BitVec 8) : Decidable (IsHexDigit c) := inferInstanceAs (Decidable (_ ∨ _))

/-- The token is accepted in its place. -/
def ComponentFits (ubTriggerType : TriggerType) (i : ℕ) (token : List (BitVec 8)) : Prop :=
  match i with
  | 0 => token = [createCommand] ∨ token = [deleteCommand]
  | 1 | 2 | 3 => token.length ≤ 2 ∧ ∀ c ∈ token, IsHexDigit c
  | 4 =>
    match ubTriggerType with
    | .schedulingType => token.length = 4 ∧ ∀ c ∈ token, IsDigit c
    | .timeoutType => ∀ c ∈ token, IsHexDigit c
    | .noneType => True
  | 5 => token.length = 4 ∧ ∀ c ∈ token, IsDigit c
  | _ => True

section Fits

variable {c : BitVec 8} {token : List (BitVec 8)} {w : ℕ} {x : BitVec w} {ty : TriggerType}

theorem convertCharToHex_eq_none_iff : convertCharToHex c = none ↔ ¬IsHexDigit c := by
  rw [convertCharToHex, IsHexDigit, IsDigit]
  split_ifs with hdigit hlower hupper
  · simp only [false_iff, not_not]
    exact .inl hdigit
  · simp only [false_iff, not_not]
    exact .inr (.inl hlower)
  · simp only [false_iff, not_not]
    exact .inr (.inr hupper)
  · simp only [true_iff, not_or]
    exact ⟨hdigit, hlower, hupper⟩

theorem hexDigits_eq_none_iff : hexDigits token x = none ↔ ¬∀ c ∈ token, IsHexDigit c := by
  induction token generalizing x with
  | nil => simp only [hexDigits, reduceCtorEq, List.not_mem_nil, false_implies, implies_true,
      not_true]
  | cons c token ih =>
    rw [hexDigits, List.forall_mem_cons, not_and_or, ← convertCharToHex_eq_none_iff]
    cases convertCharToHex c with
    | none => simp only [Option.bind_eq_bind, Option.bind_none, true_or]
    | some d =>
      simp only [Option.bind_eq_bind, Option.bind_some, reduceCtorEq, false_or]
      exact ih

theorem convertStringToHex_eq_none_iff :
    convertStringToHex token = none ↔ ¬(token.length ≤ 2 ∧ ∀ c ∈ token, IsHexDigit c) := by
  rw [convertStringToHex, not_and_or, ← hexDigits_eq_none_iff (x := (0 : BitVec 8))]
  split_ifs with hlong
  · simp only [not_le.mpr hlong, not_false_eq_true, true_or]
  · simp only [not_lt.mp hlong, not_true, false_or]

theorem checkStringIsNumber_iff : checkStringIsNumber token = true ↔ ∀ c ∈ token, IsDigit c := by
  rw [checkStringIsNumber, List.all_eq_true]
  simp only [IsDigit, not_or, BitVec.not_lt, decide_eq_true_eq]

theorem decodeHourMin_eq_none_iff :
    decodeHourMin token = none ↔ ¬(token.length = 4 ∧ ∀ c ∈ token, IsDigit c) := by
  rw [decodeHourMin, ← checkStringIsNumber_iff]
  split_ifs with hlen hnumber
  · simp only [hlen, hnumber, and_self, not_true]
  · simp only [hnumber, and_false, not_false_eq_true, Bool.false_eq_true]
  · simp only [hlen, false_and, not_false_eq_true]

theorem commandFits_iff :
    (token.length = 1 ∧ (token.headD 0 = createCommand ∨ token.headD 0 = deleteCommand)) ↔
      token = [createCommand] ∨ token = [deleteCommand] := by
  match token with
  | [] => simp
  | [c] => simp
  | c :: d :: token => simp

/-- The tokens that are rejected are those that do not fit. -/
theorem decodeComponent_eq_none_iff {c : SchedulingCommand} :
    decodeComponent ty token c = none ↔ ¬ComponentFits ty c.ubNumOfCompenent token := by
  unfold decodeComponent ComponentFits
  split
  case h_1 =>
    rw [← commandFits_iff]
    by_cases hlen : token.length = 1
    · by_cases hcommand : token.headD 0 = createCommand ∨ token.headD 0 = deleteCommand
      · simp only [hlen, hcommand, if_true, and_self, not_true, reduceCtorEq]
      · simp only [hcommand, if_false, ite_self, and_false, not_false_eq_true]
    · simp only [hlen, if_false, false_and, not_false_eq_true]
  case h_5 =>
    cases ty with
    | noneType => simp only [reduceCtorEq, not_true]
    | schedulingType => rw [Option.map_eq_none_iff, decodeHourMin_eq_none_iff]
    | timeoutType => rw [Option.map_eq_none_iff, convertStringToHex32Bit, hexDigits_eq_none_iff]
  case h_6 => rw [Option.map_eq_none_iff, decodeHourMin_eq_none_iff]
  case h_7 => simp only [reduceCtorEq, false_iff, not_not]
  all_goals rw [Option.map_eq_none_iff, convertStringToHex_eq_none_iff]

end Fits

/-! ## The loop -/

/-- The tokens of a text: the pieces between the dashes. -/
def commandTokens (text : List (BitVec 8)) : List (List (BitVec 8)) :=
  Pieces.pieces (fun c => c = 0x2d) text

section Loop

variable {ty : TriggerType} {tokens : List (List (BitVec 8))} {token : List (BitVec 8)}
  {c c' : SchedulingCommand}

theorem isDelim_commandDelim : (fun c => isDelim c commandDelim) = fun c => decide (c = 0x2d) := by
  funext c
  rw [isDelim, commandDelim, List.any_cons, List.any_nil, Bool.or_false]

/-- The loop decodes the first pieces of the text. -/
theorem decodeTokens_eq (n : ℕ) (text : List (BitVec 8)) (c : SchedulingCommand) :
    decodeTokens ty n text c = ((commandTokens text).take n).foldlM (decodeNext ty) c := by
  induction n generalizing text c with
  | zero => rfl
  | succ n ih =>
    have hscan : myStrtok commandDelim text = Pieces.next (fun c => decide (c = 0x2d)) text := by
      rw [← isDelim_commandDelim]
      rfl
    rw [decodeTokens, hscan, commandTokens]
    cases hnext : Pieces.next (fun c => decide (c = 0x2d)) text with
    | none =>
      rw [Pieces.pieces_of_next_none hnext]
      rfl
    | some next =>
      rw [(Pieces.pieces_of_next hnext).2, List.take_succ_cons, List.foldlM_cons]
      exact Option.bind_congr fun c _ => ih next.2 c

theorem decodeNext_eq_none_iff :
    decodeNext ty c token = none ↔ ¬ComponentFits ty c.ubNumOfCompenent token := by
  rw [decodeNext, ← decodeComponent_eq_none_iff]
  cases decodeComponent ty token c <;> simp

/-- What a decoded token changes: the first one is the command, the second one the
identifier. -/
theorem decodeComponent_fields (h : decodeComponent ty token c = some c') :
    c'.ubNumOfCompenent = c.ubNumOfCompenent ∧
      c'.ubCommand = (if c.ubNumOfCompenent = 0 then token.headD 0 else c.ubCommand) ∧
      c'.tIRDataTrigger.uwTrigID = if c.ubNumOfCompenent = 1 then (convertStringToHex token).getD 0
        else c.tIRDataTrigger.uwTrigID := by
  unfold decodeComponent at h
  split at h
  case h_1 hindex =>
    dsimp only at h
    split_ifs at h
    obtain rfl := Option.some.inj h
    simp only [hindex, if_true, true_and, Nat.zero_ne_one, if_false]
  case h_2 hindex =>
    obtain ⟨ubTemp, hhex, rfl⟩ := Option.map_eq_some_iff.mp h
    simp only [hindex, Nat.one_ne_zero, if_false, if_true, hhex, Option.getD_some, true_and]
  case h_5 hindex =>
    cases ty with
    | noneType =>
      obtain rfl := Option.some.inj h
      simp [hindex]
    | schedulingType =>
      obtain ⟨tTime1, -, rfl⟩ := Option.map_eq_some_iff.mp h
      simp [hindex]
    | timeoutType =>
      obtain ⟨ulTimeOutTemp, -, rfl⟩ := Option.map_eq_some_iff.mp h
      simp [hindex]
  -- behind the sixth component nothing is stored any more
  case h_7 hzero hone _ _ _ _ =>
    obtain rfl := Option.some.inj h
    exact ⟨rfl, (if_neg hzero).symm, (if_neg hone).symm⟩
  all_goals
    rename_i hindex
    obtain ⟨ubTemp, -, rfl⟩ := Option.map_eq_some_iff.mp h
    simp [hindex]

theorem decodeNext_fields (h : decodeNext ty c token = some c') :
    c'.ubNumOfCompenent = c.ubNumOfCompenent + 1 ∧
      c'.ubCommand = (if c.ubNumOfCompenent = 0 then token.headD 0 else c.ubCommand) ∧
      c'.tIRDataTrigger.uwTrigID = if c.ubNumOfCompenent = 1 then (convertStringToHex token).getD 0
        else c.tIRDataTrigger.uwTrigID := by
  rw [decodeNext] at h
  obtain ⟨d, hd, hc'⟩ := Option.bind_eq_some_iff.mp h
  obtain rfl := Option.some.inj hc'
  obtain ⟨hnum, hcommand, hid⟩ := decodeComponent_fields hd
  exact ⟨congrArg (· + 1) hnum, hcommand, hid⟩

/-- The texts with a token that does not fit are rejected. -/
theorem foldlM_decodeNext_eq_none_iff (tokens : List (List (BitVec 8))) (c : SchedulingCommand) :
    tokens.foldlM (decodeNext ty) c = none ↔
      ∃ i token, tokens[i]? = some token ∧ ¬ComponentFits ty (c.ubNumOfCompenent + i) token := by
  induction tokens generalizing c with
  | nil => simp
  | cons token tokens ih =>
    rw [List.foldlM_cons]
    cases hnext : decodeNext ty c token with
    | none =>
      refine iff_of_true rfl ⟨0, token, rfl, ?_⟩
      exact decodeNext_eq_none_iff.mp hnext
    | some d =>
      -- the first token fits, so one of the others is the one that does not
      have hfits : ComponentFits ty c.ubNumOfCompenent token := by
        by_contra hfits
        rw [decodeNext_eq_none_iff.mpr hfits] at hnext
        cases hnext
      refine (ih d).trans ?_
      rw [(decodeNext_fields hnext).1]
      constructor
      · rintro ⟨i, t, ht, hnot⟩
        refine ⟨i + 1, t, ht, ?_⟩
        rwa [Nat.add_right_comm] at hnot
      · rintro ⟨i, t, ht, hnot⟩
        cases i with
        | zero =>
          obtain rfl := Option.some.inj ht
          exact absurd hfits hnot
        | succ i =>
          refine ⟨i, t, ht, ?_⟩
          rwa [Nat.add_right_comm]

/-- From the third token on the command and the identifier are kept. -/
theorem foldlM_decodeNext_keeps (h : tokens.foldlM (decodeNext ty) c = some c')
    (hindex : 2 ≤ c.ubNumOfCompenent) :
    c'.ubCommand = c.ubCommand ∧ c'.tIRDataTrigger.uwTrigID = c.tIRDataTrigger.uwTrigID := by
  induction tokens generalizing c with
  | nil =>
    obtain rfl := Option.some.inj h
    exact ⟨rfl, rfl⟩
  | cons token tokens ih =>
    rw [List.foldlM_cons] at h
    obtain ⟨d, hd, h⟩ := Option.bind_eq_some_iff.mp h
    obtain ⟨hnum, hcommand, hid⟩ := decodeNext_fields hd
    obtain ⟨ihcommand, ihid⟩ := ih h (by omega)
    rw [if_neg (by omega)] at hcommand hid
    exact ⟨ihcommand.trans hcommand, ihid.trans hid⟩

theorem foldlM_decodeNext_count (h : tokens.foldlM (decodeNext ty) c = some c') :
    c'.ubNumOfCompenent = c.ubNumOfCompenent + tokens.length := by
  induction tokens generalizing c with
  | nil => exact congrArg _ (Option.some.inj h).symm
  | cons token tokens ih =>
    rw [List.foldlM_cons] at h
    obtain ⟨d, hd, h⟩ := Option.bind_eq_some_iff.mp h
    rw [ih h, (decodeNext_fields hd).1, List.length_cons, Nat.add_assoc, Nat.add_comm 1]

/-- The command of a text. -/
def commandByte (tokens : List (List (BitVec 8))) : BitVec 8 := (tokens.headD []).headD 0

/-- The identifier of a text. -/
def commandID (tokens : List (List (BitVec 8))) : BitVec 8 :=
  (tokens[1]?.bind convertStringToHex).getD 0

/-- The first token is the command, the second one the identifier, and the tokens are counted. -/
theorem foldlM_decodeNext_fields (h : tokens.foldlM (decodeNext ty) .zero = some c) :
    c.ubNumOfCompenent = tokens.length ∧ c.ubCommand = commandByte tokens ∧
      c.tIRDataTrigger.uwTrigID = commandID tokens := by
  refine ⟨(foldlM_decodeNext_count h).trans (Nat.zero_add _), ?_⟩
  match tokens with
  | [] =>
    obtain rfl := Option.some.inj h
    exact ⟨rfl, rfl⟩
  | [command] =>
    rw [List.foldlM_cons] at h
    obtain ⟨d, hd, h⟩ := Option.bind_eq_some_iff.mp h
    obtain rfl := Option.some.inj h
    obtain ⟨-, hcommand, hid⟩ := decodeNext_fields hd
    exact ⟨hcommand, hid⟩
  | command :: id :: tokens =>
    rw [List.foldlM_cons] at h
    obtain ⟨d, hd, h⟩ := Option.bind_eq_some_iff.mp h
    rw [List.foldlM_cons] at h
    obtain ⟨e, he, h⟩ := Option.bind_eq_some_iff.mp h
    obtain ⟨hnum, hcommand, -⟩ := decodeNext_fields hd
    obtain ⟨hnum', hcommand', hid⟩ := decodeNext_fields he
    rw [hnum] at hnum' hcommand' hid
    obtain ⟨hkeep, hkeepid⟩ := foldlM_decodeNext_keeps h (Nat.le_of_eq hnum'.symm)
    exact ⟨hkeep.trans (hcommand'.trans hcommand), hkeepid.trans hid⟩

end Loop

end IrRemote
