import IrRemote.Mid.Scheduling
import IrRemote.Store.Reboot

/-!
# Malformed commands

A text that is no command should leave the stores alone. The decoder only rejects a token that
does not fit its place: the beginning of a command, or a command with tokens behind it, is
executed with what was decoded.

## Main definitions

* `WellFormedCommand` — the commands of the protocol
* `NoEffect` — the texts that leave the stores alone

## Main results

* `midDecodeTimeBasedScheduling_eq_self_iff` — when a text leaves the stores alone
* `malformed_command_ignored_iff` — which malformed texts do
-/

set_option autoImplicit false

namespace IrRemote

/-- One or two hexadecimal digits. -/
def IsHexByte (token : List (BitVec 8)) : Prop :=
  (token.length = 1 ∨ token.length = 2) ∧ ∀ c ∈ token, IsHexDigit c

/-- The time of a command: four decimal digits, or a timeout in hexadecimal digits. -/
def IsCommandTime (ubTriggerType : TriggerType) (token : List (BitVec 8)) : Prop :=
  match ubTriggerType with
  | .schedulingType => token.length = 4 ∧ ∀ c ∈ token, IsDigit c
  | .timeoutType => token ≠ [] ∧ ∀ c ∈ token, IsHexDigit c
  | .noneType => False

/-- The tokens of a command: `d-I`, `c-I-K` or `c-I-K-D-T`. -/
def WellFormedCommand (ubTriggerType : TriggerType) (tokens : List (List (BitVec 8))) : Prop :=
  match tokens with
  | [command, id] => command = [deleteCommand] ∧ IsHexByte id
  | [command, id, irCode] => command = [createCommand] ∧ IsHexByte id ∧ IsHexByte irCode
  | [command, id, irCode, days, time] =>
    command = [createCommand] ∧ IsHexByte id ∧ IsHexByte irCode ∧ IsHexByte days ∧
      IsCommandTime ubTriggerType time
  | _ => False

/-- The text is empty but for dashes, one of its first six tokens does not fit its place, it
creates a trigger whose identifier is in use or for which no slot is free, or it deletes a
trigger that is not there. An identifier that is missing counts as zero. -/
def NoEffect (ubTriggerType : TriggerType) (tokens : List (List (BitVec 8))) (s : StoreState) :
    Prop :=
  let slot := triggerSlot s.atIRDataTrigger ((commandID tokens).setWidth 16)
  tokens = [] ∨
    (∃ i token, i < 6 ∧ tokens[i]? = some token ∧ ¬ComponentFits ubTriggerType i token) ∨
    (commandByte tokens = createCommand ∧
      (slot ≠ none ∨ freeTriggerSlot s.atIRDataTrigger = none)) ∨
    (commandByte tokens = deleteCommand ∧ slot = none)

variable {ty : TriggerType} {text : List (BitVec 8)} {s : StoreState}

theorem uwTrigID_schedulingMode (ty : TriggerType) (c : SchedulingCommand) :
    (schedulingMode ty c).uwTrigID = c.tIRDataTrigger.uwTrigID := by
  unfold schedulingMode
  dsimp only
  split_ifs
  · rfl
  · rfl
  · cases ty <;> rfl
  · rfl
  · rfl

/-- What a decoded command leaves alone. -/
theorem schedulingExecute_eq_self_iff {c : SchedulingCommand} :
    schedulingExecute ty c s = s ↔
      (c.ubCommand = createCommand →
        triggerSlot s.atIRDataTrigger (c.tIRDataTrigger.uwTrigID.setWidth 16) ≠ none ∨
          freeTriggerSlot s.atIRDataTrigger = none) ∧
      (c.ubCommand = deleteCommand →
        triggerSlot s.atIRDataTrigger (c.tIRDataTrigger.uwTrigID.setWidth 16) = none) := by
  have hne : createCommand ≠ deleteCommand := by decide
  rw [schedulingExecute]
  split_ifs with hcreate hdelete
  · rw [midInsertNewIRTrigger_eq_self_iff, uwTrigID_schedulingMode]
    simp only [hcreate, true_implies, hne, false_implies, and_true]
  · rw [midRemoveIRTrigger_eq_self_iff, uwTrigID_schedulingMode]
    simp only [hdelete, true_implies, hne.symm, false_implies, true_and]
  · simp only [hcreate, hdelete, false_implies, and_self]

/-- A text that is decoded creates or deletes a trigger, or it has no token. -/
theorem commandByte_of_fits {tokens : List (List (BitVec 8))}
    (hfits : ∀ token, tokens[0]? = some token → ComponentFits ty 0 token) :
    tokens = [] ∨ commandByte tokens = createCommand ∨ commandByte tokens = deleteCommand := by
  cases tokens with
  | nil => exact .inl rfl
  | cons token tokens =>
    obtain rfl | rfl := hfits token rfl
    · exact .inr (.inl rfl)
    · exact .inr (.inr rfl)

theorem commandByte_take (tokens : List (List (BitVec 8))) :
    commandByte (tokens.take 6) = commandByte tokens := by
  cases tokens <;> rfl

theorem commandID_take (tokens : List (List (BitVec 8))) :
    commandID (tokens.take 6) = commandID tokens := by
  rw [commandID, List.getElem?_take_of_lt (by decide : 1 < 6), commandID]

/-- The texts that leave the stores alone. -/
theorem midDecodeTimeBasedScheduling_eq_self_iff (hlen : text.length ≤ 15)
    (hnul : ∀ c ∈ text, c ≠ 0) :
    midDecodeTimeBasedScheduling ty text s = some s ↔ NoEffect ty (commandTokens text) s := by
  have htext : text.takeWhile (· ≠ 0) = text := by
    rw [List.takeWhile_eq_self_iff]
    simpa using hnul
  rw [midDecodeTimeBasedScheduling, midDecodeTimeBasedSchedulingDecode,
    if_neg (Nat.not_le_of_lt (Nat.lt_succ_of_le hlen)), htext, decodeTokens_eq]
  generalize commandTokens text = tokens
  -- the decoder rejects the text when one of the first six tokens does not fit
  have hreject : (tokens.take 6).foldlM (decodeNext ty) .zero = none ↔
      ∃ i token, i < 6 ∧ tokens[i]? = some token ∧ ¬ComponentFits ty i token := by
    rw [foldlM_decodeNext_eq_none_iff]
    simp only [List.getElem?_take, SchedulingCommand.zero, Nat.zero_add]
    constructor
    · rintro ⟨i, token, htoken, hnot⟩
      split_ifs at htoken with hi
      exact ⟨i, token, hi, htoken, hnot⟩
    · rintro ⟨i, token, hi, htoken, hnot⟩
      exact ⟨i, token, by rw [if_pos hi, htoken], hnot⟩
  cases hdecode : (tokens.take 6).foldlM (decodeNext ty) .zero with
  | none => exact iff_of_true rfl (.inr (.inl (hreject.mp hdecode)))
  | some c =>
    have hfits : ¬∃ i token, i < 6 ∧ tokens[i]? = some token ∧ ¬ComponentFits ty i token := by
      rw [← hreject, hdecode]
      exact Option.some_ne_none c
    have hcommand := @commandByte_of_fits ty _ fun token htoken => by
      by_contra hnot
      exact hfits ⟨0, token, Nat.succ_pos 5, htoken, hnot⟩
    obtain ⟨-, hbyte, hid⟩ := foldlM_decodeNext_fields hdecode
    rw [commandByte_take] at hbyte
    rw [commandID_take] at hid
    refine Option.some_inj.trans (schedulingExecute_eq_self_iff.trans ?_)
    have hne : createCommand ≠ deleteCommand := by decide
    rw [hbyte, hid, NoEffect]
    obtain rfl | hcreate | hdelete := hcommand
    · have hcreate : commandByte [] ≠ createCommand := by decide
      have hdelete : commandByte [] ≠ deleteCommand := by decide
      simp only [hcreate, hdelete, false_implies, and_self, true_or]
    · have hnil : tokens ≠ [] := by
        rintro rfl
        revert hcreate
        decide
      simp only [hcreate, hne, hnil, hfits, true_implies, false_implies, and_true, true_and,
        false_and, or_false, false_or]
    · have hnil : tokens ≠ [] := by
        rintro rfl
        revert hdelete
        decide
      simp only [hdelete, hne.symm, hnil, hfits, true_implies, false_implies, true_and,
        false_and, false_or]

/-- A malformed text leaves the stores alone exactly when it is one of the texts without an
effect. -/
theorem malformed_command_ignored_iff (hlen : text.length ≤ 15) (hnul : ∀ c ∈ text, c ≠ 0)
    (ty : TriggerType) (s : StoreState) :
    (¬WellFormedCommand ty (commandTokens text) → midDecodeTimeBasedScheduling ty text s = some s) ↔
      WellFormedCommand ty (commandTokens text) ∨ NoEffect ty (commandTokens text) s := by
  rw [midDecodeTimeBasedScheduling_eq_self_iff hlen hnul, or_iff_not_imp_left]

/-- `x-1`: no command. -/
theorem malformed_command_ignored_iff_letter :
    midDecodeTimeBasedScheduling .schedulingType [0x78, 0x2d, 0x31] blankStores =
      some blankStores := by
  have htokens : commandTokens [0x78, 0x2d, 0x31] = [[0x78], [0x31]] := by decide
  have hmalformed : ¬WellFormedCommand .schedulingType (commandTokens [0x78, 0x2d, 0x31]) := by
    rw [htokens]
    rintro ⟨hcommand, -⟩
    revert hcommand
    decide
  have hnot : ¬ComponentFits .schedulingType 0 [0x78] := by
    rw [ComponentFits]
    decide
  refine (malformed_command_ignored_iff (by decide) (by decide) .schedulingType blankStores).mpr ?_
    hmalformed
  exact .inr (.inr (.inl ⟨0, [0x78], by decide, congrArg List.head? htokens, hnot⟩))

/-- `c-1-2-3`: the fields of a trigger without a time. A trigger is stored, without a mode. -/
theorem incomplete_command_executed :
    ¬∀ (ty : TriggerType) (text : List (BitVec 8)) (s : StoreState), text.length ≤ 15 →
      (∀ c ∈ text, c ≠ 0) → ¬WellFormedCommand ty (commandTokens text) →
        midDecodeTimeBasedScheduling ty text s = some s := by
  intro h
  have htokens : commandTokens [0x63, 0x2d, 0x31, 0x2d, 0x32, 0x2d, 0x33] =
      [[0x63], [0x31], [0x32], [0x33]] := by decide
  have hrun := h .schedulingType [0x63, 0x2d, 0x31, 0x2d, 0x32, 0x2d, 0x33] blankStores
    (by decide) (by decide) (by rw [htokens]; exact not_false)
  have hcount := congrArg (Option.map StoreState.ubIRTriggerCount) hrun
  revert hcount
  decide +kernel

end IrRemote
