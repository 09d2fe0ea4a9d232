import IrRemote.Library.Pieces
import IrRemote.Library.SlotTable
import IrRemote.Op.StoreRecords

/-!
# Support functions

The conversions of `Op_SupportFunction.c` that the stores and the commands use. A string is
the list of its bytes; a buffer whose end is not checked is a function of the offset.

## Main definitions

* `convertSensitivityToLevel` — the motion level of a sensitivity
* `linearSerachID` — the slot of an enabled code
* `convertStringToHex`, `convertStringToHex32Bit`, `convertID`, `convertArrayToNumber`,
  `checkStringIsNumber`, `strToInt`, `convertStringToTimeStamp` — numbers in commands
* `myStrtok` — the tokens of a command
-/

set_option autoImplicit false

namespace IrRemote

/-- `CONVERT_SENSITIVITY_TO_VALUE`, cut to the byte it is assigned to. -/
def convertSensitivityToValue (sensitivity : BitVec 8) : BitVec 8 := 30 - sensitivity

/-- `ConvertSensitivityToLevel`: the levels `SENSITIVITY_LEVEL_NONE` to
`SENSITIVITY_LEVEL_4` are the numbers 0 to 5. -/
def convertSensitivityToLevel (ubSens : BitVec 8) : BitVec 8 :=
  let ubSens := convertSensitivityToValue (ubSens * 2)
  if ubSens ≤ 6 then
    if 4 ≤ ubSens then 1 else 0
  else if ubSens ≤ 12 then 2
  else if ubSens ≤ 18 then 3
  else if ubSens ≤ 24 then 4
  else if ubSens ≤ 30 then 5
  else 0

/-! ## Codes -/

/-- The identifier of an enabled code. -/
def IRDataT.enabledID (e : IRDataT) : Option (BitVec 16) :=
  if e.ulStatus = irCodeEnable then some e.uwID else none

/-- `LinearSerachID`. -/
def linearSerachID {n : ℕ} (pData : Vector IRDataT n) (uwKey : BitVec 16) : ℤ :=
  let scan := Fin.find? fun i =>
    (pData.get i).uwID = uwKey ∧ (pData.get i).ulStatus = irCodeEnable
  match scan with
  | some i => i
  | none => -1

/-! ## Numbers -/

/-- `ConvertCharToHex`. -/
def convertCharToHex (ubData : BitVec 8) : Option (BitVec 8) :=
  if 48 ≤ ubData ∧ ubData ≤ 57 then some (ubData - 48)
  else if 97 ≤ ubData ∧ ubData ≤ 102 then some (ubData - 87)
  else if 65 ≤ ubData ∧ ubData ≤ 70 then some (ubData - 55)
  else none

/-- The loop of the conversions from hexadecimal digits, which gives up at the first byte
that is none. -/
def hexDigits {w : ℕ} : List (BitVec 8) → BitVec w → Option (BitVec w)
  | [], result => some result
  | ubData :: pData, result => do
    let ubCharToHex ← convertCharToHex ubData
    hexDigits pData (result ||| ubCharToHex.setWidth w <<< (pData.length * 4))

/-- `ConvertStringToHex`, with the result set to zero before the call. -/
def convertStringToHex (pData : List (BitVec 8)) : Option (BitVec 8) :=
  if 2 < pData.length then none else hexDigits pData 0

/-- `ConvertStringToHex32Bit`, with the result set to zero before the call. -/
def convertStringToHex32Bit (pData : List (BitVec 8)) : Option (BitVec 32) := hexDigits pData 0

/-- The first bytes of a buffer. -/
def readBytes (pData : ℕ → BitVec 8) (len : BitVec 8) : List (BitVec 8) :=
  (List.range len.toNat).map pData

/-- `ConvertID`. The second byte is read whatever the length is. -/
def convertID (pData : ℕ → BitVec 8) (len : BitVec 8) : BitVec 16 :=
  if 2 < len then 0
  else
    let len := if pData 1 = 0x20 then 1 else len
    (hexDigits (readBytes pData len) 0).getD 0

/-- The loop of `ConvertArrayToNumber`. What is shifted out of the half word is lost. -/
def bigEndian : List (BitVec 8) → BitVec 16 → BitVec 16
  | [], ulResult => ulResult
  | ubData :: pData, ulResult =>
    bigEndian pData (ulResult + ubData.setWidth 16 <<< (8 * pData.length))

/-- `ConvertArrayToNumber`. -/
def convertArrayToNumber (pData : ℕ → BitVec 8) (ubLen : BitVec 8) : BitVec 16 :=
  bigEndian (readBytes pData ubLen) 0

/-- `CheckStringIsNumber`. -/
def checkStringIsNumber (pData : List (BitVec 8)) : Bool :=
  pData.all fun ubData => ¬(ubData < 48 ∨ 57 < ubData)

/-- `StrToInt`. -/
def strToInt (str : List (BitVec 8)) : BitVec 32 :=
  str.foldl (fun ulRet ubData => ulRet * 10 + (ubData.setWidth 32 - 48)) 0

/-- `power`, over the factors that are still to multiply. -/
def power (ulXNumber : BitVec 32) : ℕ → BitVec 32
  | 0 => 1
  | ulYNumber + 1 => power ulXNumber ulYNumber * ulXNumber

/-- The loop of `ConvertStringToTimeStamp`, over the bytes from index `i` on, so that there are
`len - i` of them. The product of a digit and its weight has 32 bits, and a division by a power
that has wrapped to zero has no result. -/
def timeStampDigits : List (BitVec 8) → BitVec 64 → Option (BitVec 64)
  | [], ullRetureData => some ullRetureData
  | ubData :: pData, ullRetureData =>
    if ubData = 0x20 then
      let ulDivisor := power 10 (pData.length + 1)
      if ulDivisor = 0 then none
      else timeStampDigits pData (ullRetureData / ulDivisor.setWidth 64)
    else
      timeStampDigits pData
        (ullRetureData + ((ubData.setWidth 32 - 0x30) * power 10 pData.length).setWidth 64)

/-- `ConvertStringToTimeStamp`. -/
def convertStringToTimeStamp (pData : List (BitVec 8)) : Option (BitVec 64) :=
  timeStampDigits pData 0

/-! ## Tokens -/

/-- `is_delim`. -/
def isDelim (c : BitVec 8) (delim : List (BitVec 8)) : Bool := delim.any fun d => c = d

/-- `my_strtok` on a string: the next token, and the string `backup_string` points to then. -/
def myStrtok (delim srcString : List (BitVec 8)) : Option (List (BitVec 8) × List (BitVec 8)) :=
  let srcString := srcString.dropWhile fun c => isDelim c delim
  if srcString = [] then none
  else
    some (srcString.takeWhile fun c => !isDelim c delim,
      (srcString.dropWhile fun c => !isDelim c delim).drop 1)

/-! ## The search -/

variable {n : ℕ} {pData : Vector IRDataT n} {uwKey : BitVec 16}

theorem IRDataT.enabledID_eq_some {e : IRDataT} :
    e.enabledID = some uwKey ↔ e.uwID = uwKey ∧ e.ulStatus = irCodeEnable := by
  rw [IRDataT.enabledID]
  split_ifs with henabled
  · simp only [Option.some.injEq, henabled, and_true]
  · simp only [henabled, and_false]

theorem IRDataT.enabledID_eq_none {e : IRDataT} :
    e.enabledID = none ↔ e.ulStatus ≠ irCodeEnable := by
  rw [IRDataT.enabledID]
  split_ifs with henabled
  · simp only [henabled, ne_eq, not_true]
  · simp only [ne_eq, henabled, not_false_eq_true]

/-- The search finds the first code that is enabled under the identifier. -/
theorem linearSerachID_eq :
    linearSerachID pData uwKey =
      ((SlotTable.find IRDataT.enabledID pData uwKey).map fun i : Fin n => ((i : ℕ) : ℤ)).getD
        (-1) := by
  have hscan : (Fin.find? fun i =>
      (pData.get i).uwID = uwKey ∧ (pData.get i).ulStatus = irCodeEnable) =
        SlotTable.find IRDataT.enabledID pData uwKey := by
    unfold SlotTable.find
    congr 1
    funext i
    rw [decide_eq_decide, IRDataT.enabledID_eq_some]
  unfold linearSerachID
  rw [hscan]
  cases SlotTable.find IRDataT.enabledID pData uwKey <;> rfl

end IrRemote
