import IrRemote.Protocol.Denon
import IrRemote.Protocol.Exotic
import IrRemote.Protocol.Jvc
import IrRemote.Protocol.Kaseikyo
import IrRemote.Protocol.Lg
import IrRemote.Protocol.Nec
import IrRemote.Protocol.Rc5Rc6
import IrRemote.Protocol.Samsung
import IrRemote.Protocol.Sony

/-!
# The send dispatcher

`Mid_IrSend.c`: a decoded frame is sent again by the sender of its protocol. The
toggle bit of RC5 and RC6 is kept between two transmissions.

## Main definitions

* `midIrSendPulseDistance` — the sender of frames the universal decoder has decoded
* `midIrSendCommon` — the dispatcher

## Main results

* `unsendableProtocols` — the protocols without a case
* `emitsMark_midIrSendCommon_iff` — the dispatcher lights the diode for these only
-/

set_option autoImplicit false

namespace IrRemote

/-! ## Kaseikyo -/

/-- `Mid_IrSendPanasonic`. -/
def midIrSendPanasonic (aAddress : BitVec 16) (aCommand : BitVec 8) (aNumberOfRepeats : ℕ) :
    List TxEvent :=
  sendKaseikyo aAddress aCommand aNumberOfRepeats panasonicVendorIdCode

/-- `Mid_IrSendKaseikyo_Denon`. -/
def midIrSendKaseikyoDenon (aAddress : BitVec 16) (aCommand : BitVec 8) (aNumberOfRepeats : ℕ) :
    List TxEvent :=
  sendKaseikyo aAddress aCommand aNumberOfRepeats denonVendorIdCode

/-- `Mid_IrSendKaseikyo_Mitsubishi`. -/
def midIrSendKaseikyoMitsubishi (aAddress : BitVec 16) (aCommand : BitVec 8)
    (aNumberOfRepeats : ℕ) : List TxEvent :=
  sendKaseikyo aAddress aCommand aNumberOfRepeats mitsubishiVendorIdCode

/-- `sendKaseikyo_Sharp`. -/
def sendKaseikyoSharp (aAddress : BitVec 16) (aCommand : BitVec 8) (aNumberOfRepeats : ℕ) :
    List TxEvent :=
  sendKaseikyo aAddress aCommand aNumberOfRepeats sharpVendorIdCode

/-- `Mid_IrSendKaseikyo_JVC`. -/
def midIrSendKaseikyoJvc (aAddress : BitVec 16) (aCommand : BitVec 8) (aNumberOfRepeats : ℕ) :
    List TxEvent :=
  sendKaseikyo aAddress aCommand aNumberOfRepeats jvcVendorIdCode

/-! ## Dispatch -/

/-- `Mid_IrSendPulseDistance`; the number of bits is kept in a byte. -/
def midIrSendPulseDistance (tIRDataToSend : IRData) : List TxEvent :=
  sendPulseDistanceWidthFromArrayV2 38 tIRDataToSend.distanceWidthTimingInfo
    (fun i => tIRDataToSend.decodedRawDataArray[i]?.getD 0)
    (tIRDataToSend.numberOfBits % 256) protocolIsLsbFirst 100 0

/-- `Mid_IrSendCommon`: the transmission, and the toggle value that is kept for the next
one. -/
def midIrSendCommon (tIrDataToSend : IRData) (aNumberOfRepeats : ℕ) (toggle : BitVec 8) :
    List TxEvent × BitVec 8 :=
  let tIsRepeat : Bool := tIrDataToSend.flags &&& irdataFlagsIsRepeat ≠ 0
  let address := tIrDataToSend.address
  let command := tIrDataToSend.command
  match tIrDataToSend.protocol with
  | .nec => (sendNEC address (command.setWidth 8) aNumberOfRepeats, toggle)
  | .samsung => (sendSamsung address command aNumberOfRepeats, toggle)
  | .samsung48 => (sendSamsung48 address (command.setWidth 32) aNumberOfRepeats, toggle)
  | .samsungLg => (sendSamsungLG address command aNumberOfRepeats, toggle)
  | .sony =>
    (sendSony address (command.setWidth 8) aNumberOfRepeats (tIrDataToSend.numberOfBits % 256),
      toggle)
  | .panasonic => (midIrSendPanasonic address (command.setWidth 8) aNumberOfRepeats, toggle)
  | .denon =>
    (sendDenon (address.setWidth 8) (command.setWidth 8) aNumberOfRepeats false, toggle)
  | .sharp => (sendSharp (address.setWidth 8) (command.setWidth 8) aNumberOfRepeats, toggle)
  | .lg =>
    (sendLG (address.setWidth 8) ((command.setWidth 8).setWidth 16) aNumberOfRepeats, toggle)
  | .jvc => (sendJVC (address.setWidth 8) (command.setWidth 8) aNumberOfRepeats, toggle)
  -- no toggle for repeats
  | .rc5 => sendRC5 (address.setWidth 8) (command.setWidth 8) aNumberOfRepeats (!tIsRepeat) toggle
  | .rc6 => sendRC6 (address.setWidth 8) (command.setWidth 8) aNumberOfRepeats (!tIsRepeat) toggle
  | .kaseikyoJvc => (midIrSendKaseikyoJvc address (command.setWidth 8) aNumberOfRepeats, toggle)
  | .kaseikyoDenon => (midIrSendKaseikyoDenon address (command.setWidth 8) aNumberOfRepeats, toggle)
  | .kaseikyoSharp => (sendKaseikyoSharp address (command.setWidth 8) aNumberOfRepeats, toggle)
  | .kaseikyoMitsubishi =>
    (midIrSendKaseikyoMitsubishi address (command.setWidth 8) aNumberOfRepeats, toggle)
  | .nec2 => (sendNEC2 address (command.setWidth 8) aNumberOfRepeats, toggle)
  | .onkyo => (sendOnkyo address command aNumberOfRepeats, toggle)
  | .apple => (sendApple (address.setWidth 8) (command.setWidth 8) aNumberOfRepeats, toggle)
  | .boseWave => (sendBoseWave (command.setWidth 8) aNumberOfRepeats, toggle)
  -- we have a 32 bit ID/address
  | .magiQuest => (sendMagiQuest tIrDataToSend.decodedRawData command, toggle)
  | .fast => (sendFAST (command.setWidth 8) aNumberOfRepeats, toggle)
  -- send 5 autorepeats
  | .legoPf =>
    (sendLegoPowerFunctions (address.setWidth 8) (command.setWidth 8)
      ((command >>> 4).setWidth 8) tIsRepeat, toggle)
  | .pulseDistance => (midIrSendPulseDistance tIrDataToSend, toggle)
  | _ => ([], toggle)

/-! ## Protocols without a sender -/

/-- The protocols `Mid_IrSendCommon` has no case for. -/
def unsendableProtocols : List DecodeType :=
  [.unknown, .pulseWidth, .lg2, .kaseikyo, .bangOlufsen, .whynter]

variable {d : IRData} {repeats : ℕ} {toggle : BitVec 8}

theorem emitsMark_sendDenon (address command : BitVec 8) (sharp : Bool) (h : repeats < 255) :
    EmitsMark (sendDenon address command repeats sharp) := by
  refine (emitsMark_sendCommands ?_ (by omega)).cons _
  exact ((emitsMark_sendPulseDistanceWidthDataV3 _).append_left _).append_left _

theorem emitsMark_sendKaseikyo (address : BitVec 16) (command : BitVec 8) (vendor : BitVec 16)
    (h : repeats < 255) : EmitsMark (sendKaseikyo address command repeats vendor) :=
  (emitsMark_sendPulseDistanceWidthFromArray _ _ h).cons _

theorem emitsMark_sendFAST (command : BitVec 8) : EmitsMark (sendFAST command repeats) :=
  (emitsMark_sendCommands ⟨_, List.mem_cons_self ..⟩ (Nat.succ_pos _)).cons _

theorem emitsMark_sendMagiQuest (wandId : BitVec 32) (magnitude : BitVec 16) :
    EmitsMark (sendMagiQuest wandId magnitude) :=
  EmitsMark.cons ((((emitsMark_sendPulseDistanceWidthDataV3 _).append_left _).append_left
    _).append_left _) _

theorem emitsMark_sendRC5 (address command : BitVec 8) (enable : Bool) :
    EmitsMark (sendRC5 address command repeats enable toggle).1 :=
  (emitsMark_sendCommands (emitsMark_sendBiphaseData _) (Nat.succ_pos _)).cons _

theorem emitsMark_sendRC6 (address command : BitVec 8) (enable : Bool) :
    EmitsMark (sendRC6 address command repeats enable toggle).1 :=
  emitsMark_sendCommands ⟨rc6HeaderMark, by simp [sendRC6RawWith32Bit]⟩ (Nat.succ_pos _)

theorem emitsMark_midIrSendPulseDistance : EmitsMark (midIrSendPulseDistance d) :=
  ⟨_, List.mem_cons_of_mem _ (List.mem_cons_self ..)⟩

/-- The dispatcher lights the diode for exactly the protocols it has a case for. -/
theorem emitsMark_midIrSendCommon_iff (h : repeats < 255) :
    EmitsMark (midIrSendCommon d repeats toggle).1 ↔ d.protocol ∉ unsendableProtocols := by
  unfold midIrSendCommon
  cases hp : d.protocol
  case unknown | pulseWidth | lg2 | kaseikyo | bangOlufsen | whynter =>
    exact iff_of_false not_emitsMark_nil fun h => h (by decide)
  case denon | sharp => exact iff_of_true (emitsMark_sendDenon _ _ _ h) (by decide)
  case rc5 => exact iff_of_true (emitsMark_sendRC5 _ _ _) (by decide)
  case rc6 => exact iff_of_true (emitsMark_sendRC6 _ _ _) (by decide)
  case panasonic | kaseikyoDenon | kaseikyoSharp | kaseikyoJvc | kaseikyoMitsubishi =>
    exact iff_of_true (emitsMark_sendKaseikyo _ _ _ h) (by decide)
  case samsung48 => exact iff_of_true (emitsMark_sendPulseDistanceWidthFromArray _ _ h) (by decide)
  case jvc => exact iff_of_true ⟨_, List.mem_cons_of_mem _ (List.mem_cons_self ..)⟩ (by decide)
  case fast => exact iff_of_true (emitsMark_sendFAST _) (by decide)
  case magiQuest => exact iff_of_true (emitsMark_sendMagiQuest _ _) (by decide)
  case pulseDistance => exact iff_of_true emitsMark_midIrSendPulseDistance (by decide)
  all_goals exact iff_of_true (emitsMark_sendPulseDistanceWidthV1 _ _) (by decide)

end IrRemote
