import IrRemote.Mid.IrRemoteDecode

/-!
# Frames that are offered to a decoder

A decoder sees a frame when all decoders in front of it have refused it. A refusal leaves the
decoder state as it was, but for the word it has read and the static variables of
`getBiphaselevel`, so every decoder starts from an unknown frame without flags.

## Main definitions

* `RefusalLeaves` — what a refusal may change
* `OfferedBehind` — some decoders have refused a frame

## Main results

* `refuses_of_mem_specificDecoders` — all decoders refuse in this way
* `OfferedBehind.leaves` — the state a decoder starts from
* `OfferedBehind.midIrRemoteDecode` — what it accepts is the result of the whole chain
-/

set_option autoImplicit false

namespace IrRemote

/-- A refusal has changed at most the word of the frame and the static variables. -/
def RefusalLeaves (s t : DecodeState) : Prop :=
  ∃ data b, t = { s with decodedIRData.decodedRawData := data, biphase := b }

/-- A frame that fitted the buffer has come behind some decoders, which have left a state. -/
structure OfferedBehind (before : List Decoder) (p : IrParams) (s t : DecodeState) : Prop where
  stopped : p.stateForISR = .stop
  overflowFlag : p.overflowFlag = false
  refused : tryDecoders before p (irRemoteInitDecodedIRData p s) = some (false, t)

variable {p : IrParams} {s t u : DecodeState} {before after : List Decoder}

/-! ## Refusals -/

namespace RefusalLeaves

theorem refl (s : DecodeState) : RefusalLeaves s s := ⟨_, _, rfl⟩

theorem trans (h : RefusalLeaves s t) (h' : RefusalLeaves t u) : RefusalLeaves s u := by
  obtain ⟨data, b, rfl⟩ := h
  obtain ⟨data', b', rfl⟩ := h'
  exact ⟨data', b', rfl⟩

theorem of_eq (h : t = s) : RefusalLeaves s t := h ▸ refl s

theorem of_data (h : ∃ data, t = { s with decodedIRData.decodedRawData := data }) :
    RefusalLeaves s t := by
  obtain ⟨data, rfl⟩ := h
  exact ⟨data, s.biphase, rfl⟩

theorem of_biphase (h : ∃ b, t = { s with biphase := b }) : RefusalLeaves s t := by
  obtain ⟨b, rfl⟩ := h
  exact ⟨s.decodedIRData.decodedRawData, b, rfl⟩

theorem protocol (h : RefusalLeaves s t) :
    t.decodedIRData.protocol = s.decodedIRData.protocol := by
  obtain ⟨data, b, rfl⟩ := h
  rfl

end RefusalLeaves

/-- A decoder that refuses in this way. -/
def Refuses (d : Decoder) : Prop :=
  ∀ p s, Attempt.Ensures (fun _ => True) (RefusalLeaves s) (d p s)

/-- Every decoder of a protocol does. -/
theorem refuses_of_mem_specificDecoders : ∀ d ∈ specificDecoders, Refuses d := by
  simp only [specificDecoders, List.forall_mem_cons, List.not_mem_nil, false_imp_iff,
    implies_true, and_true]
  refine ⟨?nec, ?kaseikyo, ?denon, ?sony, ?rc5, ?rc6, ?lg, ?jvc, ?samsung, ?fast, ?whynter, ?lego,
    ?bose, ?magi⟩
  case nec => exact fun _ _ => decodeNec_ensures.refusal fun _ => .of_eq
  case kaseikyo => exact fun _ _ => decodeKaseikyo_ensures.refusal fun _ => .of_eq
  case denon => exact fun _ _ => decodeDenon_ensures.refusal fun _ => .of_data
  case sony => exact fun _ _ => decodeSony_ensures.refusal fun _ => .of_eq
  case rc5 => exact fun _ _ => decodeRC5_ensures.refusal fun _ => .of_biphase
  case rc6 => exact fun _ _ => decodeRC6_ensures.refusal fun _ => .of_biphase
  case lg => exact fun _ _ => decodeLG_ensures.refusal fun _ => .of_eq
  case jvc => exact fun _ _ => decodeJVC_ensures.refusal fun _ => .of_eq
  case samsung => exact fun _ _ => decodeSamsung_ensures.refusal fun _ => .of_eq
  case fast => exact fun _ _ => decodeFAST_ensures.refusal fun _ => .of_eq
  case whynter => exact fun _ _ => decodeWhynter_ensures.refusal fun _ => .of_eq
  case lego => exact fun _ _ => decodeLegoPowerFunctions_ensures.refusal fun _ => .of_data
  case bose => exact fun _ _ => decodeBoseWave_ensures.refusal fun _ => .of_data
  case magi => exact fun _ _ => decodeMagiQuest_ensures.refusal fun _ => .of_data

/-- Any number of refusals change no more than one. -/
theorem tryDecoders_refuse {ds : List Decoder} (h : ∀ d ∈ ds, Refuses d)
    (hrefused : tryDecoders ds p s = some (false, t)) : RefusalLeaves s t := by
  have hchain : Attempt.Ensures (fun _ => True) (RefusalLeaves s) (tryDecoders ds p s) := by
    apply Attempt.Ensures.firstOf
    · intro a ha u hu
      obtain ⟨d, hd, rfl⟩ := List.mem_map.mp ha
      exact (h d hd p u).mono (fun _ => id) fun _ => hu.trans
    · exact .refl s
  exact hchain.of_refuse hrefused

/-! ## Offered frames -/

namespace OfferedBehind

/-- The last frame has been put aside, and nothing is known of this one. -/
theorem leaves (h : OfferedBehind before p s t) (hbefore : before ⊆ specificDecoders) :
    RefusalLeaves (irRemoteInitDecodedIRData p s) t :=
  tryDecoders_refuse (fun d hd => refuses_of_mem_specificDecoders d (hbefore hd)) h.refused

theorem flags (h : OfferedBehind before p s t) (hbefore : before ⊆ specificDecoders) :
    t.decodedIRData.flags = irdataFlagsEmpty := by
  obtain ⟨data, b, rfl⟩ := h.leaves hbefore
  exact irRemoteInitDecodedIRData_flags h.overflowFlag

theorem lastDecodedAddress (h : OfferedBehind before p s t) (hbefore : before ⊆ specificDecoders) :
    t.lastDecodedAddress = s.decodedIRData.address.setWidth 32 := by
  obtain ⟨data, b, rfl⟩ := h.leaves hbefore
  rw [irRemoteInitDecodedIRData_eq h.overflowFlag]

theorem lastDecodedCommand (h : OfferedBehind before p s t) (hbefore : before ⊆ specificDecoders) :
    t.lastDecodedCommand = s.decodedIRData.command.setWidth 32 := by
  obtain ⟨data, b, rfl⟩ := h.leaves hbefore
  rw [irRemoteInitDecodedIRData_eq h.overflowFlag]

/-- What the next decoder accepts is the result of the whole chain. -/
theorem midIrRemoteDecode {d : Decoder} (h : OfferedBehind before p s t)
    (hchain : specificDecoders = before ++ d :: after) (haccept : d p t = some (true, u)) :
    IrRemote.midIrRemoteDecode p s = some (true, u) := by
  apply midIrRemoteDecode_of_accept h.stopped h.overflowFlag
  rw [hchain, tryDecoders_append_of_refuse h.refused]
  exact tryDecoders_cons_of_accept haccept

end OfferedBehind

end IrRemote
