import IrRemote.Link.Biphase
import IrRemote.Mid.IrRemoteDecode

/-!
# RC5 frames

Every RC5 frame, and every RC5X frame with a command above 63, is decoded to what was
sent. The sender joins the two marks around a transition-free bit boundary; the receiver
records runs of one or two units, and drops the first and sometimes the last space.

## Main results

* `units_sendBiphaseData` — the units of a transmission
* `rc5Loop_of_reads` — the loop collects the bits that are read
* `rc5_roundTrip` — the decoded frame
-/

set_option autoImplicit false

namespace IrRemote

open LineSignal Manchester

/-! ## The signal -/

variable {unit n i : ℕ} {data : BitVec 32} {bits : List Bool} {p : IrParams} {b : Biphase}
  {s : DecodeState}

/-- A one is a space and a mark. -/
def rc5Levels (bits : List Bool) : List Bool := bits.flatMap fun bit => [!bit, bit]

theorem rc5Levels_cons (bit : Bool) :
    rc5Levels (bit :: bits) = (!bit) :: bit :: rc5Levels bits := rfl

theorem rc5Levels_eq_halves : rc5Levels bits = halves (fun _ => false) 0 (bits.map (!·)) := by
  rw [halves_of_narrow fun _ => rfl, List.flatMap_map, rc5Levels]
  simp only [Bool.not_not]

/-- The units of the current bit and of those that follow. When the last bit has extended
its mark, the first half of a zero is sent already. -/
theorem units_sendBiphaseBits (hunit : 0 < unit) (hi : i < 32) (last cur : Bool) :
    (if last && !cur then [true] else []) ++
        units unit ((sendBiphaseBits unit data (i + 1) (BitVec.twoPow 32 i) last cur).filterMap
          TxEvent.pulse?) =
      rc5Levels (cur :: BitWord.msbBits i data) := by
  have hone : unit / unit = 1 := Nat.div_self hunit
  have htwo : 2 * unit / unit = 2 := Nat.mul_div_cancel 2 hunit
  induction i generalizing last cur with
  | zero =>
    cases last <;> cases cur <;>
      simp [sendBiphaseBits, TxEvent.pulse?, rc5Levels, hone, BitWord.msbBits, BitWord.lsbBits]
  | succ i ih =>
    -- the mark of a one is sent together with that of a zero behind it, so the next bit is needed
    have hnext : decide (data &&& BitVec.twoPow 32 i ≠ 0 ∨ i + 1 = 0) = data.getLsbD i := by
      rw [Bool.eq_iff_iff, decide_eq_true_eq, ← BitWord.and_twoPow_ne_zero (by omega)]
      simp
    rw [sendBiphaseBits, BitWord.twoPow_ushiftRight_one hi, BitWord.msbBits_succ, rc5Levels_cons]
    simp only [hnext]
    cases cur with
    | true =>
      have hrest := ih (by omega) true (data.getLsbD i)
      rw [← hrest]
      cases data.getLsbD i <;> simp [TxEvent.pulse?, hone, htwo, List.replicate]
    | false =>
      have hrest := ih (by omega) false (data.getLsbD i)
      rw [← hrest]
      cases last <;> simp [TxEvent.pulse?, hone]

/-- The units of a transmission: the start bit is a one. -/
theorem units_sendBiphaseData (data : BitVec 32) (hunit : 0 < unit) (hn : n < 32) :
    units unit ((sendBiphaseData unit data n).filterMap TxEvent.pulse?) =
      rc5Levels (true :: BitWord.msbBits n data) :=
  units_sendBiphaseBits hunit hn true true

theorem length_sendBiphaseBits (unit : ℕ) (data mask : BitVec 32) (last cur : Bool) :
    ((sendBiphaseBits unit data n mask last cur).filterMap TxEvent.pulse?).length ≤ 2 * n := by
  induction n generalizing mask last cur with
  | zero => simp [sendBiphaseBits]
  | succ n ih =>
    rw [sendBiphaseBits]
    cases cur with
    | true =>
      rw [if_pos rfl, List.filterMap_append, List.length_append]
      refine (Nat.add_le_add_left (ih _ _ _) _).trans (Nat.le_of_eq ?_)
      simp [TxEvent.pulse?]
      omega
    | false =>
      rw [if_neg Bool.false_ne_true, List.filterMap_append, List.length_append]
      refine (Nat.add_le_add_left (ih _ _ _) _).trans ?_
      cases last <;> simp [TxEvent.pulse?] <;> omega

theorem duration_sendBiphaseBits (hunit : 0 < unit) (data mask : BitVec 32) (last cur : Bool) :
    ∀ a ∈ (sendBiphaseBits unit data n mask last cur).filterMap TxEvent.pulse?,
      0 < a.duration ∧ unit ∣ a.duration := by
  induction n generalizing mask last cur with
  | zero => simp [sendBiphaseBits]
  | succ n ih =>
    cases cur with
    | true =>
      rw [sendBiphaseBits, if_pos rfl, List.filterMap_append, List.forall_mem_append]
      refine ⟨?_, ih _ _ _⟩
      split_ifs <;> simp [TxEvent.pulse?, hunit]
    | false =>
      rw [sendBiphaseBits, if_neg Bool.false_ne_true, List.filterMap_append,
        List.forall_mem_append]
      refine ⟨?_, ih _ _ _⟩
      split_ifs <;> simp [TxEvent.pulse?, hunit]

/-- A transmission is a space and a biphase signal. -/
theorem exists_signal_sendBiphaseData (data : BitVec 32) (hunit : 0 < unit) (hn : n < 32) :
    ∃ signal, (sendBiphaseData unit data n).filterMap TxEvent.pulse? = ⟨false, unit⟩ :: signal ∧
      units unit signal = true :: rc5Levels (BitWord.msbBits n data) ∧
      BiphaseSignal unit 2 signal ∧ signal.length < 2 * (n + 1) := by
  have hunits := units_sendBiphaseData data hunit hn
  have hduration := duration_sendBiphaseBits (n := n + 1) hunit data (BitVec.twoPow 32 n) true true
  have hlength := length_sendBiphaseBits (n := n + 1) unit data (BitVec.twoPow 32 n) true true
  obtain ⟨d, rest, hpulses⟩ : ∃ d rest, (sendBiphaseData unit data n).filterMap TxEvent.pulse? =
      ⟨false, unit⟩ :: ⟨true, d⟩ :: rest := by
    rw [sendBiphaseData, sendBiphaseBits, if_pos rfl]
    exact ⟨_, _, rfl⟩
  rw [← sendBiphaseData, hpulses] at hduration hlength
  rw [hpulses, units_cons, Nat.div_self hunit, rc5Levels_cons] at hunits
  have hsignal : units unit (⟨true, d⟩ :: rest) = true :: rc5Levels (BitWord.msbBits n data) :=
    (List.cons.inj hunits).2
  refine ⟨⟨true, d⟩ :: rest, hpulses, hsignal, ⟨⟨d, rest, rfl⟩,
    (List.forall_mem_cons.mp hduration).2, ?_⟩, by simpa using hlength⟩
  rw [hsignal, rc5Levels_eq_halves]
  exact noRun_cons.mpr ⟨not_replicate_two_isPrefix_halves rfl, noRun_halves fun _ => rfl⟩

/-! ## The decoder loop -/

/-- A round of the loop reads the two halves of a bit. -/
theorem rc5Loop_succ {rounds : ℕ} {b₁ b₂ : Biphase} {bit : Bool}
    (hlt : b.decodeRawbuffOffset < p.rawlen)
    (hstart : getBiphaselevel p b = some (.ofBool !bit, b₁))
    (hend : getBiphaselevel p b₁ = some (.ofBool bit, b₂)) :
    rc5Loop p (rounds + 1) n data b =
      rc5Loop p rounds ((n + 1) % 256) (if bit then data <<< 1 ||| 1 else data <<< 1) b₂ := by
  simp only [rc5Loop, if_pos hlt, hstart, hend, Option.bind_eq_bind, Option.bind_some]
  cases bit <;> rfl

/-- The loop collects the bits that are read. -/
theorem rc5Loop_of_reads {rounds : ℕ} (data : BitVec 32) (hrounds : bits.length < rounds)
    (hn : n + bits.length < 256) (h : Reads p b (rc5Levels bits)) :
    ∃ b', rc5Loop p rounds n data b =
      some (some (n + bits.length, BitWord.collectMsb bits data), b') := by
  induction bits generalizing rounds n data b with
  | nil =>
    obtain ⟨rounds, rfl⟩ : ∃ r, rounds = r + 1 := ⟨rounds - 1, by omega⟩
    exact ⟨b, if_neg (Nat.not_lt.mpr h.rawlen_le)⟩
  | cons bit bits ih =>
    obtain ⟨rounds, rfl⟩ : ∃ r, rounds = r + 1 := ⟨rounds - 1, by omega⟩
    rw [rc5Levels_cons] at h
    have hlt : b.decodeRawbuffOffset < p.rawlen := h.lt_rawlen (by cases bit <;> simp)
    obtain ⟨b₁, hstart, h₁⟩ := h.next
    obtain ⟨b₂, hend, h₂⟩ := h₁.next
    rw [List.length_cons] at hrounds hn
    have hmod : (n + 1) % 256 = n + 1 := Nat.mod_eq_of_lt (by omega)
    have hrounds' : bits.length < rounds := by omega
    obtain ⟨b', hb'⟩ := ih (n := n + 1) (if bit then data <<< 1 ||| 1 else data <<< 1) hrounds'
      (by omega) h₂
    refine ⟨b', ?_⟩
    rw [rc5Loop_succ hlt hstart hend, hmod, hb', List.length_cons, Nat.add_comm bits.length,
      ← Nat.add_assoc, BitWord.collectMsb]

/-- A frame whose levels are read is decoded. -/
theorem decodeRC5_of_reads {g : ℕ}
    (h : Reads p (initBiphaselevel 1 rc5Unit s.biphase) (true :: rc5Levels bits))
    (hn : bits.length < 256) (hg : p.raw 0 = some g) :
    ∃ b', decodeRC5 p s = some (true, { s with
      biphase := b'
      decodedIRData := (rc5Fields bits.length (BitWord.collectMsb bits 0#32)
        s.decodedIRData).afterGap g (rc5MaximumRepeatDistance / microsPerTick) }) := by
  obtain ⟨b₁, hstart, h₁⟩ := h.next
  have hrounds : bits.length < biphaseRounds := by
    unfold biphaseRounds
    omega
  obtain ⟨b₂, hloop⟩ := rc5Loop_of_reads (n := 0) 0#32 hrounds (by omega) h₁
  rw [Nat.zero_add] at hloop
  have hlength : ¬(p.rawlen < (rc5Bits + 1) / 2 + 2 ∧ rc5Bits + 2 < p.rawlen) := by
    have hbits : rc5Bits = 13 := rfl
    omega
  have hmark : ¬BiphaseLevel.ofBool true ≠ .mark := by decide
  refine ⟨b₂, ?_⟩
  simp only [decodeRC5, if_neg hlength, hstart, if_neg hmark, BitVec.ofNat_eq_ofNat, hloop,
    checkForRepeatSpaceTicksAndSetFlag_eq hg, Option.bind_eq_bind, Option.bind_some]
  rfl

/-! ## The data word -/

variable {a c : BitVec 8} {toggle : Bool} {word word' : BitVec 16}

/-- What the decoder reads off a data word of 13 bits. -/
structure Rc5Word (word : BitVec 16) (command : BitVec 8) (address fieldBit : BitVec 16)
    (toggle : BitVec 8) : Prop where
  command : word.extractLsb' 0 8 &&& 0x3F#8 = command
  address : (word >>> 6) &&& 0x1F#16 = address
  fieldBit : word &&& (1#16 <<< 12) = fieldBit
  toggle : word.extractLsb' 8 8 &&& 0x8#8 = toggle
  high : word >>> 13 = 0#16

/-- The parts of a word are read independently. -/
theorem Rc5Word.or {command command' toggle toggle' : BitVec 8}
    {address address' fieldBit fieldBit' : BitVec 16}
    (h : Rc5Word word command address fieldBit toggle)
    (h' : Rc5Word word' command' address' fieldBit' toggle') :
    Rc5Word (word ||| word') (command ||| command') (address ||| address')
      (fieldBit ||| fieldBit') (toggle ||| toggle') where
  command := by rw [BitVec.extractLsb'_or, BitVec.and_or_distrib_right, h.command, h'.command]
  address := by
    rw [BitVec.ushiftRight_or_distrib, BitVec.and_or_distrib_right, h.address, h'.address]
  fieldBit := by rw [BitVec.and_or_distrib_right, h.fieldBit, h'.fieldBit]
  toggle := by rw [BitVec.extractLsb'_or, BitVec.and_or_distrib_right, h.toggle, h'.toggle]
  high := by rw [BitVec.ushiftRight_or_distrib, h.high, h'.high, BitVec.or_zero]

/-- The address, where it stands in the word. -/
def rc5AddressPart (a : BitVec 8) : BitVec 16 := (a &&& 0x1F#8).setWidth 16 <<< 6

/-- The command and the field bit. -/
def rc5CommandPart (c : BitVec 8) : BitVec 16 :=
  if c < 0x40#8 then 1#16 <<< 12 ||| c.setWidth 16 else (c &&& 0x3F#8).setWidth 16

def rc5TogglePart (toggle : Bool) : BitVec 16 := if toggle then 1#16 <<< 11 else 0#16

theorem rc5RawData_eq :
    rc5RawData a c toggle = rc5AddressPart a ||| rc5CommandPart c ||| rc5TogglePart toggle := by
  unfold rc5RawData rc5AddressPart rc5CommandPart rc5TogglePart
  cases toggle <;> by_cases h : c < 0x40#8 <;>
    simp [h, rc5CommandBits, rc5ToggleBit, rc5AddressBits, BitVec.or_assoc]

theorem rc5Word_addressPart (a : BitVec 8) :
    Rc5Word (rc5AddressPart a) 0#8 ((a &&& 0x1F#8).setWidth 16) 0#16 0#8 where
  command := (by decide : ∀ a, (rc5AddressPart a).extractLsb' 0 8 &&& 0x3F#8 = 0#8) a
  address :=
    (by decide : ∀ a, (rc5AddressPart a >>> 6) &&& 0x1F#16 = (a &&& 0x1F#8).setWidth 16) a
  fieldBit := (by decide : ∀ a, rc5AddressPart a &&& (1#16 <<< 12) = 0#16) a
  toggle := (by decide : ∀ a, (rc5AddressPart a).extractLsb' 8 8 &&& 0x8#8 = 0#8) a
  high := (by decide : ∀ a, rc5AddressPart a >>> 13 = 0#16) a

theorem rc5Word_commandPart (c : BitVec 8) :
    Rc5Word (rc5CommandPart c) (c &&& 0x3F#8) 0#16
      (if c < 0x40#8 then 1#16 <<< 12 else 0#16) 0#8 where
  command := (by decide : ∀ c, (rc5CommandPart c).extractLsb' 0 8 &&& 0x3F#8 = c &&& 0x3F#8) c
  address := (by decide : ∀ c, (rc5CommandPart c >>> 6) &&& 0x1F#16 = 0#16) c
  fieldBit :=
    (by decide : ∀ c, rc5CommandPart c &&& (1#16 <<< 12) =
      if c < 0x40#8 then 1#16 <<< 12 else 0#16) c
  toggle := (by decide : ∀ c, (rc5CommandPart c).extractLsb' 8 8 &&& 0x8#8 = 0#8) c
  high := (by decide : ∀ c, rc5CommandPart c >>> 13 = 0#16) c

theorem rc5Word_togglePart (toggle : Bool) :
    Rc5Word (rc5TogglePart toggle) 0#8 0#16 0#16 (if toggle then 0x8#8 else 0#8) := by
  cases toggle <;> exact ⟨by decide, by decide, by decide, by decide, by decide⟩

theorem rc5Word_rawData (a c : BitVec 8) (toggle : Bool) :
    Rc5Word (rc5RawData a c toggle) (c &&& 0x3F#8) ((a &&& 0x1F#8).setWidth 16)
      (if c < 0x40#8 then 1#16 <<< 12 else 0#16) (if toggle then 0x8#8 else 0#8) := by
  have h := ((rc5Word_addressPart a).or (rc5Word_commandPart c)).or (rc5Word_togglePart toggle)
  rw [← rc5RawData_eq] at h
  simpa only [BitVec.zero_or, BitVec.or_zero] using h

/-- The word fits the 13 bits that are sent. -/
theorem collectMsb_rc5RawData :
    BitWord.collectMsb (BitWord.msbBits rc5Bits ((rc5RawData a c toggle).setWidth 32)) 0#32 =
      (rc5RawData a c toggle).setWidth 32 := by
  apply BitWord.collectMsb_msbBits
  intro i hi
  have hbit := congrArg (·.getLsbD (i - 13)) (rc5Word_rawData a c toggle).high
  have hi' : 13 + (i - 13) = i := Nat.add_sub_cancel' hi
  rw [BitVec.getLsbD_ushiftRight, hi', BitVec.getLsbD_zero] at hbit
  rw [BitVec.getLsbD_setWidth, hbit, Bool.and_false]

/-- The decoder reads off the word what was sent. -/
theorem rc5Fields_rawData (toggle : Bool) (ha : a < 32#8) (hc : c < 128#8) (d : IRData) :
    let f := rc5Fields rc5Bits ((rc5RawData a c toggle).setWidth 32) d
    f.address = a.setWidth 16 ∧ f.command = c.setWidth 16 ∧
      (f.flags &&& irdataFlagsToggleBit ≠ 0 ↔ toggle = true) := by
  have hword := rc5Word_rawData a c toggle
  have ha' : ∀ a : BitVec 8, a < 32#8 → a &&& 0x1F#8 = a := by decide
  have hc' : ∀ c : BitVec 8, c < 128#8 →
      (if (if c < 0x40#8 then 1#16 <<< 12 else 0#16) = 0#16 then
        (c &&& 0x3F#8).setWidth 16 + 0x40#16 else (c &&& 0x3F#8).setWidth 16) = c.setWidth 16 := by
    decide
  have haddress : (rc5RawData a c toggle >>> 6) &&& 0x1F#16 = a.setWidth 16 := by
    rw [hword.address, ha' a ha]
  refine ⟨?_, ?_, ?_⟩
  · simp only [rc5Fields, LongUnion.lowWord_ofULong_setWidth]
    exact haddress
  · rw [← hc' c hc, ← hword.fieldBit, ← hword.command]
    simp only [rc5Fields, LongUnion.lowWord_ofULong_setWidth,
      LongUnion.lowByte_ofULong_setWidth]
    rfl
  · simp only [rc5Fields, LongUnion.midLowByte_ofULong_setWidth, BitVec.ofNat_eq_ofNat,
      hword.toggle]
    cases toggle <;> decide

/-! ## The frame in the chain -/

variable {enable : Bool} {state : BitVec 8}

/-- The data word of a frame. -/
def rc5Sent (a c : BitVec 8) (enable : Bool) (state : BitVec 8) : BitVec 32 :=
  (rc5RawData a c (nextToggle enable state).1).setWidth 32

theorem exists_lineRuns_sendRC5 (a c : BitVec 8) (enable : Bool) (state : BitVec 8) :
    ∃ signal, lineRuns (sendRC5 a c 0 enable state).1 = merge (trim false signal) ∧
      units rc5Unit signal =
        true :: rc5Levels (BitWord.msbBits rc5Bits (rc5Sent a c enable state)) ∧
      BiphaseSignal rc5Unit 2 signal ∧ (merge (trim false signal)).length < 28 := by
  obtain ⟨signal, hpulses, hunits, hsignal, hlength⟩ := exists_signal_sendBiphaseData
    (rc5Sent a c enable state) (show 0 < rc5Unit by decide) (show rc5Bits < 32 by decide)
  refine ⟨signal, ?_, hunits, hsignal, ?_⟩
  · have htx : (sendRC5 a c 0 enable state).1.filterMap TxEvent.pulse? =
        ⟨false, rc5Unit⟩ :: signal := by
      rw [← hpulses, sendRC5]
      simp [sendCommands, TxEvent.pulse?, List.filterMap_cons, rc5Sent]
    rw [lineRuns, htx, trim_cons_of_eq (a := ⟨false, rc5Unit⟩) rfl]
  · exact ((length_merge_le _).trans (length_trim_le _)).trans_lt hlength

/-- A frame in the buffer: it is short, its runs are one or two units long, and it is read
unit by unit. -/
structure Rc5Capture (p : IrParams) (bits : List Bool) : Prop where
  rawlen : p.rawlen ≤ 28
  entry : ∀ i < p.rawlen, 0 < i →
    ∃ n < 2, ∃ t ∈ roundings ((n + 1) * rc5Unit), p.raw i = some t
  reads : ∀ current, Reads p ⟨1, current, 0, rc5Unit⟩ (true :: rc5Levels bits)

theorem IdealCapture.rc5 (h : IdealCapture p (sendRC5 a c 0 enable state).1) :
    Rc5Capture p (BitWord.msbBits rc5Bits (rc5Sent a c enable state)) := by
  obtain ⟨signal, hruns, hunits, hsignal, hlength⟩ := exists_lineRuns_sendRC5 a c enable state
  have hlen := h.rawlen
  have hentry := h.entry
  rw [hruns] at hlen
  simp only [hruns] at hentry
  refine ⟨by omega, fun i hi hpos => ?_, fun current => ?_⟩
  · obtain ⟨i, rfl⟩ : ∃ j, i = j + 1 := ⟨i - 1, by omega⟩
    obtain ⟨t, ht, hraw⟩ := hentry i (by omega)
    obtain ⟨n, hn, hduration⟩ := hsignal.exists_duration (by decide) _
      (List.getElem_mem (by omega : i < (merge (trim false signal)).length))
    rw [hduration] at ht
    exact ⟨n, hn, t, ht, hraw⟩
  · rw [← hunits]
    exact hsignal.reads_of_capture h hruns (by decide) (by decide) (by decide) (by omega)

/-- The frame is decoded to what was sent. -/
theorem rc5_roundTrip (ha : a < 32#8) (hc : c < 128#8)
    (h : IdealCapture p (sendRC5 a c 0 enable state).1) (s : DecodeState) :
    ∃ s', midIrRemoteDecode p s = some (true, s') ∧
      s'.decodedIRData.protocol = .rc5 ∧
      s'.decodedIRData.address = a.setWidth 16 ∧
      s'.decodedIRData.command = c.setWidth 16 ∧
      s'.decodedIRData.numberOfBits = 13 ∧
      (s'.decodedIRData.flags &&& irdataFlagsToggleBit ≠ 0 ↔
        (nextToggle enable state).1 = true) := by
  have hframe := h.rc5
  obtain ⟨g, hg, -⟩ := h.gap
  have hlen := hframe.rawlen
  have hreads := hframe.reads
  obtain ⟨b', hrc5⟩ := decodeRC5_of_reads (s := irRemoteInitDecodedIRData p s) (hreads _)
    (by rw [BitWord.msbBits_length]; decide) hg
  rw [BitWord.msbBits_length, rc5Sent, collectMsb_rc5RawData] at hrc5
  obtain ⟨n, hn, t, ht, hmark⟩ := hframe.entry 1
    ((hreads 0).lt_rawlen (List.mem_cons_self ..)) Nat.one_pos
  have hnec : matchMark t necHeaderMark = false :=
    (by decide : ∀ n < 2, ∀ t ∈ roundings ((n + 1) * rc5Unit),
      matchMark t necHeaderMark = false) n hn t ht
  -- the header mark of Sony is that of two units, but its header space is shorter
  have hsony : decodeSony p (irRemoteInitDecodedIRData p s) =
      some (false, irRemoteInitDecodedIRData p s) := by
    by_cases hlength : p.rawlen = 26
    · obtain ⟨m, hm, u, hu, hspace⟩ := hframe.entry 2 (by omega) Nat.two_pos
      exact decodeSony_of_header (checkHeader_of_space hmark hspace
        ((by decide : ∀ m < 2, ∀ u ∈ roundings ((m + 1) * rc5Unit),
          matchSpace u sonyProtocolConstants.distanceWidthTimingInfo.headerSpaceMicros = false)
          m hm u hu))
    · exact decodeSony_of_rawlen hlength (by omega) (by omega)
  have hchain : ∀ t, decodeRC5 p (irRemoteInitDecodedIRData p s) = some (true, t) →
      tryDecoders specificDecoders p (irRemoteInitDecodedIRData p s) = some (true, t) := by
    intro t ht
    rw [specificDecoders, tryDecoders_cons_of_refuse (decodeNec_of_mark hmark hnec),
      tryDecoders_cons_of_refuse (decodeKaseikyo_of_rawlen (by omega)),
      tryDecoders_cons_of_refuse (decodeDenon_of_rawlen (by omega)),
      tryDecoders_cons_of_refuse hsony]
    exact tryDecoders_cons_of_accept ht
  obtain ⟨haddress, hcommand, htoggle⟩ := rc5Fields_rawData (nextToggle enable state).1 ha hc
    (irRemoteInitDecodedIRData p s).decodedIRData
  refine ⟨_, midIrRemoteDecode_of_accept h.stopped h.overflowFlag (hchain _ hrc5), rfl,
    haddress, hcommand, rfl, ?_⟩
  rw [IRData.afterGap_toggleBit]
  exact htoggle

theorem exists_rc5Capture (a c : BitVec 8) (enable : Bool) (state : BitVec 8) :
    ∃ p, IdealCapture p (sendRC5 a c 0 enable state).1 := by
  obtain ⟨signal, hruns, -, -, hlength⟩ := exists_lineRuns_sendRC5 a c enable state
  have hfits : (lineRuns (sendRC5 a c 0 enable state).1).length < rawBufferLength := by
    rw [hruns]
    exact hlength.trans (by decide)
  obtain ⟨p, hp, -⟩ := exists_idealCapture (show recordGapTicks < 101 by decide) hfits
  exact ⟨p, hp⟩

/-- An RC5X command with the toggle bit. -/
theorem rc5_roundTrip_extended : ∃ p s', IdealCapture p (sendRC5 5 100 0 true 0).1 ∧
    midIrRemoteDecode p .zero = some (true, s') ∧ s'.decodedIRData.protocol = .rc5 ∧
    s'.decodedIRData.address = 5 ∧ s'.decodedIRData.command = 100 ∧
    s'.decodedIRData.flags &&& irdataFlagsToggleBit ≠ 0 := by
  obtain ⟨p, hp⟩ := exists_rc5Capture 5 100 true 0
  obtain ⟨s', hs', hprotocol, haddress, hcommand, -, htoggle⟩ :=
    rc5_roundTrip (by decide) (by decide) hp .zero
  exact ⟨p, s', hp, hs', hprotocol, haddress, hcommand, htoggle.mpr (by decide)⟩

end IrRemote
