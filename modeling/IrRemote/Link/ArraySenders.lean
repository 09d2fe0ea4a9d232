import IrRemote.Link.IdealCapture

/-!
# The array senders

`sendPulseDistanceWidthFromArray` and `sendPulseDistanceWidthFromArrayV3` send the words of an
array in chunks of 32 bits and count the bits down. The first starts every frame with the full
count. The second goes on with what the last frame has left of it, in 16 bits, and the last chunk
of a repeat has the low byte of that count: it is right again only for frames of eight chunks.

## Main definitions

* `arrayBits` — the bits of a frame, in the order of the chunks
* `arrayFrame` — a frame with its header, its bits and its stop mark
* `ArraySendersAgree` — both senders repeat this frame
* `sentBits` — the number of bits that the second sender sends

## Main results

* `sendChunks_fst`, `sendChunks_snd` — the chunks of a frame, for any count
* `sentBits_ne` — the bits of the repeats do not add up
* `array_senders_agree_iff` — the number of bits and of repeats for which the senders agree
-/

set_option autoImplicit false

namespace IrRemote

open LineSignal

/-! ## Frames -/

/-- The marks and the spaces of a transmission. -/
def pulses (tx : List TxEvent) : List (Pulse Bool) := tx.filterMap TxEvent.pulse?

/-- The bits of a word in sending order. -/
def wordBits (msbFirst : Bool) (n : ℕ) (w : BitVec 32) : List Bool :=
  if msbFirst then BitWord.msbBits n w else BitWord.lsbBits n w

/-- All bits of some words of the array. -/
def fullChunks (msbFirst : Bool) (array : ℕ → BitVec 32) : ℕ → ℕ → List Bool
  | 0, _ => []
  | chunks + 1, i => wordBits msbFirst 32 (array i) ++ fullChunks msbFirst array chunks (i + 1)

/-- The first bits of the array, chunk by chunk. The last chunk has at least one bit. -/
def arrayBits (msbFirst : Bool) (array : ℕ → BitVec 32) (n : ℕ) : List Bool :=
  fullChunks msbFirst array ((n - 1) / 32) 0 ++
    wordBits msbFirst ((n - 1) % 32 + 1) (array ((n - 1) / 32))

/-- Header, bits and, when the marks of both bits are equal, a stop mark. -/
def arrayFrame (c : PulseDistanceWidthProtocolConstants) (array : ℕ → BitVec 32) (n : ℕ) :
    List TxEvent :=
  let t := c.distanceWidthTimingInfo
  [.mark t.headerMarkMicros, .space t.headerSpaceMicros] ++
    (arrayBits (c.flags &&& protocolIsMsbFirst ≠ 0) array n).flatMap
      (sendBit t.oneMarkMicros t.oneSpaceMicros t.zeroMarkMicros t.zeroSpaceMicros) ++
    if t.oneMarkMicros = t.zeroMarkMicros then [.mark t.zeroMarkMicros] else []

/-- The V3 sender, called with the values of the constants. -/
def sendFromConstantsV3 (c : PulseDistanceWidthProtocolConstants) (array : ℕ → BitVec 32)
    (n repeats : ℕ) : List TxEvent :=
  let t := c.distanceWidthTimingInfo
  sendPulseDistanceWidthFromArrayV3 c.frequencyKHz t.headerMarkMicros t.headerSpaceMicros
    t.oneMarkMicros t.oneSpaceMicros t.zeroMarkMicros t.zeroSpaceMicros array n c.flags
    c.repeatPeriodMillis repeats

/-- Both senders send the same marks and spaces: the frame, once more than it is repeated. -/
def ArraySendersAgree (c : PulseDistanceWidthProtocolConstants) (array : ℕ → BitVec 32)
    (n repeats : ℕ) : Prop :=
  pulses (sendFromConstantsV3 c array n repeats) =
      pulses (sendPulseDistanceWidthFromArray c array n repeats) ∧
    pulses (sendPulseDistanceWidthFromArray c array n repeats) =
      (List.replicate (repeats + 1) (pulses (arrayFrame c array n))).flatten

variable {c : PulseDistanceWidthProtocolConstants} {array : ℕ → BitVec 32} {flags : BitVec 8}
  {oneMark oneSpace zeroMark zeroSpace i m n bits repeats : ℕ} {w : BitVec 32} {tx : List TxEvent}

theorem length_wordBits (msbFirst : Bool) (n : ℕ) (w : BitVec 32) :
    (wordBits msbFirst n w).length = n := by
  cases msbFirst
  · exact BitWord.lsbBits_length
  · exact BitWord.msbBits_length

theorem length_fullChunks (msbFirst : Bool) (array : ℕ → BitVec 32) (m i : ℕ) :
    (fullChunks msbFirst array m i).length = 32 * m := by
  induction m generalizing i with
  | zero => rfl
  | succ m ih =>
    rw [fullChunks, List.length_append, length_wordBits, ih]
    omega

/-- The frame has exactly the number of bits. -/
theorem length_arrayBits (msbFirst : Bool) (array : ℕ → BitVec 32) (hn : 0 < n) :
    (arrayBits msbFirst array n).length = n := by
  rw [arrayBits, List.length_append, length_fullChunks, length_wordBits]
  omega

/-! ## Chunks -/

/-- A word of at most 32 bits is sent bit by bit. -/
theorem sendPulseDistanceWidthDataV1_eq (hpos : 0 < n) (hn : n ≤ 32) :
    sendPulseDistanceWidthDataV1 oneMark oneSpace zeroMark zeroSpace w n flags =
      (wordBits (flags &&& protocolIsMsbFirst ≠ 0) n w).flatMap
        (sendBit oneMark oneSpace zeroMark zeroSpace) ++ stopMark oneMark zeroMark flags := by
  by_cases hflags : flags &&& protocolIsMsbFirst = 0
  · rw [sendPulseDistanceWidthDataV1_lsb hflags, wordBits, hflags]
    rfl
  · obtain ⟨k, rfl⟩ : ∃ k, n = k + 1 := ⟨n - 1, by omega⟩
    rw [sendPulseDistanceWidthDataV1_msb hflags (by omega), wordBits, decide_eq_true hflags]
    rfl

/-- The flag of the leading chunks leaves the order of the bits as it is. -/
theorem suppress_and_msbFirst :
    (flags ||| suppressStopBitForThisData) &&& protocolIsMsbFirst =
      flags &&& protocolIsMsbFirst := by
  rw [BitVec.and_or_distrib_right]
  exact BitVec.or_zero

theorem stopMark_leading :
    stopMark oneMark zeroMark (flags ||| suppressStopBitForThisData) = [] := by
  have hset : (flags ||| suppressStopBitForThisData) &&& suppressStopBitForThisData ≠ 0 := by
    revert flags
    decide
  exact if_neg fun h => hset h.1

/-- Full chunks without a stop mark, and the last one with the low byte of what is left. -/
theorem sendChunks_fst (oneMark oneSpace zeroMark zeroSpace : ℕ) (array : ℕ → BitVec 32)
    (flags : BitVec 8) (m i bits : ℕ) :
    (sendChunks oneMark oneSpace zeroMark zeroSpace array flags (m + 1) i bits).1 =
      (fullChunks (flags &&& protocolIsMsbFirst ≠ 0) array m i).flatMap
          (sendBit oneMark oneSpace zeroMark zeroSpace) ++
        sendPulseDistanceWidthDataV1 oneMark oneSpace zeroMark zeroSpace (array (i + m))
          ((bits + 65504 * m) % 256) flags := by
  induction m generalizing i bits with
  | zero =>
    rw [sendChunks, sendChunks, if_pos rfl, if_pos rfl, List.append_nil]
    rfl
  | succ m ih =>
    -- 65504 is 32 less than nothing in 16 bits
    have hlast : ((bits + 65536 - bitsInRawDataType) % 65536 + 65504 * m) % 256 =
        (bits + 65504 * (m + 1)) % 256 := by
      simp only [bitsInRawDataType]
      omega
    rw [sendChunks, if_neg (Nat.succ_ne_zero m), if_neg (Nat.succ_ne_zero m), ih, hlast,
      bitsInRawDataType, sendPulseDistanceWidthDataV1_eq (by decide) le_rfl, stopMark_leading,
      suppress_and_msbFirst, List.append_nil, fullChunks, List.flatMap_append, List.append_assoc,
      Nat.add_right_comm i 1]
    rfl

/-- Every chunk takes 32 bits off the count. -/
theorem sendChunks_snd (oneMark oneSpace zeroMark zeroSpace : ℕ) (array : ℕ → BitVec 32)
    (flags : BitVec 8) (m i bits : ℕ) :
    (sendChunks oneMark oneSpace zeroMark zeroSpace array flags m i bits).2 % 256 =
      (bits + 65504 * m) % 256 := by
  induction m generalizing i bits with
  | zero => rfl
  | succ m ih =>
    rw [sendChunks, ih]
    simp only [bitsInRawDataType]
    omega

/-! ## Spaces -/

theorem pulses_append (tx tx' : List TxEvent) : pulses (tx ++ tx') = pulses tx ++ pulses tx' :=
  List.filterMap_append

/-- The number of spaces of a transmission; every bit has one. -/
def spaceCount (l : List (Pulse Bool)) : ℕ := l.countP fun a => !a.level

theorem spaceCount_append (l l' : List (Pulse Bool)) :
    spaceCount (l ++ l') = spaceCount l + spaceCount l' :=
  List.countP_append

theorem spaceCount_sendBit (b : Bool) :
    spaceCount (pulses (sendBit oneMark oneSpace zeroMark zeroSpace b)) = 1 := by
  cases b <;> rfl

theorem spaceCount_flatMap_sendBit (l : List Bool) :
    spaceCount (pulses (l.flatMap (sendBit oneMark oneSpace zeroMark zeroSpace))) = l.length := by
  induction l with
  | nil => rfl
  | cons b l ih =>
    rw [List.flatMap_cons, pulses_append, spaceCount_append, spaceCount_sendBit, ih,
      List.length_cons, Nat.add_comm]

theorem spaceCount_sendDataBits (msbFirst : Bool) (n : ℕ) (w mask : BitVec 32) :
    spaceCount (pulses (sendDataBits (sendBit oneMark oneSpace zeroMark zeroSpace) msbFirst n w
      mask)) = n := by
  induction n generalizing w mask with
  | zero => rfl
  | succ n ih =>
    rw [sendDataBits, pulses_append, spaceCount_append, spaceCount_sendBit, ih, Nat.add_comm]

theorem spaceCount_stopMark :
    spaceCount (pulses (stopMark oneMark zeroMark flags)) = 0 := by
  unfold stopMark
  split_ifs <;> rfl

theorem spaceCount_sendPulseDistanceWidthDataV1 :
    spaceCount (pulses (sendPulseDistanceWidthDataV1 oneMark oneSpace zeroMark zeroSpace w n
      flags)) = n := by
  rw [sendPulseDistanceWidthDataV1, pulses_append, spaceCount_append, spaceCount_sendDataBits,
    spaceCount_stopMark]
  rfl

theorem spaceCount_sendChunks (oneMark oneSpace zeroMark zeroSpace : ℕ) (array : ℕ → BitVec 32)
    (flags : BitVec 8) (m i bits : ℕ) :
    spaceCount (pulses
        (sendChunks oneMark oneSpace zeroMark zeroSpace array flags (m + 1) i bits).1) =
      32 * m + (bits + 65504 * m) % 256 := by
  rw [sendChunks_fst, pulses_append, spaceCount_append, spaceCount_flatMap_sendBit,
    length_fullChunks, spaceCount_sendPulseDistanceWidthDataV1]

/-! ## Repeats -/

/-- The bits that the V3 sender sends in so many frames of `m + 1` chunks, from a count on. -/
def sentBits (m : ℕ) : ℕ → ℕ → ℕ
  | 0, _ => 0
  | commands + 1, bits =>
    32 * m + (bits + 65504 * m) % 256 + sentBits m commands ((bits + 65504 * (m + 1)) % 256)

/-- Only the low byte of the count matters. -/
theorem sentBits_mod (m commands bits : ℕ) :
    sentBits m commands (bits % 256) = sentBits m commands bits := by
  cases commands with
  | zero => rfl
  | succ commands => simp only [sentBits, Nat.mod_add_mod]

theorem spaceCount_sendFromArrayV3Loop (t : DistanceWidthTimingInfo) (array : ℕ → BitVec 32)
    (flags : BitVec 8) (period m commands bits : ℕ) :
    spaceCount (pulses (sendFromArrayV3Loop t array flags period (m + 1) commands bits)) =
      commands + sentBits m commands bits := by
  induction commands generalizing bits with
  | zero => rfl
  | succ commands ih =>
    have hpause : spaceCount (pulses (if 0 < commands then [TxEvent.awaitPeriod period] else [])) =
        0 := by
      split_ifs <;> rfl
    have hheader : spaceCount (pulses [TxEvent.mark t.headerMarkMicros,
        .space t.headerSpaceMicros]) = 1 := rfl
    rw [sendFromArrayV3Loop]
    change spaceCount (pulses ([_, _] ++ _ ++ _ ++ _)) = _
    rw [pulses_append, pulses_append, pulses_append, spaceCount_append, spaceCount_append,
      spaceCount_append, hheader, hpause, spaceCount_sendChunks, ih, sentBits,
      ← sentBits_mod m commands (sendChunks _ _ _ _ _ _ _ _ _).2, sendChunks_snd]
    omega

theorem sentBits_add (m k commands bits : ℕ) :
    sentBits m (k + commands) bits =
      sentBits m k bits + sentBits m commands (bits + k * (65504 * (m + 1))) := by
  induction k generalizing bits with
  | zero => simp [sentBits]
  | succ k ih =>
    have hcount : bits + 65504 * (m + 1) + k * (65504 * (m + 1)) =
        bits + (k + 1) * (65504 * (m + 1)) := by
      rw [Nat.add_mul, Nat.one_mul, Nat.add_assoc, Nat.add_comm (65504 * (m + 1))]
    rw [Nat.add_right_comm k 1, sentBits, sentBits, sentBits_mod, sentBits_mod, ih, hcount,
      Nat.add_assoc _ (sentBits m k _)]

/-- After eight frames the low byte of the count is the same again. -/
theorem sentBits_add_eight (m commands bits : ℕ) :
    sentBits m (8 + commands) bits = sentBits m 8 bits + sentBits m commands bits := by
  have hcount : (bits + 8 * (65504 * (m + 1))) % 256 = bits % 256 := by omega
  rw [sentBits_add, ← sentBits_mod m commands (bits + _), hcount, sentBits_mod]

/-- The first frames of each number of chunks but eight, with each number of bits in the last. -/
theorem sentBits_first : ∀ m < 12, m ≠ 7 → ∀ last < 32,
    8 * (32 * m + last + 1) ≤ sentBits m 8 (32 * m + last + 1) ∧
      ∀ k < 8, sentBits m (k + 2) (32 * m + last + 1) ≠ (k + 2) * (32 * m + last + 1) ∧
        (k + 10) * (32 * m + last + 1) <
          sentBits m 8 (32 * m + last + 1) + sentBits m (k + 2) (32 * m + last + 1) := by
  decide +kernel

/-- From ten frames on too many bits are sent, and before that not the right number. -/
theorem sentBits_ne {last commands : ℕ} (hm : m < 12) (hne : m ≠ 7) (hlast : last < 32)
    (hcommands : 2 ≤ commands) :
    sentBits m commands (32 * m + last + 1) ≠ commands * (32 * m + last + 1) := by
  obtain ⟨height, hfirst⟩ := sentBits_first m hm hne last hlast
  -- by induction on the frames, eight at a time
  have hmany : ∀ k, (k + 10) * (32 * m + last + 1) < sentBits m (k + 10) (32 * m + last + 1) := by
    intro k
    induction k using Nat.strong_induction_on with
    | _ k ih =>
      rcases Nat.lt_or_ge k 8 with hlt | hge
      · have hsplit : k + 10 = 8 + (k + 2) := by omega
        have hk := (hfirst k hlt).2
        rw [hsplit] at hk ⊢
        rw [sentBits_add_eight]
        exact hk
      · obtain ⟨j, rfl⟩ : ∃ j, k = 8 + j := ⟨k - 8, by omega⟩
        have hj := ih j (by omega)
        rw [Nat.add_assoc, sentBits_add_eight, Nat.add_mul]
        omega
  rcases Nat.lt_or_ge commands 10 with hfew | hten
  · obtain ⟨k, rfl⟩ : ∃ k, commands = k + 2 := ⟨commands - 2, by omega⟩
    exact (hfirst k (by omega)).1
  · obtain ⟨k, rfl⟩ : ∃ k, commands = k + 10 := ⟨commands - 10, by omega⟩
    exact (hmany k).ne'

/-! ## What is sent -/

/-- A frame as both senders begin: the flags decide on the stop mark. -/
def sentFrame (c : PulseDistanceWidthProtocolConstants) (array : ℕ → BitVec 32) (n : ℕ) :
    List TxEvent :=
  let t := c.distanceWidthTimingInfo
  [.mark t.headerMarkMicros, .space t.headerSpaceMicros] ++
    (arrayBits (c.flags &&& protocolIsMsbFirst ≠ 0) array n).flatMap
      (sendBit t.oneMarkMicros t.oneSpaceMicros t.zeroMarkMicros t.zeroSpaceMicros) ++
    stopMark t.oneMarkMicros t.zeroMarkMicros c.flags

/-- The chunks of a frame that starts with the right count in its low byte. -/
theorem sendChunks_array (oneMark oneSpace zeroMark zeroSpace : ℕ) (array : ℕ → BitVec 32)
    (flags : BitVec 8)
    (hbits : (bits + 65504 * ((n - 1) / 32)) % 256 = (n - 1) % 32 + 1) :
    (sendChunks oneMark oneSpace zeroMark zeroSpace array flags ((n - 1) / 32 + 1) 0 bits).1 =
      (arrayBits (flags &&& protocolIsMsbFirst ≠ 0) array n).flatMap
        (sendBit oneMark oneSpace zeroMark zeroSpace) ++ stopMark oneMark zeroMark flags := by
  rw [sendChunks_fst, hbits, sendPulseDistanceWidthDataV1_eq (by omega) (by omega), arrayBits,
    List.flatMap_append, Nat.zero_add, List.append_assoc]

theorem pulses_sendCommands {frame pause : List TxEvent} (hpause : pulses pause = []) (n : ℕ) :
    pulses (sendCommands frame pause n) = (List.replicate n (pulses frame)).flatten := by
  induction n with
  | zero => rfl
  | succ n ih =>
    have hwait : pulses (if 0 < n then pause else []) = [] := by
      split_ifs
      · exact hpause
      · rfl
    rw [sendCommands, pulses_append, pulses_append, hwait, List.append_nil, ih,
      List.replicate_succ, List.flatten_cons]

theorem numberOfChunks_of_le (hpos : 1 ≤ n) (hn : n ≤ 374) :
    numberOfChunks n = (n - 1) / 32 + 1 := by
  simp only [numberOfChunks, bitsInRawDataType]
  omega

/-- The first sender repeats its frame. -/
theorem pulses_sendPulseDistanceWidthFromArray (hpos : 1 ≤ n) (hn : n ≤ 374)
    (hrepeats : repeats ≤ 254) :
    pulses (sendPulseDistanceWidthFromArray c array n repeats) =
      (List.replicate (repeats + 1) (pulses (sentFrame c array n))).flatten := by
  have hcommands : (repeats + 1) % 256 = repeats + 1 := Nat.mod_eq_of_lt (by omega)
  rw [sendPulseDistanceWidthFromArray, numberOfChunks_of_le hpos hn, hcommands]
  refine (pulses_sendCommands rfl _).trans ?_
  rw [sendChunks_array _ _ _ _ _ _ (by omega)]
  rfl

/-- The second sender repeats it when there is only one, and when its chunks are eight. -/
theorem pulses_sendFromArrayV3Loop {commands : ℕ}
    (hbits : (bits + 65504 * ((n - 1) / 32)) % 256 = (n - 1) % 32 + 1)
    (hrepeat : commands ≤ 1 ∨ (n - 1) / 32 = 7) :
    pulses (sendFromArrayV3Loop c.distanceWidthTimingInfo array c.flags c.repeatPeriodMillis
        ((n - 1) / 32 + 1) commands bits) =
      (List.replicate commands (pulses (sentFrame c array n))).flatten := by
  induction commands generalizing bits with
  | zero => rfl
  | succ commands ih =>
    have hpause : pulses (if 0 < commands then [TxEvent.awaitPeriod c.repeatPeriodMillis]
        else []) = [] := by
      split_ifs <;> rfl
    have hcount := sendChunks_snd c.distanceWidthTimingInfo.oneMarkMicros
      c.distanceWidthTimingInfo.oneSpaceMicros c.distanceWidthTimingInfo.zeroMarkMicros
      c.distanceWidthTimingInfo.zeroSpaceMicros array c.flags ((n - 1) / 32 + 1) 0 bits
    rw [sendFromArrayV3Loop]
    change pulses ([_, _] ++ _ ++ _ ++ _) = _
    rw [pulses_append, pulses_append, hpause, List.append_nil, sendChunks_array _ _ _ _ _ _ hbits,
      List.replicate_succ, List.flatten_cons, sentFrame, List.append_assoc]
    congr 1
    -- the count is right again behind eight chunks, and without a repeat it is not used
    rcases hrepeat with hone | height
    · obtain rfl : commands = 0 := by omega
      rfl
    · exact ih (by omega) (.inr height)

theorem pulses_sendFromConstantsV3 (hpos : 1 ≤ n) (hn : n ≤ 374) (hrepeats : repeats ≤ 254)
    (hrepeat : repeats = 0 ∨ (n - 1) / 32 = 7) :
    pulses (sendFromConstantsV3 c array n repeats) =
      (List.replicate (repeats + 1) (pulses (sentFrame c array n))).flatten := by
  have hcommands : (repeats + 1) % 256 = repeats + 1 := Nat.mod_eq_of_lt (by omega)
  rw [sendFromConstantsV3, sendPulseDistanceWidthFromArrayV3, numberOfChunks_of_le hpos hn,
    hcommands]
  exact pulses_sendFromArrayV3Loop (by omega) (hrepeat.imp_left fun h => by omega)

/-! ## Agreement -/

theorem spaceCount_sentFrame (hpos : 1 ≤ n) :
    spaceCount (pulses (sentFrame c array n)) = n + 1 := by
  rw [sentFrame, pulses_append, pulses_append, spaceCount_append, spaceCount_append,
    spaceCount_stopMark, spaceCount_flatMap_sendBit, length_arrayBits _ _ hpos]
  change 1 + n + 0 = _
  omega

theorem spaceCount_flatten_replicate (n : ℕ) (l : List (Pulse Bool)) :
    spaceCount (List.replicate n l).flatten = n * spaceCount l := by
  induction n with
  | zero => rw [Nat.zero_mul]; rfl
  | succ n ih =>
    rw [List.replicate_succ, List.flatten_cons, spaceCount_append, ih, Nat.succ_mul, Nat.add_comm]

/-- With repeats and another number of chunks the second sender sends another number of bits. -/
theorem pulses_ne_of_repeats (hpos : 1 ≤ n) (hn : n ≤ 374) (hrepeats : repeats ≤ 254)
    (hpositive : 1 ≤ repeats) (hchunk : (n - 1) / 32 ≠ 7) :
    pulses (sendFromConstantsV3 c array n repeats) ≠
      pulses (sendPulseDistanceWidthFromArray c array n repeats) := by
  intro h
  have hcommands : (repeats + 1) % 256 = repeats + 1 := Nat.mod_eq_of_lt (by omega)
  have hcount := congrArg spaceCount h
  have hsent : spaceCount (pulses (sendFromConstantsV3 c array n repeats)) =
      repeats + 1 + sentBits ((n - 1) / 32) (repeats + 1) n := by
    rw [sendFromConstantsV3, sendPulseDistanceWidthFromArrayV3, numberOfChunks_of_le hpos hn,
      hcommands]
    exact spaceCount_sendFromArrayV3Loop ..
  rw [hsent, pulses_sendPulseDistanceWidthFromArray hpos hn hrepeats, spaceCount_flatten_replicate,
    spaceCount_sentFrame hpos, Nat.mul_add, Nat.mul_one, Nat.add_comm] at hcount
  -- every bit has a space, and so has every header
  have hsplit : 32 * ((n - 1) / 32) + (n - 1) % 32 + 1 = n := by omega
  have hne : sentBits ((n - 1) / 32) (repeats + 1) (32 * ((n - 1) / 32) + (n - 1) % 32 + 1) ≠
      (repeats + 1) * (32 * ((n - 1) / 32) + (n - 1) % 32 + 1) :=
    sentBits_ne (by omega) hchunk (by omega) (by omega)
  rw [hsplit] at hne
  exact hne (Nat.add_right_cancel hcount)

/-- The flags leave the stop mark out that the frame should have. -/
theorem pulses_sentFrame_iff :
    pulses (sentFrame c array n) = pulses (arrayFrame c array n) ↔
      c.distanceWidthTimingInfo.oneMarkMicros ≠ c.distanceWidthTimingInfo.zeroMarkMicros ∨
        c.flags &&& suppressStopBitForThisData = 0 := by
  simp only [sentFrame, arrayFrame, pulses_append, List.append_cancel_left_eq, stopMark]
  by_cases hmark : c.distanceWidthTimingInfo.oneMarkMicros =
      c.distanceWidthTimingInfo.zeroMarkMicros
  · rw [if_pos hmark]
    by_cases hflags : c.flags &&& suppressStopBitForThisData = 0
    · rw [if_pos ⟨hflags, hmark⟩]
      exact iff_of_true rfl (.inr hflags)
    · rw [if_neg fun h => hflags h.1]
      exact iff_of_false (fun h => by cases h) (not_or.mpr ⟨not_not_intro hmark, hflags⟩)
  · rw [if_neg fun h => hmark h.2, if_neg hmark]
    exact iff_of_true rfl (.inl hmark)

theorem flatten_replicate_inj {l l' : List (Pulse Bool)} (hn : 0 < n) :
    (List.replicate n l).flatten = (List.replicate n l').flatten ↔ l = l' := by
  refine ⟨fun h => ?_, fun h => by rw [h]⟩
  -- the lists have one length, so the first copies are equal
  have hlen : n * l.length = n * l'.length := by
    simpa using congrArg List.length h
  obtain ⟨k, rfl⟩ : ∃ k, n = k + 1 := ⟨n - 1, by omega⟩
  rw [List.replicate_succ, List.replicate_succ, List.flatten_cons, List.flatten_cons] at h
  exact (List.append_inj h (Nat.eq_of_mul_eq_mul_left hn hlen)).1

/-- The senders agree on a single frame and on frames of eight chunks, when the stop mark is not
suppressed by the flags. -/
theorem array_senders_agree_iff (c : PulseDistanceWidthProtocolConstants)
    (array : ℕ → BitVec 32) (n repeats : ℕ) (hpos : 1 ≤ n) (hn : n ≤ 374)
    (hrepeats : repeats ≤ 254) :
    ArraySendersAgree c array n repeats ↔
      (repeats = 0 ∨ 225 ≤ n ∧ n ≤ 256) ∧
        (c.distanceWidthTimingInfo.oneMarkMicros ≠ c.distanceWidthTimingInfo.zeroMarkMicros ∨
          c.flags &&& suppressStopBitForThisData = 0) := by
  have hchunks : (n - 1) / 32 = 7 ↔ 225 ≤ n ∧ n ≤ 256 := by omega
  have hfirst : pulses (sendPulseDistanceWidthFromArray c array n repeats) =
      (List.replicate (repeats + 1) (pulses (sentFrame c array n))).flatten :=
    pulses_sendPulseDistanceWidthFromArray hpos hn hrepeats
  have hframe : pulses (sentFrame c array n) = pulses (arrayFrame c array n) ↔
      c.distanceWidthTimingInfo.oneMarkMicros ≠ c.distanceWidthTimingInfo.zeroMarkMicros ∨
        c.flags &&& suppressStopBitForThisData = 0 := pulses_sentFrame_iff
  rw [ArraySendersAgree, ← hchunks, ← hframe,
    ← flatten_replicate_inj (l := pulses (sentFrame c array n)) (Nat.succ_pos repeats), ← hfirst]
  refine and_congr_left fun _ => ?_
  constructor
  · intro h
    by_contra hrepeat
    rw [not_or] at hrepeat
    exact pulses_ne_of_repeats hpos hn hrepeats (by omega) hrepeat.2 h
  · intro hrepeat
    rw [hfirst, pulses_sendFromConstantsV3 hpos hn hrepeats hrepeat]

/-- Constants of a protocol with one mark, sent least significant bit first. -/
def sampleConstants : PulseDistanceWidthProtocolConstants where
  protocolIndex := .pulseDistance
  frequencyKHz := 38
  distanceWidthTimingInfo :=
    { headerMarkMicros := 9000
      headerSpaceMicros := 4500
      oneMarkMicros := 550
      oneSpaceMicros := 1700
      zeroMarkMicros := 550
      zeroSpaceMicros := 550 }
  flags := protocolIsLsbFirst
  repeatPeriodMillis := 110
  specialSendRepeatFunction := none

theorem array_senders_agree_iff_sample :
    ArraySendersAgree sampleConstants (fun _ => 0x12345678) 48 0 :=
  (array_senders_agree_iff _ _ 48 0 (by decide) (by decide) (by decide)).mpr
    ⟨.inl rfl, .inr (by decide)⟩

/-- The repeat of a frame of 48 bits has 240 bits. -/
theorem second_frame_has_stale_count :
    ¬∀ (c : PulseDistanceWidthProtocolConstants) (array : ℕ → BitVec 32) (n repeats : ℕ),
      1 ≤ n → n ≤ 374 → repeats ≤ 254 → c.flags &&& suppressStopBitForThisData = 0 →
        ArraySendersAgree c array n repeats := by
  intro h
  have hagree := h sampleConstants (fun _ => 0x12345678) 48 1 (by decide) (by decide) (by decide)
    (by decide)
  exact pulses_ne_of_repeats (by decide) (by decide) (by decide) le_rfl (by decide) hagree.1

end IrRemote
