import IrRemote.Link.Biphase
import IrRemote.Mid.IrRemoteDecode

/-!
# RC6 frames

An RC6 frame is a header and a biphase signal whose fourth bit, the toggle bit, has double
width. Its length depends on its bits. The decoder of Denon, which comes first, takes any
frame of 32 entries that ends with a short mark; all other frames are decoded to what was
sent.

## Main results

* `units_sendRC6Bits` — the units of a transmission
* `rc6Loop_of_reads` — the loop collects the bits that are read
* `rc6_roundTrip` — the frames that are decoded as RC6, and to what
-/

set_option autoImplicit false

namespace IrRemote

open LineSignal Manchester

/-! ## The signal -/

variable {n i : ℕ} {data : BitVec 32} {bits : List Bool} {p : IrParams} {b : Biphase}
  {s : DecodeState}

/-- The toggle bit is wide. -/
def rc6Wide (i : ℕ) : Bool := i = rc6ToggleBitIndex

theorem rc6Wide_apart (i : ℕ) (h : rc6Wide i = true) : rc6Wide (i + 1) = false := by
  simp [rc6Wide] at h ⊢
  omega

/-- The units of the bits from an index on. The sender counts from 1. -/
theorem units_sendRC6Bits (hn : n ≤ 32) :
    units rc6Unit ((sendRC6Bits data n (i + 1) (BitVec.twoPow 32 (n - 1))).filterMap
      TxEvent.pulse?) = halves rc6Wide i (BitWord.msbBits n data) := by
  induction n generalizing i with
  | zero => rfl
  | succ n ih =>
    have hbit : (data &&& BitVec.twoPow 32 n ≠ 0) ↔ data.getLsbD n = true :=
      BitWord.and_twoPow_ne_zero hn
    have hrest : units rc6Unit ((sendRC6Bits data n (i + 1 + 1)
        (BitVec.twoPow 32 n >>> 1)).filterMap TxEvent.pulse?) =
        halves rc6Wide (i + 1) (BitWord.msbBits n data) := by
      cases n with
      | zero => rfl
      | succ n =>
        rw [BitWord.twoPow_ushiftRight_one hn]
        exact ih (by omega)
    have hwide : (i + 1 = rc6ToggleBitIndex + 1) ↔ rc6Wide i = true := by simp [rc6Wide]
    rw [sendRC6Bits, BitWord.msbBits_succ, halves, ← hrest, Nat.add_sub_cancel]
    simp only [hbit, hwide, List.filterMap_append, units_append]
    congr 1
    cases rc6Wide i <;> cases data.getLsbD n <;> rfl

theorem duration_sendRC6Bits (mask : BitVec 32) :
    ∀ a ∈ (sendRC6Bits data n i mask).filterMap TxEvent.pulse?,
      0 < a.duration ∧ rc6Unit ∣ a.duration := by
  induction n generalizing i mask with
  | zero => simp [sendRC6Bits]
  | succ n ih =>
    rw [sendRC6Bits, List.filterMap_append, List.forall_mem_append]
    refine ⟨?_, ih _⟩
    split_ifs <;> simp [TxEvent.pulse?, rc6Unit]

theorem length_sendRC6Bits (mask : BitVec 32) :
    ((sendRC6Bits data n i mask).filterMap TxEvent.pulse?).length = 2 * n := by
  induction n generalizing i mask with
  | zero => simp [sendRC6Bits]
  | succ n ih =>
    rw [sendRC6Bits, List.filterMap_append, List.length_append, ih]
    split_ifs <;> simp [TxEvent.pulse?] <;> omega

/-! ## The decoder loop -/

/-- A round of the loop reads the two halves of a bit. -/
theorem rc6Loop_narrow {rounds : ℕ} {b₁ b₂ : Biphase} {bit : Bool}
    (hlt : b.decodeRawbuffOffset < p.rawlen) (hn : rc6Wide n = false)
    (hstart : getBiphaselevel p b = some (.ofBool bit, b₁))
    (hend : getBiphaselevel p b₁ = some (.ofBool !bit, b₂)) :
    rc6Loop p (rounds + 1) n data b =
      rc6Loop p rounds ((n + 1) % 256) (if bit then data <<< 1 ||| 1 else data <<< 1) b₂ := by
  have hindex : ¬n = rc6ToggleBitIndex := by simpa [rc6Wide] using hn
  simp only [rc6Loop, if_pos hlt, if_neg hindex, hstart, hend, Option.bind_eq_bind,
    Option.bind_some]
  cases bit <;> rfl

/-- The halves of the toggle bit are read twice. -/
theorem rc6Loop_wide {rounds : ℕ} {b₁ b₂ b₃ b₄ : Biphase} {bit : Bool}
    (hlt : b.decodeRawbuffOffset < p.rawlen) (hn : rc6Wide n = true)
    (h₁ : getBiphaselevel p b = some (.ofBool bit, b₁))
    (h₂ : getBiphaselevel p b₁ = some (.ofBool bit, b₂))
    (h₃ : getBiphaselevel p b₂ = some (.ofBool !bit, b₃))
    (h₄ : getBiphaselevel p b₃ = some (.ofBool !bit, b₄)) :
    rc6Loop p (rounds + 1) n data b =
      rc6Loop p rounds ((n + 1) % 256) (if bit then data <<< 1 ||| 1 else data <<< 1) b₄ := by
  have hindex : n = rc6ToggleBitIndex := by simpa [rc6Wide] using hn
  simp only [rc6Loop, if_pos hlt, if_pos hindex, h₁, h₂, h₃, h₄, Option.bind_eq_bind,
    Option.bind_some]
  cases bit <;> rfl

/-- The loop collects the bits that are read. -/
theorem rc6Loop_of_reads {rounds : ℕ} (data : BitVec 32) (hrounds : bits.length < rounds)
    (hn : n + bits.length < 256) (h : Reads p b (halves rc6Wide n bits)) :
    ∃ b', rc6Loop p rounds n data b =
      some (some (n + bits.length, BitWord.collectMsb bits data), b') := by
  induction bits generalizing rounds n data b with
  | nil =>
    obtain ⟨rounds, rfl⟩ : ∃ r, rounds = r + 1 := ⟨rounds - 1, by omega⟩
    exact ⟨b, if_neg (Nat.not_lt.mpr h.rawlen_le)⟩
  | cons bit bits ih =>
    obtain ⟨rounds, rfl⟩ : ∃ r, rounds = r + 1 := ⟨rounds - 1, by omega⟩
    rw [List.length_cons] at hrounds hn
    have hmod : (n + 1) % 256 = n + 1 := Nat.mod_eq_of_lt (by omega)
    have hstep : ∃ b₂, Reads p b₂ (halves rc6Wide (n + 1) bits) ∧
        rc6Loop p (rounds + 1) n data b =
          rc6Loop p rounds (n + 1) (if bit then data <<< 1 ||| 1 else data <<< 1) b₂ := by
      rw [halves] at h
      have hlt : b.decodeRawbuffOffset < p.rawlen := by
        apply h.lt_rawlen
        cases bit <;> cases rc6Wide n <;> simp
      -- the toggle bit has halves of two units
      cases hwide : rc6Wide n with
      | false =>
        rw [hwide] at h
        -- the leading 1 is a mark and a space
        obtain ⟨b₁, hstart, h₁⟩ := h.next
        obtain ⟨b₂, hend, h₂⟩ := h₁.next
        exact ⟨b₂, h₂, by rw [rc6Loop_narrow hlt hwide hstart hend, hmod]⟩
      | true =>
        rw [hwide] at h
        obtain ⟨b₁, hlevel₁, h₁⟩ := h.next
        obtain ⟨b₂, hlevel₂, h₂⟩ := h₁.next
        obtain ⟨b₃, hlevel₃, h₃⟩ := h₂.next
        obtain ⟨b₄, hlevel₄, h₄⟩ := h₃.next
        exact ⟨b₄, h₄, by rw [rc6Loop_wide hlt hwide hlevel₁ hlevel₂ hlevel₃ hlevel₄, hmod]⟩
    obtain ⟨b₂, hrest, hstep⟩ := hstep
    have hrounds' : bits.length < rounds := by omega
    obtain ⟨b', hb'⟩ := ih (n := n + 1) (if bit then data <<< 1 ||| 1 else data <<< 1) hrounds'
      (by omega) hrest
    refine ⟨b', ?_⟩
    rw [hstep, hb', List.length_cons, Nat.add_comm bits.length, ← Nat.add_assoc,
      BitWord.collectMsb]

/-- A frame whose levels are read is decoded. -/
theorem decodeRC6_of_reads {t u g : ℕ} (ht : p.raw 1 = some t)
    (hmark : matchMark t rc6HeaderMark = true) (hu : p.raw 2 = some u)
    (hspace : matchSpace u rc6HeaderSpace = true)
    (h : Reads p (initBiphaselevel 3 rc6Unit s.biphase) (true :: false :: halves rc6Wide 0 bits))
    (hn : bits.length < 256) (hg : p.raw 0 = some g) :
    ∃ b', decodeRC6 p s = some (true, { s with
      biphase := b'
      decodedIRData := { (rc6Fields bits.length (BitWord.collectMsb bits 0#32)
        s.decodedIRData).afterGap g (rc6MaximumRepeatDistance / microsPerTick) with
          protocol := .rc6 } }) := by
  obtain ⟨b₁, hstart, h₁⟩ := h.next
  obtain ⟨b₂, hend, h₂⟩ := h₁.next
  have hrounds : bits.length < biphaseRounds := by
    unfold biphaseRounds
    omega
  obtain ⟨b₃, hloop⟩ := rc6Loop_of_reads (n := 0) 0#32 hrounds (by omega) h₂
  rw [Nat.zero_add] at hloop
  have hlength : ¬(p.rawlen < minRc6Marks + 3 ∧ rc6Bits + 3 < p.rawlen) := by
    have hmarks : minRc6Marks = 12 := rfl
    have hbits : rc6Bits = 21 := rfl
    omega
  have hlevel₁ : ¬BiphaseLevel.ofBool true ≠ .mark := by decide
  have hlevel₂ : ¬BiphaseLevel.ofBool false ≠ .space := by decide
  refine ⟨b₃, ?_⟩
  simp only [decodeRC6, if_neg hlength, ht, hu, hmark, hspace, hstart, hend, if_neg hlevel₁,
    if_neg hlevel₂, BitVec.ofNat_eq_ofNat, hloop, checkForRepeatSpaceTicksAndSetFlag_eq hg,
    Option.bind_eq_bind, Option.bind_some]
  rfl

/-! ## The data word -/

variable {a c : BitVec 8} {toggle : Bool}

/-- The word fits the 20 bits that are sent. -/
theorem collectMsb_rc6RawData :
    BitWord.collectMsb (BitWord.msbBits (rc6Bits - 1) (rc6RawData a c toggle).uLong) 0#32 =
      (rc6RawData a c toggle).uLong := by
  apply BitWord.collectMsb_msbBits
  intro i hi
  have hi' : 20 ≤ i := hi
  have hbyte : ∀ t : Bool, ∀ j, 4 ≤ j → (if t then 1#8 else 0#8).getLsbD j = false := by
    intro t j hj
    rcases Nat.lt_or_ge j 8 with hlt | hge
    · exact (by decide : ∀ t : Bool, ∀ j < 8, 4 ≤ j → (if t then 1#8 else 0#8).getLsbD j = false)
        t j hlt hj
    · exact BitVec.getLsbD_of_ge _ _ hge
  have hupper := hbyte toggle (i - 8 - 8) (by omega)
  simp only [LongUnion.uLong, rc6RawData, BitVec.getLsbD_append, BitVec.ofNat_eq_ofNat, hupper,
    if_neg (show ¬i < 8 by omega), if_neg (show ¬i - 8 < 8 by omega)]
  simp

/-- The decoder reads off the word what was sent. -/
theorem rc6Fields_rawData (a c : BitVec 8) (toggle : Bool) (d : IRData) :
    let f := rc6Fields (rc6Bits - 1) (rc6RawData a c toggle).uLong d
    f.address = a.setWidth 16 ∧ f.command = c.setWidth 16 ∧
      (f.flags &&& irdataFlagsToggleBit ≠ 0 ↔ toggle = true) := by
  have hshort : rc6Bits - 1 < 36 := by decide
  have hextra : ¬(20 < rc6Bits - 1 ∧ rc6Bits - 1 < 36) := by decide
  simp only [rc6Fields, LongUnion.ofULong_uLong, rc6RawData, if_pos hshort, if_neg hextra, true_and]
  cases toggle <;> decide

/-! ## The record of a frame -/

variable {enable : Bool} {state : BitVec 8}

/-- The data word of a frame. -/
def rc6Sent (a c : BitVec 8) (enable : Bool) (state : BitVec 8) : BitVec 32 :=
  (rc6RawData a c (nextToggle enable state).1).uLong

/-- A transmission is a header and a biphase signal. -/
theorem exists_lineRuns_sendRC6 (a c : BitVec 8) (enable : Bool) (state : BitVec 8) :
    ∃ signal, lineRuns (sendRC6 a c 0 enable state).1 =
        ⟨true, rc6HeaderMark⟩ :: ⟨false, rc6HeaderSpace⟩ :: merge (trim false signal) ∧
      units rc6Unit signal =
        true :: false ::
          halves rc6Wide 0 (BitWord.msbBits (rc6Bits - 1) (rc6Sent a c enable state)) ∧
      BiphaseSignal rc6Unit 3 signal ∧ (merge (trim false signal)).length ≤ 42 := by
  let rest := (sendRC6Bits (rc6Sent a c enable state) (rc6Bits - 1) 1
    (BitVec.twoPow 32 (rc6Bits - 1 - 1))).filterMap TxEvent.pulse?
  have hunits : units rc6Unit (⟨true, rc6Unit⟩ :: ⟨false, rc6Unit⟩ :: rest) =
      true :: false ::
        halves rc6Wide 0 (BitWord.msbBits (rc6Bits - 1) (rc6Sent a c enable state)) := by
    rw [units_cons, units_cons, ← units_sendRC6Bits (by decide)]
    rfl
  have hpulses : (sendRC6 a c 0 enable state).1.filterMap TxEvent.pulse? =
      ⟨true, rc6HeaderMark⟩ :: [⟨false, rc6HeaderSpace⟩] ++
        ⟨true, rc6Unit⟩ :: ⟨false, rc6Unit⟩ :: rest := by
    rw [sendRC6]
    simp [sendCommands, sendRC6RawWith32Bit, TxEvent.pulse?, List.filterMap_cons, rest, rc6Sent]
  have hlength : rest.length = 40 := length_sendRC6Bits _
  have hduration : ∀ a ∈ (⟨true, rc6Unit⟩ :: ⟨false, rc6Unit⟩ :: rest : List (Pulse Bool)),
      0 < a.duration ∧ rc6Unit ∣ a.duration := by
    rw [List.forall_mem_cons, List.forall_mem_cons]
    exact ⟨⟨by decide, dvd_rfl⟩, ⟨by decide, dvd_rfl⟩, duration_sendRC6Bits _⟩
  -- the leading 1 belongs to the signal, the header does not
  refine ⟨⟨true, rc6Unit⟩ :: ⟨false, rc6Unit⟩ :: rest, ?_, hunits, ⟨⟨_, _, rfl⟩, hduration, ?_⟩, ?_⟩
  · rw [lineRuns, hpulses, trim_cons_append (by simp) (by simp)]
    obtain ⟨l', hl'⟩ := exists_trim_eq_cons (⟨false, rc6Unit⟩ :: rest)
      (show (⟨true, rc6Unit⟩ : Pulse Bool).level ≠ false by simp)
    rw [hl', List.cons_append, List.singleton_append, merge_cons_of_ne (by simp),
      merge_cons_of_ne (by simp)]
  · rw [hunits]
    refine noRun_cons.mpr ⟨?_, noRun_cons.mpr
      ⟨not_replicate_three_isPrefix_halves, noRun_halves_wide rc6Wide_apart⟩⟩
    simp [List.replicate]
  · refine ((length_merge_le _).trans (length_trim_le _)).trans ?_
    simp [hlength]

/-- A frame in the buffer: the header, runs of at most three units, and what is read behind
the header. -/
structure Rc6Capture (p : IrParams) (bits : List Bool) : Prop where
  rawlen : p.rawlen ≤ 45
  header : 3 < p.rawlen
  headerMark : ∃ t ∈ roundings rc6HeaderMark, p.raw 1 = some t
  headerSpace : ∃ u ∈ roundings rc6HeaderSpace, p.raw 2 = some u
  entry : ∀ i < p.rawlen, 3 ≤ i →
    ∃ n < 3, ∃ t ∈ roundings ((n + 1) * rc6Unit), p.raw i = some t
  reads : ∀ current, Reads p ⟨3, current, 0, rc6Unit⟩ (true :: false :: halves rc6Wide 0 bits)

theorem IdealCapture.rc6 (h : IdealCapture p (sendRC6 a c 0 enable state).1) :
    Rc6Capture p (BitWord.msbBits (rc6Bits - 1) (rc6Sent a c enable state)) := by
  obtain ⟨signal, hruns, hunits, hsignal, hlength⟩ := exists_lineRuns_sendRC6 a c enable state
  have hlen := h.rawlen
  have hentry := fun i a => h.entry_of_getElem? (i := i) (a := a)
  rw [hruns, List.length_cons, List.length_cons] at hlen
  rw [hruns] at hentry
  have hrest : ∀ i (hi : i < (merge (trim false signal)).length),
      ∃ t ∈ roundings (merge (trim false signal))[i].duration, p.raw (3 + i) = some t := by
    intro i hi
    rw [Nat.add_comm 3]
    exact hentry (i + 2) _ (List.getElem?_eq_getElem hi)
  have hreads : ∀ current, Reads p ⟨3, current, 0, rc6Unit⟩ (units rc6Unit signal) :=
    fun current => hsignal.reads (by decide) (by decide) (by decide) rfl (by omega) (by omega) hrest
  rw [hunits] at hreads
  refine ⟨by omega, (hreads 0).lt_rawlen (List.mem_cons_self ..), hentry 0 _ rfl, hentry 1 _ rfl,
    fun i hi hpos => ?_, hreads⟩
  obtain ⟨i, rfl⟩ : ∃ j, i = 3 + j := ⟨i - 3, by omega⟩
  have hi' : i < (merge (trim false signal)).length := by omega
  obtain ⟨t, ht, hraw⟩ := hrest i hi'
  obtain ⟨n, hn, hduration⟩ := hsignal.exists_duration (by decide) _ (List.getElem_mem hi')
  rw [hduration] at ht
  exact ⟨n, hn, t, ht, hraw⟩

/-! ## The frame in the chain -/

/-- The decoder of Denon takes a frame of 32 entries whose last mark is short. -/
def TakenByDenon (p : IrParams) : Prop := p.rawlen = 32 ∧ ∃ t ≤ 8, p.raw 31 = some t

theorem Rc6Capture.nec_refuses (h : Rc6Capture p bits) : decodeNec p s = some (false, s) := by
  obtain ⟨t, ht, hmark⟩ := h.headerMark
  apply decodeNec_of_mark hmark
  exact (by decide : ∀ t ∈ roundings rc6HeaderMark, matchMark t necHeaderMark = false) t ht

/-- Both headers have a mark of this length, but the header space of Sony is shorter. -/
theorem Rc6Capture.sony_refuses (h : Rc6Capture p bits) : decodeSony p s = some (false, s) := by
  obtain ⟨t, -, hmark⟩ := h.headerMark
  obtain ⟨u, hu, hspace⟩ := h.headerSpace
  apply decodeSony_of_header
  apply checkHeader_of_space hmark hspace
  exact (by decide : ∀ u ∈ roundings rc6HeaderSpace,
    matchSpace u sonyProtocolConstants.distanceWidthTimingInfo.headerSpaceMicros = false) u hu

/-- The header mark is as long as three units of RC5. -/
theorem Rc6Capture.rc5_refuses (h : Rc6Capture p bits) :
    decodeRC5 p s = some (false, { s with biphase := ⟨2, 3, 0, rc5Unit⟩ }) := by
  obtain ⟨t, ht, hmark⟩ := h.headerMark
  have hheader := h.header
  apply decodeRC5_of_three_units hmark (by omega)
  exact (by decide : ∀ t ∈ roundings rc6HeaderMark, timingIntervals rc5Unit true t = some 3) t ht

/-- The last mark of a frame is short for Denon when one unit is rounded down. -/
theorem Rc6Capture.matchMark_denon (h : Rc6Capture p bits) (hlen : p.rawlen = 32) {t : ℕ}
    (ht : p.raw 31 = some t) : matchMark t denonHeaderMark = decide (t ≤ 8) := by
  obtain ⟨n, hn, u, hu, hraw⟩ := h.entry 31 (by omega) (by decide)
  obtain rfl : u = t := Option.some.inj (hraw.symm.trans ht)
  exact (by decide : ∀ n < 3, ∀ u ∈ roundings ((n + 1) * rc6Unit),
    matchMark u denonHeaderMark = decide (u ≤ 8)) n hn u hu

/-- A frame that Denon does not take comes to `decodeRC6`. -/
theorem Rc6Capture.chain_of_not_denon (h : Rc6Capture p bits) (hdenon : ¬TakenByDenon p)
    (s : DecodeState) : ∃ data, tryDecoders specificDecoders p s =
      tryDecoders (specificDecoders.drop 5) p
        { s with decodedIRData.decodedRawData := data, biphase := ⟨2, 3, 0, rc5Unit⟩ } := by
  have hrawlen := h.rawlen
  have hrefuse : ∃ data, decodeDenon p s =
      some (false, { s with decodedIRData.decodedRawData := data }) := by
    by_cases hlen : p.rawlen = 32
    · obtain ⟨t, ht⟩ := p.exists_raw (show 31 < rawBufferLength by decide)
      obtain ⟨g, hg⟩ := p.exists_raw (show 0 < rawBufferLength by decide)
      obtain ⟨data, hdata⟩ := exists_decodeDenon (s := s) hlen ht hg
      have hlong : matchMark t denonHeaderMark = false := by
        rw [h.matchMark_denon hlen ht, decide_eq_false_iff_not]
        exact fun hshort => hdenon ⟨hlen, t, hshort, ht⟩
      rw [hlong] at hdata
      exact ⟨data, hdata⟩
    · exact ⟨s.decodedIRData.decodedRawData, decodeDenon_of_rawlen hlen⟩
  obtain ⟨data, hdata⟩ := hrefuse
  refine ⟨data, ?_⟩
  rw [specificDecoders, tryDecoders_cons_of_refuse h.nec_refuses,
    tryDecoders_cons_of_refuse (decodeKaseikyo_of_rawlen (by omega)),
    tryDecoders_cons_of_refuse hdata, tryDecoders_cons_of_refuse h.sony_refuses,
    tryDecoders_cons_of_refuse h.rc5_refuses]
  rfl

theorem Rc6Capture.chain_of_denon (h : Rc6Capture p bits) (hdenon : TakenByDenon p)
    (s : DecodeState) : ∃ s', tryDecoders specificDecoders p s = some (true, s') ∧
      s'.decodedIRData.protocol ∈ [DecodeType.denon, .sharp] := by
  have hrawlen := h.rawlen
  obtain ⟨hlen, t, hshort, ht⟩ := hdenon
  obtain ⟨g, hg⟩ := p.exists_raw (show 0 < rawBufferLength by decide)
  obtain ⟨data, hdata⟩ := exists_decodeDenon (s := s) hlen ht hg
  rw [if_pos (by rw [h.matchMark_denon hlen ht, decide_eq_true hshort])] at hdata
  refine ⟨_, ?_, denonFields_protocol g { s with decodedIRData.decodedRawData := data }⟩
  rw [specificDecoders, tryDecoders_cons_of_refuse h.nec_refuses,
    tryDecoders_cons_of_refuse (decodeKaseikyo_of_rawlen (by omega)),
    tryDecoders_cons_of_accept hdata]

/-- The frame is decoded to what was sent, unless the decoder of Denon takes it. -/
theorem rc6_roundTrip (h : IdealCapture p (sendRC6 a c 0 enable state).1) (s : DecodeState) :
    ∃ s', midIrRemoteDecode p s = some (true, s') ∧
      (¬TakenByDenon p →
        s'.decodedIRData.protocol = .rc6 ∧
        s'.decodedIRData.address = a.setWidth 16 ∧
        s'.decodedIRData.command = c.setWidth 16 ∧
        s'.decodedIRData.numberOfBits = 20 ∧
        (s'.decodedIRData.flags &&& irdataFlagsToggleBit ≠ 0 ↔
          (nextToggle enable state).1 = true)) ∧
      (TakenByDenon p → s'.decodedIRData.protocol ∈ [DecodeType.denon, .sharp]) := by
  have hframe := h.rc6
  obtain ⟨g, hg, -⟩ := h.gap
  -- the decoder of Denon comes first, and looks at the length and the last mark only
  by_cases hdenon : TakenByDenon p
  · obtain ⟨s', hs', hprotocol⟩ :=
      hframe.chain_of_denon hdenon (irRemoteInitDecodedIRData p s)
    exact ⟨s', midIrRemoteDecode_of_accept h.stopped h.overflowFlag hs',
      fun hnot => absurd hdenon hnot, fun _ => hprotocol⟩
  · obtain ⟨t, ht, hmark⟩ := hframe.headerMark
    obtain ⟨u, hu, hspace⟩ := hframe.headerSpace
    have hmatchMark : matchMark t rc6HeaderMark = true :=
      (by decide : ∀ t ∈ roundings rc6HeaderMark, matchMark t rc6HeaderMark = true) t ht
    have hmatchSpace : matchSpace u rc6HeaderSpace = true :=
      (by decide : ∀ u ∈ roundings rc6HeaderSpace, matchSpace u rc6HeaderSpace = true) u hu
    obtain ⟨data, hchain⟩ := hframe.chain_of_not_denon hdenon (irRemoteInitDecodedIRData p s)
    obtain ⟨b', hrc6⟩ := decodeRC6_of_reads (s := { irRemoteInitDecodedIRData p s with
        decodedIRData.decodedRawData := data, biphase := ⟨2, 3, 0, rc5Unit⟩ })
      hmark hmatchMark hspace hmatchSpace (hframe.reads 3)
      (by rw [BitWord.msbBits_length]; decide) hg
    rw [BitWord.msbBits_length, rc6Sent, collectMsb_rc6RawData] at hrc6
    rw [show specificDecoders.drop 5 = decodeRC6 :: specificDecoders.drop 6 from rfl,
      tryDecoders_cons_of_accept hrc6] at hchain
    obtain ⟨haddress, hcommand, htoggle⟩ := rc6Fields_rawData a c
      (nextToggle enable state).1
      { (irRemoteInitDecodedIRData p s).decodedIRData with decodedRawData := data }
    refine ⟨_, midIrRemoteDecode_of_accept h.stopped h.overflowFlag hchain,
      fun _ => ⟨rfl, haddress, hcommand, rfl, ?_⟩, fun h => absurd h hdenon⟩
    dsimp only
    rw [IRData.afterGap_toggleBit]
    exact htoggle

theorem exists_rc6Capture (a c : BitVec 8) (enable : Bool) (state : BitVec 8) :
    ∃ p, IdealCapture p (sendRC6 a c 0 enable state).1 ∧
      ∀ i (h : i < (lineRuns (sendRC6 a c 0 enable state).1).length),
        p.raw (i + 1) =
          some ((lineRuns (sendRC6 a c 0 enable state).1)[i].duration / microsPerTick) := by
  obtain ⟨signal, hruns, -, -, hlength⟩ := exists_lineRuns_sendRC6 a c enable state
  have hfits : (lineRuns (sendRC6 a c 0 enable state).1).length < rawBufferLength := by
    have hbuffer : 44 < rawBufferLength := by decide
    rw [hruns, List.length_cons, List.length_cons]
    omega
  obtain ⟨p, hp, -, hentry⟩ := exists_idealCapture (show recordGapTicks < 101 by decide) hfits
  exact ⟨p, hp, hentry⟩

/-- A frame of 42 entries with the toggle bit. -/
theorem rc6_roundTrip_long : ∃ p s', IdealCapture p (sendRC6 0 0 0 true 0).1 ∧
    midIrRemoteDecode p .zero = some (true, s') ∧ s'.decodedIRData.protocol = .rc6 ∧
    s'.decodedIRData.flags &&& irdataFlagsToggleBit ≠ 0 := by
  obtain ⟨p, hp, -⟩ := exists_rc6Capture 0 0 true 0
  obtain ⟨s', hs', hrc6, -⟩ := rc6_roundTrip hp .zero
  have hlen : (lineRuns (sendRC6 0 0 0 true 0).1).length = 41 := by decide
  have hdenon : ¬TakenByDenon p := by
    intro h
    have hrawlen := hp.rawlen
    rw [h.1, hlen] at hrawlen
    omega
  obtain ⟨hprotocol, -, -, -, htoggle⟩ := hrc6 hdenon
  exact ⟨p, s', hp, hs', hprotocol, htoggle.mpr (by decide)⟩

/-- The first command after power-up to address 0x12 with command 0xAA has 32 entries. -/
theorem rc6_taken_by_denon : ∃ p s',
    IdealCapture p (sendRC6 0x12 0xAA 0 true initialSendToggleValue).1 ∧
    midIrRemoteDecode p .zero = some (true, s') ∧ s'.decodedIRData.protocol ≠ .rc6 := by
  obtain ⟨p, hp, hentry⟩ := exists_rc6Capture 0x12 0xAA true initialSendToggleValue
  have hlen : (lineRuns (sendRC6 0x12 0xAA 0 true initialSendToggleValue).1).length = 31 := by
    decide
  have hlast : ∀ h : 30 < (lineRuns (sendRC6 0x12 0xAA 0 true initialSendToggleValue).1).length,
      (lineRuns (sendRC6 0x12 0xAA 0 true initialSendToggleValue).1)[30].duration = rc6Unit := by
    decide
  have hdenon : TakenByDenon p := by
    refine ⟨by rw [hp.rawlen, hlen], 8, le_rfl, ?_⟩
    rw [hentry 30 (by omega), hlast]
    rfl
  obtain ⟨s', hs', hprotocol⟩ := hp.rc6.chain_of_denon hdenon _
  refine ⟨p, s', hp, midIrRemoteDecode_of_accept hp.stopped hp.overflowFlag hs', fun h => ?_⟩
  rw [h] at hprotocol
  revert hprotocol
  decide

end IrRemote
