import IrRemote.Decode.BiphaseLoops

/-!
# Complete biphase frames

The decoders of RC5 and RC6 take every frame that is a coded word, of any number of bits:
their length checks join two comparisons that no length satisfies both. A single noise
pulse of one unit is an RC5 frame without bits. A word has a complete number of bits when
the frame has the right number of units, where the last half of a word may be silence.

## Main definitions

* `capturedLevels` — the levels of a frame, unit by unit
* `Manchester.IsWord` — levels of a coded word, but for silence at its end

## Main results

* `reads_iff_capturedLevels` — what successive calls read
* `decodeRC5_accepts`, `decodeRC6_accepts` — the frames that are taken are coded words
* `biphase_complete_iff` — the frames whose number of bits is complete
-/

set_option autoImplicit false

namespace IrRemote

open Manchester

variable {p : IrParams} {b b' : Biphase} {s s' : DecodeState} {unit k n m c : ℕ}
  {levels bits : List Bool}

/-! ## The levels of a frame -/

/-- The levels of so many entries, `none` when one of them is no number of units. -/
def entryLevels (p : IrParams) (unit : ℕ) : ℕ → ℕ → Option (List Bool)
  | 0, _ => some []
  | n + 1, k => do
    let isMark : Bool := k % 2 = 1
    let units ← timingIntervals unit isMark (← p.raw k)
    return List.replicate units isMark ++ (← entryLevels p unit n (k + 1))

/-- The levels of the frame from entry `k` on. -/
def capturedLevels (p : IrParams) (unit k : ℕ) : Option (List Bool) :=
  entryLevels p unit (p.rawlen - k) k

theorem timingIntervals_bounds {isMark : Bool} {t : ℕ}
    (h : timingIntervals unit isMark t = some n) : 0 < n ∧ n < 256 := by
  unfold timingIntervals at h
  dsimp only at h
  split_ifs at h <;> obtain rfl := Option.some.inj h <;> decide

/-- The levels of a frame are read. -/
theorem reads_of_entryLevels (h : entryLevels p unit n k = some levels)
    (hlen : k + n = p.rawlen) (hmax : p.rawlen < 256) (m : ℕ) :
    Reads p ⟨k, c, 0, unit⟩ (levels ++ List.replicate m false) := by
  induction n generalizing k c levels with
  | zero =>
    obtain rfl : [] = levels := Option.some.inj h
    exact .silence m (Nat.le_of_eq hlen.symm)
  | succ n ih =>
    simp only [entryLevels, Option.bind_eq_bind, Option.bind_eq_some_iff, Option.pure_def,
      Option.some.injEq] at h
    obtain ⟨t, ht, units, hunits, rest, hrest, rfl⟩ := h
    obtain ⟨hpos, hlt⟩ := timingIntervals_bounds hunits
    rw [List.append_assoc]
    exact reads_run (by omega) hmax ht hunits hpos hlt (ih hrest (by omega))

/-- What is read inside a run is its level. -/
theorem Reads.of_useInterval {j : ℕ}
    (h : Reads p (Biphase.useInterval ⟨k, n, j, unit⟩) levels) (hk : k < p.rawlen)
    (hmax : p.rawlen < 256) (hn : n < 256) (hm : j + m + 1 = n) :
    ∃ rest, levels = List.replicate m (decide (k % 2 = 1)) ++ rest ∧
      Reads p ⟨k + 1, n, 0, unit⟩ rest := by
  induction m generalizing j levels with
  | zero =>
    rw [useInterval_of_last hm hn (by omega)] at h
    exact ⟨levels, rfl, h⟩
  | succ m ih =>
    rw [useInterval_of_lt (by omega) hn] at h
    cases h with
    | silence count hend => exact absurd hk (Nat.not_lt.mpr hend)
    | level hlt hlevel rest =>
      have hused : j + 1 ≠ 0 := Nat.succ_ne_zero j
      simp only [getBiphaselevel, if_neg (Nat.not_le.mpr hk), if_neg hused] at hlevel
      obtain ⟨hl, rfl⟩ := Prod.mk.inj (Option.some.inj hlevel)
      obtain ⟨rest', rfl, hrest'⟩ := ih rest (by omega)
      refine ⟨rest', ?_, hrest'⟩
      rw [List.replicate_succ, List.cons_append, ofBool_injective hl.symm]

/-- What is read is the levels of the frame and some silence. -/
theorem Reads.exists_entryLevels (h : Reads p ⟨k, c, 0, unit⟩ levels)
    (hlen : k + n = p.rawlen) (hmax : p.rawlen < 256) :
    ∃ frame m, entryLevels p unit n k = some frame ∧
      levels = frame ++ List.replicate m false := by
  induction n generalizing k c levels with
  | zero => exact ⟨[], levels.length, rfl, h.eq_replicate (Nat.le_of_eq hlen.symm)⟩
  | succ n ih =>
    have hk : k < p.rawlen := by omega
    cases h with
    | silence count hend => exact absurd hk (Nat.not_lt.mpr hend)
    | level hlt hlevel rest =>
      rename_i b₁ l levels
      obtain ⟨t, ht⟩ : ∃ t, p.raw k = some t :=
        p.exists_raw (Nat.lt_trans (by omega : k < 256) (by decide))
      cases hunits : timingIntervals unit (decide (k % 2 = 1)) t with
      | none =>
        simp only [getBiphaselevel, if_neg (Nat.not_le.mpr hk), if_true, ht, hunits,
          Option.bind_eq_bind, Option.bind_some] at hlevel
        cases l <;> simp [BiphaseLevel.ofBool] at hlevel
      | some units =>
        obtain ⟨hpos, hbyte⟩ := timingIntervals_bounds hunits
        simp only [getBiphaselevel, if_neg (Nat.not_le.mpr hk), if_true, ht, hunits,
          Option.bind_eq_bind, Option.bind_some] at hlevel
        obtain ⟨hl, rfl⟩ := Prod.mk.inj (Option.some.inj hlevel)
        obtain ⟨m, rfl⟩ : ∃ m, units = m + 1 := ⟨units - 1, by omega⟩
        obtain ⟨rest', rfl, hrest'⟩ := rest.of_useInterval hk hmax hbyte (m := m) (by omega)
        obtain ⟨frame, silence, hframe, rfl⟩ := ih hrest' (by omega)
        refine ⟨List.replicate (m + 1) (decide (k % 2 = 1)) ++ frame, silence, ?_, ?_⟩
        · simp only [entryLevels, ht, hunits, hframe, Option.bind_eq_bind, Option.bind_some,
            Option.pure_def]
        · rw [List.replicate_succ, List.cons_append, List.cons_append, List.append_assoc,
            ofBool_injective hl.symm]

/-- Successive calls read the levels of a frame, and silence behind it. -/
theorem reads_iff_capturedLevels (hmax : p.rawlen < 256) :
    Reads p ⟨k, c, 0, unit⟩ levels ↔ ∃ frame m,
      capturedLevels p unit k = some frame ∧ levels = frame ++ List.replicate m false := by
  rcases Nat.lt_or_ge p.rawlen k with hlt | hk
  -- nothing is left to read
  · have hnil : capturedLevels p unit k = some [] := by
      rw [capturedLevels, Nat.sub_eq_zero_of_le (Nat.le_of_lt hlt)]
      rfl
    constructor
    · exact fun h => ⟨[], levels.length, hnil, h.eq_replicate (Nat.le_of_lt hlt)⟩
    · rintro ⟨frame, m, hframe, rfl⟩
      obtain rfl : [] = frame := Option.some.inj (hnil.symm.trans hframe)
      exact .silence m (Nat.le_of_lt hlt)
  · have hlen : k + (p.rawlen - k) = p.rawlen := Nat.add_sub_cancel' hk
    constructor
    · exact fun h => h.exists_entryLevels hlen hmax
    · rintro ⟨frame, m, hframe, rfl⟩
      exact reads_of_entryLevels hframe hlen hmax m

/-- The first level of a frame is that of its first entry. -/
theorem entryLevels_head {l : Bool} (h : entryLevels p unit n k = some (l :: levels)) :
    l = decide (k % 2 = 1) := by
  cases n with
  | zero => exact absurd (Option.some.inj h) (by simp)
  | succ n =>
    simp only [entryLevels, Option.bind_eq_bind, Option.bind_eq_some_iff, Option.pure_def,
      Option.some.injEq] at h
    obtain ⟨t, -, units, hunits, rest, -, hcons⟩ := h
    obtain ⟨m, rfl⟩ : ∃ m, units = m + 1 := ⟨units - 1, by
      have := (timingIntervals_bounds hunits).1
      omega⟩
    rw [List.replicate_succ, List.cons_append] at hcons
    exact (List.cons.inj hcons).1.symm

/-! ## What the loops accept -/

theorem Reads.not_wrapped (h : Reads p b levels) (hb : Positioned unit b)
    (hgap : GapRefused unit p) : b.decodeRawbuffOffset ≠ 0 := by
  intro hzero
  cases h with
  | silence n hend => exact absurd hgap.1 (by omega)
  | level hlt hlevel rest =>
    rename_i l _
    rw [getBiphaselevel_of_wrapped hb hgap hzero] at hlevel
    cases l <;> simp [BiphaseLevel.ofBool] at hlevel

/-- Only a frame whose length is a byte is read to its end. -/
theorem Reads.rawlen_lt (h : Reads p b levels) (hb : Positioned unit b)
    (hgap : GapRefused unit p) : p.rawlen < 256 := by
  induction h with
  | silence n hend => exact Nat.lt_of_le_of_lt hend hb.offset_lt
  | level hlt hlevel rest ih => exact ih (hb.level hgap hlevel).1

theorem Reads.exists_readsTo {front : List Bool} (h : Reads p b (front ++ levels)) :
    ∃ b', ReadsTo p b front b' ∧ Reads p b' levels := by
  induction front generalizing b with
  | nil => exact ⟨b, rfl, h⟩
  | cons l front ih =>
    obtain ⟨b₁, hlevel, h₁⟩ := h.next
    obtain ⟨b', hfront, hrest⟩ := ih h₁
    exact ⟨b', ⟨b₁, hlevel, hfront⟩, hrest⟩

/-- Every bit advances the offset, so a word has fewer bits than the offset has values. -/
theorem Reads.length_lt {wide : ℕ → Bool} {i : ℕ} (h : Reads p b (halves wide i bits))
    (hb : Positioned unit b) (hgap : GapRefused unit p) :
    bits.length + b.decodeRawbuffOffset < 256 := by
  induction bits generalizing b i with
  | nil => simpa using hb.offset_lt
  | cons bit bits ih =>
    have hlevels : ∀ l, l ∈ if wide i then [bit, bit, !bit, !bit] else [bit, !bit] :=
      mem_unitsOfBit (wide i) bit
    have hlt : b.decodeRawbuffOffset < p.rawlen := by
      apply h.lt_rawlen
      rw [halves]
      exact List.mem_append_left _ (hlevels true)
    rw [halves] at h
    obtain ⟨b', hbit, hrest⟩ := h.exists_readsTo
    have hb' := hbit.positioned hb hgap
    -- a bit has both levels, so it advances the offset, and the rest is not read in the gap
    have hmove := hbit.advance hb hgap hlt (hlevels true) (hlevels false)
    have hwrap := hrest.not_wrapped hb' hgap
    have hrest' := ih hrest hb'
    rw [List.length_cons]
    omega

/-- A loop that ends with data has read a word. -/
theorem rc5Loop_accepts {rounds : ℕ} {data : BitVec 32} {r : ℕ × BitVec 32}
    (hb : Positioned rc5Unit b) (hgap : GapRefused rc5Unit p)
    (h : rc5Loop p rounds n data b = some (some r, b')) : ∃ bits, Reads p b (rc5Levels bits) := by
  induction rounds generalizing n data b with
  | zero => simp [rc5Loop] at h
  | succ rounds ih =>
    by_cases hlt : b.decodeRawbuffOffset < p.rawlen
    · rcases rc5Loop_round hb hgap hlt rounds n data with ⟨b₁, hend⟩ | ⟨bit, b₁, hreads, hloop⟩
      · simp [hend] at h
      · obtain ⟨bits, hbits⟩ := ih (hreads.positioned hb hgap) (hloop.symm.trans h)
        exact ⟨bit :: bits, hreads.reads hbits⟩
    · exact ⟨[], .silence 0 (Nat.not_lt.mp hlt)⟩

theorem rc6Loop_not_wrapped {rounds : ℕ} {data : BitVec 32} {r : ℕ × BitVec 32}
    (hb : Positioned rc6Unit b) (hgap : GapRefused rc6Unit p)
    (h : rc6Loop p rounds n data b = some (some r, b')) : b.decodeRawbuffOffset ≠ 0 := by
  intro hzero
  have hlt : b.decodeRawbuffOffset < p.rawlen := hzero ▸ hgap.1
  cases rounds with
  | zero => simp [rc6Loop] at h
  | succ rounds =>
    rcases rc6Loop_round hb hgap hlt rounds n data with ⟨b₁, hend⟩ | ⟨bit, b₁, hreads, -⟩
    · simp [hend] at h
    · exact List.ne_nil_of_mem (mem_rc6Halves n bit true)
        (hreads.eq_nil_of_wrapped hb hgap hzero).2

/-- The index of the bits is behind the offset, so it does not wrap before the toggle bit
could come again. -/
theorem rc6Loop_accepts {rounds : ℕ} {data : BitVec 32} {r : ℕ × BitVec 32}
    (hb : Positioned rc6Unit b) (hgap : GapRefused rc6Unit p) (hn : n ≤ b.decodeRawbuffOffset)
    (h : rc6Loop p rounds n data b = some (some r, b')) :
    ∃ bits, Reads p b (halves rc6Wide n bits) := by
  induction rounds generalizing n data b with
  | zero => simp [rc6Loop] at h
  | succ rounds ih =>
    by_cases hlt : b.decodeRawbuffOffset < p.rawlen
    · rcases rc6Loop_round hb hgap hlt rounds n data with ⟨b₁, hend⟩ | ⟨bit, b₁, hreads, hloop⟩
      · simp [hend] at h
      · have hb₁ := hreads.positioned hb hgap
        have hrest := hloop.symm.trans h
        have hmove := hreads.advance hb hgap hlt (mem_rc6Halves ..) (mem_rc6Halves ..)
        have hwrap := rc6Loop_not_wrapped hb₁ hgap hrest
        have hbyte := hb₁.offset_lt
        have hmod : (n + 1) % 256 = n + 1 := Nat.mod_eq_of_lt (by omega)
        rw [hmod] at hrest
        obtain ⟨bits, hbits⟩ := ih hb₁ (by omega) hrest
        exact ⟨bit :: bits, hreads.reads hbits⟩
    · exact ⟨[], .silence 0 (Nat.not_lt.mp hlt)⟩

/-! ## What the decoders accept -/

theorem rc5Levels_eq (bits : List Bool) :
    false :: true :: rc5Levels bits = halves (fun _ => false) 0 (false :: bits.map (!·)) := by
  rw [rc5Levels_eq_halves]
  exact congrArg (false :: true :: ·) (halves_congr fun _ => rfl)

/-- A frame that is accepted is a word with the start bit before it, and its bits are
counted. -/
theorem decodeRC5_accepts (hgap : GapRefused rc5Unit p) (h : decodeRC5 p s = some (true, s')) :
    ∃ bits, Reads p (initBiphaselevel 1 rc5Unit s.biphase) (true :: rc5Levels bits) ∧
      bits.length < 256 ∧ s'.decodedIRData.numberOfBits = bits.length := by
  have hstart : Positioned rc5Unit (initBiphaselevel 1 rc5Unit s.biphase) :=
    positioned_initBiphaselevel (by decide) _ _
  -- no length is refused
  have hbits : ¬(p.rawlen < (rc5Bits + 1) / 2 + 2 ∧ rc5Bits + 2 < p.rawlen) := by
    have hrc5 : rc5Bits = 13 := rfl
    omega
  obtain ⟨level, b₁, h₁, hb₁⟩ := hstart.exists_getBiphaselevel hgap
  by_cases hlevel : level = .mark
  · subst hlevel
    obtain ⟨⟨result, b₂⟩, hloop⟩ :=
      defined_rc5Loop hb₁ hgap (advancesLeft_lt_biphaseRounds b₁) 0 0#32
    cases result with
    | none => simp [decodeRC5, hbits, h₁, hloop] at h
    | some data =>
      obtain ⟨bits, hreads⟩ := rc5Loop_accepts hb₁ hgap hloop
      have hlt : bits.length < 256 := by
        rw [rc5Levels_eq_halves] at hreads
        have hlength := hreads.length_lt hb₁ hgap
        rw [List.length_map] at hlength
        omega
      obtain ⟨g, hg⟩ := p.exists_raw (show 0 < rawBufferLength by decide)
      have hall : Reads p (initBiphaselevel 1 rc5Unit s.biphase) (true :: rc5Levels bits) :=
        hreads.cons h₁
      obtain ⟨b', hdecode⟩ := decodeRC5_of_reads hall hlt hg
      obtain rfl := (Prod.mk.inj (Option.some.inj (hdecode.symm.trans h))).2
      exact ⟨bits, hall, hlt, rfl⟩
  · simp [decodeRC5, hbits, h₁, hlevel] at h

theorem decodeRC6_accepts (hgap : GapRefused rc6Unit p) (h : decodeRC6 p s = some (true, s')) :
    ∃ bits t u, p.raw 1 = some t ∧ matchMark t rc6HeaderMark = true ∧ p.raw 2 = some u ∧
      matchSpace u rc6HeaderSpace = true ∧
      Reads p (initBiphaselevel 3 rc6Unit s.biphase) (true :: false :: halves rc6Wide 0 bits) ∧
      bits.length < 256 ∧ s'.decodedIRData.numberOfBits = bits.length := by
  have hstart : Positioned rc6Unit (initBiphaselevel 3 rc6Unit s.biphase) :=
    positioned_initBiphaselevel (by decide) _ _
  -- no length is refused here either
  have hlength : ¬(p.rawlen < minRc6Marks + 3 ∧ rc6Bits + 3 < p.rawlen) := by
    have hmarks : minRc6Marks = 12 := rfl
    have hrc6 : rc6Bits = 21 := rfl
    omega
  obtain ⟨t, ht⟩ := p.exists_raw (show 1 < rawBufferLength by decide)
  obtain ⟨u, hu⟩ := p.exists_raw (show 2 < rawBufferLength by decide)
  obtain ⟨level₁, b₁, h₁, hb₁⟩ := hstart.exists_getBiphaselevel hgap
  obtain ⟨level₂, b₂, h₂, hb₂⟩ := hb₁.exists_getBiphaselevel hgap
  by_cases hheader : matchMark t rc6HeaderMark = true ∧ matchSpace u rc6HeaderSpace = true
  swap
  · have hrefused : matchMark t rc6HeaderMark = false ∨ matchSpace u rc6HeaderSpace = false := by
      rwa [Classical.not_and_iff_not_or_not, Bool.not_eq_true, Bool.not_eq_true] at hheader
    simp [decodeRC6, hlength, ht, hu, hrefused] at h
  obtain ⟨hmark, hspace⟩ := hheader
  by_cases hlevel₁ : level₁ = .mark
  swap
  · simp [decodeRC6, hlength, ht, hu, hmark, hspace, h₁, hlevel₁] at h
  by_cases hlevel₂ : level₂ = .space
  swap
  · simp [decodeRC6, hlength, ht, hu, hmark, hspace, h₁, h₂, hlevel₁, hlevel₂] at h
  subst hlevel₁ hlevel₂
  obtain ⟨⟨result, b₃⟩, hloop⟩ :=
    defined_rc6Loop hb₂ hgap (advancesLeft_lt_biphaseRounds b₂) 0 0#32
  cases result with
  | none => simp [decodeRC6, hlength, ht, hu, hmark, hspace, h₁, h₂, hloop] at h
  | some data =>
    obtain ⟨bits, hreads⟩ := rc6Loop_accepts hb₂ hgap (Nat.zero_le _) hloop
    have hlt : bits.length < 256 := Nat.lt_of_le_of_lt (Nat.le_add_right ..)
      (hreads.length_lt hb₂ hgap)
    obtain ⟨g, hg⟩ := p.exists_raw (show 0 < rawBufferLength by decide)
    have hall : Reads p (initBiphaselevel 3 rc6Unit s.biphase)
        (true :: false :: halves rc6Wide 0 bits) := (hreads.cons h₂).cons h₁
    obtain ⟨b', hdecode⟩ := decodeRC6_of_reads ht hmark hu hspace hall hlt hg
    obtain rfl := (Prod.mk.inj (Option.some.inj (hdecode.symm.trans h))).2
    exact ⟨bits, t, u, ht, hmark, hu, hspace, hall, hlt, rfl⟩

/-! ## The number of bits -/

/-- The bit behind the toggle bit index is wide when the leading 1 is counted. -/
def rc6WordWide (i : ℕ) : Bool := i = rc6ToggleBitIndex + 1

theorem halves_rc6WordWide (bits : List Bool) :
    halves rc6WordWide 0 (true :: bits) = true :: false :: halves rc6Wide 0 bits := by
  refine congrArg (true :: false :: ·) (halves_congr fun m => ?_)
  simp only [rc6WordWide, rc6Wide, Nat.zero_add, Nat.add_comm 1, Nat.add_right_cancel_iff]

/-- The frame is a coded word in units of RC5. The first half of its start bit is part of
the gap. -/
def IsRc5Word (p : IrParams) (levels : List Bool) : Prop :=
  p.rawlen < 256 ∧ capturedLevels p rc5Unit 1 = some levels ∧
    IsWord (fun _ => false) (false :: levels)

/-- The frame is the header of RC6 and a coded word in its units. -/
def IsRc6Word (p : IrParams) (levels : List Bool) : Prop :=
  p.rawlen < 256 ∧
    (∃ t u, p.raw 1 = some t ∧ matchMark t rc6HeaderMark = true ∧ p.raw 2 = some u ∧
      matchSpace u rc6HeaderSpace = true) ∧
    capturedLevels p rc6Unit 3 = some levels ∧ IsWord rc6WordWide levels

theorem isRc5Word_iff : IsRc5Word p levels ↔ p.rawlen < 256 ∧
    capturedLevels p rc5Unit 1 = some levels ∧
      ∃ bits n, levels ++ List.replicate n false = true :: rc5Levels bits := by
  refine and_congr_right fun _ => and_congr_right fun _ => ?_
  constructor
  · rintro ⟨bits, n, hne, hword⟩
    obtain ⟨bit, bits, rfl⟩ := List.exists_cons_of_ne_nil hne
    -- the first half is the end of the gap
    obtain rfl : bit = false := (List.cons.inj hword).1.symm
    refine ⟨bits.map (!·), n, (List.cons.inj (hword.trans (?_ : _ = false :: _))).2⟩
    have hback : (bits.map (!·)).map (!·) = bits := by
      rw [List.map_map]
      simp [Function.comp_def]
    rw [rc5Levels_eq, hback]
  · rintro ⟨bits, n, hword⟩
    refine ⟨false :: bits.map (!·), n, List.cons_ne_nil _ _, ?_⟩
    rw [← rc5Levels_eq, List.cons_append, hword]

theorem isRc6Word_iff : IsRc6Word p levels ↔ p.rawlen < 256 ∧
    (∃ t u, p.raw 1 = some t ∧ matchMark t rc6HeaderMark = true ∧ p.raw 2 = some u ∧
      matchSpace u rc6HeaderSpace = true) ∧
    capturedLevels p rc6Unit 3 = some levels ∧
      ∃ bits n, levels ++ List.replicate n false = true :: false :: halves rc6Wide 0 bits := by
  refine and_congr_right fun _ => and_congr_right fun _ => and_congr_right fun hlevels => ?_
  constructor
  · rintro ⟨bits, n, hne, hword⟩
    obtain ⟨bit, bits, rfl⟩ := List.exists_cons_of_ne_nil hne
    -- the leading 1 is the first of the frame, or the frame would be silence
    have hfirst : bit = true := by
      cases levels with
      | nil =>
        have hmark : true ∈ halves rc6WordWide 0 (bit :: bits) := by
          rw [halves]
          cases bit <;> simp [rc6WordWide, rc6ToggleBitIndex]
        rw [← hword] at hmark
        simp at hmark
      | cons l levels =>
        have hl : l = bit := (List.cons.inj hword).1
        rw [← hl, entryLevels_head hlevels]
        rfl
    subst hfirst
    exact ⟨bits, n, hword.trans (halves_rc6WordWide bits)⟩
  · rintro ⟨bits, n, hword⟩
    exact ⟨true :: bits, n, List.cons_ne_nil _ _, hword.trans (halves_rc6WordWide bits).symm⟩

/-- The number of units tells the number of bits, as less than a bit is silence. -/
theorem length_rc5Word (h : levels ++ List.replicate n false = true :: rc5Levels bits) :
    bits.length = rc5Bits ↔ levels.length = 2 * rc5Bits ∨ levels.length = 2 * rc5Bits + 1 := by
  have hrc5 : rc5Bits = 13 := rfl
  have hlength : levels.length + n = 1 + 2 * bits.length := by
    have hcount := congrArg List.length h
    rw [List.length_append, List.length_replicate, List.length_cons, rc5Levels_eq_halves,
      length_halves_of_narrow fun _ => rfl, List.length_map] at hcount
    omega
  have hsilence : n < 2 := by
    have hword : (false :: levels) ++ List.replicate n false =
        halves (fun _ => false) 0 (false :: bits.map (!·)) := by
      rw [← rc5Levels_eq, List.cons_append, h]
    obtain ⟨front, last, hlast⟩ : ∃ front last, false :: bits.map (!·) = front ++ [last] :=
      ⟨_, _, (List.dropLast_append_getLast (List.cons_ne_nil _ _)).symm⟩
    rw [hlast] at hword
    exact silence_lt_two hword rfl
  omega

theorem length_rc6Word
    (h : levels ++ List.replicate n false = true :: false :: halves rc6Wide 0 bits) :
    rc6Bits - 1 ≤ bits.length ↔ 2 * rc6Bits + 1 ≤ levels.length := by
  have hrc6 : rc6Bits = 21 := rfl
  have hwide : ∀ i, rc6WordWide i = true ↔ i = 4 := fun i => by
    rw [rc6WordWide, decide_eq_true_iff]
    rfl
  rw [← halves_rc6WordWide] at h
  have hlength : levels.length + n =
      2 * (bits.length + 1) + if 0 ≤ 4 ∧ 4 < 0 + (bits.length + 1) then 2 else 0 := by
    have hcount := congrArg List.length h
    rwa [List.length_append, List.length_replicate, length_halves hwide, List.length_cons] at hcount
  have hsilence : 4 < bits.length → n < 2 := by
    intro hlong
    obtain ⟨front, last, hlast⟩ : ∃ front last, true :: bits = front ++ [last] :=
      ⟨_, _, (List.dropLast_append_getLast (List.cons_ne_nil _ _)).symm⟩
    have hfront : bits.length + 1 = front.length + 1 := by
      simpa using congrArg List.length hlast
    rw [hlast] at h
    refine silence_lt_two h ?_
    rw [Bool.eq_false_iff, Ne, hwide]
    omega
  split_ifs at hlength <;> omega

theorem decodeRC5_numberOfBits_iff (hgap : GapRefused rc5Unit p) (s : DecodeState) :
    (∀ s', decodeRC5 p s = some (true, s') → s'.decodedIRData.numberOfBits = rc5Bits) ↔
      ∀ levels, IsRc5Word p levels →
        levels.length = 2 * rc5Bits ∨ levels.length = 2 * rc5Bits + 1 := by
  obtain ⟨g, hg⟩ := p.exists_raw (show 0 < rawBufferLength by decide)
  have hstart : Positioned rc5Unit (initBiphaselevel 1 rc5Unit s.biphase) :=
    positioned_initBiphaselevel (by decide) _ _
  constructor
  · intro h levels hword
    obtain ⟨hmax, hlevels, bits, n, hbits⟩ := isRc5Word_iff.mp hword
    have hreads : Reads p (initBiphaselevel 1 rc5Unit s.biphase) (true :: rc5Levels bits) :=
      (reads_iff_capturedLevels hmax).mpr ⟨levels, n, hlevels, hbits.symm⟩
    have hlt : bits.length < 256 := by
      obtain ⟨b₁, hlevel, h₁⟩ := hreads.next
      rw [rc5Levels_eq_halves] at h₁
      have hlength := h₁.length_lt (hstart.level hgap hlevel).1 hgap
      rw [List.length_map] at hlength
      omega
    obtain ⟨b', hdecode⟩ := decodeRC5_of_reads hreads hlt hg
    exact (length_rc5Word hbits).mp (h _ hdecode)
  · intro h s' hs'
    obtain ⟨bits, hreads, -, hcount⟩ := decodeRC5_accepts hgap hs'
    have hmax := hreads.rawlen_lt hstart hgap
    obtain ⟨levels, n, hlevels, hbits⟩ := (reads_iff_capturedLevels hmax).mp hreads
    rw [hcount, length_rc5Word hbits.symm]
    exact h levels (isRc5Word_iff.mpr ⟨hmax, hlevels, bits, n, hbits.symm⟩)

theorem decodeRC6_numberOfBits_iff (hgap : GapRefused rc6Unit p) (s : DecodeState) :
    (∀ s', decodeRC6 p s = some (true, s') → rc6Bits - 1 ≤ s'.decodedIRData.numberOfBits) ↔
      ∀ levels, IsRc6Word p levels → 2 * rc6Bits + 1 ≤ levels.length := by
  obtain ⟨g, hg⟩ := p.exists_raw (show 0 < rawBufferLength by decide)
  have hstart : Positioned rc6Unit (initBiphaselevel 3 rc6Unit s.biphase) :=
    positioned_initBiphaselevel (by decide) _ _
  constructor
  · intro h levels hword
    obtain ⟨hmax, ⟨t, u, ht, hmark, hu, hspace⟩, hlevels, bits, n, hbits⟩ := isRc6Word_iff.mp hword
    have hreads : Reads p (initBiphaselevel 3 rc6Unit s.biphase)
        (true :: false :: halves rc6Wide 0 bits) :=
      (reads_iff_capturedLevels hmax).mpr ⟨levels, n, hlevels, hbits.symm⟩
    have hlt : bits.length < 256 := by
      have hlength := (halves_rc6WordWide bits ▸ hreads).length_lt hstart hgap
      rw [List.length_cons] at hlength
      omega
    obtain ⟨b', hdecode⟩ := decodeRC6_of_reads ht hmark hu hspace hreads hlt hg
    exact (length_rc6Word hbits).mp (h _ hdecode)
  · intro h s' hs'
    obtain ⟨bits, t, u, ht, hmark, hu, hspace, hreads, -, hcount⟩ := decodeRC6_accepts hgap hs'
    have hmax := hreads.rawlen_lt hstart hgap
    obtain ⟨levels, n, hlevels, hbits⟩ := (reads_iff_capturedLevels hmax).mp hreads
    rw [hcount, length_rc6Word hbits.symm]
    exact h levels (isRc6Word_iff.mpr ⟨hmax, ⟨t, u, ht, hmark, hu, hspace⟩, hlevels, bits, n,
      hbits.symm⟩)

/-- The decoders accept complete frames only when no coded word of another length is
captured. -/
theorem biphase_complete_iff (h : ReachableReceiver p) (hs : p.stateForISR = .stop)
    (s : DecodeState) :
    ((∀ s', decodeRC5 p s = some (true, s') → s'.decodedIRData.numberOfBits = rc5Bits) ∧
      ∀ s', decodeRC6 p s = some (true, s') → rc6Bits - 1 ≤ s'.decodedIRData.numberOfBits) ↔
    (∀ levels, IsRc5Word p levels →
        levels.length = 2 * rc5Bits ∨ levels.length = 2 * rc5Bits + 1) ∧
      ∀ levels, IsRc6Word p levels → 2 * rc6Bits + 1 ≤ levels.length := by
  obtain ⟨hgap₅, hgap₆⟩ := h.inv.gapRefused hs
  exact and_congr (decodeRC5_numberOfBits_iff hgap₅ s) (decodeRC6_numberOfBits_iff hgap₆ s)

/-- A noise pulse of one unit. -/
theorem biphase_complete_iff_noise : ∃ p : IrParams, p.rawlen = 2 ∧
    (((∀ s', decodeRC5 p .zero = some (true, s') → s'.decodedIRData.numberOfBits = rc5Bits) ∧
      ∀ s', decodeRC6 p .zero = some (true, s') → rc6Bits - 1 ≤ s'.decodedIRData.numberOfBits) ↔
    (∀ levels, IsRc5Word p levels →
        levels.length = 2 * rc5Bits ∨ levels.length = 2 * rc5Bits + 1) ∧
      ∀ levels, IsRc6Word p levels → 2 * rc6Bits + 1 ≤ levels.length) := by
  obtain ⟨p, hp, hcaptured⟩ := exists_reachable_captured (show ∀ m ∈ [18], 1 ≤ m by decide)
    (show ∀ s ∈ [], 1 ≤ s ∧ s ≤ recordGapTicks by decide) rfl (by decide)
  exact ⟨p, hcaptured.rawlen, biphase_complete_iff hp hcaptured.stopped .zero⟩

/-- A single pulse of 900 µs is accepted as an RC5 frame without bits. -/
theorem noise_pulse_is_rc5 : ∃ (p : IrParams) (s' : DecodeState), ReachableReceiver p ∧
    p.stateForISR = .stop ∧ p.overflowFlag = false ∧ p.rawlen = 2 ∧ p.raw 1 = some 18 ∧
    decodeRC5 p .zero = some (true, s') ∧ s'.decodedIRData.numberOfBits = 0 ∧
    ¬∀ s', decodeRC5 p .zero = some (true, s') → s'.decodedIRData.numberOfBits = rc5Bits := by
  obtain ⟨p, hp, hcaptured⟩ := exists_reachable_captured (show ∀ m ∈ [18], 1 ≤ m by decide)
    (show ∀ s ∈ [], 1 ≤ s ∧ s ≤ recordGapTicks by decide) rfl (by decide)
  have hlen : p.rawlen = 2 := hcaptured.rawlen
  have hmark : p.raw 1 = some 18 := hcaptured.mark 0 (by decide)
  obtain ⟨g, hg, -⟩ := hcaptured.gap
  have hlevels : capturedLevels p rc5Unit 1 = some [true] := by
    simp only [capturedLevels, hlen, entryLevels, hmark, Option.bind_eq_bind,
      Option.bind_some, Option.pure_def, List.append_nil]
    rfl
  have hreads : Reads p (initBiphaselevel 1 rc5Unit DecodeState.zero.biphase)
      (true :: rc5Levels []) :=
    (reads_iff_capturedLevels (by omega)).mpr ⟨[true], 0, hlevels, rfl⟩
  obtain ⟨b', hdecode⟩ := decodeRC5_of_reads hreads (by decide) hg
  exact ⟨p, _, hp, hcaptured.stopped, hcaptured.overflowFlag, hlen, hmark, hdecode, rfl,
    fun hall => absurd (show 0 = rc5Bits from hall _ hdecode) (by decide)⟩

end IrRemote
