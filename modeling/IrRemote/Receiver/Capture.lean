import IrRemote.Receiver.Interrupt

/-!
# Faithful capture

A signal is sampled as a leading gap, runs of mark samples separated by runs of
space samples, and a closing gap. The interrupt handler records the length of
every run exactly, up to the saturation of its counter, or reports an overflow
when the signal has more marks than the buffer holds.

## Main definitions

* `isrRun` — one interrupt per sample
* `signalSamples` — the samples of a signal
* `signalEntries` — the buffer entries of a signal

## Main results

* `isrRun_signal` — a signal that fits is recorded
* `exists_reachable_captured` — and so some run from power-up leaves it
* `isrRun_overflow` — a longer one overflows
* `isrRun_captures` — both, entry by entry
-/

set_option autoImplicit false

namespace IrRemote

open FaultMachine (run_append_of_eq run_cons_of_eq)

/-- The pin level between marks. -/
def inputSpace : ℕ := 1

/-- One interrupt for every sample. -/
def isrRun (samples : List ℕ) (p : IrParams) : Option IrParams :=
  FaultMachine.run (timerLedEventHandler .compare0) samples p

/-- `m₁` mark samples, `s₁` space samples, ..., `mₖ` mark samples. -/
def signalSamples : List ℕ → List ℕ → List ℕ
  | m :: marks, s :: spaces =>
    List.replicate m inputMark ++ (List.replicate s inputSpace ++ signalSamples marks spaces)
  | m :: _, [] => List.replicate m inputMark
  | [], _ => []

/-- The entries `rawbuf[1]`, `rawbuf[2]`, ... a signal should leave. -/
def signalEntries : List ℕ → List ℕ → List ℕ
  | m :: marks, s :: spaces => min m uint16MaxCustom :: s :: signalEntries marks spaces
  | m :: _, [] => [min m uint16MaxCustom]
  | [], _ => []

/-- A gap followed by the given entries stands in the buffer. -/
structure Recorded (p : IrParams) (entries : List ℕ) : Prop where
  overflowFlag : p.overflowFlag = false
  rawlen : p.rawlen = entries.length + 1
  gap : ∃ g, p.raw 0 = some g ∧ recordGapTicks < g
  entry : ∀ i (h : i < entries.length), p.raw (i + 1) = some entries[i]

variable {p q : IrParams} {entries marks spaces : List ℕ} {m s n t : ℕ}

theorem Recorded.record (h : Recorded p entries) (hq : p.record t = some q) :
    Recorded q (entries ++ [t]) := by
  have hlen := h.rawlen
  obtain ⟨g, hg, hgap⟩ := h.gap
  refine ⟨?_, ?_, ⟨g, ?_, hgap⟩, fun i hi => ?_⟩
  · rw [IrParams.overflowFlag_record hq, h.overflowFlag]
  · rw [IrParams.rawlen_record hq, hlen, List.length_append, List.length_singleton]
  · rw [IrParams.raw_record hq, if_neg (by omega), hg]
  · rw [IrParams.raw_record hq, hlen]
    rw [List.length_append, List.length_singleton] at hi
    rcases Nat.lt_or_ge i entries.length with hlt | hge
    · rw [if_neg (by omega), h.entry i hlt, List.getElem_append_left hlt]
    · obtain rfl : i = entries.length := by omega
      simp

/-! ### Runs of equal samples -/

theorem isrRun_marks (hs : p.stateForISR = .mark) (ht : p.tickCounterForISR ≤ uint16MaxCustom) :
    isrRun (List.replicate n inputMark) p =
      some { p with tickCounterForISR := min (p.tickCounterForISR + n) uint16MaxCustom } := by
  induction n generalizing p with
  | zero =>
    rw [Nat.add_zero, Nat.min_eq_left ht]
    rfl
  | succ n ih =>
    have hnext := nextTick_eq ht
    refine run_cons_of_eq (isr_mark_mark hs) ?_
    refine (ih (p := { p with tickCounterForISR := nextTick p.tickCounterForISR }) hs ?_).trans ?_
    · exact hnext ▸ Nat.min_le_right _ _
    simp only [hnext, Option.some.injEq, IrParams.mk.injEq, true_and, and_true]
    omega

theorem isrRun_spaces (hs : p.stateForISR = .space)
    (ht : p.tickCounterForISR + n ≤ recordGapTicks) :
    isrRun (List.replicate n inputSpace) p =
      some { p with tickCounterForISR := p.tickCounterForISR + n } := by
  induction n generalizing p with
  | zero => rfl
  | succ n ih =>
    have hnext : nextTick p.tickCounterForISR = p.tickCounterForISR + 1 := by
      have hgap : recordGapTicks < uint16MaxCustom := by decide
      rw [nextTick_eq (by omega)]
      omega
    refine run_cons_of_eq (isr_space_space hs (by decide) (by omega)) ?_
    refine (ih (p := { p with tickCounterForISR := nextTick p.tickCounterForISR }) hs ?_).trans ?_
    · show nextTick p.tickCounterForISR + n ≤ recordGapTicks
      omega
    simp only [hnext, Option.some.injEq, IrParams.mk.injEq, true_and, and_true]
    omega

theorem isrRun_stop (hs : p.stateForISR = .stop) (samples : List ℕ) :
    ∃ n, isrRun samples p = some { p with tickCounterForISR := n } := by
  induction samples generalizing p with
  | nil => exact ⟨p.tickCounterForISR, rfl⟩
  | cons level samples ih =>
    obtain ⟨n, -, hstep⟩ := isr_stop hs level
    obtain ⟨n', hrun⟩ := ih (p := { p with tickCounterForISR := n }) hs
    exact ⟨n', run_cons_of_eq hstep hrun⟩

theorem isrRun_idle (hs : p.stateForISR = .idle) :
    ∃ n, min (p.tickCounterForISR + t) uint16MaxCustom ≤ n ∧
      isrRun (List.replicate t inputSpace) p = some { p with tickCounterForISR := n } := by
  induction t generalizing p with
  | zero => exact ⟨p.tickCounterForISR, Nat.min_le_left _ _, rfl⟩
  | succ t ih =>
    obtain ⟨n, hn, hrun⟩ :=
      ih (p := { p with tickCounterForISR := nextTick p.tickCounterForISR }) hs
    refine ⟨n, ?_, run_cons_of_eq (isr_idle_space hs (by decide)) hrun⟩
    have hnext := le_nextTick p.tickCounterForISR
    simp only at hn
    omega

/-! ### One mark -/

/-- The rest of a mark of `m` samples and the first sample after it record the mark. -/
theorem isrRun_mark (h : Recorded p entries) (hs : p.stateForISR = .mark)
    (ht : p.tickCounterForISR = 0) (hm : 1 ≤ m) (hroom : entries.length + 1 < rawBufferLength) :
    ∃ q, isrRun (List.replicate (m - 1) inputMark ++ [inputSpace]) p = some q ∧
      Recorded q (entries ++ [min m uint16MaxCustom]) ∧ q.stateForISR = .space ∧
      q.tickCounterForISR = 0 := by
  have hmarks := isrRun_marks (n := m - 1) hs (by omega)
  set p' : IrParams :=
    { p with tickCounterForISR := min (p.tickCounterForISR + (m - 1)) uint16MaxCustom }
  have hticks : nextTick p'.tickCounterForISR = min m uint16MaxCustom := by
    rw [nextTick_eq (Nat.min_le_right _ _)]
    omega
  have h' : Recorded p' entries := ⟨h.overflowFlag, h.rawlen, h.gap, h.entry⟩
  have hrec := IrParams.record_eq (p := p') (t := min m uint16MaxCustom)
    (by rw [h'.rawlen]; exact hroom)
  have hstep := isr_mark_space (p := p') hs (show inputSpace ≠ inputMark by decide) (by
    rw [hticks]
    exact hrec)
  have hrecorded := h'.record hrec
  exact ⟨_, run_append_of_eq hmarks (run_cons_of_eq hstep rfl),
    ⟨hrecorded.overflowFlag, hrecorded.rawlen, hrecorded.gap, hrecorded.entry⟩, rfl, rfl⟩

/-! ### One space -/

/-- The rest of a space of `s` samples, the first of which ended a mark. -/
theorem isrRun_space_rest (h : Recorded p entries) (hs : p.stateForISR = .space)
    (ht : p.tickCounterForISR = 0) (hpos : 1 ≤ s) (hle : s ≤ recordGapTicks) :
    ∃ q, isrRun (List.replicate (s - 1) inputSpace) p = some q ∧ Recorded q entries ∧
      q.stateForISR = .space ∧ nextTick q.tickCounterForISR = s := by
  refine ⟨_, isrRun_spaces hs (by omega), ⟨h.overflowFlag, h.rawlen, h.gap, h.entry⟩, hs, ?_⟩
  have hgap : recordGapTicks < uint16MaxCustom := by decide
  show nextTick (p.tickCounterForISR + (s - 1)) = s
  rw [nextTick_eq (by omega)]
  omega

/-- The first sample of the next mark records the space before it. -/
theorem isrRun_space (h : Recorded p entries) (hs : p.stateForISR = .space)
    (ht : p.tickCounterForISR = 0) (hpos : 1 ≤ s) (hle : s ≤ recordGapTicks)
    (hroom : entries.length + 1 < rawBufferLength) :
    ∃ q, isrRun (List.replicate (s - 1) inputSpace ++ [inputMark]) p = some q ∧
      Recorded q (entries ++ [s]) ∧ q.stateForISR = .mark ∧ q.tickCounterForISR = 0 := by
  obtain ⟨r, hrun, hr, hstate, htick⟩ := isrRun_space_rest h hs ht hpos hle
  obtain ⟨q, hrec⟩ : ∃ q, r.record (nextTick r.tickCounterForISR) = some q :=
    ⟨_, IrParams.record_eq (by rw [hr.rawlen]; exact hroom)⟩
  have hrecorded := hr.record hrec
  rw [htick] at hrecorded
  exact ⟨_, run_append_of_eq hrun (run_cons_of_eq (isr_space_mark hstate hrec) rfl),
    ⟨hrecorded.overflowFlag, hrecorded.rawlen, hrecorded.gap, hrecorded.entry⟩, rfl, rfl⟩

/-- A mark that finds the buffer full stops the receiver. -/
theorem isrRun_space_full (h : Recorded p entries) (hs : p.stateForISR = .space)
    (ht : p.tickCounterForISR = 0) (hpos : 1 ≤ s) (hle : s ≤ recordGapTicks)
    (hfull : rawBufferLength ≤ entries.length + 1) :
    ∃ q, isrRun (List.replicate (s - 1) inputSpace ++ [inputMark]) p = some q ∧
      q.stateForISR = .stop ∧ q.overflowFlag = true := by
  obtain ⟨r, hrun, hr, hstate, -⟩ := isrRun_space_rest h hs ht hpos hle
  have hstep := isr_space_full hstate (by rw [hr.rawlen]; exact hfull)
  exact ⟨_, run_append_of_eq hrun (run_cons_of_eq hstep rfl), rfl, rfl⟩

/-- A space longer than the gap ends the frame and leaves its entries. -/
theorem isrRun_gap (h : Recorded p entries) (hs : p.stateForISR = .space)
    (ht : p.tickCounterForISR = 0) (hn : recordGapTicks < n) :
    ∃ q, isrRun (List.replicate n inputSpace) p = some q ∧ Recorded q entries ∧
      q.stateForISR = .stop := by
  obtain ⟨k, rfl⟩ : ∃ k, n = recordGapTicks + (1 + k) := ⟨n - (recordGapTicks + 1), by omega⟩
  have hspaces := isrRun_spaces (n := recordGapTicks) hs (by omega)
  set r : IrParams := { p with tickCounterForISR := p.tickCounterForISR + recordGapTicks }
  have hnext : recordGapTicks < nextTick r.tickCounterForISR := by
    have htick : r.tickCounterForISR = recordGapTicks := by simp only [r, ht, Nat.zero_add]
    rw [htick]
    decide
  have hstop := isr_space_gap (p := r) hs (show inputSpace ≠ inputMark by decide) hnext
  obtain ⟨c, hrest⟩ := isrRun_stop (p := { r with
    stateForISR := .stop, tickCounterForISR := nextTick r.tickCounterForISR }) rfl
    (List.replicate k inputSpace)
  refine ⟨{ r with stateForISR := .stop, tickCounterForISR := c }, ?_,
    ⟨h.overflowFlag, h.rawlen, h.gap, h.entry⟩, rfl⟩
  rw [← List.replicate_append_replicate, Nat.add_comm 1 k, List.replicate_succ]
  exact run_append_of_eq hspaces (run_cons_of_eq hstop hrest)

/-! ### The whole signal -/

theorem signalSamples_cons (hm : 1 ≤ m) :
    signalSamples (m :: marks) spaces =
      inputMark :: (signalSamples (m :: marks) spaces).tail := by
  obtain ⟨k, rfl⟩ : ∃ k, m = k + 1 := ⟨m - 1, by omega⟩
  cases spaces <;> rfl

theorem signalSamples_tail_last :
    (signalSamples [m] []).tail = List.replicate (m - 1) inputMark := by
  simp [signalSamples]

theorem signalSamples_tail_cons {m' : ℕ} (hm : 1 ≤ m) (hs : 1 ≤ s) (hm' : 1 ≤ m') :
    (signalSamples (m :: m' :: marks) (s :: spaces)).tail =
      (List.replicate (m - 1) inputMark ++ [inputSpace]) ++
        ((List.replicate (s - 1) inputSpace ++ [inputMark]) ++
          (signalSamples (m' :: marks) spaces).tail) := by
  obtain ⟨k, rfl⟩ : ∃ k, m = k + 1 := ⟨m - 1, by omega⟩
  obtain ⟨j, rfl⟩ : ∃ j, s = j + 1 := ⟨s - 1, by omega⟩
  rw [signalSamples, signalSamples_cons hm']
  simp [List.replicate_succ]

/-- After the first sample of a mark, the rest of a signal that fits is recorded. -/
theorem isrRun_signal_rest (h : Recorded p entries) (hs : p.stateForISR = .mark)
    (ht : p.tickCounterForISR = 0) (hmarks : ∀ m' ∈ m :: marks, 1 ≤ m')
    (hspaces : ∀ s ∈ spaces, 1 ≤ s ∧ s ≤ recordGapTicks) (hlen : spaces.length = marks.length)
    (hroom : entries.length + 2 * marks.length + 1 < rawBufferLength)
    (hn : recordGapTicks + 1 < n) :
    ∃ q,
      isrRun ((signalSamples (m :: marks) spaces).tail ++ List.replicate n inputSpace) p = some q ∧
      Recorded q (entries ++ signalEntries (m :: marks) spaces) ∧ q.stateForISR = .stop := by
  -- the last mark is ended by the gap, every other one by its space
  induction marks generalizing m spaces p entries with
  | nil =>
    obtain rfl := List.eq_nil_of_length_eq_zero hlen
    obtain ⟨q, hrun, hq, hstate, htick⟩ :=
      isrRun_mark h hs ht (hmarks m (List.mem_cons_self ..)) (by simpa using hroom)
    obtain ⟨r, hgap, hr, hstop⟩ := isrRun_gap (n := n - 1) hq hstate htick (by omega)
    refine ⟨r, ?_, hr, hstop⟩
    obtain ⟨k, rfl⟩ : ∃ k, n = k + 1 := ⟨n - 1, by omega⟩
    rw [signalSamples_tail_last, List.replicate_succ, List.append_cons]
    exact run_append_of_eq hrun hgap
  | cons m' marks ih =>
    cases spaces with
    | nil => simp at hlen
    | cons s spaces =>
      have hm := hmarks m (List.mem_cons_self ..)
      have hm' := hmarks m' (by simp)
      obtain ⟨hs1, hs2⟩ := hspaces s (List.mem_cons_self ..)
      simp only [List.length_cons] at hlen hroom
      obtain ⟨q, hrun, hq, hstate, htick⟩ := isrRun_mark h hs ht hm (by omega)
      have hlen' : (entries ++ [min m uint16MaxCustom]).length = entries.length + 1 := by simp
      have hlen'' : (entries ++ [min m uint16MaxCustom] ++ [s]).length = entries.length + 2 := by
        simp
      obtain ⟨r, hspace, hr, hstate', htick'⟩ :=
        isrRun_space hq hstate htick hs1 hs2 (by omega)
      obtain ⟨u, hrest, hu, hstop⟩ := ih hr hstate' htick'
        (fun k hk => hmarks k (List.mem_cons_of_mem _ hk))
        (fun k hk => hspaces k (List.mem_cons_of_mem _ hk)) (by omega) (by omega)
      refine ⟨u, ?_, by simpa [signalEntries] using hu, hstop⟩
      rw [signalSamples_tail_cons hm hs1 hm', List.append_assoc (_ ++ _),
        List.append_assoc (_ ++ _)]
      exact run_append_of_eq hrun (run_append_of_eq hspace hrest)

/-- After the first sample of a mark, a signal that does not fit sets the overflow flag,
whatever follows it. -/
theorem isrRun_overflow_rest (h : Recorded p entries) (hs : p.stateForISR = .mark)
    (ht : p.tickCounterForISR = 0) (hmarks : ∀ m' ∈ m :: marks, 1 ≤ m')
    (hspaces : ∀ s ∈ spaces, 1 ≤ s ∧ s ≤ recordGapTicks) (hlen : spaces.length = marks.length)
    (heven : entries.length % 2 = 0) (hroom : entries.length + 1 < rawBufferLength)
    (hlong : rawBufferLength ≤ entries.length + 2 * marks.length + 1) (rest : List ℕ) :
    ∃ q, isrRun ((signalSamples (m :: marks) spaces).tail ++ rest) p = some q ∧
      q.stateForISR = .stop ∧ q.overflowFlag = true := by
  induction marks generalizing m spaces p entries with
  | nil =>
    simp only [List.length_nil] at hlong
    omega
  | cons m' marks ih =>
    cases spaces with
    | nil => simp at hlen
    | cons s spaces =>
      have hm := hmarks m (List.mem_cons_self ..)
      have hm' := hmarks m' (by simp)
      obtain ⟨hs1, hs2⟩ := hspaces s (List.mem_cons_self ..)
      simp only [List.length_cons] at hlen hlong
      have hlen' : (entries ++ [min m uint16MaxCustom]).length = entries.length + 1 := by simp
      have hlen'' : (entries ++ [min m uint16MaxCustom] ++ [s]).length = entries.length + 2 := by
        simp
      have hbuffer : rawBufferLength % 2 = 0 := by decide
      obtain ⟨q, hrun, hq, hstate, htick⟩ := isrRun_mark h hs ht hm hroom
      rw [signalSamples_tail_cons hm hs1 hm', List.append_assoc (_ ++ _),
        List.append_assoc (_ ++ _)]
      -- the entries come in pairs, so it is a space that finds the buffer full
      rcases Nat.lt_or_ge (entries.length + 2) rawBufferLength with inside | full
      · obtain ⟨r, hspace, hr, hstate', htick'⟩ :=
          isrRun_space hq hstate htick hs1 hs2 (by omega)
        obtain ⟨u, hrest, hu⟩ := ih hr hstate' htick'
          (fun k hk => hmarks k (List.mem_cons_of_mem _ hk))
          (fun k hk => hspaces k (List.mem_cons_of_mem _ hk)) (by omega) (by omega) (by omega)
          (by omega)
        exact ⟨u, run_append_of_eq hrun (run_append_of_eq hspace hrest), hu⟩
      · obtain ⟨r, hspace, hstop, hflag⟩ := isrRun_space_full hq hstate htick hs1 hs2 (by omega)
        obtain ⟨c, hrest⟩ := isrRun_stop hstop ((signalSamples (m' :: marks) spaces).tail ++ rest)
        exact ⟨_, run_append_of_eq hrun (run_append_of_eq hspace hrest), hstop, hflag⟩

/-- The first mark sample after a long enough gap. -/
theorem isrRun_lead {lead : ℕ} (hs : p.stateForISR = .idle)
    (hlead : recordGapTicks < p.tickCounterForISR + lead) :
    ∃ q, isrRun (List.replicate lead inputSpace ++ [inputMark]) p = some q ∧ Recorded q [] ∧
      q.stateForISR = .mark ∧ q.tickCounterForISR = 0 := by
  obtain ⟨c, hc, hrun⟩ := isrRun_idle (t := lead) hs
  -- a saturated counter is above the gap as well
  have hgap : recordGapTicks < nextTick c := by
    have hnext := le_nextTick c
    unfold recordGapTicks uint16MaxCustom microsPerTick at *
    omega
  have hstart := isr_idle_start (p := { p with tickCounterForISR := c }) hs hgap
  refine ⟨_, run_append_of_eq hrun (run_cons_of_eq hstart rfl), ⟨rfl, rfl, ?_, nofun⟩, rfl, rfl⟩
  exact ⟨nextTick c, by simp [IrParams.raw], hgap⟩

/-! ### Entry by entry -/

theorem signalEntries_length (hlen : spaces.length + 1 = marks.length) :
    (signalEntries marks spaces).length + 1 = 2 * marks.length := by
  induction marks generalizing spaces with
  | nil => simp at hlen
  | cons m marks ih =>
    cases spaces with
    | nil => simp_all [signalEntries]
    | cons s spaces =>
      have hrest := @ih spaces (by simpa using hlen)
      simp only [signalEntries, List.length_cons]
      omega

theorem signalEntries_mark (hlen : spaces.length + 1 = marks.length) {i : ℕ} :
    (signalEntries marks spaces)[2 * i]? = marks[i]?.map fun m => min m uint16MaxCustom := by
  induction i generalizing marks spaces with
  | zero => rcases marks with _ | ⟨m, marks⟩ <;> rcases spaces with _ | ⟨s, spaces⟩ <;> rfl
  | succ i ih =>
    rcases marks with _ | ⟨m, marks⟩ <;> rcases spaces with _ | ⟨s, spaces⟩
    · simp at hlen
    · simp at hlen
    · obtain rfl : marks = [] := by simpa using hlen
      simp [signalEntries]
    · simpa [signalEntries, Nat.mul_succ] using
        @ih marks spaces (by simpa using hlen)

theorem signalEntries_space (hlen : spaces.length + 1 = marks.length) {i : ℕ} :
    (signalEntries marks spaces)[2 * i + 1]? = spaces[i]? := by
  induction i generalizing marks spaces with
  | zero =>
    rcases marks with _ | ⟨m, marks⟩ <;> rcases spaces with _ | ⟨s, spaces⟩
    · simp at hlen
    · simp at hlen
    · rfl
    · rfl
  | succ i ih =>
    rcases marks with _ | ⟨m, marks⟩ <;> rcases spaces with _ | ⟨s, spaces⟩
    · simp at hlen
    · simp at hlen
    · simp [signalEntries]
    · simpa [signalEntries, Nat.mul_succ] using
        @ih marks spaces (by simpa using hlen)

theorem Recorded.raw_of_getElem? (h : Recorded p entries) {i : ℕ} (hi : entries[i]? = some t) :
    p.raw (i + 1) = some t := by
  obtain ⟨hlt, rfl⟩ := List.getElem?_eq_some_iff.mp hi
  exact h.entry i hlt

/-- The signal `marks`, `spaces` stands entry by entry in the buffer of a stopped receiver. -/
structure Captured (p : IrParams) (marks spaces : List ℕ) : Prop where
  stopped : p.stateForISR = .stop
  overflowFlag : p.overflowFlag = false
  rawlen : p.rawlen = 2 * marks.length
  gap : ∃ g, p.raw 0 = some g ∧ recordGapTicks < g
  mark : ∀ i (h : i < marks.length), p.raw (2 * i + 1) = some (min marks[i] uint16MaxCustom)
  space : ∀ i (h : i < spaces.length), p.raw (2 * i + 2) = some spaces[i]

theorem Recorded.captured (h : Recorded p (signalEntries marks spaces))
    (hs : p.stateForISR = .stop) (hlen : spaces.length + 1 = marks.length) :
    Captured p marks spaces where
  stopped := hs
  overflowFlag := h.overflowFlag
  rawlen := h.rawlen.trans (signalEntries_length hlen)
  gap := h.gap
  mark i hi := h.raw_of_getElem? (by simp [signalEntries_mark hlen, hi])
  space i hi := h.raw_of_getElem? (by simp [signalEntries_space hlen, hi])

/-- A signal that fits is recorded. -/
theorem isrRun_signal {lead tail : ℕ} (hs : p.stateForISR = .idle)
    (hlead : recordGapTicks < p.tickCounterForISR + lead) (hmarks : ∀ m ∈ marks, 1 ≤ m)
    (hspaces : ∀ s ∈ spaces, 1 ≤ s ∧ s ≤ recordGapTicks)
    (hlen : spaces.length + 1 = marks.length) (htail : recordGapTicks + 1 < tail)
    (hfits : 2 * marks.length ≤ rawBufferLength) :
    ∃ q, isrRun (List.replicate lead inputSpace ++
        (signalSamples marks spaces ++ List.replicate tail inputSpace)) p = some q ∧
      Captured q marks spaces := by
  cases marks with
  | nil => simp at hlen
  | cons m marks =>
    obtain ⟨q, hstart, hq, hstate, htick⟩ := isrRun_lead hs hlead
    simp only [List.length_cons] at hfits
    obtain ⟨r, hrest, hr, hstop⟩ := isrRun_signal_rest hq hstate htick hmarks hspaces
      (by simpa using hlen) (by simp only [List.length_nil]; omega) htail
    refine ⟨r, ?_, hr.captured hstop hlen⟩
    rw [signalSamples_cons (hmarks m (List.mem_cons_self ..)), List.cons_append, List.append_cons]
    exact run_append_of_eq hstart hrest

theorem ReachableReceiver.isrRun (h : ReachableReceiver p) {samples : List ℕ}
    (hrun : isrRun samples p = some q) : ReachableReceiver q := by
  induction samples generalizing p with
  | nil =>
    obtain rfl : p = q := Option.some.inj hrun
    exact h
  | cons level samples ih =>
    rw [IrRemote.isrRun, FaultMachine.run_cons, Option.bind_eq_some_iff] at hrun
    obtain ⟨r, hstep, hrun⟩ := hrun
    obtain ⟨s, hs, rfl⟩ := h
    have hop : receiverStep (.isr .compare0 level) s = some { s with irparams := r } := by
      simp [receiverStep, hstep]
    exact ih ⟨_, hs.tail hop, rfl⟩ hrun

/-- Every signal that fits stands in the buffer after some run. -/
theorem exists_reachable_captured (hmarks : ∀ m ∈ marks, 1 ≤ m)
    (hspaces : ∀ s ∈ spaces, 1 ≤ s ∧ s ≤ recordGapTicks)
    (hlen : spaces.length + 1 = marks.length) (hfits : 2 * marks.length ≤ rawBufferLength) :
    ∃ q, ReachableReceiver q ∧ Captured q marks spaces := by
  have hzero : ReachableReceiver .zero := ⟨.zero, FaultMachine.Reachable.refl, rfl⟩
  have hlead : recordGapTicks < IrParams.zero.tickCounterForISR + 101 := by decide
  have htail : recordGapTicks + 1 < 102 := by decide
  obtain ⟨q, hrun, hq⟩ := isrRun_signal rfl hlead hmarks hspaces hlen htail hfits
  exact ⟨q, hzero.isrRun hrun, hq⟩

/-- A signal with more marks than the buffer holds overflows, whatever follows it. -/
theorem isrRun_overflow {lead : ℕ} (hs : p.stateForISR = .idle)
    (hlead : recordGapTicks < p.tickCounterForISR + lead) (hmarks : ∀ m ∈ marks, 1 ≤ m)
    (hspaces : ∀ s ∈ spaces, 1 ≤ s ∧ s ≤ recordGapTicks)
    (hlen : spaces.length + 1 = marks.length) (hlong : rawBufferLength / 2 < marks.length)
    (rest : List ℕ) :
    ∃ q, isrRun (List.replicate lead inputSpace ++ (signalSamples marks spaces ++ rest)) p =
        some q ∧ q.stateForISR = .stop ∧ q.overflowFlag = true := by
  cases marks with
  | nil => simp at hlen
  | cons m marks =>
    obtain ⟨q, hstart, hq, hstate, htick⟩ := isrRun_lead hs hlead
    simp only [List.length_cons] at hlong
    obtain ⟨r, hrest, hr⟩ := isrRun_overflow_rest hq hstate htick hmarks hspaces
      (by simpa using hlen) rfl (by decide)
      (by simp only [List.length_nil]; unfold rawBufferLength at *; omega) rest
    refine ⟨r, ?_, hr⟩
    rw [signalSamples_cons (hmarks m (List.mem_cons_self ..)), List.cons_append, List.append_cons]
    exact run_append_of_eq hstart hrest

/-- From an idle receiver, a leading gap, a signal and a closing gap leave the signal in
the buffer when it fits, and the overflow flag otherwise. -/
theorem isrRun_captures (p : IrParams) (marks spaces : List ℕ) (lead tail : ℕ)
    (idle : p.stateForISR = .idle) (hlead : recordGapTicks < p.tickCounterForISR + lead)
    (hmarks : ∀ m ∈ marks, 1 ≤ m) (hspaces : ∀ s ∈ spaces, 1 ≤ s ∧ s ≤ recordGapTicks)
    (hlen : spaces.length + 1 = marks.length) (htail : recordGapTicks + 1 < tail) :
    ∃ q, isrRun (List.replicate lead inputSpace ++
        (signalSamples marks spaces ++ List.replicate tail inputSpace)) p = some q ∧
      (2 * marks.length ≤ rawBufferLength → Captured q marks spaces) ∧
      (rawBufferLength / 2 < marks.length → q.stateForISR = .stop ∧ q.overflowFlag = true) := by
  rcases Nat.lt_or_ge rawBufferLength (2 * marks.length) with hlong | hfits
  · have hmany : rawBufferLength / 2 < marks.length := by omega
    obtain ⟨q, hrun, hq⟩ := isrRun_overflow idle hlead hmarks hspaces hlen hmany
      (List.replicate tail inputSpace)
    exact ⟨q, hrun, fun h => absurd h (by omega), fun _ => hq⟩
  · obtain ⟨q, hrun, hq⟩ := isrRun_signal idle hlead hmarks hspaces hlen htail hfits
    exact ⟨q, hrun, fun _ => hq, fun h => absurd h (by omega)⟩

/-- Two marks of 180 and 12 samples, received after power-up. -/
theorem isrRun_captures_two_marks :
    ∃ q, isrRun (List.replicate 101 inputSpace ++
        (signalSamples [180, 12] [90] ++ List.replicate 102 inputSpace)) IrParams.zero = some q ∧
      Captured q [180, 12] [90] := by
  obtain ⟨q, hrun, hfits, -⟩ := isrRun_captures IrParams.zero [180, 12] [90] 101 102 rfl
    (by decide) (by decide) (by decide) rfl (by decide)
  exact ⟨q, hrun, hfits (by decide)⟩

end IrRemote
