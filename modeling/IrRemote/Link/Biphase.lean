import IrRemote.Library.Manchester
import IrRemote.Link.IdealCapture

/-!
# Reading biphase frames

The receiver records the runs of a biphase signal, and `getBiphaselevel` splits them into
units again, one for each call. After the end of the frame it gives spaces, which makes up
for the silence the receiver does not record.

## Main definitions

* `Reads` — the levels that successive calls of `getBiphaselevel` give
* `pulseLevels` — the levels of a pulse distance frame
* `BiphaseSignal` — signals whose runs are a few units long

## Main results

* `PulseDistanceCapture.reads` — a pulse distance frame is read as a biphase signal too
* `BiphaseSignal.exists_duration` — its runs
* `BiphaseSignal.reads`, `BiphaseSignal.reads_of_capture` — a recorded signal is read unit by unit
-/

set_option autoImplicit false

namespace IrRemote

open LineSignal

/-! ## Successive levels -/

/-- The level of a mark or of a space. -/
def BiphaseLevel.ofBool (level : Bool) : BiphaseLevel := if level then .mark else .space

/-- Successive calls of `getBiphaselevel` give these levels, up to the end of the frame and
some silence behind it. -/
inductive Reads (p : IrParams) : Biphase → List Bool → Prop
  | silence {b : Biphase} (n : ℕ) (hend : p.rawlen ≤ b.decodeRawbuffOffset) :
      Reads p b (List.replicate n false)
  | level {b b' : Biphase} {l : Bool} {levels : List Bool}
      (hlt : b.decodeRawbuffOffset < p.rawlen)
      (hlevel : getBiphaselevel p b = some (.ofBool l, b')) (rest : Reads p b' levels) :
      Reads p b (l :: levels)

variable {p : IrParams} {b : Biphase} {l : Bool} {levels : List Bool}

/-- The next level. -/
theorem Reads.next (h : Reads p b (l :: levels)) :
    ∃ b', getBiphaselevel p b = some (.ofBool l, b') ∧ Reads p b' levels := by
  generalize hcons : l :: levels = all at h
  cases h with
  | silence n hend =>
    cases n with
    | zero => simp at hcons
    | succ n =>
      obtain ⟨rfl, rfl⟩ := List.cons.inj hcons
      exact ⟨b, if_pos hend, .silence n hend⟩
  | level hlt hlevel rest =>
    obtain ⟨rfl, rfl⟩ := List.cons.inj hcons
    exact ⟨_, hlevel, rest⟩

/-- A mark to come is in the buffer. -/
theorem Reads.lt_rawlen (h : Reads p b levels) (hmark : true ∈ levels) :
    b.decodeRawbuffOffset < p.rawlen := by
  cases h with
  | silence n hend => simp at hmark
  | level hlt hlevel rest => exact hlt

theorem Reads.rawlen_le (h : Reads p b []) : p.rawlen ≤ b.decodeRawbuffOffset := by
  generalize hnil : [] = all at h
  cases h with
  | silence n hend => exact hend
  | level => simp at hnil

/-- Behind the frame there is silence. -/
theorem Reads.append_silence (h : Reads p b levels) (k : ℕ) :
    Reads p b (levels ++ List.replicate k false) := by
  induction h with
  | silence n hend =>
    rw [← List.replicate_add]
    exact .silence (n + k) hend
  | level hlt hlevel rest ih => exact .level hlt hlevel ih

/-! ## One run -/

variable {k n j unit current : ℕ}

theorem useInterval_of_lt (h : j + 1 < n) (hn : n < 256) :
    Biphase.useInterval ⟨k, n, j, unit⟩ = ⟨k, n, j + 1, unit⟩ := by
  have hj : (j + 1) % 256 = j + 1 := Nat.mod_eq_of_lt (by omega)
  simp only [Biphase.useInterval, hj, if_neg (Nat.not_le.mpr h)]

theorem useInterval_of_last (h : j + 1 = n) (hn : n < 256) (hk : k + 1 < 256) :
    Biphase.useInterval ⟨k, n, j, unit⟩ = ⟨k + 1, n, 0, unit⟩ := by
  have hj : (j + 1) % 256 = n := by rw [h, Nat.mod_eq_of_lt hn]
  simp only [Biphase.useInterval, hj, if_pos le_rfl, Nat.mod_eq_of_lt hk]

/-- The intervals of a run that are left give its level. -/
theorem reads_useInterval (hk : k < p.rawlen) (hmax : p.rawlen < 256) (hn : n < 256)
    (hrest : Reads p ⟨k + 1, n, 0, unit⟩ levels) {m : ℕ} (hm : j + m + 1 = n) :
    Reads p (Biphase.useInterval ⟨k, n, j, unit⟩)
      (List.replicate m (decide (k % 2 = 1)) ++ levels) := by
  induction m generalizing j with
  | zero =>
    rw [useInterval_of_last hm hn (by omega)]
    exact hrest
  | succ m ih =>
    rw [useInterval_of_lt (by omega) hn, List.replicate_succ]
    refine .level hk ?_ (ih (j := j + 1) (by omega))
    have hused : j + 1 ≠ 0 := Nat.succ_ne_zero j
    simp only [getBiphaselevel, if_neg (Nat.not_le.mpr hk), if_neg hused]
    rfl

theorem reads_run {t : ℕ} (hk : k < p.rawlen) (hmax : p.rawlen < 256) (ht : p.raw k = some t)
    (hintervals : timingIntervals unit (decide (k % 2 = 1)) t = some n) (hpos : 0 < n)
    (hn : n < 256) (hrest : Reads p ⟨k + 1, n, 0, unit⟩ levels) :
    Reads p ⟨k, current, 0, unit⟩ (List.replicate n (decide (k % 2 = 1)) ++ levels) := by
  obtain ⟨m, rfl⟩ : ∃ m, n = m + 1 := ⟨n - 1, by omega⟩
  rw [List.replicate_succ]
  refine .level hk ?_ (reads_useInterval hk hmax hn hrest (j := 0) (by omega))
  simp only [getBiphaselevel, if_neg (Nat.not_le.mpr hk), if_true, ht, hintervals,
    Option.bind_eq_bind, Option.bind_some]
  rfl

/-! ## Frames of other protocols -/

/-- The levels of the bits of a pulse distance frame, when its marks have one length and its
spaces two. -/
def pulseLevels (m : ℕ) (n : Bool → ℕ) : List Bool → List Bool
  | [] => List.replicate m true
  | bit :: bits => List.replicate m true ++ (List.replicate (n bit) false ++ pulseLevels m n bits)

/-- Both halves of every bit are a number of intervals at either rounding. -/
structure PulsesTold (unit mark : ℕ) (space : Bool → ℕ) (m : ℕ) (n : Bool → ℕ) : Prop where
  mark : ∀ t ∈ roundings mark, timingIntervals unit true t = some m
  space : ∀ bit, ∀ t ∈ roundings (space bit), timingIntervals unit false t = some (n bit)
  markPos : 0 < m ∧ m < 256
  spacePos : ∀ bit, 0 < n bit ∧ n bit < 256

variable {headerMark headerSpace mark m : ℕ} {space spaceIntervals : Bool → ℕ}
  {front bits : List Bool}

theorem PulseDistanceCapture.reads_mark
    (h : PulseDistanceCapture p headerMark headerSpace mark space bits)
    (htold : PulsesTold unit mark space m spaceIntervals) (hmax : p.rawlen < 256)
    (hj : j ≤ bits.length) (hrest : Reads p ⟨3 + 2 * j + 1, m, 0, unit⟩ levels) :
    Reads p ⟨3 + 2 * j, current, 0, unit⟩ (List.replicate m true ++ levels) := by
  have hrawlen := h.rawlen
  have hodd : decide ((3 + 2 * j) % 2 = 1) = true := decide_eq_true (by omega)
  obtain ⟨t, ht, hraw⟩ := h.mark j hj
  rw [← hodd]
  refine reads_run (by omega) hmax hraw ?_ htold.markPos.1 htold.markPos.2 hrest
  rw [hodd]
  exact htold.mark t ht

theorem PulseDistanceCapture.reads_space
    (h : PulseDistanceCapture p headerMark headerSpace mark space bits)
    (htold : PulsesTold unit mark space m spaceIntervals) (hmax : p.rawlen < 256)
    (hj : j < bits.length)
    (hrest : Reads p ⟨3 + 2 * (j + 1), spaceIntervals bits[j], 0, unit⟩ levels) :
    Reads p ⟨3 + 2 * j + 1, current, 0, unit⟩
      (List.replicate (spaceIntervals bits[j]) false ++ levels) := by
  have hrawlen := h.rawlen
  have heven : decide ((3 + 2 * j + 1) % 2 = 1) = false := decide_eq_false (by omega)
  obtain ⟨t, ht, hraw⟩ := h.space j hj
  rw [← heven]
  refine reads_run (by omega) hmax hraw ?_ (htold.spacePos _).1 (htold.spacePos _).2 hrest
  rw [heven]
  exact htold.space _ t ht

/-- The bits of a pulse distance frame, read as a biphase signal. -/
theorem PulseDistanceCapture.reads
    (h : PulseDistanceCapture p headerMark headerSpace mark space (front ++ bits))
    (htold : PulsesTold unit mark space m spaceIntervals) (hmax : p.rawlen < 256) :
    Reads p ⟨3 + 2 * front.length, current, 0, unit⟩ (pulseLevels m spaceIntervals bits) := by
  induction bits generalizing front current with
  | nil =>
    have hrawlen := h.rawlen
    rw [List.append_nil] at h hrawlen
    have hend : Reads p ⟨3 + 2 * front.length + 1, m, 0, unit⟩ [] := .silence 0 (by simp; omega)
    rw [pulseLevels, ← List.append_nil (List.replicate m true)]
    exact h.reads_mark htold hmax le_rfl hend
  | cons bit bits ih =>
    have hlt : front.length < (front ++ bit :: bits).length := by simp
    have hbit : (front ++ bit :: bits)[front.length] = bit := by simp
    have hrest : Reads p ⟨3 + 2 * (front.length + 1), spaceIntervals bit, 0, unit⟩
        (pulseLevels m spaceIntervals bits) := by
      have hsplit : front ++ bit :: bits = (front ++ [bit]) ++ bits := by simp
      have hnext := @ih (spaceIntervals bit) (front ++ [bit]) (hsplit ▸ h)
      rwa [List.length_append, List.length_singleton] at hnext
    rw [pulseLevels]
    apply h.reads_mark htold hmax (by simp)
    rw [← hbit] at hrest ⊢
    exact h.reads_space htold hmax hlt hrest

/-! ## Signals -/

/-- Every run of a few units is told from the others at either rounding. -/
def IntervalsTold (unit maxIntervals : ℕ) : Prop :=
  ∀ n < maxIntervals, ∀ isMark, ∀ t ∈ roundings ((n + 1) * unit),
    timingIntervals unit isMark t = some (n + 1)

instance (unit maxIntervals : ℕ) : Decidable (IntervalsTold unit maxIntervals) :=
  inferInstanceAs (Decidable (∀ n < maxIntervals, ∀ isMark, ∀ t ∈ roundings ((n + 1) * unit),
    timingIntervals unit isMark t = some (n + 1)))

/-- A signal that starts with a mark and holds no level for more than a few units. -/
structure BiphaseSignal (unit maxIntervals : ℕ) (signal : List (Pulse Bool)) : Prop where
  head : ∃ d rest, signal = ⟨true, d⟩ :: rest
  duration : ∀ a ∈ signal, 0 < a.duration ∧ unit ∣ a.duration
  noRun : NoRun (maxIntervals + 1) (units unit signal)

variable {runs signal : List (Pulse Bool)} {maxIntervals : ℕ}

/-- Alternating runs in the buffer are read unit by unit. The parity of the offset tells
marks from spaces. -/
theorem reads_runs (htold : IntervalsTold unit maxIntervals) (hbyte : maxIntervals < 256)
    (halt : Alternates runs)
    (hlevel : ∀ a ∈ runs.head?, a.level = decide (k % 2 = 1))
    (hruns : ∀ a ∈ runs, ∃ n < maxIntervals, a.duration = (n + 1) * unit) (hunit : 0 < unit)
    (hlen : p.rawlen = k + runs.length) (hmax : p.rawlen < 256)
    (hentry : ∀ i (hi : i < runs.length), ∃ t ∈ roundings runs[i].duration,
      p.raw (k + i) = some t) :
    Reads p ⟨k, current, 0, unit⟩ (units unit runs) := by
  induction runs generalizing k current with
  | nil => exact .silence 0 (Nat.le_of_eq hlen)
  | cons a runs ih =>
    rw [List.length_cons] at hlen
    obtain ⟨n, hn, hduration⟩ := hruns a (List.mem_cons_self ..)
    obtain ⟨t, ht, hraw⟩ := hentry 0 (Nat.succ_pos _)
    have ha : a.level = decide (k % 2 = 1) := hlevel a rfl
    -- the first run is told apart by its length in units, the others by induction
    have hintervals : timingIntervals unit (decide (k % 2 = 1)) t = some (n + 1) := by
      apply htold n hn
      rw [← hduration]
      exact ht
    have hdiv : a.duration / unit = n + 1 := by rw [hduration, Nat.mul_div_cancel _ hunit]
    have hrest : Reads p ⟨k + 1, n + 1, 0, unit⟩ (units unit runs) := by
      apply ih halt.tail
      · intro c hc
        cases runs with
        | nil => simp at hc
        | cons c' runs =>
          obtain rfl : c' = c := by simpa using hc
          have hne : a.level ≠ c'.level := (List.isChain_cons_cons.mp halt).1
          rw [ha] at hne
          -- the levels alternate, and so does the parity of the offset
          cases hparity : c'.level <;> rw [hparity] at hne <;> simp at hne ⊢ <;> omega
      · exact fun c hc => hruns c (List.mem_cons_of_mem a hc)
      · omega
      · intro i hi
        obtain ⟨u, hu, huraw⟩ := hentry (i + 1) (Nat.succ_lt_succ hi)
        exact ⟨u, hu, by rw [← huraw, Nat.add_assoc, Nat.add_comm 1]⟩
    rw [units_cons, ha, hdiv]
    exact reads_run (by omega) hmax hraw hintervals (Nat.succ_pos n) (by omega) hrest

/-- The runs have the units of the signal, but for the silence at its end. -/
theorem BiphaseSignal.units_eq (h : BiphaseSignal unit maxIntervals signal) :
    ∃ n, units unit signal = units unit (merge (trim false signal)) ++ List.replicate n false := by
  obtain ⟨d, rest, hsignal⟩ := h.head
  have hdvd : ∀ a ∈ trim false signal, unit ∣ a.duration :=
    forall_duration_trim fun a ha => (h.duration a ha).2
  rw [units_merge hdvd, hsignal]
  exact units_trim unit rest (show (⟨true, d⟩ : Pulse Bool).level ≠ false by simp)

/-- The runs of a biphase signal are a few units long. -/
theorem BiphaseSignal.exists_duration (h : BiphaseSignal unit maxIntervals signal)
    (hunit : 0 < unit) :
    ∀ a ∈ merge (trim false signal), ∃ n < maxIntervals, a.duration = (n + 1) * unit := by
  have htrim : ∀ a ∈ trim false signal, 0 < a.duration ∧ unit ∣ a.duration :=
    forall_duration_trim (P := fun d => 0 < d ∧ unit ∣ d) h.duration
  have hmerge : ∀ a ∈ merge (trim false signal), 0 < a.duration ∧ unit ∣ a.duration :=
    forall_duration_merge (P := fun d => 0 < d ∧ unit ∣ d)
      (fun m n hm hn => ⟨Nat.add_pos_left hm.1 n, Nat.dvd_add hm.2 hn.2⟩) htrim
  obtain ⟨silence, hsilence⟩ := h.units_eq
  have hnoRun : NoRun (maxIntervals + 1) (units unit (merge (trim false signal))) := by
    have hall := h.noRun
    rw [hsilence] at hall
    exact hall.of_append
  intro a ha
  obtain ⟨hpos, n, hn⟩ := hmerge a ha
  have hlt := duration_div_lt hnoRun ha
  rw [hn, Nat.mul_div_cancel_left _ hunit] at hlt
  have hn0 : n ≠ 0 := by
    rintro rfl
    omega
  exact ⟨n - 1, by omega, by rw [hn, Nat.sub_add_cancel (Nat.pos_of_ne_zero hn0), Nat.mul_comm]⟩

/-- A biphase signal that was recorded is read unit by unit, with the silence at its end. -/
theorem BiphaseSignal.reads (h : BiphaseSignal unit maxIntervals signal)
    (htold : IntervalsTold unit maxIntervals) (hbyte : maxIntervals < 256) (hunit : 0 < unit)
    (hodd : k % 2 = 1) (hlen : p.rawlen = k + (merge (trim false signal)).length)
    (hmax : p.rawlen < 256)
    (hentry : ∀ i (hi : i < (merge (trim false signal)).length),
      ∃ t ∈ roundings (merge (trim false signal))[i].duration, p.raw (k + i) = some t) :
    Reads p ⟨k, current, 0, unit⟩ (units unit signal) := by
  obtain ⟨d, rest, hsignal⟩ := h.head
  obtain ⟨silence, hsilence⟩ := h.units_eq
  rw [hsilence]
  apply Reads.append_silence
  refine reads_runs htold hbyte (alternates_merge _) ?_ (h.exists_duration hunit) hunit hlen hmax
    hentry
  -- the first run begins with the first mark
  intro a ha
  rw [hsignal] at ha
  rw [level_of_head?_merge_trim (by simp) ha, hodd]
  rfl

/-- The capture of a transmission with the runs of the signal is read from its first mark on. -/
theorem BiphaseSignal.reads_of_capture {tx : List TxEvent}
    (h : BiphaseSignal unit maxIntervals signal) (hcapture : IdealCapture p tx)
    (hruns : lineRuns tx = merge (trim false signal)) (htold : IntervalsTold unit maxIntervals)
    (hbyte : maxIntervals < 256) (hunit : 0 < unit)
    (hmax : (merge (trim false signal)).length < 255) :
    Reads p ⟨1, current, 0, unit⟩ (units unit signal) := by
  have hlen := hcapture.rawlen
  have hentry := hcapture.entry
  simp only [hruns] at hlen hentry
  refine h.reads htold hbyte hunit rfl (by omega) (by omega) ?_
  intro i hi
  rw [Nat.add_comm 1]
  exact hentry i hi

end IrRemote
