import IrRemote.Library.RingIndex
import IrRemote.Sched.Scheduler

/-!
# The ring of the scheduler

The pending events lie in the ring in the order in which their places were reserved. Until its
put returns an event is there only in part, but the main loop does not go on before that, and no
put touches the place of another event.

## Main definitions

* `SchedSystem.pending` — the events whose handlers have not returned
* `Holds` — how much of an event lies at its place
* `SchedInv` — where the pending events lie, and how much of them

## Main results

* `SchedInv.appSchedQueueEmpty_iff`, `SchedInv.appSchedQueueFull_iff`,
  `SchedInv.toNat_appSchedQueueSpaceGet` — what the indices tell
* `SchedInv.step`, `SchedInv.run` — every step keeps the invariant
* `SchedInv.eventAt_called` — the event that is handled
-/

set_option autoImplicit false

namespace IrRemote

open RingIndex

variable {η : Type*}

/-! ## Events in the ring -/

/-- The events whose handlers have not returned, the running one included. -/
def SchedSystem.pending (s : SchedSystem η) : List (ScheduledEvent η) :=
  s.accepted.drop s.executed.length

/-- The place of a pending event. -/
def Scheduler.placeOf (s : Scheduler η) (k : ℕ) : ℕ :=
  place s.mQueueSize.toNat s.mQueueStartIndex.toNat k

/-- The statement that is next in the put that has reserved the place, if it is open. -/
def stageAt (openPuts : List (OpenPut η)) (i : ℕ) : Option PutStage :=
  (openPuts.find? fun p => p.eventIndex = i).map OpenPut.stage

/-- What the main loop finds at a place. -/
def Scheduler.storedAt (s : Scheduler η) (i : ℕ) : ScheduledEvent η :=
  s.eventAt i (s.mQueueEventHeaders i).eventDataSize (s.mQueueEventHeaders i).handler

/-- How much of an event lies at its place. -/
def Holds (s : Scheduler η) (i : ℕ) (e : ScheduledEvent η) : Option PutStage → Prop
  | some .handler => True
  | some .data => (s.mQueueEventHeaders i).handler = e.handler
  | some .size =>
    (s.mQueueEventHeaders i).handler = e.handler ∧ s.dataAt i e.data.length = e.data
  | none =>
    (s.mQueueEventHeaders i).handler = e.handler ∧ s.dataAt i e.data.length = e.data ∧
      (s.mQueueEventHeaders i).eventDataSize.toNat = e.data.length

/-- What has been read of the first event. -/
def ExecuteInv (s : SchedSystem η) : Prop :=
  let i := s.scheduler.placeOf 0
  let header := s.scheduler.mQueueEventHeaders i
  match s.executing with
  | .test => True
  | .indexed eventIndex => eventIndex = i
  | .sized eventIndex eventDataSize => eventIndex = i ∧ eventDataSize = header.eventDataSize
  | .called eventIndex eventDataSize handler =>
    eventIndex = i ∧ eventDataSize = header.eventDataSize ∧ handler = header.handler

/-- The main loop is behind the condition of `app_sched_execute`. -/
def SchedSystem.Busy (s : SchedSystem η) : Prop := s.executing ≠ .test

/-- Where the pending events lie, and how much of them. -/
structure SchedInv (s : SchedSystem η) : Prop where
  size_le : s.scheduler.mQueueSize.toNat ≤ 255
  start_le : s.scheduler.mQueueStartIndex.toNat ≤ s.scheduler.mQueueSize.toNat
  executed : s.executed <+: s.accepted
  length_le : s.pending.length ≤ s.scheduler.mQueueSize.toNat
  end_eq : s.scheduler.mQueueEndIndex.toNat = s.scheduler.placeOf s.pending.length
  holds : ∀ k e, s.pending[k]? = some e →
    Holds s.scheduler (s.scheduler.placeOf k) e (stageAt s.openPuts (s.scheduler.placeOf k))
  data_le : ∀ e ∈ s.pending, e.data.length ≤ s.scheduler.mQueueEventSize.toNat
  puts : ∀ p ∈ s.openPuts, ∃ k, s.pending[k]? = some p.request.event ∧
    p.eventIndex = s.scheduler.placeOf k
  puts_ne : s.openPuts.Pairwise fun p q => p.eventIndex ≠ q.eventIndex
  /-- The first event was whole when the main loop found it. -/
  first : s.Busy → s.pending ≠ [] ∧ stageAt s.openPuts (s.scheduler.placeOf 0) = none
  executing : ExecuteInv s

/-! ## Indices -/

section Index

variable {s : SchedSystem η}

theorem Scheduler.toNat_nextIndex {s : Scheduler η} (hsize : s.mQueueSize.toNat ≤ 255)
    (i : BitVec 8) : (s.nextIndex i).toNat = next s.mQueueSize.toNat i.toNat := by
  rw [Scheduler.nextIndex, next]
  split_ifs with h
  · rw [BitVec.toNat_add]
    exact Nat.mod_eq_of_lt (Nat.lt_of_le_of_lt (Nat.succ_le_of_lt h) (Nat.lt_succ_of_le hsize))
  · rfl

theorem SchedInv.appSchedQueueEmpty_iff (h : SchedInv s) :
    s.scheduler.appSchedQueueEmpty = true ↔ s.pending = [] := by
  rw [Scheduler.appSchedQueueEmpty, decide_eq_true_iff, ← BitVec.toNat_inj, h.end_eq,
    Scheduler.placeOf, place_eq_start_iff h.start_le h.length_le, List.length_eq_zero_iff]

theorem SchedInv.appSchedQueueFull_iff (h : SchedInv s) :
    s.scheduler.appSchedQueueFull = true ↔ s.pending.length = s.scheduler.mQueueSize.toNat := by
  rw [Scheduler.appSchedQueueFull, decide_eq_true_iff, ← BitVec.toNat_inj,
    Scheduler.toNat_nextIndex h.size_le, h.end_eq, Scheduler.placeOf,
    next_place_eq_start_iff h.start_le h.length_le]

/-- The places that `app_sched_queue_space_get` takes for used. -/
theorem toNat_usedPlaces {n a b : BitVec 16} (hn : n.toNat ≤ 255) (ha : a.toNat ≤ n.toNat) :
    (if a ≤ b then b - a else n + 1 - a + b).toNat =
      if a.toNat ≤ b.toNat then b.toNat - a.toNat else n.toNat + 1 - a.toNat + b.toNat := by
  by_cases hab : a.toNat ≤ b.toNat
  · have hle : a ≤ b := hab
    rw [if_pos hle, if_pos hab, BitVec.toNat_sub_of_le hle]
  · have hle : ¬a ≤ b := hab
    rw [if_neg hle, if_neg hab]
    have hnext : (n + 1).toNat = n.toNat + 1 :=
      BitVec.toNat_add_of_lt (Nat.lt_of_le_of_lt (Nat.succ_le_succ hn) (by decide))
    have hsub : (n + 1 - a).toNat = n.toNat + 1 - a.toNat := by
      rw [BitVec.toNat_sub_of_le, hnext]
      rw [BitVec.le_def, hnext]
      exact Nat.le_succ_of_le ha
    rw [BitVec.toNat_add_of_lt, hsub]
    rw [hsub]
    omega

/-- The free places are counted exactly. -/
theorem SchedInv.toNat_appSchedQueueSpaceGet (h : SchedInv s) :
    s.scheduler.appSchedQueueSpaceGet.toNat =
      s.scheduler.mQueueSize.toNat - s.pending.length := by
  have hwide (x : BitVec 8) : (x.setWidth 16).toNat = x.toNat :=
    BitVec.toNat_setWidth_of_le (by decide)
  have hused := toNat_usedPlaces (b := s.scheduler.mQueueEndIndex.setWidth 16) h.size_le
    ((hwide s.scheduler.mQueueStartIndex).trans_le h.start_le)
  rw [hwide, hwide, h.end_eq, Scheduler.placeOf, place_sub h.start_le h.length_le] at hused
  rw [Scheduler.appSchedQueueSpaceGet, BitVec.toNat_sub_of_le, hused]
  rw [BitVec.le_def, hused]
  exact h.length_le

end Index

/-! ## Places and puts -/

section Places

variable {s s' : Scheduler η} {i j k : ℕ} {e : ScheduledEvent η} {p : OpenPut η}
  {openPuts : List (OpenPut η)} {stage : Option PutStage}

theorem stageAt_cons_self : stageAt (p :: openPuts) p.eventIndex = some p.stage := by
  rw [stageAt, List.find?_cons_of_pos (by simp)]
  rfl

theorem stageAt_cons_of_ne (h : p.eventIndex ≠ i) :
    stageAt (p :: openPuts) i = stageAt openPuts i := by
  rw [stageAt, List.find?_cons_of_neg (by simpa using h), stageAt]

theorem stageAt_eq_none (h : ∀ p ∈ openPuts, p.eventIndex ≠ i) : stageAt openPuts i = none := by
  rw [stageAt, List.find?_eq_none.mpr fun p hp => by simpa using h p hp]
  rfl

/-- What is said of a place depends on its header and its block of data. -/
theorem Holds.congr (h : Holds s i e stage) (he : e.data.length ≤ s.mQueueEventSize.toNat)
    (hsize : s'.mQueueEventSize = s.mQueueEventSize)
    (hheader : s'.mQueueEventHeaders i = s.mQueueEventHeaders i)
    (hdata : ∀ o < s.mQueueEventSize.toNat,
      s'.mQueueEventData (s.dataStart i + o) = s.mQueueEventData (s.dataStart i + o)) :
    Holds s' i e stage := by
  have hblock : s'.dataAt i e.data.length = s.dataAt i e.data.length := by
    rw [Scheduler.dataAt, Scheduler.dataAt, Scheduler.dataStart, hsize]
    apply List.map_congr_left
    intro o ho
    exact hdata o (Nat.lt_of_lt_of_le (List.mem_range.mp ho) he)
  cases stage with
  | none => rwa [Holds, hheader, hblock]
  | some stage =>
    cases stage with
    | handler => trivial
    | data => rwa [Holds, hheader]
    | size => rwa [Holds, hheader, hblock]

theorem memcpy_of_lt {dst n o : ℕ} {src mem : ℕ → BitVec 8} (h : o < n) :
    memcpy dst src n mem (dst + o) = src o := by
  rw [memcpy, if_pos ⟨Nat.le_add_right .., Nat.add_lt_add_left h _⟩, Nat.add_sub_cancel_left]

theorem memcpy_of_forall_ne {dst n a : ℕ} {src mem : ℕ → BitVec 8} (h : ∀ o < n, dst + o ≠ a) :
    memcpy dst src n mem a = mem a := by
  rw [memcpy, if_neg]
  rintro ⟨hle, hlt⟩
  exact h (a - dst) (by omega) (by omega)

theorem memcpy_zero {dst : ℕ} {src mem : ℕ → BitVec 8} : memcpy dst src 0 mem = mem := by
  funext a
  exact memcpy_of_forall_ne fun o ho => absurd ho (Nat.not_lt_zero o)

theorem PutRequest.length_data (r : PutRequest η) :
    r.event.data.length = (OpenPut.storedSize r).toNat := by
  obtain ⟨pEventData, n, handler⟩ := r
  cases pEventData with
  | none => rfl
  | some src =>
    rw [OpenPut.storedSize]
    split_ifs with hn
    · simp [PutRequest.event]
    · obtain rfl : n = 0 := by simpa using hn
      rfl

theorem PutRequest.length_data_le (r : PutRequest η) :
    r.event.data.length ≤ r.eventDataSize.toNat := by
  rw [r.length_data, OpenPut.storedSize]
  split_ifs
  · exact le_rfl
  · exact Nat.zero_le _

/-- Whether there is data or not, its bytes are copied. -/
theorem OpenPut.write_data (r : PutRequest η) :
    OpenPut.write ⟨r, i, .data⟩ s =
      { s with
        mQueueEventData := memcpy (s.dataStart i) (r.pEventData.getD fun _ => 0)
          r.event.data.length s.mQueueEventData } := by
  change OpenPut.writeData i r s = _
  have hzero : (0 : BitVec 16).toNat = 0 := rfl
  rw [r.length_data, OpenPut.writeData, OpenPut.storedSize]
  obtain ⟨pEventData, n, handler⟩ := r
  cases pEventData with
  | none =>
    rw [if_neg (by simp), hzero, memcpy_zero]
  | some src =>
    by_cases hn : 0 < n
    · rw [if_pos ⟨rfl, hn⟩]
      exact if_pos hn
    · rw [if_neg fun h => hn h.2, hzero, memcpy_zero]
      exact if_neg hn

/-- A put changes neither the indices nor the sizes. -/
theorem OpenPut.write_frame :
    (p.write s).mQueueStartIndex = s.mQueueStartIndex ∧
      (p.write s).mQueueEndIndex = s.mQueueEndIndex ∧
      (p.write s).mQueueEventSize = s.mQueueEventSize ∧ (p.write s).mQueueSize = s.mQueueSize := by
  obtain ⟨r, eventIndex, stage⟩ := p
  cases stage with
  | handler => exact ⟨rfl, rfl, rfl, rfl⟩
  | data =>
    rw [OpenPut.write_data]
    exact ⟨rfl, rfl, rfl, rfl⟩
  | size => exact ⟨rfl, rfl, rfl, rfl⟩

theorem OpenPut.placeOf_write : (p.write s).placeOf k = s.placeOf k := by
  obtain ⟨hstart, -, -, hsize⟩ := p.write_frame (s := s)
  rw [Scheduler.placeOf, hstart, hsize, Scheduler.placeOf]

/-- A put touches no other place. -/
theorem OpenPut.write_of_ne (hp : p.request.event.data.length ≤ s.mQueueEventSize.toNat)
    (hne : p.eventIndex ≠ i) :
    (p.write s).mQueueEventHeaders i = s.mQueueEventHeaders i ∧
      ∀ o < s.mQueueEventSize.toNat,
        (p.write s).mQueueEventData (s.dataStart i + o) =
          s.mQueueEventData (s.dataStart i + o) := by
  obtain ⟨r, eventIndex, stage⟩ := p
  cases stage with
  | handler => exact ⟨if_neg hne.symm, fun _ _ => rfl⟩
  | data =>
    rw [OpenPut.write_data]
    refine ⟨rfl, fun o ho => memcpy_of_forall_ne fun o' ho' => ?_⟩
    exact block_ne hne (Nat.lt_of_lt_of_le ho' hp) ho
  | size => exact ⟨if_neg hne.symm, fun _ _ => rfl⟩

/-- Another event is there as far as it was. -/
theorem Holds.write_of_ne (h : Holds s i e stage) (he : e.data.length ≤ s.mQueueEventSize.toNat)
    (hp : p.request.event.data.length ≤ s.mQueueEventSize.toNat) (hne : p.eventIndex ≠ i) :
    Holds (p.write s) i e stage := by
  obtain ⟨hheader, hdata⟩ := OpenPut.write_of_ne hp hne
  exact h.congr he p.write_frame.2.2.1 hheader hdata

/-- The event of the put is there up to the next statement. -/
theorem Holds.write_self (h : Holds s p.eventIndex p.request.event (some p.stage)) :
    Holds (p.write s) p.eventIndex p.request.event (p.next.map OpenPut.stage) := by
  obtain ⟨r, i, stage⟩ := p
  cases stage with
  | handler => exact congrArg EventHeader.handler (if_pos rfl)
  | data =>
    refine ⟨?_, ?_⟩
    · rw [OpenPut.write_data]
      exact h
    · rw [OpenPut.write_data]
      obtain ⟨pEventData, n, handler⟩ := r
      cases pEventData with
      | none => rfl
      | some src =>
        have hlen : (PutRequest.event ⟨some src, n, handler⟩).data.length = n.toNat := by
          simp [PutRequest.event]
        rw [hlen]
        apply List.map_congr_left
        intro o ho
        exact memcpy_of_lt (List.mem_range.mp ho)
  | size =>
    obtain ⟨hhandler, hdata⟩ := h
    have hheader : (OpenPut.write ⟨r, i, .size⟩ s).mQueueEventHeaders i =
        { s.mQueueEventHeaders i with eventDataSize := OpenPut.storedSize r } := if_pos rfl
    refine ⟨?_, hdata, ?_⟩
    · rw [hheader]
      exact hhandler
    · rw [hheader]
      exact r.length_data.symm

end Places

/-! ## Steps -/

section Steps

variable {s : SchedSystem η} {r : PutRequest η} {i k : ℕ} {e : ScheduledEvent η} {p : OpenPut η}
  {openPuts : List (OpenPut η)}

/-- The event is accepted. -/
def SchedSystem.Fits (r : PutRequest η) (s : SchedSystem η) : Prop :=
  r.eventDataSize.toNat ≤ s.scheduler.mQueueEventSize.toNat ∧
    s.pending.length < s.scheduler.mQueueSize.toNat

instance : Decidable (s.Fits r) := inferInstanceAs (Decidable (_ ∧ _))

/-- The place behind the pending events is reserved. -/
def SchedSystem.accept (r : PutRequest η) (s : SchedSystem η) : SchedSystem η :=
  { s with
    scheduler :=
      { s.scheduler with mQueueEndIndex := s.scheduler.nextIndex s.scheduler.mQueueEndIndex }
    openPuts := ⟨r, s.scheduler.mQueueEndIndex.toNat, .handler⟩ :: s.openPuts
    accepted := s.accepted ++ [r.event] }

theorem SchedInv.put_of_fits (h : SchedInv s) (hfits : s.Fits r) :
    s.put r = (.nrfSuccess, s.accept r) := by
  have hfull : s.scheduler.appSchedQueueFull = false :=
    Bool.eq_false_iff.mpr fun hfull => hfits.2.ne (h.appSchedQueueFull_iff.mp hfull)
  rw [SchedSystem.put, Scheduler.reserve, if_pos hfits.1, hfull]
  rfl

/-- A put that is refused changes nothing. -/
theorem SchedInv.put_of_not_fits (h : SchedInv s) (hfits : ¬s.Fits r) :
    s.put r =
      (if r.eventDataSize.toNat ≤ s.scheduler.mQueueEventSize.toNat then .nrfErrorNoMem
        else .nrfErrorInvalidLength, s) := by
  rw [SchedSystem.put, Scheduler.reserve]
  split_ifs with hlen hfull
  · rfl
  · exact absurd ⟨hlen, lt_of_le_of_ne h.length_le (mt h.appSchedQueueFull_iff.mpr hfull)⟩ hfits
  · rfl

theorem SchedInv.put_eq_nrfSuccess_iff (h : SchedInv s) (r : PutRequest η) :
    (s.put r).1 = .nrfSuccess ↔ s.Fits r := by
  by_cases hfits : s.Fits r
  · rw [h.put_of_fits hfits]
    exact iff_of_true rfl hfits
  · rw [h.put_of_not_fits hfits]
    refine iff_of_false ?_ hfits
    dsimp only
    split_ifs <;> decide

theorem SchedInv.pending_accept (h : SchedInv s) : (s.accept r).pending = s.pending ++ [r.event] :=
  List.drop_append_of_le_length h.executed.length_le

theorem getElem?_append_singleton_cases {α : Type*} {l : List α} {a b : α} {k : ℕ}
    (h : (l ++ [a])[k]? = some b) : l[k]? = some b ∨ k = l.length ∧ b = a := by
  rcases Nat.lt_or_ge k l.length with hlt | hge
  · exact Or.inl (by rwa [List.getElem?_append_left hlt] at h)
  · rw [List.getElem?_append_right hge, List.getElem?_singleton] at h
    split_ifs at h with hk
    exact Or.inr ⟨by omega, (Option.some.inj h).symm⟩

theorem SchedInv.lt_of_getElem? (h : SchedInv s) (hk : s.pending[k]? = some e) :
    k < s.pending.length ∧ k ≤ s.scheduler.mQueueSize.toNat := by
  obtain ⟨hlt, -⟩ := List.getElem?_eq_some_iff.mp hk
  exact ⟨hlt, hlt.le.trans h.length_le⟩

theorem SchedInv.accept (h : SchedInv s) (hfits : s.Fits r) : SchedInv (s.accept r) := by
  have hpending := h.pending_accept (r := r)
  have hplace (k) : (s.accept r).scheduler.placeOf k = s.scheduler.placeOf k := rfl
  -- the place of the new event is that of no other one
  have hnew : ∀ k e, s.pending[k]? = some e →
      s.scheduler.mQueueEndIndex.toNat ≠ s.scheduler.placeOf k := by
    intro k e hk heq
    obtain ⟨hlt, hle⟩ := h.lt_of_getElem? hk
    exact hlt.ne' (place_injOn h.length_le hle (h.end_eq.symm.trans heq))
  refine ⟨h.size_le, h.start_le, h.executed.trans (List.prefix_append ..), ?_, ?_, ?_, ?_, ?_, ?_,
    ?_, h.executing⟩
  · rw [hpending, List.length_append]
    exact hfits.2
  · rw [hpending, List.length_append]
    change (s.scheduler.nextIndex _).toNat = _
    rw [Scheduler.toNat_nextIndex h.size_le, h.end_eq]
    exact next_place
  · intro k e hk
    rw [hpending] at hk
    rw [hplace]
    rcases getElem?_append_singleton_cases hk with hk | ⟨rfl, rfl⟩
    · have hold := h.holds k e hk
      rw [← stageAt_cons_of_ne (p := ⟨r, s.scheduler.mQueueEndIndex.toNat, .handler⟩)
        (hnew k e hk)] at hold
      exact hold.congr (h.data_le e (List.mem_of_getElem? hk)) rfl rfl fun _ _ => rfl
    · rw [← h.end_eq]
      change Holds _ _ _ (stageAt (_ :: _) _)
      rw [stageAt_cons_self]
      trivial
  · rw [hpending]
    intro e he
    rcases List.mem_append.mp he with he | he
    · exact h.data_le e he
    · obtain rfl := List.mem_singleton.mp he
      exact r.length_data_le.trans hfits.1
  · intro p hp
    rw [hpending]
    rcases List.mem_cons.mp hp with rfl | hp
    · refine ⟨s.pending.length, ?_, h.end_eq⟩
      rw [List.getElem?_append_right le_rfl, Nat.sub_self]
      rfl
    · obtain ⟨k, hk, hindex⟩ := h.puts p hp
      refine ⟨k, ?_, hindex⟩
      rw [List.getElem?_append_left (h.lt_of_getElem? hk).1, hk]
  · refine List.pairwise_cons.mpr ⟨fun p hp => ?_, h.puts_ne⟩
    obtain ⟨k, hk, hindex⟩ := h.puts p hp
    rw [hindex]
    exact hnew k _ hk
  · intro hbusy
    obtain ⟨hne, hstage⟩ := h.first hbusy
    refine ⟨by simp [hpending], ?_⟩
    obtain ⟨e, rest, hcons⟩ := List.exists_cons_of_ne_nil hne
    rw [hplace]
    exact (stageAt_cons_of_ne (hnew 0 e (by rw [hcons]; rfl))).trans hstage

theorem OpenPut.mem_next {q : OpenPut η} (h : q ∈ p.next.toList) :
    q.request = p.request ∧ q.eventIndex = p.eventIndex := by
  obtain ⟨r, i, stage⟩ := p
  cases stage with
  | handler | data =>
    obtain rfl := List.mem_singleton.mp h
    exact ⟨rfl, rfl⟩
  | size => cases h

/-- The stage behind the next statement. -/
theorem stageAt_next_self (hne : ∀ q ∈ openPuts, p.eventIndex ≠ q.eventIndex) :
    stageAt (p.next.toList ++ openPuts) p.eventIndex = p.next.map OpenPut.stage := by
  obtain ⟨r, i, stage⟩ := p
  cases stage with
  | handler => exact stageAt_cons_self (p := ⟨r, i, .data⟩)
  | data => exact stageAt_cons_self (p := ⟨r, i, .size⟩)
  | size => exact stageAt_eq_none fun q hq => (hne q hq).symm

theorem stageAt_next_of_ne (hne : p.eventIndex ≠ i) :
    stageAt (p.next.toList ++ openPuts) i = stageAt (p :: openPuts) i := by
  rw [stageAt_cons_of_ne hne]
  obtain ⟨r, j, stage⟩ := p
  cases stage with
  | handler => exact stageAt_cons_of_ne (p := ⟨r, j, .data⟩) hne
  | data => exact stageAt_cons_of_ne (p := ⟨r, j, .size⟩) hne
  | size => rfl

/-- The event of an open put is the one at its place. -/
theorem SchedInv.event_eq (h : SchedInv s) (hp : p ∈ s.openPuts) (hk : s.pending[k]? = some e)
    (hindex : p.eventIndex = s.scheduler.placeOf k) : e = p.request.event := by
  obtain ⟨j, hj, hplace⟩ := h.puts p hp
  obtain rfl : j = k := place_injOn (h.lt_of_getElem? hj).2 (h.lt_of_getElem? hk).2
    (hplace.symm.trans hindex)
  exact Option.some.inj (hk.symm.trans hj)

/-- While the main loop is busy, no open put is at the first place. -/
theorem SchedInv.ne_first (h : SchedInv s) (hputs : s.openPuts = p :: openPuts) (hbusy : s.Busy) :
    p.eventIndex ≠ s.scheduler.placeOf 0 := by
  intro heq
  have hstage := (h.first hbusy).2
  rw [hputs, ← heq, stageAt_cons_self] at hstage
  cases hstage

theorem SchedInv.write (h : SchedInv s) : SchedInv s.write := by
  rw [SchedSystem.write]
  split
  · exact h
  rename_i p openPuts hputs
  obtain ⟨hstart, hend, hsize, hqueue⟩ := p.write_frame (s := s.scheduler)
  have hp : p ∈ s.openPuts := hputs ▸ List.mem_cons_self
  have hne : ∀ q ∈ openPuts, p.eventIndex ≠ q.eventIndex :=
    (List.pairwise_cons.mp (hputs ▸ h.puts_ne)).1
  obtain ⟨j, hj, -⟩ := h.puts p hp
  have hdata : p.request.event.data.length ≤ s.scheduler.mQueueEventSize.toNat :=
    h.data_le _ (List.mem_of_getElem? hj)
  refine ⟨hqueue ▸ h.size_le, by rw [hstart, hqueue]; exact h.start_le, h.executed,
    hqueue ▸ h.length_le, ?_, ?_, hsize ▸ h.data_le, ?_, ?_, ?_, ?_⟩
  · rw [hend, OpenPut.placeOf_write]
    exact h.end_eq
  · intro k e hk
    have hold := h.holds k e hk
    rw [OpenPut.placeOf_write]
    rw [hputs] at hold
    -- the write concerns one place, and one event is to be found there
    by_cases hindex : p.eventIndex = s.scheduler.placeOf k
    · obtain rfl := h.event_eq hp hk hindex
      rw [← hindex, stageAt_cons_self] at hold
      rw [← hindex]
      exact (stageAt_next_self hne).symm ▸ hold.write_self
    · rw [← stageAt_next_of_ne hindex] at hold
      exact hold.write_of_ne (h.data_le e (List.mem_of_getElem? hk)) hdata hindex
  · intro q hq
    simp only [OpenPut.placeOf_write]
    rcases List.mem_append.mp hq with hq | hq
    · obtain ⟨hrequest, hindex⟩ := OpenPut.mem_next hq
      rw [hrequest, hindex]
      exact h.puts p hp
    · exact h.puts q (hputs ▸ List.mem_cons_of_mem p hq)
  · obtain ⟨hhead, hrest⟩ := List.pairwise_cons.mp (hputs ▸ h.puts_ne)
    refine List.pairwise_append.mpr ⟨?_, hrest, fun q hq q' hq' => ?_⟩
    · cases p.next with
      | none => exact List.Pairwise.nil
      | some q => exact List.pairwise_singleton _ q
    · rw [(OpenPut.mem_next hq).2]
      exact hhead q' hq'
  · intro hbusy
    have hfirst := h.first hbusy
    rw [hputs] at hfirst
    refine ⟨hfirst.1, ?_⟩
    rw [OpenPut.placeOf_write]
    exact (stageAt_next_of_ne (h.ne_first hputs hbusy)).trans hfirst.2
  · by_cases hbusy : s.Busy
    · have hheader := (OpenPut.write_of_ne hdata (h.ne_first hputs hbusy)).1
      have hold := h.executing
      rw [ExecuteInv] at hold ⊢
      simp only [OpenPut.placeOf_write, hheader]
      exact hold
    · rw [ExecuteInv, not_not.mp hbusy]
      trivial

/-- What lies at the place of an event whose put has returned. -/
theorem SchedInv.storedAt (h : SchedInv s) {k : ℕ} (hk : s.pending[k]? = some e)
    (hstage : stageAt s.openPuts (s.scheduler.placeOf k) = none) :
    s.scheduler.storedAt (s.scheduler.placeOf k) = e := by
  have hholds := h.holds k e hk
  rw [hstage] at hholds
  obtain ⟨hhandler, hdata, hsize⟩ := hholds
  obtain ⟨handler, data⟩ := e
  change ScheduledEvent.mk _ _ = _
  rw [hsize]
  exact congrArg₂ ScheduledEvent.mk hhandler hdata

/-- The event that is handled is the first one that is pending. -/
theorem SchedInv.eventAt_called (h : SchedInv s) {i : ℕ} {n : BitVec 16} {handler : η}
    (hcalled : s.executing = .called i n handler) :
    s.pending.head? = some (s.scheduler.eventAt i n handler) := by
  have hbusy : s.Busy := by
    rw [SchedSystem.Busy, hcalled]
    exact nofun
  obtain ⟨hne, hstage⟩ := h.first hbusy
  obtain ⟨e, rest, hcons⟩ := List.exists_cons_of_ne_nil hne
  have hexec := h.executing
  rw [ExecuteInv, hcalled] at hexec
  obtain ⟨rfl, rfl, rfl⟩ := hexec
  rw [← Scheduler.storedAt, h.storedAt (e := e) (by rw [hcons]; rfl) hstage, hcons]
  rfl

/-- The events behind the return of a handler. -/
theorem SchedSystem.pending_return {s' : SchedSystem η} (haccepted : s'.accepted = s.accepted)
    (hexecuted : s'.executed = s.executed ++ [e]) : s'.pending = s.pending.tail := by
  rw [SchedSystem.pending, haccepted, hexecuted, List.length_append, SchedSystem.pending,
    List.tail_drop]
  rfl

/-- An event that was pending first and is handled goes on with the accepted ones. -/
theorem SchedInv.executed_append (h : SchedInv s) (hfirst : s.pending.head? = some e) :
    s.executed ++ [e] <+: s.accepted := by
  obtain ⟨rest, hrest⟩ := h.executed
  have hpending : s.pending = rest := by
    rw [SchedSystem.pending, ← hrest, List.drop_left]
  obtain ⟨tail, rfl⟩ : ∃ tail, rest = e :: tail := by
    rw [hpending, List.head?_eq_some_iff] at hfirst
    exact hfirst
  exact ⟨tail, by rw [← hrest, List.append_assoc]; rfl⟩

/-- The handler of the first event has returned. -/
theorem SchedInv.return (h : SchedInv s) (hputs : s.openPuts = [])
    (hhead : s.pending.head? = some e) :
    SchedInv
      { s with
        scheduler :=
          { s.scheduler with
            mQueueStartIndex := s.scheduler.nextIndex s.scheduler.mQueueStartIndex }
        executing := .test
        executed := s.executed ++ [e] } := by
  set s' : SchedSystem η := _
  change SchedInv s'
  have hpending : s'.pending = s.pending.tail := SchedSystem.pending_return rfl rfl
  have hstart : s'.scheduler.mQueueStartIndex.toNat =
      next s.scheduler.mQueueSize.toNat s.scheduler.mQueueStartIndex.toNat :=
    Scheduler.toNat_nextIndex h.size_le _
  -- every other event is one closer to the first place
  have hplace (k) : s'.scheduler.placeOf k = s.scheduler.placeOf (k + 1) := by
    rw [Scheduler.placeOf, hstart]
    exact place_next h.start_le
  have hsucc (k) : s'.pending[k]? = s.pending[k + 1]? := by
    rw [hpending, List.getElem?_tail]
  have hlength : s.pending.length = s'.pending.length + 1 := by
    rw [hpending, List.length_tail]
    exact (Nat.succ_pred_eq_of_pos (List.length_pos_of_mem (List.mem_of_head? hhead))).symm
  refine ⟨h.size_le, hstart ▸ next_le, h.executed_append hhead, ?_, ?_, ?_, ?_, ?_, h.puts_ne,
    fun hbusy => absurd rfl hbusy, trivial⟩
  · exact (Nat.le_of_succ_le (hlength ▸ h.length_le :))
  · rw [hplace, ← hlength]
    exact h.end_eq
  · intro k e' hk
    rw [hsucc] at hk
    rw [hplace]
    exact (h.holds _ _ hk).congr (h.data_le e' (List.mem_of_getElem? hk)) rfl rfl fun _ _ => rfl
  · rw [hpending]
    exact fun e' he' => h.data_le e' (List.mem_of_mem_tail he')
  · intro p hp
    have hnil : p ∈ ([] : List (OpenPut η)) := hputs ▸ hp
    cases hnil

theorem SchedInv.execute (h : SchedInv s) (hputs : s.openPuts = []) : SchedInv s.execute := by
  have hstage (i) : stageAt s.openPuts i = none := hputs ▸ rfl
  cases hexec : s.executing with
  | test =>
    rw [SchedSystem.execute, hexec]
    change SchedInv (if _ then _ else _)
    split_ifs with hempty
    · exact h
    · refine ⟨h.size_le, h.start_le, h.executed, h.length_le, h.end_eq, h.holds, h.data_le, h.puts,
        h.puts_ne, fun _ => ⟨mt h.appSchedQueueEmpty_iff.mpr hempty, hstage _⟩, ?_⟩
      exact (place_zero h.start_le).symm
  | indexed i =>
    have hold := h.executing
    have hfirst := h.first (by rw [SchedSystem.Busy, hexec]; exact nofun)
    rw [ExecuteInv, hexec] at hold
    rw [SchedSystem.execute, hexec]
    exact ⟨h.size_le, h.start_le, h.executed, h.length_le, h.end_eq, h.holds, h.data_le, h.puts,
      h.puts_ne, fun _ => hfirst, hold, hold ▸ rfl⟩
  | sized i n =>
    have hold := h.executing
    have hfirst := h.first (by rw [SchedSystem.Busy, hexec]; exact nofun)
    rw [ExecuteInv, hexec] at hold
    rw [SchedSystem.execute, hexec]
    exact ⟨h.size_le, h.start_le, h.executed, h.length_le, h.end_eq, h.holds, h.data_le, h.puts,
      h.puts_ne, fun _ => hfirst, hold.1, hold.2, hold.1 ▸ rfl⟩
  | called i n handler =>
    have hhead := h.eventAt_called hexec
    rw [SchedSystem.execute, hexec]
    exact h.return hputs hhead

theorem SchedInv.step (h : SchedInv s) (a : SchedStep η) : SchedInv (schedStep s a) := by
  cases a with
  | put r =>
    rw [schedStep]
    by_cases hfits : s.Fits r
    · rw [h.put_of_fits hfits]
      exact h.accept hfits
    · rw [h.put_of_not_fits hfits]
      exact h
  | write => exact h.write
  | execute =>
    rw [schedStep]
    split_ifs with hputs
    · exact h.execute (List.isEmpty_iff.mp hputs)
    · exact h

theorem SchedInv.run (h : SchedInv s) (steps : List (SchedStep η)) :
    SchedInv (runSched steps s) := by
  induction steps generalizing s with
  | nil => exact h
  | cons a steps ih => exact ih (h.step a)

/-- The sizes are those of `app_sched_init`. -/
theorem SchedInv.step_sizes (h : SchedInv s) (a : SchedStep η) :
    (schedStep s a).scheduler.mQueueSize = s.scheduler.mQueueSize ∧
      (schedStep s a).scheduler.mQueueEventSize = s.scheduler.mQueueEventSize := by
  cases a with
  | put r =>
    rw [schedStep]
    by_cases hfits : s.Fits r
    · rw [h.put_of_fits hfits]
      exact ⟨rfl, rfl⟩
    · rw [h.put_of_not_fits hfits]
      exact ⟨rfl, rfl⟩
  | write =>
    rw [schedStep, SchedSystem.write]
    split
    · exact ⟨rfl, rfl⟩
    · rename_i p _ _
      exact ⟨p.write_frame.2.2.2, p.write_frame.2.2.1⟩
  | execute =>
    rw [schedStep]
    split_ifs
    · rw [SchedSystem.execute]
      split
      · split_ifs <;> exact ⟨rfl, rfl⟩
      all_goals exact ⟨rfl, rfl⟩
    · exact ⟨rfl, rfl⟩

theorem SchedInv.run_sizes (h : SchedInv s) (steps : List (SchedStep η)) :
    (runSched steps s).scheduler.mQueueSize = s.scheduler.mQueueSize ∧
      (runSched steps s).scheduler.mQueueEventSize = s.scheduler.mQueueEventSize := by
  induction steps generalizing s with
  | nil => exact ⟨rfl, rfl⟩
  | cons a steps ih =>
    obtain ⟨hsize, heventSize⟩ := ih (h.step a)
    exact ⟨hsize.trans (h.step_sizes a).1, heventSize.trans (h.step_sizes a).2⟩

/-- Nothing is pending behind `app_sched_init`. -/
theorem schedInv_boot {eventSize queueSize : BitVec 16} {pEventBuffer : ℕ}
    {memory scheduler : Scheduler η} (hsize : queueSize.toNat ≤ 255)
    (hinit : memory.appSchedInit eventSize queueSize pEventBuffer = (.nrfSuccess, scheduler)) :
    SchedInv (SchedSystem.boot scheduler) := by
  rw [Scheduler.appSchedInit] at hinit
  split_ifs at hinit
  · cases hinit
  · obtain rfl := (Prod.mk.inj hinit).2
    refine ⟨hsize, Nat.zero_le _, List.prefix_rfl, Nat.zero_le _, ?_, ?_, ?_, ?_, List.Pairwise.nil,
      fun hbusy => absurd rfl hbusy, trivial⟩
    · exact (place_zero (Nat.zero_le _)).symm
    · intro k e hk
      cases hk
    · intro e he
      cases he
    · intro p hp
      cases hp

end Steps

end IrRemote
