import IrRemote.Library.Flash

/-!
# Flash operations that are cut short

A write that is cut short has cleared some of the bits that it was to clear, and an erase that
is cut short has set some of its bits. Doing the operation again has the result that it would
have had at once. A write can be done in parts, and so can an erase.

## Main definitions

* `Flash.program` — a write of bytes
* `Flash.tearProgram`, `Flash.tearErase` — the operations that are cut short
* `Flash.Covers` — the bits of some bytes are set

## Main results

* `Flash.program_tearProgram`, `Flash.erase_tearErase` — doing it again
* `Flash.program_add`, `Flash.erase_add` — doing it in parts
* `Flash.Covers.tearErase`, `Flash.Covers.program` — the bits that an operation does not clear
-/

set_option autoImplicit false

namespace Flash

open ByteImage

variable {α : Type*} [ByteImage α] {flash : Flash} {start len m n : ℕ} {src mask : ℕ → BitVec 8}

/-- Clear the bits of an interval that are clear in the source. -/
def program (start : ℕ) (src : ℕ → BitVec 8) (len : ℕ) (flash : Flash) : Flash := fun a =>
  if start ≤ a ∧ a < start + len then flash a &&& src (a - start) else flash a

/-- Some bits are not cleared yet. -/
def tearProgram (mask : ℕ → BitVec 8) (start : ℕ) (src : ℕ → BitVec 8) (len : ℕ)
    (flash : Flash) : Flash :=
  program start (fun o => src o ||| mask o) len flash

/-- Some bits are set already. -/
def tearErase (mask : ℕ → BitVec 8) (start len : ℕ) (flash : Flash) : Flash := fun a =>
  if start ≤ a ∧ a < start + len then flash a ||| mask (a - start) else flash a

theorem write_eq_program (x : α) (flash : Flash) :
    write start x flash = program start (bytes x) (size α) flash := rfl

@[simp] theorem program_zero : program start src 0 flash = flash := by
  funext a
  rw [program, if_neg]
  omega

@[simp] theorem erase_zero : erase start 0 flash = flash := by
  funext a
  rw [erase, if_neg]
  omega

/-! ## Doing it again -/

/-- A write that was cut short is completed by the whole write. -/
theorem program_tearProgram (mask : ℕ → BitVec 8) :
    program start src len (tearProgram mask start src len flash) = program start src len flash := by
  funext a
  simp only [program, tearProgram]
  split_ifs
  · rw [BitVec.and_assoc]
    congr 1
    rw [BitVec.and_comm]
    ext i
    simp only [BitVec.getElem_and, BitVec.getElem_or]
    cases (src (a - start))[i] <;> rfl
  · rfl

theorem erase_tearErase (mask : ℕ → BitVec 8) :
    erase start len (tearErase mask start len flash) = erase start len flash := by
  funext a
  simp only [erase, tearErase]
  split_ifs <;> rfl

/-! ## Doing it in parts -/

theorem program_add :
    program start src (m + n) flash =
      program (start + m) (fun o => src (m + o)) n (program start src m flash) := by
  funext a
  simp only [program]
  rcases Nat.lt_or_ge a (start + m) with hlt | hge
  · rw [if_neg (show ¬(start + m ≤ a ∧ a < start + m + n) by omega)]
    exact if_congr (by omega) rfl rfl
  · rw [if_neg (show ¬(start ≤ a ∧ a < start + m) by omega),
      show m + (a - (start + m)) = a - start by omega]
    exact if_congr (by omega) rfl rfl

theorem erase_add :
    erase start (m + n) flash = erase (start + m) n (erase start m flash) := by
  funext a
  simp only [erase]
  split_ifs <;> first | rfl | omega

theorem program_congr {src' : ℕ → BitVec 8} (h : ∀ o < len, src o = src' o) :
    program start src len flash = program start src' len flash := by
  funext a
  rw [program, program]
  split_ifs with hin
  · rw [h (a - start) (by omega)]
  · rfl

/-- A write that is cut short within its first part. -/
theorem program_tearProgram_of_le (mask : ℕ → BitVec 8) (h : m ≤ len) :
    program start src len (tearProgram mask start src m flash) = program start src len flash := by
  obtain ⟨n, rfl⟩ := Nat.exists_eq_add_of_le h
  rw [program_add, program_tearProgram, ← program_add]

theorem erase_tearErase_of_le (mask : ℕ → BitVec 8) (h : m ≤ len) :
    erase start len (tearErase mask start m flash) = erase start len flash := by
  obtain ⟨n, rfl⟩ := Nat.exists_eq_add_of_le h
  rw [erase_add, erase_tearErase, ← erase_add]

/-! ## Bits that are set -/

/-- Every bit that is set in the source is set in the interval. -/
def Covers (start : ℕ) (src : ℕ → BitVec 8) (len : ℕ) (flash : Flash) : Prop :=
  ∀ o < len, src o &&& flash (start + o) = src o

variable {start' len' offset : ℕ} {src' : ℕ → BitVec 8}

theorem covers_erase (hle : start' ≤ start) (hend : start + len ≤ start' + len') :
    Covers start src len (erase start' len' flash) := by
  intro o ho
  rw [erase, if_pos (by omega)]
  exact BitVec.and_allOnes

theorem Covers.tearErase (h : Covers start src len flash) (mask : ℕ → BitVec 8) :
    Covers start src len (tearErase mask start' len' flash) := by
  intro o ho
  rw [Flash.tearErase]
  split_ifs
  · rw [← h o ho]
    ext i
    simp only [BitVec.getElem_and, BitVec.getElem_or]
    cases (src o)[i] <;> cases (flash (start + o))[i] <;> rfl
  · exact h o ho

theorem Covers.erase (h : Covers start src len flash) :
    Covers start src len (erase start' len' flash) := by
  intro o ho
  rw [Flash.erase]
  split_ifs
  · exact BitVec.and_allOnes
  · exact h o ho

/-- A write of bytes that have these bits themselves. -/
theorem Covers.program (h : Covers start src len flash)
    (hsrc : ∀ o < len', src (offset + o) &&& src' o = src (offset + o)) :
    Covers start src len (program (start + offset) src' len' flash) := by
  intro o ho
  rw [Flash.program]
  split_ifs with hin
  · have hbits := hsrc (start + o - (start + offset)) (by omega)
    rw [show offset + (start + o - (start + offset)) = o by omega] at hbits
    rw [← BitVec.and_assoc, h o ho, hbits]
  · exact h o ho

theorem Covers.of_eq {flash' : Flash} (h : Covers start src len flash)
    (heq : ∀ o < len, flash' (start + o) = flash (start + o)) : Covers start src len flash' := by
  intro o ho
  rw [heq o ho]
  exact h o ho

end Flash
