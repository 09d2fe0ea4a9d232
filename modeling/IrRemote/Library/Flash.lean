import IrRemote.Library.ByteImage

/-!
# Flash memory

Bytes that are erased to ones, and whose ones are turned to zeros by a write. A value that
is written behind an erase of its place can be read back.

## Main definitions

* `Flash` — the bytes by address
* `Flash.erase`, `Flash.write`, `Flash.read` — the operations

## Main results

* `Flash.read_write_erase` — what is written on erased bytes is read back
* `Flash.read_erase_of_disjoint`, `Flash.read_write_of_disjoint` — the other bytes are kept
-/

set_option autoImplicit false

/-- The bytes of a flash memory by address. -/
abbrev Flash := ℕ → BitVec 8

namespace Flash

open ByteImage

variable {α β : Type*} [ByteImage α] [ByteImage β] {flash : Flash} {start start' len : ℕ} {x : α}

/-- A flash memory that was never written. -/
def blank : Flash := fun _ => 0xFF

/-- Set the bytes of an interval to ones. -/
def erase (start len : ℕ) (flash : Flash) : Flash := fun a =>
  if start ≤ a ∧ a < start + len then 0xFF else flash a

/-- Clear the bits of an interval that are clear in the value. -/
def write (start : ℕ) (x : α) (flash : Flash) : Flash := fun a =>
  if start ≤ a ∧ a < start + size α then flash a &&& bytes x (a - start) else flash a

/-- The value that lies at an address. -/
def read (start : ℕ) (flash : Flash) : α := ofBytes fun o => flash (start + o)

theorem read_congr {flash' : Flash} (h : ∀ a, start ≤ a → a < start + size α → flash a = flash' a) :
    (read start flash : α) = read start flash' :=
  ofBytes_congr fun _ ho => h _ (Nat.le_add_right ..) (Nat.add_lt_add_left ho _)

/-- What lies at the start of a value that is written on erased bytes. -/
theorem read_write_erase_of_le (hlen : size α ≤ len) (hsize : size β ≤ size α) (x : α)
    (flash : Flash) :
    (read start (write start x (erase start len flash)) : β) = ofBytes (bytes x) := by
  apply ofBytes_congr
  intro o ho
  have hwrite : start ≤ start + o ∧ start + o < start + size α := by omega
  have herase : start ≤ start + o ∧ start + o < start + len := by omega
  simp only [write, erase, if_pos hwrite, if_pos herase, Nat.add_sub_cancel_left]
  exact BitVec.allOnes_and

/-- What is written on erased bytes is read back. -/
theorem read_write_erase (hlen : size α ≤ len) (x : α) (flash : Flash) :
    read start (write start x (erase start len flash)) = x :=
  (read_write_erase_of_le hlen (Nat.le_refl _) x flash).trans (ofBytes_bytes x)

theorem read_erase (hlen : size α ≤ len) (flash : Flash) :
    (read start (erase start len flash) : α) = ofBytes fun _ => 0xFF := by
  apply ofBytes_congr
  intro o ho
  have herase : start ≤ start + o ∧ start + o < start + len := by omega
  exact if_pos herase

/-! ## What is kept -/

theorem read_erase_of_disjoint (h : start + size α ≤ start' ∨ start' + len ≤ start)
    (flash : Flash) : (read start (erase start' len flash) : α) = read start flash := by
  apply read_congr
  intro a ha ha'
  have hout : ¬(start' ≤ a ∧ a < start' + len) := by omega
  exact if_neg hout

theorem read_write_of_disjoint (h : start + size α ≤ start' ∨ start' + size β ≤ start) (y : β)
    (flash : Flash) : (read start (write start' y flash) : α) = read start flash := by
  apply read_congr
  intro a ha ha'
  have hout : ¬(start' ≤ a ∧ a < start' + size β) := by omega
  exact if_neg hout

end Flash
