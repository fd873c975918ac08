import Mathlib.Data.List.Basic
import Mathlib.Data.List.TakeWhile
import Mathlib.Tactic

/-!
# Byte strings and fixed-size C buffers

A buffer carries its size; a write or a read that leaves it has no result.
`padded n v` is the buffer a C program gets by clearing `n` bytes and copying
`v` over them, and `str` reads a buffer back up to its first NUL.
-/

namespace Library

abbrev Bytes := List UInt8

def ascii (s : String) : Bytes := s.toList.map fun c => UInt8.ofNat c.toNat

/-- A C string: its bytes up to the terminator, none of them NUL. -/
structure CString where
  bytes : Bytes
  noNul : (0 : UInt8) ∉ bytes
  deriving DecidableEq, Repr

def CString.literal (s : String) : CString :=
  ⟨(ascii s).takeWhile (· ≠ 0), fun h => by simpa using List.mem_takeWhile_imp h⟩

@[ext] structure Buffer (n : ℕ) where
  bytes : Bytes
  size : bytes.length = n
  deriving DecidableEq, Repr

namespace Buffer

variable {n : ℕ}

attribute [simp] Buffer.size

def zero (n : ℕ) : Buffer n := ⟨List.replicate n 0, by simp⟩

/-- `memcpy` into a buffer; there is no result where it would leave the buffer. -/
def write (b : Buffer n) (off : ℕ) (src : Bytes) : Option (Buffer n) :=
  if h : off + src.length ≤ n then
    some ⟨b.bytes.take off ++ src ++ b.bytes.drop (off + src.length), by simp; omega⟩
  else none

/-- Reading `len` bytes from an offset, defined only inside the buffer. -/
def read (b : Buffer n) (off len : ℕ) : Option Bytes :=
  if off + len ≤ n then some ((b.bytes.drop off).take len) else none

/-- The first `n` bytes of `v` followed by zeros. -/
def padded (n : ℕ) (v : Bytes) : Buffer n :=
  ⟨(v ++ List.replicate n 0).take n, by simp⟩

/-- The string a buffer holds, up to the first NUL. -/
def str (b : Buffer n) : Bytes := b.bytes.takeWhile (· ≠ 0)

@[simp] theorem zero_bytes : (zero n).bytes = List.replicate n 0 := rfl

theorem padded_bytes {v : Bytes} (h : v.length ≤ n) :
    (padded n v).bytes = v ++ List.replicate (n - v.length) 0 := by
  simp [padded, List.take_append, List.take_of_length_le h]

@[simp] theorem padded_nil : padded n [] = zero n := by
  ext1
  simp [padded]

theorem write_eq {b : Buffer n} {off : ℕ} {src : Bytes} (h : off + src.length ≤ n) :
    b.write off src =
      some ⟨b.bytes.take off ++ src ++ b.bytes.drop (off + src.length), by simp; omega⟩ := by
  rw [write, dif_pos h]

theorem write_isSome_iff {b : Buffer n} {off : ℕ} {src : Bytes} :
    (b.write off src).isSome ↔ off + src.length ≤ n := by
  unfold write
  split_ifs with h <;> simp [h]

theorem read_eq {b : Buffer n} {off len : ℕ} (h : off + len ≤ n) :
    b.read off len = some ((b.bytes.drop off).take len) := by
  rw [read, if_pos h]

theorem write_zeros (b : Buffer n) : b.write 0 (List.replicate n 0) = some (zero n) := by
  rw [write_eq (by simp)]
  congr 1
  ext1
  simp

/-- Copying a string over a cleared buffer pads it with zeros. -/
theorem zero_write {v : Bytes} (h : v.length ≤ n) : (zero n).write 0 v = some (padded n v) := by
  rw [write_eq (by simpa using h)]
  congr 1
  ext1
  simp [padded_bytes h]

theorem padded_write {v w : Bytes} (h : v.length + w.length ≤ n) :
    (padded n v).write v.length w = some (padded n (v ++ w)) := by
  have hv : v.length ≤ n := by omega
  have hvw : (v ++ w).length ≤ n := by simpa using h
  rw [write_eq h, Option.some.injEq]
  ext1
  dsimp only
  rw [padded_bytes hvw, padded_bytes hv, List.take_left, List.drop_append, List.drop_replicate,
    List.drop_of_length_le (by omega), List.nil_append, List.length_append]
  congr 2
  omega

theorem padded_terminated (v : Bytes) : padded n (v ++ [0]) = padded n v := by
  ext1
  change (v ++ [0] ++ List.replicate n 0).take n = (v ++ List.replicate n 0).take n
  rw [List.append_assoc, List.singleton_append, ← List.replicate_succ, List.take_append,
    List.take_append, List.take_replicate, List.take_replicate]
  congr 2
  omega

theorem padded_read {v : Bytes} {len : ℕ} (h : v.length ≤ len) (hn : len ≤ n) :
    (padded n v).read 0 len = some (padded len v).bytes := by
  rw [read_eq (by omega), padded_bytes (h.trans hn), padded_bytes h, List.drop_zero,
    List.take_append, List.take_of_length_le h, List.take_replicate,
    Nat.min_eq_left (by omega)]

theorem str_padded {v : Bytes} (h : v.length ≤ n) (hv : (0 : UInt8) ∉ v) :
    (padded n v).str = v := by
  have hall : ∀ x ∈ v, (decide (x ≠ 0)) = true := by
    intro x hx
    simp only [decide_eq_true_eq]
    rintro rfl
    exact hv hx
  rw [str, padded_bytes h, List.takeWhile_append_of_pos hall]
  cases n - v.length <;> simp [List.replicate_succ]

theorem head_padded {v : Bytes} (h : v.length < n) :
    (padded n v).bytes.head? = some (v.head?.getD 0) := by
  rw [padded_bytes h.le]
  cases v with
  | nil =>
    obtain ⟨m, rfl⟩ := Nat.exists_eq_succ_of_ne_zero (Nat.ne_of_gt h)
    rfl
  | cons a v => rfl

theorem str_noNul (b : Buffer n) : (0 : UInt8) ∉ b.str := by
  intro h
  simpa using List.mem_takeWhile_imp h

/-- The string of a buffer as an argument of a C function. -/
def cstring (b : Buffer n) : CString := ⟨b.str, b.str_noNul⟩

theorem take_write {b c : Buffer n} {off : ℕ} {src : Bytes} (h : b.write off src = some c) :
    c.bytes.take (off + src.length) = b.bytes.take off ++ src := by
  have hbound : off + src.length ≤ n := write_isSome_iff.mp (by rw [h]; rfl)
  rw [write_eq hbound] at h
  obtain rfl := Option.some.inj h
  have hlen : (b.bytes.take off ++ src).length = off + src.length := by
    simp
    omega
  exact List.take_left' hlen

/-- A write inside the buffer, by what stands in front of its end. -/
theorem exists_write (b : Buffer n) {off : ℕ} {src : Bytes} (h : off + src.length ≤ n) :
    ∃ c, b.write off src = some c ∧ c.bytes.take (off + src.length) = b.bytes.take off ++ src :=
  ⟨_, write_eq h, take_write (write_eq h)⟩

theorem zero_take {k : ℕ} (h : k ≤ n) : (zero n).bytes.take k = List.replicate k 0 := by
  rw [zero_bytes, List.take_replicate, Nat.min_eq_left h]

end Buffer

end Library
