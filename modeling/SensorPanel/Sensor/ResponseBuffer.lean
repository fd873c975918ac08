import SensorPanel.Library.Buffer
import SensorPanel.Errno

/-!
# The response buffer

Fragments of a response are collected in 4096 bytes, the last of them kept for
the terminator. An oversized or missing fragment sets an error that stays. The
room left is an unsigned subtraction, right only while `used` is in range, and
a step has no result where the C code would write outside the buffer.
-/

namespace SensorPanel

open Library

/-- `a - b` in `size_t`, 32 bits wide on the board. -/
def sizeSub (a b : ℕ) : ℕ := (a + 2 ^ 32 - b) % 2 ^ 32

theorem sizeSub_of_le {a b : ℕ} (ha : a < 2 ^ 32) (h : b ≤ a) : sizeSub a b = a - b := by
  unfold sizeSub
  omega

structure ResponseBuffer where
  data : Buffer 4096
  used : ℕ
  error : ℤ
  deriving DecidableEq

/-- The data pointer and the length of a call: NULL, or readable that far. -/
structure Fragment where
  data : Option Bytes
  length : ℕ
  lt_size : length < 2 ^ 32
  readable : ∀ bytes, data = some bytes → length ≤ bytes.length

def Fragment.bytes (f : Fragment) : Bytes := (f.data.getD []).take f.length

/-- Not NULL unless empty. -/
def Fragment.Sound (f : Fragment) : Prop := f.data = none → f.length = 0

theorem Fragment.Sound.length_bytes {f : Fragment} (h : f.Sound) : f.bytes.length = f.length := by
  cases hd : f.data with
  | none => simp [bytes, hd, h hd]
  | some bytes => simpa [Fragment.bytes, hd] using f.readable bytes hd

namespace ResponseBuffer

def zero : ResponseBuffer := ⟨Buffer.zero _, 0, 0⟩

/-- `response_buffer_append`: its result and the buffer it leaves. -/
def append (b : ResponseBuffer) (f : Fragment) : Option (ℤ × ResponseBuffer) :=
  if b.error ≠ 0 then some (b.error, b)
  else if (f.data = none ∧ f.length ≠ 0) ∨ sizeSub (4096 - 1) b.used < f.length then
    some (-EMSGSIZE, { b with error := -EMSGSIZE })
  else
    (if f.length ≠ 0 then b.data.write b.used f.bytes else some b.data).bind fun data =>
      (data.write (b.used + f.length) [0]).map fun data =>
        (0, { b with data := data, used := b.used + f.length })

/-- A buffer without error that holds `body` and its terminator. -/
structure Holds (b : ResponseBuffer) (body : Bytes) : Prop where
  no_error : b.error = 0
  used_eq : b.used = body.length
  fits : body.length ≤ 4095
  take_eq : b.data.bytes.take (body.length + 1) = body ++ [0]

theorem zero_holds : zero.Holds [] where
  no_error := rfl
  used_eq := rfl
  fits := by simp
  take_eq := Buffer.zero_take (by norm_num)

variable {b : ResponseBuffer} {body : Bytes} {f : Fragment}

theorem append_of_error (h : b.error ≠ 0) : b.append f = some (b.error, b) := by
  rw [append, if_pos h]

theorem Holds.room (h : b.Holds body) : sizeSub (4096 - 1) b.used = 4095 - body.length := by
  have hfits := h.fits
  rw [h.used_eq, sizeSub_of_le (by norm_num) (by omega)]

theorem Holds.take_used (h : b.Holds body) : b.data.bytes.take b.used = body := by
  have hle : body.length ≤ body.length + 1 := Nat.le_succ _
  have htake := congrArg (List.take body.length) h.take_eq
  rwa [List.take_take, Nat.min_eq_left hle, List.take_left, ← h.used_eq] at htake

theorem Holds.terminated (h : b.Holds body) : b.data.bytes[b.used]? = some 0 := by
  rw [h.used_eq, ← List.getElem?_take_of_lt (Nat.lt_succ_self _), h.take_eq]
  simp

/-- A missing or oversized fragment sets the error and changes nothing else. -/
theorem Holds.append_refused (h : b.Holds body)
    (hf : ¬ f.Sound ∨ 4095 < body.length + f.length) :
    b.append f = some (-EMSGSIZE, { b with error := -EMSGSIZE }) := by
  have hroom := h.room
  rw [append, if_neg (by simp [h.no_error]), if_pos]
  rcases hf with hf | hf
  · simp only [Fragment.Sound, Classical.not_imp] at hf
    exact Or.inl hf
  · have hfits := h.fits
    exact Or.inr (by omega)

theorem Holds.append_fits (h : b.Holds body) (hf : f.Sound) (hlen : body.length + f.length ≤ 4095) :
    ∃ b', b.append f = some (0, b') ∧ b'.Holds (body ++ f.bytes) := by
  have hroom := h.room
  have hbytes := hf.length_bytes
  have hbody : b.data.bytes.take body.length = body := h.used_eq ▸ h.take_used
  have hgo : ¬ ((f.data = none ∧ f.length ≠ 0) ∨ sizeSub (4096 - 1) b.used < f.length) := by
    rintro (⟨hnone, hne⟩ | hlt)
    · exact hne (hf hnone)
    · omega
  -- The copy leaves the body with the fragment behind it, and room for the terminator.
  obtain ⟨data, hdata, htake⟩ : ∃ data : Buffer 4096,
      (if f.length ≠ 0 then b.data.write b.used f.bytes else some b.data) = some data ∧
        data.bytes.take (body.length + f.length) = body ++ f.bytes := by
    by_cases hzero : f.length = 0
    · refine ⟨b.data, by simp [hzero], ?_⟩
      rw [hzero] at hbytes
      simp [hzero, List.eq_nil_of_length_eq_zero hbytes, hbody]
    · obtain ⟨data, hwrite, htake⟩ := b.data.exists_write
        (show b.used + f.bytes.length ≤ 4096 by rw [h.used_eq, hbytes]; omega)
      rw [h.used_eq, hbytes, hbody] at htake
      exact ⟨data, by rw [if_pos hzero, hwrite], htake⟩
  obtain ⟨ended, hend, htake'⟩ := data.exists_write
    (show b.used + f.length + [(0 : UInt8)].length ≤ 4096 by
      rw [h.used_eq, List.length_singleton]
      omega)
  rw [h.used_eq, htake, List.length_singleton] at htake'
  refine ⟨⟨ended, b.used + f.length, b.error⟩, ?_, h.no_error, ?_, ?_, ?_⟩
  · rw [append, if_neg (by simp [h.no_error]), if_neg hgo, hdata, Option.bind_some, hend,
      Option.map_some]
  · rw [h.used_eq, List.length_append, hbytes]
  · rw [List.length_append, hbytes]
    exact hlen
  · rw [List.length_append, hbytes]
    exact htake'

/-- The fragments of one response, one after another. -/
def appendAll (b : ResponseBuffer) (fs : List Fragment) : Option ResponseBuffer :=
  fs.foldlM (fun b f => (b.append f).map Prod.snd) b

def bodyOf (fs : List Fragment) : Bytes := fs.flatMap Fragment.bytes

theorem appendAll_of_error (h : b.error ≠ 0) (fs : List Fragment) : b.appendAll fs = some b := by
  induction fs with
  | nil => rfl
  | cons f fs ih =>
    rw [appendAll, List.foldlM_cons, append_of_error h]
    exact ih

/-- Sound fragments are collected whole if they fit, and refused with a lasting
error if they do not. -/
theorem Holds.appendAll (h : b.Holds body) {fs : List Fragment} (hfs : ∀ f ∈ fs, f.Sound) :
    ∃ b', b.appendAll fs = some b' ∧
      if (body ++ bodyOf fs).length ≤ 4095 then b'.Holds (body ++ bodyOf fs)
      else b'.error = -EMSGSIZE := by
  induction fs generalizing b body with
  | nil =>
    refine ⟨b, rfl, ?_⟩
    rw [bodyOf, List.flatMap_nil, List.append_nil, if_pos h.fits]
    exact h
  | cons f fs ih =>
    have hf := hfs f (by simp)
    have hcons : bodyOf (f :: fs) = f.bytes ++ bodyOf fs := rfl
    by_cases hlen : body.length + f.length ≤ 4095
    · obtain ⟨b', happend, hb'⟩ := h.append_fits hf hlen
      obtain ⟨b'', hall, hresult⟩ := ih hb' fun g hg => hfs g (by simp [hg])
      refine ⟨b'', ?_, by rwa [hcons, ← List.append_assoc]⟩
      rw [ResponseBuffer.appendAll, List.foldlM_cons, happend]
      exact hall
    · have hrefused := h.append_refused (f := f) (Or.inr (by omega))
      refine ⟨{ b with error := -EMSGSIZE }, ?_, ?_⟩
      · rw [ResponseBuffer.appendAll, List.foldlM_cons, hrefused]
        exact appendAll_of_error (show -EMSGSIZE ≠ 0 by decide) fs
      · have hlong : ¬ (body ++ bodyOf (f :: fs)).length ≤ 4095 := by
          rw [hcons, List.length_append, List.length_append, hf.length_bytes]
          omega
        rw [if_neg hlong]

end ResponseBuffer

end SensorPanel
