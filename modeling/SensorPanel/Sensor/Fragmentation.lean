import SensorPanel.Sensor.ResponseBuffer
import SensorPanel.Sensor.SensorJson

/-!
# Cutting a response into fragments

What the buffer is for: it holds the concatenation of the fragments followed by
zeros, as long as every fragment is sound and the whole fits. The first call
that breaks this leaves an error behind, and from then on nothing moves. So two
ways of cutting one body leave the same buffer or fail alike.
-/

namespace SensorPanel

open Library

namespace ResponseBuffer

/-- The buffer that has collected `body`, with zeros behind it. -/
def holding (body : Bytes) : ResponseBuffer := ⟨Buffer.padded _ body, body.length, 0⟩

/-- Sound fragments that leave room for the terminator. -/
def Accepted (fs : List Fragment) : Prop :=
  (∀ f ∈ fs, f.Sound) ∧ (fs.map Fragment.length).sum ≤ 4095

variable {body : Bytes} {f : Fragment} {fs gs kept later : List Fragment} {b : ResponseBuffer}

theorem zero_eq_holding : zero = holding [] := by
  simp [zero, holding]

theorem holding_holds (h : body.length ≤ 4095) : (holding body).Holds body where
  no_error := rfl
  used_eq := rfl
  fits := h
  take_eq := by
    have hlen : (body ++ [0]).length ≤ 4096 := by
      rw [List.length_append, List.length_singleton]
      omega
    rw [holding, ← Buffer.padded_terminated, Buffer.padded_bytes hlen]
    exact List.take_left' (by simp)

theorem holding_append (hf : f.Sound) (hlen : body.length + f.length ≤ 4095) :
    (holding body).append f = some (0, holding (body ++ f.bytes)) := by
  have hbytes := hf.length_bytes
  have hholds : (holding body).Holds body := holding_holds (by omega)
  have hroom := hholds.room
  have hgo : ¬ ((f.data = none ∧ f.length ≠ 0) ∨
      sizeSub (4096 - 1) (holding body).used < f.length) := by
    rintro (⟨hnone, hne⟩ | hlt)
    · exact hne (hf hnone)
    · omega
  have hcopy : (if f.length ≠ 0 then (holding body).data.write (holding body).used f.bytes
      else some (holding body).data) = some (Buffer.padded 4096 (body ++ f.bytes)) := by
    by_cases hzero : f.length = 0
    · rw [hzero] at hbytes
      simp [hzero, List.eq_nil_of_length_eq_zero hbytes, holding]
    · rw [if_pos hzero]
      exact Buffer.padded_write (by omega)
  have hend : (Buffer.padded 4096 (body ++ f.bytes)).write ((holding body).used + f.length) [0] =
      some (Buffer.padded 4096 (body ++ f.bytes)) := by
    have hwrite := Buffer.padded_write (n := 4096) (v := body ++ f.bytes) (w := [0])
      (by simp only [List.length_append, List.length_singleton]; omega)
    rw [Buffer.padded_terminated, List.length_append, hbytes] at hwrite
    exact hwrite
  rw [append, if_neg (by simp [holding]), if_neg hgo, hcopy, Option.bind_some, hend,
    Option.map_some]
  simp [holding, hbytes]

theorem length_bodyOf (h : ∀ f ∈ fs, f.Sound) :
    (bodyOf fs).length = (fs.map Fragment.length).sum := by
  rw [bodyOf, List.length_flatMap]
  congr 1
  exact List.map_congr_left fun f hf => (h f hf).length_bytes

theorem Accepted.length_bodyOf (h : Accepted fs) :
    (bodyOf fs).length = (fs.map Fragment.length).sum := ResponseBuffer.length_bodyOf h.1

/-- Cuts of a body are acceptable if the body fits. -/
theorem accepted_iff_length (h : ∀ f ∈ fs, f.Sound) :
    Accepted fs ↔ (bodyOf fs).length ≤ 4095 := by
  rw [length_bodyOf h]
  exact and_iff_right h

theorem accepted_concat : Accepted (fs ++ [f]) ↔
    Accepted fs ∧ f.Sound ∧ (bodyOf fs).length + f.length ≤ 4095 := by
  constructor
  · rintro ⟨hsound, hsum⟩
    simp only [List.map_append, List.map_singleton, List.sum_append, List.sum_singleton] at hsum
    have hfs : Accepted fs := ⟨fun g hg => hsound g (by simp [hg]), by omega⟩
    exact ⟨hfs, hsound f (by simp), by rw [hfs.length_bodyOf]; exact hsum⟩
  · rintro ⟨hfs, hf, hlen⟩
    rw [hfs.length_bodyOf] at hlen
    refine ⟨fun g hg => ?_, by simpa using hlen⟩
    rcases List.mem_append.mp hg with hg | hg
    · exact hfs.1 g hg
    · obtain rfl := List.mem_singleton.mp hg
      exact hf

theorem Accepted.of_append (h : Accepted (fs ++ gs)) : Accepted fs := by
  refine ⟨fun f hf => h.1 f (by simp [hf]), ?_⟩
  have hsum := h.2
  rw [List.map_append, List.sum_append] at hsum
  omega

theorem appendAll_append (b : ResponseBuffer) (fs gs : List Fragment) :
    b.appendAll (fs ++ gs) = (b.appendAll fs).bind fun c => c.appendAll gs := by
  rw [appendAll, List.foldlM_append]
  rfl

theorem appendAll_singleton (b : ResponseBuffer) (f : Fragment) :
    b.appendAll [f] = (b.append f).map Prod.snd := by
  simp [appendAll]

theorem Accepted.appendAll (h : Accepted fs) : zero.appendAll fs = some (holding (bodyOf fs)) := by
  induction fs using List.reverseRecOn with
  | nil => exact congrArg some zero_eq_holding
  | append_singleton fs f ih =>
    obtain ⟨hfs, hf, hlen⟩ := accepted_concat.mp h
    rw [appendAll_append, ih hfs, Option.bind_some, appendAll_singleton, holding_append hf hlen]
    simp [bodyOf]

theorem Accepted.append_refused (h : Accepted kept) (hf : ¬ Accepted (kept ++ [f])) :
    (holding (bodyOf kept)).append f =
      some (-EMSGSIZE, { holding (bodyOf kept) with error := -EMSGSIZE }) := by
  have hfits : (bodyOf kept).length ≤ 4095 := h.length_bodyOf.trans_le h.2
  apply (holding_holds hfits).append_refused
  rw [accepted_concat] at hf
  by_contra hnone
  rw [not_or, not_not, not_lt] at hnone
  exact hf ⟨h, hnone⟩

/-- From the first offending fragment on the buffer keeps the body collected
before it, with the error. -/
theorem Accepted.appendAll_refused (h : Accepted kept) (hf : ¬ Accepted (kept ++ [f]))
    (later : List Fragment) : zero.appendAll (kept ++ f :: later) =
      some { holding (bodyOf kept) with error := -EMSGSIZE } := by
  rw [appendAll_append, h.appendAll, Option.bind_some, ← List.singleton_append, appendAll_append,
    appendAll_singleton, h.append_refused hf]
  exact appendAll_of_error (show -EMSGSIZE ≠ 0 by decide) later

theorem accepted_or_refused (fs : List Fragment) : Accepted fs ∨
    ∃ kept f later, fs = kept ++ f :: later ∧ Accepted kept ∧ ¬ Accepted (kept ++ [f]) := by
  induction fs using List.reverseRecOn with
  | nil => exact Or.inl ⟨by simp, by simp⟩
  | append_singleton fs f ih =>
    rcases ih with h | ⟨kept, g, later, rfl, hkept, hg⟩
    · by_cases hf : Accepted (fs ++ [f])
      · exact Or.inl hf
      · exact Or.inr ⟨fs, f, [], rfl, h, hf⟩
    · exact Or.inr ⟨kept, g, later ++ [f], by simp, hkept, hg⟩

/-- The call with `f` after the calls with `past` returns `err`. -/
def Returns (past : List Fragment) (f : Fragment) (err : ℤ) : Prop :=
  ∃ b b', zero.appendAll past = some b ∧ b.append f = some (err, b')

/-- The buffer that calls with these fragments leave, and what the calls return. -/
structure Collects (fs : List Fragment) (b : ResponseBuffer) : Prop where
  left : zero.appendAll fs = some b
  used_le : b.used ≤ 4095
  no_wrap : sizeSub (4096 - 1) b.used = 4095 - b.used
  accepted : Accepted fs → b.error = 0 ∧ b.used = (fs.map Fragment.length).sum ∧
    b.data.bytes.take b.used = bodyOf fs ∧ b.data.bytes[b.used]? = some 0 ∧
    ∀ past f later, fs = past ++ f :: later → Returns past f 0
  refused : ∀ kept f later, fs = kept ++ f :: later → Accepted kept → ¬ Accepted (kept ++ [f]) →
    (∃ c, zero.appendAll kept = some c ∧ b = { c with error := -EMSGSIZE }) ∧
    Returns kept f (-EMSGSIZE) ∧
    ∀ past g rest, later = past ++ g :: rest → Returns (kept ++ f :: past) g (-EMSGSIZE)

theorem Accepted.returns (h : Accepted (fs ++ f :: later)) : Returns fs f 0 := by
  rw [List.append_cons] at h
  obtain ⟨hfs, hf, hlen⟩ := accepted_concat.mp h.of_append
  exact ⟨_, _, hfs.appendAll, holding_append hf hlen⟩

theorem Accepted.returns_refused (h : Accepted kept) (hf : ¬ Accepted (kept ++ [f])) :
    Returns kept f (-EMSGSIZE) ∧
      ∀ past g, Returns (kept ++ f :: past) g (-EMSGSIZE) := by
  refine ⟨⟨_, _, h.appendAll, h.append_refused hf⟩, fun past g => ?_⟩
  exact ⟨_, _, h.appendAll_refused hf past,
    append_of_error (show -EMSGSIZE ≠ 0 by decide)⟩

theorem sizeSub_used (h : b.used ≤ 4095) : sizeSub (4096 - 1) b.used = 4095 - b.used :=
  sizeSub_of_le (by norm_num) h

theorem Accepted.collects (h : Accepted fs) : Collects fs (holding (bodyOf fs)) := by
  have hlen : (bodyOf fs).length ≤ 4095 := h.length_bodyOf.trans_le h.2
  have hholds := holding_holds hlen
  refine ⟨h.appendAll, hlen, sizeSub_used hlen, fun _ => ⟨rfl, h.length_bodyOf,
    hholds.take_used, hholds.terminated, ?_⟩, ?_⟩
  · rintro past f later rfl
    exact h.returns
  · rintro kept f later rfl - hf
    rw [List.append_cons] at h
    exact absurd h.of_append hf

theorem Accepted.collects_refused (h : Accepted kept) (hf : ¬ Accepted (kept ++ [f]))
    (later : List Fragment) :
    Collects (kept ++ f :: later) { holding (bodyOf kept) with error := -EMSGSIZE } := by
  have hlen : (bodyOf kept).length ≤ 4095 := h.length_bodyOf.trans_le h.2
  have hleft := h.appendAll_refused hf later
  refine ⟨hleft, hlen, sizeSub_used hlen, fun hall => ?_, ?_⟩
  · rw [List.append_cons] at hall
    exact absurd hall.of_append hf
  · intro kept' f' later' heq hkept' hf'
    refine ⟨⟨_, hkept'.appendAll, ?_⟩, (hkept'.returns_refused hf').1, ?_⟩
    · rw [heq, hkept'.appendAll_refused hf' later'] at hleft
      exact (Option.some.inj hleft).symm
    · rintro past g rest -
      exact (hkept'.returns_refused hf').2 past g

theorem exists_collects (fs : List Fragment) : ∃ b, Collects fs b := by
  rcases accepted_or_refused fs with h | ⟨kept, f, later, rfl, hkept, hf⟩
  · exact ⟨_, h.collects⟩
  · exact ⟨_, hkept.collects_refused hf later⟩

theorem Collects.error_eq_zero_iff (h : Collects fs b) : b.error = 0 ↔ Accepted fs := by
  constructor
  · intro herror
    rcases accepted_or_refused fs with hfs | ⟨kept, f, later, heq, hkept, hf⟩
    · exact hfs
    · obtain ⟨⟨c, -, rfl⟩, -⟩ := h.refused kept f later heq hkept hf
      exact absurd herror (show -EMSGSIZE ≠ 0 by decide)
  · exact fun hfs => (h.accepted hfs).1

/-- The response buffer does not depend on how a response is cut. Calls with any
fragments collect their concatenation, or from the first offending one on return
`-EMSGSIZE` and move nothing; the room left is never computed below zero. Two
ways of cutting one body succeed or fail alike, and on success leave the same
buffer and so the same sample. -/
theorem response_buffer_independent (parser : JsonParser) (arith : DoubleArith)
    (fs : List Fragment) :
    (∃ b, Collects fs b) ∧
    ∀ gs, (∀ f ∈ fs, f.Sound) → (∀ g ∈ gs, g.Sound) → bodyOf fs = bodyOf gs →
      ∀ b c, Collects fs b → Collects gs c →
        (b.error = 0 ↔ c.error = 0) ∧
        (b.error = 0 → b.used = c.used ∧ b.data = c.data ∧
          sensorJsonParse parser arith (some b.data.bytes) b.used true =
            sensorJsonParse parser arith (some c.data.bytes) c.used true) := by
  refine ⟨exists_collects fs, fun gs hfs hgs hbody b c hb hc => ?_⟩
  have hlen : Accepted fs ↔ Accepted gs := by
    rw [accepted_iff_length hfs, accepted_iff_length hgs, hbody]
  refine ⟨hb.error_eq_zero_iff.trans (hlen.trans hc.error_eq_zero_iff.symm), fun herror => ?_⟩
  have hfs' := hb.error_eq_zero_iff.mp herror
  obtain rfl : holding (bodyOf fs) = b := Option.some.inj (hfs'.appendAll.symm.trans hb.left)
  obtain rfl : holding (bodyOf gs) = c :=
    Option.some.inj ((hlen.mp hfs').appendAll.symm.trans hc.left)
  rw [hbody]
  exact ⟨rfl, rfl, rfl⟩

/-- A body of three bytes in one piece. -/
def wholeBody : List Fragment :=
  [⟨some (ascii "abc"), 3, by decide, by rintro _ ⟨⟩; decide⟩]

/-- The same body in two pieces, the first cut out of a longer one, around a call
without data. -/
def cutBody : List Fragment :=
  [⟨some (ascii "abz"), 2, by decide, by rintro _ ⟨⟩; decide⟩,
    ⟨none, 0, by decide, nofun⟩, ⟨some (ascii "c"), 1, by decide, by rintro _ ⟨⟩; decide⟩]

theorem cut_body_collected (parser : JsonParser) : ∃ b c, Collects wholeBody b ∧
    Collects cutBody c ∧ b.error = 0 ∧ c.error = 0 ∧ b.used = 3 ∧ c.used = 3 ∧ b.data = c.data ∧
    sensorJsonParse parser .exact (some b.data.bytes) b.used true =
      sensorJsonParse parser .exact (some c.data.bytes) c.used true := by
  obtain ⟨⟨b, hb⟩, hindependent⟩ := response_buffer_independent parser .exact wholeBody
  obtain ⟨⟨c, hc⟩, -⟩ := response_buffer_independent parser .exact cutBody
  have hwhole : ∀ f ∈ wholeBody, f.Sound := by simp [wholeBody, Fragment.Sound]
  have hcut : ∀ f ∈ cutBody, f.Sound := by simp [cutBody, Fragment.Sound]
  have hbody : bodyOf wholeBody = bodyOf cutBody := by decide
  have htotal : (wholeBody.map Fragment.length).sum = 3 := rfl
  obtain ⟨herror, hsame⟩ := hindependent cutBody hwhole hcut hbody b c hb hc
  obtain ⟨hzero, hused, -⟩ := hb.accepted ⟨hwhole, by omega⟩
  rw [htotal] at hused
  obtain ⟨hequal, hdata, hparse⟩ := hsame hzero
  exact ⟨b, c, hb, hc, hzero, herror.mp hzero, hused, hequal ▸ hused, hdata, hparse⟩

end ResponseBuffer

end SensorPanel
