import SensorPanel.Library.Buffer
import Mathlib.Tactic

/-!
# Cutting a text protocol

A head is read line by line, each line ending at the first CRLF, up to the
first empty line; a line is cut at every occurrence of a separator. Lines
without CR are read back as they were written, and a field survives the cut of
its line exactly when the separator does not occur in it. Header lines are
looked up by name, in any order.
-/

namespace Library

def crlf : Bytes := [13, 10]

/-- The bytes in front of the first CRLF, and those after it. -/
def cutLine : Bytes → Option (Bytes × Bytes)
  | [] => none
  | b :: rest =>
    if (b :: rest).take 2 = crlf then some ([], rest.drop 1)
    else (cutLine rest).map fun p => (b :: p.1, p.2)

theorem cutLine_length {text line rest : Bytes} (h : cutLine text = some (line, rest)) :
    rest.length < text.length := by
  induction text generalizing line rest with
  | nil => simp [cutLine] at h
  | cons b text ih =>
    unfold cutLine at h
    split_ifs at h with hb
    · obtain ⟨-, rfl⟩ := Prod.ext_iff.mp (Option.some.inj h)
      simp only [List.length_drop, List.length_cons]
      omega
    · obtain ⟨⟨l, r⟩, hcut, he⟩ := Option.map_eq_some_iff.mp h
      obtain ⟨-, rfl⟩ := Prod.ext_iff.mp he
      exact (ih hcut).trans (Nat.lt_succ_self _)

/-- The lines of a head up to the first empty one, and the bytes after that. -/
def readHead (text : Bytes) : Option (List Bytes × Bytes) :=
  match _h : cutLine text with
  | none => none
  | some (line, rest) =>
    if line = [] then some ([], rest)
    else (readHead rest).map fun p => (line :: p.1, p.2)
termination_by text.length
decreasing_by exact cutLine_length _h

def writeLine (line : Bytes) : Bytes := line ++ crlf

theorem cutLine_writeLine {line : Bytes} (h : (13 : UInt8) ∉ line) (rest : Bytes) :
    cutLine (writeLine line ++ rest) = some (line, rest) := by
  induction line with
  | nil => simp [writeLine, cutLine, crlf]
  | cons b line ih =>
    have hb : b ≠ 13 := fun hb => h (by simp [hb])
    have hcut := ih (fun hmem => h (List.mem_cons_of_mem _ hmem))
    rw [writeLine, List.cons_append, List.cons_append, cutLine]
    rw [if_neg (by simp [crlf, hb]), ← writeLine, hcut]
    rfl

/-- A head of nonempty lines without CR reads back as those lines, with the
bytes behind its empty line untouched. -/
theorem readHead_lines {lines : List Bytes} (h : ∀ l ∈ lines, l ≠ [] ∧ (13 : UInt8) ∉ l)
    (body : Bytes) : readHead (lines.flatMap writeLine ++ crlf ++ body) = some (lines, body) := by
  induction lines with
  | nil =>
    have hcut : cutLine (crlf ++ body) = some ([], body) :=
      @cutLine_writeLine [] List.not_mem_nil body
    rw [List.flatMap_nil, List.nil_append, readHead]
    split
    · simp_all
    · simp_all
  | cons line lines ih =>
    obtain ⟨hne, hcr⟩ := h line (by simp)
    have hcut := cutLine_writeLine hcr (lines.flatMap writeLine ++ crlf ++ body)
    have htail := ih (fun l hl => h l (List.mem_cons_of_mem _ hl))
    rw [List.flatMap_cons, List.append_assoc, List.append_assoc, ← List.append_assoc _ crlf,
      readHead]
    split
    · simp_all
    · rename_i l r hl
      rw [hcut] at hl
      obtain ⟨rfl, rfl⟩ := Prod.ext_iff.mp (Option.some.inj hl)
      rw [if_neg hne, htail]
      rfl

def headerValues (name : Bytes) (lines : List Bytes) : List Bytes :=
  lines.filterMap fun line => if name <+: line then some (line.drop name.length) else none

theorem headerValues_perm (name : Bytes) {lines lines' : List Bytes} (h : lines.Perm lines') :
    (headerValues name lines).Perm (headerValues name lines') := h.filterMap _

theorem headerValues_cons_self (name value : Bytes) (lines : List Bytes) :
    headerValues name ((name ++ value) :: lines) = value :: headerValues name lines := by
  simp [headerValues]

theorem headerValues_cons_other {name other : Bytes} (h : ¬ name <+: other) (h' : ¬ other <+: name)
    (value : Bytes) (lines : List Bytes) :
    headerValues name ((other ++ value) :: lines) = headerValues name lines := by
  have hline : ¬ name <+: other ++ value := fun hp =>
    (List.prefix_or_prefix_of_prefix hp (List.prefix_append other value)).elim h h'
  simp [headerValues, hline]

section Separator

variable {α : Type*} [BEq α] [LawfulBEq α] {sep : α}

theorem splitOn_eq_singleton_iff {xs : List α} : xs.splitOn sep = [xs] ↔ sep ∉ xs := by
  constructor
  · intro h hmem
    obtain ⟨as, bs, rfl⟩ := List.append_of_mem hmem
    rw [List.splitOn_append_cons_self] at h
    have hlen := congrArg List.length h
    have ha := List.length_pos_of_ne_nil (List.splitOn_ne_nil sep as)
    have hb := List.length_pos_of_ne_nil (List.splitOn_ne_nil sep bs)
    simp only [List.length_append, List.length_singleton] at hlen
    omega
  · exact List.splitOn_eq_singleton

/-- A field between two clean ones survives the cut exactly when it is clean. -/
theorem splitOn_three_iff {xs ys zs : List α} (hx : sep ∉ xs) (hz : sep ∉ zs) :
    (xs ++ sep :: (ys ++ sep :: zs)).splitOn sep = [xs, ys, zs] ↔ sep ∉ ys := by
  rw [List.splitOn_append_cons_self_of_not_mem hx, List.splitOn_append_cons_self,
    List.splitOn_eq_singleton hz, ← @splitOn_eq_singleton_iff α _ _ sep ys]
  constructor
  · intro h
    have htail : ys.splitOn sep ++ [zs] = [ys] ++ [zs] := by simpa using h
    exact List.append_cancel_right htail
  · intro h
    simp [h]

end Separator

end Library
