import Mathlib.Data.List.DropRight
import Sysmngr.Text

/-!
# Lines trimmed in place (libbbfdm)

Two functions of libbbfdm change a line in its buffer. They are given the text and not the
size of the buffer: what they make of the text is known, what they leave between its new
end and its old one is not, and behind the old end nothing changes.
-/

namespace Sysmngr
open Text

/-! ### Texts changed in their buffers -/

/-- A function that makes `f` of the text in a buffer and sees no further than its end. -/
structure InPlace (f : Str → Str) where
  apply : List Char → List Char
  text : ∀ buf, cstr (apply buf) = f (cstr buf)
  behind : ∀ buf j, (cstr buf).length < j → (apply buf)[j]? = buf[j]?

theorem notMem_cstr (buf : List Char) : NUL ∉ cstr buf := by
  intro hmem
  have hne := List.mem_takeWhile_imp hmem
  exact absurd hne (by decide)

theorem cstr_drop (buf : List Char) (i : ℕ) (h : i ≤ (cstr buf).length) :
    cstr (buf.drop i) = (cstr buf).drop i := by
  induction i generalizing buf with
  | zero => rfl
  | succ i ih =>
    cases buf with
    | nil => exact absurd h (by simp [cstr])
    | cons c buf =>
      by_cases hc : c = NUL
      · rw [hc] at h
        exact absurd h (by simp [cstr])
      · have htext : cstr (c :: buf) = c :: cstr buf :=
          List.takeWhile_cons_of_pos (by simpa using hc)
        rw [htext, List.length_cons] at h
        rw [htext, List.drop_succ_cons, List.drop_succ_cons, ih buf (by omega)]

theorem store_behind (buf : List Char) (s : Str) (j : ℕ) (h : s.length < j) :
    (store buf s)[j]? = buf[j]? := by
  obtain ⟨i, rfl⟩ : ∃ i, j = s.length + (i + 1) := ⟨j - s.length - 1, by omega⟩
  rw [store, List.getElem?_append_right (by omega), Nat.add_sub_cancel_left,
    List.getElem?_cons_succ, List.getElem?_drop]
  congr 1
  omega

/-- What `f` keeps of a text, its NUL and a character wherever the text was longer. -/
def InPlace.filling (f : Str → Str) (fill : Char) (hf : ∀ s, (f s).Sublist s) : InPlace f where
  apply buf :=
    let s := cstr buf
    f s ++ NUL :: (List.replicate (s.length - (f s).length) fill ++ buf.drop (s.length + 1))
  text buf := cstr_append _ _ fun hmem => notMem_cstr buf ((hf _).subset hmem)
  behind buf j hj := by
    have hle := (hf (cstr buf)).length_le
    obtain ⟨i, rfl⟩ : ∃ i, j = (f (cstr buf)).length +
        (((cstr buf).length - (f (cstr buf)).length + i) + 1) :=
      ⟨j - (cstr buf).length - 1, by omega⟩
    dsimp only
    rw [List.getElem?_append_right (by omega), Nat.add_sub_cancel_left, List.getElem?_cons_succ,
      List.getElem?_append_right (by simp), List.length_replicate, Nat.add_sub_cancel_left,
      List.getElem?_drop]
    congr 1
    omega

theorem InPlace.filling_between (f : Str → Str) (fill : Char) (hf : ∀ s, (f s).Sublist s)
    (buf : List Char) (j : ℕ) (hlt : (f (cstr buf)).length < j) (hle : j ≤ (cstr buf).length) :
    ((InPlace.filling f fill hf).apply buf)[j]? = some fill := by
  obtain ⟨i, rfl⟩ : ∃ i, j = (f (cstr buf)).length + (i + 1) :=
    ⟨j - (f (cstr buf)).length - 1, by omega⟩
  dsimp only [InPlace.filling]
  rw [List.getElem?_append_right (by omega), Nat.add_sub_cancel_left, List.getElem?_cons_succ,
    List.getElem?_append_left (by rw [List.length_replicate]; omega), List.getElem?_replicate,
    if_pos (by omega)]

/-! ### The two functions -/

/-- `remove_new_line` takes off a final newline. -/
def withoutNewline (s : Str) : Str := if s.getLast? = some '\n' then s.dropLast else s

/-- `strip_lead_trail_whitespace` takes off the blanks on both sides. -/
def withoutBlanks (s : Str) : Str := (s.dropWhile isspace).rdropWhile isspace

structure Libbbfdm where
  removeNewLine : InPlace withoutNewline
  stripLeadTrailWhitespace : InPlace withoutBlanks

theorem withoutNewline_sublist (s : Str) : (withoutNewline s).Sublist s := by
  unfold withoutNewline
  split
  · exact List.dropLast_sublist s
  · exact List.Sublist.refl s

theorem withoutBlanks_sublist (s : Str) : (withoutBlanks s).Sublist s :=
  (List.rdropWhile_prefix isspace _).sublist.trans (List.dropWhile_sublist isspace)

/-- Both functions, one character being left wherever the text was longer. -/
def Libbbfdm.filling (fill : Char) : Libbbfdm :=
  ⟨.filling _ fill withoutNewline_sublist, .filling _ fill withoutBlanks_sublist⟩

/-- What is taken off is overwritten by NULs. -/
def Libbbfdm.clearing : Libbbfdm := .filling NUL

namespace Libbbfdm
variable (lib : Libbbfdm) (buf : List Char) (line : Str)

/-- A line read into the buffer and trimmed there. -/
def trim : List Char :=
  lib.stripLeadTrailWhitespace.apply (lib.removeNewLine.apply (store buf line))

theorem cstr_removeNewLine (h : NUL ∉ line) :
    cstr (lib.removeNewLine.apply (store buf line)) = withoutNewline line := by
  rw [lib.removeNewLine.text, cstr_store buf line h]

theorem cstr_trim (h : NUL ∉ line) :
    cstr (lib.trim buf line) = withoutBlanks (withoutNewline line) := by
  rw [trim, lib.stripLeadTrailWhitespace.text, cstr_removeNewLine lib buf line h]

/-- Behind the line that is read the buffer is as it was. -/
theorem trim_behind (h : NUL ∉ line) (j : ℕ) (hj : line.length < j) :
    (lib.trim buf line)[j]? = buf[j]? := by
  have hshort := (withoutNewline_sublist line).length_le
  rw [trim, lib.stripLeadTrailWhitespace.behind _ _
      (by rw [cstr_removeNewLine lib buf line h]; omega),
    lib.removeNewLine.behind _ _ (by rw [cstr_store buf line h]; exact hj),
    store_behind buf line j hj]

/-- In front of that, what is taken off a line is overwritten. -/
theorem filling_trim (fill : Char) (h : NUL ∉ line) (j : ℕ)
    (hlt : (withoutBlanks (withoutNewline line)).length < j) (hle : j ≤ line.length) :
    ((filling fill).trim buf line)[j]? = some fill := by
  have htext := cstr_removeNewLine (filling fill) buf line h
  by_cases hblank : j ≤ (withoutNewline line).length
  · exact InPlace.filling_between _ fill withoutBlanks_sublist _ j (by rwa [htext])
      (by rwa [htext])
  · have hstore := cstr_store buf line h
    rw [trim, (filling fill).stripLeadTrailWhitespace.behind _ j (by rw [htext]; omega)]
    exact InPlace.filling_between _ fill withoutNewline_sublist _ j (by rw [hstore]; omega)
      (by rwa [hstore])

end Libbbfdm
end Sysmngr
