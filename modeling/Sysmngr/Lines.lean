import Sysmngr.Text

/-!
# Reading line by line

`fgets` reads up to a newline and no further than its buffer allows; a loop of such calls
gives a file back as its lines when each of them fits.
-/

namespace Sysmngr.Lines
open Text

def fgets : ℕ → Str → Str × Str
  | 0, s => ([], s)
  | _, [] => ([], [])
  | n + 1, c :: r =>
    if c = '\n' then ([c], r)
    else
      let p := fgets n r
      (c :: p.1, p.2)

def fgetsAll (size : ℕ) : ℕ → Str → List Str
  | 0, _ => []
  | _, [] => []
  | fuel + 1, s =>
    let p := fgets (size - 1) s
    p.1 :: fgetsAll size fuel p.2

/-- Lines with their newlines; the last one may lack its own. -/
def ended (newline : Bool) (line : Str) : Str := line ++ if newline then ['\n'] else []

def endedLines (newline : Bool) : List Str → List Str
  | [] => []
  | l :: rest => ended (newline || !rest.isEmpty) l :: endedLines newline rest

/-- A text without a newline that fits is read, and what follows it with the room left. -/
theorem fgets_append (m : ℕ) (s r : Str) (hs : '\n' ∉ s) :
    fgets (s.length + m) (s ++ r) = (s ++ (fgets m r).1, (fgets m r).2) := by
  induction s with
  | nil => rw [List.length_nil, Nat.zero_add, List.nil_append, List.nil_append]
  | cons c s ih =>
    have hc : c ≠ '\n' := fun h => hs (h ▸ List.mem_cons_self ..)
    have hrest := ih fun h => hs (List.mem_cons_of_mem _ h)
    have hroom : (c :: s).length + m = s.length + m + 1 := Nat.add_right_comm ..
    rw [hroom, List.cons_append, fgets, if_neg hc, hrest]
    rfl

theorem fgets_line (n : ℕ) (s r : Str) (hs : '\n' ∉ s) (hn : s.length + 1 ≤ n) :
    fgets n (s ++ '\n' :: r) = (s ++ ['\n'], r) := by
  obtain ⟨m, rfl⟩ : ∃ m, n = s.length + (m + 1) := ⟨n - s.length - 1, by omega⟩
  rw [fgets_append _ _ _ hs, fgets, if_pos rfl]

theorem fgets_last (n : ℕ) (s : Str) (hs : '\n' ∉ s) (hn : s.length ≤ n) :
    fgets n s = (s, []) := by
  obtain ⟨m, rfl⟩ : ∃ m, n = s.length + m := ⟨n - s.length, by omega⟩
  have hnil : fgets m [] = ([], []) := by
    cases m with
    | zero => rfl
    | succ m => rfl
  have hread := fgets_append m s [] hs
  rwa [hnil, List.append_nil] at hread

theorem fgets_ended (n : ℕ) (s : Str) (newline : Bool) (rest : Str) (hs : '\n' ∉ s)
    (hn : s.length + 1 ≤ n) (h : newline = true ∨ rest = []) :
    fgets n (ended newline s ++ rest) = (ended newline s, rest) := by
  cases newline with
  | true =>
    simp only [ended, if_true, List.append_assoc, List.cons_append, List.nil_append]
    exact fgets_line n s rest hs hn
  | false =>
    obtain rfl := h.resolve_left Bool.false_ne_true
    simp only [ended, Bool.false_eq_true, if_false, List.append_nil]
    exact fgets_last n s hs (by omega)

theorem fgetsAll_succ (size fuel : ℕ) (s : Str) (h : s ≠ []) :
    fgetsAll size (fuel + 1) s =
      (fgets (size - 1) s).1 :: fgetsAll size fuel (fgets (size - 1) s).2 := by
  cases s with
  | nil => exact absurd rfl h
  | cons c s => rfl

/-- A line that fits its buffer with newline and NUL. -/
structure Fits (size : ℕ) (line : Str) : Prop where
  ne : line ≠ []
  newline : '\n' ∉ line
  length : line.length + 2 ≤ size

/-- A file of lines that fit is read as these lines. -/
theorem fgetsAll_endedLines (size : ℕ) (newline : Bool) (lines : List Str) (fuel : ℕ)
    (h : ∀ l ∈ lines, Fits size l) (hfuel : (endedLines newline lines).flatten.length ≤ fuel) :
    fgetsAll size fuel (endedLines newline lines).flatten = endedLines newline lines := by
  induction lines generalizing fuel with
  | nil => cases fuel <;> rfl
  | cons l rest ih =>
    have hl := h l (List.mem_cons_self ..)
    have hlength := hl.length
    have hsplit : (endedLines newline (l :: rest)).flatten =
        ended (newline || !rest.isEmpty) l ++ (endedLines newline rest).flatten := rfl
    have hlast : (newline || !rest.isEmpty) = true ∨ (endedLines newline rest).flatten = [] := by
      cases rest with
      | nil => exact Or.inr rfl
      | cons next rest => exact Or.inl (Bool.or_true _)
    have hne : ended (newline || !rest.isEmpty) l ≠ [] :=
      List.append_ne_nil_of_left_ne_nil hl.ne _
    have hpos := List.length_pos_iff.mpr hne
    rw [hsplit, List.length_append] at hfuel
    obtain ⟨m, rfl⟩ : ∃ m, fuel = m + 1 := ⟨fuel - 1, by omega⟩
    rw [hsplit, fgetsAll_succ _ _ _ (List.append_ne_nil_of_left_ne_nil hne _),
      fgets_ended _ _ _ _ hl.newline (by omega) hlast,
      ih m (fun x hx => h x (List.mem_cons_of_mem _ hx)) (by omega), endedLines]

end Sysmngr.Lines
