import Sysmngr.Text

/-!
# What a task writes to its pipe (`fwbank.c`)

The forked task reads the script's output line by line, overwrites the last byte of each
line by a NUL and prints the rest. The last byte is the newline, unless the output ends
without one.
-/

namespace Sysmngr.Fwbank
open Text

/-! ### The loop -/

/-- `getline`: a line with its newline, or what is left, and the rest of the output. -/
def getline : Str → Str × Str
  | [] => ([], [])
  | c :: s =>
    if c = '\n' then ([c], s)
    else
      let p := getline s
      (c :: p.1, p.2)

/-- At the end of the output `getline` returns -1. -/
def printLines : ℕ → Str → Str
  | 0, _ => []
  | _, [] => []
  | fuel + 1, s =>
    let p := getline s
    cstr (p.1.set (p.1.length - 1) NUL) ++ printLines fuel p.2

/-- Every line takes a byte at least. -/
def taskCallback (output : Str) : Str := printLines output.length output

example : taskCallback "\x7b\n\"result\":\"ok\"\n\x7d\n".toList =
    "\x7b\"result\":\"ok\"\x7d".toList := by decide

/-! ### Its result -/

theorem getline_append (s : Str) : (getline s).1 ++ (getline s).2 = s := by
  induction s with
  | nil => rfl
  | cons c s ih =>
    rw [getline]
    split
    · rfl
    · rw [List.cons_append, ih]

theorem getline_ne_nil (s : Str) (h : s ≠ []) : (getline s).1 ≠ [] := by
  obtain ⟨c, t, rfl⟩ := List.exists_cons_of_ne_nil h
  rw [getline]
  split <;> exact List.cons_ne_nil _ _

/-- A newline is the last byte of a line, and only the last line of an output may have none. -/
theorem getline_newline (s : Str) :
    '\n' ∉ (getline s).1.dropLast ∧ ((getline s).2 ≠ [] → (getline s).1.getLast? = some '\n') := by
  induction s with
  | nil => simp [getline]
  | cons c s ih =>
    rw [getline]
    split
    · rename_i hc
      simp [hc]
    · rename_i hc
      cases hs : s with
      | nil => simp [getline]
      | cons d t =>
        rw [hs] at ih
        have hne := getline_ne_nil (d :: t) (List.cons_ne_nil _ _)
        rw [List.dropLast_cons_of_ne_nil hne, List.getLast?_cons_of_ne_nil hne]
        exact ⟨by simp [ih.1, Ne.symm hc], ih.2⟩

theorem cstr_overwritten (line : Str) (hne : line ≠ []) (h : NUL ∉ line) :
    cstr (line.set (line.length - 1) NUL) = line.dropLast := by
  have hset : line.set (line.length - 1) NUL = line.dropLast ++ [NUL] := by
    conv_lhs => rw [← List.dropLast_append_getLast hne]
    simp
  rw [hset]
  exact cstr_append line.dropLast [] fun hm => h (List.mem_of_mem_dropLast hm)

theorem printLines_eq (fuel : ℕ) (s : Str) (hfuel : s.length ≤ fuel) (h : NUL ∉ s) :
    printLines fuel s = s.dropLast.filter (· != '\n') := by
  induction fuel generalizing s with
  | zero =>
    obtain rfl : s = [] := List.length_eq_zero_iff.mp (Nat.le_zero.mp hfuel)
    rfl
  | succ fuel ih =>
    cases hs : s with
    | nil => rfl
    | cons c t =>
      have hne : s ≠ [] := by
        rw [hs]
        exact List.cons_ne_nil _ _
      rw [← hs]
      have hprint : printLines (fuel + 1) s =
          cstr ((getline s).1.set ((getline s).1.length - 1) NUL) ++
            printLines fuel (getline s).2 := by
        rw [hs]
        rfl
      have hsplit := getline_append s
      have hline := getline_ne_nil s hne
      obtain ⟨hbody, hend⟩ := getline_newline s
      generalize (getline s).1 = line at hprint hsplit hline hbody hend
      generalize (getline s).2 = rest at hprint hsplit hend
      subst hsplit
      rw [List.mem_append, not_or] at h
      have hpos := List.length_pos_iff.mpr hline
      rw [List.length_append] at hfuel
      have hkept : line.dropLast.filter (· != '\n') = line.dropLast :=
        List.filter_eq_self.mpr fun d hd => bne_iff_ne.mpr fun heq => hbody (heq ▸ hd)
      rw [hprint, cstr_overwritten line hline h.1, ih rest (by omega) h.2]
      by_cases hrest : rest = []
      · simp [hrest, hkept]
      · have hlast := List.dropLast_append_getLast? '\n' (hend hrest)
        have hall : line.filter (· != '\n') = line.dropLast := by
          rw [← hlast, List.filter_append, hkept]
          simp
        rw [List.dropLast_append_of_ne_nil hrest, List.filter_append, hall]

/-- The newlines alone are removed exactly when the output ends in one, or is empty. -/
theorem taskCallback_eq_iff (output : Str) (h : NUL ∉ output) :
    taskCallback output = output.filter (· != '\n') ↔ ∀ c ∈ output.getLast?, c = '\n' := by
  rw [taskCallback, printLines_eq _ output (Nat.le_refl _) h]
  rcases List.eq_nil_or_concat output with rfl | ⟨body, c, rfl⟩
  · simp
  · by_cases hc : c = '\n'
    · simp [hc]
    · have hne : (c != '\n') = true := bne_iff_ne.mpr hc
      simp [hc, hne]

theorem taskCallback_eq_sample :
    taskCallback "\x7b\"success\":\ntrue\x7d\n".toList = "\x7b\"success\":true\x7d".toList :=
  (taskCallback_eq_iff "\x7b\"success\":\ntrue\x7d\n".toList (by decide)).mpr
    fun _ hlast => (Option.some.inj hlast).symm

/-- An object printed without a newline loses its closing brace. -/
theorem unterminated_output_cut :
    ¬∀ output : Str, NUL ∉ output → taskCallback output = output.filter (· != '\n') := by
  intro hall
  exact absurd (hall "\x7b\"success\":true\x7d".toList (by decide)) (by decide)

end Sysmngr.Fwbank
