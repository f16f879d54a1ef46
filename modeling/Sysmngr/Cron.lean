import Sysmngr.Calendar

/-!
# Reading a crontab

Newline-terminated lines of five schedule fields and a command. In the command a
percent sign ends the text run by the shell, what follows being its input, unless
a backslash stands before it.
-/

namespace Sysmngr.Cron
open Text Calendar

/-! ### Lines -/

structure Lines (text : Str) (ls : List Str) : Prop where
  clean : ∀ l ∈ ls, '\n' ∉ l
  eq : text = ls.flatMap fun l => l ++ ['\n']

theorem Lines.unique {text : Str} {ls ls' : List Str} (h : Lines text ls) (h' : Lines text ls') :
    ls = ls' := by
  obtain ⟨hclean, rfl⟩ := h
  obtain ⟨hclean', heq⟩ := h'
  induction ls generalizing ls' with
  | nil =>
    cases ls' with
    | nil => rfl
    | cons l ls' => simp at heq
  | cons l ls ih =>
    cases ls' with
    | nil => simp at heq
    | cons l' ls' =>
      simp only [List.flatMap_cons, List.append_assoc, List.singleton_append] at heq
      obtain ⟨rfl, hrest⟩ := append_cons_inj '\n' l l' _ _ (hclean l (List.mem_cons_self ..))
        (hclean' l' (List.mem_cons_self ..)) heq
      rw [ih (fun x hx => hclean x (List.mem_cons_of_mem _ hx))
        (fun x hx => hclean' x (List.mem_cons_of_mem _ hx)) hrest]

theorem Lines.countP_newline {text : Str} {ls : List Str} (h : Lines text ls) :
    text.countP (· == '\n') = ls.length := by
  obtain ⟨hclean, rfl⟩ := h
  induction ls with
  | nil => rfl
  | cons l ls ih =>
    have hzero := countP_eq_zero_of_notMem '\n' l (hclean l (List.mem_cons_self ..))
    rw [List.flatMap_cons, List.countP_append, List.countP_append, hzero,
      ih fun x hx => hclean x (List.mem_cons_of_mem _ hx)]
    simp [Nat.add_comm]

/-! ### Commands -/

/-- The text handed to the shell. -/
def command : Str → Str
  | [] => []
  | [c] => if c = '%' then [] else [c]
  | c :: d :: rest =>
    if c = '%' then []
    else if c = '\\' then
      if d = '%' then '%' :: command rest else '\\' :: d :: command rest
    else c :: command (d :: rest)

theorem command_escaped (rest : Str) : command ('\\' :: '%' :: rest) = '%' :: command rest := by
  rw [command, if_neg (by decide), if_pos rfl, if_pos rfl]

theorem command_backslash (d : Char) (rest : Str) (h : d ≠ '%') :
    command ('\\' :: d :: rest) = '\\' :: d :: command rest := by
  rw [command, if_neg (by decide), if_pos rfl, if_neg h]

theorem command_of_clean (s : Str) (h : '%' ∉ s) : command s = s := by
  induction s using command.induct with
  | case1 => rfl
  | case2 => exact absurd (List.mem_cons_self ..) h
  | case3 c hc => rw [command, if_neg hc]
  | case4 => exact absurd (List.mem_cons_self ..) h
  | case5 rest ih => simp at h
  | case6 d rest hd hne ih =>
    simp only [List.mem_cons, not_or] at h
    rw [command_backslash d rest (Ne.symm h.2.1), ih h.2.2]
  | case7 c d rest hc hb ih =>
    simp only [List.mem_cons, not_or] at h
    rw [command, if_neg hc, if_neg hb, ih (by simp [h])]

theorem command_countP_le (p : Char → Bool) (s : Str) : (command s).countP p ≤ s.countP p := by
  induction s using command.induct with
  | case1 => exact Nat.le_refl _
  | case2 => exact Nat.zero_le _
  | case3 c hc => rw [command, if_neg hc]
  | case4 => exact Nat.zero_le _
  | case5 rest ih =>
    rw [command_escaped]
    simp only [List.countP_cons]
    omega
  | case6 d rest hd hne ih =>
    rw [command_backslash d rest (by assumption)]
    simp only [List.countP_cons]
    omega
  | case7 c d rest hc hb ih =>
    rw [command, if_neg hc, if_neg hb, List.countP_cons, List.countP_cons]
    omega

/-- A percent sign costs itself or the backslash before it. -/
theorem command_countP_lt (p : Char → Bool) (hp : p '%' = true) (hb : p '\\' = true) (s : Str)
    (h : '%' ∈ s) : (command s).countP p < s.countP p := by
  induction s using command.induct with
  | case1 => simp at h
  | case2 => simp [command, hp]
  | case3 c hc => exact absurd (List.mem_singleton.mp h).symm hc
  | case4 d rest => simp [command, hp]
  | case5 rest ih =>
    have hle := command_countP_le p rest
    rw [command_escaped]
    simp only [List.countP_cons, hp, hb, if_true]
    omega
  | case6 d rest hd hne ih =>
    have hd' : d ≠ '%' := by assumption
    have hrest : '%' ∈ rest := by
      simp only [List.mem_cons] at h
      rcases h with h | h | h
      · exact absurd h (by decide)
      · exact absurd h.symm hd'
      · exact h
    have hlt := ih hrest
    rw [command_backslash d rest hd']
    simp only [List.countP_cons]
    omega
  | case7 c d rest hc hb' ih =>
    have hrest : '%' ∈ d :: rest := (List.mem_cons.mp h).resolve_left (Ne.symm hc)
    have hlt := ih hrest
    rw [command, if_neg hc, if_neg hb', List.countP_cons, List.countP_cons]
    omega

/-! ### Entries -/

def blank (c : Char) : Bool := c = ' ' || c = '\t'

def readFields : ℕ → Str → Option (List Str × Str)
  | 0, s => some ([], s.dropWhile blank)
  | n + 1, s =>
    let s := s.dropWhile blank
    let field := s.takeWhile fun c => !blank c
    if field.length = 0 then none
    else (readFields n (s.dropWhile fun c => !blank c)).map fun r => (field :: r.1, r.2)

structure Entry where
  schedule : List Str
  command : Str
  deriving DecidableEq, Repr

def readEntry (line : Str) : Option Entry :=
  (readFields 5 line).map fun r => ⟨r.1, command r.2⟩

example : readEntry "5 4 * 2 *  echo 50\\% % input".toList =
    some ⟨["5".toList, "4".toList, "*".toList, "2".toList, "*".toList], "echo 50% ".toList⟩ := by
  decide

theorem readFields_sublist (n : ℕ) (s : Str) (r : List Str × Str) (h : readFields n s = some r) :
    r.2.Sublist s := by
  induction n generalizing s r with
  | zero =>
    obtain rfl := Option.some.inj h
    exact List.dropWhile_sublist _
  | succ n ih =>
    simp only [readFields] at h
    split at h
    · exact absurd h (by simp)
    · obtain ⟨r', hr', rfl⟩ := Option.map_eq_some_iff.mp h
      exact (ih _ r' hr').trans ((List.dropWhile_sublist _).trans (List.dropWhile_sublist _))

theorem readEntry_countP_le (p : Char → Bool) (line : Str) (e : Entry)
    (h : readEntry line = some e) : e.command.countP p ≤ line.countP p := by
  obtain ⟨r, hr, rfl⟩ := Option.map_eq_some_iff.mp h
  exact (command_countP_le p r.2).trans (readFields_sublist 5 line r hr).countP_le

theorem readFields_blank (n : ℕ) (s : Str) : readFields n (' ' :: s) = readFields n s := by
  have hdrop : (' ' :: s).dropWhile blank = s.dropWhile blank := rfl
  cases n with
  | zero => simp only [readFields, hdrop]
  | succ n => simp only [readFields, hdrop]

theorem readFields_field (n : ℕ) (field rest : Str) (hne : field ≠ [])
    (h : ∀ c ∈ field, blank c = false) :
    readFields (n + 1) (field ++ ' ' :: rest) =
      (readFields n rest).map fun r => (field :: r.1, r.2) := by
  have hdrop : (field ++ ' ' :: rest).dropWhile blank = field ++ ' ' :: rest := by
    obtain ⟨c, f, rfl⟩ := List.exists_cons_of_ne_nil hne
    rw [List.cons_append, List.dropWhile_cons, h c (List.mem_cons_self ..)]
    rfl
  have htake : (field ++ ' ' :: rest).takeWhile (fun c => !blank c) = field := by
    rw [List.takeWhile_append_of_pos fun c hc => by rw [h c hc]; rfl]
    simp [blank]
  have hafter : (field ++ ' ' :: rest).dropWhile (fun c => !blank c) = ' ' :: rest := by
    rw [List.dropWhile_append_of_pos fun c hc => by rw [h c hc]; rfl]
    simp [blank]
  have hlen : ¬field.length = 0 := fun hl => hne (List.length_eq_zero_iff.mp hl)
  simp only [readFields, hdrop, htake, hafter, if_neg hlen, readFields_blank]

/-! ### When an entry runs -/

/-- A field that is a star or one number; ranges, lists, steps and names are not read. -/
def fieldMatches (field : Str) (value : ℤ) : Bool :=
  field = "*".toList ||
    (field.length != 0 && field.all Char.isDigit && decide ((digitsValue field : ℤ) = value))

/-- The day is that of the month or that of the week where neither field is a star. -/
def scheduleMatches (fields : List Str) (tm : Tm) (wday : ℤ) : Bool :=
  match fields with
  | [min, hour, mday, mon, dow] =>
    fieldMatches min tm.min && fieldMatches hour tm.hour && fieldMatches mon (tm.mon + 1) &&
      if mday = "*".toList ∨ dow = "*".toList then
        fieldMatches mday tm.mday && fieldMatches dow wday
      else fieldMatches mday tm.mday || fieldMatches dow wday
  | _ => false

/-- Entries have no year: what matches once matches again. -/
theorem scheduleMatches_add_era (fields : List Str) (t : ℤ) :
    scheduleMatches fields (gmtime (t + eraSeconds)) (weekday (t + eraSeconds)) =
      scheduleMatches fields (gmtime t) (weekday t) := by
  rw [gmtime_add_era, weekday_add_era]
  rfl

theorem fieldMatches_printInt (z value : ℤ) (hz : 0 ≤ z) :
    fieldMatches (printInt z) value = true ↔ z = value := by
  have hprint : printInt z = printNat z.natAbs := if_neg (by omega)
  have hdigits := printNat_isDigit z.natAbs
  have hstar : printNat z.natAbs ≠ "*".toList := fun h => by
    rw [h] at hdigits
    exact absurd (hdigits '*' (by decide)) (by decide)
  have hlen : (printNat z.natAbs).length ≠ 0 := fun h =>
    printNat_ne_nil _ (List.length_eq_zero_iff.mp h)
  have hall : (printNat z.natAbs).all Char.isDigit = true := List.all_eq_true.mpr hdigits
  simp only [fieldMatches, hprint, hstar, hall, digitsValue_printNat, decide_false, Bool.false_or,
    Bool.and_true, bne_iff_ne.mpr hlen, Bool.true_and, decide_eq_true_eq]
  omega

end Sysmngr.Cron
