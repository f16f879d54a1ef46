import Sysmngr.Text

/-!
# Reading a command line

The quoting rules of the POSIX shell, one character at a time, for command lines
that are a pipeline of plain words and output redirections. Everything else (an
expansion, a pattern, a list of commands, a comment, an open quote) is not read.

A word never holds more of the characters `\` and `"` than the text it is read
from, and fewer when it holds a single quote.
-/

namespace Sysmngr.Shell
open Text

/-! ### Tokens -/

/-- A word, the bar of a pipeline, or `>` with the digits before it. -/
inductive Tok where
  | word (s : Str)
  | pipe
  | redirect (fd : Str)
  deriving DecidableEq, Repr

inductive Mode where
  | plain
  | single
  | double
  | escaped
  | doubleEscaped
  deriving DecidableEq, Repr

/-- The word being read, if any, whether part of it was quoted, and the tokens
before it. -/
structure Lexer where
  mode : Mode
  cur : Option Str
  quoted : Bool
  toks : List Tok
  deriving DecidableEq, Repr

def Lexer.start : Lexer := ⟨.plain, none, false, []⟩

def Lexer.push (l : Lexer) (c : Char) : Lexer := { l with cur := some (l.cur.getD [] ++ [c]) }

def Lexer.emit (l : Lexer) : Lexer :=
  match l.cur with
  | none => l
  | some w => { l with cur := none, quoted := false, toks := l.toks ++ [.word w] }

def Lexer.openQuote (l : Lexer) (mode : Mode) : Lexer :=
  { l with mode := mode, cur := some (l.cur.getD []), quoted := true }

/-- Unquoted, these make a text more than one pipeline of plain words. -/
def unread (c : Char) : Bool :=
  c ∈ ['$', '\x60', '*', '?', '[', ';', '&', '<', '(', ')', '\n']

def unreadFirst (c : Char) : Bool := c ∈ ['#', '~']

def Lexer.isFd (l : Lexer) : Bool :=
  !l.quoted && l.cur.any fun w => w.length != 0 && w.all Char.isDigit

def Lexer.stepPlain (l : Lexer) (c : Char) : Option Lexer :=
  if c = '\'' then some (l.openQuote .single)
  else if c = '"' then some (l.openQuote .double)
  else if c = '\\' then some { l with mode := .escaped }
  else if c = ' ' ∨ c = '\t' then some l.emit
  else if c = '|' then
    let l := l.emit
    some { l with toks := l.toks ++ [.pipe] }
  else if c = '>' then
    if l.isFd then
      some { l with cur := none, quoted := false, toks := l.toks ++ [.redirect (l.cur.getD [])] }
    else
      let l := l.emit
      some { l with toks := l.toks ++ [.redirect []] }
  else if unread c || (l.cur.isNone && unreadFirst c) then none
  else some (l.push c)

def Lexer.step (l : Lexer) (c : Char) : Option Lexer :=
  match l.mode with
  | .plain => l.stepPlain c
  | .single => if c = '\'' then some { l with mode := .plain } else some (l.push c)
  | .double =>
    if c = '"' then some { l with mode := .plain }
    else if c = '\\' then some { l with mode := .doubleEscaped }
    else if c = '$' ∨ c = '\x60' then none
    else some (l.push c)
  | .escaped =>
    if c = '\n' then some { l with mode := .plain }
    else some { l.push c with mode := .plain, quoted := true }
  | .doubleEscaped =>
    if c = '\n' then some { l with mode := .double }
    else if c ∈ ['$', '\x60', '"', '\\'] then some { l.push c with mode := .double }
    else some { (l.push '\\').push c with mode := .double }

def Lexer.run (l : Lexer) (text : Str) : Option Lexer := text.foldlM Lexer.step l

/-- A backslash at the very end stands for itself. -/
def Lexer.finish (l : Lexer) : Option (List Tok) :=
  match l.mode with
  | .plain => some l.emit.toks
  | .escaped => some (l.push '\\').emit.toks
  | _ => none

def lex (text : Str) : Option (List Tok) := (Lexer.start.run text).bind Lexer.finish

/-! ### Pipelines -/

structure Command where
  words : List Str
  redirects : List (Str × Str)
  deriving DecidableEq, Repr

def addWord (w : Str) : List Command → List Command
  | [] => [⟨[w], []⟩]
  | c :: cs => { c with words := w :: c.words } :: cs

def addRedirect (fd target : Str) : List Command → List Command
  | [] => [⟨[], [(fd, target)]⟩]
  | c :: cs => { c with redirects := (fd, target) :: c.redirects } :: cs

def parse : List Tok → Option (List Command)
  | [] => some [⟨[], []⟩]
  | .pipe :: rest => (parse rest).map (⟨[], []⟩ :: ·)
  | .word w :: rest => (parse rest).map (addWord w)
  | .redirect fd :: .word target :: rest => (parse rest).map (addRedirect fd target)
  | .redirect _ :: _ => none

def pipeline (text : Str) : Option (List Command) :=
  ((lex text).bind parse).filter fun cs => cs.all fun c => c.words.length != 0

example : pipeline "echo 'a b'\\''c' \"$\\$\"|sh -x 2>/dev/null".toList = none := by decide

example : pipeline "echo 'a b'\\''c' \"\\$\"|sh -x 2>/dev/null".toList =
    some [⟨["echo".toList, "a b'c".toList, "$".toList], []⟩,
      ⟨["sh".toList, "-x".toList], [("2".toList, "/dev/null".toList)]⟩] := by decide

/-! ### What a character adds -/

def Tok.text : Tok → Str
  | .word s => s
  | .redirect fd => fd
  | .pipe => []

def Lexer.chars (l : Lexer) : Str := l.toks.flatMap Tok.text ++ l.cur.getD []

@[simp] theorem chars_push (l : Lexer) (c : Char) : (l.push c).chars = l.chars ++ [c] := by
  simp [Lexer.chars, Lexer.push]

@[simp] theorem chars_emit (l : Lexer) : l.emit.chars = l.chars := by
  unfold Lexer.emit
  split
  · rfl
  · rename_i w hw
    simp [Lexer.chars, hw, Tok.text]

theorem emit_mode (l : Lexer) : l.emit.mode = l.mode := by
  unfold Lexer.emit
  split <;> rfl

theorem emit_cur (l : Lexer) : l.emit.cur = none := by
  unfold Lexer.emit
  split
  · assumption
  · rfl

theorem chars_emit_token (l : Lexer) (t : Tok) (ht : t.text = []) :
    ({ l.emit with toks := l.emit.toks ++ [t] } : Lexer).chars = l.chars := by
  have he := chars_emit l
  simp only [Lexer.chars, List.flatMap_append, List.flatMap_cons, List.flatMap_nil, ht,
    List.append_nil] at he ⊢
  exact he

/-- The character `c` in a mode adds the characters of `w` and leads to a mode. -/
inductive Adds : Mode → Char → Str → Mode → Prop where
  | blank (c : Char) : Adds .plain c [] .plain
  | plain (c : Char) : c ≠ '\'' → Adds .plain c [c] .plain
  | openSingle : Adds .plain '\'' [] .single
  | openDouble : Adds .plain '"' [] .double
  | escape : Adds .plain '\\' [] .escaped
  | escaped (c : Char) : Adds .escaped c [c] .plain
  | joined (c : Char) : Adds .escaped c [] .plain
  | single (c : Char) : c ≠ '\'' → Adds .single c [c] .single
  | closeSingle : Adds .single '\'' [] .plain
  | double (c : Char) : Adds .double c [c] .double
  | closeDouble : Adds .double '"' [] .plain
  | doubleEscape : Adds .double '\\' [] .doubleEscaped
  | doubleEscaped (c : Char) : Adds .doubleEscaped c [c] .double
  | doubleKept (c : Char) : Adds .doubleEscaped c ['\\', c] .double
  | doubleJoined (c : Char) : Adds .doubleEscaped c [] .double

theorem stepPlain_adds (l l' : Lexer) (c : Char) (hm : l.mode = .plain)
    (h : l.stepPlain c = some l') :
    ∃ w, Adds .plain c w l'.mode ∧ l'.chars = l.chars ++ w := by
  unfold Lexer.stepPlain at h
  split at h
  · rename_i hc
    obtain rfl := Option.some.inj h
    subst hc
    exact ⟨[], .openSingle, by simp [Lexer.chars, Lexer.openQuote]⟩
  split at h
  · rename_i hc
    obtain rfl := Option.some.inj h
    subst hc
    exact ⟨[], .openDouble, by simp [Lexer.chars, Lexer.openQuote]⟩
  split at h
  · rename_i hc
    obtain rfl := Option.some.inj h
    subst hc
    exact ⟨[], .escape, by simp [Lexer.chars]⟩
  split at h
  · obtain rfl := Option.some.inj h
    exact ⟨[], by rw [emit_mode, hm]; exact .blank c, by simp⟩
  split at h
  · obtain rfl := Option.some.inj h
    refine ⟨[], by simp only [emit_mode, hm]; exact .blank c, ?_⟩
    rw [chars_emit_token l .pipe rfl, List.append_nil]
  split at h
  · split at h
    · obtain rfl := Option.some.inj h
      refine ⟨[], by simp only [hm]; exact .blank c, ?_⟩
      simp [Lexer.chars, Tok.text]
    · obtain rfl := Option.some.inj h
      refine ⟨[], by simp only [emit_mode, hm]; exact .blank c, ?_⟩
      rw [chars_emit_token l (.redirect []) rfl, List.append_nil]
  split at h
  · exact absurd h (by simp)
  · rename_i hc _ _ _ _ _ _
    obtain rfl := Option.some.inj h
    exact ⟨[c], by simp only [Lexer.push, hm]; exact .plain c hc, chars_push l c⟩

theorem step_adds (l l' : Lexer) (c : Char) (h : l.step c = some l') :
    ∃ w, Adds l.mode c w l'.mode ∧ l'.chars = l.chars ++ w := by
  cases hm : l.mode with
  | plain =>
    simp only [Lexer.step, hm] at h
    exact stepPlain_adds l l' c hm h
  | single =>
    simp only [Lexer.step, hm] at h
    split at h
    · rename_i hc
      obtain rfl := Option.some.inj h
      subst hc
      exact ⟨[], .closeSingle, by simp [Lexer.chars]⟩
    · rename_i hc
      obtain rfl := Option.some.inj h
      exact ⟨[c], by simp only [Lexer.push, hm]; exact .single c hc, chars_push l c⟩
  | double =>
    simp only [Lexer.step, hm] at h
    split at h
    · rename_i hc
      obtain rfl := Option.some.inj h
      subst hc
      exact ⟨[], .closeDouble, by simp [Lexer.chars]⟩
    split at h
    · rename_i hc
      obtain rfl := Option.some.inj h
      subst hc
      exact ⟨[], .doubleEscape, by simp [Lexer.chars]⟩
    split at h
    · exact absurd h (by simp)
    · obtain rfl := Option.some.inj h
      exact ⟨[c], by simp only [Lexer.push, hm]; exact .double c, chars_push l c⟩
  | escaped =>
    simp only [Lexer.step, hm] at h
    split at h
    · obtain rfl := Option.some.inj h
      exact ⟨[], .joined c, by simp [Lexer.chars]⟩
    · obtain rfl := Option.some.inj h
      exact ⟨[c], .escaped c, chars_push l c⟩
  | doubleEscaped =>
    simp only [Lexer.step, hm] at h
    split at h
    · obtain rfl := Option.some.inj h
      exact ⟨[], .doubleJoined c, by simp [Lexer.chars]⟩
    split at h
    · obtain rfl := Option.some.inj h
      exact ⟨[c], .doubleEscaped c, chars_push l c⟩
    · obtain rfl := Option.some.inj h
      refine ⟨['\\', c], .doubleKept c, ?_⟩
      have h2 : ((l.push '\\').push c).chars = l.chars ++ ['\\', c] := by
        rw [chars_push, chars_push, List.append_assoc]
        rfl
      exact h2

/-! ### Counting characters -/

def Mode.pending (p : Char → Bool) : Mode → ℕ
  | .escaped | .doubleEscaped => if p '\\' then 1 else 0
  | _ => 0

/-- The characters in `p` read so far that are still there or may yet be kept. -/
def Lexer.load (p : Char → Bool) (l : Lexer) : ℕ := l.chars.countP p + l.mode.pending p

theorem adds_load (p : Char → Bool) {m m' : Mode} {c : Char} {w : Str} (h : Adds m c w m') :
    w.countP p + m'.pending p ≤ m.pending p + [c].countP p := by
  cases h <;> (simp [Mode.pending, List.countP_cons]; try omega)

theorem step_load (p : Char → Bool) (l l' : Lexer) (c : Char) (h : l.step c = some l') :
    l'.load p ≤ l.load p + [c].countP p := by
  obtain ⟨w, hadds, hchars⟩ := step_adds l l' c h
  have hle := adds_load p hadds
  rw [Lexer.load, Lexer.load, hchars, List.countP_append]
  omega

/-- The characters in `p` number at most `n`, and fewer where a double quote is open
or a single quote has been kept. -/
structure Lexer.Loses (p : Char → Bool) (n : ℕ) (l : Lexer) : Prop where
  le : l.load p ≤ n
  lt : l.mode = .double ∨ l.mode = .doubleEscaped ∨ '\'' ∈ l.chars → l.load p < n

/-- A single quote is kept, or a double quote opened, only inside double quotes or at
the cost of a character in `p`. -/
theorem adds_cost (p : Char → Bool) (hq : p '"' = true) (hb : p '\\' = true) {m m' : Mode}
    {c : Char} {w : Str} (h : Adds m c w m')
    (hk : m' = .double ∨ m' = .doubleEscaped ∨ '\'' ∈ w) :
    (m = .double ∨ m = .doubleEscaped) ∨
      w.countP p + m'.pending p < m.pending p + [c].countP p := by
  cases h with
  | double c => exact Or.inl (Or.inl rfl)
  | doubleEscape => exact Or.inl (Or.inl rfl)
  | doubleEscaped c => exact Or.inl (Or.inr rfl)
  | doubleKept c => exact Or.inl (Or.inr rfl)
  | doubleJoined c => exact Or.inl (Or.inr rfl)
  | openDouble => simp [Mode.pending, hq]
  | escaped c =>
    right
    simp only [Mode.pending, hb, if_true]
    omega
  | plain c hc => simp [Ne.symm hc] at hk
  | single c hc => simp [Ne.symm hc] at hk
  | blank c => simp at hk
  | openSingle => simp at hk
  | escape => simp at hk
  | joined c => simp at hk
  | closeSingle => simp at hk
  | closeDouble => simp at hk

/-- To keep a single quote the text spends a double quote or a backslash. -/
theorem step_loses (p : Char → Bool) (hq : p '"' = true) (hb : p '\\' = true) (n : ℕ)
    (l l' : Lexer) (c : Char) (h : l.step c = some l') (hl : l.Loses p n) :
    l'.Loses p (n + [c].countP p) := by
  have hstep := step_load p l l' c h
  have hle := hl.le
  refine ⟨by omega, fun hcase => ?_⟩
  obtain ⟨w, hadds, hchars⟩ := step_adds l l' c h
  rw [hchars, List.mem_append] at hcase
  -- kept before, or by this character: inside open double quotes or at a price
  have hbefore : '\'' ∈ l.chars ∨ l'.mode = .double ∨ l'.mode = .doubleEscaped ∨ '\'' ∈ w := by
    tauto
  rcases hbefore with hmem | hnow
  · have hlt := hl.lt (Or.inr (Or.inr hmem))
    omega
  · rcases adds_cost p hq hb hadds hnow with hm | hcost
    · have hlt := hl.lt (hm.elim Or.inl fun h => Or.inr (Or.inl h))
      omega
    · unfold Lexer.load at hle ⊢
      rw [hchars, List.countP_append]
      omega

theorem run_loses (p : Char → Bool) (hq : p '"' = true) (hb : p '\\' = true) (n : ℕ)
    (l l' : Lexer) (text : Str) (h : l.run text = some l') (hl : l.Loses p n) :
    l'.Loses p (n + text.countP p) := by
  induction text generalizing l n with
  | nil =>
    obtain rfl := Option.some.inj h
    exact hl
  | cons c text ih =>
    rw [Lexer.run, List.foldlM_cons] at h
    obtain ⟨l1, h1, h2⟩ := Option.bind_eq_some_iff.mp h
    have hnext := ih _ l1 h2 (step_loses p hq hb n l l1 c h1 hl)
    have hsum : n + [c].countP p + text.countP p = n + (c :: text).countP p := by
      simp only [List.countP_cons, List.countP_nil]
      omega
    rw [hsum] at hnext
    exact hnext

theorem run_load (p : Char → Bool) (l l' : Lexer) (text : Str) (h : l.run text = some l') :
    l'.load p ≤ l.load p + text.countP p := by
  induction text generalizing l with
  | nil =>
    obtain rfl := Option.some.inj h
    exact Nat.le_add_right _ _
  | cons c text ih =>
    rw [Lexer.run, List.foldlM_cons] at h
    obtain ⟨l1, h1, h2⟩ := Option.bind_eq_some_iff.mp h
    have hstep := step_load p l l1 c h1
    have hrest := ih l1 h2
    simp only [List.countP_cons, List.countP_nil] at hstep ⊢
    omega

theorem finish_chars (p : Char → Bool) (l : Lexer) (toks : List Tok) (h : l.finish = some toks) :
    (toks.flatMap Tok.text).countP p = l.load p ∧
      ('\'' ∈ toks.flatMap Tok.text → '\'' ∈ l.chars) := by
  have hemit : ∀ l : Lexer, l.emit.toks.flatMap Tok.text = l.chars := by
    intro l
    rw [← chars_emit l, Lexer.chars, emit_cur]
    simp
  cases hm : l.mode with
  | plain =>
    simp only [Lexer.finish, hm] at h
    obtain rfl := Option.some.inj h
    rw [hemit, Lexer.load, hm]
    exact ⟨rfl, id⟩
  | escaped =>
    simp only [Lexer.finish, hm] at h
    obtain rfl := Option.some.inj h
    rw [hemit, chars_push, Lexer.load, hm]
    refine ⟨by simp [Mode.pending], fun h => ?_⟩
    simpa using h
  | single => simp [Lexer.finish, hm] at h
  | double => simp [Lexer.finish, hm] at h
  | doubleEscaped => simp [Lexer.finish, hm] at h

/-! ### Words of a pipeline -/

def wordChars (cs : List Command) : Str := (cs.flatMap Command.words).flatten

theorem sublist_wordChars {cs : List Command} {c : Command} {w : Str} (hc : c ∈ cs)
    (hw : w ∈ c.words) : w.Sublist (wordChars cs) :=
  List.sublist_flatten_of_mem (List.mem_flatMap.mpr ⟨c, hc, hw⟩)

theorem parse_countP (p : Char → Bool) (toks : List Tok) (cs : List Command)
    (h : parse toks = some cs) :
    (wordChars cs).countP p ≤ (toks.flatMap Tok.text).countP p := by
  have hword : ∀ w cs, (wordChars (addWord w cs)).countP p = w.countP p + (wordChars cs).countP p := by
    intro w cs
    cases cs <;> simp [wordChars, addWord]
  have hredirect : ∀ fd t cs, (wordChars (addRedirect fd t cs)).countP p =
      (wordChars cs).countP p := by
    intro fd t cs
    cases cs <;> simp [wordChars, addRedirect]
  induction toks using parse.induct generalizing cs with
  | case1 =>
    obtain rfl := Option.some.inj h
    exact Nat.le_refl _
  | case2 rest ih =>
    obtain ⟨cs', hcs, rfl⟩ := Option.map_eq_some_iff.mp h
    exact ih cs' hcs
  | case3 w rest ih =>
    obtain ⟨cs', hcs, rfl⟩ := Option.map_eq_some_iff.mp h
    have hle := ih cs' hcs
    rw [hword, List.flatMap_cons, Tok.text, List.countP_append]
    omega
  | case4 fd target rest ih =>
    obtain ⟨cs', hcs, rfl⟩ := Option.map_eq_some_iff.mp h
    have hle := ih cs' hcs
    rw [hredirect, List.flatMap_cons, List.flatMap_cons, List.countP_append, List.countP_append]
    omega
  | case5 fd rest hno => simp [parse] at h

theorem pipeline_eq_some {text : Str} {cs : List Command} (h : pipeline text = some cs) :
    ∃ toks l, Lexer.start.run text = some l ∧ l.finish = some toks ∧ parse toks = some cs := by
  obtain ⟨hbind, _⟩ := Option.filter_eq_some_iff.mp h
  obtain ⟨toks, hlex, hparse⟩ := Option.bind_eq_some_iff.mp hbind
  obtain ⟨l, hrun, hfinish⟩ := Option.bind_eq_some_iff.mp hlex
  exact ⟨toks, l, hrun, hfinish, hparse⟩

/-- The words of a pipeline hold no more of a character than its text. -/
theorem pipeline_countP_le (p : Char → Bool) (text : Str) (cs : List Command)
    (h : pipeline text = some cs) : (wordChars cs).countP p ≤ text.countP p := by
  obtain ⟨toks, l, hrun, hfinish, hparse⟩ := pipeline_eq_some h
  have hwords := parse_countP p toks cs hparse
  have hload := run_load p _ l text hrun
  have hstart : Lexer.start.load p = 0 := rfl
  rw [(finish_chars p l toks hfinish).1] at hwords
  omega

/-- With a single quote in a word, they hold fewer double quotes and backslashes. -/
theorem pipeline_countP_lt (p : Char → Bool) (hq : p '"' = true) (hb : p '\\' = true) (text : Str)
    (cs : List Command) (h : pipeline text = some cs) (hk : '\'' ∈ wordChars cs) :
    (wordChars cs).countP p < text.countP p := by
  obtain ⟨toks, l, hrun, hfinish, hparse⟩ := pipeline_eq_some h
  have hwords := parse_countP p toks cs hparse
  have hkept : '\'' ∈ toks.flatMap Tok.text := by
    have hle := parse_countP (· == '\'') toks cs hparse
    have hpos : 0 < (wordChars cs).countP (· == '\'') :=
      List.countP_pos_iff.mpr ⟨'\'', hk, by decide⟩
    obtain ⟨c, hc, heq⟩ := List.countP_pos_iff.mp (Nat.lt_of_lt_of_le hpos hle)
    rwa [beq_iff_eq.mp heq] at hc
  obtain ⟨hcount, hmem⟩ := finish_chars p l toks hfinish
  have hloses := run_loses p hq hb 0 _ l text hrun
    ⟨Nat.le_refl _, fun h => by simp [Lexer.start, Lexer.chars] at h⟩
  have hlt := hloses.lt (Or.inr (Or.inr (hmem hkept)))
  omega

/-! ### Reading plain command lines -/

theorem run_append (l : Lexer) (a b : Str) : l.run (a ++ b) = (l.run a).bind fun l => l.run b :=
  List.foldlM_append ..

theorem run_single (w text : Str) (q : Bool) (toks : List Tok) (h : '\'' ∉ text) :
    Lexer.run ⟨.single, some w, q, toks⟩ text = some ⟨.single, some (w ++ text), q, toks⟩ := by
  induction text generalizing w with
  | nil => simp [Lexer.run]
  | cons c text ih =>
    have hc : c ≠ '\'' := fun hc => h (by rw [hc]; exact List.mem_cons_self ..)
    have hstep : Lexer.step ⟨.single, some w, q, toks⟩ c =
        some ⟨.single, some (w ++ [c]), q, toks⟩ := by
      simp only [Lexer.step, if_neg hc, Lexer.push, Option.getD_some]
    rw [Lexer.run, List.foldlM_cons, hstep]
    have hrest := ih (w ++ [c]) fun hm => h (List.mem_cons_of_mem _ hm)
    rw [List.append_assoc] at hrest
    exact hrest

def quoted (args : List Str) : Str := args.flatMap fun a => " '".toList ++ a ++ "'".toList

theorem countP_quoted (p : Char → Bool) (hs : p ' ' = false) (hq : p '\'' = false)
    (args : List Str) : (quoted args).countP p = args.flatten.countP p := by
  induction args with
  | nil => rfl
  | cons a args ih =>
    have hopen : (" '".toList).countP p = 0 := by simp [hs, hq]
    have hclose : ("'".toList).countP p = 0 := by simp [hq]
    rw [quoted, List.flatMap_cons, List.flatten_cons]
    simp only [List.countP_append, hopen, hclose]
    rw [quoted] at ih
    omega

theorem length_quoted (args : List Str) :
    (quoted args).length = args.flatten.length + 3 * args.length := by
  induction args with
  | nil => rfl
  | cons a args ih =>
    have hquotes : " '".toList.length + "'".toList.length = 3 := rfl
    rw [quoted, List.flatMap_cons, List.flatten_cons]
    rw [quoted] at ih
    simp only [List.length_append, List.length_cons] at ih ⊢
    omega

theorem run_quoted (l : Lexer) (args : List Str) (hm : l.mode = .plain)
    (h : ∀ a ∈ args, '\'' ∉ a) :
    ∃ l', l.run (quoted args) = some l' ∧ l'.mode = .plain ∧
      l'.emit.toks = l.emit.toks ++ args.map .word := by
  induction args generalizing l with
  | nil => exact ⟨l, rfl, hm, by simp⟩
  | cons a args ih =>
    have hopen : l.run " '".toList = some ⟨.single, some [], true, l.emit.toks⟩ := by
      have h1 : l.step ' ' = some l.emit := by
        simp only [Lexer.step, hm, Lexer.stepPlain]
        rfl
      have h2 : l.emit.step '\'' = some ⟨.single, some [], true, l.emit.toks⟩ := by
        simp only [Lexer.step, emit_mode, hm, Lexer.stepPlain, if_true, Lexer.openQuote, emit_cur,
          Option.getD_none]
      change (l.step ' ').bind (fun l => (l.step '\'').bind some) = _
      rw [h1, Option.bind_some, h2]
      rfl
    have hbody := run_single [] a true l.emit.toks (h a (List.mem_cons_self ..))
    have hclose : Lexer.run ⟨.single, some a, true, l.emit.toks⟩ "'".toList =
        some ⟨.plain, some a, true, l.emit.toks⟩ := rfl
    obtain ⟨l', hrun, hmode, htoks⟩ := ih ⟨.plain, some a, true, l.emit.toks⟩ rfl
      fun b hb => h b (List.mem_cons_of_mem _ hb)
    refine ⟨l', ?_, hmode, ?_⟩
    · rw [quoted, List.flatMap_cons, run_append, run_append, run_append, hopen, Option.bind_some,
        hbody, Option.bind_some, List.nil_append, hclose, Option.bind_some]
      exact hrun
    · rw [htoks]
      simp [Lexer.emit]

/-- The tokens before a state do not matter to what follows. -/
def Lexer.after (before : List Tok) (l : Lexer) : Lexer := { l with toks := before ++ l.toks }

theorem emit_after (before : List Tok) (l : Lexer) :
    (l.after before).emit = l.emit.after before := by
  obtain ⟨mode, cur, q, toks⟩ := l
  cases cur <;> simp [Lexer.emit, Lexer.after]

theorem stepPlain_after (before : List Tok) (l : Lexer) (c : Char) :
    (l.after before).stepPlain c = (l.stepPlain c).map (Lexer.after before) := by
  have hemit := emit_after before l
  have hfd : (l.after before).isFd = l.isFd := rfl
  have hcur : (l.after before).cur = l.cur := rfl
  unfold Lexer.stepPlain
  simp only [hemit, hfd, hcur]
  split_ifs <;> simp only [Option.map_some, Option.map_none, Option.some.injEq] <;>
    simp only [Lexer.after, Lexer.openQuote, Lexer.push, List.append_assoc]

theorem step_after (before : List Tok) (l : Lexer) (c : Char) :
    (l.after before).step c = (l.step c).map (Lexer.after before) := by
  have hplain := stepPlain_after before l c
  obtain ⟨mode, cur, q, toks⟩ := l
  cases mode with
  | plain => exact hplain
  | single =>
    simp only [Lexer.step, Lexer.after, Lexer.push]
    split_ifs <;> rfl
  | double =>
    simp only [Lexer.step, Lexer.after, Lexer.push]
    split_ifs <;> rfl
  | escaped =>
    simp only [Lexer.step, Lexer.after, Lexer.push]
    split_ifs <;> rfl
  | doubleEscaped =>
    simp only [Lexer.step, Lexer.after, Lexer.push]
    split_ifs <;> rfl

theorem run_after (before : List Tok) (l : Lexer) (text : Str) :
    (l.after before).run text = (l.run text).map (Lexer.after before) := by
  induction text generalizing l with
  | nil => rfl
  | cons c text ih =>
    rw [Lexer.run, Lexer.run, List.foldlM_cons, List.foldlM_cons, step_after]
    cases l.step c with
    | none => rfl
    | some l1 => exact ih l1

theorem finish_after (before : List Tok) (l : Lexer) :
    (l.after before).finish = l.finish.map (before ++ ·) := by
  have hemit : (l.after before).emit.toks = before ++ l.emit.toks := by
    rw [emit_after]
    rfl
  obtain ⟨mode, cur, q, toks⟩ := l
  cases mode with
  | plain => exact congrArg some hemit
  | escaped => simp [Lexer.finish, Lexer.after, Lexer.push, Lexer.emit]
  | single => rfl
  | double => rfl
  | doubleEscaped => rfl

@[simp] theorem parse_words (ws : List Str) : parse (ws.map .word) = some [⟨ws, []⟩] := by
  induction ws with
  | nil => rfl
  | cons w ws ih =>
    rw [List.map_cons, parse, ih]
    rfl

theorem pipeline_words (text : Str) (l : Lexer) (w : Str) (ws : List Str)
    (hrun : Lexer.start.run text = some l) (hmode : l.mode = .plain)
    (htoks : l.emit.toks = (w :: ws).map .word) : pipeline text = some [⟨w :: ws, []⟩] := by
  have hfinish : l.finish = some ((w :: ws).map .word) := by
    simp only [Lexer.finish, hmode, htoks]
  rw [pipeline, lex, hrun, Option.bind_some, hfinish, Option.bind_some, parse_words]
  rfl

end Sysmngr.Shell
