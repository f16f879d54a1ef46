import Sysmngr.Shell

/-!
# Unquoted text on a command line

What a program prints into a command line without quotes is one word of it as it
stands exactly when every character is plain: a blank ends the word, and any other
character that is not plain is lost or makes the line something else.
-/

namespace Sysmngr.Shell
open Text

/-! ### Plain words -/

def blank (c : Char) : Bool := c ∈ [' ', '\t']

/-- Unquoted, these are neither kept nor blanks. -/
def special (c : Char) : Bool := c ∈ ['\'', '"', '\\', '|', '>'] || unread c

/-- The characters that stand for themselves wherever they are in a word. -/
def plainChar (c : Char) : Bool := !(blank c || special c)

def plainWord (w : Str) : Bool :=
  w.all plainChar && w.head?.any fun c => !unreadFirst c

def unquoted (args : List Str) : Str := args.flatMap fun a => ' ' :: a

theorem step_plainChar (l : Lexer) (c : Char) (hm : l.mode = .plain) (h : plainChar c = true)
    (hfirst : l.cur = none → unreadFirst c = false) : l.step c = some (l.push c) := by
  simp only [plainChar, blank, special, Bool.not_eq_true', Bool.or_eq_false_iff,
    decide_eq_false_iff_not, List.mem_cons, List.not_mem_nil, or_false, not_or] at h
  obtain ⟨⟨hspace, htab⟩, ⟨hsingle, hdouble, hescape, hbar, hright⟩, hunread⟩ := h
  have hcur : (l.cur.isNone && unreadFirst c) = false := by
    cases hl : l.cur with
    | none => rw [hfirst hl, Bool.and_false]
    | some w => rfl
  simp only [Lexer.step, hm, Lexer.stepPlain, if_neg hsingle, if_neg hdouble, if_neg hescape,
    if_neg (not_or.mpr ⟨hspace, htab⟩), if_neg hbar, if_neg hright, hunread, hcur, Bool.or_false,
    Bool.false_eq_true, if_false]

theorem run_plainChars (w text : Str) (q : Bool) (toks : List Tok)
    (h : ∀ c ∈ text, plainChar c = true) :
    Lexer.run ⟨.plain, some w, q, toks⟩ text = some ⟨.plain, some (w ++ text), q, toks⟩ := by
  induction text generalizing w with
  | nil => simp [Lexer.run]
  | cons c text ih =>
    have hstep := step_plainChar ⟨.plain, some w, q, toks⟩ c rfl (h c (List.mem_cons_self ..))
      (by simp)
    have hrest := ih (w ++ [c]) fun d hd => h d (List.mem_cons_of_mem _ hd)
    rw [List.append_assoc] at hrest
    rw [Lexer.run, List.foldlM_cons, hstep]
    exact hrest

theorem run_unquoted (l : Lexer) (args : List Str) (hm : l.mode = .plain)
    (h : ∀ a ∈ args, plainWord a = true) :
    ∃ l', l.run (unquoted args) = some l' ∧ l'.mode = .plain ∧
      l'.emit.toks = l.emit.toks ++ args.map .word := by
  induction args generalizing l with
  | nil => exact ⟨l, rfl, hm, by simp⟩
  | cons a args ih =>
    have ha := h a (List.mem_cons_self ..)
    obtain ⟨c, a, rfl⟩ : ∃ c b, a = c :: b := by
      cases a with
      | nil => simp [plainWord] at ha
      | cons c b => exact ⟨c, b, rfl⟩
    simp only [plainWord, List.all_cons, List.head?_cons, Option.any_some, Bool.and_eq_true,
      Bool.not_eq_true', List.all_eq_true] at ha
    obtain ⟨⟨hc, hchars⟩, hfirst⟩ := ha
    have hblank : l.step ' ' = some l.emit := by
      simp only [Lexer.step, hm, Lexer.stepPlain]
      rfl
    have hpush : l.emit.step c = some ⟨.plain, some [c], l.emit.quoted, l.emit.toks⟩ := by
      rw [step_plainChar l.emit c (by rw [emit_mode, hm]) hc fun _ => hfirst, Lexer.push, emit_cur,
        emit_mode, hm]
      rfl
    have hbody := run_plainChars [c] a l.emit.quoted l.emit.toks hchars
    obtain ⟨l', hrun, hmode, htoks⟩ := ih ⟨.plain, some (c :: a), l.emit.quoted, l.emit.toks⟩ rfl
      fun b hb => h b (List.mem_cons_of_mem _ hb)
    refine ⟨l', ?_, hmode, ?_⟩
    · have hword : l.run (' ' :: c :: a) =
          some ⟨.plain, some (c :: a), l.emit.quoted, l.emit.toks⟩ := by
        rw [Lexer.run, List.foldlM_cons, hblank]
        change (l.emit.step c).bind (fun l => l.run a) = _
        rw [hpush, Option.bind_some, hbody]
        rfl
      rw [unquoted, List.flatMap_cons, run_append, hword, Option.bind_some]
      exact hrun
    · rw [htoks]
      simp [Lexer.emit]

/-! ### Characters that are not plain -/

/-- A special character in plain text is not kept: it is lost at once or, a backslash,
with the character after it. -/
theorem step_special (l l' : Lexer) (c : Char) (hm : l.mode = .plain) (hc : special c = true)
    (h : l.step c = some l') :
    l'.chars = l.chars ∧ (l'.mode = .escaped → c = '\\') ∧ l'.mode ≠ .doubleEscaped := by
  have hkeep : ∀ toks, (l.emit.toks ++ toks).flatMap Tok.text ++ l.emit.cur.getD [] =
      l.chars ++ toks.flatMap Tok.text := by
    intro toks
    have he := chars_emit l
    simp only [Lexer.chars, emit_cur, Option.getD_none, List.append_nil] at he ⊢
    rw [List.flatMap_append, he]
  simp only [Lexer.step, hm, Lexer.stepPlain] at h
  split at h
  · obtain rfl := Option.some.inj h
    simp [Lexer.chars, Lexer.openQuote]
  split at h
  · obtain rfl := Option.some.inj h
    simp [Lexer.chars, Lexer.openQuote]
  split at h
  · rename_i hescape
    obtain rfl := Option.some.inj h
    simp [Lexer.chars, hescape]
  split at h
  · obtain rfl := Option.some.inj h
    rw [chars_emit, emit_mode, hm]
    simp
  split at h
  · obtain rfl := Option.some.inj h
    exact ⟨(hkeep [.pipe]).trans (by simp [Tok.text]), by simp [emit_mode, hm]⟩
  split at h
  · split at h
    · obtain rfl := Option.some.inj h
      simp [Lexer.chars, Tok.text]
    · obtain rfl := Option.some.inj h
      exact ⟨(hkeep [.redirect []]).trans (by simp [Tok.text]), by simp [emit_mode, hm]⟩
  · rename_i hsingle hdouble hescape _ hbar hright
    simp only [special, hsingle, hdouble, hescape, hbar, hright, List.mem_cons, List.not_mem_nil,
      or_false, decide_false, Bool.false_or] at hc
    simp [hc] at h

/-- After a special character that is not the last, one of its kind is missing. -/
theorem run_special (l l' : Lexer) (c : Char) (text : Str) (hm : l.mode = .plain)
    (hc : special c = true) (hne : text ≠ []) (h : l.run (c :: text) = some l') :
    l'.load (· == c) ≤ l.load (· == c) + text.countP (· == c) := by
  rw [Lexer.run, List.foldlM_cons] at h
  obtain ⟨l1, h1, h2⟩ := Option.bind_eq_some_iff.mp h
  obtain ⟨hchars, hescaped, hdouble⟩ := step_special l l1 c hm hc h1
  by_cases hmode : l1.mode = .escaped
  · obtain rfl := hescaped hmode
    obtain ⟨d, rest, rfl⟩ := List.exists_cons_of_ne_nil hne
    rw [List.foldlM_cons] at h2
    obtain ⟨l2, hstep, hrest⟩ := Option.bind_eq_some_iff.mp h2
    have hload := run_load (· == '\\') l2 l' rest hrest
    obtain ⟨w, hadds, hadded⟩ := step_adds l1 l2 d hstep
    rw [hmode] at hadds
    have hlost : l2.load (· == '\\') ≤ l.load (· == '\\') + [d].countP (· == '\\') := by
      have hpending : ∀ m m', Adds .escaped d w m' → m = m'.pending (· == '\\') →
          w.countP (· == '\\') + m ≤ [d].countP (· == '\\') := by
        rintro m m' h rfl
        cases h <;> simp [Mode.pending]
      have hle := hpending _ _ hadds rfl
      rw [Lexer.load, Lexer.load, hadded, hchars, hm, List.countP_append]
      omega
    simp only [List.countP_cons, List.countP_nil] at hlost ⊢
    omega
  · have hload := run_load (· == c) l1 l' text h2
    have hsame : l1.load (· == c) = l.load (· == c) := by
      have hpending : l1.mode.pending (· == c) = 0 := by
        cases hl : l1.mode <;> simp_all [Mode.pending]
      rw [Lexer.load, Lexer.load, hchars, hpending, hm]
      rfl
    omega

theorem parse_ne_nil (toks : List Tok) : parse toks ≠ some [] := by
  intro h
  have hword : ∀ w cs, addWord w cs ≠ [] := by
    intro w cs
    cases cs <;> simp [addWord]
  have hredirect : ∀ fd t cs, addRedirect fd t cs ≠ [] := by
    intro fd t cs
    cases cs <;> simp [addRedirect]
  induction toks using parse.induct with
  | case1 => simp [parse] at h
  | case2 rest ih => simp [parse] at h
  | case3 w rest ih => simp [parse, hword] at h
  | case4 fd target rest ih => simp [parse, hredirect] at h
  | case5 fd rest hno => simp [parse] at h

theorem parse_eq_words (toks : List Tok) (ws : List Str) (h : parse toks = some [⟨ws, []⟩]) :
    toks = ws.map .word := by
  induction toks using parse.induct generalizing ws with
  | case1 =>
    simp only [parse, Option.some.injEq, List.cons.injEq, Command.mk.injEq] at h
    rw [← h.1.1]
    rfl
  | case2 rest ih =>
    obtain ⟨cs, hcs, heq⟩ := Option.map_eq_some_iff.mp h
    obtain rfl := (List.cons.inj heq).2
    exact absurd hcs (parse_ne_nil rest)
  | case3 w rest ih =>
    obtain ⟨cs, hcs, heq⟩ := Option.map_eq_some_iff.mp h
    cases cs with
    | nil => exact absurd hcs (parse_ne_nil rest)
    | cons c cs =>
      simp only [addWord, List.cons.injEq, Command.mk.injEq] at heq
      obtain ⟨⟨rfl, hredirects⟩, rfl⟩ := heq
      obtain ⟨words, redirects⟩ := c
      obtain rfl : redirects = [] := hredirects
      rw [ih words hcs]
      rfl
  | case4 fd target rest ih =>
    obtain ⟨cs, hcs, heq⟩ := Option.map_eq_some_iff.mp h
    cases cs <;> simp [addRedirect] at heq
  | case5 fd rest hno => simp [parse] at h

/-! ### A word among plain ones -/

theorem pipeline_plain_word (before text w : Str) (ws vs : List Str)
    (hbefore : Lexer.start.run before = some ⟨.plain, some w, false, ws.map .word⟩)
    (hvs : ∀ v ∈ vs, plainWord v = true) (htext : ∀ c ∈ text, plainChar c = true) :
    pipeline (before ++ text ++ unquoted vs) = some [⟨ws ++ (w ++ text) :: vs, []⟩] := by
  obtain ⟨l, hrun, hmode, htoks⟩ :=
    run_unquoted ⟨.plain, some (w ++ text), false, ws.map .word⟩ vs rfl hvs
  obtain ⟨x, xs, hwords⟩ := List.exists_cons_of_ne_nil
    (List.append_ne_nil_of_right_ne_nil ws (List.cons_ne_nil (w ++ text) vs))
  rw [hwords]
  refine pipeline_words _ l x xs ?_ hmode ?_
  · rw [run_append, run_append, hbefore, Option.bind_some, run_plainChars _ _ _ _ htext,
      Option.bind_some, hrun]
  · rw [htoks, ← hwords]
    simp [Lexer.emit]

/-- After a special character in a word, the words hold one fewer of it than the text. -/
theorem not_reads_special (before u v w : Str) (c : Char) (ws vs words : List Str)
    (hbefore : Lexer.start.run before = some ⟨.plain, some w, false, ws.map .word⟩)
    (hu : ∀ c ∈ u, plainChar c = true) (hc : special c = true) (hne : vs ≠ [])
    (h : pipeline (before ++ (u ++ c :: v) ++ unquoted vs) = some [⟨words, []⟩]) :
    words.flatten.countP (· == c) < (before ++ (u ++ c :: v) ++ unquoted vs).countP (· == c) := by
  obtain ⟨toks, l, hrun, hfinish, hparse⟩ := pipeline_eq_some h
  obtain rfl := parse_eq_words toks words hparse
  have hcount := (finish_chars (· == c) l _ hfinish).1
  have hflat : (words.map Tok.word).flatMap Tok.text = words.flatten := by
    rw [List.flatMap_map]
    exact List.flatMap_id
  have hstart : Lexer.start.run (before ++ u) =
      some ⟨.plain, some (w ++ u), false, ws.map .word⟩ := by
    rw [run_append, hbefore, Option.bind_some, run_plainChars _ _ _ _ hu]
  have hload := run_load (· == c) _ _ _ hstart
  have hzero : Lexer.start.load (· == c) = 0 := rfl
  have hsplit : before ++ (u ++ c :: v) ++ unquoted vs =
      (before ++ u) ++ c :: (v ++ unquoted vs) := by simp
  have hrest : v ++ unquoted vs ≠ [] := by
    obtain ⟨x, xs, rfl⟩ := List.exists_cons_of_ne_nil hne
    simp [unquoted]
  rw [hsplit, run_append, hstart, Option.bind_some] at hrun
  have hlost := run_special _ l c _ rfl hc hrest hrun
  rw [hflat] at hcount
  have hone : (c :: (v ++ unquoted vs)).countP (· == c) = (v ++ unquoted vs).countP (· == c) + 1 :=
    List.countP_cons_of_pos (beq_self_eq_true c)
  rw [hsplit, List.countP_append, hone]
  omega

theorem word_of_blank (before u v w x : Str) (c : Char) (ws vs rest : List Str)
    (hbefore : Lexer.start.run before = some ⟨.plain, some w, false, ws.map .word⟩)
    (hu : ∀ c ∈ u, plainChar c = true) (hc : blank c = true)
    (h : pipeline (before ++ (u ++ c :: v) ++ unquoted vs) = some [⟨ws ++ x :: rest, []⟩]) :
    x = w ++ u := by
  obtain ⟨toks, l, hrun, hfinish, hparse⟩ := pipeline_eq_some h
  obtain rfl := parse_eq_words toks _ hparse
  have hblank : Lexer.step ⟨.plain, some (w ++ u), false, ws.map .word⟩ c =
      some (Lexer.start.after ((ws ++ [w ++ u]).map .word)) := by
    simp only [blank, List.mem_cons, List.not_mem_nil, or_false, decide_eq_true_eq] at hc
    rcases hc with rfl | rfl <;>
      simp [Lexer.step, Lexer.stepPlain, Lexer.emit, Lexer.after, Lexer.start]
  have hsplit : before ++ (u ++ c :: v) ++ unquoted vs =
      before ++ (u ++ c :: (v ++ unquoted vs)) := by simp
  rw [hsplit, run_append, hbefore, Option.bind_some, run_append, run_plainChars _ _ _ _ hu,
    Option.bind_some, Lexer.run, List.foldlM_cons, hblank] at hrun
  change (Lexer.start.after _).run _ = _ at hrun
  rw [run_after] at hrun
  obtain ⟨l', _, rfl⟩ := Option.map_eq_some_iff.mp hrun
  rw [finish_after] at hfinish
  obtain ⟨toks, _, htoks⟩ := Option.map_eq_some_iff.mp hfinish
  simp only [List.map_append, List.map_cons, List.map_nil, List.append_assoc, List.cons_append,
    List.append_cancel_left_eq, List.cons.injEq, Tok.word.injEq] at htoks
  exact htoks.1.symm

/-- A text put unquoted into a word is read as it stands exactly when all its characters
are plain. -/
theorem pipeline_word_iff (before text target w : Str) (ws vs : List Str)
    (hbefore : Lexer.start.run before = some ⟨.plain, some w, false, ws.map .word⟩)
    (hclean : ∀ c ∈ before, special c = false) (hvs : ∀ v ∈ vs, plainWord v = true)
    (hne : vs ≠ []) (hpre : text <+: target) :
    pipeline (before ++ text ++ unquoted vs) = some [⟨ws ++ (w ++ target) :: vs, []⟩] ↔
      text = target ∧ ∀ c ∈ text, plainChar c = true := by
  constructor
  · intro h
    have hplain : ∀ c ∈ text, plainChar c = true := by
      by_contra hbad
      have hsome : (text.find? fun c => !plainChar c).isSome :=
        List.find?_isSome.mpr (by simpa using hbad)
      obtain ⟨c, hfirst⟩ := Option.isSome_iff_exists.mp hsome
      obtain ⟨hc, u, v, rfl, hu⟩ := List.find?_eq_some_iff_append.mp hfirst
      simp only [Bool.not_not] at hu
      simp only [plainChar, Bool.not_not, Bool.or_eq_true] at hc
      rcases hc with hc | hc
      · have hword := word_of_blank before u v w _ c ws vs vs hbefore hu hc h
        have hlen := hpre.length_le
        rw [List.append_cancel_left hword] at hlen
        simp only [List.length_append, List.length_cons] at hlen
        omega
      · have hlt := not_reads_special before u v w c ws vs _ hbefore hu hc hne h
        have hprior : before.countP (· == c) = 0 := countP_eq_zero_of_notMem _ _ fun hm => by
          rw [hclean c hm] at hc
          exact absurd hc (by decide)
        have hlater : (unquoted vs).countP (· == c) = 0 := by
          refine countP_eq_zero_of_notMem _ _ fun hm => ?_
          obtain ⟨v, hv, hcv⟩ := List.mem_flatMap.mp hm
          rcases List.mem_cons.mp hcv with rfl | hcv
          · exact absurd hc (by decide)
          · have hword := hvs v hv
            simp only [plainWord, Bool.and_eq_true, List.all_eq_true] at hword
            have hcp := hword.1 c hcv
            simp [plainChar, hc] at hcp
        have hkept : (u ++ c :: v).countP (· == c) ≤ target.countP (· == c) :=
          hpre.sublist.countP_le
        have hwords : target.countP (· == c) ≤
            (ws ++ (w ++ target) :: vs).flatten.countP (· == c) := by
          simp only [List.flatten_append, List.flatten_cons, List.countP_append]
          omega
        rw [List.countP_append, List.countP_append, hprior, hlater] at hlt
        omega
    refine ⟨?_, hplain⟩
    rw [pipeline_plain_word before text w ws vs hbefore hvs hplain] at h
    simpa using h
  · rintro ⟨rfl, hplain⟩
    exact pipeline_plain_word before text w ws vs hbefore hvs hplain

end Sysmngr.Shell
