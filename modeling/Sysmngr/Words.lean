import Mathlib.Algebra.GroupWithZero.Nat
import Mathlib.Data.List.TakeWhile
import Mathlib.Tactic.Common

/-!
# Words between delimiters

The words of a text are its longest stretches without a delimiter, in their order. They
are got by splitting at every delimiter and dropping the empty pieces, or one after the
other as `strtok` does: skip delimiters, take what stands before the next one, go on
behind that.
-/

namespace Sysmngr.Words

variable {α : Type} (p : α → Bool)

def words (s : List α) : List (List α) := (s.splitOnP p).filter fun w => !w.isEmpty

/-- The next word and what is left behind the delimiter that ends it. -/
def nextWord (s : List α) : Option (List α × List α) :=
  match s.dropWhile p with
  | [] => none
  | c :: t => some ((c :: t).takeWhile fun d => !p d, ((c :: t).dropWhile fun d => !p d).drop 1)

@[simp] theorem words_nil : words p [] = [] := rfl

theorem head_of_dropWhile (q : α → Bool) (s : List α) (c : α) (t : List α)
    (h : s.dropWhile q = c :: t) : q c = false := by
  have hhead := List.head?_dropWhile_not q s
  rw [h] at hhead
  exact hhead

theorem takeWhile_word (s : List α) : ∀ c ∈ s.takeWhile fun c => !p c, p c = false := by
  intro c hc
  simpa using List.mem_takeWhile_imp hc

/-- Every text is a word, or a word, a delimiter and a text. -/
theorem break_induction {motive : List α → Prop}
    (last : ∀ w, (∀ c ∈ w, p c = false) → motive w)
    (step : ∀ w d t, (∀ c ∈ w, p c = false) → p d = true → motive t → motive (w ++ d :: t))
    (s : List α) : motive s := by
  generalize hn : s.length = n
  induction n using Nat.strongRecOn generalizing s with
  | ind n ih =>
    have hsplit := List.takeWhile_append_dropWhile (p := fun c => !p c) (l := s)
    have hword := takeWhile_word p s
    cases hrest : s.dropWhile fun c => !p c with
    | nil =>
      rw [hrest, List.append_nil] at hsplit
      rw [← hsplit]
      exact last _ hword
    | cons d t =>
      have hd : p d = true := by simpa using head_of_dropWhile (fun c => !p c) s d t hrest
      have hlt : t.length < n := by
        have hlen := congrArg List.length hsplit
        rw [hrest, List.length_append, List.length_cons] at hlen
        omega
      rw [hrest] at hsplit
      rw [← hsplit]
      exact step _ d t hword hd (ih t.length hlt t rfl)

theorem words_append_break (s : List α) (d : α) (t : List α) (hd : p d = true) :
    words p (s ++ d :: t) = words p s ++ words p t := by
  rw [words, List.splitOnP_append_cons s t hd, List.filter_append]
  rfl

theorem words_word (w : List α) (h : ∀ c ∈ w, p c = false) :
    words p w = if w = [] then [] else [w] := by
  rw [words, List.splitOnP_eq_singleton h]
  cases w <;> rfl

theorem words_cons_break (d : α) (t : List α) (hd : p d = true) : words p (d :: t) = words p t :=
  words_append_break p [] d t hd

theorem words_breaks_append (s t : List α) (h : ∀ c ∈ s, p c = true) :
    words p (s ++ t) = words p t := by
  induction s with
  | nil => rfl
  | cons d s ih =>
    rw [List.cons_append, words_cons_break p d _ (h d (List.mem_cons_self ..)),
      ih fun c hc => h c (List.mem_cons_of_mem _ hc)]

/-- Words with a delimiter behind each read back as themselves. -/
theorem words_flatMap_terminated (d : α) (hd : p d = true) (ws : List (List α))
    (h : ∀ w ∈ ws, w ≠ [] ∧ ∀ c ∈ w, p c = false) : words p (ws.flatMap (· ++ [d])) = ws := by
  induction ws with
  | nil => rfl
  | cons w ws ih =>
    obtain ⟨hne, hclean⟩ := h w (List.mem_cons_self ..)
    rw [List.flatMap_cons, List.append_assoc, List.singleton_append,
      words_append_break p w d _ hd, words_word p w hclean, if_neg hne,
      ih fun v hv => h v (List.mem_cons_of_mem _ hv), List.singleton_append]

theorem intercalate_terminated (d : α) (ws : List (List α)) (h : ws ≠ []) :
    [d].intercalate ws ++ [d] = ws.flatMap (· ++ [d]) := by
  induction ws with
  | nil => exact absurd rfl h
  | cons w ws ih =>
    rw [List.flatMap_cons]
    cases ws with
    | nil => rw [List.intercalate_singleton, List.flatMap_nil, List.append_nil]
    | cons v ws =>
      rw [List.intercalate_cons_of_ne_nil (List.cons_ne_nil v ws), List.append_assoc,
        List.append_assoc, ih (List.cons_ne_nil v ws), List.append_assoc]

/-- Joined words tell the words they are joined of. -/
theorem intercalate_inj (d : α) (hd : p d = true) (vs ws : List (List α))
    (hv : ∀ w ∈ vs, w ≠ [] ∧ ∀ c ∈ w, p c = false) (hw : ∀ w ∈ ws, w ≠ [] ∧ ∀ c ∈ w, p c = false)
    (h : [d].intercalate vs = [d].intercalate ws) : vs = ws := by
  have hread : ∀ us : List (List α), (∀ w ∈ us, w ≠ [] ∧ ∀ c ∈ w, p c = false) →
      words p ([d].intercalate us) = us := by
    intro us hus
    by_cases hnil : us = []
    · rw [hnil, List.intercalate_nil, words_nil]
    · have hterminated := words_flatMap_terminated p d hd us hus
      rw [← intercalate_terminated d us hnil, words_append_break p _ d [] hd, words_nil,
        List.append_nil] at hterminated
      exact hterminated
  rw [← hread vs hv, ← hread ws hw, h]

theorem words_eq_nextWord (s : List α) :
    words p s =
      match nextWord p s with
      | none => []
      | some (w, rest) => w :: words p rest := by
  have hskip : words p s = words p (s.dropWhile p) := by
    conv_lhs => rw [← List.takeWhile_append_dropWhile (p := p) (l := s)]
    exact words_breaks_append p _ _ fun c hc => List.mem_takeWhile_imp hc
  rw [hskip, nextWord]
  cases hrest : s.dropWhile p with
  | nil => rfl
  | cons c t =>
    have hc : p c = false := head_of_dropWhile p s c t hrest
    have hne : ((c :: t).takeWhile fun d => !p d) ≠ [] := by
      rw [List.takeWhile_cons, hc]
      exact List.cons_ne_nil _ _
    have hword := takeWhile_word p (c :: t)
    conv_lhs => rw [← List.takeWhile_append_dropWhile (p := fun d => !p d) (l := c :: t)]
    cases hbreak : (c :: t).dropWhile fun d => !p d with
    | nil =>
      simp only [List.append_nil, words_word p _ hword, if_neg hne, hbreak, List.drop_nil,
        words_nil]
    | cons d r =>
      have hd : p d = true := by
        simpa using head_of_dropWhile (fun d => !p d) (c :: t) d r hbreak
      simp only [words_append_break p _ d r hd, words_word p _ hword, if_neg hne, hbreak,
        List.singleton_append, List.drop_succ_cons, List.drop_zero]

theorem nextWord_skip (s t : List α) (h : ∀ c ∈ s, p c = true) :
    nextWord p (s ++ t) = nextWord p t := by
  rw [nextWord, nextWord, List.dropWhile_append_of_pos h]

theorem nextWord_of_head (c : α) (t : List α) (hc : p c = false) :
    nextWord p (c :: t) = some ((c :: t).takeWhile fun d => !p d,
      ((c :: t).dropWhile fun d => !p d).drop 1) := by
  rw [nextWord, List.dropWhile_cons, hc]
  rfl

theorem nextWord_append_break (w : List α) (d : α) (t : List α) (hne : w ≠ [])
    (hw : ∀ c ∈ w, p c = false) (hd : p d = true) : nextWord p (w ++ d :: t) = some (w, t) := by
  obtain ⟨c, v, rfl⟩ := List.exists_cons_of_ne_nil hne
  have hc : p c = false := hw c (List.mem_cons_self ..)
  have hclean : ∀ x ∈ c :: v, (!p x) = true := fun x hx => by rw [hw x hx]; rfl
  have hend : (!p d) = false := by rw [hd]; rfl
  have hword : (c :: v ++ d :: t).takeWhile (fun x => !p x) = c :: v := by
    rw [List.takeWhile_append_of_pos hclean, List.takeWhile_cons, hend, if_neg Bool.false_ne_true,
      List.append_nil]
  have hrest : (c :: v ++ d :: t).dropWhile (fun x => !p x) = d :: t := by
    rw [List.dropWhile_append_of_pos hclean, List.dropWhile_cons, hend,
      if_neg Bool.false_ne_true]
  rw [List.cons_append, nextWord_of_head p c _ hc, ← List.cons_append, hword, hrest]
  rfl

theorem nextWord_shorter (s w rest : List α) (h : nextWord p s = some (w, rest)) :
    rest.length < s.length := by
  have hskip := (List.dropWhile_sublist (l := s) p).length_le
  unfold nextWord at h
  split at h
  · exact absurd h (by simp)
  · rename_i c t hrest
    have hc : p c = false := head_of_dropWhile p s c t hrest
    rw [hrest, List.length_cons] at hskip
    obtain ⟨-, rfl⟩ := Prod.mk.inj (Option.some.inj h)
    have htail := (List.dropWhile_sublist (l := t) fun d => !p d).length_le
    rw [List.dropWhile_cons, hc, Bool.not_false, if_pos rfl, List.length_drop]
    omega

/-- The loop of `strtok` calls, with what is done for each word. -/
def foldWords {σ : Type} (f : σ → List α → σ) (state : σ) (s : List α) : σ :=
  match _ : nextWord p s with
  | none => state
  | some (w, rest) => foldWords f (f state w) rest
termination_by s.length
decreasing_by exact nextWord_shorter p s w rest (by assumption)

theorem foldWords_eq {σ : Type} (f : σ → List α → σ) (state : σ) (s : List α) :
    foldWords p f state s = (words p s).foldl f state := by
  induction state, s using foldWords.induct p f with
  | case1 state s h =>
    rw [foldWords, words_eq_nextWord]
    split <;> simp_all
  | case2 state s w rest h ih =>
    rw [foldWords, words_eq_nextWord]
    split <;> simp_all

/-- Two selections of the same words agree word by word if neither leaves out what the
other takes. -/
theorem filterMap_eq_pointwise {β : Type} {f g : α → Option β} {l : List α}
    (hsome : ∀ a ∈ l, (g a).isSome → (f a).isSome) (h : l.filterMap f = l.filterMap g) :
    ∀ a ∈ l, f a = g a := by
  have hlength : ∀ l : List α, (∀ a ∈ l, (g a).isSome → (f a).isSome) →
      (l.filterMap g).length ≤ (l.filterMap f).length := by
    intro l hl
    rw [List.length_filterMap_eq_countP, List.length_filterMap_eq_countP]
    exact List.countP_mono_left hl
  induction l with
  | nil => exact fun a ha => absurd ha List.not_mem_nil
  | cons b l ih =>
    have htail : ∀ a ∈ l, (g a).isSome → (f a).isSome := fun a ha =>
      hsome a (List.mem_cons_of_mem _ ha)
    have hhead := hsome b (List.mem_cons_self ..)
    rw [List.filterMap_cons, List.filterMap_cons] at h
    have hboth : f b = g b ∧ l.filterMap f = l.filterMap g := by
      cases hf : f b with
      | none =>
        cases hg : g b with
        | none =>
          rw [hf, hg] at h
          exact ⟨rfl, h⟩
        | some y =>
          rw [hf, hg] at hhead
          exact absurd (hhead rfl) (by simp)
      | some x =>
        cases hg : g b with
        | none =>
          -- the first selection would be longer
          rw [hf, hg] at h
          have hle := hlength l htail
          have hlonger : x :: l.filterMap f = l.filterMap g := h
          have hlen := congrArg List.length hlonger
          rw [List.length_cons] at hlen
          omega
        | some y =>
          rw [hf, hg] at h
          obtain ⟨hxy, hrest⟩ := List.cons.inj h
          exact ⟨congrArg some hxy, hrest⟩
    intro a ha
    rcases List.mem_cons.mp ha with rfl | ha
    · exact hboth.1
    · exact ih htail hboth.2 a ha

/-! ### What stands in a word -/

/-- Words with the delimiter that ends each are no longer than the text with one more. -/
theorem words_length_sum (s : List α) :
    ((words p s).map fun w => w.length + 1).sum ≤ s.length + 1 := by
  induction s using break_induction p with
  | last v hv =>
    rw [words_word p v hv]
    split
    · exact Nat.zero_le _
    · simp
  | step v d t hv hd ih =>
    rw [words_append_break p v d t hd, words_word p v hv, List.map_append, List.sum_append,
      List.length_append, List.length_cons]
    split
    · rw [List.map_nil, List.sum_nil]
      omega
    · rw [List.map_singleton, List.sum_singleton]
      omega

theorem mem_words_word (v w : List α) (hv : ∀ c ∈ v, p c = false) :
    w ∈ words p v ↔ w = v ∧ v ≠ [] := by
  rw [words_word p v hv]
  by_cases hnil : v = []
  · rw [if_pos hnil]
    exact iff_of_false List.not_mem_nil fun h => h.2 hnil
  · rw [if_neg hnil, List.mem_singleton]
    exact (and_iff_left hnil).symm

theorem mem_words_append_break (v : List α) (d : α) (t w : List α) (hv : ∀ c ∈ v, p c = false)
    (hd : p d = true) : w ∈ words p (v ++ d :: t) ↔ (w = v ∧ v ≠ []) ∨ w ∈ words p t := by
  rw [words_append_break p v d t hd, List.mem_append, mem_words_word p v w hv]

theorem mem_word (s w : List α) (hw : w ∈ words p s) : w ≠ [] ∧ ∀ c ∈ w, p c = false := by
  induction s using break_induction p with
  | last v hv =>
    obtain ⟨rfl, hne⟩ := (mem_words_word p v w hv).mp hw
    exact ⟨hne, hv⟩
  | step v d t hv hd ih =>
    rcases (mem_words_append_break p v d t w hv hd).mp hw with ⟨rfl, hne⟩ | hrest
    · exact ⟨hne, hv⟩
    · exact ih hrest

theorem word_infix (s w : List α) (hw : w ∈ words p s) : w <:+: s := by
  induction s using break_induction p with
  | last v hv =>
    obtain ⟨rfl, -⟩ := (mem_words_word p v w hv).mp hw
    exact List.infix_refl w
  | step v d t hv hd ih =>
    rcases (mem_words_append_break p v d t w hv hd).mp hw with ⟨rfl, -⟩ | hrest
    · exact ⟨[], d :: t, rfl⟩
    · have hbehind : t <:+: v ++ d :: t := ⟨v ++ [d], [], by simp⟩
      exact (ih hrest).trans hbehind

theorem exists_word (s : List α) (c : α) (hc : c ∈ s) (hpc : p c = false) :
    ∃ w ∈ words p s, c ∈ w := by
  induction s using break_induction p with
  | last v hv =>
    exact ⟨v, (mem_words_word p v v hv).mpr ⟨rfl, List.ne_nil_of_mem hc⟩, hc⟩
  | step v d t hv hd ih =>
    simp only [mem_words_append_break p v d t _ hv hd]
    rcases List.mem_append.mp hc with hword | hrest
    · exact ⟨v, Or.inl ⟨rfl, List.ne_nil_of_mem hword⟩, hword⟩
    · rcases List.mem_cons.mp hrest with rfl | hrest
      · rw [hd] at hpc
        exact Bool.noConfusion hpc
      · obtain ⟨w, hw, hcw⟩ := ih hrest
        exact ⟨w, Or.inr hw, hcw⟩

end Sysmngr.Words
