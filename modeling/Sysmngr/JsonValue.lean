import Sysmngr.Json

/-!
# Nested JSON values

Arrays and objects over the scalars, read to a given depth. Control characters between
the tokens can be left out: the text without them is read as the same value.
-/

namespace Sysmngr.Json
open Text

inductive Value where
  | scalar (s : Scalar)
  | array (items : List Value)
  | object (fields : List (Str × Value))

def Value.items : Value → List Value
  | .array items => items
  | _ => []

def Value.fields : Value → List (Str × Value)
  | .object fields => fields
  | _ => []

/-! ### Readers -/

section Lists
variable {α : Type} (item : Str → Option (α × Str)) (close : Char)

/-- What stands between commas, up to the closing character. -/
def readList : ℕ → Str → Option (List α × Str)
  | 0, _ => none
  | n + 1, s => (item s).bind fun m =>
    match skip m.2 with
    | [] => none
    | c :: rest =>
      if c = ',' then (readList n rest).map fun r => (m.1 :: r.1, r.2)
      else if c = close then some ([m.1], rest)
      else none

def readBody (s : Str) : Option (List α × Str) :=
  if (skip s).head? = some close then some ([], (skip s).tail) else readList item close s.length s

end Lists

def readField (value : Str → Option (Value × Str)) (s : Str) : Option ((Str × Value) × Str) :=
  (readString (skip s)).bind fun k =>
    match skip k.2 with
    | [] => none
    | c :: rest => if c = ':' then (value rest).map fun v => ((k.1, v.1), v.2) else none

def readValue : ℕ → Str → Option (Value × Str)
  | 0, _ => none
  | n + 1, s =>
    match skip s with
    | [] => none
    | c :: rest =>
      if c = '[' then (readBody (readValue n) ']' rest).map fun r => (.array r.1, r.2)
      else if c = '\x7b' then
        (readBody (readField (readValue n)) '\x7d' rest).map fun r => (.object r.1, r.2)
      else (readScalar (c :: rest)).map fun r => (.scalar r.1, r.2)

/-- The fields of a text that is one object of no more than `depth` levels. -/
def readJson (depth : ℕ) (s : Str) : Option (List (Str × Value)) :=
  match readValue depth s with
  | some (.object fields, rest) => if skip rest = [] then some fields else none
  | _ => none

example : (readJson 4 "\x7b\"bank\":[\x7b\"id\":1\x7d,\n\x7b\x7d]\x7d\n".toList).map List.length =
    some 1 := by decide

/-! ### What a reader takes -/

/-- A character that a number or a literal in front of it could go on with. -/
def wordChar (c : Char) : Bool := numberChar c || c.isAlpha

def Ends (s : Str) : Prop := ∀ c ∈ s.head?, wordChar c = false

section Thin
variable (keep : Char → Bool)

/-- The characters left out are blanks that no string can hold. -/
def Thins : Prop := ∀ c, keep c = false → blank c = true ∧ c.toNat < 32

def thin (s : Str) : Str := s.filter keep

/-- A reader takes a part of the text; of what is kept of that part it makes the same,
whatever comes after it. -/
def Robust {α : Type} (read : Str → Option (α × Str)) : Prop :=
  ∀ s v rest, read s = some (v, rest) →
    ∃ raw, s = raw ++ rest ∧
      ∀ rest', Ends rest' → read (thin keep raw ++ rest') = some (v, rest')

variable {keep}

@[simp] theorem thin_append (s t : Str) : thin keep (s ++ t) = thin keep s ++ thin keep t :=
  List.filter_append ..

theorem thin_cons (c : Char) (s : Str) (h : keep c = true) :
    thin keep (c :: s) = c :: thin keep s := List.filter_cons_of_pos h

theorem thin_eq_self (s : Str) (h : ∀ c ∈ s, keep c = true) : thin keep s = s :=
  List.filter_eq_self.mpr h

theorem Thins.keeps (hk : Thins keep) (c : Char) (h : blank c = false ∨ 32 ≤ c.toNat) :
    keep c = true := by
  cases hc : keep c with
  | true => rfl
  | false =>
    obtain ⟨hblank, hlow⟩ := hk c hc
    rcases h with h | h
    · exact absurd (hblank.symm.trans h) (by decide)
    · omega

/-! ### Strings -/

theorem hexDigit_visible (c : Char) (n : ℕ) (h : hexDigit c = some n) : 32 ≤ c.toNat := by
  unfold hexDigit at h
  split at h
  · rename_i hd
    have hdigit : 48 ≤ c.toNat := by
      simp only [Char.isDigit, Bool.and_eq_true, decide_eq_true_eq] at hd
      exact hd.1
    omega
  · split at h
    · omega
    · split at h
      · omega
      · exact absurd h (by simp)

theorem readHex_local (s rest : Str) (n : ℕ) (h : readHex s = some (n, rest)) :
    ∃ raw, s = raw ++ rest ∧ (∀ c ∈ raw, 32 ≤ c.toNat) ∧
      ∀ rest', readHex (raw ++ rest') = some (n, rest') := by
  unfold readHex at h
  split at h
  · rename_i a b c d rest₁
    split at h
    · rename_i a' b' c' d' ha hb hc hd
      obtain ⟨rfl, rfl⟩ := Prod.mk.inj (Option.some.inj h)
      refine ⟨[a, b, c, d], rfl, ?_, fun rest' => ?_⟩
      · simp only [List.forall_mem_cons]
        exact ⟨hexDigit_visible a _ ha, hexDigit_visible b _ hb, hexDigit_visible c _ hc,
          hexDigit_visible d _ hd, fun _ h => absurd h List.not_mem_nil⟩
      · simp only [readHex, List.cons_append, List.nil_append, ha, hb, hc, hd]
    · exact absurd h (by simp)
  · exact absurd h (by simp)

theorem readCodePoint_local (s w rest : Str) (h : readCodePoint s = some (w, rest)) :
    ∃ raw, s = raw ++ rest ∧ (∀ c ∈ raw, 32 ≤ c.toNat) ∧
      ∀ rest', readCodePoint (raw ++ rest') = some (w, rest') := by
  unfold readCodePoint at h
  split at h
  · exact absurd h (by simp)
  rename_i n rest₁ hn
  obtain ⟨raw, rfl, hraw, hread⟩ := readHex_local s rest₁ n hn
  split at h
  · rename_i hhigh
    split at h
    · rename_i a b rest₂
      split at h
      · rename_i hab
        split at h
        · exact absurd h (by simp)
        rename_i m rest₃ hm
        obtain ⟨raw', rfl, hraw', hread'⟩ := readHex_local rest₂ rest₃ m hm
        split at h
        · rename_i hlow
          obtain ⟨rfl, rfl⟩ := Prod.mk.inj (Option.some.inj h)
          obtain ⟨rfl, rfl⟩ := hab
          refine ⟨raw ++ '\\' :: 'u' :: raw', by simp, ?_, fun rest' => ?_⟩
          · refine List.forall_mem_append.mpr ⟨hraw, ?_⟩
            exact List.forall_mem_cons.mpr ⟨by decide, List.forall_mem_cons.mpr ⟨by decide, hraw'⟩⟩
          · rw [List.append_assoc, readCodePoint, hread]
            simp [hhigh, hread', hlow]
        · exact absurd h (by simp)
      · exact absurd h (by simp)
    · exact absurd h (by simp)
  rename_i hhigh
  split at h
  · exact absurd h (by simp)
  · rename_i hlow
    obtain ⟨rfl, rfl⟩ := Prod.mk.inj (Option.some.inj h)
    refine ⟨raw, rfl, hraw, fun rest' => ?_⟩
    rw [readCodePoint, hread]
    simp only [if_neg hhigh, if_neg hlow]

theorem escapes_visible (c d : Char) (h : escapes.lookup c = some d) : 32 ≤ c.toNat := by
  obtain ⟨l₁, l₂, hsplit, -⟩ := List.lookup_eq_some_iff.mp h
  have hmem : (c, d) ∈ escapes := by
    rw [hsplit]
    exact List.mem_append_right _ (List.mem_cons_self ..)
  have hall : ∀ e ∈ escapes, 32 ≤ e.1.toNat := by decide
  exact hall _ hmem

theorem readEscape_local (s w rest : Str) (h : readEscape s = some (w, rest)) :
    ∃ raw, s = raw ++ rest ∧ (∀ c ∈ raw, 32 ≤ c.toNat) ∧
      ∀ rest', readEscape (raw ++ rest') = some (w, rest') := by
  cases s with
  | nil => exact absurd h (by simp [readEscape])
  | cons c s =>
    simp only [readEscape] at h
    split at h
    · rename_i hc
      subst hc
      obtain ⟨raw, rfl, hraw, hread⟩ := readCodePoint_local s w rest h
      refine ⟨'u' :: raw, rfl, List.forall_mem_cons.mpr ⟨by decide, hraw⟩, fun rest' => ?_⟩
      rw [List.cons_append, readEscape, if_pos rfl, hread]
    · rename_i hc
      obtain ⟨d, hd, heq⟩ := Option.map_eq_some_iff.mp h
      obtain ⟨rfl, rfl⟩ := Prod.mk.inj heq
      refine ⟨[c], rfl, ?_, fun rest' => ?_⟩
      · exact List.forall_mem_cons.mpr ⟨escapes_visible c d hd, fun _ h => absurd h List.not_mem_nil⟩
      · rw [List.singleton_append, readEscape, if_neg hc, hd]
        rfl

/-- A string ends at its quote and holds no control character. -/
theorem readChars_local (n : ℕ) (s w rest : Str) (h : readChars n s = some (w, rest)) :
    ∃ raw, s = raw ++ '"' :: rest ∧ (∀ c ∈ raw, 32 ≤ c.toNat) ∧
      ∀ m rest', raw.length < m → readChars m (raw ++ '"' :: rest') = some (w, rest') := by
  induction n generalizing s w with
  | zero => exact absurd h (by simp [readChars])
  | succ n ih =>
    cases s with
    | nil => exact absurd h (by simp [readChars])
    | cons c s =>
      simp only [readChars] at h
      split at h
      · rename_i hc
        subst hc
        obtain ⟨rfl, rfl⟩ := Prod.mk.inj (Option.some.inj h)
        refine ⟨[], rfl, fun _ h => absurd h List.not_mem_nil, fun m rest' hm => ?_⟩
        obtain ⟨m, rfl⟩ := Nat.exists_eq_succ_of_ne_zero (Nat.ne_of_gt hm)
        rfl
      rename_i hquote
      split at h
      · rename_i hc
        subst hc
        obtain ⟨⟨d, s'⟩, he, hr⟩ := Option.bind_eq_some_iff.mp h
        obtain ⟨⟨w', rest₁⟩, hr', heq⟩ := Option.map_eq_some_iff.mp hr
        obtain ⟨rfl, rfl⟩ := Prod.mk.inj heq
        obtain ⟨e, rfl, hvisible, hescape⟩ := readEscape_local s d s' he
        obtain ⟨raw, rfl, hraw, hread⟩ := ih s' w' hr'
        refine ⟨'\\' :: (e ++ raw), by simp, ?_, fun m rest' hm => ?_⟩
        · exact List.forall_mem_cons.mpr ⟨by decide, List.forall_mem_append.mpr ⟨hvisible, hraw⟩⟩
        · obtain ⟨m, rfl⟩ := Nat.exists_eq_succ_of_ne_zero (Nat.ne_of_gt (Nat.zero_lt_of_lt hm))
          have hroom : raw.length < m := by
            simp only [List.length_cons, List.length_append] at hm
            omega
          rw [List.cons_append, List.append_assoc, readChars, if_neg (by decide), if_pos rfl,
            hescape, Option.bind_some, hread m rest' hroom]
          rfl
      rename_i hback
      split at h
      · rename_i hplain
        obtain ⟨⟨w', rest₁⟩, hr', heq⟩ := Option.map_eq_some_iff.mp h
        obtain ⟨rfl, rfl⟩ := Prod.mk.inj heq
        obtain ⟨raw, rfl, hraw, hread⟩ := ih s w' hr'
        have hvisible : 32 ≤ c.toNat := by
          simp only [plainChar, Bool.and_eq_true, decide_eq_true_eq] at hplain
          exact hplain.2
        refine ⟨c :: raw, rfl, List.forall_mem_cons.mpr ⟨hvisible, hraw⟩, fun m rest' hm => ?_⟩
        obtain ⟨m, rfl⟩ := Nat.exists_eq_succ_of_ne_zero (Nat.ne_of_gt (Nat.zero_lt_of_lt hm))
        rw [List.cons_append, readChars, if_neg hquote, if_neg hback, if_pos hplain,
          hread m rest' (Nat.lt_of_succ_lt_succ hm)]
        rfl
      · exact absurd h (by simp)

theorem readString_robust (hk : Thins keep) : Robust keep readString := by
  intro s w rest h
  cases s with
  | nil => exact absurd h (by simp [readString])
  | cons c s =>
    simp only [readString] at h
    split at h
    · rename_i hc
      subst hc
      obtain ⟨raw, rfl, hraw, hread⟩ := readChars_local _ s w rest h
      refine ⟨'"' :: (raw ++ ['"']), by simp, fun rest' _ => ?_⟩
      have hkept : thin keep ('"' :: (raw ++ ['"'])) = '"' :: (raw ++ ['"']) := by
        refine thin_eq_self _ fun c hc => hk.keeps c (Or.inr ?_)
        rcases List.mem_cons.mp hc with rfl | hc
        · decide
        · rcases List.mem_append.mp hc with hc | hc
          · exact hraw c hc
          · rw [List.mem_singleton.mp hc]
            decide
      rw [hkept, List.cons_append, readString, if_pos rfl, List.append_assoc]
      refine hread _ rest' ?_
      simp only [List.length_append, List.length_cons]
      omega
    · exact absurd h (by simp)

/-! ### Scalars -/

theorem takeWhile_ended (p : Char → Bool) (w rest : Str) (hw : ∀ c ∈ w, p c = true)
    (hrest : ∀ c ∈ rest.head?, p c = false) :
    (w ++ rest).takeWhile p = w ∧ (w ++ rest).dropWhile p = rest := by
  rw [List.takeWhile_append_of_pos hw, List.dropWhile_append_of_pos hw]
  cases rest with
  | nil => exact ⟨List.append_nil w, rfl⟩
  | cons d rest =>
    have hd := hrest d rfl
    rw [List.takeWhile_cons, List.dropWhile_cons, hd]
    exact ⟨List.append_nil w, rfl⟩

theorem Ends.number {s : Str} (h : Ends s) : ∀ c ∈ s.head?, numberChar c = false := by
  intro c hc
  have hw := h c hc
  simp only [wordChar, Bool.or_eq_false_iff] at hw
  exact hw.1

theorem Ends.alpha {s : Str} (h : Ends s) : ∀ c ∈ s.head?, c.isAlpha = false := by
  intro c hc
  have hw := h c hc
  simp only [wordChar, Bool.or_eq_false_iff] at hw
  exact hw.2

theorem wordChar_not_blank (c : Char) (h : wordChar c = true) : blank c = false ∧ c ≠ '"' := by
  constructor
  · cases hb : blank c with
    | false => rfl
    | true =>
      simp only [blank, Bool.or_eq_true, decide_eq_true_eq] at hb
      rcases hb with ((rfl | rfl) | rfl) | rfl <;> exact absurd h (by decide)
  · rintro rfl
    exact absurd h (by decide)

theorem literals_start (w : Str) (v : Scalar) (h : literals.lookup w = some v) :
    ∀ rest, isNumber ((w ++ rest).takeWhile numberChar) = false := by
  obtain ⟨l₁, l₂, hsplit, -⟩ := List.lookup_eq_some_iff.mp h
  have hmem : (w, v) ∈ literals := by
    rw [hsplit]
    exact List.mem_append_right _ (List.mem_cons_self ..)
  intro rest
  simp only [literals, List.mem_cons, List.not_mem_nil, or_false, Prod.mk.injEq] at hmem
  rcases hmem with ⟨rfl, -⟩ | ⟨rfl, -⟩ | ⟨rfl, -⟩ <;> rfl

/-- A word at the front is kept as it is, and taken again before whatever ends it. -/
theorem taken_word (hk : Thins keep) (p : Char → Bool) (hp : ∀ c, p c = true → wordChar c = true)
    (s rest : Str) (hne : s.takeWhile p ≠ []) (hrest : ∀ c ∈ rest.head?, p c = false) :
    thin keep (s.takeWhile p) = s.takeWhile p ∧
      ¬(s.takeWhile p ++ rest).head? = some '"' ∧
      (s.takeWhile p ++ rest).takeWhile p = s.takeWhile p ∧
      (s.takeWhile p ++ rest).dropWhile p = rest := by
  have htaken : ∀ c ∈ s.takeWhile p, p c = true := fun c hc => List.mem_takeWhile_imp hc
  refine ⟨?_, ?_, takeWhile_ended p _ rest htaken hrest⟩
  · exact thin_eq_self _ fun c hc =>
      hk.keeps c (Or.inl (wordChar_not_blank c (hp c (htaken c hc))).1)
  · obtain ⟨c, t, hct⟩ := List.exists_cons_of_ne_nil hne
    have hc : c ∈ s.takeWhile p := hct ▸ List.mem_cons_self ..
    rw [hct, List.cons_append, List.head?_cons, Option.some.injEq]
    exact (wordChar_not_blank c (hp c (htaken c hc))).2

theorem readString_quote (s rest w : Str) (h : readString s = some (w, rest)) :
    s.head? = some '"' := by
  cases s with
  | nil => exact absurd h (by simp [readString])
  | cons c t =>
    rw [readString] at h
    split at h
    · rename_i hc
      rw [hc]
      rfl
    · exact absurd h (by simp)

theorem readScalar_robust (hk : Thins keep) : Robust keep readScalar := by
  intro s v rest h
  unfold readScalar at h
  split at h
  · obtain ⟨⟨w, rest₁⟩, hr, heq⟩ := Option.map_eq_some_iff.mp h
    obtain ⟨rfl, rfl⟩ := Prod.mk.inj heq
    obtain ⟨raw, rfl, hread⟩ := readString_robust hk s w rest₁ hr
    refine ⟨raw, rfl, fun rest' hends => ?_⟩
    have hstring := hread rest' hends
    rw [readScalar, if_pos (readString_quote _ _ _ hstring), hstring]
    rfl
  split at h
  · rename_i hnumber
    obtain ⟨rfl, rfl⟩ := Prod.mk.inj (Option.some.inj h)
    refine ⟨s.takeWhile numberChar, List.takeWhile_append_dropWhile.symm, fun rest' hends => ?_⟩
    have hne : s.takeWhile numberChar ≠ [] := by
      intro he
      rw [he] at hnumber
      exact absurd hnumber (by decide)
    obtain ⟨hkept, hquote, htake, hdrop⟩ := taken_word hk numberChar
      (fun c hc => by rw [wordChar, hc, Bool.true_or]) s rest' hne hends.number
    rw [hkept, readScalar, if_neg hquote, htake, hdrop, if_pos hnumber]
  · obtain ⟨v', hv, heq⟩ := Option.map_eq_some_iff.mp h
    obtain ⟨rfl, rfl⟩ := Prod.mk.inj heq
    refine ⟨s.takeWhile Char.isAlpha, List.takeWhile_append_dropWhile.symm, fun rest' hends => ?_⟩
    have hne : s.takeWhile Char.isAlpha ≠ [] := by
      intro he
      have hnone : literals.lookup [] = none := by decide
      rw [he, hnone] at hv
      exact absurd hv (by simp)
    obtain ⟨hkept, hquote, htake, hdrop⟩ := taken_word hk Char.isAlpha
      (fun c hc => by rw [wordChar, hc, Bool.or_true]) s rest' hne hends.alpha
    rw [hkept, readScalar, if_neg hquote, literals_start _ v' hv rest', if_neg Bool.false_ne_true,
      htake, hdrop, hv]
    rfl

/-! ### Lists, fields and values -/

theorem skip_split (s rest : Str) (c : Char) (h : skip s = c :: rest) :
    blank c = false ∧ ∃ blanks, (∀ d ∈ blanks, blank d = true) ∧ s = blanks ++ c :: rest := by
  constructor
  · have hhead := List.head?_dropWhile_not blank s
    rw [skip] at h
    rw [h] at hhead
    exact hhead
  · refine ⟨s.takeWhile blank, fun d hd => List.mem_takeWhile_imp hd, ?_⟩
    rw [← h]
    exact List.takeWhile_append_dropWhile.symm

theorem skip_blanks (blanks rest : Str) (c : Char) (hb : ∀ d ∈ blanks, blank d = true)
    (hc : blank c = false) : skip (blanks ++ c :: rest) = c :: rest := by
  rw [skip, List.dropWhile_append_of_pos hb, List.dropWhile_cons, hc]
  rfl

theorem thin_blanks (blanks : Str) (hb : ∀ d ∈ blanks, blank d = true) :
    ∀ d ∈ thin keep blanks, blank d = true := fun d hd => hb d (List.mem_of_mem_filter hd)

theorem blank_not_wordChar (c : Char) (h : blank c = true) : wordChar c = false := by
  cases hw : wordChar c with
  | false => rfl
  | true => exact absurd ((wordChar_not_blank c hw).1.symm.trans h) (by decide)

theorem ends_blanks (blanks rest : Str) (c : Char) (hb : ∀ d ∈ blanks, blank d = true)
    (hc : wordChar c = false) : Ends (blanks ++ c :: rest) := by
  cases blanks with
  | nil =>
    intro d hd
    obtain rfl := Option.some.inj hd
    exact hc
  | cons b blanks =>
    intro d hd
    obtain rfl := Option.some.inj hd
    exact blank_not_wordChar _ (hb _ (List.mem_cons_self ..))

/-- What stands between a value and the next token, with the token. -/
theorem thin_token (hk : Thins keep) (s rest : Str) (c : Char) (h : skip s = c :: rest) :
    ∃ raw, s = raw ++ rest ∧ (∀ rest', skip (thin keep raw ++ rest') = c :: rest') ∧
      1 ≤ (thin keep raw).length ∧
      (wordChar c = false → ∀ rest', Ends (thin keep raw ++ rest')) := by
  obtain ⟨hc, blanks, hb, rfl⟩ := skip_split s rest c h
  have hkept : thin keep (blanks ++ [c]) = thin keep blanks ++ [c] := by
    rw [thin_append, thin_cons c [] (hk.keeps c (Or.inl hc))]
    rfl
  refine ⟨blanks ++ [c], by simp, fun rest' => ?_, ?_, fun hword rest' => ?_⟩
  · rw [hkept, List.append_assoc, List.singleton_append]
    exact skip_blanks _ rest' c (thin_blanks blanks hb) hc
  · rw [hkept, List.length_append, List.length_singleton]
    omega
  · rw [hkept, List.append_assoc, List.singleton_append]
    exact ends_blanks _ rest' c (thin_blanks blanks hb) hword

theorem readList_local (hk : Thins keep) {α : Type} (item : Str → Option (α × Str)) (close : Char)
    (hclose : wordChar close = false) (hitem : Robust keep item) (n : ℕ) (s rest : Str)
    (l : List α) (h : readList item close n s = some (l, rest)) :
    ∃ raw, s = raw ++ rest ∧ ∀ m rest', (thin keep raw).length ≤ m →
      readList item close m (thin keep raw ++ rest') = some (l, rest') := by
  induction n generalizing s l with
  | zero => exact absurd h (by simp [readList])
  | succ n ih =>
    rw [readList] at h
    obtain ⟨⟨v, s₁⟩, hv, hr⟩ := Option.bind_eq_some_iff.mp h
    obtain ⟨raw, rfl, hread⟩ := hitem s v s₁ hv
    dsimp only at hr
    split at hr
    · exact absurd hr (by simp)
    rename_i c s₂ hs₂
    obtain ⟨raw₁, rfl, hskip, hlong, hends⟩ := thin_token hk s₁ s₂ c hs₂
    split at hr
    · rename_i hc
      subst hc
      obtain ⟨⟨l', rest₁⟩, hl, heq⟩ := Option.map_eq_some_iff.mp hr
      obtain ⟨rfl, rfl⟩ := Prod.mk.inj heq
      obtain ⟨raw₂, rfl, hrest⟩ := ih s₂ l' hl
      refine ⟨raw ++ (raw₁ ++ raw₂), by simp, fun m rest' hm => ?_⟩
      rw [thin_append, thin_append, List.length_append, List.length_append] at hm
      obtain ⟨m, rfl⟩ : ∃ k, m = k + 1 := ⟨m - 1, by omega⟩
      rw [thin_append, thin_append, List.append_assoc, List.append_assoc, readList,
        hread _ (hends rfl _), Option.bind_some]
      simp only [hskip, if_true, hrest m rest' (by omega), Option.map_some]
    split at hr
    · rename_i hcomma hc
      subst hc
      obtain ⟨rfl, rfl⟩ := Prod.mk.inj (Option.some.inj hr)
      refine ⟨raw ++ raw₁, by simp, fun m rest' hm => ?_⟩
      rw [thin_append, List.length_append] at hm
      obtain ⟨m, rfl⟩ : ∃ k, m = k + 1 := ⟨m - 1, by omega⟩
      rw [thin_append, List.append_assoc, readList, hread _ (hends hclose _), Option.bind_some]
      simp only [hskip, if_neg hcomma, if_true]
    · exact absurd hr (by simp)

/-- What no item begins with. -/
def NeverStarts {α : Type} (item : Str → Option (α × Str)) (close : Char) : Prop :=
  ∀ s r, item s = some r → (skip s).head? ≠ some close

theorem readList_starts {α : Type} (item : Str → Option (α × Str)) (close : Char)
    (hstart : NeverStarts item close) (n : ℕ) (s : Str) (r : List α × Str)
    (h : readList item close n s = some r) : (skip s).head? ≠ some close := by
  cases n with
  | zero => exact absurd h (by simp [readList])
  | succ n =>
    obtain ⟨m, hm, -⟩ := Option.bind_eq_some_iff.mp h
    exact hstart s m hm

theorem readBody_local (hk : Thins keep) {α : Type} (item : Str → Option (α × Str)) (close : Char)
    (hclose : wordChar close = false) (hitem : Robust keep item) (hstart : NeverStarts item close)
    (s rest : Str) (l : List α) (h : readBody item close s = some (l, rest)) :
    ∃ raw, s = raw ++ rest ∧
      ∀ rest', readBody item close (thin keep raw ++ rest') = some (l, rest') := by
  unfold readBody at h
  split at h
  · rename_i hempty
    obtain ⟨rfl, rfl⟩ := Prod.mk.inj (Option.some.inj h)
    obtain ⟨t, ht⟩ : ∃ t, skip s = close :: t := by
      cases hs : skip s with
      | nil => exact absurd (hs ▸ hempty) (by simp)
      | cons c t =>
        rw [hs, List.head?_cons, Option.some.injEq] at hempty
        exact ⟨t, by rw [hempty]⟩
    obtain ⟨raw, hraw, hskip, -, -⟩ := thin_token hk s t close ht
    refine ⟨raw, by rw [ht]; exact hraw, fun rest' => ?_⟩
    rw [readBody, hskip, List.head?_cons, if_pos rfl]
    rfl
  · obtain ⟨raw, rfl, hread⟩ := readList_local hk item close hclose hitem _ s rest l h
    refine ⟨raw, rfl, fun rest' => ?_⟩
    have hlist := hread (thin keep raw ++ rest').length rest' (by
      rw [List.length_append]
      omega)
    rw [readBody, if_neg (readList_starts item close hstart _ _ _ hlist), hlist]

theorem readField_robust (hk : Thins keep) (value : Str → Option (Value × Str))
    (hvalue : Robust keep value) : Robust keep (readField value) := by
  intro s f rest h
  obtain ⟨⟨k, s₁⟩, hkey, hr⟩ := Option.bind_eq_some_iff.mp h
  obtain ⟨t, ht⟩ : ∃ t, skip s = '"' :: t := by
    have hhead := readString_quote _ _ _ hkey
    cases hs : skip s with
    | nil => exact absurd (hs ▸ hhead) (by simp)
    | cons c t =>
      rw [hs, List.head?_cons, Option.some.injEq] at hhead
      exact ⟨t, by rw [hhead]⟩
  obtain ⟨hquote, blanks, hb, rfl⟩ := skip_split s t '"' ht
  rw [ht] at hkey
  obtain ⟨raw, hraw, hread⟩ := readString_robust hk _ k s₁ hkey
  dsimp only at hr
  split at hr
  · exact absurd hr (by simp)
  rename_i c s₂ hs₂
  split at hr
  · rename_i hc
    subst hc
    obtain ⟨⟨v, rest₁⟩, hv, heq⟩ := Option.map_eq_some_iff.mp hr
    obtain ⟨rfl, rfl⟩ := Prod.mk.inj heq
    obtain ⟨raw₁, rfl, hskip, -, hends⟩ := thin_token hk s₁ s₂ ':' hs₂
    obtain ⟨raw₂, rfl, hrest⟩ := hvalue s₂ v rest₁ hv
    refine ⟨blanks ++ (raw ++ (raw₁ ++ raw₂)), by rw [hraw]; simp, fun rest' hend => ?_⟩
    have hkept : ∀ t', Ends t' →
        skip (thin keep blanks ++ (thin keep raw ++ t')) = thin keep raw ++ t' := by
      intro t' ht'
      have hstring := readString_quote _ _ _ (hread t' ht')
      cases htext : thin keep raw ++ t' with
      | nil => exact absurd (htext ▸ hstring) (by simp)
      | cons d u =>
        rw [htext, List.head?_cons, Option.some.injEq] at hstring
        rw [hstring]
        exact skip_blanks _ u '"' (thin_blanks blanks hb) hquote
    have hcolon := hends rfl (thin keep raw₂ ++ rest')
    simp only [thin_append, List.append_assoc]
    rw [readField, hkept _ hcolon, hread _ hcolon, Option.bind_some]
    simp only [hskip, if_true, hrest rest' hend, Option.map_some]
  · exact absurd hr (by simp)

theorem readField_starts (value : Str → Option (Value × Str)) :
    NeverStarts (readField value) '\x7d' := by
  intro s r h hhead
  obtain ⟨⟨k, s₁⟩, hkey, -⟩ := Option.bind_eq_some_iff.mp h
  rw [readString_quote _ _ _ hkey] at hhead
  exact absurd hhead (by decide)

theorem readScalar_none (c : Char) (s : Str) (hc : c ≠ '"') (hw : wordChar c = false) :
    readScalar (c :: s) = none := by
  simp only [wordChar, Bool.or_eq_false_iff] at hw
  have hnumber : isNumber [] = false := rfl
  have hnone : literals.lookup [] = none := by decide
  have hquote : ¬(c :: s).head? = some '"' := fun h => hc (Option.some.inj h)
  rw [readScalar, if_neg hquote, List.takeWhile_cons, hw.1, List.takeWhile_cons, hw.2]
  simp only [Bool.false_eq_true, if_false, hnumber, hnone, Option.map_none]

theorem readValue_starts (n : ℕ) : NeverStarts (readValue n) ']' := by
  intro s r h hhead
  cases n with
  | zero => exact absurd h (by simp [readValue])
  | succ n =>
    rw [readValue] at h
    split at h
    · exact absurd h (by simp)
    · rename_i c rest hs
      rw [hs, List.head?_cons, Option.some.injEq] at hhead
      subst hhead
      rw [if_neg (by decide), if_neg (by decide), readScalar_none _ _ (by decide) (by decide)] at h
      exact absurd h (by simp)

/-- A bracket, what it holds and the closing one. -/
theorem bracket_robust (hk : Thins keep) {α β : Type} (body : Str → Option (α × Str)) (make : α → β)
    (s rest t : Str) (c : Char) (v : β) (hs : skip s = c :: t)
    (hbody : ∀ a u, body t = some (a, u) →
      ∃ raw, t = raw ++ u ∧ ∀ rest', body (thin keep raw ++ rest') = some (a, rest'))
    (h : ((body t).map fun r => (make r.1, r.2)) = some (v, rest)) :
    ∃ raw, s = raw ++ rest ∧ ∀ rest', ∃ t', skip (thin keep raw ++ rest') = c :: t' ∧
      ((body t').map fun r => (make r.1, r.2)) = some (v, rest') := by
  obtain ⟨⟨a, u⟩, ha, heq⟩ := Option.map_eq_some_iff.mp h
  obtain ⟨rfl, rfl⟩ := Prod.mk.inj heq
  obtain ⟨raw, rfl, hskip, -, -⟩ := thin_token hk s t c hs
  obtain ⟨raw₁, rfl, hread⟩ := hbody a u ha
  refine ⟨raw ++ raw₁, by simp, fun rest' => ⟨thin keep raw₁ ++ rest', ?_, ?_⟩⟩
  · rw [thin_append, List.append_assoc, hskip]
  · rw [hread rest']
    rfl

theorem readValue_robust (hk : Thins keep) (n : ℕ) : Robust keep (readValue n) := by
  induction n with
  | zero => exact fun s v rest h => absurd h (by simp [readValue])
  | succ n ih =>
    intro s v rest h
    rw [readValue] at h
    split at h
    · exact absurd h (by simp)
    rename_i c t hs
    split at h
    · rename_i hc
      subst hc
      obtain ⟨raw, hraw, hread⟩ := bracket_robust hk (readBody (readValue n) ']') Value.array s rest
        t '[' v hs (fun a u ha => readBody_local hk _ ']' rfl ih (readValue_starts n) t u a ha) h
      refine ⟨raw, hraw, fun rest' _ => ?_⟩
      obtain ⟨t', ht', hbody⟩ := hread rest'
      rw [readValue, ht']
      exact hbody
    rename_i harray
    split at h
    · rename_i hc
      subst hc
      obtain ⟨raw, hraw, hread⟩ := bracket_robust hk (readBody (readField (readValue n)) '\x7d')
        Value.object s rest t '\x7b' v hs (fun a u ha => readBody_local hk _ '\x7d' rfl
          (readField_robust hk _ ih) (readField_starts _) t u a ha) h
      refine ⟨raw, hraw, fun rest' _ => ?_⟩
      obtain ⟨t', ht', hbody⟩ := hread rest'
      rw [readValue, ht']
      exact hbody
    · rename_i hobject
      obtain ⟨⟨a, u⟩, ha, heq⟩ := Option.map_eq_some_iff.mp h
      obtain ⟨rfl, rfl⟩ := Prod.mk.inj heq
      obtain ⟨hblank, blanks, hb, rfl⟩ := skip_split s t c hs
      obtain ⟨raw, hraw, hread⟩ := readScalar_robust hk _ a u ha
      refine ⟨blanks ++ raw, by rw [hraw]; simp, fun rest' hend => ?_⟩
      have hne : raw ≠ [] := by
        rintro rfl
        have hnil : readScalar [] = none := by decide
        exact absurd (hnil.symm.trans (hread [] fun c hc => absurd hc (by simp))) (by simp)
      obtain ⟨d, raw, rfl⟩ := List.exists_cons_of_ne_nil hne
      obtain ⟨rfl, rfl⟩ := List.cons.inj hraw
      have hscalar := hread rest' hend
      rw [thin_cons c raw (hk.keeps c (Or.inl hblank)), List.cons_append] at hscalar
      rw [readValue, thin_append, thin_cons c raw (hk.keeps c (Or.inl hblank)), List.append_assoc,
        List.cons_append, skip_blanks _ _ c (thin_blanks blanks hb) hblank]
      simp only [if_neg harray, if_neg hobject, hscalar, Option.map_some]

/-- A text is read as before when control characters between its tokens are left out. -/
theorem readJson_thin (hk : Thins keep) (depth : ℕ) (s : Str) (fields : List (Str × Value))
    (h : readJson depth s = some fields) : readJson depth (thin keep s) = some fields := by
  unfold readJson at h
  split at h
  · rename_i fields' rest hvalue
    split at h
    · rename_i hrest
      obtain rfl := Option.some.inj h
      obtain ⟨raw, rfl, hread⟩ := readValue_robust hk depth _ _ _ hvalue
      have hblanks := @thin_blanks keep rest (List.dropWhile_eq_nil_iff.mp hrest)
      have hends : Ends (thin keep rest) := fun c hc =>
        blank_not_wordChar c (hblanks c (List.mem_of_mem_head? hc))
      have hnil : skip (thin keep rest) = [] := List.dropWhile_eq_nil_iff.mpr hblanks
      rw [readJson, thin_append, hread _ hends]
      exact if_pos hnil
    · exact absurd h (by simp)
  · exact absurd h (by simp)

end Thin

end Sysmngr.Json
