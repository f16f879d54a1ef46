import Mathlib.Data.List.TakeWhile
import Sysmngr.Text

/-!
# Reading JSON

Objects of strings, numbers and literals, one character a byte: a byte from 128 on
stands for itself and `\u` for the bytes of its code point. Control characters are
written with escapes only.

What is read accounts for what is written: every string has its two quotes, and a
quote or a backslash in its value a backslash in the text.
-/

namespace Sysmngr.Json
open Text

/-! ### Strings -/

/-- A character that stands for itself in a string. -/
def plainChar (c : Char) : Bool := c != '"' && c != '\\' && decide (32 ≤ c.toNat)

def hexDigit (c : Char) : Option ℕ :=
  if c.isDigit then some (c.toNat - 48)
  else if 97 ≤ c.toNat ∧ c.toNat ≤ 102 then some (c.toNat - 87)
  else if 65 ≤ c.toNat ∧ c.toNat ≤ 70 then some (c.toNat - 55)
  else none

def readHex : Str → Option (ℕ × Str)
  | a :: b :: c :: d :: rest =>
    match hexDigit a, hexDigit b, hexDigit c, hexDigit d with
    | some a, some b, some c, some d => some (((a * 16 + b) * 16 + c) * 16 + d, rest)
    | _, _, _, _ => none
  | _ => none

def utf8 (n : ℕ) : Str :=
  if n < 0x80 then [Char.ofNat n]
  else if n < 0x800 then [Char.ofNat (0xC0 + n / 0x40), Char.ofNat (0x80 + n % 0x40)]
  else if n < 0x10000 then
    [Char.ofNat (0xE0 + n / 0x1000), Char.ofNat (0x80 + n / 0x40 % 0x40),
      Char.ofNat (0x80 + n % 0x40)]
  else
    [Char.ofNat (0xF0 + n / 0x40000 % 8), Char.ofNat (0x80 + n / 0x1000 % 0x40),
      Char.ofNat (0x80 + n / 0x40 % 0x40), Char.ofNat (0x80 + n % 0x40)]

/-- After `\u`: a code point or a pair of surrogates; a lone surrogate is not read. -/
def readCodePoint (s : Str) : Option (Str × Str) :=
  match readHex s with
  | none => none
  | some (n, rest) =>
    if 0xD800 ≤ n ∧ n < 0xDC00 then
      match rest with
      | a :: b :: rest =>
        if a = '\\' ∧ b = 'u' then
          match readHex rest with
          | none => none
          | some (m, rest) =>
            if 0xDC00 ≤ m ∧ m < 0xE000 then
              some (utf8 (0x10000 + (n - 0xD800) * 0x400 + (m - 0xDC00)), rest)
            else none
        else none
      | _ => none
    else if 0xDC00 ≤ n ∧ n < 0xE000 then none
    else some (utf8 n, rest)

def escapes : List (Char × Char) :=
  [('"', '"'), ('\\', '\\'), ('/', '/'), ('b', '\x08'), ('f', '\x0c'), ('n', '\n'), ('r', '\r'),
    ('t', '\t')]

def readEscape : Str → Option (Str × Str)
  | [] => none
  | c :: rest =>
    if c = 'u' then readCodePoint rest else (escapes.lookup c).map fun d => ([d], rest)

def readChars : ℕ → Str → Option (Str × Str)
  | 0, _ => none
  | _ + 1, [] => none
  | n + 1, c :: rest =>
    if c = '"' then some ([], rest)
    else if c = '\\' then
      (readEscape rest).bind fun e => (readChars n e.2).map fun r => (e.1 ++ r.1, r.2)
    else if plainChar c then (readChars n rest).map fun r => (c :: r.1, r.2)
    else none

def readString : Str → Option (Str × Str)
  | [] => none
  | c :: rest => if c = '"' then readChars rest.length rest else none

/-! ### Objects -/

inductive Scalar where
  | null
  | bool (b : Bool)
  | number (text : Str)
  | string (s : Str)
  deriving DecidableEq, Repr

abbrev Member := Str × Scalar

def blank (c : Char) : Bool := c = ' ' || c = '\t' || c = '\n' || c = '\r'

def skip (s : Str) : Str := s.dropWhile blank

def isExponent : Str → Bool
  | [] => true
  | c :: t =>
    let digits := if t.head? = some '+' ∨ t.head? = some '-' then t.tail else t
    (c = 'e' || c = 'E') && digits.length != 0 && digits.all Char.isDigit

def isFraction : Str → Bool
  | [] => true
  | c :: t =>
    if c = '.' then (t.takeWhile Char.isDigit).length != 0 && isExponent (t.dropWhile Char.isDigit)
    else isExponent (c :: t)

def isNumber (t : Str) : Bool :=
  let t := if t.head? = some '-' then t.tail else t
  let int := t.takeWhile Char.isDigit
  int.length != 0 && (int.length = 1 || int.head? ≠ some '0') &&
    isFraction (t.dropWhile Char.isDigit)

def numberChar (c : Char) : Bool := c.isDigit || c ∈ ['-', '+', '.', 'e', 'E']

def literals : List (Str × Scalar) :=
  [("true".toList, .bool true), ("false".toList, .bool false), ("null".toList, .null)]

def readScalar (s : Str) : Option (Scalar × Str) :=
  if s.head? = some '"' then (readString s).map fun r => (.string r.1, r.2)
  else if isNumber (s.takeWhile numberChar) then
    some (.number (s.takeWhile numberChar), s.dropWhile numberChar)
  else (literals.lookup (s.takeWhile Char.isAlpha)).map fun v => (v, s.dropWhile Char.isAlpha)

def readMember (s : Str) : Option (Member × Str) :=
  (readString (skip s)).bind fun k =>
    match skip k.2 with
    | [] => none
    | c :: rest =>
      if c = ':' then (readScalar (skip rest)).map fun v => ((k.1, v.1), v.2) else none

def readMembers : ℕ → Str → Option (List Member × Str)
  | 0, _ => none
  | n + 1, s => (readMember s).bind fun m =>
    match skip m.2 with
    | [] => none
    | c :: rest =>
      if c = ',' then (readMembers n rest).map fun r => (m.1 :: r.1, r.2)
      else if c = '\x7d' then some ([m.1], rest)
      else none

def readObject (s : Str) : Option (List Member) :=
  match skip s with
  | [] => none
  | c :: rest =>
    if c = '\x7b' then
      let r := if (skip rest).head? = some '\x7d' then some ([], (skip rest).tail)
        else readMembers rest.length rest
      (r.filter fun r => (skip r.2).length = 0).map Prod.fst
    else none

example : readObject "\x7b \"a\\u00e9\":\"\\\"x\", \"n\":-1.5e3,\"t\":true\x7d ".toList =
    some [("a\xc3\xa9".toList, .string "\"x".toList), ("n".toList, .number "-1.5e3".toList),
      ("t".toList, .bool true)] := by decide

/-! ### What an escape stands for -/

def Ascii (p : Char → Bool) : Prop := ∀ c, p c = true → c.toNat < 128

/-- After a backslash `raw` stands for `w`: no more than it, at most one character below
128, and a quote if `raw` has one. -/
structure Escape (raw w : Str) : Prop where
  length_le : w.length ≤ raw.length
  countP_le : ∀ p, Ascii p → w.countP p ≤ 1
  quotes : raw.countP (· == '"') ≤ w.countP (· == '"')

theorem toNat_ofNat (n : ℕ) (h : n < 0xD800) : (Char.ofNat n).toNat = n := by
  unfold Char.ofNat
  rw [dif_pos (Or.inl h)]
  rfl

theorem countP_high (p : Char → Bool) (hp : Ascii p) (w : Str) (h : ∀ c ∈ w, 128 ≤ c.toNat) :
    w.countP p = 0 := by
  refine List.countP_eq_zero.mpr fun c hc hpc => ?_
  have hlow := hp c hpc
  have hhigh := h c hc
  omega

theorem utf8_countP (n : ℕ) (p : Char → Bool) (hp : Ascii p) : (utf8 n).countP p ≤ 1 := by
  unfold utf8
  split
  · exact List.countP_le_length
  split
  · rw [countP_high p hp]
    · exact Nat.zero_le 1
    · simp only [List.mem_cons, List.not_mem_nil, or_false, forall_eq_or_imp, forall_eq]
      constructor <;> (rw [toNat_ofNat _ (by omega)]; omega)
  split
  · rw [countP_high p hp]
    · exact Nat.zero_le 1
    · simp only [List.mem_cons, List.not_mem_nil, or_false, forall_eq_or_imp, forall_eq]
      refine ⟨?_, ?_, ?_⟩ <;> (rw [toNat_ofNat _ (by omega)]; omega)
  · rw [countP_high p hp]
    · exact Nat.zero_le 1
    · simp only [List.mem_cons, List.not_mem_nil, or_false, forall_eq_or_imp, forall_eq]
      refine ⟨?_, ?_, ?_, ?_⟩ <;> (rw [toNat_ofNat _ (by omega)]; omega)

theorem utf8_length (n : ℕ) : (utf8 n).length ≤ 4 := by
  unfold utf8
  split_ifs <;> simp

theorem readHex_eq_some (s rest : Str) (n : ℕ) (h : readHex s = some (n, rest)) :
    ∃ raw, s = raw ++ rest ∧ raw.length = 4 ∧ '"' ∉ raw := by
  unfold readHex at h
  split at h
  · rename_i a b c d rest'
    split at h
    · rename_i ha hb hc hd
      obtain ⟨-, rfl⟩ := Prod.mk.inj (Option.some.inj h)
      refine ⟨[a, b, c, d], rfl, rfl, fun hm => ?_⟩
      have hquote : hexDigit '"' = none := by decide
      simp only [List.mem_cons, List.not_mem_nil, or_false] at hm
      rcases hm with rfl | rfl | rfl | rfl
      · exact absurd (hquote.symm.trans ha) (by simp)
      · exact absurd (hquote.symm.trans hb) (by simp)
      · exact absurd (hquote.symm.trans hc) (by simp)
      · exact absurd (hquote.symm.trans hd) (by simp)
    · exact absurd h (by simp)
  · exact absurd h (by simp)

theorem escape_utf8 (raw : Str) (n : ℕ) (hlen : 4 ≤ raw.length) (hq : '"' ∉ raw) :
    Escape raw (utf8 n) := by
  refine ⟨(utf8_length n).trans hlen, utf8_countP n, ?_⟩
  rw [countP_eq_zero_of_notMem _ _ hq]
  exact Nat.zero_le _

theorem readCodePoint_escape (s w rest : Str) (h : readCodePoint s = some (w, rest)) :
    ∃ raw, s = raw ++ rest ∧ Escape ('u' :: raw) w := by
  unfold readCodePoint at h
  split at h
  · exact absurd h (by simp)
  rename_i n rest1 hn
  obtain ⟨raw, rfl, hlen, hq⟩ := readHex_eq_some s rest1 n hn
  split at h
  · split at h
    · rename_i a b rest2
      split at h
      · rename_i hab
        split at h
        · exact absurd h (by simp)
        rename_i m rest3 hm
        obtain ⟨raw', rfl, hlen', hq'⟩ := readHex_eq_some rest2 rest3 m hm
        split at h
        · obtain ⟨rfl, rfl⟩ := Prod.mk.inj (Option.some.inj h)
          obtain ⟨rfl, rfl⟩ := hab
          refine ⟨raw ++ '\\' :: 'u' :: raw', by simp, escape_utf8 _ _ (by simp; omega) ?_⟩
          simp [hq, hq']
        · exact absurd h (by simp)
      · exact absurd h (by simp)
    · exact absurd h (by simp)
  split at h
  · exact absurd h (by simp)
  · obtain ⟨rfl, rfl⟩ := Prod.mk.inj (Option.some.inj h)
    exact ⟨raw, rfl, escape_utf8 _ _ (by simp; omega) (by simp [hq])⟩

theorem readEscape_escape (s w rest : Str) (h : readEscape s = some (w, rest)) :
    ∃ raw, s = raw ++ rest ∧ Escape raw w := by
  cases s with
  | nil => exact absurd h (by simp [readEscape])
  | cons c s =>
    simp only [readEscape] at h
    split at h
    · rename_i hc
      subst hc
      obtain ⟨raw, rfl, hescape⟩ := readCodePoint_escape s w rest h
      exact ⟨'u' :: raw, rfl, hescape⟩
    · obtain ⟨d, hd, heq⟩ := Option.map_eq_some_iff.mp h
      obtain ⟨rfl, rfl⟩ := Prod.mk.inj heq
      refine ⟨[c], rfl, Nat.le_refl 1, fun p _ => List.countP_le_length, ?_⟩
      by_cases hq : c = '"'
      · subst hq
        obtain rfl : '"' = d := Option.some.inj hd
        exact Nat.le_refl _
      · simp [hq]

/-! ### What a string stands for -/

inductive Reads : Str → Str → Prop where
  | nil : Reads [] []
  | plain (c : Char) (raw w : Str) : plainChar c = true → Reads raw w → Reads (c :: raw) (c :: w)
  | escape (e d raw w : Str) : Escape e d → Reads raw w → Reads ('\\' :: (e ++ raw)) (d ++ w)

theorem readChars_reads (n : ℕ) (s w rest : Str) (h : readChars n s = some (w, rest)) :
    ∃ raw, s = raw ++ '"' :: rest ∧ Reads raw w := by
  induction n generalizing s w with
  | zero => exact absurd h (by simp [readChars])
  | succ n ih =>
    cases s with
    | nil => exact absurd h (by simp [readChars])
    | cons c s =>
      simp only [readChars] at h
      split at h
      · rename_i hc
        subst hc
        obtain ⟨rfl, rfl⟩ := Prod.mk.inj (Option.some.inj h)
        exact ⟨[], rfl, .nil⟩
      split at h
      · rename_i hc
        subst hc
        obtain ⟨⟨d, s'⟩, he, hr⟩ := Option.bind_eq_some_iff.mp h
        obtain ⟨⟨w', rest'⟩, hr', heq⟩ := Option.map_eq_some_iff.mp hr
        obtain ⟨rfl, rfl⟩ := Prod.mk.inj heq
        obtain ⟨e, rfl, hescape⟩ := readEscape_escape s d s' he
        obtain ⟨raw, rfl, hreads⟩ := ih s' w' hr'
        exact ⟨'\\' :: (e ++ raw), by simp, .escape e d raw w' hescape hreads⟩
      split at h
      · rename_i hc
        obtain ⟨⟨w', rest'⟩, hr', heq⟩ := Option.map_eq_some_iff.mp h
        obtain ⟨rfl, rfl⟩ := Prod.mk.inj heq
        obtain ⟨raw, rfl, hreads⟩ := ih s w' hr'
        exact ⟨c :: raw, rfl, .plain c raw w' hc hreads⟩
      · exact absurd h (by simp)

/-- A character in `p` of the value is paid for by one of the text: by itself or by a
backslash, but not by a quote. -/
def pays (p : Char → Bool) (c : Char) : Bool := c == '\\' || (p c && c != '"')

theorem reads_countP (p : Char → Bool) (hp : Ascii p) (raw w : Str) (h : Reads raw w) :
    w.countP p ≤ raw.countP (pays p) := by
  induction h with
  | nil => exact Nat.le_refl 0
  | plain c raw w hc _ ih =>
    have hquote : (c != '"') = true := by
      simp only [plainChar, Bool.and_eq_true] at hc
      exact hc.1.1
    have hone : (if p c then 1 else 0) ≤ if pays p c then 1 else 0 := by
      cases hpc : p c <;> simp [pays, hpc, hquote]
    rw [List.countP_cons, List.countP_cons]
    omega
  | escape e d raw w he _ ih =>
    have hone := he.countP_le p hp
    have hback : pays p '\\' = true := rfl
    rw [List.countP_cons, hback, List.countP_append, List.countP_append]
    simp only [if_true]
    omega

theorem reads_quotes (raw w : Str) (h : Reads raw w) :
    raw.countP (· == '"') ≤ w.countP (· == '"') := by
  induction h with
  | nil => exact Nat.le_refl 0
  | plain c raw w _ _ ih =>
    rw [List.countP_cons, List.countP_cons]
    omega
  | escape e d raw w he _ ih =>
    have hq := he.quotes
    have hback : ('\\' == '"') = false := by decide
    rw [List.countP_cons, hback, List.countP_append, List.countP_append]
    simp only [Bool.false_eq_true, if_false]
    omega

/-- Every escape is longer than what it stands for. -/
theorem reads_length (raw w : Str) (h : Reads raw w) :
    w.length ≤ raw.length ∧ (raw.length ≤ w.length → ∀ c ∈ raw, plainChar c = true) := by
  induction h with
  | nil => exact ⟨Nat.le_refl 0, fun _ c hc => absurd hc List.not_mem_nil⟩
  | plain c raw w hc _ ih =>
    refine ⟨Nat.succ_le_succ ih.1, fun hlen d hd => ?_⟩
    rcases List.mem_cons.mp hd with rfl | hd
    · exact hc
    · exact ih.2 (Nat.le_of_succ_le_succ hlen) d hd
  | escape e d raw w he _ ih =>
    have hd := he.length_le
    have hw := ih.1
    simp only [List.length_cons, List.length_append]
    refine ⟨by omega, fun hlen => ?_⟩
    omega

/-- A text read as itself, up to a quote it does not hold, has no escapes. -/
theorem plain_of_readChars_self (n : ℕ) (w rest rest' : Str) (hq : '"' ∉ w)
    (h : readChars n (w ++ '"' :: rest) = some (w, rest')) : ∀ c ∈ w, plainChar c = true := by
  obtain ⟨raw, heq, hreads⟩ := readChars_reads n _ _ _ h
  -- without a quote in it the text up to the closing quote is `w` itself
  have hraw : '"' ∉ raw := by
    have hle := reads_quotes raw w hreads
    rw [countP_eq_zero_of_notMem _ _ hq] at hle
    exact notMem_of_countP_eq_zero _ _ (Nat.le_zero.mp hle)
  obtain ⟨rfl, -⟩ := append_cons_inj '"' w raw rest rest' hq hraw heq
  exact (reads_length w w hreads).2 (Nat.le_refl _)

theorem readChars_plain (n : ℕ) (w rest : Str) (hn : w.length < n)
    (h : ∀ c ∈ w, plainChar c = true) : readChars n (w ++ '"' :: rest) = some (w, rest) := by
  induction w generalizing n with
  | nil =>
    obtain ⟨n, rfl⟩ := Nat.exists_eq_succ_of_ne_zero (Nat.ne_of_gt hn)
    rfl
  | cons c w ih =>
    obtain ⟨n, rfl⟩ := Nat.exists_eq_succ_of_ne_zero (Nat.ne_of_gt (Nat.zero_lt_of_lt hn))
    have hc := h c (List.mem_cons_self ..)
    have hrest := ih n (Nat.lt_of_succ_lt_succ hn) fun d hd => h d (List.mem_cons_of_mem _ hd)
    have hne : c ≠ '"' ∧ c ≠ '\\' := by
      simp only [plainChar, Bool.and_eq_true, bne_iff_ne, ne_eq] at hc
      exact hc.1
    simp only [List.cons_append, readChars, if_neg hne.1, if_neg hne.2, hc, if_true, hrest,
      Option.map_some]

/-! ### What an object stands for -/

def texts (m : Member) : List Str :=
  m.1 :: match m.2 with
    | .string s => [s]
    | _ => []

/-- The text has two quotes for each string and pays for the characters of all. -/
structure Accounts (raw : Str) (strings : List Str) : Prop where
  quotes : 2 * strings.length ≤ raw.countP (· == '"')
  pays : ∀ p, Ascii p → strings.flatten.countP p ≤ raw.countP (pays p)

theorem Accounts.append {r s : Str} {a b : List Str} (hr : Accounts r a) (hs : Accounts s b) :
    Accounts (r ++ s) (a ++ b) := by
  constructor
  · have hqr := hr.quotes
    have hqs := hs.quotes
    rw [List.length_append, List.countP_append]
    omega
  · intro p hp
    have hpr := hr.pays p hp
    have hps := hs.pays p hp
    rw [List.flatten_append, List.countP_append, List.countP_append]
    omega

def Consumes (s rest : Str) (strings : List Str) : Prop :=
  ∃ raw, s = raw ++ rest ∧ Accounts raw strings

theorem Consumes.trans {s t u : Str} {a b : List Str} (h : Consumes s t a) (h' : Consumes t u b) :
    Consumes s u (a ++ b) := by
  obtain ⟨r, rfl, hr⟩ := h
  obtain ⟨r', rfl, hr'⟩ := h'
  exact ⟨r ++ r', (List.append_assoc ..).symm, hr.append hr'⟩

theorem consumes_suffix {s rest : Str} (h : rest <:+ s) : Consumes s rest [] := by
  obtain ⟨raw, rfl⟩ := h
  exact ⟨raw, rfl, Nat.zero_le _, fun _ _ => Nat.zero_le _⟩

theorem consumes_skip (s : Str) : Consumes s (skip s) [] := consumes_suffix (List.dropWhile_suffix _)

theorem consumes_cons (c : Char) (s : Str) : Consumes (c :: s) s [] :=
  consumes_suffix (List.suffix_cons c s)

theorem readString_consumes (s w rest : Str) (h : readString s = some (w, rest)) :
    Consumes s rest [w] := by
  cases s with
  | nil => exact absurd h (by simp [readString])
  | cons c s =>
    simp only [readString] at h
    split at h
    · rename_i hc
      subst hc
      obtain ⟨raw, rfl, hreads⟩ := readChars_reads _ s w rest h
      refine ⟨'"' :: (raw ++ ['"']), by simp, ?_, fun p hp => ?_⟩
      · simp only [List.countP_cons, List.countP_append, List.countP_nil, List.length_singleton]
        simp
      · have hle := reads_countP p hp raw w hreads
        simp only [List.countP_cons, List.countP_append, List.flatten_cons, List.flatten_nil,
          List.append_nil]
        omega
    · exact absurd h (by simp)

theorem readScalar_consumes (s rest : Str) (v : Scalar) (k : Str)
    (h : readScalar s = some (v, rest)) : Consumes s rest (texts (k, v)).tail := by
  unfold readScalar at h
  split at h
  · obtain ⟨⟨w, rest'⟩, hr, heq⟩ := Option.map_eq_some_iff.mp h
    obtain ⟨rfl, rfl⟩ := Prod.mk.inj heq
    exact readString_consumes s w rest' hr
  split at h
  · obtain ⟨rfl, rfl⟩ := Prod.mk.inj (Option.some.inj h)
    exact consumes_suffix (List.dropWhile_suffix _)
  · obtain ⟨v', hv, heq⟩ := Option.map_eq_some_iff.mp h
    obtain ⟨rfl, rfl⟩ := Prod.mk.inj heq
    have hnone : (texts (k, v')).tail = [] := by
      obtain ⟨l₁, l₂, hsplit, -⟩ := List.lookup_eq_some_iff.mp hv
      have hmem : (List.takeWhile Char.isAlpha s, v') ∈ literals := by
        rw [hsplit]
        exact List.mem_append_right _ (List.mem_cons_self ..)
      simp only [literals, List.mem_cons, List.not_mem_nil, or_false, Prod.mk.injEq] at hmem
      rcases hmem with ⟨-, rfl⟩ | ⟨-, rfl⟩ | ⟨-, rfl⟩ <;> rfl
    rw [hnone]
    exact consumes_suffix (List.dropWhile_suffix _)

theorem readMember_consumes (s rest : Str) (m : Member) (h : readMember s = some (m, rest)) :
    Consumes s rest (texts m) := by
  obtain ⟨⟨k, s1⟩, hk, hm⟩ := Option.bind_eq_some_iff.mp h
  have hkey := (consumes_skip s).trans (readString_consumes _ k s1 hk)
  split at hm
  · exact absurd hm (by simp)
  · rename_i c s2 hs2
    split at hm
    · obtain ⟨⟨v, rest'⟩, hv, heq⟩ := Option.map_eq_some_iff.mp hm
      obtain ⟨rfl, rfl⟩ := Prod.mk.inj heq
      have hcolon : Consumes s1 s2 [] := by
        have hskip := consumes_skip s1
        rw [show skip s1 = c :: s2 from hs2] at hskip
        exact hskip.trans (consumes_cons c s2)
      have hvalue := (consumes_skip s2).trans (readScalar_consumes _ rest' v k hv)
      exact (hkey.trans hcolon).trans hvalue
    · exact absurd hm (by simp)

theorem readMembers_consumes (n : ℕ) (s rest : Str) (ms : List Member)
    (h : readMembers n s = some (ms, rest)) : Consumes s rest (ms.flatMap texts) := by
  induction n generalizing s ms with
  | zero => exact absurd h (by simp [readMembers])
  | succ n ih =>
    obtain ⟨⟨m, s1⟩, hm, hr⟩ := Option.bind_eq_some_iff.mp h
    have hmember := (readMember_consumes s s1 m hm).trans (consumes_skip s1)
    split at hr
    · exact absurd hr (by simp)
    · rename_i c s2 hs2
      rw [show skip s1 = c :: s2 from hs2] at hmember
      have hnext := hmember.trans (consumes_cons c s2)
      split at hr
      · obtain ⟨⟨ms', rest'⟩, hr', heq⟩ := Option.map_eq_some_iff.mp hr
        obtain ⟨rfl, rfl⟩ := Prod.mk.inj heq
        have hall := hnext.trans (ih s2 ms' hr')
        simpa using hall
      split at hr
      · obtain ⟨rfl, rfl⟩ := Prod.mk.inj (Option.some.inj hr)
        simpa using hnext
      · exact absurd hr (by simp)

/-- The text of an object accounts for all of its strings. -/
theorem readObject_accounts (s : Str) (ms : List Member) (h : readObject s = some ms) :
    Accounts s (ms.flatMap texts) := by
  have hall : ∃ rest, Consumes s rest (ms.flatMap texts) := by
    unfold readObject at h
    split at h
    · exact absurd h (by simp)
    · rename_i c s1 hs1
      have hopen : Consumes s s1 [] := by
        have hskip := consumes_skip s
        rw [hs1] at hskip
        exact hskip.trans (consumes_cons c s1)
      split at h
      · obtain ⟨⟨ms', rest⟩, hr, rfl⟩ := Option.map_eq_some_iff.mp h
        obtain ⟨hr', -⟩ := Option.filter_eq_some_iff.mp hr
        split at hr'
        · obtain ⟨rfl, -⟩ := Prod.mk.inj (Option.some.inj hr')
          exact ⟨s1, hopen⟩
        · exact ⟨rest, hopen.trans (readMembers_consumes _ s1 rest ms' hr')⟩
      · exact absurd h (by simp)
  obtain ⟨rest, raw, rfl, hraw⟩ := hall
  have hrest : Accounts rest [] := ⟨Nat.zero_le _, fun _ _ => Nat.zero_le _⟩
  simpa using hraw.append hrest

/-! ### Reading plain members -/

theorem skip_cons (c : Char) (s : Str) (h : blank c = false) : skip (c :: s) = c :: s := by
  rw [skip, List.dropWhile_cons, h]
  rfl

theorem readString_plain (w rest : Str) (h : ∀ c ∈ w, plainChar c = true) :
    readString ('"' :: (w ++ '"' :: rest)) = some (w, rest) := by
  rw [readString, if_pos rfl]
  refine readChars_plain _ w rest ?_ h
  simp only [List.length_append, List.length_cons]
  omega

theorem readMember_key (k s : Str) (h : ∀ c ∈ k, plainChar c = true) :
    readMember ('"' :: (k ++ '"' :: ':' :: s)) =
      (readScalar (skip s)).map fun v => ((k, v.1), v.2) := by
  have hcolon : skip (':' :: s) = ':' :: s := skip_cons _ _ rfl
  rw [readMember, skip_cons _ _ rfl, readString_plain k _ h, Option.bind_some]
  simp only [hcolon, if_true]

theorem readMember_blank (s : Str) : readMember (' ' :: s) = readMember s := rfl

theorem readMembers_comma (n : ℕ) (s rest : Str) (m : Member)
    (h : readMember s = some (m, ',' :: rest)) :
    readMembers (n + 1) s = (readMembers n rest).map fun r => (m :: r.1, r.2) := by
  rw [readMembers, h]
  rfl

theorem readMembers_last (n : ℕ) (s rest : Str) (m : Member)
    (h : readMember s = some (m, '\x7d' :: rest)) :
    readMembers (n + 1) s = some ([m], rest) := by
  rw [readMembers, h]
  rfl

theorem readScalar_number (t : Str) (c : Char) (rest : Str) (ht : isNumber t = true)
    (hchars : ∀ d ∈ t, numberChar d = true) (hc : numberChar c = false) :
    readScalar (t ++ c :: rest) = some (.number t, c :: rest) := by
  have htake : (t ++ c :: rest).takeWhile numberChar = t := by
    rw [List.takeWhile_append_of_pos hchars, List.takeWhile_cons, hc]
    simp
  have hdrop : (t ++ c :: rest).dropWhile numberChar = c :: rest := by
    rw [List.dropWhile_append_of_pos hchars, List.dropWhile_cons, hc]
    simp
  have hhead : ¬(t ++ c :: rest).head? = some '"' := by
    cases t with
    | nil => exact absurd ht (by decide)
    | cons d t =>
      intro hd
      have hnum := hchars d (List.mem_cons_self ..)
      rw [List.cons_append, List.head?_cons, Option.some.injEq] at hd
      rw [hd] at hnum
      exact absurd hnum (by decide)
  rw [readScalar, if_neg hhead, htake, if_pos ht, hdrop]

theorem isNumber_printNat (n : ℕ) : isNumber (printNat n) = true := by
  have hdigits := printNat_isDigit n
  have hminus : ¬(printNat n).head? = some '-' := by
    intro h
    have hd := hdigits '-' (List.mem_of_head? h)
    exact absurd hd (by decide)
  have htake : (printNat n).takeWhile Char.isDigit = printNat n :=
    List.takeWhile_eq_self_iff.mpr hdigits
  have hdrop : (printNat n).dropWhile Char.isDigit = [] := List.dropWhile_eq_nil_iff.mpr hdigits
  have hlen : (printNat n).length ≠ 0 := fun h => printNat_ne_nil n (List.length_eq_zero_iff.mp h)
  simp only [isNumber, if_neg hminus, htake, hdrop, isFraction, Bool.and_true, Bool.and_eq_true,
    bne_iff_ne, Bool.or_eq_true, decide_eq_true_eq]
  exact ⟨hlen, printNat_head n⟩

theorem readScalar_printNat (n : ℕ) (c : Char) (rest : Str) (hc : numberChar c = false) :
    readScalar (printNat n ++ c :: rest) = some (.number (printNat n), c :: rest) :=
  readScalar_number _ c rest (isNumber_printNat n)
    (fun d hd => by simp [numberChar, printNat_isDigit n d hd]) hc

theorem readObject_quote (s : Str) : readObject ('\x7b' :: '"' :: s) =
    ((readMembers (s.length + 1) ('"' :: s)).filter fun r => (skip r.2).length = 0).map Prod.fst :=
  rfl

theorem readObject_first (k s : Str) (m : Member) (ms : List Member)
    (hk : ∀ c ∈ k, plainChar c = true)
    (h : readObject ('\x7b' :: '"' :: (k ++ '"' :: ':' :: '"' :: s)) = some (m :: ms)) :
    ∃ w rest, m = (k, .string w) ∧ readChars s.length s = some (w, rest) := by
  have hscalar : readScalar (skip ('"' :: s)) =
      (readChars s.length s).map fun r => (.string r.1, r.2) := rfl
  rw [readObject_quote] at h
  obtain ⟨⟨ms', rest⟩, hr, heq⟩ := Option.map_eq_some_iff.mp h
  obtain ⟨hmembers, -⟩ := Option.filter_eq_some_iff.mp hr
  rw [readMembers, readMember_key k _ hk, hscalar] at hmembers
  obtain ⟨⟨m', s1⟩, hm, hnext⟩ := Option.bind_eq_some_iff.mp hmembers
  obtain ⟨v, hv, hpair⟩ := Option.map_eq_some_iff.mp hm
  obtain ⟨⟨w, s2⟩, hchars, rfl⟩ := Option.map_eq_some_iff.mp hv
  obtain ⟨rfl, rfl⟩ := Prod.mk.inj hpair
  have hhead : ∃ tail, ms' = (k, .string w) :: tail := by
    split at hnext
    · exact absurd hnext (by simp)
    split at hnext
    · obtain ⟨r, -, hr'⟩ := Option.map_eq_some_iff.mp hnext
      exact ⟨r.1, (Prod.mk.inj hr').1.symm⟩
    split at hnext
    · exact ⟨[], (Prod.mk.inj (Option.some.inj hnext)).1.symm⟩
    · exact absurd hnext (by simp)
  obtain ⟨tail, rfl⟩ := hhead
  obtain ⟨rfl, -⟩ := List.cons.inj heq
  exact ⟨w, s2, rfl, hchars⟩

end Sysmngr.Json
