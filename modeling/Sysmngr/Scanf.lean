import Sysmngr.Text

/-!
# `sscanf`

A conversion string as the list of its directives, for the conversions `%c`, `%s`,
`%d`, `%u` and `%lu` with and without the star that keeps a field from being stored.
Reading stops at the first field that does not convert.
-/

namespace Sysmngr.Scanf
open Text

inductive Directive where
  | blank
  | char
  | skipWord
  | skipNumber
  | int
  | ulong
  deriving DecidableEq, Repr

inductive Value where
  | char (c : Char)
  | int (z : ℤ)
  | ulong (n : ℕ)
  deriving DecidableEq, Repr

/-- The text of a number after blanks, an optional sign and at least one digit, and what
follows it. -/
def number (s : Str) : Option (Str × Str) :=
  let s := s.dropWhile isspace
  let sign := s.takeWhile fun c => c = '-' || c = '+'
  let digits := leadingDigits (s.drop sign.length)
  if sign.length ≤ 1 ∧ digits ≠ [] then
    some (sign ++ digits, s.drop (sign.length + digits.length))
  else none

def sscanf : List Directive → Str → List Value
  | [], _ => []
  | .blank :: rest, s => sscanf rest (s.dropWhile isspace)
  | .char :: rest, s =>
    match s with
    | [] => []
    | c :: s => .char c :: sscanf rest s
  | .skipWord :: rest, s =>
    let s := s.dropWhile isspace
    let word := s.takeWhile fun c => !isspace c
    if word = [] then [] else sscanf rest (s.drop word.length)
  | .skipNumber :: rest, s =>
    match number s with
    | none => []
    | some (_, s) => sscanf rest s
  | .int :: rest, s =>
    match number s with
    | none => []
    | some (digits, s) => .int (toInt (strtol digits)) :: sscanf rest s
  | .ulong :: rest, s =>
    match number s with
    | none => []
    | some (digits, s) => .ulong (strtoul digits) :: sscanf rest s

example : sscanf [.char, .blank, .skipNumber, .blank, .ulong, .int] "S 12  7 -3 x".toList =
    [.char 'S', .ulong 7, .int (-3)] := by decide

/-! ### Printed numbers -/

theorem leadingDigits_digits (s r : Str) (hs : ∀ c ∈ s, c.isDigit = true)
    (hr : ∀ c ∈ r.head?, isspace c = true) : leadingDigits (s ++ r) = s := by
  refine leadingDigits_append s r hs fun c hc => ?_
  by_contra hdigit
  have hspace := isDigit_not_isspace c (by simpa using hdigit)
  rw [hr c hc] at hspace
  exact Bool.noConfusion hspace

theorem number_printInt (z : ℤ) (r : Str) (hr : ∀ c ∈ r.head?, isspace c = true) :
    number (printInt z ++ r) = some (printInt z, r) := by
  have hread := leadingDigits_digits (printNat z.natAbs) r (printNat_isDigit _) hr
  obtain ⟨c, t, hct⟩ := List.exists_cons_of_ne_nil (printNat_ne_nil z.natAbs)
  have hc := printNat_isDigit z.natAbs c (by rw [hct]; exact List.mem_cons_self ..)
  have hblank := isDigit_not_isspace c hc
  have hsign := isDigit_ne_sign c hc
  rw [hct] at hread
  have hread' : leadingDigits (c :: (t ++ r)) = c :: t := hread
  unfold printInt
  split
  · have hminus : isspace '-' = false := rfl
    rw [hct]
    simp [number, hminus, hsign, hread', Nat.add_comm 1]
  · rw [hct]
    simp [number, hblank, hsign, hread']

/-- What a conversion of a printed number stores. -/
def Directive.stores : Directive → ℤ → List Value
  | .int, z => [.int (toInt (strtol (printInt z)))]
  | .ulong, z => [.ulong (strtoul (printInt z))]
  | _, _ => []

def Directive.Numeric (d : Directive) : Prop := d ≠ .blank ∧ d ≠ .char

theorem printInt_blanks (z : ℤ) (r : Str) : (printInt z ++ r).dropWhile isspace = printInt z ++ r := by
  obtain ⟨c, t, hct⟩ := List.exists_cons_of_ne_nil (printInt_ne_nil z)
  have hc : isspace c = false := by
    rcases printInt_chars z c (by rw [hct]; exact List.mem_cons_self ..) with h | rfl
    · exact isDigit_not_isspace c h
    · rfl
  simp [hct, hc]

theorem printInt_word (z : ℤ) (r : Str) (hr : ∀ c ∈ r.head?, isspace c = true) :
    (printInt z ++ r).takeWhile (fun c => !isspace c) = printInt z := by
  rw [List.takeWhile_append_of_pos]
  · cases r with
    | nil => simp
    | cons c r => simp [hr c rfl]
  · intro c hc
    rcases printInt_chars z c hc with h | rfl
    · simp [isDigit_not_isspace c h]
    · rfl

theorem sscanf_printInt (d : Directive) (hd : d.Numeric) (rest : List Directive) (z : ℤ) (r : Str)
    (hr : ∀ c ∈ r.head?, isspace c = true) :
    sscanf (d :: rest) (printInt z ++ r) = d.stores z ++ sscanf rest r := by
  have hnumber := number_printInt z r hr
  cases d with
  | blank => exact absurd rfl hd.1
  | char => exact absurd rfl hd.2
  | skipWord =>
    simp only [sscanf, printInt_blanks, printInt_word z r hr, if_neg (printInt_ne_nil z),
      List.drop_left, Directive.stores, List.nil_append]
  | skipNumber => simp only [sscanf, hnumber, Directive.stores, List.nil_append]
  | int => simp only [sscanf, hnumber, Directive.stores, List.cons_append, List.nil_append]
  | ulong => simp only [sscanf, hnumber, Directive.stores, List.cons_append, List.nil_append]

/-- Numbers printed one after another, a blank before each. -/
def spaced (zs : List ℤ) : Str := zs.flatMap fun z => ' ' :: printInt z

theorem spaced_head (zs : List ℤ) (r : Str) (hr : ∀ c ∈ r.head?, isspace c = true) :
    ∀ c ∈ (spaced zs ++ r).head?, isspace c = true := by
  cases zs with
  | nil => exact hr
  | cons z zs =>
    rintro c hc
    obtain rfl : ' ' = c := by simpa [spaced] using hc
    rfl

/-- Conversions with a blank before each read printed numbers in step. -/
theorem sscanf_spaced (ds : List Directive) (hds : ∀ d ∈ ds, d.Numeric) (rest : List Directive)
    (zs : List ℤ) (hlen : zs.length = ds.length) (r : Str) (hr : ∀ c ∈ r.head?, isspace c = true) :
    sscanf ((ds.flatMap fun d => [.blank, d]) ++ rest) (spaced zs ++ r) =
      (List.zipWith Directive.stores ds zs).flatten ++ sscanf rest r := by
  induction ds generalizing zs with
  | nil =>
    obtain rfl : zs = [] := List.length_eq_zero_iff.mp hlen
    rfl
  | cons d ds ih =>
    obtain ⟨z, zs, rfl⟩ := List.exists_cons_of_length_eq_add_one hlen
    have htail := ih (fun e he => hds e (List.mem_cons_of_mem _ he)) zs (by simpa using hlen)
    have hblank : sscanf (.blank :: d :: ((ds.flatMap fun d => [.blank, d]) ++ rest))
        (' ' :: (printInt z ++ (spaced zs ++ r))) =
        sscanf (d :: ((ds.flatMap fun d => [.blank, d]) ++ rest)) (printInt z ++ (spaced zs ++ r)) := by
      have hdrop : (' ' :: (printInt z ++ (spaced zs ++ r))).dropWhile isspace =
          printInt z ++ (spaced zs ++ r) := by
        rw [List.dropWhile_cons_of_pos rfl, printInt_blanks]
      rw [sscanf, hdrop]
    have hsplit : spaced (z :: zs) ++ r = ' ' :: (printInt z ++ (spaced zs ++ r)) := by
      simp [spaced]
    rw [hsplit]
    refine hblank.trans ?_
    rw [sscanf_printInt d (hds d (List.mem_cons_self ..)) _ z _ (spaced_head zs r hr), htail]
    simp

end Sysmngr.Scanf
