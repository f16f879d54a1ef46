import Sysmngr.Text
import Sysmngr.Words

/-!
# Paths as segments

A path is read as its segments: what stands between slashes, without the empty ones that
repeated slashes make and without `.`. Without `..` a path leads into a directory exactly
if the directory's segments come first and something follows them.
-/

namespace Sysmngr.Paths
open Text Words

def isSlash (c : Char) : Bool := c == '/'

def segments (path : Str) : List Str := (words isSlash path).filter (· != ".".toList)

/-- The path names something strictly inside the directory with segments `dir`. -/
def Inside (dir : List Str) (path : Str) : Prop := ∃ rest, rest ≠ [] ∧ segments path = dir ++ rest

theorem segments_append_slash (s t : Str) :
    segments (s ++ '/' :: t) = segments s ++ segments t := by
  rw [segments, words_append_break isSlash s '/' t rfl, List.filter_append]
  rfl

/-- A segment that is more than a dot stands first, whatever follows it. -/
theorem segments_word_append (w r : Str) (hw : '/' ∉ w) (hne : w ≠ []) (hdot : w ≠ ".".toList)
    (hr : r = [] ∨ ∃ t, r = '/' :: t) : ∃ more, segments (w ++ r) = w :: more := by
  have hword : ∀ c ∈ w, isSlash c = false := by
    intro c hc
    rw [isSlash, beq_eq_false_iff_ne]
    rintro rfl
    exact hw hc
  have hfirst : segments w = [w] := by
    have hkeep : (w != ".".toList) = true := by simpa using hdot
    rw [segments, words_word isSlash w hword, if_neg hne, List.filter_cons, if_pos hkeep]
    rfl
  rcases hr with rfl | ⟨t, rfl⟩
  · exact ⟨[], by rw [List.append_nil, hfirst]⟩
  · exact ⟨segments t, by rw [segments_append_slash, hfirst, List.singleton_append]⟩

/-- A word that goes on before the next slash is not a segment of its own. -/
theorem segments_longer (v : Str) (c : Char) (r : Str) (hv : '/' ∉ v) (hne : v ≠ [])
    (hc : c ≠ '/') : ∃ w more, w ≠ [] ∧ segments (v ++ c :: r) = (v ++ w) :: more := by
  let w := (c :: r).takeWhile fun d => !isSlash d
  have hsplit : c :: r = w ++ (c :: r).dropWhile fun d => !isSlash d :=
    (List.takeWhile_append_dropWhile ..).symm
  have hw : w ≠ [] := by
    have hstart : (!isSlash c) = true := by simpa [isSlash] using hc
    simp [w, hstart]
  have hrest : (c :: r).dropWhile (fun d => !isSlash d) = [] ∨
      ∃ t, (c :: r).dropWhile (fun d => !isSlash d) = '/' :: t := by
    cases hdrop : (c :: r).dropWhile fun d => !isSlash d with
    | nil => exact Or.inl rfl
    | cons d t =>
      have hd := head_of_dropWhile (fun d => !isSlash d) (c :: r) d t hdrop
      have hslash : d = '/' := by simpa [isSlash] using hd
      exact Or.inr ⟨t, by rw [hslash]⟩
  have hclean : '/' ∉ v ++ w := by
    intro hmem
    rcases List.mem_append.mp hmem with hmem | hmem
    · exact hv hmem
    · exact absurd (takeWhile_word isSlash (c :: r) _ hmem) (by decide)
  have hdot : v ++ w ≠ ".".toList := by
    intro hdot
    have hlen := congrArg List.length hdot
    have hvpos := List.length_pos_iff.mpr hne
    have hwpos := List.length_pos_iff.mpr hw
    have hone : ".".toList.length = 1 := rfl
    rw [List.length_append, hone] at hlen
    omega
  obtain ⟨more, hmore⟩ := segments_word_append (v ++ w) _ hclean (by simp [hne]) hdot hrest
  refine ⟨w, more, hw, ?_⟩
  rw [hsplit, ← List.append_assoc, hmore]

/-- Without `..` a path has a segment exactly if it is more than slashes and dots. -/
theorem segments_ne_nil_iff (s : Str) (h : strstr s "..".toList = false) :
    segments s ≠ [] ↔ ∃ c ∈ s, c ≠ '/' ∧ c ≠ '.' := by
  have hdots : ¬"..".toList <:+: s := of_decide_eq_false h
  constructor
  · intro hne
    obtain ⟨w, hw⟩ := List.exists_mem_of_ne_nil _ hne
    obtain ⟨hword, hkeep⟩ := List.mem_filter.mp hw
    have hinfix := word_infix isSlash s w hword
    obtain ⟨hwne, hclean⟩ := mem_word isSlash s w hword
    have hslash : ∀ c ∈ w, c ≠ '/' := fun c hc => by simpa [isSlash] using hclean c hc
    -- a word of dots alone is `.` or has `..` in it
    by_contra hnone
    have hdot : ∀ c ∈ w, c = '.' := by
      intro c hc
      by_contra hcdot
      exact hnone ⟨c, hinfix.subset hc, hslash c hc, hcdot⟩
    match w, hwne with
    | [a], _ =>
      rw [hdot a (List.mem_singleton_self a)] at hkeep
      exact absurd hkeep (by decide)
    | a :: b :: rest, _ =>
      have ha := hdot a (List.mem_cons_self ..)
      have hb := hdot b (List.mem_cons_of_mem _ (List.mem_cons_self ..))
      refine hdots (List.IsInfix.trans ⟨[], rest, ?_⟩ hinfix)
      rw [ha, hb]
      rfl
  · rintro ⟨c, hc, hslash, hdot⟩ hnil
    obtain ⟨w, hw, hcw⟩ := exists_word isSlash s c hc (by simpa [isSlash] using hslash)
    have hkeep : (w != ".".toList) = true := by
      rw [bne_iff_ne]
      rintro rfl
      exact hdot (List.mem_singleton.mp hcw)
    have hmem : w ∈ segments s := List.mem_filter.mpr ⟨hw, hkeep⟩
    rw [hnil] at hmem
    exact absurd hmem List.not_mem_nil

end Sysmngr.Paths
