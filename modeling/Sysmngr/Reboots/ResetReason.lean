import Sysmngr.Reboots.Model

/-!
# The reset-reason file

The file has a line `key: value` for each marker. Its reader looks for a word anywhere in
a line and takes what begins two bytes behind the first colon of the line buffer, which it
reads all lines into and trims in place.
-/

namespace Sysmngr.Reboots
open Text Lines

/-! ### Lines -/

def IsBlank (s : Str) : Prop := ∀ c ∈ s, isspace c = true ∧ c ≠ '\n'

instance (s : Str) : Decidable (IsBlank s) := List.decidableBAll _ s

/-- A line without the blanks around it; one without a value ends with the colon. -/
def keyValue (key value : Str) : Str := key ++ ':' :: (if value = [] then [] else ' ' :: value)

structure ReasonLine where
  lead : Str
  key : Str
  value : Str
  trail : Str
  lead_blank : IsBlank lead
  trail_blank : IsBlank trail
  key_plain : ':' ∉ key ∧ '\n' ∉ key ∧ NUL ∉ key
  key_head : key.head?.all (!isspace ·) = true
  value_plain : '\n' ∉ value ∧ NUL ∉ value
  value_last : value.getLast?.all (!isspace ·) = true
  length_le : (lead ++ keyValue key value ++ trail).length ≤ 254

def ReasonLine.stripped (l : ReasonLine) : Str := keyValue l.key l.value

def ReasonLine.text (l : ReasonLine) : Str := l.lead ++ l.stripped ++ l.trail

def ReasonLine.ended (l : ReasonLine) (newline : Bool) : Str :=
  l.text ++ if newline then ['\n'] else []

/-- A file of these lines, of which the last one may lack its newline. -/
def fileLines (newline : Bool) : List ReasonLine → List Str
  | [] => []
  | l :: rest => l.ended (newline || !rest.isEmpty) :: fileLines newline rest

def fileText (newline : Bool) (lines : List ReasonLine) : Str := (fileLines newline lines).flatten

/-- What the file says of an option: the value of the first line whose key names it. -/
def bootOption (optionName : Str) (size : ℕ) : List ReasonLine → Str
  | [] => []
  | l :: rest =>
    if strstr l.key optionName then snprintf size l.value else bootOption optionName size rest

/-- Whether the lines, latest first, leave a NUL at a position of the line buffer whatever the
library makes of the bytes between a trimmed text's end and the end it had: the text ends
there, or the line is shorter and those before it leave one. -/
def ClearedAt (newline : Bool) : List ReasonLine → ℕ → Prop
  | [], _ => True
  | l :: earlier, j =>
    j = l.stripped.length ∨ (l.ended newline).length < j ∧ ClearedAt true earlier j

/-- The line buffer after the lines, latest first. -/
def lineBuffer (lib : Libbbfdm) (newline : Bool) : List ReasonLine → List Char
  | [] => List.replicate 256 NUL
  | l :: earlier => lib.trim (lineBuffer lib true earlier) (l.ended newline)

def ZeroAt (buf : List Char) (j : ℕ) : Prop := buf[j]?.getD NUL = NUL

/-- At the first line with the word in its key or value: with the word in its key, it has a
value, or the buffer is cleared two bytes behind its colon; with the word in its value only,
the first line behind it that has the word in its key has the same value, as far as the
buffer of `size` bytes holds it. -/
def ReadsOption (cleared : Bool → List ReasonLine → ℕ → Prop) (optionName : Str) (size : ℕ)
    (newline : Bool) : List ReasonLine → List ReasonLine → Prop
  | _, [] => True
  | earlier, l :: rest =>
    if strstr l.key optionName then
      l.value ≠ [] ∨ cleared (newline || !rest.isEmpty) (l :: earlier) (l.key.length + 2)
    else if strstr l.value optionName then
      ∃ m ∈ rest.find? fun m => strstr m.key optionName,
        m.value.take (size - 1) = l.value.take (size - 1)
    else ReadsOption cleared optionName size newline (l :: earlier) rest

theorem notMem_text (l : ReasonLine) (d : Char) (hd : d = '\n' ∨ d = NUL) : d ∉ l.text := by
  have hblank : ∀ s, IsBlank s → d ∉ s := by
    intro s hs hmem
    obtain ⟨hspace, hne⟩ := hs d hmem
    rcases hd with rfl | rfl
    · exact hne rfl
    · exact absurd hspace (by decide)
  have hkey : d ∉ l.key := by
    rcases hd with rfl | rfl
    · exact l.key_plain.2.1
    · exact l.key_plain.2.2
  have hvalue : d ∉ l.value := by
    rcases hd with rfl | rfl
    · exact l.value_plain.1
    · exact l.value_plain.2
  have hcolon : d ≠ ':' ∧ d ≠ ' ' := by
    rcases hd with rfl | rfl <;> decide
  have hrest : d ∉ (if l.value = [] then [] else ' ' :: l.value) := by
    split
    · exact List.not_mem_nil
    · simp [hcolon.2, hvalue]
  simp only [ReasonLine.text, ReasonLine.stripped, keyValue, List.mem_append, List.mem_cons, not_or]
  exact ⟨⟨hblank _ l.lead_blank, hkey, hcolon.1, hrest⟩, hblank _ l.trail_blank⟩

/-! ### Reading line by line -/

theorem text_ne_nil (l : ReasonLine) : l.text ≠ [] := by
  simp [ReasonLine.text, ReasonLine.stripped, keyValue]

theorem fileLines_eq (newline : Bool) (lines : List ReasonLine) :
    fileLines newline lines = endedLines newline (lines.map ReasonLine.text) := by
  induction lines with
  | nil => rfl
  | cons l rest ih =>
    rw [fileLines, List.map_cons, endedLines, ih, List.isEmpty_map]
    rfl

theorem fgetsAll_fileText (newline : Bool) (lines : List ReasonLine) (fuel : ℕ)
    (hfuel : (fileText newline lines).length ≤ fuel) :
    fgetsAll 256 fuel (fileText newline lines) = fileLines newline lines := by
  rw [fileText, fileLines_eq] at hfuel ⊢
  refine fgetsAll_endedLines 256 newline _ fuel (fun line hline => ?_) hfuel
  obtain ⟨l, _, rfl⟩ := List.mem_map.mp hline
  have hlength : l.text.length ≤ 254 := l.length_le
  exact ⟨text_ne_nil l, notMem_text l '\n' (Or.inl rfl), by omega⟩

/-! ### The line buffer -/

theorem stripped_head (l : ReasonLine) (r : Str) :
    (l.stripped ++ r).dropWhile isspace = l.stripped ++ r := by
  have hhead := l.key_head
  unfold ReasonLine.stripped keyValue
  cases hkey : l.key with
  | nil => rfl
  | cons c key =>
    rw [hkey] at hhead
    have hc : isspace c = false := by simpa using hhead
    simp [hc]

theorem stripped_last (l : ReasonLine) : ∃ pre c, isspace c = false ∧ l.stripped = pre ++ [c] := by
  by_cases hvalue : l.value = []
  · refine ⟨l.key, ':', by decide, ?_⟩
    rw [ReasonLine.stripped, keyValue, if_pos hvalue]
  · have hlast := l.value_last
    rw [List.getLast?_eq_some_getLast hvalue] at hlast
    refine ⟨l.key ++ ':' :: ' ' :: l.value.dropLast, l.value.getLast hvalue,
      by simpa using hlast, ?_⟩
    rw [ReasonLine.stripped, keyValue, if_neg hvalue]
    conv_lhs => rw [← List.dropLast_append_getLast hvalue]
    simp

theorem withoutBlanks_text (l : ReasonLine) : withoutBlanks l.text = l.stripped := by
  have hfront : l.text.dropWhile isspace = l.stripped ++ l.trail := by
    rw [ReasonLine.text, List.append_assoc,
      List.dropWhile_append_of_pos fun c hc => (l.lead_blank c hc).1, stripped_head]
  obtain ⟨pre, c, hc, hstripped⟩ := stripped_last l
  have hblank : ∀ c ∈ l.trail.reverse, isspace c = true := fun c hc =>
    (l.trail_blank c (List.mem_reverse.mp hc)).1
  rw [withoutBlanks, hfront, List.rdropWhile, List.reverse_append,
    List.dropWhile_append_of_pos hblank, ← List.rdropWhile, hstripped,
    List.rdropWhile_concat_neg _ _ _ (by simp [hc])]

theorem withoutNewline_ended (l : ReasonLine) (newline : Bool) :
    withoutNewline (l.ended newline) = l.text := by
  have hnl := notMem_text l '\n' (Or.inl rfl)
  cases newline with
  | true => simp [withoutNewline, ReasonLine.ended]
  | false =>
    have hlast : l.text.getLast? ≠ some '\n' := fun h => hnl (List.mem_of_getLast? h)
    simp [withoutNewline, ReasonLine.ended, hlast]

theorem notMem_ended (l : ReasonLine) (newline : Bool) : NUL ∉ l.ended newline := by
  have hnul := notMem_text l NUL (Or.inr rfl)
  cases newline with
  | true => simpa [ReasonLine.ended, hnul] using (by decide : NUL ≠ '\n')
  | false => simpa [ReasonLine.ended] using hnul

section Trimmed
variable (lib : Libbbfdm) (l : ReasonLine) (newline : Bool) (buf : List Char)

theorem cstr_trimmed : cstr (lib.trim buf (l.ended newline)) = l.stripped := by
  rw [lib.cstr_trim buf _ (notMem_ended l newline), withoutNewline_ended, withoutBlanks_text]

/-- From behind the line on the buffer is as the lines before left it. -/
theorem trimmed_drop (i : ℕ) (h : (l.ended newline).length < i) :
    (lib.trim buf (l.ended newline)).drop i = buf.drop i := by
  refine List.ext_getElem? fun j => ?_
  rw [List.getElem?_drop, List.getElem?_drop,
    lib.trim_behind buf _ (notMem_ended l newline) (i + j) (by omega)]

theorem value_read (h : l.value ≠ []) :
    cstr ((lib.trim buf (l.ended newline)).drop (l.key.length + 2)) = l.value := by
  have hstripped : l.stripped = (l.key ++ [':', ' ']) ++ l.value := by
    rw [ReasonLine.stripped, keyValue, if_neg h]
    simp
  have hlen : (l.key ++ [':', ' ']).length = l.key.length + 2 := by simp
  have htext := cstr_trimmed lib l newline buf
  rw [cstr_drop _ _ (by rw [htext, hstripped, List.length_append]; omega), htext, hstripped,
    ← hlen, List.drop_left]

end Trimmed

/-! ### What the buffer holds -/

theorem cstr_drop_eq_nil (buf : List Char) (i : ℕ) : cstr (buf.drop i) = [] ↔ ZeroAt buf i := by
  have hzero : ZeroAt (buf.drop i) 0 ↔ ZeroAt buf i := by
    rw [ZeroAt, ZeroAt, List.getElem?_drop, Nat.add_zero]
  rw [← hzero]
  cases buf.drop i with
  | nil => exact ⟨fun _ => rfl, fun _ => rfl⟩
  | cons c r => by_cases hc : c = NUL <;> simp [cstr, ZeroAt, hc]

/-- Up to its end a text leaves a NUL at its end only. -/
theorem zeroAt_text (buf : List Char) (j : ℕ) (h : j ≤ (cstr buf).length) :
    ZeroAt buf j ↔ j = (cstr buf).length := by
  rw [← cstr_drop_eq_nil, cstr_drop buf j h, List.drop_eq_nil_iff]
  omega

theorem zeroAt_trimmed (lib : Libbbfdm) (l : ReasonLine) (newline : Bool) (buf : List Char) (j : ℕ)
    (h : (l.ended newline).length < j) :
    ZeroAt (lib.trim buf (l.ended newline)) j ↔ ZeroAt buf j := by
  rw [ZeroAt, ZeroAt, lib.trim_behind buf _ (notMem_ended l newline) j h]

theorem zeroAt_of_cleared (lib : Libbbfdm) (newline : Bool) (lines : List ReasonLine) (j : ℕ)
    (h : ClearedAt newline lines j) : ZeroAt (lineBuffer lib newline lines) j := by
  induction lines generalizing newline with
  | nil =>
    rw [lineBuffer, ZeroAt, List.getElem?_replicate]
    split <;> rfl
  | cons l earlier ih =>
    rw [lineBuffer]
    rcases h with rfl | ⟨hbehind, h⟩
    · have htext := cstr_trimmed lib l newline (lineBuffer lib true earlier)
      rw [zeroAt_text _ _ (by rw [htext]), htext]
    · rw [zeroAt_trimmed lib l newline _ j hbehind]
      exact ih true h

/-- Over a library that leaves no NUL in place of what it takes off, no other position is
cleared. -/
theorem cleared_of_zeroAt (newline : Bool) (lines : List ReasonLine) (j : ℕ)
    (h : ZeroAt (lineBuffer (.filling 'x') newline lines) j) : ClearedAt newline lines j := by
  induction lines generalizing newline with
  | nil => trivial
  | cons l earlier ih =>
    rw [lineBuffer] at h
    have htext := cstr_trimmed (.filling 'x') l newline (lineBuffer (.filling 'x') true earlier)
    by_cases hin : j ≤ l.stripped.length
    · left
      rwa [zeroAt_text _ _ (by rwa [htext]), htext] at h
    by_cases hbehind : (l.ended newline).length < j
    · exact Or.inr ⟨hbehind, ih true ((zeroAt_trimmed _ l newline _ j hbehind).mp h)⟩
    · have hleft := Libbbfdm.filling_trim (lineBuffer (.filling 'x') true earlier)
        (l.ended newline) 'x' (notMem_ended l newline) j
        (by rw [withoutNewline_ended, withoutBlanks_text]; omega) (by omega)
      rw [ZeroAt, hleft] at h
      exact absurd h (by decide)

theorem ReadsOption.mono {cleared cleared' : Bool → List ReasonLine → ℕ → Prop}
    (hmono : ∀ newline lines j, cleared newline lines j → cleared' newline lines j)
    (optionName : Str) (size : ℕ) (newline : Bool) (earlier lines : List ReasonLine)
    (h : ReadsOption cleared optionName size newline earlier lines) :
    ReadsOption cleared' optionName size newline earlier lines := by
  induction lines generalizing earlier with
  | nil => trivial
  | cons l rest ih =>
    rw [ReadsOption] at h ⊢
    split at h
    · rw [if_pos ‹_›]
      exact h.imp_right (hmono _ _ _)
    split at h
    · rw [if_neg ‹_›, if_pos ‹_›]
      exact h
    · rw [if_neg ‹_›, if_neg ‹_›]
      exact ih (l :: earlier) h

/-! ### What is read -/

theorem strstr_stripped (l : ReasonLine) (optionName : Str) (hcolon : ':' ∉ optionName)
    (hspace : ' ' ∉ optionName) :
    strstr l.stripped optionName = (strstr l.key optionName || strstr l.value optionName) := by
  have hnil : optionName <:+: [] → optionName <:+: l.key := fun h =>
    List.infix_nil.mp h ▸ List.nil_infix
  have hiff : optionName <:+: l.stripped ↔ optionName <:+: l.key ∨ optionName <:+: l.value := by
    rw [ReasonLine.stripped, keyValue, infix_append_cons ':' _ _ _ hcolon]
    by_cases hvalue : l.value = []
    · rw [if_pos hvalue, hvalue]
    · have hlead := infix_append_cons ' ' optionName [] l.value hspace
      rw [List.nil_append] at hlead
      rw [if_neg hvalue, hlead, ← or_assoc, or_iff_left_of_imp hnil]
  simp only [strstr, hiff, Bool.decide_or]

theorem snprintf_eq_nil (size : ℕ) (s : Str) (h : 1 < size) : snprintf size s = [] ↔ s = [] := by
  rw [snprintf, List.take_eq_nil_iff]
  exact or_iff_right (by omega)

theorem bootOption_find (optionName : Str) (size : ℕ) (lines : List ReasonLine) :
    bootOption optionName size lines =
      ((lines.find? fun m => strstr m.key optionName).map fun m => snprintf size m.value).getD [] := by
  induction lines with
  | nil => rfl
  | cons l rest ih =>
    rw [bootOption, List.find?_cons]
    cases hkey : strstr l.key optionName with
    | true => rw [if_pos rfl]; rfl
    | false => rw [if_neg Bool.false_ne_true, ih]

/-- A value is what the lines behind it say exactly if one of them has the word in its key and
the first such line has the same value. -/
theorem value_eq_bootOption_iff (optionName : Str) (size : ℕ) (value : Str)
    (lines : List ReasonLine) (hsize : 1 < size) (hvalue : value ≠ []) :
    snprintf size value = bootOption optionName size lines ↔
      ∃ m ∈ lines.find? fun m => strstr m.key optionName,
        m.value.take (size - 1) = value.take (size - 1) := by
  rw [bootOption_find]
  cases lines.find? fun m => strstr m.key optionName with
  | none =>
    refine iff_of_false (fun h => hvalue ((snprintf_eq_nil size value hsize).mp h)) ?_
    rintro ⟨m, hm, -⟩
    exact nomatch hm
  | some m =>
    constructor
    · exact fun h => ⟨m, rfl, h.symm⟩
    · rintro ⟨m', hm, h⟩
      obtain rfl := Option.some.inj hm
      exact h.symm

theorem scanLines_ended (lib : Libbbfdm) (optionName : Str) (size : ℕ) (l : ReasonLine)
    (newline : Bool) (buf : List Char) (ls : List Str) :
    scanLines lib optionName size buf (l.ended newline :: ls) =
      if strstr l.stripped optionName then
        snprintf size (cstr ((lib.trim buf (l.ended newline)).drop (l.key.length + 2)))
      else scanLines lib optionName size (lib.trim buf (l.ended newline)) ls := by
  have hcolon : l.stripped.idxOf? ':' = some l.key.length :=
    idxOf?_append_cons ':' _ _ l.key_plain.1
  simp only [scanLines, cstr_trimmed, hcolon]

-- The induction goes from line to line with the buffer that the earlier ones left.
theorem scanLines_eq_iff (lib : Libbbfdm) (optionName : Str) (size : ℕ) (newline : Bool)
    (lines : List ReasonLine) (hsize : 1 < size) (hne : optionName ≠ []) (hcolon : ':' ∉ optionName)
    (hspace : ' ' ∉ optionName) (earlier : List ReasonLine) :
    scanLines lib optionName size (lineBuffer lib true earlier) (fileLines newline lines) =
        bootOption optionName size lines ↔
      ReadsOption (fun newline lines => ZeroAt (lineBuffer lib newline lines)) optionName size
        newline earlier lines := by
  induction lines generalizing earlier with
  | nil => exact iff_of_true rfl trivial
  | cons l rest ih =>
    rw [fileLines, scanLines_ended, strstr_stripped l optionName hcolon hspace, bootOption,
      ReadsOption]
    cases hkey : strstr l.key optionName with
    | true =>
      rw [Bool.true_or, if_pos rfl, if_pos rfl, if_pos rfl]
      by_cases hvalue : l.value = []
      · have hnil : snprintf size l.value = [] := (snprintf_eq_nil size _ hsize).mpr hvalue
        rw [hnil, snprintf_eq_nil size _ hsize, cstr_drop_eq_nil]
        exact (or_iff_right (not_not_intro hvalue)).symm
      · rw [value_read lib l _ _ hvalue]
        exact iff_of_true rfl (Or.inl hvalue)
    | false =>
      rw [Bool.false_or, if_neg Bool.false_ne_true, if_neg Bool.false_ne_true]
      cases hword : strstr l.value optionName with
      | true =>
        have hvalue : l.value ≠ [] := by
          rintro hnil
          rw [hnil, strstr, decide_eq_true_eq, List.infix_nil] at hword
          exact hne hword
        rw [if_pos rfl, if_pos rfl, value_read lib l _ _ hvalue]
        exact value_eq_bootOption_iff optionName size l.value rest hsize hvalue
      | false =>
        rw [if_neg Bool.false_ne_true, if_neg Bool.false_ne_true]
        cases rest with
        | nil => exact iff_of_true rfl trivial
        | cons next rest =>
          have hend : (newline || !(next :: rest).isEmpty) = true := Bool.or_true _
          rw [hend]
          exact ih (l :: earlier)

theorem getBootOptionValue_file (lib : Libbbfdm) (optionName : Str) (size : ℕ) (newline : Bool)
    (lines : List ReasonLine) :
    getBootOptionValue lib (some (fileText newline lines)) optionName size =
      scanLines lib optionName size (lineBuffer lib true []) (fileLines newline lines) := by
  rw [getBootOptionValue, fgetsAll_fileText newline lines _ (Nat.le_refl _)]
  rfl

/-- When the value read is that of the first line whose key names the option: whatever the
library leaves behind the texts it trims, and over each library by itself. -/
theorem boot_option_value_iff (optionName : Str) (size : ℕ) (newline : Bool)
    (lines : List ReasonLine) (hsize : 1 < size)
    (hname : optionName = "triggered".toList ∨ optionName = "reason".toList) :
    ((∀ lib : Libbbfdm, getBootOptionValue lib (some (fileText newline lines)) optionName size =
        bootOption optionName size lines) ↔
      ReadsOption ClearedAt optionName size newline [] lines) ∧
    ∀ lib : Libbbfdm, getBootOptionValue lib (some (fileText newline lines)) optionName size =
        bootOption optionName size lines ↔
      ReadsOption (fun newline lines => ZeroAt (lineBuffer lib newline lines)) optionName size
        newline [] lines := by
  have hplain : optionName ≠ [] ∧ ':' ∉ optionName ∧ ' ' ∉ optionName := by
    rcases hname with rfl | rfl <;> decide +kernel
  have heach : ∀ lib : Libbbfdm,
      getBootOptionValue lib (some (fileText newline lines)) optionName size =
        bootOption optionName size lines ↔
      ReadsOption (fun newline lines => ZeroAt (lineBuffer lib newline lines)) optionName size
        newline [] lines := fun lib => by
    rw [getBootOptionValue_file]
    exact scanLines_eq_iff lib optionName size newline lines hsize hplain.1 hplain.2.1 hplain.2.2 []
  refine ⟨⟨fun h => ?_, fun h lib => ?_⟩, heach⟩
  · exact ((heach _).mp (h (.filling 'x'))).mono cleared_of_zeroAt _ _ _ _ _
  · exact (heach lib).mpr (h.mono (zeroAt_of_cleared lib) _ _ _ _ _)

def upgradeTrigger : ReasonLine :=
  ⟨[], "triggered".toList, "upgrade".toList, [], by decide +kernel, by decide +kernel,
    by decide +kernel, by decide +kernel, by decide +kernel, by decide +kernel, by decide +kernel⟩

def noReason : ReasonLine :=
  ⟨[' '], "triggered".toList, "no reason".toList, [], by decide +kernel, by decide +kernel,
    by decide +kernel, by decide +kernel, by decide +kernel, by decide +kernel, by decide +kernel⟩

def porReset : ReasonLine :=
  ⟨[], "reason".toList, "POR_RESET".toList, [' ', '\t'], by decide +kernel, by decide +kernel,
    by decide +kernel, by decide +kernel, by decide +kernel, by decide +kernel, by decide +kernel⟩

def emptyReason : ReasonLine :=
  ⟨[], "reason".toList, [], [], by decide +kernel, by decide +kernel,
    by decide +kernel, by decide +kernel, by decide +kernel, by decide +kernel, by decide +kernel⟩

theorem boot_option_value_sample :
    getBootOptionValue .clearing (some (fileText true [porReset, noReason])) "reason".toList 32 =
      "POR_RESET".toList :=
  (boot_option_value_iff "reason".toList 32 true [porReset, noReason] (by decide)
    (Or.inr rfl)).1.mpr (Or.inl (by decide +kernel)) .clearing

/-- Over no library: the word in another line's value, and text of the line before behind a
bare colon. -/
theorem other_lines_read :
    ((∀ lib : Libbbfdm, getBootOptionValue lib (some (fileText true [noReason, porReset]))
        "reason".toList 32 = "no reason".toList) ∧
      bootOption "reason".toList 32 [noReason, porReset] = "POR_RESET".toList) ∧
    ((∀ lib : Libbbfdm, getBootOptionValue lib (some (fileText false [upgradeTrigger, emptyReason]))
        "reason".toList 32 = "d: upgrade".toList) ∧
      bootOption "reason".toList 32 [upgradeTrigger, emptyReason] = []) := by
  refine ⟨⟨fun lib => ?_, by decide +kernel⟩, fun lib => ?_, by decide +kernel⟩
  · have hfound : strstr noReason.stripped "reason".toList = true := by decide +kernel
    rw [getBootOptionValue_file, fileLines, scanLines_ended, if_pos hfound,
      value_read lib noReason _ _ (List.cons_ne_nil _ _)]
    rfl
  · have hother : ¬strstr upgradeTrigger.stripped "reason".toList = true := by decide +kernel
    have hfound : strstr emptyReason.stripped "reason".toList = true := by decide +kernel
    have htext := cstr_trimmed lib upgradeTrigger true (lineBuffer lib true [])
    have hread : getBootOptionValue lib (some (fileText false [upgradeTrigger, emptyReason]))
        "reason".toList 32 =
          snprintf 32 (cstr ((lib.trim (lib.trim (lineBuffer lib true [])
            (upgradeTrigger.ended true)) (emptyReason.ended false)).drop 8)) := by
      rw [getBootOptionValue_file, fileLines, fileLines, scanLines_ended, if_neg hother,
        scanLines_ended, if_pos hfound]
      rfl
    rw [hread, trimmed_drop lib emptyReason false _ 8 (by decide +kernel),
      cstr_drop _ 8 (by rw [htext]; decide +kernel), htext]
    decide +kernel

end Sysmngr.Reboots
