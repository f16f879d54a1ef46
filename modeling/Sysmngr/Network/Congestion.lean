import Sysmngr.Text
import Sysmngr.Words

/-!
# Supported congestion controls (`network.c`)

The algorithms the kernel lists are looked for in each token as substrings, one after the
other, and their display names written one behind the other with a comma after each; the
last comma is overwritten at the end.
-/

namespace Sysmngr.Network
open Text Words

def isSpace (c : Char) : Bool := c == ' '

/-- `read_file_content`: what the buffer holds, `none` when opening or reading fails. -/
def readFileContent (content : Option Str) (bufferSize : ℕ) : Option Str :=
  content.map fun s => cstr (snprintf bufferSize s)

/-- The tests in their order; `newreno` comes behind a test for a part of it. -/
def matchedName (token : Str) : Option Str :=
  if strstr token "reno".toList then some "Reno".toList
  else if strstr token "cubic".toList then some "Cubic".toList
  else if strstr token "newreno".toList then some "New Reno".toList
  else if strstr token "vegas".toList then some "Vegas".toList
  else if strstr token "tahoe".toList then some "Tahoe".toList
  else none

structure Output where
  output : List Char
  pos : ℕ
  deriving DecidableEq, Repr

/-- `output_size - pos` as a `size_t`. -/
def room (outputSize pos : ℕ) : ℕ := (2 ^ 64 + outputSize - pos) % 2 ^ 64

/-- Every text that is printed is a name and a comma. -/
def appendControl (outputSize : ℕ) (o : Output) (token : Str) : Output :=
  match matchedName token with
  | none => o
  | some name =>
    let text := name ++ ",".toList
    { output := o.output.take o.pos ++
        store (o.output.drop o.pos) (snprintf (room outputSize o.pos) text)
      pos := o.pos + text.length }

/-- The caller's buffer is cleared before the call. -/
def writeControls (outputSize : ℕ) (buffer : Str) : Output :=
  foldWords isSpace (appendControl outputSize) ⟨List.replicate outputSize NUL, 0⟩ buffer

def removeComma (o : Output) : Output :=
  if 0 < o.pos then { o with output := o.output.set (o.pos - 1) NUL } else o

def getSupportedCongestionControls (content : Option Str) (outputSize : ℕ) : Option Output :=
  (readFileContent content 128).map fun buffer => removeComma (writeControls outputSize buffer)

def getTCPImplementation (content : Option Str) : Str :=
  match getSupportedCongestionControls content 256 with
  | none => []
  | some o => cstr o.output

/-! ### What the list should be -/

def CONTROLS : List (Str × Str) :=
  [("reno".toList, "Reno".toList), ("cubic".toList, "Cubic".toList),
    ("newreno".toList, "New Reno".toList), ("vegas".toList, "Vegas".toList),
    ("tahoe".toList, "Tahoe".toList)]

def displayName (token : Str) : Option Str :=
  (CONTROLS.find? fun c => c.1 == token).map Prod.snd

/-- The display names of the listed algorithms with commas between them, in a buffer that
was neither left nor filled up. -/
structure ListsControls (content : Str) : Prop where
  names : getTCPImplementation (some content) =
    [','].intercalate ((words isSpace content).filterMap displayName)
  fits : ∀ o, getSupportedCongestionControls (some content) 256 = some o →
    o.pos < 256 ∧ o.output.length = 256

def NamedExactly (token : Str) : Prop :=
  ∀ name ∈ ["reno".toList, "cubic".toList, "vegas".toList, "tahoe".toList],
    strstr token name = true → token = name

instance (token : Str) : Decidable (NamedExactly token) :=
  inferInstanceAs (Decidable (∀ name ∈ _, _ → _))

/-! ### The buffer -/

/-- The buffer holds `text` and NULs behind it. -/
def Written (o : Output) (text : Str) : Prop :=
  o.output = text ++ List.replicate (256 - text.length) NUL ∧ o.pos = text.length

/-- The names that are found, and what is written for each. -/
def FOUND : List (Str × Str) :=
  [("reno".toList, "Reno".toList), ("cubic".toList, "Cubic".toList),
    ("vegas".toList, "Vegas".toList), ("tahoe".toList, "Tahoe".toList)]

/-- The test for `newreno` never decides: its tokens pass the one for `reno`. -/
theorem matchedName_eq (token : Str) :
    matchedName token = (FOUND.find? fun c => strstr token c.1).map Prod.snd := by
  have hshadow : strstr token "reno".toList = false → strstr token "newreno".toList = false := by
    intro hreno
    rw [strstr, decide_eq_false_iff_not] at hreno ⊢
    have hpart : "reno".toList <:+: "newreno".toList := by decide
    exact fun h => hreno (hpart.trans h)
  rw [matchedName, FOUND, List.find?_cons, List.find?_cons, List.find?_cons, List.find?_cons,
    List.find?_nil]
  cases hreno : strstr token "reno".toList with
  | true => rfl
  | false =>
    rw [hshadow hreno]
    cases strstr token "cubic".toList with
    | true => rfl
    | false =>
      cases strstr token "vegas".toList with
      | true => rfl
      | false => cases strstr token "tahoe".toList <;> rfl

theorem matchedName_length (token name : Str) (h : matchedName token = some name) :
    name.length ≤ token.length := by
  rw [matchedName_eq] at h
  obtain ⟨c, hfind, rfl⟩ := Option.map_eq_some_iff.mp h
  have hlengths : ∀ c ∈ FOUND, c.2.length = c.1.length := by decide
  have hfound : strstr token c.1 = true := by simpa using List.find?_some hfind
  have hinfix : c.1 <:+: token := of_decide_eq_true hfound
  rw [hlengths c (List.mem_of_find?_eq_some hfind)]
  exact hinfix.length_le

theorem written_append (o : Output) (text : Str) (token : Str) (h : Written o text)
    (hroom : text.length + (token.length + 1) < 256) :
    Written (appendControl 256 o token)
      (text ++ ((matchedName token).map (· ++ ",".toList)).getD []) := by
  obtain ⟨houtput, hpos⟩ := h
  unfold appendControl
  cases hname : matchedName token with
  | none =>
    simp only [Option.map_none, Option.getD_none, List.append_nil]
    exact ⟨houtput, hpos⟩
  | some name =>
    have hlength := matchedName_length token name hname
    have hcomma : (name ++ ",".toList).length = name.length + 1 := List.length_append
    have hsize : room 256 o.pos = 256 - text.length := by
      unfold room
      omega
    have hwhole : snprintf (room 256 o.pos) (name ++ ",".toList) = name ++ ",".toList :=
      snprintf_of_le _ _ (by omega)
    simp only [Option.map_some, Option.getD_some]
    constructor
    · have htake : o.output.take o.pos = text := by rw [houtput, hpos, List.take_left]
      have hdrop : o.output.drop o.pos = List.replicate (256 - text.length) NUL := by
        rw [houtput, hpos, List.drop_left]
      have hnul : List.replicate (256 - (text ++ (name ++ ",".toList)).length) NUL =
          NUL :: List.replicate (256 - text.length - (name.length + 1 + 1)) NUL := by
        rw [← List.replicate_succ, List.length_append, hcomma]
        congr 1
        omega
      simp only [hwhole, htake, hdrop, store, List.drop_replicate, hcomma, hnul,
        List.append_assoc]
    · simp only [hpos, List.length_append]

theorem written_fold (ws : List Str) (o : Output) (text : Str) (h : Written o text)
    (hroom : text.length + (ws.map fun w => w.length + 1).sum < 256) :
    Written (ws.foldl (appendControl 256) o)
      (text ++ (ws.filterMap matchedName).flatMap (· ++ ",".toList)) ∧
      (text ++ (ws.filterMap matchedName).flatMap (· ++ ",".toList)).length < 256 := by
  induction ws generalizing o text with
  | nil =>
    simp only [List.filterMap_nil, List.flatMap_nil, List.append_nil]
    exact ⟨h, by simpa using hroom⟩
  | cons w ws ih =>
    rw [List.map_cons, List.sum_cons] at hroom
    have hnext := written_append o text w h (by omega)
    rw [List.foldl_cons, List.filterMap_cons]
    cases hname : matchedName w with
    | none =>
      rw [hname] at hnext
      simp only [Option.map_none, Option.getD_none, List.append_nil] at hnext
      exact ih _ text hnext (by omega)
    | some name =>
      rw [hname] at hnext
      simp only [Option.map_some, Option.getD_some] at hnext
      have hlength := matchedName_length w name hname
      have hcomma : (name ++ ",".toList).length = name.length + 1 := List.length_append
      have hrest := ih _ (text ++ (name ++ ",".toList)) hnext (by
        rw [List.length_append]
        omega)
      rw [List.append_assoc] at hrest
      exact hrest

/-! ### The list -/

theorem found_names (ws : List Str) :
    ∀ name ∈ ws.filterMap matchedName, name ≠ [] ∧ NUL ∉ name ∧ ',' ∉ name := by
  have hall : ∀ c ∈ FOUND, c.2 ≠ [] ∧ NUL ∉ c.2 ∧ ',' ∉ c.2 := by decide
  intro name hname
  obtain ⟨w, _, hw⟩ := List.mem_filterMap.mp hname
  rw [matchedName_eq] at hw
  obtain ⟨c, hfind, rfl⟩ := Option.map_eq_some_iff.mp hw
  exact hall c (List.mem_of_find?_eq_some hfind)

theorem display_names (ws : List Str) :
    ∀ name ∈ ws.filterMap displayName, name ≠ [] ∧ ',' ∉ name := by
  have hall : ∀ c ∈ CONTROLS, c.2 ≠ [] ∧ ',' ∉ c.2 := by decide
  intro name hname
  obtain ⟨w, _, hw⟩ := List.mem_filterMap.mp hname
  obtain ⟨c, hfind, rfl⟩ := Option.map_eq_some_iff.mp hw
  exact hall c (List.mem_of_find?_eq_some hfind)

/-- Overwriting the last comma leaves the names with commas between them. -/
theorem removeComma_text (o : Output) (names : List Str) (hnul : ∀ name ∈ names, NUL ∉ name)
    (h : Written o (names.flatMap (· ++ ",".toList))) :
    cstr (removeComma o).output = [','].intercalate names := by
  obtain ⟨houtput, hpos⟩ := h
  by_cases hne : names = []
  · rw [hne] at houtput hpos ⊢
    have hzero : ¬0 < o.pos := by
      rw [hpos]
      decide
    rw [removeComma, if_neg hzero, houtput, List.intercalate_nil, List.flatMap_nil]
    rfl
  · have hjoined := intercalate_terminated ',' names hne
    have hcomma : ",".toList = [','] := rfl
    rw [hcomma, ← hjoined] at houtput hpos
    have hlength : o.pos = ([','].intercalate names).length + 1 := by
      rw [hpos, List.length_append, List.length_singleton]
    have hlast : o.pos - 1 = ([','].intercalate names).length := by omega
    have hclean : NUL ∉ [','].intercalate names := by
      intro hmem
      have hflat : NUL ∈ names.flatMap (· ++ [',']) := by
        rw [← hjoined]
        exact List.mem_append_left _ hmem
      obtain ⟨name, hname, hin⟩ := List.mem_flatMap.mp hflat
      rcases List.mem_append.mp hin with hin | hin
      · exact hnul name hname hin
      · exact absurd hin (by decide)
    have hsome : 0 < o.pos := by omega
    simp only [removeComma, if_pos hsome]
    rw [hlast, houtput, List.append_assoc, List.set_append_right _ _ (Nat.le_refl _),
      Nat.sub_self, List.singleton_append, List.set_cons_zero]
    exact cstr_append _ _ hclean

theorem removeComma_size (o : Output) :
    (removeComma o).pos = o.pos ∧ (removeComma o).output.length = o.output.length := by
  unfold removeComma
  split
  · exact ⟨rfl, List.length_set⟩
  · exact ⟨rfl, rfl⟩

theorem written_length (o : Output) (text : Str) (h : Written o text) (hroom : text.length < 256) :
    o.output.length = 256 := by
  rw [h.1, List.length_append, List.length_replicate]
  omega

/-- Every content of up to 127 bytes is listed whole, by the names that are found. -/
theorem getSupportedCongestionControls_spec (content : Str) (hlength : content.length ≤ 127)
    (hnul : NUL ∉ content) : ∃ o, getSupportedCongestionControls (some content) 256 = some o ∧
      cstr o.output = [','].intercalate ((words isSpace content).filterMap matchedName) ∧
      o.pos < 256 ∧ o.output.length = 256 := by
  have hbuffer : readFileContent (some content) 128 = some content := by
    rw [readFileContent, Option.map_some, snprintf_of_le 128 content (by omega),
      cstr_of_notMem content hnul]
  have hsum : ((words isSpace content).map fun w : Str => w.length + 1).sum ≤
      content.length + 1 := words_length_sum isSpace content
  have hwritten := written_fold (words isSpace content) ⟨List.replicate 256 NUL, 0⟩ []
    ⟨rfl, rfl⟩ (by
      rw [List.length_nil]
      omega)
  rw [List.nil_append, ← foldWords_eq isSpace] at hwritten
  obtain ⟨hwritten, hroom⟩ := hwritten
  have hsize := removeComma_size (writeControls 256 content)
  have hfull := written_length _ _ hwritten hroom
  refine ⟨removeComma (writeControls 256 content), ?_, ?_, ?_, ?_⟩
  · rw [getSupportedCongestionControls, hbuffer, Option.map_some]
  · exact removeComma_text _ _ (fun name hname => (found_names _ name hname).2.1) hwritten
  · rw [hsize.1, writeControls, hwritten.2]
    exact hroom
  · rw [hsize.2]
    exact hfull

/-! ### Names that are parts of others -/

theorem displayed_contains (token : Str) (h : (displayName token).isSome) :
    ∃ c ∈ FOUND, strstr token c.1 = true := by
  have hcontains : ∀ e ∈ CONTROLS, ∃ c ∈ FOUND, strstr e.1 c.1 = true := by decide
  rw [displayName, Option.isSome_map] at h
  obtain ⟨e, hfind⟩ := Option.isSome_iff_exists.mp h
  have htoken : e.1 = token := by simpa using List.find?_some hfind
  rw [← htoken]
  exact hcontains e (List.mem_of_find?_eq_some hfind)

/-- The tests are right about a token exactly if it is the name that is found in it. -/
theorem matchedName_eq_displayName_iff (token : Str) :
    matchedName token = displayName token ↔ NamedExactly token := by
  rw [matchedName_eq]
  constructor
  · intro heq name hname hin
    have hentries : ∀ name ∈ ["reno".toList, "cubic".toList, "vegas".toList, "tahoe".toList],
        ∃ c ∈ FOUND, c.1 = name := by decide
    obtain ⟨c, hc, rfl⟩ := hentries name hname
    obtain ⟨d, hfind⟩ := Option.isSome_iff_exists.mp
      (List.find?_isSome.mpr ⟨c, hc, hin⟩ : (FOUND.find? fun c => strstr token c.1).isSome)
    rw [hfind, Option.map_some, displayName] at heq
    obtain ⟨e, hshown, htext⟩ := Option.map_eq_some_iff.mp heq.symm
    have htoken : e.1 = token := by simpa using List.find?_some hshown
    have hd := List.mem_of_find?_eq_some hfind
    have hnames : ∀ e ∈ CONTROLS, ∀ d ∈ FOUND, e.2 = d.2 → e.1 = d.1 := by decide
    have hparts : ∀ d ∈ FOUND, ∀ c ∈ FOUND, strstr d.1 c.1 = true → d.1 = c.1 := by decide
    -- the name printed is the token's own, so what was found in the token is all of it
    have hsame : token = d.1 := by
      rw [← htoken]
      exact hnames e (List.mem_of_find?_eq_some hshown) d hd htext
    rw [hsame] at hin ⊢
    exact hparts d hd c hc hin
  · intro h
    cases hfind : FOUND.find? fun c => strstr token c.1 with
    | none =>
      rw [Option.map_none, eq_comm, ← Option.not_isSome_iff_eq_none]
      intro hshown
      obtain ⟨c, hc, hin⟩ := displayed_contains token hshown
      exact List.find?_eq_none.mp hfind c hc hin
    | some c =>
      have hfound : strstr token c.1 = true := by simpa using List.find?_some hfind
      have hmem := List.mem_of_find?_eq_some hfind
      have hkeys : ∀ c ∈ FOUND, c.1 ∈
          ["reno".toList, "cubic".toList, "vegas".toList, "tahoe".toList] := by decide
      have hshown : ∀ c ∈ FOUND, displayName c.1 = some c.2 := by decide
      rw [h c.1 (hkeys c hmem) hfound, hshown c hmem, Option.map_some]

theorem displayName_matched (token : Str) (h : (displayName token).isSome) :
    (matchedName token).isSome := by
  rw [matchedName_eq, Option.isSome_map, List.find?_isSome]
  exact displayed_contains token h

/-- The list is right and fits exactly when every token that has one of the names `reno`,
`cubic`, `vegas` and `tahoe` in it is that name. -/
theorem listsControls_iff (content : Str) (hlength : content.length ≤ 127) (hnul : NUL ∉ content) :
    ListsControls content ↔ ∀ token ∈ words isSpace content, NamedExactly token := by
  obtain ⟨o, ho, htext, hfits⟩ := getSupportedCongestionControls_spec content hlength hnul
  have hresult : getTCPImplementation (some content) =
      [','].intercalate ((words isSpace content).filterMap matchedName) := by
    rw [getTCPImplementation, ho]
    exact htext
  have hcomma : (fun c : Char => c == ',') ',' = true := by decide
  have hclean : ∀ names : List Str, (∀ name ∈ names, name ≠ [] ∧ ',' ∉ name) →
      ∀ name ∈ names, name ≠ [] ∧ ∀ c ∈ name, (c == ',') = false := by
    intro names h name hname
    refine ⟨(h name hname).1, fun c hc => ?_⟩
    rw [beq_eq_false_iff_ne]
    rintro rfl
    exact (h name hname).2 hc
  constructor
  · intro h token htoken
    have hnames := h.names
    rw [hresult] at hnames
    have hlists := intercalate_inj (fun c : Char => c == ',') ',' hcomma _ _
      (hclean _ fun name hname => ⟨(found_names _ name hname).1, (found_names _ name hname).2.2⟩)
      (hclean _ (display_names _)) hnames
    exact (matchedName_eq_displayName_iff token).mp
      (filterMap_eq_pointwise (fun t _ => displayName_matched t) hlists token htoken)
  · intro h
    refine ⟨?_, fun o' ho' => ?_⟩
    · rw [hresult, List.filterMap_congr fun token htoken =>
        (matchedName_eq_displayName_iff token).mpr (h token htoken)]
    · rw [ho] at ho'
      obtain rfl := Option.some.inj ho'
      exact hfits

theorem lists_reno_cubic : ListsControls "reno cubic".toList :=
  (listsControls_iff "reno cubic".toList (by decide) (by decide)).mpr (by decide)

theorem newreno_listed_as_reno :
    ¬∀ content : Str, content.length ≤ 127 → NUL ∉ content → '\n' ∉ content →
      ListsControls content := by
  intro hall
  have h := hall "newreno".toList (by decide) (by decide) (by decide)
  obtain ⟨o, ho, htext, -⟩ := getSupportedCongestionControls_spec "newreno".toList (by decide)
    (by decide)
  have hnames := h.names
  rw [getTCPImplementation, ho] at hnames
  exact absurd (htext.symm.trans hnames) (by decide)

end Sysmngr.Network
