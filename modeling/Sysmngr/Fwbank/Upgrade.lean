import Sysmngr.Blobmsg
import Sysmngr.Json
import Sysmngr.Shell
import Sysmngr.Uci

/-!
# The upgrade command (`fwbank.c`)

The method `upgrade` prints its arguments as a JSON object between single quotes,
the argument of an `echo` piped into the script, into a buffer of 1024 bytes. The
script gets the arguments exactly when the path needs no escape of either language
and the cut spares the command or takes off no more than the redirection.
-/

namespace Sysmngr.Fwbank
open Text Blobmsg Uci

def FWBANK_FILE_PATH : Str := "/etc/sysmngr/fwbank".toList

def FWBANK_UPGRADE_CMD : Str := FWBANK_FILE_PATH ++ " call upgrade".toList

/-! ### The method -/

def upgradeJson (path : Str) (autoActivate : Bool) (bankId : UInt32) (keepSettings : Bool) : Str :=
  "\x7b\"path\":\"".toList ++ path ++ "\", \"auto_activate\":".toList ++
    printNat autoActivate.toNat ++ ", \"bank\":".toList ++ printNat bankId.toNat ++
    ", \"keep_settings\":".toList ++ printNat keepSettings.toNat ++ "\x7d".toList

/-- The command forked; without a path `%s` prints `(null)`. -/
def sysmngrFwbankUpgrade (path : Option Str) (autoActivate : Bool) (bankId : UInt32)
    (keepSettings : Bool) : Str :=
  snprintf 1024 ("echo '".toList ++
    upgradeJson (path.getD "(null)".toList) autoActivate bankId keepSettings ++ "' | ".toList ++
    FWBANK_UPGRADE_CMD ++ " 2>/dev/null".toList)

def upgradePolicy : List Policy :=
  [⟨"path", .string⟩, ⟨"auto_activate", .bool⟩, ⟨"bank", .int32⟩, ⟨"keep_settings", .bool⟩]

def blobmsgGetString : Attr → Str
  | .string _ s => s
  | _ => []

def blobmsgGetBool : Attr → Bool
  | .bool _ b => b
  | _ => false

def blobmsgGetU32 : Attr → UInt32
  | .int32 _ n => n
  | _ => 0

def keepConfigDefault (config : Named) : Bool :=
  toInt (strtol (config.get "globals" "keep_config" "1".toList 8)) != 0

/-- The command for a message; `none` when there is nothing to parse in it. -/
def upgradeHandler (config : Named) (msg : List Attr) : Option Str :=
  match blobmsgParse upgradePolicy msg with
  | some [path, autoActivate, bank, keepSettings] =>
    some (sysmngrFwbankUpgrade (path.map blobmsgGetString)
      ((autoActivate.map blobmsgGetBool).getD false) ((bank.map blobmsgGetU32).getD 0)
      ((keepSettings.map blobmsgGetBool).getD (keepConfigDefault config)))
  | _ => none

/-! ### What the command should do -/

/-- Read by the shell the command pipes `echo arg` into the script's upgrade call, its
errors discarded or not, and runs nothing else. -/
def Pipes (cmd arg : Str) : Prop :=
  ∃ redirects, Shell.pipeline cmd = some [⟨["echo".toList, arg], []⟩,
      ⟨[FWBANK_FILE_PATH, "call".toList, "upgrade".toList], redirects⟩] ∧
    (redirects = [] ∨ redirects = [("2".toList, "/dev/null".toList)])

def upgradeMembers (path : Str) (autoActivate : Bool) (bankId : UInt32) (keepSettings : Bool) :
    List Json.Member :=
  [("path".toList, .string path), ("auto_activate".toList, .number (printNat autoActivate.toNat)),
    ("bank".toList, .number (printNat bankId.toNat)),
    ("keep_settings".toList, .number (printNat keepSettings.toNat))]

def HandsOver (cmd path : Str) (autoActivate : Bool) (bankId : UInt32) (keepSettings : Bool) :
    Prop :=
  ∃ arg, Pipes cmd arg ∧
    Json.readObject arg = some (upgradeMembers path autoActivate bankId keepSettings)

/-- The path holds no quote, no backslash and no control character, and of the command
(112 bytes, the path and the bank's digits) the buffer takes all, all but the
redirection, or all but that and the blank before it. -/
def Carries (path : Str) (bankId : UInt32) : Prop :=
  (∀ c ∈ path, c ≠ '\'' ∧ Json.plainChar c = true) ∧
    (path.length + (printNat bankId.toNat).length + 112 ≤ 1023 ∨
      path.length + (printNat bankId.toNat).length + 112 = 1034 ∨
      path.length + (printNat bankId.toNat).length + 112 = 1035)

instance (path : Str) (bankId : UInt32) : Decidable (Carries path bankId) :=
  inferInstanceAs (Decidable (_ ∧ _))

/-! ### The shell's reading -/

def pipeTail : Str := " | ".toList ++ FWBANK_UPGRADE_CMD ++ " 2>/dev/null".toList

def echoed (arg rest : Str) : Str := "echo '".toList ++ (arg ++ "'".toList ++ rest)

theorem run_echoed (arg rest : Str) (h : '\'' ∉ arg) : Shell.Lexer.start.run (echoed arg rest) =
    Shell.Lexer.run ⟨.plain, some arg, true, [.word "echo".toList]⟩ rest := by
  have hstart : Shell.Lexer.start.run "echo '".toList =
      some ⟨.single, some [], true, [.word "echo".toList]⟩ := by decide
  have hclose : Shell.Lexer.run ⟨.single, some arg, true, [.word "echo".toList]⟩ "'".toList =
      some ⟨.plain, some arg, true, [.word "echo".toList]⟩ := rfl
  unfold echoed
  rw [Shell.run_append, hstart, Option.bind_some, Shell.run_append, Shell.run_append,
    Shell.run_single [] arg true _ h, Option.bind_some, List.nil_append, hclose, Option.bind_some]

theorem pipeline_open (arg : Str) (h : '\'' ∉ arg) :
    Shell.pipeline ("echo '".toList ++ arg) = none := by
  have hstart : Shell.Lexer.start.run "echo '".toList =
      some ⟨.single, some [], true, [.word "echo".toList]⟩ := by decide
  have hrun : Shell.Lexer.start.run ("echo '".toList ++ arg) =
      some ⟨.single, some ([] ++ arg), true, [.word "echo".toList]⟩ := by
    rw [Shell.run_append, hstart, Option.bind_some, Shell.run_single [] arg true _ h]
  rw [Shell.pipeline, Shell.lex, hrun]
  rfl

theorem pipeline_echo (arg : Str) (h : '\'' ∉ arg) :
    Shell.pipeline (echoed arg []) = some [⟨["echo".toList, arg], []⟩] := by
  have hrun := run_echoed arg [] h
  exact Shell.pipeline_words _ _ _ [arg] hrun rfl rfl

theorem parse_echoed (arg rest : Str) (h : '\'' ∉ arg) :
    (Shell.lex (echoed arg (' ' :: rest))).bind Shell.parse =
      ((Shell.lex rest).bind Shell.parse).map fun cs =>
        Shell.addWord "echo".toList (Shell.addWord arg cs) := by
  have hblank : Shell.Lexer.run ⟨.plain, some arg, true, [.word "echo".toList]⟩ (' ' :: rest) =
      (Shell.Lexer.start.after [.word "echo".toList, .word arg]).run rest := rfl
  have hlex : Shell.lex (echoed arg (' ' :: rest)) =
      (Shell.lex rest).map ([.word "echo".toList, .word arg] ++ ·) := by
    rw [Shell.lex, run_echoed arg _ h, hblank, Shell.run_after, Shell.lex]
    cases Shell.Lexer.start.run rest with
    | none => rfl
    | some l => exact Shell.finish_after _ l
  rw [hlex]
  cases Shell.lex rest with
  | none => rfl
  | some toks =>
    simp only [Option.map_some, Option.bind_some, List.cons_append, List.nil_append, Shell.parse,
      Option.map_map]
    rfl

def RunsScript (cs : Option (List Shell.Command)) : Prop :=
  cs = some [⟨[], []⟩, ⟨[FWBANK_FILE_PATH, "call".toList, "upgrade".toList], []⟩] ∨
    cs = some [⟨[], []⟩, ⟨[FWBANK_FILE_PATH, "call".toList, "upgrade".toList],
      [("2".toList, "/dev/null".toList)]⟩]

instance (cs : Option (List Shell.Command)) : Decidable (RunsScript cs) :=
  inferInstanceAs (Decidable (_ ∨ _))

theorem addWord_addWord_eq (a b arg : Str) (cs : List Shell.Command) (c : Shell.Command)
    (h : Shell.addWord a (Shell.addWord b cs) = [⟨[a, arg], []⟩, c]) :
    b = arg ∧ cs = [⟨[], []⟩, c] := by
  rcases cs with _ | ⟨⟨words, redirects⟩, cs⟩
  · simp [Shell.addWord] at h
  · simp only [Shell.addWord, List.cons.injEq, Shell.Command.mk.injEq, true_and] at h
    obtain ⟨⟨⟨rfl, rfl⟩, rfl⟩, rfl⟩ := h
    exact ⟨rfl, rfl⟩

theorem pipes_echoed (text rest arg : Str) (h : '\'' ∉ text) :
    Pipes (echoed text (' ' :: rest)) arg ↔
      arg = text ∧ RunsScript ((Shell.lex rest).bind Shell.parse) := by
  have hparse := parse_echoed text rest h
  constructor
  · rintro ⟨redirects, hpipe, hred⟩
    obtain ⟨hcs, -⟩ := Option.filter_eq_some_iff.mp hpipe
    rw [hparse] at hcs
    obtain ⟨cs, hcs', heq⟩ := Option.map_eq_some_iff.mp hcs
    obtain ⟨rfl, rfl⟩ := addWord_addWord_eq _ _ _ _ _ heq
    rw [hcs']
    rcases hred with rfl | rfl
    · exact ⟨rfl, Or.inl rfl⟩
    · exact ⟨rfl, Or.inr rfl⟩
  · rintro ⟨rfl, hruns⟩
    rcases hruns with hruns | hruns
    · refine ⟨[], ?_, Or.inl rfl⟩
      rw [Shell.pipeline, hparse, hruns]
      rfl
    · refine ⟨[("2".toList, "/dev/null".toList)], ?_, Or.inr rfl⟩
      rw [Shell.pipeline, hparse, hruns]
      rfl

/-- Of the tail behind its first blank, only all of it and the parts up to the
redirection and to the blank before that run the script. -/
theorem runsScript_take (j : ℕ) :
    RunsScript ((Shell.lex (pipeTail.tail.take j)).bind Shell.parse) ↔
      j = 34 ∨ j = 35 ∨ 46 ≤ j := by
  have hlen : pipeTail.tail.length = 46 := by decide
  have hshort : ∀ j < 46, RunsScript ((Shell.lex (pipeTail.tail.take j)).bind Shell.parse) ↔
      j = 34 ∨ j = 35 := by decide +kernel
  have hwhole : RunsScript ((Shell.lex pipeTail.tail).bind Shell.parse) := by decide
  rcases Nat.lt_or_ge j 46 with hj | hj
  · rw [hshort j hj]
    omega
  · rw [List.take_of_length_le (by omega)]
    exact ⟨fun _ => Or.inr (Or.inr hj), fun _ => hwhole⟩

/-- The cut at 1023 bytes spares the closing quote or lies in the argument. -/
theorem take_echoed (text : Str) : (echoed text pipeTail).take 1023 =
    if text.length < 1017 then echoed text (pipeTail.take (1016 - text.length))
    else "echo '".toList ++ text.take 1017 := by
  have hecho : "echo '".toList.length = 6 := rfl
  unfold echoed
  rw [List.take_append, List.take_of_length_le (by omega), hecho, List.append_assoc]
  split
  · have hlast : 1023 - 6 - text.length - "'".toList.length = 1016 - text.length := by
      simp
      omega
    rw [List.take_append, List.take_of_length_le (by omega), List.take_append,
      List.take_of_length_le (by simp; omega), hlast, List.append_assoc]
  · rw [List.take_append_of_le_length (by omega)]

theorem pipes_cut (text arg : Str) (h : '\'' ∉ text) :
    Pipes ((echoed text pipeTail).take 1023) arg ↔
      arg = text ∧ (text.length + 54 ≤ 1023 ∨ text.length + 54 = 1034 ∨
        text.length + 54 = 1035) := by
  rw [take_echoed]
  split
  · cases hm : 1016 - text.length with
    | zero =>
      constructor
      · rintro ⟨redirects, hpipe, -⟩
        rw [List.take_zero, pipeline_echo _ h] at hpipe
        exact absurd hpipe (by simp)
      · rintro ⟨-, hfit⟩
        omega
    | succ m =>
      have htail : pipeTail.take (m + 1) = ' ' :: pipeTail.tail.take m := rfl
      have hfit : (m = 34 ∨ m = 35 ∨ 46 ≤ m) ↔ (text.length + 54 ≤ 1023 ∨
          text.length + 54 = 1034 ∨ text.length + 54 = 1035) := by omega
      rw [htail, pipes_echoed _ _ _ h, runsScript_take, hfit]
  · constructor
    · rintro ⟨redirects, hpipe, -⟩
      rw [pipeline_open _ fun hm => h (List.mem_of_mem_take hm)] at hpipe
      exact absurd hpipe (by simp)
    · rintro ⟨-, hfit⟩
      omega

/-! ### The script's reading -/

theorem upgradeJson_eq (path : Str) (a : Bool) (bankId : UInt32) (k : Bool) :
    upgradeJson path a bankId k = '\x7b' :: '"' :: ("path".toList ++ '"' :: ':' :: '"' ::
      (path ++ '"' :: ',' :: ' ' :: '"' :: ("auto_activate".toList ++ '"' :: ':' ::
        (printNat a.toNat ++ ',' :: ' ' :: '"' :: ("bank".toList ++ '"' :: ':' ::
          (printNat bankId.toNat ++ ',' :: ' ' :: '"' :: ("keep_settings".toList ++ '"' :: ':' ::
            (printNat k.toNat ++ '\x7d' :: [])))))))) := by
  unfold upgradeJson
  simp

theorem skip_printNat (n : ℕ) (s : Str) : Json.skip (printNat n ++ s) = printNat n ++ s := by
  obtain ⟨c, t, hc⟩ := List.exists_cons_of_ne_nil (printNat_ne_nil n)
  have hdigit := printNat_isDigit n c (by rw [hc]; exact List.mem_cons_self ..)
  rw [hc]
  refine Json.skip_cons c _ ?_
  have hspace := isDigit_not_isspace c hdigit
  simp only [isspace, Bool.or_eq_false_iff] at hspace
  simp only [Json.blank, hspace, Bool.or_false]

theorem readMember_number (key : Str) (n : ℕ) (c : Char) (rest : Str)
    (hkey : key.all Json.plainChar = true) (hc : Json.numberChar c = false) :
    Json.readMember ('"' :: (key ++ '"' :: ':' :: (printNat n ++ c :: rest))) =
      some ((key, .number (printNat n)), c :: rest) := by
  rw [Json.readMember_key key _ (List.all_eq_true.mp hkey), skip_printNat, Json.readScalar_printNat n c rest hc]
  rfl

theorem readObject_upgradeJson (path : Str) (a : Bool) (bankId : UInt32) (k : Bool)
    (h : ∀ c ∈ path, Json.plainChar c = true) :
    Json.readObject (upgradeJson path a bankId k) = some (upgradeMembers path a bankId k) := by
  have hpath (rest : Str) : Json.readMember ('"' :: ("path".toList ++ '"' :: ':' :: '"' ::
      (path ++ '"' :: rest))) = some (("path".toList, .string path), rest) := by
    have hscalar : Json.readScalar ('"' :: (path ++ '"' :: rest)) = some (.string path, rest) := by
      rw [Json.readScalar, if_pos (by rfl), Json.readString_plain path rest h]
      rfl
    rw [Json.readMember_key _ _ (List.all_eq_true.mp (by decide)), Json.skip_cons _ _ rfl, hscalar]
    rfl
  rw [upgradeJson_eq, Json.readObject_quote]
  generalize hlen : List.length _ = n
  obtain ⟨n, rfl⟩ : ∃ m, n = m + 3 := by
    refine ⟨n - 3, ?_⟩
    rw [← hlen]
    simp only [List.length_append, List.length_cons]
    omega
  rw [Json.readMembers_comma _ _ _ _ (hpath _),
    Json.readMembers_comma _ _ _ _ ((Json.readMember_blank _).trans
      (readMember_number _ _ _ _ (by decide) (by decide))),
    Json.readMembers_comma _ _ _ _ ((Json.readMember_blank _).trans
      (readMember_number _ _ _ _ (by decide) (by decide))),
    Json.readMembers_last _ _ _ _ ((Json.readMember_blank _).trans
      (readMember_number _ _ _ _ (by decide) (by decide)))]
  rfl

theorem plain_of_readObject (path : Str) (a : Bool) (bankId : UInt32) (k : Bool)
    (hq : '"' ∉ path)
    (h : Json.readObject (upgradeJson path a bankId k) = some (upgradeMembers path a bankId k)) :
    ∀ c ∈ path, Json.plainChar c = true := by
  rw [upgradeJson_eq] at h
  obtain ⟨w, rest, hm, hchars⟩ := Json.readObject_first _ _ _ _ (List.all_eq_true.mp (by decide)) h
  obtain rfl : path = w := Json.Scalar.string.inj (Prod.mk.inj hm).2
  exact Json.plain_of_readChars_self _ _ _ _ hq hchars

/-! ### Counting quotes and backslashes -/

def upgradeFrame : Str :=
  echoed ("\x7b\"path\":\"".toList ++ "\", \"auto_activate\":".toList ++ ", \"bank\":".toList ++
    ", \"keep_settings\":".toList ++ "\x7d".toList) pipeTail

theorem command_eq (path : Str) (a : Bool) (bankId : UInt32) (k : Bool) :
    sysmngrFwbankUpgrade (some path) a bankId k =
      (echoed (upgradeJson path a bankId k) pipeTail).take 1023 := by
  have htail : "' | ".toList = "'".toList ++ " | ".toList := rfl
  unfold sysmngrFwbankUpgrade snprintf echoed pipeTail
  rw [Option.getD_some, htail]
  simp only [List.append_assoc]

theorem command_countP (p : Char → Bool) (hp : ∀ c, c.isDigit = true → p c = false) (path : Str)
    (a : Bool) (bankId : UInt32) (k : Bool) :
    (sysmngrFwbankUpgrade (some path) a bankId k).countP p ≤
      upgradeFrame.countP p + path.countP p := by
  have hnum : ∀ n, (printNat n).countP p = 0 := fun n => List.countP_eq_zero.mpr fun c hc h => by
    rw [hp c (printNat_isDigit n c hc)] at h
    exact Bool.noConfusion h
  have hsum : ∀ e s₁ s₂ s₃ s₄ s₅ q t na nb nk : Str, na.countP p = 0 → nb.countP p = 0 →
      nk.countP p = 0 →
      (e ++ (s₁ ++ path ++ s₂ ++ na ++ s₃ ++ nb ++ s₄ ++ nk ++ s₅ ++ q ++ t)).countP p =
        (e ++ (s₁ ++ s₂ ++ s₃ ++ s₄ ++ s₅ ++ q ++ t)).countP p + path.countP p := by
    intro e s₁ s₂ s₃ s₄ s₅ q t na nb nk ha hb hk
    simp only [List.countP_append]
    omega
  rw [command_eq]
  refine (List.take_sublist _ _).countP_le.trans (Nat.le_of_eq ?_)
  exact hsum _ _ _ _ _ _ _ _ _ _ _ (hnum _) (hnum _) (hnum _)

theorem upgradeJson_length (path : Str) (a : Bool) (bankId : UInt32) (k : Bool) :
    (upgradeJson path a bankId k).length = path.length + (printNat bankId.toNat).length + 58 := by
  have hbool : ∀ b : Bool, (printNat b.toNat).length = 1 := by decide
  have hpath : "\x7b\"path\":\"".toList.length = 9 := rfl
  have hauto : "\", \"auto_activate\":".toList.length = 19 := rfl
  have hbank : ", \"bank\":".toList.length = 9 := rfl
  have hkeep : ", \"keep_settings\":".toList.length = 18 := rfl
  have hclose : "\x7d".toList.length = 1 := rfl
  unfold upgradeJson
  simp only [List.length_append, hbool, hpath, hauto, hbank, hkeep, hclose]
  omega

def isQuote (c : Char) : Bool := c == '"'
def isBackslash (c : Char) : Bool := c == '\\'
def isSingle (c : Char) : Bool := c == '\''
def isEscaped (c : Char) : Bool := isQuote c || isBackslash c
def isSpecial (c : Char) : Bool := isSingle c || isEscaped c

theorem isEscaped_countP (s : Str) :
    s.countP isEscaped = s.countP isQuote + s.countP isBackslash :=
  countP_or isQuote isBackslash (fun c hc => by rw [beq_iff_eq.mp hc]; decide) s

theorem isSpecial_countP (s : Str) :
    s.countP isSpecial = s.countP isSingle + s.countP isEscaped :=
  countP_or isSingle isEscaped (fun c hc => by rw [beq_iff_eq.mp hc]; decide) s

theorem ascii_isSpecial : Json.Ascii isSpecial := by
  intro c hc
  simp only [isSpecial, isEscaped, isSingle, isQuote, isBackslash, Bool.or_eq_true,
    beq_iff_eq] at hc
  rcases hc with rfl | rfl | rfl <;> decide

theorem isEscaped_digit (c : Char) (hc : c.isDigit = true) : isEscaped c = false := by
  simp only [isEscaped, isQuote, isBackslash, Bool.or_eq_false_iff, beq_eq_false_iff_ne]
  constructor <;> (rintro rfl; exact absurd hc (by decide))

/-- The argument of a command that pipes it has no more of any character, and fewer
quotes and backslashes when it has a single quote. -/
theorem pipes_countP {cmd arg : Str} (h : Pipes cmd arg) (p : Char → Bool) :
    arg.countP p ≤ cmd.countP p ∧
      (p '"' = true → p '\\' = true → '\'' ∈ arg → arg.countP p < cmd.countP p) := by
  obtain ⟨redirects, hpipe, -⟩ := h
  have hsub : arg.Sublist (Shell.wordChars [⟨["echo".toList, arg], []⟩,
      ⟨[FWBANK_FILE_PATH, "call".toList, "upgrade".toList], redirects⟩]) :=
    Shell.sublist_wordChars (List.mem_cons_self ..)
      (List.mem_cons_of_mem _ (List.mem_singleton_self arg))
  refine ⟨hsub.countP_le.trans (Shell.pipeline_countP_le p _ _ hpipe), fun hq hb hm => ?_⟩
  exact Nat.lt_of_le_of_lt hsub.countP_le
    (Shell.pipeline_countP_lt p hq hb _ _ hpipe (hsub.subset hm))

section HandedOver
variable {path arg : Str} {a : Bool} {bankId : UInt32} {k : Bool}

theorem path_pays (h : Json.readObject arg = some (upgradeMembers path a bankId k))
    (p : Char → Bool) (hp : ∀ c, p c = true → isSpecial c = true) :
    path.countP p ≤ arg.countP (Json.pays p) := by
  have hacc := (Json.readObject_accounts arg _ h).pays p fun c hc => ascii_isSpecial c (hp c hc)
  have hmem : path ∈ (upgradeMembers path a bankId k).flatMap Json.texts := by
    simp [upgradeMembers, Json.texts]
  exact (List.sublist_flatten_of_mem hmem).countP_le.trans hacc

/-- All backslashes of the argument are the path's. -/
theorem backslashes_le (h : Pipes (sysmngrFwbankUpgrade (some path) a bankId k) arg) :
    arg.countP isBackslash ≤ path.countP isBackslash := by
  have harg := (pipes_countP h isBackslash).1
  have hframe : upgradeFrame.countP isBackslash = 0 := by decide
  have hcmd := command_countP isBackslash
    (fun c hc => (Bool.or_eq_false_iff.mp (isEscaped_digit c hc)).2) path a bankId k
  omega

/-- A double quote in the path would take a backslash beyond its own. -/
theorem quote_notMem_path (h : Pipes (sysmngrFwbankUpgrade (some path) a bankId k) arg)
    (hobj : Json.readObject arg = some (upgradeMembers path a bankId k)) : '"' ∉ path := by
  have hback := backslashes_le h
  have hpaid := path_pays hobj isEscaped fun c hc => by simp only [isSpecial, hc, Bool.or_true]
  have hpays : Json.pays isEscaped = isBackslash := by
    funext c
    by_cases hc : c = '"' <;> simp [Json.pays, isEscaped, isQuote, isBackslash, hc]
  rw [hpays, isEscaped_countP] at hpaid
  have hzero : path.countP isQuote = 0 := by omega
  exact notMem_of_countP_eq_zero _ _ hzero

/-- The object's own quotes and the path's backslashes are all there is in the command;
a single quote in the argument would take one of them. -/
theorem single_notMem_arg (h : Pipes (sysmngrFwbankUpgrade (some path) a bankId k) arg)
    (hobj : Json.readObject arg = some (upgradeMembers path a bankId k)) : '\'' ∉ arg := by
  intro hm
  have hlt := (pipes_countP h isEscaped).2 rfl rfl hm
  have hframe : upgradeFrame.countP isEscaped = 10 := by decide
  have hcmd := command_countP isEscaped isEscaped_digit path a bankId k
  have hquotes : 10 ≤ arg.countP isQuote := (Json.readObject_accounts arg _ hobj).quotes
  have hnone : path.countP isQuote = 0 :=
    countP_eq_zero_of_notMem _ _ (quote_notMem_path h hobj)
  have hpaid := path_pays hobj isBackslash fun c hc => by
    simp only [isSpecial, isEscaped, hc, Bool.or_true]
  have hpays : Json.pays isBackslash = isBackslash := by
    funext c
    by_cases hc : c = '\\' <;> simp [Json.pays, isBackslash, hc]
  rw [hpays] at hpaid
  have harg := isEscaped_countP arg
  have hpath := isEscaped_countP path
  omega

theorem single_notMem_path (h : Pipes (sysmngrFwbankUpgrade (some path) a bankId k) arg)
    (hobj : Json.readObject arg = some (upgradeMembers path a bankId k)) : '\'' ∉ path := by
  have hback := backslashes_le h
  have harg := single_notMem_arg h hobj
  have hpaid := path_pays hobj isSpecial fun _ hc => hc
  have hpays : arg.countP (Json.pays isSpecial) = arg.countP isBackslash := by
    refine List.countP_congr fun c hc => ?_
    have hne : c ≠ '\'' := fun h => harg (h ▸ hc)
    by_cases hq : c = '"' <;> simp [Json.pays, isSpecial, isEscaped, isSingle, isQuote,
      isBackslash, hq, hne]
  have hspecial := isSpecial_countP path
  have hescaped := isEscaped_countP path
  have hzero : path.countP isSingle = 0 := by omega
  exact notMem_of_countP_eq_zero _ _ hzero

end HandedOver

/-! ### When the script gets the arguments -/

theorem single_notMem_upgradeJson (path : Str) (a : Bool) (bankId : UInt32) (k : Bool)
    (h : '\'' ∉ path) : '\'' ∉ upgradeJson path a bankId k := by
  have hnum : ∀ n, '\'' ∉ printNat n := fun n hm => absurd (printNat_isDigit n _ hm) (by decide)
  unfold upgradeJson
  simp [h, hnum]

/-- The command hands its four arguments to the script and runs nothing else exactly
when the path and the buffer carry them. -/
theorem upgrade_handsOver_iff (path : Str) (autoActivate : Bool) (bankId : UInt32)
    (keepSettings : Bool) :
    HandsOver (sysmngrFwbankUpgrade (some path) autoActivate bankId keepSettings) path autoActivate
        bankId keepSettings ↔
      Carries path bankId := by
  have hlen := upgradeJson_length path autoActivate bankId keepSettings
  constructor
  · intro h
    obtain ⟨arg, hpipes, hobj⟩ := h
    have hsingle := single_notMem_path hpipes hobj
    have hquote := quote_notMem_path hpipes hobj
    rw [command_eq, pipes_cut _ _ (single_notMem_upgradeJson _ _ _ _ hsingle)] at hpipes
    obtain ⟨rfl, hfit⟩ := hpipes
    have hplain := plain_of_readObject _ _ _ _ hquote hobj
    refine ⟨fun c hc => ⟨fun heq => hsingle (heq ▸ hc), hplain c hc⟩, ?_⟩
    omega
  · rintro ⟨hpath, hfit⟩
    have hsingle : '\'' ∉ path := fun hm => (hpath _ hm).1 rfl
    refine ⟨_, ?_, readObject_upgradeJson path autoActivate bankId keepSettings
      fun c hc => (hpath c hc).2⟩
    rw [command_eq, pipes_cut _ _ (single_notMem_upgradeJson _ _ _ _ hsingle)]
    refine ⟨rfl, ?_⟩
    omega

theorem apostrophe_breaks_upgrade :
    ¬∀ (path : Str) (autoActivate : Bool) (bankId : UInt32) (keepSettings : Bool),
      HandsOver (sysmngrFwbankUpgrade (some path) autoActivate bankId keepSettings) path
        autoActivate bankId keepSettings := by
  intro hall
  obtain ⟨arg, hpipes, hobj⟩ := hall "/tmp/it's.bin".toList false 2 true
  exact absurd (single_notMem_path hpipes hobj) (by decide)

end Sysmngr.Fwbank
