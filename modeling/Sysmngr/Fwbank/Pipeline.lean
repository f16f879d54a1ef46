import Sysmngr.BlobmsgJson
import Sysmngr.Fwbank.Dump
import Sysmngr.Fwbank.TaskOutput

/-!
# From a script's output to the daemon's answer (`fwbank.c`)

A script prints, the task joins its lines, the finish callback reads the pipe once the
task has ended and hands what its buffer holds to the parser. What the script means gets
through whatever lines it is printed on, as long as the joined text is no longer than one
read.
-/

namespace Sysmngr.Fwbank
open Text Json Blobmsg Machine

/-! ### The pipe of a task that has ended -/

/-- `read()` gives what is there up to the size asked for, and 0 at the end. -/
def readChunks : ℕ → Str → List Str
  | 0, _ => []
  | _, [] => []
  | fuel + 1, c :: s => (c :: s).take 1023 :: readChunks fuel ((c :: s).drop 1023)

def pipeReads (written : Str) : Reads := ⟨readChunks written.length written, false⟩

def scriptReads (output : Str) : Reads := pipeReads (taskCallback output)

theorem readChunks_cons (fuel : ℕ) (s : Str) (h : s ≠ []) :
    readChunks (fuel + 1) s = s.take 1023 :: readChunks fuel (s.drop 1023) := by
  cases s with
  | nil => exact absurd rfl h
  | cons c s => rfl

theorem readChunks_delivered (fuel : ℕ) (s : Str) (h : NUL ∉ s) :
    Delivered (readChunks fuel s) := by
  induction fuel generalizing s with
  | zero => exact fun c hc => absurd hc List.not_mem_nil
  | succ fuel ih =>
    by_cases hs : s = []
    · rw [hs]
      exact fun c hc => absurd hc List.not_mem_nil
    · rw [readChunks_cons fuel s hs]
      refine List.forall_mem_cons.mpr ⟨⟨?_, ?_, ?_⟩, ih _ fun hm => h (List.mem_of_mem_drop hm)⟩
      · have hpos := List.length_pos_of_ne_nil hs
        intro he
        have hlen := congrArg List.length he
        rw [List.length_take, List.length_nil] at hlen
        omega
      · rw [List.length_take]
        omega
      · exact fun hm => h (List.mem_of_mem_take hm)

theorem readChunks_flatten (fuel : ℕ) (s : Str) (h : s.length ≤ fuel) :
    (readChunks fuel s).flatten = s := by
  induction fuel generalizing s with
  | zero =>
    rw [List.length_eq_zero_iff.mp (Nat.le_zero.mp h)]
    rfl
  | succ fuel ih =>
    by_cases hs : s = []
    · rw [hs]
      rfl
    · have hrest : (s.drop 1023).length ≤ fuel := by
        rw [List.length_drop]
        have hpos := List.length_pos_of_ne_nil hs
        omega
      rw [readChunks_cons fuel s hs, List.flatten_cons, ih _ hrest, List.take_append_drop]

theorem readChunks_one_iff (s : Str) :
    (readChunks s.length s).length ≤ 1 ↔ s.length ≤ 1023 := by
  by_cases hs : s = []
  · rw [hs]
    decide
  · obtain ⟨fuel, hfuel⟩ : ∃ fuel, s.length = fuel + 1 :=
      ⟨s.length - 1, by have := List.length_pos_of_ne_nil hs; omega⟩
    rw [hfuel, readChunks_cons fuel s hs, List.length_cons, ← hfuel]
    constructor
    · intro hlen
      by_contra hlong
      have hrest := readChunks_flatten fuel (s.drop 1023) (by rw [List.length_drop]; omega)
      rw [List.length_eq_zero_iff.mp (Nat.le_zero.mp (Nat.le_of_succ_le_succ hlen)),
        List.flatten_nil] at hrest
      have hdrop := congrArg List.length hrest
      rw [List.length_drop, List.length_nil] at hdrop
      omega
    · intro hshort
      rw [List.drop_eq_nil_of_le hshort]
      cases fuel with
      | zero => exact Nat.le_refl 1
      | succ fuel => exact Nat.le_refl 1

theorem readOutput_pipeReads (written : Str) (h : NUL ∉ written) :
    readOutput (pipeReads written) = some written ↔ written.length ≤ 1023 := by
  have hdel := readChunks_delivered written.length written h
  have hflat := readChunks_flatten written.length written (Nat.le_refl _)
  have hone := flatten_eq_getLastD_iff _ fun c hc => (hdel c hc).1
  rw [hflat] at hone
  rw [pipeReads, readOutput_eq _ hdel, Option.some.injEq, hone, readChunks_one_iff]

theorem getLastD_suffix (chunks : List Str) : chunks.getLastD [] <:+ chunks.flatten := by
  rcases List.eq_nil_or_concat chunks with rfl | ⟨rest, c, rfl⟩
  · exact List.suffix_refl _
  · rw [List.concat_eq_append, List.getLastD_concat, List.flatten_append, List.flatten_singleton]
    exact List.suffix_append _ _

theorem readOutput_suffix (written text : Str) (h : NUL ∉ written)
    (hread : readOutput (pipeReads written) = some text) : text <:+ written := by
  have hlast := getLastD_suffix (readChunks written.length written)
  rw [readChunks_flatten _ _ (Nat.le_refl _)] at hlast
  rw [pipeReads, readOutput_eq _ (readChunks_delivered _ _ h), Option.some.injEq] at hread
  rwa [hread] at hlast

def joined (output : Str) : Str := output.filter (· != '\n')

theorem joined_append (s t : Str) : joined (s ++ t) = joined s ++ joined t := List.filter_append ..

theorem joined_last (c : Char) (hc : c ≠ '\n') : joined [c] = [c] :=
  List.filter_cons_of_pos (bne_iff_ne.mpr hc)

theorem taskCallback_joined (output : Str) (h : NUL ∉ output) :
    taskCallback output = joined output.dropLast :=
  printLines_eq _ output (Nat.le_refl _) h

theorem joined_dropLast (output : Str) (h : ∀ c ∈ output.getLast?, c = '\n') :
    joined output.dropLast = joined output := by
  rcases List.eq_nil_or_concat output with rfl | ⟨body, c, rfl⟩
  · rfl
  · have hc : c = '\n' := h c (by rw [List.concat_eq_append, List.getLast?_concat]; rfl)
    rw [List.concat_eq_append, List.dropLast_concat, joined_append, hc]
    exact (List.append_nil _).symm

theorem scriptReads_whole (output : Str) (h : NUL ∉ output)
    (hend : ∀ c ∈ output.getLast?, c = '\n') (hlen : (joined output).length ≤ 1023) :
    readOutput (scriptReads output) = some (joined output) := by
  have hnul : NUL ∉ joined output := fun hm => h (List.mem_of_mem_filter hm)
  rw [scriptReads, taskCallback_joined output h, joined_dropLast output hend]
  exact (readOutput_pipeReads (joined output) hnul).mpr hlen

/-- Without its newlines an output gets through exactly when it ends in one, or is empty,
and is no longer than one read. -/
theorem scriptReads_whole_iff (output : Str) (h : NUL ∉ output) :
    readOutput (scriptReads output) = some (joined output) ↔
      (∀ c ∈ output.getLast?, c = '\n') ∧ (joined output).length ≤ 1023 := by
  have hnul : NUL ∉ joined output.dropLast := fun hm =>
    h (List.mem_of_mem_dropLast (List.mem_of_mem_filter hm))
  have hwhole := readOutput_pipeReads (joined output.dropLast) hnul
  rw [scriptReads, taskCallback_joined output h]
  constructor
  · intro hsome
    have hend : ∀ c ∈ output.getLast?, c = '\n' := by
      by_contra hcut
      rcases List.eq_nil_or_concat output with rfl | ⟨body, c, rfl⟩
      · exact hcut fun c hc => absurd hc (by simp)
      have hc : c ≠ '\n' := fun hc => hcut fun d hd => by
        rw [List.concat_eq_append, List.getLast?_concat, Option.mem_some_iff] at hd
        exact hd.symm.trans hc
      -- the last byte is lost, so that less is read than was printed
      have hshort := (readOutput_suffix _ _ hnul hsome).length_le
      rw [List.concat_eq_append, List.dropLast_concat, joined_append, List.length_append,
        joined_last c hc, List.length_singleton] at hshort
      exact absurd hshort (Nat.not_succ_le_self _)
    rw [← joined_dropLast output hend] at hsome ⊢
    exact ⟨hend, hwhole.mp hsome⟩
  · rintro ⟨hend, hlen⟩
    rw [← taskCallback_joined output h]
    exact scriptReads_whole output h hend hlen

theorem scriptReads_whole_sample :
    readOutput (scriptReads "\x7b\n\"success\":true\n\x7d\n".toList) =
      some "\x7b\"success\":true\x7d".toList :=
  (scriptReads_whole_iff "\x7b\n\"success\":true\n\x7d\n".toList (by decide)).mpr
    ⟨fun _ hlast => (Option.some.inj hlast).symm, by decide⟩

/-! ### What the script means -/

/-- The levels of nesting the parser goes into. -/
def JSON_TOKENER_DEFAULT_DEPTH : ℕ := 32

/-- One object on any number of lines, the last of them ended. -/
structure ScriptOutput where
  text : Str
  fields : List (Str × Value)
  reads : readJson JSON_TOKENER_DEFAULT_DEPTH text = some fields
  nul : NUL ∉ text
  ended : ∀ c ∈ text.getLast?, c = '\n'
  fits : (joined text).length ≤ 1023

theorem newline_thins : Thins (· != '\n') := by
  intro c hc
  rw [bne_eq_false_iff_eq.mp hc]
  decide

theorem ScriptOutput.joined_reads (o : ScriptOutput) :
    readJson JSON_TOKENER_DEFAULT_DEPTH (joined o.text) = some o.fields :=
  readJson_thin newline_thins _ o.text o.fields o.reads

theorem ScriptOutput.handed (o : ScriptOutput) :
    readOutput (scriptReads o.text) = some (joined o.text) :=
  scriptReads_whole o.text o.nul o.ended o.fits

theorem ScriptOutput.joined_ne_nil (o : ScriptOutput) : joined o.text ≠ [] := by
  intro hnil
  have hread := o.joined_reads
  have hnone : readJson JSON_TOKENER_DEFAULT_DEPTH [] = none := rfl
  rw [hnil, hnone] at hread
  exact absurd hread (by simp)

section Meaning
variable (parse : Str → Option (List Attr)) (blob : List (Str × Value) → Option (List Attr))

/-- A dump attempt whose script prints nothing or an output, and the answer to `dump` then. -/
def attemptScript (g : FwbankDump) (o : Option ScriptOutput) :
    FwbankDump × Option (List Attr) :=
  let g := fwbankDumpFinishCallback parse g (scriptReads ((o.map ScriptOutput.text).getD []))
  (g, dumpHandler g)

/-- The same on what the script means. -/
def attemptValue (g : FwbankDump) (v : Option (List (Str × Value))) :
    FwbankDump × Option (List Attr) :=
  let g := match (v.bind blob).filter validateGlobalFwbankDump with
    | some dump => { g with output := some (blobmsgAddBlob [] dump) }
    | none => retry g
  (g, dumpHandler g)

def answer (success : List Attr → Bool) : Option (List Attr) → Finish
  | none => ⟨none, false⟩
  | some output => ⟨some output, success output⟩

variable {parse blob}

theorem attemptScript_eq
    (hparse : ∀ s fields, readJson JSON_TOKENER_DEFAULT_DEPTH s = some fields →
      parse s = blob fields)
    (g : FwbankDump) (o : Option ScriptOutput) :
    attemptScript parse g o = attemptValue blob g (o.map ScriptOutput.fields) := by
  have hsame : fwbankDumpFinishCallback parse g (scriptReads ((o.map ScriptOutput.text).getD [])) =
      (attemptValue blob g (o.map ScriptOutput.fields)).1 := by
    cases o with
    | none => rfl
    | some o =>
      have hpos : ((joined o.text).length != 0) = true := by
        simp only [bne_iff_ne, ne_eq, List.length_eq_zero_iff]
        exact o.joined_ne_nil
      simp only [fwbankDumpFinishCallback, dumpText, Option.map_some, Option.getD_some, o.handed,
        Option.filter_some, if_pos hpos, hparse _ _ o.joined_reads, attemptValue, Option.bind_some]
      cases blob o.fields with
      | none => rfl
      | some temp =>
        simp only [Option.filter_some]
        split <;> rfl
  rw [attemptScript, hsame]
  rfl

theorem run_attemptScript
    (hparse : ∀ s fields, readJson JSON_TOKENER_DEFAULT_DEPTH s = some fields →
      parse s = blob fields) (os : List (Option ScriptOutput)) :
    run (attemptScript parse) .initial os =
      run (attemptValue blob) .initial (os.map (Option.map ScriptOutput.fields)) := by
  have hsim := run_simulates (attemptScript parse) (attemptValue blob) (fun g g' => g = g')
    (Option.map ScriptOutput.fields) id (fun _ _ => True)
    (fun g g' o hg _ => by
      subst hg
      rw [attemptScript_eq hparse]
      exact ⟨rfl, rfl⟩)
    .initial .initial os rfl (along_of_forall _ _ (fun _ _ => trivial) _ _)
  rw [List.map_id] at hsim
  exact Prod.ext hsim.1 hsim.2

/-- Whatever lines the scripts print on, the cached dump, the retries and the answers over a
run of attempts are those of what the scripts mean, and so are the replies of both actions. -/
theorem callbacks_follow_meaning
    (hparse : ∀ s fields, readJson JSON_TOKENER_DEFAULT_DEPTH s = some fields →
      parse s = blob fields) :
    (∀ os, run (attemptScript parse) .initial os =
      run (attemptValue blob) .initial (os.map (Option.map ScriptOutput.fields))) ∧
    ∀ o : ScriptOutput,
      fwbankSetBootbankFinishCallback parse (scriptReads o.text) =
          answer isSetBootbankSuccess (blob o.fields) ∧
        fwbankUpgradeFinishCallback parse (scriptReads o.text) =
          answer isUpgradeSuccess (blob o.fields) := by
  refine ⟨run_attemptScript hparse, fun o => ?_⟩
  have hblob := hparse _ _ o.joined_reads
  constructor
  · simp only [fwbankSetBootbankFinishCallback, setBootbankText, o.handed, Option.bind_some, hblob]
    cases blob o.fields <;> rfl
  · simp only [fwbankUpgradeFinishCallback, upgradeText, o.handed, Option.bind_some, hblob]
    cases blob o.fields <;> rfl

end Meaning

/-- The library on well-formed texts. -/
def blobmsgAddJsonFromString (s : Str) : Option (List Attr) :=
  (readJson JSON_TOKENER_DEFAULT_DEPTH s).map blobmsgAddObject

theorem blobmsgAddJsonFromString_reads (s : Str) (fields : List (Str × Value))
    (h : readJson JSON_TOKENER_DEFAULT_DEPTH s = some fields) :
    blobmsgAddJsonFromString s = some (blobmsgAddObject fields) := by
  rw [blobmsgAddJsonFromString, h, Option.map_some]

/-- A bank that has only its name and id is not taken, one with all its fields is. -/
def dumpLines (fields : String) : Str :=
  "\x7b\n\t\"bank\": [\n\t\t\x7b\"name\":\"a\",\"id\":1".toList ++ fields.toList ++
    "\x7d\n\t]\n\x7d\n".toList

def otherFields : String :=
  ",\"active\":true,\n\"boot\":true,\"upgrade\":false,\n" ++
    "\"fwver\":\"f\",\"swver\":\"s\",\"status\":\"A\""

def dumpFields (fields : List (String × Scalar)) : List (Str × Value) :=
  [("bank".toList, .array [.object
    ((("name", Scalar.string "a".toList) :: ("id", .number "1".toList) :: fields).map
      fun f => (f.1.toList, .scalar f.2))])]

def otherValues : List (String × Scalar) :=
  [("active", .bool true), ("boot", .bool true), ("upgrade", .bool false),
    ("fwver", .string "f".toList), ("swver", .string "s".toList), ("status", .string "A".toList)]

def partialBank : ScriptOutput :=
  ⟨dumpLines "", dumpFields [], rfl, by decide, fun _ hlast => (Option.some.inj hlast).symm,
    by decide⟩

set_option maxRecDepth 4000 in
def wholeBank : ScriptOutput :=
  ⟨dumpLines otherFields, dumpFields otherValues, rfl, by decide,
    fun _ hlast => (Option.some.inj hlast).symm, by decide⟩

theorem callbacks_follow_meaning_sample :
    ((run (attemptScript blobmsgAddJsonFromString) .initial
      [none, some partialBank, some wholeBank, none]).2.map Option.isSome) =
      [false, false, true, true] := by
  rw [(callbacks_follow_meaning blobmsgAddJsonFromString_reads).1]
  rfl

end Sysmngr.Fwbank
