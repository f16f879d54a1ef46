import Sysmngr.Blobmsg
import Sysmngr.Machine

/-!
# Script output and the cached dump (`fwbank.c`)

A task's finish callback reads the script's output from a pipe, hands the text to
the JSON parser and acts on the attributes it gets; the dump's callback validates
them and replaces the cached dump. The parser is that of `libubox`.
-/

namespace Sysmngr.Fwbank
open Text Blobmsg Machine

def FWBANK_DUMP_MAX_RETRIES : ℕ := 10

/-! ### Reading the pipe -/

/-- The chunks the successive `read()` calls deliver; the last call returns 0 at the
end of the output or -1. -/
structure Reads where
  chunks : List Str
  error : Bool
  deriving DecidableEq, Repr

/-- The read loop: every chunk and its NUL go to the front of the one buffer. -/
def readLoop (buffer : List Char) : List Str → List Char
  | [] => buffer
  | chunk :: rest => readLoop (store buffer chunk) rest

/-- The C string left in `buffer[1024]`, unless the last `read()` failed. -/
def readOutput (r : Reads) : Option Str :=
  if r.error then none else some (cstr (readLoop (List.replicate 1024 NUL) r.chunks))

def dumpText (r : Reads) : Option Str := (readOutput r).filter fun buffer => buffer.length != 0

def setBootbankText (r : Reads) : Option Str := readOutput r

def upgradeText (r : Reads) : Option Str := readOutput r

/-! ### Validation -/

def sysmngrDumpPolicy : Policy := ⟨"bank", .array⟩

def sysmngrBankPolicy : List Policy :=
  [⟨"name", .string⟩, ⟨"id", .int32⟩, ⟨"active", .bool⟩, ⟨"boot", .bool⟩, ⟨"upgrade", .bool⟩,
    ⟨"fwver", .string⟩, ⟨"swver", .string⟩, ⟨"status", .string⟩]

def validBank (entry : Attr) : Bool :=
  match blobmsgParse sysmngrBankPolicy entry.children with
  | none => false
  | some t => t.all Option.isSome

/-- One bank entry with all its fields makes a dump valid. -/
def validateGlobalFwbankDump (dump : List Attr) : Bool :=
  match blobmsgParse [sysmngrDumpPolicy] dump with
  | some [some bank] => bank.children.any validBank
  | _ => false

def isSetBootbankSuccess (output : List Attr) : Bool :=
  match blobmsgParse [⟨"success", .bool⟩] output with
  | some [some (.bool _ b)] => b
  | _ => false

def isUpgradeSuccess (output : List Attr) : Bool :=
  match blobmsgParse [⟨"result", .string⟩] output with
  | some [some (.string _ s)] => s = "ok".toList
  | _ => false

/-! ### Finish callbacks -/

structure FwbankDump where
  output : Option (List Attr)
  retryCount : ℕ
  timer : Bool

def FwbankDump.initial : FwbankDump := ⟨none, 0, false⟩

/-- The `retry:` label of the dump's callback. -/
def retry (g : FwbankDump) : FwbankDump :=
  if g.retryCount < FWBANK_DUMP_MAX_RETRIES then
    { g with retryCount := g.retryCount + 1, timer := true }
  else g

section Callbacks
variable (parse : Str → Option (List Attr))

def fwbankDumpFinishCallback (g : FwbankDump) (r : Reads) : FwbankDump :=
  match dumpText r with
  | none => retry g
  | some buffer =>
    match parse buffer with
    | none => retry g
    | some temp =>
      if validateGlobalFwbankDump temp then { g with output := some (blobmsgAddBlob [] temp) }
      else retry g

/-- The reply a callback sends, if any, and whether it goes on to the next activity:
a fresh dump after a switch, waiting for `sysupgrade` after an upgrade. -/
structure Finish where
  reply : Option (List Attr)
  next : Bool

def fwbankSetBootbankFinishCallback (r : Reads) : Finish :=
  match (setBootbankText r).bind parse with
  | none => ⟨none, false⟩
  | some output => ⟨some output, isSetBootbankSuccess output⟩

def fwbankUpgradeFinishCallback (r : Reads) : Finish :=
  match (upgradeText r).bind parse with
  | none => ⟨none, false⟩
  | some output => ⟨some output, isUpgradeSuccess output⟩

end Callbacks

def dumpHandler (g : FwbankDump) : Option (List Attr) := g.output

def browseDeviceInfoFirmwareImageInst (g : FwbankDump) : List Attr :=
  match blobmsgParse [sysmngrDumpPolicy] (g.output.getD []) with
  | some [some bank] => bank.children
  | _ => []

/-! ### The text handed on -/

/-- Chunks as `read(fd, buffer, 1023)` can deliver them of an output without NULs. -/
def Delivered (chunks : List Str) : Prop :=
  ∀ c ∈ chunks, c ≠ [] ∧ c.length ≤ 1023 ∧ NUL ∉ c

/-- All three callbacks hand on the whole output; the dump's has nothing to hand on
when there is none. -/
structure HandsWhole (chunks : List Str) : Prop where
  dump : dumpText ⟨chunks, false⟩ =
    if chunks.flatten = [] then none else some chunks.flatten
  setBootbank : setBootbankText ⟨chunks, false⟩ = some chunks.flatten
  upgrade : upgradeText ⟨chunks, false⟩ = some chunks.flatten

theorem cstr_readLoop (buffer : List Char) (chunks : List Str) (h : ∀ c ∈ chunks, NUL ∉ c) :
    cstr (readLoop buffer chunks) = chunks.getLastD (cstr buffer) := by
  induction chunks generalizing buffer with
  | nil => rfl
  | cons c cs ih =>
    rw [readLoop, ih _ fun d hd => h d (List.mem_cons_of_mem _ hd),
      cstr_store buffer c (h c (List.mem_cons_self ..)), List.getLastD_cons]

theorem readOutput_eq (chunks : List Str) (h : Delivered chunks) :
    readOutput ⟨chunks, false⟩ = some (chunks.getLastD []) := by
  have hlast := cstr_readLoop (List.replicate 1024 NUL) chunks fun c hc => (h c hc).2.2
  have hzero : cstr (List.replicate 1024 NUL) = [] := by
    rw [List.replicate_succ]
    rfl
  rw [hzero] at hlast
  simp only [readOutput, Bool.false_eq_true, if_false, hlast]

theorem flatten_eq_getLastD_iff (chunks : List Str) (h : ∀ c ∈ chunks, c ≠ []) :
    chunks.getLastD [] = chunks.flatten ↔ chunks.length ≤ 1 := by
  rcases chunks with _ | ⟨c, _ | ⟨d, cs⟩⟩
  · simp
  · simp
  · have hne : d :: cs ≠ [] := List.cons_ne_nil _ _
    have hlast : (c :: d :: cs).getLastD [] = (d :: cs).getLast hne := by
      rw [List.getLastD_cons, List.getLastD_eq_getLast?, List.getLast?_eq_some_getLast hne,
        Option.getD_some]
    have hsplit : (d :: cs).flatten = (d :: cs).dropLast.flatten ++ (d :: cs).getLast hne := by
      conv_lhs => rw [← List.dropLast_append_getLast hne]
      rw [List.flatten_append, List.flatten_singleton]
    have hc : c ≠ [] := h c (List.mem_cons_self ..)
    have hpos : 0 < c.length := List.length_pos_iff.mpr hc
    constructor
    · intro heq
      have hlen := congrArg List.length heq
      rw [hlast, List.flatten_cons, hsplit] at hlen
      simp only [List.length_append] at hlen
      omega
    · intro hlen
      simp only [List.length_cons] at hlen
      omega

/-- The callbacks hand on the whole output exactly when it comes in one read. -/
theorem handsWhole_iff_one_read (chunks : List Str) (h : Delivered chunks) :
    HandsWhole chunks ↔ chunks.length ≤ 1 := by
  have hread := readOutput_eq chunks h
  have hiff := flatten_eq_getLastD_iff chunks fun c hc => (h c hc).1
  constructor
  · intro hw
    have hb := hw.setBootbank
    rw [setBootbankText, hread] at hb
    exact hiff.mp (Option.some.inj hb)
  · intro hlen
    have heq := hiff.mpr hlen
    rw [heq] at hread
    refine ⟨?_, hread, hread⟩
    rw [dumpText, hread]
    by_cases he : chunks.flatten = []
    · rw [if_pos he, he]
      rfl
    · have hpos : (chunks.flatten.length != 0) = true := by
        simp only [bne_iff_ne, ne_eq, List.length_eq_zero_iff]
        exact he
      rw [if_neg he, Option.filter_some, if_pos hpos]

theorem handsWhole_success : HandsWhole ["\x7b\"success\":true\x7d".toList] :=
  (handsWhole_iff_one_read ["\x7b\"success\":true\x7d".toList] (by
    intro c hc
    rw [List.mem_singleton.mp hc]
    decide)).mpr (by decide)

def longOutput : List Str := [List.replicate 1023 ' ', "\x7d".toList]

theorem longOutput_not_whole : ¬∀ chunks, Delivered chunks → HandsWhole chunks := by
  intro hall
  have hdel : Delivered longOutput := by
    intro c hc
    simp only [longOutput, List.mem_cons, List.not_mem_nil, or_false] at hc
    rcases hc with rfl | rfl
    · refine ⟨List.cons_ne_nil ' ' (List.replicate 1022 ' '), by rw [List.length_replicate], ?_⟩
      intro hm
      exact absurd (List.eq_of_mem_replicate hm) (by decide)
    · decide
  have hb := (hall longOutput hdel).setBootbank
  rw [setBootbankText, readOutput_eq longOutput hdel] at hb
  have hlen : 1 = longOutput.flatten.length := congrArg List.length (Option.some.inj hb)
  simp only [longOutput, List.flatten_cons, List.length_append, List.length_replicate] at hlen
  omega

/-! ### The cached dump over a run of attempts -/

def attempt (parse : Str → Option (List Attr)) (g : FwbankDump) (r : Reads) : FwbankDump × Unit :=
  (fwbankDumpFinishCallback parse g r, ())

def accepted (parse : Str → Option (List Attr)) (r : Reads) : Option (List Attr) :=
  ((dumpText r).bind parse).filter validateGlobalFwbankDump

def bankOf (dump : List Attr) : Option Attr := dump.find? sysmngrDumpPolicy.accepts

/-- The 'bank' array of the most recent output that passed validation. -/
def lastBank (parse : Str → Option (List Attr)) (rs : List Reads) : Option Attr :=
  (rs.filterMap (accepted parse)).getLast?.bind bankOf

structure Holds (g : FwbankDump) (bank : Option Attr) : Prop where
  reply : dumpHandler g = bank.map fun b => [b]
  browse : browseDeviceInfoFirmwareImageInst g = (bank.map Attr.children).getD []

/-- The first attribute of an output is its 'bank' array. -/
def StartsWithBank (dump : List Attr) : Prop := ∃ b ∈ dump.head?, sysmngrDumpPolicy.accepts b

theorem attempt_output (parse : Str → Option (List Attr)) (g : FwbankDump) (r : Reads) :
    (attempt parse g r).1.output =
      match accepted parse r with
      | some dump => some (dump.take 1)
      | none => g.output := by
  have hretry : ∀ g : FwbankDump, (retry g).output = g.output := by
    intro g
    unfold retry
    split <;> rfl
  unfold attempt fwbankDumpFinishCallback accepted
  cases dumpText r with
  | none => exact hretry g
  | some buffer =>
    simp only [Option.bind_some]
    cases parse buffer with
    | none => exact hretry g
    | some temp =>
      simp only [Option.filter_some]
      split
      · rfl
      · exact hretry g

theorem bankOf_of_valid (dump : List Attr) (h : validateGlobalFwbankDump dump = true) :
    ∃ bank, bankOf dump = some bank := by
  cases hb : bankOf dump with
  | some bank => exact ⟨bank, rfl⟩
  | none =>
    rw [bankOf] at hb
    simp only [validateGlobalFwbankDump, blobmsgParse, List.map_cons, List.map_nil, hb] at h
    split at h
    · rename_i heq
      split at heq <;> simp at heq
    · simp at h

/-- A valid output's first attribute is the array that was validated, or it is not. -/
theorem take_one_iff (dump : List Attr) (h : validateGlobalFwbankDump dump = true) :
    some (dump.take 1) = (bankOf dump).map (fun b => [b]) ↔ StartsWithBank dump := by
  obtain ⟨bank, hb⟩ := bankOf_of_valid dump h
  rw [hb]
  cases dump with
  | nil => simp [bankOf] at hb
  | cons a rest =>
    simp only [List.take_succ_cons, List.take_zero, Option.map_some, Option.some.injEq,
      List.cons.injEq, and_true, StartsWithBank, List.head?_cons, Option.mem_def,
      exists_eq_left']
    rw [bankOf, List.find?_cons] at hb
    constructor
    · rintro rfl
      split at hb
      · assumption
      · exact List.find?_some hb
    · intro ha
      rw [ha] at hb
      exact Option.some.inj hb

theorem browse_single (g : FwbankDump) (bank : Option Attr)
    (hbank : ∀ b ∈ bank, sysmngrDumpPolicy.accepts b)
    (h : dumpHandler g = bank.map fun b => [b]) : Holds g bank := by
  refine ⟨h, ?_⟩
  rw [dumpHandler] at h
  rw [browseDeviceInfoFirmwareImageInst, h]
  cases bank with
  | none => rfl
  | some b =>
    have hb : List.find? sysmngrDumpPolicy.accepts [b] = some b := by
      rw [List.find?_cons, hbank b rfl]
    simp only [Option.map_some, Option.getD_some, blobmsgParse, List.isEmpty_cons,
      Bool.false_eq_true, if_false, List.map_cons, List.map_nil, hb]

theorem lastBank_accepts (parse : Str → Option (List Attr)) (rs : List Reads) :
    ∀ b ∈ lastBank parse rs, sysmngrDumpPolicy.accepts b := by
  intro b hb
  obtain ⟨dump, _, hfind⟩ := Option.bind_eq_some_iff.mp hb
  exact List.find?_some hfind

theorem lastBank_append (parse : Str → Option (List Attr)) (rs : List Reads) (r : Reads) :
    lastBank parse (rs ++ [r]) =
      match accepted parse r with
      | some dump => bankOf dump
      | none => lastBank parse rs := by
  simp only [lastBank, List.filterMap_append, List.filterMap_cons, List.filterMap_nil]
  cases accepted parse r with
  | none => simp only [List.append_nil]
  | some dump => simp only [List.getLast?_append, List.getLast?_singleton, Option.some_or,
      Option.bind_some]

theorem accepted_valid (parse : Str → Option (List Attr)) (r : Reads) (dump : List Attr)
    (h : accepted parse r = some dump) : validateGlobalFwbankDump dump = true :=
  (Option.filter_eq_some_iff.mp h).2

/-- An attempt after `rs` keeps the cache right exactly when its output, if it is
accepted, starts with the bank array. -/
theorem attempt_holds (parse : Str → Option (List Attr)) (g : FwbankDump) (rs : List Reads)
    (r : Reads) (hg : Holds g (lastBank parse rs)) :
    Holds (attempt parse g r).1 (lastBank parse (rs ++ [r])) ↔
      ∀ dump ∈ accepted parse r, StartsWithBank dump := by
  have hout := attempt_output parse g r
  have hlast := lastBank_append parse rs r
  have haccepts := lastBank_accepts parse (rs ++ [r])
  cases ha : accepted parse r with
  | none =>
    rw [ha] at hout hlast
    simp only at hout hlast
    rw [hlast] at haccepts ⊢
    refine ⟨fun _ dump hd => absurd hd (by simp), fun _ => browse_single _ _ haccepts ?_⟩
    rw [dumpHandler, hout]
    exact hg.reply
  | some dump =>
    rw [ha] at hout hlast
    simp only at hout hlast
    have hiff := take_one_iff dump (accepted_valid parse r dump ha)
    rw [hlast] at haccepts ⊢
    constructor
    · intro h d hd
      obtain rfl := Option.mem_some_iff.mp hd
      have hreply := h.reply
      rw [dumpHandler, hout] at hreply
      exact hiff.mp hreply
    · intro h
      refine browse_single _ _ haccepts ?_
      rw [dumpHandler, hout]
      exact hiff.mpr (h dump rfl)

/-- Over a run of dump attempts the cache always holds the last accepted output's
bank array exactly when every accepted output starts with it. -/
theorem cache_holds_iff (parse : Str → Option (List Attr)) (rs : List Reads) :
    (∀ pre, pre <+: rs →
      Holds (run (attempt parse) .initial pre).1 (lastBank parse pre)) ↔
    ∀ r ∈ rs, ∀ dump ∈ accepted parse r, StartsWithBank dump := by
  have hinit : Holds (run (attempt parse) .initial []).1 (lastBank parse []) := ⟨rfl, rfl⟩
  induction rs using List.reverseRecOn with
  | nil =>
    refine ⟨fun _ r hr => absurd hr (List.not_mem_nil), fun _ pre hpre => ?_⟩
    rw [List.prefix_nil.mp hpre]
    exact hinit
  | append_singleton rs r ih =>
    have hstep : (run (attempt parse) .initial (rs ++ [r])).1 =
        (attempt parse (run (attempt parse) .initial rs).1 r).1 := by
      rw [run_append]
      rfl
    constructor
    · intro h x hx
      have hrs := h rs (List.prefix_append _ _)
      rcases List.mem_append.mp hx with hx | hx
      · exact ih.mp (fun pre hpre => h pre (hpre.trans (List.prefix_append _ _))) x hx
      · obtain rfl := List.mem_singleton.mp hx
        have hlast := h (rs ++ [x]) (List.prefix_refl _)
        rw [hstep] at hlast
        exact (attempt_holds parse _ rs x hrs).mp hlast
    · intro h pre hpre
      have hall := ih.mpr fun x hx => h x (List.mem_append_left _ hx)
      rcases List.prefix_concat_iff.mp hpre with rfl | hpre
      · rw [hstep]
        exact (attempt_holds parse _ rs r (hall rs (List.prefix_refl _))).mpr
          (h r (List.mem_append_right _ (List.mem_singleton_self _)))
      · exact hall pre hpre

theorem accepted_whole (parse : Str → Option (List Attr)) (text : Str) (hne : text ≠ [])
    (hlen : text.length ≤ 1023) (hnul : NUL ∉ text) :
    accepted parse ⟨[text], false⟩ = (parse text).filter validateGlobalFwbankDump := by
  have hdel : Delivered [text] := by
    intro c hc
    rw [List.mem_singleton.mp hc]
    exact ⟨hne, hlen, hnul⟩
  have hpos : (text.length != 0) = true := by
    simp only [bne_iff_ne, ne_eq, List.length_eq_zero_iff]
    exact hne
  rw [accepted, dumpText, readOutput_eq _ hdel]
  simp only [List.getLastD_cons, List.getLastD_nil, Option.filter_some, if_pos hpos,
    Option.bind_some]

def versionedText : Str :=
  "\x7b\"version\":\"1\",\"bank\":[\x7b\"name\":\"a\",\"id\":1,\"active\":true,\"boot\":true,".toList ++
    "\"upgrade\":false,\"fwver\":\"f\",\"swver\":\"s\",\"status\":\"Active\"\x7d]\x7d".toList

def versionedDump : List Attr :=
  [.string "version" "1".toList,
    .array "bank" [.table "" [.string "name" "a".toList, .int32 "id" 1, .bool "active" true,
      .bool "boot" true, .bool "upgrade" false, .string "fwver" "f".toList,
      .string "swver" "s".toList, .string "status" "Active".toList]]]

def versionedParse (s : Str) : Option (List Attr) :=
  if s = versionedText then some versionedDump else none

set_option maxRecDepth 4000 in
theorem versioned_dump_lost :
    ¬∀ (parse : Str → Option (List Attr)) (rs pre : List Reads), pre <+: rs →
      Holds (run (attempt parse) .initial pre).1 (lastBank parse pre) := by
  intro hall
  have h := hall versionedParse [⟨[versionedText], false⟩] _ (List.prefix_refl _)
  have hacc : accepted versionedParse ⟨[versionedText], false⟩ = some versionedDump := by
    rw [accepted_whole _ versionedText (by decide) (by decide) (by decide), versionedParse,
      if_pos rfl]
    rfl
  obtain ⟨b, hb, hbank⟩ := (attempt_holds versionedParse .initial [] ⟨[versionedText], false⟩
    ⟨rfl, rfl⟩).mp h versionedDump hacc
  obtain rfl := Option.mem_some_iff.mp hb
  exact absurd hbank (by decide)

end Sysmngr.Fwbank
