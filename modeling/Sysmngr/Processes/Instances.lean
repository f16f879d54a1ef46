import Sysmngr.Changes
import Sysmngr.Processes.Model

/-!
# The announced instances of the process table

The first list is known without an announcement. From then on a reader of the events
who starts with its instances has after every refresh those of the list, numbered from 1
to its length.
-/

namespace Sysmngr.Processes
open Text Uci Machine Changes

/-! ### Scans -/

/-- The directory opens, every entry of the list finds its memory, and there is one. -/
def listsProcesses (proc : Option Proc) : Bool :=
  proc.any fun p => (scanProcesses p.dirents).2 && (scanProcesses p.dirents).1.length != 0

theorem scan_length_le (dirents : List Dirent) :
    (scanProcesses dirents).1.length ≤ (dirents.filter Dirent.isProcess).length := by
  induction dirents with
  | nil => exact Nat.le_refl _
  | cons d rest ih =>
    cases hread : readProcess d with
    | none =>
      simp only [scanProcesses, hread]
      exact ih.trans (((List.sublist_cons_self d rest).filter _).length_le)
    | some entry =>
      have hprocess : d.isProcess = true := by
        by_contra hno
        simp [readProcess, hno] at hread
      rw [List.filter_cons_of_pos hprocess, List.length_cons]
      simp only [scanProcesses, hread]
      split
      · exact Nat.succ_le_succ ih
      · exact Nat.zero_le _

theorem scan_length_lt (p : Proc) : (scanProcesses p.dirents).1.length < 2 ^ 31 :=
  Nat.lt_of_le_of_lt (scan_length_le p.dirents) p.processes_lt

theorem toInt_scan_length (p : Proc) :
    toInt (scanProcesses p.dirents).1.length = (scanProcesses p.dirents).1.length := by
  have hlt := scan_length_lt p
  exact toInt_of_mem _ (by omega) (by omega)

theorem lists_spec (proc : Option Proc) (h : listsProcesses proc = true) :
    ∃ p, proc = some p ∧ (scanProcesses p.dirents).2 = true ∧
      0 < (scanProcesses p.dirents).1.length ∧ (scanProcesses p.dirents).1.length < 2 ^ 31 := by
  obtain ⟨p, rfl, hp⟩ := (Option.any_eq_true _ _).mp h
  rw [Bool.and_eq_true, bne_iff_ne] at hp
  exact ⟨p, rfl, hp.1, Nat.pos_of_ne_zero hp.2, scan_length_lt p⟩

/-! ### Announcements -/

def announced : Effect → List (Change Str)
  | .event method instances =>
    if method = "bbfdm.AddObj".toList then instances.map .add
    else if method = "bbfdm.DelObj".toList then instances.map .del
    else []
  | .timeoutSet _ => []

def announcements (effects : List Effect) : List (Change Str) := effects.flatMap announced

def instances (n : ℕ) : Finset Str := firsts (fun i : ℕ => processPath i) n

theorem processPath_injOn : Set.InjOn (fun i : ℕ => processPath i) (Set.Iic (2 ^ 31)) := by
  have hpath : ∀ i : ℕ, i ≤ 2 ^ 31 →
      processPath i = "Device.DeviceInfo.ProcessStatus.Process.".toList ++ printInt i := by
    intro i hi
    have hlen := printInt_length_le (i : ℤ) 10 (by decide) (by omega)
    have hhead : "Device.DeviceInfo.ProcessStatus.Process.".toList.length = 40 := by decide
    refine snprintf_of_le 256 _ ?_
    rw [List.length_append, hhead]
    omega
  intro i hi j hj heq
  change processPath i = processPath j at heq
  rw [hpath i hi, hpath j hj] at heq
  exact Int.ofNat.inj (printInt_injective (List.append_cancel_left heq))

theorem broadcast_add (m k : ℕ) (hm : 0 < m) (hk : 0 < k) :
    announcements (broadcastAddDelEvent m k) =
      (List.range k).map fun i : ℕ => .add (processPath (m + i + 1 : ℕ)) := by
  have hm0 : (m : ℤ) ≠ 0 := by omega
  have hgrow : (k : ℤ) > 0 := by omega
  simp only [broadcastAddDelEvent, if_neg hm0, if_pos hgrow, Int.natAbs_natCast]
  change ((List.range k).map _).map _ ++ [] = _
  rw [List.append_nil, List.map_map]
  rfl

theorem broadcast_del (m k : ℕ) (hm : 0 < m) (hk : 0 < k) (hle : k ≤ m) :
    announcements (broadcastAddDelEvent m (-k)) =
      (List.range k).map fun i : ℕ => .del (processPath (m - i : ℕ)) := by
  have hm0 : (m : ℤ) ≠ 0 := by omega
  have hshrink : ¬-(k : ℤ) > 0 := by omega
  simp only [broadcastAddDelEvent, if_neg hm0, if_neg hshrink, Int.natAbs_neg, Int.natAbs_natCast]
  change ((List.range k).map _).map _ ++ [] = _
  rw [List.append_nil, List.map_map]
  refine List.map_congr_left fun i hi => ?_
  have hik := List.mem_range.mp hi
  have hcast : (m : ℤ) - i = ((m - i : ℕ) : ℤ) := by omega
  simp only [Function.comp_apply, hcast]

/-- What a change of the count from `m` to `n` announces turns the first `m` instances
into the first `n`. -/
theorem replay_broadcast (m n : ℕ) (hm : 0 < m) (hmb : m ≤ 2 ^ 31) (hnb : n ≤ 2 ^ 31)
    (hne : (n : ℤ) - m ≠ 0) :
    replay (instances m) (announcements (broadcastAddDelEvent m (n - m))) = some (instances n) := by
  by_cases hgrow : m < n
  · obtain ⟨k, rfl⟩ : ∃ k, n = m + k := ⟨n - m, by omega⟩
    have hdiff : ((m + k : ℕ) : ℤ) - m = k := by omega
    rw [hdiff, broadcast_add m k hm (by omega)]
    exact replay_grow _ _ processPath_injOn m k hnb
  · obtain ⟨k, rfl⟩ : ∃ k, m = n + k := ⟨m - n, by omega⟩
    have hdiff : (n : ℤ) - (n + k : ℕ) = -k := by omega
    have hreplay := replay_shrink _ _ processPath_injOn (n + k) k hmb (Nat.le_add_left k n)
    rw [Nat.add_sub_cancel] at hreplay
    rw [hdiff, broadcast_del (n + k) k hm (by omega) (Nat.le_add_left k n)]
    exact hreplay

/-! ### Refreshes -/

/-- The count kept is that of a list that is not empty. -/
structure Counted (c : ProcessCtx) : Prop where
  pos : 0 < c.list.length
  lt : c.list.length < 2 ^ 31
  processNum : c.processNum = c.list.length

theorem announcements_append (a b : List Effect) :
    announcements (a ++ b) = announcements a ++ announcements b := List.flatMap_append

theorem announcements_timeout (p : Prop) [Decidable p] (ms : ℤ) :
    announcements (if p then [.timeoutSet ms] else []) = [] := by
  split <;> rfl

theorem toInt_diff (m n : ℕ) (hm : m < 2 ^ 31) (hn : n < 2 ^ 31) :
    toInt ((n : ℤ) - m) = n - m := toInt_of_mem _ (by omega) (by omega)

theorem refresh_list (c : ProcessCtx) (proc : Option Proc) :
    (runRefreshProcessList c proc).1.list =
      (proc.map fun p => (scanProcesses p.dirents).1).getD [] := by
  cases proc with
  | none => rfl
  | some p =>
    simp only [runRefreshProcessList, initProcessList, freeProcessList, List.nil_append,
      Option.map_some, Option.getD_some]
    cases (scanProcesses p.dirents).2 with
    | false => rfl
    | true =>
      by_cases hdiff : toInt ((scanProcesses p.dirents).1.length - c.processNum) = 0
      · simp [hdiff]
      · simp [hdiff]

/-- Where no entries were counted, the new ones are counted and not announced. -/
theorem refresh_first (c : ProcessCtx) (p : Proc) (hdone : (scanProcesses p.dirents).2 = true)
    (hnum : c.processNum = 0) :
    (runRefreshProcessList c (some p)).1.processNum = (scanProcesses p.dirents).1.length ∧
      announcements (runRefreshProcessList c (some p)).2 = [] := by
  simp only [runRefreshProcessList, initProcessList, freeProcessList, hdone, Bool.not_true,
    Bool.false_eq_true, if_false, List.nil_append, hnum, Int.sub_zero, toInt_scan_length]
  split
  · rw [announcements_append, announcements_timeout]
    exact ⟨rfl, rfl⟩
  · rename_i hnone
    rw [announcements_append, announcements_timeout]
    refine ⟨?_, rfl⟩
    change (0 : ℤ) = (scanProcesses p.dirents).1.length
    omega

/-- Otherwise the change from the instances counted to those of the list is announced. -/
theorem refresh_complete (c : ProcessCtx) (p : Proc) (hdone : (scanProcesses p.dirents).2 = true)
    (m : ℕ) (hm : 0 < m) (hmlt : m < 2 ^ 31) (hnum : c.processNum = m) :
    (runRefreshProcessList c (some p)).1.processNum = (scanProcesses p.dirents).1.length ∧
      replay (instances m) (announcements (runRefreshProcessList c (some p)).2) =
        some (instances (scanProcesses p.dirents).1.length) := by
  have hlt := scan_length_lt p
  simp only [runRefreshProcessList, initProcessList, freeProcessList, hdone, Bool.not_true,
    Bool.false_eq_true, if_false, List.nil_append, hnum, toInt_diff _ _ hmlt hlt]
  split
  · rename_i hne
    rw [announcements_append, announcements_timeout, List.append_nil]
    exact ⟨by simp only [toInt_scan_length], replay_broadcast _ _ hm (by omega) (by omega) hne⟩
  · rename_i hsame
    have heq : m = (scanProcesses p.dirents).1.length := by omega
    rw [announcements_append, announcements_timeout, ← heq]
    exact ⟨rfl, rfl⟩

theorem refresh_replays (c : ProcessCtx) (proc : Option Proc) (hc : Counted c)
    (h : listsProcesses proc = true) :
    Counted (runRefreshProcessList c proc).1 ∧
      replay (instances c.list.length) (announcements (runRefreshProcessList c proc).2) =
        some (instances (runRefreshProcessList c proc).1.list.length) := by
  obtain ⟨p, rfl, hdone, hpos, hlt⟩ := lists_spec proc h
  obtain ⟨hcount, hreplay⟩ := refresh_complete c p hdone c.list.length hc.pos hc.lt hc.processNum
  have hlist := refresh_list c (some p)
  refine ⟨⟨?_, ?_, ?_⟩, ?_⟩
  · rwa [hlist]
  · rwa [hlist]
  · rw [hlist]
    exact hcount
  · rw [hlist]
    exact hreplay

theorem first_counted (c : ProcessCtx) (proc : Option Proc) (hc : c.processNum = 0)
    (h : listsProcesses proc = true) : Counted (runRefreshProcessList c proc).1 := by
  obtain ⟨p, rfl, hdone, hpos, hlt⟩ := lists_spec proc h
  have hlist := refresh_list c (some p)
  refine ⟨?_, ?_, ?_⟩
  · rwa [hlist]
  · rwa [hlist]
  · rw [hlist]
    exact (refresh_first c p hdone hc).1

theorem run_replays (c : ProcessCtx) (scans : List (Option Proc)) (hc : Counted c)
    (h : ∀ proc ∈ scans, listsProcesses proc = true) :
    replay (instances c.list.length)
        (announcements (run runRefreshProcessList c scans).2.flatten) =
      some (instances (run runRefreshProcessList c scans).1.list.length) := by
  induction scans generalizing c with
  | nil => rfl
  | cons proc scans ih =>
    obtain ⟨hnext, hreplay⟩ := refresh_replays c proc hc (h proc (List.mem_cons_self ..))
    have hrest := ih _ hnext fun q hq => h q (List.mem_cons_of_mem _ hq)
    rw [run_cons_state, run_cons_outputs, List.flatten_cons, announcements_append, replay_append,
      hreplay, Option.bind_some]
    exact hrest

theorem browse_all (c : ProcessCtx) :
    (browseProcessEntriesInst c fun _ => false).1.map Prod.fst = List.range' 1 c.list.length := by
  have hall : ∀ l : List (ℕ × ProcessEntry), l.takeWhile (fun _ => true) = l := by
    intro l
    induction l with
    | nil => rfl
    | cons i l ih => rw [List.takeWhile_cons_of_pos rfl, ih]
  simp only [browseProcessEntriesInst, Bool.not_false, hall]
  rw [List.take_of_length_le (Nat.le_succ _)]
  refine List.ext_getElem (by simp) fun i hi hi' => ?_
  simp [Nat.add_comm]

/-- Replaying the announcements of any run of refreshes that list processes, from the
instances of the first list, adds only what is absent, deletes only what is there and
ends with the instances 1 to the length of the list, which are those browsing shows. -/
theorem replayed_instances (uci : Named) (first : Option Proc) (scans : List (Option Proc))
    (h : ∀ proc ∈ first :: scans, listsProcesses proc = true) :
    replay (instances (sysmngrProcessInit uci first).1.list.length)
        (announcements (run runRefreshProcessList (sysmngrProcessInit uci first).1 scans).2.flatten) =
      some (instances
        (run runRefreshProcessList (sysmngrProcessInit uci first).1 scans).1.list.length) ∧
    (browseProcessEntriesInst (run runRefreshProcessList (sysmngrProcessInit uci first).1 scans).1
        fun _ => false).1.map Prod.fst =
      List.range' 1 (run runRefreshProcessList (sysmngrProcessInit uci first).1 scans).1.list.length :=
  ⟨run_replays _ scans (first_counted _ first rfl (h first (List.mem_cons_self ..)))
      fun proc hp => h proc (List.mem_cons_of_mem _ hp),
    browse_all _⟩

def sampleProc (n : ℕ) (hn : n < 2 ^ 31) : Proc where
  dirents := (List.range n).map fun i =>
    ⟨printNat (i + 1), true,
      some "1 (init) S 0 1 1 0 -1 4194560 9 9 0 0 25 9 0 0 20 0 1 0 2 4096 100".toList,
      some "/sbin/procd".toList, true⟩
  processes_lt := by
    refine Nat.lt_of_le_of_lt (List.length_filter_le _ _) ?_
    simpa using hn

def sampleInit : ProcessCtx :=
  (sysmngrProcessInit (fun _ _ => none) (some (sampleProc 2 (by decide)))).1

def sampleScans : List (Option Proc) :=
  [some (sampleProc 3 (by decide)), some (sampleProc 1 (by decide))]

theorem replayed_instances_sample :
    replay (instances sampleInit.list.length)
        (announcements (run runRefreshProcessList sampleInit sampleScans).2.flatten) =
      some (instances (run runRefreshProcessList sampleInit sampleScans).1.list.length) :=
  (replayed_instances (fun _ _ => none) (some (sampleProc 2 (by decide))) sampleScans
    (by decide)).1

end Sysmngr.Processes
