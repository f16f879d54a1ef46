import Sysmngr.Processes.Model

/-!
# The command line put together in place

`procps_get_cmdline` cuts the buffer at its first blank to find the base name, restores it
while it rewrites control characters, and shifts it to make room for the name. What the
buffer holds in the end is one string, cut to the buffer.
-/

namespace Sysmngr.Processes
open Text

/-! ### What is to be shown -/

/-- The first argument up to its first blank. -/
def firstWord (content : Str) : Str := content.takeWhile fun c => c != ' ' && c != NUL

/-- The arguments with blanks for the NULs between them and for control characters. -/
def arguments (content : Str) : Str :=
  (content.rdropWhile (· == NUL)).map fun c => if c.toNat < 32 then ' ' else c

/-- The arguments from the base name on, without the hyphen of a login shell. -/
def fromBaseName (content : Str) : Str :=
  match (arguments content).drop ((firstWord content).rdropWhile (· != '/')).length with
  | '-' :: rest => rest
  | rest => rest

def cmdlineText (content comm : Str) : Str :=
  if content = [] then '[' :: comm ++ [']']
  else if comm <+: fromBaseName content then arguments content
  else '{' :: comm ++ '}' :: ' ' :: arguments content

example : cmdlineText "/usr/sbin/httpd\x00-k start\x00".toList "httpd".toList =
    "/usr/sbin/httpd -k start".toList := by decide

example : cmdlineText "-sh\x00".toList "ash".toList = "{ash} -sh".toList := by decide

def HoldsString (buf : List Char) (s : Str) : Prop := NUL ∉ s ∧ ∃ rest, buf = s ++ NUL :: rest

theorem HoldsString.cstr_eq {buf : List Char} {s : Str} (h : HoldsString buf s) : cstr buf = s := by
  obtain ⟨hs, rest, rfl⟩ := h
  exact cstr_append s rest hs

theorem store_holds (buf : List Char) (s : Str) (h : NUL ∉ s) : HoldsString (store buf s) s :=
  ⟨h, _, rfl⟩

/-! ### Cut and restored -/

theorem arguments_nul (content : Str) : NUL ∉ arguments content := by
  intro h
  obtain ⟨c, -, hc⟩ := List.mem_map.mp h
  split at hc
  · exact absurd hc (by decide)
  · rename_i hlow
    rw [hc] at hlow
    exact hlow (by decide)

theorem trailing_nuls (content : Str) :
    ∃ n, content = content.rdropWhile (· == NUL) ++ List.replicate n NUL := by
  have hsplit := List.rdropWhile_append_rtakeWhile (p := fun c => c == NUL) (l := content)
  refine ⟨(content.rtakeWhile (· == NUL)).length, ?_⟩
  have hends : content.rtakeWhile (· == NUL) =
      List.replicate (content.rtakeWhile (· == NUL)).length NUL :=
    List.eq_replicate_of_mem fun c hc => by simpa using List.mem_rtakeWhile_imp hc
  rw [← hends, hsplit]

theorem store_kept (buf : List Char) (content : Str) :
    ∃ rest, store buf content = content.rdropWhile (· == NUL) ++ NUL :: rest := by
  obtain ⟨n, hn⟩ := trailing_nuls content
  rw [store]
  generalize buf.drop (content.length + 1) = rest
  cases n with
  | zero =>
    refine ⟨rest, ?_⟩
    conv_lhs => rw [hn]
    simp
  | succ n =>
    refine ⟨List.replicate n NUL ++ NUL :: rest, ?_⟩
    conv_lhs => rw [hn]
    simp [List.replicate_succ]

/-- Trailing NULs are past the first word. -/
theorem firstWord_kept (content : Str) :
    firstWord (content.rdropWhile (· == NUL)) = firstWord content := by
  obtain ⟨n, hn⟩ := trailing_nuls content
  have hends : (List.replicate n NUL).takeWhile (fun c => c != ' ' && c != NUL) = [] := by
    cases n <;> rfl
  conv_rhs => rw [hn]
  unfold firstWord
  rw [List.takeWhile_append, hends, List.append_nil]
  split
  · rename_i hall
    exact (List.takeWhile_prefix _).eq_of_length hall
  · rfl

/-- The buffer cut at the end of the first word, and the control characters rewritten:
where it was cut a blank is put back. -/
theorem restored (content rest : Str) :
    let buf := (content ++ NUL :: rest).set (firstWord content).length NUL
    cstr buf = firstWord content ∧
      (buf.take content.length).map (fun c => if c.toNat < 32 then ' ' else c) ++
          buf.drop content.length =
        content.map (fun c => if c.toNat < 32 then ' ' else c) ++ NUL :: rest := by
  have hnul : NUL ∉ firstWord content := by
    intro h
    have hpass := List.mem_takeWhile_imp h
    exact absurd hpass (by decide)
  have hsplit := List.takeWhile_append_dropWhile (p := fun c => c != ' ' && c != NUL) (l := content)
  change firstWord content ++ _ = content at hsplit
  generalize firstWord content = word at hnul hsplit
  cases hends : content.dropWhile fun c => c != ' ' && c != NUL with
  | nil =>
    rw [hends, List.append_nil] at hsplit
    subst hsplit
    have hset : (word ++ NUL :: rest).set word.length NUL = word ++ NUL :: rest := by simp
    simp only [hset, cstr_append word rest hnul, List.take_left, List.drop_left, and_self]
  | cons c more =>
    have hc : c = ' ' ∨ c = NUL := by
      have hstop := List.head?_dropWhile_not (fun c => c != ' ' && c != NUL) content
      rw [hends] at hstop
      simpa [or_iff_not_imp_left] using hstop
    rw [hends] at hsplit
    subst hsplit
    have hset : (word ++ c :: more ++ NUL :: rest).set word.length NUL =
        word ++ NUL :: more ++ NUL :: rest := by simp
    have hlen : (word ++ c :: more).length = (word ++ NUL :: more).length := by simp
    simp only [hset, hlen, List.take_left, List.drop_left]
    have hlow : NUL.toNat < 32 := by decide
    refine ⟨by rw [List.append_assoc]; exact cstr_append word _ hnul, ?_⟩
    rcases hc with rfl | rfl <;> simp [hlow]

/-! ### Shifted behind the name -/

theorem take_nul (s rest : Str) (m : ℕ) : ∃ more, (s ++ NUL :: rest).take m ++ [NUL] =
    s.take m ++ NUL :: more := by
  by_cases hle : m ≤ s.length
  · exact ⟨[], by rw [List.take_append_of_le_length hle]⟩
  · obtain ⟨k, rfl⟩ : ∃ k, m = s.length + (k + 1) := ⟨m - s.length - 1, by omega⟩
    have htake : (s ++ NUL :: rest).take (s.length + (k + 1)) = s ++ NUL :: rest.take k := by
      rw [List.take_length_add_append, List.take_succ_cons]
    have hall : s.take (s.length + (k + 1)) = s := List.take_of_length_le (by omega)
    exact ⟨rest.take k ++ [NUL], by rw [htake, hall]; simp⟩

theorem memmove_length (buf : List Char) (dst : ℕ) (src : List Char)
    (h : dst + src.length ≤ buf.length) : (memmove buf dst src).length = buf.length := by
  simp only [memmove, List.length_append, List.length_take, List.length_drop]
  omega

theorem shifted_holds (s rest name : Str) (hs : NUL ∉ s) (hname : NUL ∉ name) (k : ℕ)
    (hlen : (s ++ NUL :: rest).length = name.length + 1 + (k + 1)) :
    HoldsString (((store (memmove (s ++ NUL :: rest) (name.length + 1)
        ((s ++ NUL :: rest).take (k + 1))) name).set name.length ' ').set
          (name.length + 1 + k) NUL)
      (name ++ ' ' :: s.take k) := by
  generalize hbuf : s ++ NUL :: rest = buf at hlen
  have hmoved : (memmove buf (name.length + 1) (buf.take (k + 1))).drop (name.length + 1) =
      buf.take (k + 1) := by
    have hend : buf.drop (name.length + 1 + (buf.take (k + 1)).length) = [] := by
      rw [List.drop_eq_nil_iff, List.length_take]
      omega
    rw [memmove, hend, List.append_nil, List.drop_append_of_le_length (by
      rw [List.length_take]; omega), List.drop_take_self, List.nil_append]
  have hlast : (buf.take (k + 1)).set k NUL = buf.take k ++ [NUL] := by
    rw [List.take_succ_eq_append_getElem (by omega), List.set_append_right _ _ (by
      rw [List.length_take]; omega)]
    have hzero : k - (buf.take k).length = 0 := by
      rw [List.length_take]
      omega
    rw [hzero, List.set_cons_zero]
  obtain ⟨more, hmore⟩ := take_nul s rest k
  rw [hbuf] at hmore
  refine ⟨?_, more, ?_⟩
  · intro h
    rcases List.mem_append.mp h with h | h
    · exact hname h
    · rcases List.mem_cons.mp h with h | h
      · exact absurd h (by decide)
      · exact hs (List.mem_of_mem_take h)
  · have hset :
        (store (memmove buf (name.length + 1) (buf.take (k + 1))) name).set name.length ' ' =
          name ++ ' ' :: buf.take (k + 1) := by
      rw [store, hmoved]
      simp
    have hlast' : (name ++ ' ' :: buf.take (k + 1)).set (name.length + 1 + k) NUL =
        name ++ ' ' :: (buf.take (k + 1)).set k NUL := by
      have hk : name.length + 1 + k - name.length = k + 1 := by omega
      rw [List.set_append_right _ _ (by omega), hk, List.set_cons_succ]
    rw [hset, hlast', hlast, hmore]
    simp

/-! ### The whole function -/

theorem firstWord_length_le (content : Str) :
    (firstWord content).length ≤ (arguments content).length := by
  rw [← firstWord_kept, arguments, List.length_map]
  exact (List.takeWhile_prefix _).length_le

/-- The pointer to the base name, seen from the restored buffer. -/
theorem fromBaseName_eq (content rest : Str) :
    let base := (firstWord content).length - ((firstWord content).rtakeWhile (· != '/')).length
    let buf := arguments content ++ NUL :: rest
    cstr (buf.drop (if buf.getD base NUL = '-' then base + 1 else base)) =
      fromBaseName content := by
  have hword := congrArg List.length
    (List.rdropWhile_append_rtakeWhile (p := fun c => c != '/') (l := firstWord content))
  rw [List.length_append] at hword
  have hle := firstWord_length_le content
  have hargs := arguments_nul content
  have hbase : (firstWord content).length - ((firstWord content).rtakeWhile (· != '/')).length =
      ((firstWord content).rdropWhile (· != '/')).length := by omega
  simp only [hbase]
  unfold fromBaseName
  generalize ((firstWord content).rdropWhile (· != '/')).length = base at hword
  generalize arguments content = args at hle hargs
  have hnul : ∀ n, NUL ∉ args.drop n := fun n h => hargs (List.mem_of_mem_drop h)
  have hdrop : ∀ n ≤ args.length, (args ++ NUL :: rest).drop n = args.drop n ++ NUL :: rest :=
    fun n hn => List.drop_append_of_le_length hn
  have hget : (args ++ NUL :: rest).getD base NUL = (args.drop base).head?.getD NUL := by
    rw [List.getD_eq_getElem?_getD, ← List.head?_drop, hdrop base (by omega), List.head?_append]
    cases args.drop base <;> rfl
  rw [hget]
  cases hrest : args.drop base with
  | nil =>
    have hne : ¬([] : Str).head?.getD NUL = '-' := by decide
    rw [if_neg hne, hdrop base (by omega), hrest]
    rfl
  | cons c more =>
    have hlt : base < args.length := by
      have hlen := congrArg List.length hrest
      simp only [List.length_drop, List.length_cons] at hlen
      omega
    have hmore : args.drop (base + 1) = more := by
      rw [← List.tail_drop, hrest, List.tail_cons]
    by_cases hc : c = '-'
    · subst hc
      have hyes : ('-' :: more).head?.getD NUL = '-' := rfl
      have hcut := cstr_append (args.drop (base + 1)) rest (hnul (base + 1))
      rw [if_pos hyes, hdrop (base + 1) hlt, hcut]
      exact hmore
    · have hne : ¬(c :: more).head?.getD NUL = '-' := hc
      rw [if_neg hne, hdrop base (by omega), cstr_append _ _ (hnul _), hrest]
      split
      · rename_i heq
        exact absurd (List.cons.inj heq).1 hc
      · rfl

theorem dmFileToBuf_eq (content : Option Str) (buf : List Char) :
    dmFileToBuf content buf = (content.map fun _ => (snprintf buf.length (content.getD [])).length,
      store buf (snprintf buf.length (content.getD []))) := rfl

/-- The buffer once the command line is read, cut and restored, and the name it is
compared with. -/
theorem procpsGetCmdline_eq (buf : List Char) (cmdline : Option Str) (comm : Str)
    (hread : snprintf buf.length (cmdline.getD []) ≠ []) :
    ∃ rest, (arguments (snprintf buf.length (cmdline.getD [])) ++ NUL :: rest).length =
        (store buf (snprintf buf.length (cmdline.getD []))).length ∧
      procpsGetCmdline buf cmdline (some comm) =
        let restored := arguments (snprintf buf.length (cmdline.getD [])) ++ NUL :: rest
        if comm.isPrefixOf (fromBaseName (snprintf buf.length (cmdline.getD []))) then restored
        else
          let shifted :=
            if buf.length > comm.length + 3 then
              memmove restored (comm.length + 3) (restored.take (buf.length - (comm.length + 3)))
            else restored
          let named := store shifted (snprintf buf.length ('{' :: comm ++ ['}']))
          if buf.length ≤ comm.length + 3 then named
          else (named.set (comm.length + 3 - 1) ' ').set (buf.length - 1) NUL := by
  generalize hcontent : snprintf buf.length (cmdline.getD []) = content at hread
  have hsz : (cmdline.map fun _ => content.length).getD 0 = content.length := by
    cases cmdline with
    | none => exact absurd (hcontent.symm.trans (List.take_nil)) hread
    | some c => rfl
  have hpos : content.length > 0 := List.length_pos_iff.mpr hread
  obtain ⟨rest, hstore⟩ := store_kept buf content
  have htake : (store buf content).take content.length = content := by
    rw [store, List.take_left]
  have hargv0 : ((store buf content).takeWhile fun c => c != ' ' && c != NUL).length =
      (firstWord (content.rdropWhile (· == NUL))).length := by
    rw [hstore]
    unfold firstWord
    rw [List.takeWhile_append]
    split <;> simp_all
  obtain ⟨hword, hrest⟩ := restored (content.rdropWhile (· == NUL)) rest
  have hbase := fromBaseName_eq content rest
  rw [← firstWord_kept content] at hbase
  refine ⟨rest, by rw [hstore, arguments]; simp, ?_⟩
  simp only [procpsGetCmdline, dmFileToBuf_eq, hcontent, hsz, if_pos hpos, htake, hargv0]
  rw [hstore]
  have hargs : (content.rdropWhile (· == NUL)).map (fun c => if c.toNat < 32 then ' ' else c) =
      arguments content := rfl
  rw [hargs] at hrest
  simp only [hword, hrest]
  rw [hbase]

theorem named_nul (comm : Str) (h : NUL ∉ comm) (l r : Char) (hl : NUL ≠ l) (hr : NUL ≠ r) :
    NUL ∉ l :: comm ++ [r] := by
  simp only [List.cons_append, List.mem_cons, List.mem_append, List.not_mem_nil, or_false, not_or]
  exact ⟨hl, h, hr⟩

theorem store_length (buf : List Char) (s : Str) (h : s.length < buf.length) :
    (store buf s).length = buf.length := by
  simp only [store, List.length_append, List.length_cons, List.length_drop]
  omega

theorem prefixed_holds (args rest comm : Str) (size : ℕ)
    (hlen : (args ++ NUL :: rest).length = size) (hargs : NUL ∉ args) (hcomm : NUL ∉ comm) :
    let buf := args ++ NUL :: rest
    let shifted :=
      if size > comm.length + 3 then
        memmove buf (comm.length + 3) (buf.take (size - (comm.length + 3)))
      else buf
    let named := store shifted (snprintf size ('{' :: comm ++ ['}']))
    let filled :=
      if size ≤ comm.length + 3 then named
      else (named.set (comm.length + 3 - 1) ' ').set (size - 1) NUL
    HoldsString filled (('{' :: comm ++ ['}'] ++ ' ' :: args).take (size - 1)) ∧
      filled.length = size := by
  have hname := named_nul comm hcomm '{' '}' (by decide) (by decide)
  have hname_length : ('{' :: comm ++ ['}']).length = comm.length + 2 := by simp
  generalize '{' :: comm ++ ['}'] = name at hname hname_length
  have hpos : 0 < size := by
    rw [← hlen, List.length_append, List.length_cons]
    omega
  by_cases hfits : size ≤ comm.length + 3
  · have htake : (name ++ ' ' :: args).take (size - 1) = snprintf size name :=
      List.take_append_of_le_length (by omega)
    simp only [if_neg (Nat.not_lt.mpr hfits), if_pos hfits, htake]
    refine ⟨store_holds _ _ fun h => hname (List.mem_of_mem_take h), ?_⟩
    have hcut := snprintf_length_le size name
    rw [store_length _ _ (by omega), hlen]
  · obtain ⟨k, rfl⟩ : ∃ k, size = name.length + 1 + (k + 1) :=
      ⟨size - (comm.length + 3) - 1, by omega⟩
    have hroom : comm.length + 3 = name.length + 1 := by omega
    have hshift : name.length + 1 + (k + 1) - (name.length + 1) = k + 1 := by omega
    have hlast : name.length + 1 + (k + 1) - 1 = name.length + 1 + k := by omega
    have hname_cut : snprintf (name.length + 1 + (k + 1)) name = name :=
      snprintf_of_le _ _ (by omega)
    have htake : (name ++ ' ' :: args).take (name.length + 1 + k) = name ++ ' ' :: args.take k := by
      rw [Nat.add_assoc, List.take_length_add_append, Nat.add_comm 1 k, List.take_succ_cons]
    rw [hroom] at hfits
    simp only [hroom, if_pos (Nat.not_le.mp hfits), if_neg hfits, hshift, hlast, hname_cut, htake,
      Nat.add_sub_cancel]
    refine ⟨shifted_holds args rest name hargs hname k hlen, ?_⟩
    have hmoved := memmove_length (args ++ NUL :: rest) (name.length + 1)
      ((args ++ NUL :: rest).take (k + 1)) (by rw [List.length_take, hlen]; omega)
    rw [List.length_set, List.length_set, store_length _ _ (by omega), hmoved, hlen]

theorem cmdline_holds (buf : List Char) (cmdline : Option Str) (comm : Str) (hbuf : 0 < buf.length)
    (hcomm : NUL ∉ comm) :
    HoldsString (procpsGetCmdline buf cmdline (some comm))
        ((cmdlineText ((cmdline.getD []).take (buf.length - 1)) comm).take (buf.length - 1)) ∧
      (procpsGetCmdline buf cmdline (some comm)).length = buf.length := by
  have hshort : ∀ s : Str, (snprintf buf.length s).length < buf.length := by
    intro s
    have hcut := snprintf_length_le buf.length s
    omega
  by_cases hread : snprintf buf.length (cmdline.getD []) = []
  · have hnone : procpsGetCmdline buf cmdline (some comm) =
        store (store buf []) (snprintf buf.length ('[' :: comm ++ [']'])) := by
      simp only [procpsGetCmdline, dmFileToBuf_eq, hread]
      cases cmdline <;> rfl
    have hread' : (cmdline.getD []).take (buf.length - 1) = [] := hread
    have hname := named_nul comm hcomm '[' ']' (by decide) (by decide)
    have hlen := store_length buf [] hbuf
    rw [hnone, hread', cmdlineText, if_pos rfl, store_length _ _ (by rw [hlen]; exact hshort _)]
    exact ⟨store_holds _ _ fun h => hname (List.mem_of_mem_take h), hlen⟩
  · obtain ⟨rest, hlen, heq⟩ := procpsGetCmdline_eq buf cmdline comm hread
    rw [store_length buf _ (hshort _)] at hlen
    have hcut : (cmdline.getD []).take (buf.length - 1) =
        snprintf buf.length (cmdline.getD []) := rfl
    have hlt := hshort (cmdline.getD [])
    rw [heq, hcut, cmdlineText, if_neg hread]
    generalize snprintf buf.length (cmdline.getD []) = content at hlen hlt
    have hargs := arguments_nul content
    by_cases hpre : comm <+: fromBaseName content
    · have htake : (arguments content).take (buf.length - 1) = arguments content := by
        simp only [List.length_append, List.length_cons] at hlen
        exact List.take_of_length_le (by omega)
      simp only [List.isPrefixOf_iff_prefix, if_pos hpre, htake]
      exact ⟨⟨hargs, rest, rfl⟩, hlen⟩
    · simp only [List.isPrefixOf_iff_prefix, if_neg hpre]
      have hfilled := prefixed_holds (arguments content) rest comm buf.length hlen hargs hcomm
      simpa using hfilled

/-- A worker of `/sbin/ubusd -s x`, in a buffer that takes 15 bytes of it. -/
theorem cmdline_holds_sample :
    HoldsString (procpsGetCmdline (List.replicate 16 'x')
      (some "/sbin/ubusd\x00-s\x00x\x00".toList) (some "worker".toList))
        "\x7bworker\x7d /sbin/".toList := by
  have h := cmdline_holds (List.replicate 16 'x') (some "/sbin/ubusd\x00-s\x00x\x00".toList)
    "worker".toList (by decide) (by decide)
  exact h.1

/-! ### In the process list -/

/-- The entry keeps the command line as it was put together in 256 bytes. -/
theorem command_eq (d : Dirent) (s : Stat) (h : NUL ∉ s.comm) :
    (makeEntry d s).command =
      (cmdlineText ((d.cmdline.getD []).take 255) s.comm).take 255 := by
  obtain ⟨hholds, -⟩ := cmdline_holds (List.replicate 256 NUL) d.cmdline s.comm
    (by rw [List.length_replicate]; decide) h
  rw [List.length_replicate] at hholds
  rw [makeEntry, hholds.cstr_eq, snprintf_of_le 256 _ (List.length_take_le _ _)]

end Sysmngr.Processes
