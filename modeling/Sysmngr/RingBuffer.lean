import Sysmngr.Fifo

/-!
# Ring buffers

A buffer written in a circle, with the index of the next write and a flag that is
set once the circle is closed. Read oldest first from the index it is a sliding
window: the last entries put in, as many as the buffer holds.
-/

namespace Sysmngr.RingBuffer

variable {α β : Type}

structure RingBuf (α : Type) where
  buf : List α
  index : ℕ
  full : Bool
  deriving Repr

def RingBuf.put (r : RingBuf α) (x : α) : RingBuf α where
  buf := r.buf.set r.index x
  index := (r.index + 1) % r.buf.length
  full := r.full || decide (r.index + 1 ≥ r.buf.length)

/-- What the ring holds, oldest first. -/
def RingBuf.contents (r : RingBuf α) : List α :=
  if r.full then r.buf.drop r.index ++ r.buf.take r.index else r.buf.take r.index

/-- The entries in use, in the order of the buffer. -/
def RingBuf.used (r : RingBuf α) : List α := r.buf.take (if r.full then r.buf.length else r.index)

def RingBuf.empty (n : ℕ) (x : α) : RingBuf α := ⟨List.replicate n x, 0, false⟩

/-- The next write is within the buffer. -/
def RingBuf.Valid (r : RingBuf α) : Prop := r.index < r.buf.length

theorem empty_valid (n : ℕ) (x : α) (h : 0 < n) : (RingBuf.empty n x).Valid := by
  simpa [RingBuf.Valid, RingBuf.empty] using h

@[simp] theorem put_length (r : RingBuf α) (x : α) : (r.put x).buf.length = r.buf.length := by
  simp [RingBuf.put]

theorem put_valid (r : RingBuf α) (x : α) (h : r.Valid) : (r.put x).Valid := by
  have hpos : 0 < r.buf.length := Nat.lt_of_le_of_lt (Nat.zero_le _) h
  unfold RingBuf.Valid
  rw [put_length]
  exact Nat.mod_lt _ hpos

theorem contents_length_le (r : RingBuf α) : r.contents.length ≤ r.buf.length := by
  unfold RingBuf.contents
  split
  · simp only [List.length_append, List.length_drop, List.length_take]
    omega
  · exact List.length_take_le' _ _

theorem set_eq (l : List α) (i : ℕ) (x : α) (h : i < l.length) :
    l.set i x = l.take i ++ x :: l.drop (i + 1) := List.set_eq_take_append_cons_drop .. |>.trans (if_pos h)

theorem drop_set (l : List α) (i : ℕ) (x : α) (h : i < l.length) :
    (l.set i x).drop (i + 1) = l.drop (i + 1) := by
  have hlen : (l.take i).length = i := List.length_take_of_le (Nat.le_of_lt h)
  rw [set_eq l i x h, List.append_cons, List.drop_left' (by simp [hlen])]

theorem take_set (l : List α) (i : ℕ) (x : α) (h : i < l.length) :
    (l.set i x).take (i + 1) = l.take i ++ [x] := by
  have hlen : (l.take i).length = i := List.length_take_of_le (Nat.le_of_lt h)
  rw [set_eq l i x h, List.append_cons, List.take_left' (by simp [hlen])]

/-- The write at the index drops the oldest entry once the ring is full. -/
theorem contents_put (r : RingBuf α) (x : α) (h : r.Valid) :
    (r.put x).contents = Fifo.push r.buf.length r.contents x := by
  obtain ⟨buf, i, full⟩ := r
  have hi : i < buf.length := h
  have hlen : (buf.take i).length = i := List.length_take_of_le (Nat.le_of_lt hi)
  have hclosed : i + 1 = buf.length → buf.set i x = buf.take i ++ [x] := by
    intro hlast
    rw [set_eq buf i x hi, hlast, List.drop_length]
  cases full with
  | true =>
    -- one entry more than the buffer holds: the first one goes
    have hpush : Fifo.push buf.length (buf.drop i ++ buf.take i) x =
        buf.drop (i + 1) ++ (buf.take i ++ [x]) := by
      have hdrop : (buf.drop i).length = buf.length - i := List.length_drop
      rw [Fifo.push_eq_drop_append _ _ _ (by omega), List.length_append, hlen, hdrop]
      have hone : buf.length - i + i + 1 - buf.length = 1 := by omega
      rw [hone, List.drop_append_of_le_length (by omega), List.drop_drop, List.append_assoc]
    simp only [RingBuf.contents, RingBuf.put, if_true, Bool.true_or, hpush]
    rcases Nat.lt_or_ge (i + 1) buf.length with hlt | hge
    · rw [Nat.mod_eq_of_lt hlt, drop_set buf i x hi, take_set buf i x hi]
    · have hlast : i + 1 = buf.length := by omega
      rw [hlast, Nat.mod_self, List.drop_zero, List.take_zero, List.append_nil, hclosed hlast,
        List.drop_length, List.nil_append]
  | false =>
    have hpush : Fifo.push buf.length (buf.take i) x = buf.take i ++ [x] :=
      Fifo.trim_of_length_le _ _ (by rw [List.length_append, hlen, List.length_singleton]; omega)
    simp only [RingBuf.contents, RingBuf.put, Bool.false_or, Bool.false_eq_true, if_false, hpush]
    rcases Nat.lt_or_ge (i + 1) buf.length with hlt | hge
    · rw [decide_eq_false (Nat.not_le.mpr hlt), Nat.mod_eq_of_lt hlt, take_set buf i x hi]
      rfl
    · have hlast : i + 1 = buf.length := by omega
      rw [decide_eq_true hge, hlast, Nat.mod_self, if_pos rfl, List.drop_zero, List.take_zero,
        List.append_nil, hclosed hlast]

theorem used_perm_contents (r : RingBuf α) : r.used.Perm r.contents := by
  unfold RingBuf.used RingBuf.contents
  split
  · rw [List.take_length]
    conv_lhs => rw [← List.take_append_drop r.index r.buf]
    exact List.perm_append_comm
  · exact List.Perm.refl _

/-! ### Runs of writes -/

def RingBuf.putAll (r : RingBuf α) (xs : List α) : RingBuf α := xs.foldl RingBuf.put r

theorem putAll_length (r : RingBuf α) (xs : List α) : (r.putAll xs).buf.length = r.buf.length := by
  induction xs generalizing r with
  | nil => rfl
  | cons x xs ih => exact (ih (r.put x)).trans (put_length r x)

theorem putAll_valid (r : RingBuf α) (xs : List α) (h : r.Valid) : (r.putAll xs).Valid := by
  induction xs generalizing r with
  | nil => exact h
  | cons x xs ih => exact ih (r.put x) (put_valid r x h)

theorem putAll_contents (r : RingBuf α) (xs : List α) (h : r.Valid) :
    (r.putAll xs).contents = Fifo.trim r.buf.length (r.contents ++ xs) := by
  induction xs generalizing r with
  | nil =>
    rw [List.append_nil, Fifo.trim_of_length_le _ _ (contents_length_le r)]
    rfl
  | cons x xs ih =>
    have hrest := ih (r.put x) (put_valid r x h)
    rw [put_length, contents_put r x h, Fifo.trim_push_append] at hrest
    exact hrest

/-- From an empty ring: the last entries written. -/
theorem putAll_empty_contents (n : ℕ) (x : α) (xs : List α) (h : 0 < n) :
    ((RingBuf.empty n x).putAll xs).contents = Fifo.trim n xs := by
  have hlen : (RingBuf.empty n x).buf.length = n := List.length_replicate
  have hnil : (RingBuf.empty n x).contents = [] := rfl
  rw [putAll_contents _ _ (empty_valid n x h), hlen, hnil, List.nil_append]

end Sysmngr.RingBuffer
