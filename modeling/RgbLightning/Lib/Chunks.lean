import Mathlib.Tactic

/-!
# Lists cut into chunks

`chunks n l` cuts a list into consecutive parts of length `n`, the last one possibly
shorter.  Put together in order, the parts are the list again (`flatten_chunks`).

A reader that fills its buffer as long as it can sees the `full` chunks, and then the `rest`,
which is shorter than a chunk and possibly empty.  A list has one such division only
(`full_append`, `rest_append`).
-/

namespace Chunks

open List

variable {α : Type}

/-- The number of chunks of length `n` of a list of length `len`: the quotient, rounded
up. -/
def count (n len : ℕ) : ℕ :=
  (len + (n - 1)) / n

/-- The chunk at a position. -/
def chunk (n : ℕ) (l : List α) (i : ℕ) : List α :=
  (l.drop (n * i)).take n

def chunks (n : ℕ) (l : List α) : List (List α) :=
  (range (count n l.length)).map (chunk n l)

/-- The first `k` chunks are the first `n * k` elements. -/
theorem flatten_map_chunk (n : ℕ) (l : List α) (k : ℕ) :
  ((range k).map (chunk n l)).flatten = l.take (n * k)
  := by
  induction k with
  | zero => simp
  | succ k ih =>
    rw [range_succ, map_append, flatten_append, ih, map_singleton,
      flatten_singleton, chunk, Nat.mul_succ, take_add]

variable {n : ℕ}

theorem le_mul_count (hn : 0 < n) (len : ℕ) :
  len ≤ n * count n len
  := by
  have h := Nat.lt_mul_div_succ (len + (n - 1)) hn
  rw [count]
  rw [Nat.mul_add] at h
  omega

theorem flatten_chunks (hn : 0 < n) (l : List α) :
  (chunks n l).flatten = l
  := by
  rw [chunks, flatten_map_chunk]
  apply take_of_length_le (le_mul_count hn l.length)

theorem mul_lt_of_lt_count {n len i : ℕ} (h : i < count n len) :
  n * i < len
  := by
  have hi : i + 1 ≤ (len + (n - 1)) / n := h
  have hn : 0 < n := by
    apply Nat.pos_of_ne_zero
    rintro rfl
    simp at hi
  rw [Nat.le_div_iff_mul_le hn, Nat.add_mul, mul_comm] at hi
  omega

theorem length_chunk_pos (hn : 0 < n) {l : List α} {i : ℕ} (h : i < count n l.length) :
  0 < (chunk n l i).length
  := by
  have hi := mul_lt_of_lt_count h
  rw [chunk, length_take, length_drop]
  omega

theorem length_chunk_le (n : ℕ) (l : List α) (i : ℕ) :
  (chunk n l i).length ≤ n
  := length_take_le _ _

theorem length_chunk_of_succ_lt {l : List α} {i : ℕ} (h : i + 1 < count n l.length) :
  (chunk n l i).length = n
  := by
  have hi := mul_lt_of_lt_count h
  rw [Nat.mul_succ] at hi
  rw [chunk, length_take, length_drop]
  omega

/-! ### Full chunks and the rest -/

/-- The chunks of full length. -/
def full (n : ℕ) (l : List α) : List (List α) :=
  (range (l.length / n)).map (chunk n l)

/-- What follows the chunks of full length. -/
def rest (n : ℕ) (l : List α) : List α :=
  l.drop (n * (l.length / n))

theorem length_of_mem_full {l c : List α} (hc : c ∈ full n l) :
  c.length = n
  := by
  obtain ⟨i, hi, rfl⟩ := mem_map.mp hc
  have hlt : n * (i + 1) ≤ n * (l.length / n) := Nat.mul_le_mul_left n (mem_range.mp hi)
  have hle := Nat.mul_div_le l.length n
  rw [Nat.mul_succ] at hlt
  rw [chunk, length_take, length_drop]
  omega

theorem length_rest_lt (hn : 0 < n) (l : List α) :
  (rest n l).length < n
  := by
  have hlt := Nat.lt_mul_div_succ l.length hn
  rw [Nat.mul_add] at hlt
  rw [rest, length_drop]
  omega

theorem flatten_full_append_rest (n : ℕ) (l : List α) :
  (full n l).flatten ++ rest n l = l
  := by
  rw [full, flatten_map_chunk, rest, take_append_drop]

theorem length_flatten {cs : List (List α)} (hcs : ∀ c ∈ cs, c.length = n) :
  cs.flatten.length = n * cs.length
  := by
  rw [List.length_flatten, List.map_congr_left hcs, List.map_const', List.sum_replicate,
    smul_eq_mul, mul_comm]

variable {n : ℕ} {cs : List (List α)} {r : List α}

variable (hcs : ∀ c ∈ cs, c.length = n)
include hcs

theorem length_div_append (hr : r.length < n) :
  (cs.flatten ++ r).length / n = cs.length
  := by
  rw [length_append, length_flatten hcs, Nat.mul_add_div (Nat.zero_lt_of_lt hr),
    Nat.div_eq_of_lt hr, add_zero]

/-- The rest of chunks put together with something shorter is what is shorter. -/
theorem rest_append (hr : r.length < n) :
  rest n (cs.flatten ++ r) = r
  := by
  rw [rest, length_div_append hcs hr, ← length_flatten hcs, drop_left]

/-- The full chunks of chunks put together with something shorter are these chunks. -/
theorem full_append (hr : r.length < n) :
  full n (cs.flatten ++ r) = cs
  := by
  rw [full, length_div_append hcs hr]
  induction cs with
  | nil => rfl
  | cons c cs ih =>
    obtain ⟨hc, hcs⟩ := forall_mem_cons.mp hcs
    have hhead : chunk n ((c :: cs).flatten ++ r) 0 = c := by
      rw [chunk, Nat.mul_zero, drop_zero, flatten_cons, append_assoc, ← hc,
        take_left]
    have htail : ∀ i, chunk n ((c :: cs).flatten ++ r) (i + 1)
        = chunk n (cs.flatten ++ r) i := by
      intro i
      rw [chunk, chunk, Nat.mul_succ, add_comm, flatten_cons, append_assoc,
        ← drop_drop, ← hc, drop_left]
    rw [length_cons, range_succ_eq_map, map_cons, map_map, hhead]
    congr 1
    apply Eq.trans _ (ih hcs)
    apply List.map_congr_left
    intro i _
    apply htail

end Chunks
