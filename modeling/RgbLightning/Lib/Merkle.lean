import Mathlib.Tactic

/-!
# Merkle trees over a list of leaves

The leaves are the first level.  The next level pairs neighbours, where a last node without a
neighbour is paired with itself, and the root is what is left in the end.  The path of a leaf
climbs to the root, one sibling at a time (`exists_climb_eq_root`).

If `node` is injective on the pairs that are combined (`treePairs`, `pathPairs`) and reaches
no leaf, a path that ends in the root starts at one of the leaves (`mem_of_climb_eq_root`),
and the root determines the leaves once their number is known (`eq_of_root_eq`).
-/

namespace Merkle

open List Option

variable {H : Type} (node : H → H → H)

/-! ### Levels and paths -/

def levelPairs : List H → List (H × H)
  | [] => []
  | [a] => [(a, a)]
  | a :: b :: l => (a, b) :: levelPairs l

def nextLevel (l : List H) : List H :=
  (levelPairs l).map fun p => node p.1 p.2

/-- The level reached after at most `n` steps, where a level of one node is the last. -/
def reduce : ℕ → List H → List H
  | 0, l => l
  | n + 1, l => if 1 < l.length then reduce n (nextLevel node l) else l

/-- The root over a list of leaves; there is none over no leaves. -/
def root (l : List H) : Option H :=
  (reduce node l.length l).head?

/-- The pairs that `reduce` combines. -/
def treePairs : ℕ → List H → List (H × H)
  | 0, _ => []
  | n + 1, l =>
    if 1 < l.length then levelPairs l ++ treePairs n (nextLevel node l) else []

inductive Side where
  | left
  | right
deriving DecidableEq, Repr

/-- A step of a path: the sibling and the side on which it stands. -/
structure Step (H : Type) where
  sibling : H
  side : Side
deriving DecidableEq, Repr

def Step.pair (s : Step H) (x : H) : H × H :=
  match s.side with
  | .left => (s.sibling, x)
  | .right => (x, s.sibling)

def climb (x : H) (path : List (Step H)) : H :=
  path.foldl (fun x s => node (s.pair x).1 (s.pair x).2) x

/-- The pairs that `climb` combines. -/
def pathPairs : H → List (Step H) → List (H × H)
  | _, [] => []
  | x, s :: path => s.pair x :: pathPairs (node (s.pair x).1 (s.pair x).2) path

/-- The step from the node at an index of a level to the level above; there is none outside
of the level. -/
def stepAt (l : List H) (i : ℕ) : Option (Step H) :=
  if i % 2 = 0 then (if i + 1 < l.length then l[i + 1]? else l[i]?).map (⟨·, .right⟩)
  else l[i - 1]?.map (⟨·, .left⟩)

/-- The path of at most `n` steps from the node at an index. -/
def pathFrom : ℕ → List H → ℕ → Option (List (Step H))
  | 0, _, _ => some []
  | n + 1, l, i =>
    if 1 < l.length then do
      let step ← stepAt l i
      let path ← pathFrom n (nextLevel node l) (i / 2)
      return step :: path
    else some []

/-! ### The number of nodes of a level -/

theorem length_levelPairs (l : List H) :
  (levelPairs l).length = (l.length + 1) / 2
  := by
  induction l using levelPairs.induct with
  | case1 => simp [levelPairs]
  | case2 a => simp [levelPairs]
  | case3 a b l ih =>
    simp only [levelPairs, length_cons, ih]
    omega

theorem length_nextLevel (l : List H) :
  (nextLevel node l).length = (l.length + 1) / 2
  := by
  rw [nextLevel, length_map, length_levelPairs]

variable {l : List H}

/-- As many steps as there are nodes are enough to reach a single one. -/
theorem length_reduce {n : ℕ} (hl : l ≠ []) (hn : l.length ≤ n) :
  (reduce node n l).length = 1
  := by
  have hpos := length_pos_of_ne_nil hl
  induction n generalizing l with
  | zero => omega
  | succ n ih =>
    have hlen := length_nextLevel node l
    rw [reduce]
    split
    next h =>
      apply ih (ne_nil_of_length_pos (by omega)) (by omega) (by omega)
    next h => omega

theorem isSome_root (hl : l ≠ []) :
  (root node l).isSome
  := by
  obtain ⟨x, hx⟩ := length_eq_one_iff.mp (length_reduce node hl le_rfl)
  rw [root, hx]
  rfl

theorem reduce_eq_root {r : H} (h : root node l = some r) :
  reduce node l.length l = [r]
  := by
  have hl : l ≠ [] := by
    rintro rfl
    simp [root, reduce] at h
  obtain ⟨x, hx⟩ := length_eq_one_iff.mp (length_reduce node hl le_rfl)
  rw [root, hx, head?_cons, some.injEq] at h
  rw [hx, h]

/-! ### The path of a leaf -/

theorem getElem?_levelPairs (l : List H) (j : ℕ) :
  (levelPairs l)[j]? = l[2 * j]?.map fun a => (a, (l[2 * j + 1]?).getD a)
  := by
  induction l using levelPairs.induct generalizing j with
  | case1 => simp [levelPairs]
  | case2 a =>
    cases j with
    | zero => simp [levelPairs]
    | succ j => simp [levelPairs]
  | case3 a b l ih =>
    cases j with
    | zero => simp [levelPairs]
    | succ j =>
      rw [levelPairs, List.getElem?_cons_succ, ih]
      rfl

/-- The step from a node leads to the node above it. -/
theorem exists_stepAt {i : ℕ} {x : H} (hx : l[i]? = some x) :
  ∃ s, stepAt l i = some s ∧
    (nextLevel node l)[i / 2]? = some (node (s.pair x).1 (s.pair x).2)
  := by
  have hi := (List.getElem?_eq_some_iff.mp hx).1
  rw [stepAt]
  by_cases heven : i % 2 = 0
  · -- The node stands on the left, also where it is paired with itself.
    have htwice : 2 * (i / 2) = i := by omega
    use ⟨(l[i + 1]?).getD x, .right⟩
    constructor
    · rw [if_pos heven]
      split_ifs with hnext
      · rw [List.getElem?_eq_getElem hnext, map_some, getD_some]
      · rw [hx, map_some, List.getElem?_eq_none (Nat.not_lt.mp hnext), getD_none]
    · rw [nextLevel, List.getElem?_map, getElem?_levelPairs, htwice, hx]
      rfl
  · have htwice : 2 * (i / 2) = i - 1 := by omega
    have hnext : 2 * (i / 2) + 1 = i := by omega
    obtain ⟨a, ha⟩ : ∃ a, l[i - 1]? = some a := ⟨_, List.getElem?_eq_getElem (by omega)⟩
    use ⟨a, .left⟩
    constructor
    · rw [if_neg heven, ha, map_some]
    · rw [nextLevel, List.getElem?_map, getElem?_levelPairs, hnext, htwice, ha, hx]
      rfl

/-- The path from a node climbs to the last level. -/
theorem exists_pathFrom {n : ℕ} {i : ℕ} {x : H} (hx : l[i]? = some x) (hn : l.length ≤ n) :
  ∃ path, pathFrom node n l i = some path ∧ reduce node n l = [climb node x path]
  := by
  have hi := (List.getElem?_eq_some_iff.mp hx).1
  induction n generalizing l i x with
  | zero => omega
  | succ n ih =>
    rw [pathFrom, reduce]
    by_cases hlen : 1 < l.length
    · obtain ⟨s, hs, habove⟩ := exists_stepAt node hx
      have hlevel := length_nextLevel node l
      obtain ⟨path, hpath, hreduce⟩ := ih habove (by omega)
        (List.getElem?_eq_some_iff.mp habove).1
      use s :: path
      constructor
      · rw [if_pos hlen, hs, bind_eq_bind, bind_some, hpath]
        rfl
      · rw [if_pos hlen, hreduce, climb, climb, foldl_cons]
    obtain ⟨a, rfl⟩ := length_eq_one_iff.mp (show l.length = 1 by omega)
    obtain rfl : i = 0 := by
      rw [length_singleton] at hi
      omega
    use []
    constructor
    · rw [if_neg hlen]
    · rw [if_neg hlen, some.inj hx]
      rfl

theorem exists_climb_eq_root {i : ℕ} {x : H} (hx : l[i]? = some x) :
  ∃ path, pathFrom node l.length l i = some path ∧ root node l = some (climb node x path)
  := by
  obtain ⟨path, hpath, hreduce⟩ := exists_pathFrom node hx le_rfl
  use path, hpath
  rw [root, hreduce, head?_cons]

/-! ### A path that ends in the root -/

theorem mem_of_mem_levelPairs {p : H × H} (h : p ∈ levelPairs l) :
  p.1 ∈ l ∧ p.2 ∈ l
  := by
  induction l using levelPairs.induct with
  | case1 => simp [levelPairs] at h
  | case2 a =>
    rw [levelPairs, mem_singleton] at h
    simp [h]
  | case3 a b l ih =>
    rw [levelPairs, mem_cons] at h
    rcases h with rfl | h
    · simp
    · simp [ih h]

theorem climb_append (x : H) (path : List (Step H)) (s : Step H) :
  climb node x (path ++ [s])
    = node (s.pair (climb node x path)).1 (s.pair (climb node x path)).2
  := by
  rw [climb, foldl_append]
  rfl

theorem pathPairs_append (x : H) (path1 path2 : List (Step H)) :
  pathPairs node x (path1 ++ path2)
    = pathPairs node x path1 ++ pathPairs node (climb node x path1) path2
  := by
  induction path1 generalizing x with
  | nil => rfl
  | cons s path1 ih => simp only [cons_append, pathPairs, ih, climb, foldl_cons]

/-- The node itself is one of the two nodes of its pair with a sibling. -/
theorem Step.mem_of_pair_mem {s : Step H} {x : H} (h : (s.pair x).1 ∈ l ∧ (s.pair x).2 ∈ l) :
  x ∈ l
  := by
  unfold Step.pair at h
  split at h
  · apply h.2
  · apply h.1

section Membership

variable {node} {x : H} {P : List (H × H)}
variable (hinj : Set.InjOn (fun p : H × H => node p.1 p.2) {p | p ∈ P})
variable (hx : ∀ p ∈ P, node p.1 p.2 ≠ x)
include hinj hx

variable {path : List (Step H)}

variable (hpath : ∀ p ∈ pathPairs node x path, p ∈ P)
include hpath

/-- A path that reaches a level reached the level below one step earlier. -/
theorem mem_of_climb_mem_nextLevel {l : List H} (hl : ∀ p ∈ levelPairs l, p ∈ P)
    (h : climb node x path ∈ nextLevel node l) :
  ∃ path1 s, path = path1 ++ [s] ∧ climb node x path1 ∈ l
  := by
  obtain ⟨p, hp, hnode⟩ := mem_map.mp h
  rcases eq_nil_or_concat' path with rfl | ⟨path1, s, rfl⟩
  · exact absurd hnode (hx p (hl p hp))
  refine ⟨path1, s, rfl, ?_⟩
  have hs : s.pair (climb node x path1) ∈ P := by
    apply hpath
    rw [pathPairs_append, mem_append]
    right
    apply mem_singleton_self
  rw [climb_append] at hnode
  have heq := hinj (hl p hp) hs hnode
  apply Step.mem_of_pair_mem
  rw [← heq]
  apply mem_of_mem_levelPairs hp

/-- A path that reaches one of the levels above passed the level itself. -/
theorem mem_of_climb_mem_reduce {n : ℕ} {l : List H} (hl : ∀ p ∈ treePairs node n l, p ∈ P)
    (h : climb node x path ∈ reduce node n l) :
  ∃ path1 path2, path = path1 ++ path2 ∧ climb node x path1 ∈ l
  := by
  induction n generalizing l with
  | zero => exact ⟨path, [], (append_nil path).symm, h⟩
  | succ n ih =>
    rw [reduce] at h
    rw [treePairs] at hl
    split at h
    next hlen =>
      rw [if_pos hlen] at hl
      obtain ⟨path1, path2, rfl, hmem⟩ :=
        ih (fun p hp => hl p (mem_append_right _ hp)) h
      rw [pathPairs_append] at hpath
      obtain ⟨path0, s, rfl, hlast⟩ := mem_of_climb_mem_nextLevel hinj hx
        (fun p hp => hpath p (mem_append_left _ hp))
        (fun p hp => hl p (mem_append_left _ hp)) hmem
      exact ⟨path0, [s] ++ path2, append_assoc .., hlast⟩
    next => exact ⟨path, [], (append_nil path).symm, h⟩

/-- A path from `x` that ends in the root starts at one of the leaves, if neither `x` nor
a leaf is a node over a pair. -/
theorem mem_of_climb_eq_root {leaves : List H} {r : H}
    (htree : ∀ p ∈ treePairs node leaves.length leaves, p ∈ P)
    (hleaves : ∀ p ∈ P, node p.1 p.2 ∉ leaves) (hroot : root node leaves = some r)
    (h : climb node x path = r) :
  x ∈ leaves
  := by
  have hmem : climb node x path ∈ reduce node leaves.length leaves := by
    rw [reduce_eq_root node hroot, h]
    apply mem_singleton_self
  obtain ⟨path1, path2, rfl, hlow⟩ := mem_of_climb_mem_reduce hinj hx hpath htree hmem
  rw [pathPairs_append] at hpath
  -- A step of the path would make a leaf out of a pair.
  rcases eq_nil_or_concat' path1 with rfl | ⟨path0, s, rfl⟩
  · apply hlow
  rw [climb_append] at hlow
  refine absurd hlow (hleaves (s.pair (climb node x path0)) ?_)
  apply hpath
  rw [pathPairs_append]
  apply mem_append_left
  apply mem_append_right
  apply mem_singleton_self

end Membership

/-! ### The root determines the leaves -/

variable {l₁ l₂ : List H}

theorem levelPairs_injective (hlen : l₁.length = l₂.length) (h : levelPairs l₁ = levelPairs l₂) :
  l₁ = l₂
  := by
  induction l₁ using levelPairs.induct generalizing l₂ with
  | case1 => exact (length_eq_zero_iff.mp hlen.symm).symm
  | case2 a =>
    obtain ⟨b, rfl⟩ := length_eq_one_iff.mp hlen.symm
    simp only [levelPairs, cons.injEq, Prod.mk.injEq, and_true, and_self] at h
    rw [h]
  | case3 a b l₁ ih =>
    match l₂, hlen with
    | c :: d :: l₂, hlen =>
      simp only [levelPairs, cons.injEq, Prod.mk.injEq] at h
      simp only [length_cons, Nat.add_right_cancel_iff] at hlen
      rw [h.1.1, h.1.2, ih hlen h.2]

theorem map_injOn {α β : Type} {f : α → β} {P : List α} (hinj : Set.InjOn f {a | a ∈ P})
    {l₁ l₂ : List α} (h1 : ∀ a ∈ l₁, a ∈ P) (h2 : ∀ a ∈ l₂, a ∈ P)
    (h : l₁.map f = l₂.map f) :
  l₁ = l₂
  := by
  induction l₁ generalizing l₂ with
  | nil => exact (map_eq_nil_iff.mp h.symm).symm
  | cons a l₁ ih =>
    obtain ⟨b, l, rfl, hab, hl⟩ := map_eq_cons_iff.mp h.symm
    rw [forall_mem_cons] at h1 h2
    rw [hinj h2.1 h1.1 hab, ih h1.2 h2.2 hl.symm]

variable {P : List (H × H)}

variable (hinj : Set.InjOn (fun p : H × H => node p.1 p.2) {p | p ∈ P})
include hinj

theorem nextLevel_injective (h1 : ∀ p ∈ levelPairs l₁, p ∈ P) (h2 : ∀ p ∈ levelPairs l₂, p ∈ P)
    (hlen : l₁.length = l₂.length) (h : nextLevel node l₁ = nextLevel node l₂) :
  l₁ = l₂
  := by
  apply levelPairs_injective hlen
  apply map_injOn hinj h1 h2 h

theorem reduce_injective {n : ℕ} (h1 : ∀ p ∈ treePairs node n l₁, p ∈ P)
    (h2 : ∀ p ∈ treePairs node n l₂, p ∈ P) (hlen : l₁.length = l₂.length)
    (h : reduce node n l₁ = reduce node n l₂) :
  l₁ = l₂
  := by
  induction n generalizing l₁ l₂ with
  | zero => apply h
  | succ n ih =>
    rw [reduce, reduce, ← hlen] at h
    rw [treePairs] at h1
    rw [treePairs, ← hlen] at h2
    split at h
    next hl =>
      rw [if_pos hl] at h1 h2
      apply nextLevel_injective node hinj (fun p hp => h1 p (mem_append_left _ hp))
        (fun p hp => h2 p (mem_append_left _ hp)) hlen
      apply ih (fun p hp => h1 p (mem_append_right _ hp))
        (fun p hp => h2 p (mem_append_right _ hp)) _ h
      rw [length_nextLevel, length_nextLevel, hlen]
    next => apply h

theorem eq_of_root_eq {r : H} (h1 : ∀ p ∈ treePairs node l₁.length l₁, p ∈ P)
    (h2 : ∀ p ∈ treePairs node l₂.length l₂, p ∈ P) (hlen : l₁.length = l₂.length)
    (hr1 : root node l₁ = some r) (hr2 : root node l₂ = some r) :
  l₁ = l₂
  := by
  have hred1 := reduce_eq_root node hr1
  have hred2 := reduce_eq_root node hr2
  rw [← hlen] at h2 hred2
  apply reduce_injective node hinj h1 h2 hlen
  rw [hred1, hred2]

end Merkle
