import Mathlib.Data.List.AList
import Mathlib.Tactic

/-!
# Bytes, strings and I/O errors

A Rust string is the sequence of its UTF-8 bytes: its length, its suffixes, its slices
and the positions of an ASCII separator are those of the bytes.
-/

namespace RgbLightning

open List AList

/-! ### Bounded quantifiers

A quantifier over the elements of a list is decided by going through the list, also where the
type of the elements is finite: there are too many payment hashes to try them all. -/

section Decidable

variable {α : Type} (p : α → Prop) [DecidablePred p]

instance (priority := high) decidableForallMemList (l : List α) : Decidable (∀ a ∈ l, p a) :=
  decidableBAll p l

instance (priority := high) decidableExistsMemList (l : List α) : Decidable (∃ a ∈ l, p a) :=
  decidableBEx p l

instance (priority := high) decidableForallMemOption (o : Option α) :
    Decidable (∀ a ∈ o, p a) :=
  Option.decidableForallMem o

instance (priority := high) decidableExistsMemOption (o : Option α) :
    Decidable (∃ a ∈ o, p a) :=
  Option.decidableExistsMem o

end Decidable

/-! ### Bytes and strings -/

/-- A byte string, `Vec<u8>`. -/
abbrev Bytes : Type := List UInt8

/-- A string, as the sequence of its UTF-8 bytes. -/
abbrev Str : Type := List UInt8

instance lawfulBEqStr : LawfulBEq Str := inferInstance

/-- The bytes of an ASCII literal. -/
def str (s : String) : Str :=
  s.toList.map fun c => c.toNat.toUInt8

/-- The kinds of `io::Error` that occur. -/
inductive ErrorKind where
  | notFound
  | permissionDenied
  | wouldBlock
  | brokenPipe
  | timedOut
  | invalidData
  | other
deriving DecidableEq, Repr

inductive VssError where
  | noSuchKeyError
  | invalidRequestError
  | conflictError
  | authError
  | internalServerError
  | internalError
deriving DecidableEq, Repr

/-- An `io::Error`: its kind, its message, and the VSS error appended to the message, if
there is one. -/
structure IoError where
  kind : ErrorKind
  message : String
  cause : Option VssError := none
deriving DecidableEq, Repr

def IoError.keyNotFound : IoError := ⟨.notFound, "Key not found", none⟩

/-- An I/O error.  It never claims that a value is missing. -/
abbrev Failure : Type := { e : IoError // e.kind ≠ .notFound }

inductive ReadFate where
  | works
  | fails
deriving DecidableEq, Repr

inductive WriteFate where
  | works
  | fails
  | failsAfterStoring
deriving DecidableEq, Repr

/-- A finite map, `HashMap<K, V>`. -/
abbrev Table (K V : Type) : Type := AList (fun _ : K => V)

namespace Table

variable {K V : Type} [DecidableEq K]

def size (t : Table K V) : ℕ :=
  t.keys.length

variable (t : Table K V)
variable {k : K}

theorem size_insert_of_mem (v : V) (h : k ∈ t) :
  size (t.insert k v) = size t
  := by
  have hk : k ∈ t.keys := mem_keys.mp h
  have hpos := length_pos_of_mem hk
  simp only [size, keys_insert, length_cons, length_erase_of_mem hk]
  omega

theorem size_insert_of_notMem (v : V) (h : k ∉ t) :
  size (t.insert k v) = size t + 1
  := by
  have hk : k ∉ t.keys := fun hk => h (mem_keys.mpr hk)
  simp only [size, keys_insert, length_cons, erase_of_not_mem hk]

theorem size_erase_le (k : K) :
  size (t.erase k) ≤ size t
  := by
  simp only [size, keys_erase]
  apply length_erase_le

theorem size_erase_of_mem (h : k ∈ t) :
  size (t.erase k) + 1 = size t
  := by
  have hk : k ∈ t.keys := mem_keys.mp h
  have hpos := length_pos_of_mem hk
  simp only [size, keys_erase, length_erase_of_mem hk]
  omega

theorem lookup_insert_eq (k k' : K) (v : V) :
  (t.insert k v).lookup k' = if k' = k then some v else t.lookup k'
  := by
  split_ifs with h
  · rw [h]
    apply lookup_insert
  · apply lookup_insert_ne h

theorem lookup_erase_eq (k k' : K) :
  (t.erase k).lookup k' = if k' = k then none else t.lookup k'
  := by
  split_ifs with h
  · rw [h]
    apply lookup_erase
  · apply lookup_erase_ne h

theorem lookup_foldl_erase (ks : List K) (t : Table K V) (k : K) :
  (ks.foldl (fun t k => t.erase k) t).lookup k = if k ∈ ks then none else t.lookup k
  := by
  induction ks generalizing t with
  | nil => rfl
  | cons k' ks ih =>
    rw [foldl_cons, ih, lookup_erase_eq]
    by_cases hk : k = k' <;> by_cases hmem : k ∈ ks <;> simp [hk, hmem]

theorem size_foldl_erase {ks : List K} {t : Table K V} (hnodup : ks.Nodup)
    (hmem : ∀ k ∈ ks, k ∈ t) :
  size (ks.foldl (fun t k => t.erase k) t) + ks.length = size t
  := by
  induction ks generalizing t with
  | nil => rfl
  | cons k ks ih =>
    obtain ⟨hnew, hnodup⟩ := nodup_cons.mp hnodup
    have hrest : ∀ k' ∈ ks, k' ∈ t.erase k := by
      intro k' hk'
      rw [mem_erase]
      use fun heq => hnew (heq ▸ hk')
      apply hmem k' (mem_cons_of_mem k hk')
    rw [foldl_cons, length_cons, ← add_assoc, ih hnodup hrest,
      size_erase_of_mem t (hmem k mem_cons_self)]

/-- The map with the value of a key replaced, or removed. -/
def assign (t : Table K V) (k : K) : Option V → Table K V
  | some v => t.insert k v
  | none => t.erase k

theorem lookup_assign_eq (k k' : K) (v : Option V) :
  (t.assign k v).lookup k' = if k' = k then v else t.lookup k'
  := by
  cases v with
  | some v => apply lookup_insert_eq
  | none => apply lookup_erase_eq

/-- A map read off a list of entries, a later entry replacing an earlier one. -/
def ofList (l : List (K × V)) : Table K V :=
  l.foldl (fun t e => t.insert e.1 e.2) ∅

theorem mem_iff_lookup {t : Table K V} :
  k ∈ t ↔ ∃ v, t.lookup k = some v
  := by
  rw [← lookup_isSome, Option.isSome_iff_exists]

/-- The entries that satisfy a condition, `HashMap::retain`. -/
def retain (t : Table K V) (p : K → V → Bool) : Table K V :=
  ⟨t.entries.filter fun e => p e.1 e.2, t.nodupKeys.sublist filter_sublist⟩

theorem lookup_retain (p : K → V → Bool) (k : K) :
  (retain t p).lookup k = (t.lookup k).filter (p k)
  := by
  ext v
  rw [Option.filter_eq_some_iff, ← Option.mem_def, ← Option.mem_def, mem_lookup_iff,
    mem_lookup_iff, retain, mem_filter]

variable {p : K → V → Bool}

omit [DecidableEq K] in
theorem size_retain_le {t : Table K V} :
  size (retain t p) ≤ size t
  := by
  simp only [size, retain, AList.keys, List.keys, length_map]
  apply length_filter_le

theorem lookup_of_lookup_retain {t : Table K V} {v : V} (h : (retain t p).lookup k = some v) :
  t.lookup k = some v ∧ p k v = true
  := by
  rw [lookup_retain, Option.filter_eq_some_iff] at h
  exact h

theorem mem_of_mem_retain {t : Table K V} (h : k ∈ retain t p) :
  k ∈ t
  := by
  obtain ⟨v, hv⟩ := mem_iff_lookup.mp h
  exact mem_iff_lookup.mpr ⟨v, (lookup_of_lookup_retain hv).1⟩

theorem lookup_of_lookup_erase {t : Table K V} {k k' : K} {v : V}
    (h : (t.erase k).lookup k' = some v) :
  t.lookup k' = some v
  := by
  rw [lookup_erase_eq] at h
  split_ifs at h
  exact h

theorem erase_of_lookup_eq_none {t : Table K V} (h : t.lookup k = none) :
  t.erase k = t
  := by
  apply ext
  apply kerase_of_notMem_keys
  apply lookup_eq_none.mp h

theorem erase_insert {t : Table K V} (v : V) (h : t.lookup k = none) :
  (t.insert k v).erase k = t
  := by
  have hkept : t.entries.kerase k = t.entries :=
    congrArg entries (erase_of_lookup_eq_none h)
  apply ext
  change (t.insert k v).entries.kerase k = t.entries
  rw [entries_insert, hkept, kerase]
  simp

/-- A map with a function applied to its values. -/
def map {W : Type} (t : Table K V) (f : V → W) : Table K W :=
  ⟨t.entries.map (Sigma.map id fun _ => f), NodupKeys.map₂ _ _ t.nodupKeys⟩

theorem lookup_map {W : Type} (f : V → W) (k : K) :
  (map t f).lookup k = (t.lookup k).map f
  := dlookup_map₂ k

omit [DecidableEq K] in
theorem size_map {W : Type} (f : V → W) :
  size (map t f) = size t
  := by
  simp only [size, map, AList.keys, List.keys, List.length_map]

/-- The sum of a number over the entries. -/
def sum (t : Table K V) (f : K → V → ℕ) : ℕ :=
  (t.entries.map fun e => f e.1 e.2).sum

variable (f : K → V → ℕ)

theorem sum_insert (k : K) (v : V) :
  sum (t.insert k v) f = f k v + sum (t.erase k) f
  := by
  rw [sum, entries_insert, map_cons, sum_cons]
  rfl

/-- The entry of a key can be counted apart. -/
theorem sum_eq_erase (k : K) :
  sum t f = (t.lookup k).elim 0 (f k) + sum (t.erase k) f
  := by
  cases h : t.lookup k with
  | none =>
    rw [erase_of_lookup_eq_none h, Option.elim_none, zero_add]
  | some v =>
    have hk : k ∈ t.keys := mem_keys.mp (mem_iff_lookup.mpr ⟨v, h⟩)
    obtain ⟨w, l1, l2, _, ht, herase⟩ := exists_of_kerase hk
    have hw : t.lookup k = some w := by
      rw [← Option.mem_def, mem_lookup_iff, ht]
      simp
    obtain rfl : w = v := Option.some.inj (hw.symm.trans h)
    have hentries : (t.erase k).entries = l1 ++ l2 := herase
    rw [sum, sum, ht, hentries]
    simp only [map_append, map_cons, sum_append, sum_cons,
      Option.elim_some]
    omega

omit [DecidableEq K] in
theorem sum_mono {f g : K → V → ℕ} (h : ∀ k v, f k v ≤ g k v) :
  sum t f ≤ sum t g
  := by
  apply sum_le_sum
  intro e _
  apply h

theorem sum_erase_le (k : K) :
  sum (t.erase k) f ≤ sum t f
  := by
  rw [sum_eq_erase t f k]
  apply Nat.le_add_left

/-- The entries of distinct keys are among all entries. -/
theorem sum_lookup_le {l : List K} (hl : l.Nodup) :
  (l.map fun k => (t.lookup k).elim 0 (f k)).sum ≤ sum t f
  := by
  induction l generalizing t with
  | nil => exact Nat.zero_le _
  | cons k l ih =>
    rw [nodup_cons] at hl
    have hrest : ∀ k' ∈ l, (t.lookup k').elim 0 (f k')
        = ((t.erase k).lookup k').elim 0 (f k') := by
      intro k' hk'
      have hne : k' ≠ k := fun h => hl.1 (h ▸ hk')
      rw [lookup_erase_ne hne]
    rw [map_cons, sum_cons, map_congr_left hrest, sum_eq_erase t f k]
    exact Nat.add_le_add_left (ih (t.erase k) hl.2) _

/-- If only some entries count, and none for more than `m`, the sum is at most `m` for each
of them. -/
theorem sum_le_mul {t : Table K V} {f : K → V → ℕ} {p : K → Bool} {m : ℕ}
    (h : ∀ k v, t.lookup k = some v → f k v ≤ if p k then m else 0) :
  sum t f ≤ (t.keys.filter p).length * m
  := by
  have hlist : ∀ l : List (Sigma fun _ : K => V),
      (∀ e ∈ l, f e.1 e.2 ≤ if p e.1 then m else 0) →
      (l.map fun e => f e.1 e.2).sum ≤ (l.keys.filter p).length * m := by
    intro l hl
    induction l with
    | nil => exact Nat.zero_le _
    | cons e l ih =>
      rw [forall_mem_cons] at hl
      have hrest := ih hl.2
      have he := hl.1
      rw [map_cons, sum_cons, keys_cons, filter_cons]
      split_ifs at he ⊢ with hp
      · rw [length_cons, Nat.succ_mul]
        omega
      · omega
  apply hlist
  intro e he
  exact h e.1 e.2 (mem_lookup_iff.mpr he)

/-- Entries that count for nothing can be dropped. -/
theorem sum_retain_eq {t : Table K V} {f : K → V → ℕ}
    (h : ∀ k v, t.lookup k = some v → p k v = false → f k v = 0) :
  sum (retain t p) f = sum t f
  := by
  have hlist : ∀ l : List (Sigma fun _ : K => V),
      (∀ e ∈ l, p e.1 e.2 = false → f e.1 e.2 = 0) →
      ((l.filter fun e => p e.1 e.2).map fun e => f e.1 e.2).sum
        = (l.map fun e => f e.1 e.2).sum := by
    intro l hl
    induction l with
    | nil => rfl
    | cons e l ih =>
      rw [forall_mem_cons] at hl
      rw [filter_cons, map_cons, sum_cons, ← ih hl.2]
      split_ifs with hp
      · rw [map_cons, sum_cons]
      · rw [hl.1 (Bool.eq_false_of_not_eq_true hp), zero_add]
  apply hlist
  intro e he
  exact h e.1 e.2 (mem_lookup_iff.mpr he)

theorem sum_eq_zero {t : Table K V} {f : K → V → ℕ}
    (h : ∀ k v, t.lookup k = some v → f k v = 0) :
  sum t f = 0
  := by
  rw [sum, sum_eq_zero_iff]
  intro n hn
  obtain ⟨e, he, rfl⟩ := mem_map.mp hn
  exact h e.1 e.2 (mem_lookup_iff.mpr he)

omit [DecidableEq K] in
theorem sum_retain_le (p : K → V → Bool) (f : K → V → ℕ) :
  sum (retain t p) f ≤ sum t f
  := (filter_sublist.map _).sum_le_sum fun _ _ => Nat.zero_le _

end Table

/-! ### Computations that may fail -/

theorem bind_eq_ok {α β ε : Type} {x : Except ε α} {f : α → Except ε β} {b : β} :
  (x >>= f) = .ok b ↔ ∃ a, x = .ok a ∧ f a = .ok b
  := by
  cases x with
  | error e => simp [bind, Except.bind]
  | ok a => simp [bind, Except.bind]

/-- Where a loop over a list returns, every element has its result. -/
theorem forall₂_of_mapM_eq_ok {α β ε : Type} {f : α → Except ε β} {l : List α} {l' : List β}
    (h : l.mapM f = .ok l') :
  Forall₂ (fun a b => f a = .ok b) l l'
  := by
  induction l generalizing l' with
  | nil =>
    rw [mapM_nil] at h
    obtain rfl : [] = l' := Except.ok.inj h
    exact Forall₂.nil
  | cons a l ih =>
    rw [mapM_cons, bind_eq_ok] at h
    obtain ⟨b, ha, h⟩ := h
    rw [bind_eq_ok] at h
    obtain ⟨bs, hl, h⟩ := h
    obtain rfl : b :: bs = l' := Except.ok.inj h
    exact Forall₂.cons ha (ih hl)

/-- What a loop establishes turn by turn holds of all its elements when it returns. -/
theorem foldlM_induction {α β ε : Type} {f : β → α → Except ε β} {I : List α → β → Prop}
    (hstep : ∀ l a b b', I l b → f b a = .ok b' → I (l ++ [a]) b')
    {l : List α} {b c : β} (hb : I [] b) (h : l.foldlM f b = .ok c) :
  I l c
  := by
  induction l using reverseRecOn generalizing c with
  | nil =>
    obtain rfl : b = c := Except.ok.inj h
    exact hb
  | append_singleton l a ih =>
    rw [foldlM_append, bind_eq_ok] at h
    obtain ⟨b', hl, ha⟩ := h
    rw [foldlM_cons, bind_eq_ok] at ha
    obtain ⟨c', ha, hc⟩ := ha
    obtain rfl : c' = c := Except.ok.inj hc
    exact hstep l a b' c' (ih hl) ha

end RgbLightning
