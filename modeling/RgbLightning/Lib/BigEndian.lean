import Mathlib.Tactic

/-!
# Numbers as big-endian bytes

`toBytes w n` writes a number in `w` bytes, the most significant one first, and `ofBytes`
reads it back, so that two numbers that fit are equal when their bytes are
(`toBytes_injOn`).
-/

namespace BigEndian

/-- The last `w` bytes of a number, the most significant one first. -/
def toBytes : ℕ → ℕ → List UInt8
  | 0, _ => []
  | w + 1, n => toBytes w (n / 256) ++ [UInt8.ofNat n]

/-- The number that bytes write. -/
def ofBytes (l : List UInt8) : ℕ :=
  l.foldl (fun n b => n * 256 + b.toNat) 0

@[simp]
theorem length_toBytes (w n : ℕ) :
  (toBytes w n).length = w
  := by
  induction w generalizing n with
  | zero => rfl
  | succ w ih => simp only [toBytes, List.length_append, List.length_singleton, ih]

theorem ofBytes_toBytes {w n : ℕ} (h : n < 256 ^ w) :
  ofBytes (toBytes w n) = n
  := by
  induction w generalizing n with
  | zero =>
    rw [pow_zero] at h
    rw [Nat.lt_one_iff.mp h]
    rfl
  | succ w ih =>
    have hdiv : n / 256 < 256 ^ w := by
      rw [pow_succ] at h
      apply Nat.div_lt_of_lt_mul
      rwa [mul_comm]
    have hlast : (UInt8.ofNat n).toNat = n % 256 := by
      rw [UInt8.toNat_ofNat']
    have hfold : ofBytes (toBytes w (n / 256)) = n / 256 := ih hdiv
    rw [ofBytes] at hfold
    rw [ofBytes, toBytes, List.foldl_append, hfold, List.foldl_cons, List.foldl_nil, hlast]
    omega

theorem ofBytes_concat (l : List UInt8) (b : UInt8) :
  ofBytes (l ++ [b]) = ofBytes l * 256 + b.toNat
  := List.foldl_append

/-- Writing undoes reading, and what was read fits. -/
theorem toBytes_ofBytes (l : List UInt8) :
  toBytes l.length (ofBytes l) = l ∧ ofBytes l < 256 ^ l.length
  := by
  induction l using List.reverseRecOn with
  | nil => exact ⟨rfl, Nat.one_pos⟩
  | append_singleton l b ih =>
    obtain ⟨hl, hlt⟩ := ih
    have hb := b.toNat_lt
    rw [ofBytes_concat, List.length_append, List.length_singleton]
    constructor
    · have hdiv : (ofBytes l * 256 + b.toNat) / 256 = ofBytes l := by omega
      have hlast : UInt8.ofNat (ofBytes l * 256 + b.toNat) = b := by
        apply UInt8.toNat_inj.mp
        rw [UInt8.toNat_ofNat']
        omega
      rw [toBytes, hdiv, hl, hlast]
    · rw [pow_succ]
      omega

theorem toBytes_injOn (w : ℕ) :
  Set.InjOn (toBytes w) {n | n < 256 ^ w}
  := by
  intro m hm n hn h
  rw [← ofBytes_toBytes hm, h, ofBytes_toBytes hn]

end BigEndian
