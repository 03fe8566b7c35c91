import RgbLightning.Basic

/-!
# Hexadecimal and decimal text

`hexStr` writes bytes as lower-case hexadecimal digits, `hexStrToVec` reads them back
(`hexStrToVec_hexStr`), so `hexStr` is injective.  What is read from digits in pairs is written
again as their lower-case form (`hexStr_eq_toLowercase_iff`).  `parseU64` reads a decimal number, and
so undoes `decimalStr` (`parseU64_decimalStr`).  `isUtf8` says which bytes are a string.
-/

namespace RgbLightning

open List Option

/-! ### Hexadecimal -/

/-- The lower-case digit of a number below sixteen. -/
def hexDigit (d : UInt8) : UInt8 :=
  if d < 10 then 48 + d else 87 + d

/-- Two digits for every byte. -/
def hexStr (value : Bytes) : Str :=
  value.flatMap fun v : UInt8 => [hexDigit (v >>> 4), hexDigit (v &&& 15)]

/-- Whether a character is a hexadecimal digit, of either case. -/
def isAsciiHexdigit (c : UInt8) : Bool :=
  (48 ≤ c && c ≤ 57) || (65 ≤ c && c ≤ 70) || (97 ≤ c && c ≤ 102)

/-- The value of a digit, of either case. -/
def hexDigitValue (c : UInt8) : Option UInt8 :=
  if 65 ≤ c ∧ c ≤ 70 then some (c - 65 + 10)
  else if 97 ≤ c ∧ c ≤ 102 then some (c - 97 + 10)
  else if 48 ≤ c ∧ c ≤ 57 then some (c - 48)
  else none

/-- The bytes of the digits left to read; `odd` says whether a first digit of the next
byte was read, whose value is then `b`. -/
def hexStrToVecFrom : Str → Bool → UInt8 → Option Bytes
  | [], _, _ => some []
  | c :: hex, odd, b => do
    let d ← hexDigitValue c
    let b := (b <<< 4) ||| d
    if odd then
      let out ← hexStrToVecFrom hex false 0
      some (b :: out)
    else
      hexStrToVecFrom hex true b

/-- The bytes written as hexadecimal digits.  A last digit without a partner is
dropped. -/
def hexStrToVec (hex : Str) : Option Bytes :=
  hexStrToVecFrom hex false 0

/-- The string in lower case, as far as it is ASCII. -/
def toLowercase (s : Str) : Str :=
  s.map fun c => if 65 ≤ c ∧ c ≤ 90 then c + 32 else c

theorem length_hexStr (v : Bytes) :
  (hexStr v).length = 2 * v.length
  := by
  induction v with
  | nil => rfl
  | cons b v ih =>
    rw [hexStr, flatMap_cons, length_append, ← hexStr, ih]
    simp only [length_cons, length_nil]
    omega

theorem hexDigitValue_hexDigit (v : UInt8) :
  hexDigitValue (hexDigit (v >>> 4)) = some (v >>> 4)
    ∧ hexDigitValue (hexDigit (v &&& 15)) = some (v &&& 15)
    ∧ ((((0 : UInt8) <<< 4) ||| (v >>> 4)) <<< 4) ||| (v &&& 15) = v
  := by
  have h : ∀ n < 256, let v := UInt8.ofNat n
      hexDigitValue (hexDigit (v >>> 4)) = some (v >>> 4)
        ∧ hexDigitValue (hexDigit (v &&& 15)) = some (v &&& 15)
        ∧ ((((0 : UInt8) <<< 4) ||| (v >>> 4)) <<< 4) ||| (v &&& 15) = v := by
    decide +kernel
  have hv := h v.toNat v.toNat_lt
  rw [UInt8.ofNat_toNat] at hv
  apply hv

theorem hexStrToVec_hexStr (v : Bytes) :
  hexStrToVec (hexStr v) = some v
  := by
  rw [hexStrToVec]
  induction v with
  | nil => rfl
  | cons b v ih =>
    obtain ⟨hhi, hlo, hb⟩ := hexDigitValue_hexDigit b
    rw [hexStr, flatMap_cons, ← hexStr]
    simp only [cons_append, nil_append, hexStrToVecFrom, hhi, hlo, hb, ih,
      bind_eq_bind, bind_some, if_true, Bool.false_eq_true, if_false]

theorem hexStr_injective :
  Function.Injective hexStr
  := by
  intro a b h
  have hab := congrArg hexStrToVec h
  rw [hexStrToVec_hexStr, hexStrToVec_hexStr] at hab
  apply some.inj hab

/-- A digit is written again in lower case. -/
theorem hexDigit_of_hexDigitValue {c d : UInt8} (h : hexDigitValue c = some d) :
  d < 16 ∧ [hexDigit d] = toLowercase [c]
  := by
  have hall : ∀ n < 256, ∀ d ∈ hexDigitValue (UInt8.ofNat n),
      d < 16 ∧ [hexDigit d] = toLowercase [UInt8.ofNat n] := by
    decide +kernel
  have hc := hall c.toNat c.toNat_lt
  rw [UInt8.ofNat_toNat] at hc
  exact hc d h

theorem hexStr_pair {c d : UInt8} (hc : c < 16) (hd : d < 16) :
  hexStr [((((0 : UInt8) <<< 4) ||| c) <<< 4) ||| d] = [hexDigit c, hexDigit d]
  := by
  have hall : ∀ m < 16, ∀ n < 16,
      hexStr [((((0 : UInt8) <<< 4) ||| UInt8.ofNat m) <<< 4) ||| UInt8.ofNat n]
        = [hexDigit (UInt8.ofNat m), hexDigit (UInt8.ofNat n)] := by
    decide +kernel
  have hcd := hall c.toNat hc d.toNat hd
  rwa [UInt8.ofNat_toNat, UInt8.ofNat_toNat] at hcd

/-- What is read is, written again, the lower-case form of the digits that come in pairs. -/
theorem hexStr_of_hexStrToVec {s : Str} {v : Bytes} (h : hexStrToVec s = some v) :
  hexStr v = toLowercase (s.take (2 * (s.length / 2)))
  := by
  induction s using twoStepInduction generalizing v with
  | nil =>
    obtain rfl := some.inj h
    rfl
  | singleton c =>
    simp only [hexStrToVec, hexStrToVecFrom, bind_eq_bind, bind_eq_some_iff,
      Bool.false_eq_true, if_false] at h
    obtain ⟨-, -, h⟩ := h
    obtain rfl := some.inj h
    simp [hexStr, toLowercase]
  | cons_cons c c' s ih _ =>
    simp only [hexStrToVec, hexStrToVecFrom, bind_eq_bind, bind_eq_some_iff,
      Bool.false_eq_true, if_false, if_true] at h
    obtain ⟨d, hd, d', hd', out, hout, h⟩ := h
    obtain rfl := some.inj h
    obtain ⟨hlt, hlower⟩ := hexDigit_of_hexDigitValue hd
    obtain ⟨hlt', hlower'⟩ := hexDigit_of_hexDigitValue hd'
    have htake : (c :: c' :: s).take (2 * ((c :: c' :: s).length / 2))
        = [c] ++ [c'] ++ s.take (2 * (s.length / 2)) := by
      rw [length_cons, length_cons, Nat.add_assoc, Nat.add_div_right _ (by decide), mul_add]
      rfl
    rw [htake, toLowercase, map_append, map_append, ← toLowercase, ← toLowercase, ← toLowercase,
      ← ih hout, ← hlower, ← hlower', ← singleton_append, hexStr, flatMap_append, ← hexStr,
      ← hexStr, hexStr_pair hlt hlt']
    rfl

theorem hexStr_eq_toLowercase_iff {s : Str} {v : Bytes} (h : hexStrToVec s = some v) :
  hexStr v = toLowercase s ↔ Even s.length
  := by
  have hwritten := hexStr_of_hexStrToVec h
  constructor
  · intro heq
    have hlength := congrArg length heq
    rw [length_hexStr, toLowercase, length_map] at hlength
    exact ⟨v.length, by omega⟩
  · intro heven
    rw [hwritten, Nat.two_mul_div_two_of_even heven, take_length]

/-- Of two strings with one value, the second with digits in pairs. -/
theorem toLowercase_eq_iff {s s' : Str} {v : Bytes} (h : hexStrToVec s = some v)
    (h' : hexStrToVec s' = some v) (heven : Even s'.length) :
  toLowercase s = toLowercase s' ↔ Even s.length
  := by
  rw [← (hexStr_eq_toLowercase_iff h').mpr heven, eq_comm]
  exact hexStr_eq_toLowercase_iff h

theorem hexStrToVecFrom_isSome {s : Str} (h : ∀ c ∈ s, isAsciiHexdigit c = true) (odd : Bool)
    (b : UInt8) :
  ∃ v, hexStrToVecFrom s odd b = some v
  := by
  induction s generalizing odd b with
  | nil => exact ⟨[], rfl⟩
  | cons c s ih =>
    rw [forall_mem_cons] at h
    obtain ⟨d, hd⟩ : ∃ d, hexDigitValue c = some d := by
      have hc := h.1
      simp only [isAsciiHexdigit, Bool.or_eq_true, Bool.and_eq_true, decide_eq_true_eq] at hc
      unfold hexDigitValue
      split_ifs <;> tauto
    simp only [hexStrToVecFrom, hd, bind_eq_bind, bind_some]
    cases odd with
    | false => exact ih h.2 true _
    | true =>
      obtain ⟨out, hout⟩ := ih h.2 false 0
      exact ⟨_ :: out, by rw [hout]; rfl⟩

/-! ### Decimal -/

def u64Max : ℕ := 2 ^ 64 - 1

/-- The number a string of digits continues, when it stays within 64 bits. -/
def parseU64Step (n : ℕ) (c : UInt8) : Option ℕ :=
  if 48 ≤ c ∧ c ≤ 57 then
    let n := n * 10 + (c - 48).toNat
    if n ≤ u64Max then some n else none
  else none

/-- The number a string writes: digits, after at most one sign `+`. -/
def parseU64 (s : Str) : Option ℕ :=
  let digits := match s with
    | 43 :: digits => digits
    | digits => digits
  if digits = [] then none else digits.foldlM parseU64Step 0

/-- The last `k` digits of a number, without leading zeros. -/
def decimalDigits : ℕ → ℕ → Str
  | 0, _ => []
  | k + 1, n =>
    if n < 10 then [48 + UInt8.ofNat n]
    else decimalDigits k (n / 10) ++ [48 + UInt8.ofNat (n % 10)]

/-- The digits of a 64-bit number, of which there are at most twenty. -/
def decimalStr (n : ℕ) : Str :=
  decimalDigits 20 n

theorem parseU64Step_digit {m d : ℕ} (hd : d < 10) (hmax : m * 10 + d ≤ u64Max) :
  parseU64Step m (48 + UInt8.ofNat d) = some (m * 10 + d)
  := by
  have h : ∀ d < 10, (48 : UInt8) ≤ 48 + UInt8.ofNat d ∧ 48 + UInt8.ofNat d ≤ 57
      ∧ (48 + UInt8.ofNat d - 48).toNat = d := by
    decide +kernel
  obtain ⟨hle, hge, hvalue⟩ := h d hd
  rw [parseU64Step, if_pos ⟨hle, hge⟩, hvalue]
  exact if_pos hmax

theorem foldlM_decimalDigits {k n : ℕ} (hk : n < 10 ^ k) (hmax : n ≤ u64Max) :
  (decimalDigits k n).foldlM parseU64Step 0 = some n
  := by
  induction k generalizing n with
  | zero =>
    rw [pow_zero] at hk
    rw [Nat.lt_one_iff.mp hk]
    rfl
  | succ k ih =>
    rw [decimalDigits]
    split_ifs with hn
    · rw [foldlM_cons, parseU64Step_digit hn (by omega), Nat.zero_mul, Nat.zero_add]
      rfl
    · rw [foldlM_append, ih (by rw [pow_succ] at hk; omega) (by omega)]
      rw [bind_eq_bind, bind_some, foldlM_cons,
        parseU64Step_digit (by omega) (by omega), Nat.div_add_mod']
      rfl

/-- A number is written with at least one digit, and the first is not a sign. -/
theorem decimalDigits_head {k n : ℕ} (hk : 0 < k) :
  ∃ c s, decimalDigits k n = c :: s ∧ c ≠ 43
  := by
  have h : ∀ d < 10, (48 : UInt8) + UInt8.ofNat d ≠ 43 := by
    decide +kernel
  induction k generalizing n with
  | zero => omega
  | succ k ih =>
    rw [decimalDigits]
    split_ifs with hn
    · exact ⟨_, [], rfl, h n hn⟩
    · rcases Nat.eq_zero_or_pos k with rfl | hpos
      · exact ⟨_, [], rfl, h (n % 10) (by omega)⟩
      · obtain ⟨c, s, hcs, hne⟩ := ih (n := n / 10) hpos
        exact ⟨c, s ++ [48 + UInt8.ofNat (n % 10)], by rw [hcs]; rfl, hne⟩

theorem parseU64_decimalStr {n : ℕ} (hn : n ≤ u64Max) :
  parseU64 (decimalStr n) = some n
  := by
  obtain ⟨c, s, hcs, hne⟩ := decimalDigits_head (k := 20) (n := n) (by decide)
  have hmax : u64Max < 10 ^ 20 := by decide
  have hfold := foldlM_decimalDigits (lt_of_le_of_lt hn hmax) hn
  rw [decimalStr, hcs] at *
  rw [parseU64, if_neg (cons_ne_nil c s), hfold]
  intro digits hdigits
  rw [cons.injEq] at hdigits
  exact hne hdigits.1

theorem parseU64_le {s : Str} {n : ℕ} (h : parseU64 s = some n) :
  n ≤ u64Max
  := by
  have hfold : ∀ (digits : Str) {m : ℕ}, m ≤ u64Max → digits.foldlM parseU64Step m = some n →
      n ≤ u64Max := by
    intro digits
    induction digits with
    | nil =>
      intro m hm h
      rwa [← some.inj h]
    | cons c digits ih =>
      intro m _ h
      obtain ⟨m', hstep, h⟩ := bind_eq_some_iff.mp h
      simp only [parseU64Step] at hstep
      split_ifs at hstep with _ hle
      exact ih (some.inj hstep ▸ hle) h
  simp only [parseU64] at h
  split_ifs at h
  exact hfold _ (Nat.zero_le _) h

/-- Addition of 64-bit numbers that stops at the largest one. -/
def saturatingAdd (a b : ℕ) : ℕ :=
  min (a + b) u64Max

/-- Adding numbers one after the other stops at the largest number. -/
theorem foldl_saturatingAdd {α : Type} (f : α → ℕ) (p : α → Bool) (l : List α) {a : ℕ}
    (ha : a ≤ u64Max) :
  (l.filter p).foldl (fun b x => saturatingAdd b (f x)) a
    = min (a + (l.map fun x => if p x then f x else 0).sum) u64Max
  := by
  induction l generalizing a with
  | nil => exact (min_eq_left ha).symm
  | cons x l ih =>
    rw [filter_cons, map_cons, sum_cons]
    split_ifs
    · have hx : saturatingAdd a (f x) ≤ u64Max := min_le_right _ _
      rw [foldl_cons, ih hx, saturatingAdd]
      omega
    · rw [ih ha, zero_add]

/-- Subtraction of unsigned numbers, when it does not underflow. -/
def checkedSub (a b : ℕ) : Option ℕ :=
  if b ≤ a then some (a - b) else none

theorem checkedSub_eq_some {a b n : ℕ} :
  checkedSub a b = some n ↔ (n : ℤ) = a - b
  := by
  unfold checkedSub
  split_ifs with h
  · rw [some.injEq]
    omega
  · simp only [false_iff]
    omega

/-! ### UTF-8 -/

/-- Whether bytes are a string, when `n` more bytes of the current character are expected,
the next one between `lo` and `hi`. -/
def isUtf8From : ℕ → UInt8 → UInt8 → Bytes → Bool
  | 0, _, _, [] => true
  | _ + 1, _, _, [] => false
  | 0, _, _, b :: s =>
    if b < 0x80 then isUtf8From 0 0 0 s
    else if 0xc2 ≤ b ∧ b ≤ 0xdf then isUtf8From 1 0x80 0xbf s
    else if b = 0xe0 then isUtf8From 2 0xa0 0xbf s
    else if b = 0xed then isUtf8From 2 0x80 0x9f s
    else if 0xe1 ≤ b ∧ b ≤ 0xef then isUtf8From 2 0x80 0xbf s
    else if b = 0xf0 then isUtf8From 3 0x90 0xbf s
    else if b = 0xf4 then isUtf8From 3 0x80 0x8f s
    else if 0xf1 ≤ b ∧ b ≤ 0xf3 then isUtf8From 3 0x80 0xbf s
    else false
  | n + 1, lo, hi, b :: s => (lo ≤ b && b ≤ hi) && isUtf8From n 0x80 0xbf s

def isUtf8 (bytes : Bytes) : Bool :=
  isUtf8From 0 0 0 bytes

theorem isUtf8_of_ascii {s : Bytes} (h : ∀ b ∈ s, b < 0x80) :
  isUtf8 s = true
  := by
  unfold isUtf8
  induction s with
  | nil => rfl
  | cons b s ih =>
    rw [forall_mem_cons] at h
    rw [isUtf8From, if_pos h.1, ih h.2]

theorem decimalDigits_digit {k n : ℕ} :
  ∀ b ∈ decimalDigits k n, 48 ≤ b ∧ b < 0x80
  := by
  have h : ∀ d < 10, 48 ≤ (48 : UInt8) + UInt8.ofNat d ∧ (48 : UInt8) + UInt8.ofNat d < 0x80 := by
    decide +kernel
  induction k generalizing n with
  | zero => simp [decimalDigits]
  | succ k ih =>
    intro b hb
    rw [decimalDigits] at hb
    split_ifs at hb with hn
    · rw [mem_singleton.mp hb]
      apply h n hn
    · rcases mem_append.mp hb with hb | hb
      · apply ih b hb
      · rw [mem_singleton.mp hb]
        apply h (n % 10) (by omega)

theorem isUtf8_decimalStr (n : ℕ) :
  isUtf8 (decimalStr n) = true
  := isUtf8_of_ascii fun b hb => (decimalDigits_digit b hb).2

end RgbLightning
