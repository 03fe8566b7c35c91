import RgbLightning.Apay.Wire
import RgbLightning.Swap.Maker
import RgbLightning.Transfer.Message

/-!
# The strings of offers

`maker_init` checks the assets of an offer and writes its swap string, whatever the
quantities are; the parser of swap strings refuses a zero.  So the string of an offer is read
back exactly when none of its numbers is zero (`offer_readBack_iff`), while what was read from
a string always is.
-/

namespace RgbLightning

open List SwapString

/-- Contract ids as strings: the library reads what it writes, which contains no separator and
is not the name of bitcoin. -/
structure ContractIdFormat where
  toStr : ContractId → Str
  fromStr : Str → Option ContractId
  fromStr_toStr : ∀ c, fromStr (toStr c) = some c
  slash_notMem : ∀ c, slash ∉ toStr c
  ne_btc : ∀ c, toStr c ≠ str "btc"

/-- The terms of a swap, unchecked. -/
structure Offer where
  qtyFrom : ℕ
  qtyTo : ℕ
  fromAsset : Option ContractId
  toAsset : Option ContractId
  expiry : ℕ

def SwapInfo.offer (s : SwapInfo) : Offer :=
  ⟨s.qtyFrom, s.qtyTo, s.fromAsset, s.toAsset, s.expiry⟩

namespace Offer

variable (f : ContractIdFormat) (o : Offer)

/-- The offer that `maker_init` makes of a request at a time, given the balances. -/
def init (env : MakerEnv) (qtyFrom qtyTo : UInt64) (fromAsset toAsset : Option Str)
    (timeoutSec : UInt32) (now : UInt64) (maxBalance : ContractId → ℕ) :
    Except MakerError Offer := do
  let fromAsset ← env.parseAsset fromAsset
  let toAsset ← env.parseAsset toAsset
  if fromAsset.isNone ∧ toAsset.isNone then .error (.invalidSwap "cannot swap BTC for BTC")
  else if fromAsset = toAsset then .error (.invalidSwap "cannot swap the same asset")
  else if toAsset.any (maxBalance · < qtyTo.toNat) then .error .insufficientAssets
  else .ok ⟨qtyFrom.toNat, qtyTo.toNat, fromAsset, toAsset, (now + timeoutSec.toUInt64).toNat⟩

def assetStr (asset : Option ContractId) : Str :=
  (asset.map f.toStr).getD (str "btc")

def display (paymentHash : PaymentHash) : Str :=
  decimalStr o.qtyFrom ++ slash :: (assetStr f o.fromAsset ++ slash :: (decimalStr o.qtyTo
    ++ slash :: (assetStr f o.toAsset ++ slash :: (decimalStr o.expiry
    ++ slash :: hexStr paymentHash.toList))))

/-! ### Parts of a string -/

theorem splitSlash_append {s : Str} (h : slash ∉ s) (t : Str) :
  splitSlash (s ++ slash :: t) = s :: splitSlash t
  := by
  have hne : splitSlash t ≠ [] := by
    cases t with
    | nil => simp [splitSlash]
    | cons c t =>
      rw [splitSlash]
      split
      · simp
      · split_ifs <;> simp
  obtain ⟨part, parts, hparts⟩ := exists_cons_of_ne_nil hne
  induction s with
  | nil => simp [splitSlash, hparts]
  | cons c s ih =>
    rw [mem_cons, not_or] at h
    simp [splitSlash, ih h.2, Ne.symm h.1]

theorem splitSlash_of_notMem {s : Str} (h : slash ∉ s) :
  splitSlash s = [s]
  := by
  induction s with
  | nil => rfl
  | cons c s ih =>
    rw [mem_cons, not_or] at h
    simp [splitSlash, ih h.2, Ne.symm h.1]

theorem slash_notMem_decimalStr (n : ℕ) :
  slash ∉ decimalStr n
  := fun h => absurd (decimalDigits_digit slash h).1 (by decide)

theorem slash_notMem_assetStr (asset : Option ContractId) :
  slash ∉ assetStr f asset
  := by
  cases asset with
  | none => exact (by decide : slash ∉ str "btc")
  | some c => apply f.slash_notMem

theorem slash_notMem_hexStr (h : PaymentHash) :
  slash ∉ hexStr h.toList
  := by
  intro hmem
  have hdigits := isHashHex_hexStr h.toList_length
  exact absurd ((isHashHex_iff.mp hdigits).2 slash hmem) (by decide)

theorem parseAsset_assetStr (asset : Option ContractId) :
  SwapString.parseAsset f.fromStr (assetStr f asset) = some asset
  := by
  cases asset with
  | none => rfl
  | some c =>
    rw [SwapString.parseAsset, assetStr, Option.map_some, Option.getD_some, if_neg (f.ne_btc c),
      f.fromStr_toStr]
    rfl

theorem fromStr_display (hfrom : o.qtyFrom ≤ u64Max) (hto : o.qtyTo ≤ u64Max)
    (hexpiry : o.expiry ≤ u64Max) (paymentHash : PaymentHash) :
  fromStr f.fromStr (o.display f paymentHash)
    = ofParts o.qtyFrom o.qtyTo o.expiry o.fromAsset o.toAsset paymentHash
  := by
  have hhash : parsePaymentHash (hexStr paymentHash.toList) = some paymentHash :=
    validateAndParsePaymentHash_hexStr paymentHash
  rw [fromStr, display, splitSlash_append (slash_notMem_decimalStr _),
    splitSlash_append (slash_notMem_assetStr f _), splitSlash_append (slash_notMem_decimalStr _),
    splitSlash_append (slash_notMem_assetStr f _), splitSlash_append (slash_notMem_decimalStr _),
    splitSlash_of_notMem (slash_notMem_hexStr _)]
  simp only [parseU64_decimalStr hfrom, parseU64_decimalStr hto, parseU64_decimalStr hexpiry,
    parseAsset_assetStr, hhash]

/-! ### Reading back -/

variable {o}

theorem ofParts_eq_ok {paymentHash : PaymentHash} {s : SwapString}
    (h : ofParts o.qtyFrom o.qtyTo o.expiry o.fromAsset o.toAsset paymentHash = .ok s) :
  s.swapInfo.offer = o ∧ s.paymentHash = paymentHash ∧ o.qtyFrom ≠ 0 ∧ o.qtyTo ≠ 0 ∧ o.expiry ≠ 0
  := by
  rw [ofParts] at h
  split_ifs at h with hpos hne
  obtain rfl := Except.ok.inj h
  exact ⟨rfl, rfl, by simpa only [not_or] using hpos⟩

theorem fromStr_eq_ok {text : Str} {s : SwapString} (h : fromStr f.fromStr text = .ok s) :
  ∃ o : Offer, o.qtyFrom ≤ u64Max ∧ o.qtyTo ≤ u64Max ∧ o.expiry ≤ u64Max
    ∧ ∃ paymentHash,
      ofParts o.qtyFrom o.qtyTo o.expiry o.fromAsset o.toAsset paymentHash = .ok s
  := by
  rw [fromStr] at h
  split at h
  · split at h
    · rename_i a x b y e hash ha hx hb hy he hhash
      exact ⟨⟨a, b, x, y, e⟩, parseU64_le ha, parseU64_le hb, parseU64_le he, hash, h⟩
    · cases h
  · cases h

/-- The string of an offer that `maker_init` accepts is read back exactly when its quantities
and its expiry are not zero.  What was read from a string is read back from its own. -/
theorem offer_readBack_iff :
  (∀ env qtyFrom qtyTo fromAsset toAsset timeoutSec now maxBalance (o : Offer) paymentHash,
    init env qtyFrom qtyTo fromAsset toAsset timeoutSec now maxBalance = .ok o →
      ((∃ s, fromStr f.fromStr (o.display f paymentHash) = .ok s ∧ s.swapInfo.offer = o
          ∧ s.paymentHash = paymentHash)
        ↔ o.qtyFrom ≠ 0 ∧ o.qtyTo ≠ 0 ∧ o.expiry ≠ 0))
    ∧ ∀ text s, fromStr f.fromStr text = .ok s →
      fromStr f.fromStr (s.swapInfo.offer.display f s.paymentHash) = .ok s
  := by
  constructor
  · intro env qtyFrom qtyTo fromAsset toAsset timeoutSec now maxBalance o paymentHash h
    obtain ⟨fromAsset, -, h⟩ := bind_eq_ok.mp h
    obtain ⟨toAsset, -, h⟩ := bind_eq_ok.mp h
    split_ifs at h with _ hne
    obtain rfl := Except.ok.inj h
    have hmax (n : UInt64) : n.toNat ≤ u64Max := Nat.le_sub_one_of_lt n.toNat_lt
    rw [fromStr_display f _ (hmax _) (hmax _) (hmax _)]
    constructor
    · rintro ⟨s, hs, -, -⟩
      exact (ofParts_eq_ok hs).2.2
    · intro hpos
      rw [ofParts, dif_neg (not_or.mpr ⟨hpos.1, not_or.mpr hpos.2⟩), dif_neg hne]
      exact ⟨_, rfl, rfl, rfl⟩
  · intro text s h
    obtain ⟨o, hfrom, hto, hexpiry, paymentHash, h⟩ := fromStr_eq_ok f h
    obtain ⟨hoffer, hhash, -⟩ := ofParts_eq_ok h
    rw [hoffer, hhash, fromStr_display f o hfrom hto hexpiry, h]

theorem hexStr_ne_btc (c : ContractId) :
  hexStr c.toList ≠ str "btc"
  := by
  intro h
  have hdigits := (isHashHex_iff.mp (isHashHex_hexStr c.toList_length)).1
  rw [h] at hdigits
  cases hdigits

/-- Contract ids in hexadecimal. -/
def hexFormat : ContractIdFormat :=
  ⟨fun c => hexStr c.toList, parsePaymentHash, validateAndParsePaymentHash_hexStr,
    slash_notMem_hexStr, hexStr_ne_btc⟩

def bareMaker : MakerEnv :=
  ⟨fun _ => some (.replicate 32 7), fun _ => none, fun _ => [], id, .replicate 33 2, 0, 0, 0⟩

theorem offer_readBack_bitcoin :
  ∃ o s, init bareMaker 1 2 none (some []) 60 9 (fun _ => 2) = .ok o
    ∧ fromStr hexFormat.fromStr (o.display hexFormat (.replicate 32 5)) = .ok s
    ∧ s.swapInfo.offer = o ∧ fromStr hexFormat.fromStr (s.swapInfo.offer.display hexFormat
      s.paymentHash) = .ok s
  := by
  obtain ⟨hoffers, hstrings⟩ := offer_readBack_iff hexFormat
  have hread := hoffers bareMaker 1 2 none (some []) 60 9 (fun _ => 2) _ (.replicate 32 5) rfl
  obtain ⟨s, hs, hoffer, -⟩ := hread.mpr (by decide)
  exact ⟨_, s, rfl, hs, hoffer, hstrings _ s hs⟩

/-- An offer of nothing has a string that is not read. -/
theorem zero_offer_notRead :
  ∃ o, init bareMaker 0 2 none (some []) 60 9 (fun _ => 2) = .ok o
    ∧ ∀ s, fromStr hexFormat.fromStr (o.display hexFormat (.replicate 32 5)) ≠ .ok s
  := by
  refine ⟨_, rfl, fun s hs => ?_⟩
  rw [fromStr_display hexFormat _ (by decide) (by decide) (by decide)] at hs
  cases hs

end Offer

end RgbLightning
