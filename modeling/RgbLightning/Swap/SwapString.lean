import RgbLightning.Node.Types
import RgbLightning.Store.Names

/-!
# Swap strings

A maker hands a swap to a taker as `qty_from/from_asset/qty_to/to_asset/expiry/hash`.
-/

namespace RgbLightning

structure SwapString where
  swapInfo : SwapInfo
  paymentHash : PaymentHash
deriving DecidableEq

namespace SwapString

/-- The parts of a string between separators. -/
def splitSlash : Str → List Str
  | [] => [[]]
  | c :: s =>
    match splitSlash s with
    | [] => [[c]]
    | part :: parts => if c = slash then [] :: part :: parts else (c :: part) :: parts

/-- The asset a part of a swap string names, `btc` being no asset. -/
def parseAsset (contractIdFromStr : Str → Option ContractId) (asset : Str) :
    Option (Option ContractId) :=
  if asset = str "btc" then some none else (contractIdFromStr asset).map some

def parsePaymentHash (s : Str) : Option PaymentHash :=
  match hexStrToVec s with
  | none => none
  | some v => if h : v.length = 32 then some ⟨v, h⟩ else none

/-- The swap with the given parts, if it is one the node may take. -/
def ofParts (qtyFrom qtyTo expiry : ℕ) (fromAsset toAsset : Option ContractId)
    (paymentHash : PaymentHash) : Except String SwapString :=
  if hpos : qtyFrom = 0 ∨ qtyTo = 0 ∨ expiry = 0 then
    .error "qty_from, qty_to and expiry should be positive"
  else if hne : fromAsset = toAsset then
    .error "From and to assets should be different"
  else
    .ok ⟨⟨qtyFrom, qtyTo, fromAsset, toAsset, expiry, by omega, by omega, by
      cases fromAsset <;> cases toAsset <;> simp at hne ⊢⟩, paymentHash⟩

def fromStr (contractIdFromStr : Str → Option ContractId) (s : Str) : Except String SwapString :=
  match splitSlash s with
  | [qtyFrom, fromAsset, qtyTo, toAsset, expiry, paymentHash] =>
    match parseU64 qtyFrom, parseAsset contractIdFromStr fromAsset, parseU64 qtyTo,
        parseAsset contractIdFromStr toAsset, parseU64 expiry,
        parsePaymentHash paymentHash with
    | some qtyFrom, some fromAsset, some qtyTo, some toAsset, some expiry, some paymentHash =>
      ofParts qtyFrom qtyTo expiry fromAsset toAsset paymentHash
    | _, _, _, _, _, _ => .error "Unable to parse"
  | _ => .error "Wrong number of parts"

end SwapString

end RgbLightning
