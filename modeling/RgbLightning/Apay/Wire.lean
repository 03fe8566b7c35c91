import RgbLightning.Node.Types

/-!
# Messages of the asynchronous payment protocol

A recipient that is often offline gives an invoice host a stock of payment hashes, each
with an index.  This module has the entries of a batch of hashes, the errors of the
protocol, and the two ways in which its functions read hexadecimal text: strictly, with a
fixed number of digits and after trimming (`apayDecodeHexFixed`), and leniently, as the
rest of the node does (`validateAndParsePaymentHash`).
-/

namespace RgbLightning

open Option

/-! ### Errors -/

structure JsonRpcErrorWire where
  code : ℤ
  message : String
deriving DecidableEq, Repr

namespace JsonRpcErrorWire

def internalError (message : String) : JsonRpcErrorWire := ⟨-32603, message⟩

def invalidParams (message : String) : JsonRpcErrorWire := ⟨-32602, message⟩

def unsupportedProtocolVersion : JsonRpcErrorWire := ⟨1000, "unsupported_protocol_version"⟩

def invalidHashBatch : JsonRpcErrorWire := ⟨1003, "invalid_hash_batch"⟩

def duplicateIndexConflict : JsonRpcErrorWire := ⟨1004, "duplicate_index_conflict"⟩

def duplicateHashConflict : JsonRpcErrorWire := ⟨1005, "duplicate_hash_conflict"⟩

end JsonRpcErrorWire

/-! ### Hashes -/

structure AsyncOrderNewHashWire where
  hashIndex : ℕ
  paymentHash : Str
  hashIndex_le : hashIndex ≤ u64Max
deriving DecidableEq

def asyncOrderMaxHashBatchSize : ℕ := 200

def protocolVersion : ℕ := 1

def asyncOrderFirstHashIndex : ℕ := 1

def validateAndParsePaymentHash (s : Str) : Option PaymentHash :=
  match hexStrToVec s with
  | none => none
  | some v => if h : v.length = 32 then some ⟨v, h⟩ else none

theorem validateAndParsePaymentHash_hexStr (h : PaymentHash) :
  validateAndParsePaymentHash (hexStr h.toList) = some h
  := by
  simp only [validateAndParsePaymentHash, hexStrToVec_hexStr, List.Vector.toList_length,
    dite_true]
  rfl

theorem hexStrToVec_of_validate {s : Str} {h : PaymentHash}
    (hs : validateAndParsePaymentHash s = some h) :
  hexStrToVec s = some h.toList
  := by
  rw [validateAndParsePaymentHash] at hs
  split at hs
  next => cases hs
  next v hv =>
    split_ifs at hs
    rw [hv, ← some.inj hs]
    rfl

/-! ### Keys in hexadecimal -/

/-- The encodings of the characters that `str::trim` removes. -/
def whiteSpace : List Str :=
  [[0x09], [0x0a], [0x0b], [0x0c], [0x0d], [0x20], [0xc2, 0x85], [0xc2, 0xa0],
    [0xe1, 0x9a, 0x80], [0xe2, 0x80, 0x80], [0xe2, 0x80, 0x81], [0xe2, 0x80, 0x82],
    [0xe2, 0x80, 0x83], [0xe2, 0x80, 0x84], [0xe2, 0x80, 0x85], [0xe2, 0x80, 0x86],
    [0xe2, 0x80, 0x87], [0xe2, 0x80, 0x88], [0xe2, 0x80, 0x89], [0xe2, 0x80, 0x8a],
    [0xe2, 0x80, 0xa8], [0xe2, 0x80, 0xa9], [0xe2, 0x80, 0xaf], [0xe2, 0x81, 0x9f],
    [0xe3, 0x80, 0x80]]

/-- The string without at most `n` of the given characters at its start. -/
def trimStart (chars : List Str) : ℕ → Str → Str
  | 0, s => s
  | n + 1, s =>
    match chars.find? fun c => c.isPrefixOf s with
    | some c => trimStart chars n (s.drop c.length)
    | none => s

/-- The string without white space at its start and its end. -/
def trim (s : Str) : Str :=
  let s := trimStart whiteSpace s.length s
  (trimStart (whiteSpace.map List.reverse) s.length s.reverse).reverse

def apayHexNibble (b : UInt8) : Option UInt8 :=
  if 48 ≤ b ∧ b ≤ 57 then some (b - 48)
  else if 97 ≤ b ∧ b ≤ 102 then some (b - 97 + 10)
  else if 65 ≤ b ∧ b ≤ 70 then some (b - 65 + 10)
  else none

/-- The bytes that pairs of digits write; a digit without a partner is left out. -/
def apayDecodePairs : Str → Option Bytes
  | [] => some []
  | [_] => some []
  | high :: low :: s => do
    let high ← apayHexNibble high
    let low ← apayHexNibble low
    let out ← apayDecodePairs s
    some (((high <<< 4) ||| low) :: out)

theorem length_apayDecodePairs {s : Str} {out : Bytes} (h : apayDecodePairs s = some out) :
  out.length = s.length / 2
  := by
  induction s using apayDecodePairs.induct generalizing out with
  | case1 =>
    rw [apayDecodePairs, some.injEq] at h
    simp [← h]
  | case2 c =>
    rw [apayDecodePairs, some.injEq] at h
    simp [← h]
  | case3 high low s ih =>
    simp only [apayDecodePairs, bind_eq_bind, bind_eq_some_iff,
      some.injEq] at h
    obtain ⟨_, _, _, _, rest, hrest, rfl⟩ := h
    simp only [List.length_cons, ih hrest]
    omega

/-- A value of `n` bytes written in hexadecimal, after trimming. -/
def apayDecodeHexFixed (n : ℕ) (field : String) (s : Str) :
    Except JsonRpcErrorWire (List.Vector UInt8 n) :=
  let error := JsonRpcErrorWire.invalidParams (field ++ " must be " ++ toString n ++ "-byte hex")
  let s := trim s
  if hlen : s.length = 2 * n then
    match hout : apayDecodePairs s with
    | some out => .ok ⟨out, by rw [length_apayDecodePairs hout, hlen]; omega⟩
    | none => .error error
  else .error error

end RgbLightning
