import RgbLightning.Node.Events

/-!
# Listing swaps

The calls that show swaps also end those whose time is over: a swap that was waiting is
expired, one that was pending has failed.  They decide this on a copy of the record, and
set the status afterwards, whatever it has become in the meantime.
-/

namespace RgbLightning

/-- A swap, as the API shows it. -/
structure Swap where
  paymentHash : PaymentHash
  swapInfo : SwapInfo
  status : SwapStatus
  requestedAt : ℕ
  initiatedAt : Option ℕ
  completedAt : Option ℕ
deriving DecidableEq

/-- The status of a swap at the current time.  A pending swap without a starting time makes
the call panic. -/
def SwapData.currentStatus (swapData : SwapData) : Node SwapStatus :=
  match swapData.status with
  | .waiting => do
    let now ← getCurrentTimestamp
    pure (if now > swapData.swapInfo.expiry then .expired else .waiting)
  | .pending => do
    let now ← getCurrentTimestamp
    match swapData.initiatedAt with
    | none => nodePanic
    | some initiatedAt =>
      pure (if now > initiatedAt + pendingSwapTimeoutSecs then .failed else .pending)
  | status => pure status

def updateSwapStatus (paymentHash : PaymentHash) (status : SwapStatus) (taker : Bool) :
    Node Unit :=
  if taker then updateTakerSwapStatus paymentHash status
  else updateMakerSwapStatus paymentHash status

/-- Shows a swap, and ends it if its time is over. -/
def mapSwap (paymentHash : PaymentHash) (swapData : SwapData) (taker : Bool) : Node Swap := do
  let status ← swapData.currentStatus
  if status ≠ swapData.status then
    updateSwapStatus paymentHash status taker
  pure ⟨paymentHash, swapData.swapInfo, status, swapData.requestedAt, swapData.initiatedAt,
    swapData.completedAt⟩

inductive GetSwapError where
  | invalidPaymentHash (paymentHash : Str)
  | swapNotFound (paymentHash : Str)
deriving DecidableEq, Repr

def swapsOf (taker : Bool) : Node SwapMap :=
  if taker then readCell .takerSwaps else readCell .makerSwaps

def getSwap (paymentHash : Str) (taker : Bool) : Node (Except GetSwapError Swap) := do
  match SwapString.parsePaymentHash paymentHash with
  | none => pure (.error (.invalidPaymentHash paymentHash))
  | some requested =>
    let swaps ← swapsOf taker
    match swaps.lookup requested with
    | none => pure (.error (.swapNotFound paymentHash))
    | some swapData => do
      let swap ← mapSwap requested swapData taker
      pure (.ok swap)

def mapSwaps (taker : Bool) : List (Σ _ : PaymentHash, SwapData) → Node (List Swap)
  | [] => pure []
  | entry :: entries => do
    let swap ← mapSwap entry.1 entry.2 taker
    let swaps ← mapSwaps taker entries
    pure (swap :: swaps)

def listSwaps : Node (List Swap × List Swap) := do
  let takerSwaps ← swapsOf true
  let makerSwaps ← swapsOf false
  let taker ← mapSwaps true takerSwaps.entries
  let maker ← mapSwaps false makerSwaps.entries
  pure (taker, maker)

end RgbLightning
