import RgbLightning.Node.Events
import RgbLightning.Swap.Exchange

/-!
# One HTLC for each payment hash

A whitelist entry is meant to be used by one HTLC.  It is forwardable while it waits, and
afterwards only for the HTLC it is pending for.  So at most one HTLC is forwarded for each
payment hash (`forwarded_unique`), as long as no entry that was used is put back to waiting.
The API call does that: it replaces the entry of its payment hash (`forwarded_twice`).
-/

namespace RgbLightning

open Prog Session SwapsProp Silent RecordsOnly All

/-! ### Unused entries -/

section Unused

variable {m d : SwapMap} {fs : List Forward} {h : PaymentHash}

def Unused (fs : List Forward) (h : PaymentHash) : Prop :=
  ∀ g ∈ fs, g.paymentHash ≠ h

theorem Spent.insert (hspent : Spent m fs) (hunused : Unused fs h) (swap : SwapData) :
  Spent (m.insert h swap) fs
  := by
  intro g hg
  rw [AList.lookup_insert_ne (hunused g hg)]
  apply hspent g hg

theorem Spent.erase (hspent : Spent m fs) (hunused : Unused fs h) :
  Spent (m.erase h) fs
  := by
  intro g hg
  rw [AList.lookup_erase_ne (hunused g hg)]
  apply hspent g hg

theorem Spent.unused_of_lookup_eq_none (hspent : Spent m fs) (hnone : m.lookup h = none) :
  Unused fs h
  := by
  rintro g hg rfl
  obtain ⟨swap, hswap, -⟩ := hspent g hg
  rw [hnone] at hswap
  cases hswap

end Unused

/-! ### Handlers that do not touch the whitelist -/

namespace Silent

theorem of_recordsOnly {α : Type} {p : Node α} (hp : RecordsOnly p) :
  Silent p
  := by
  apply mono _ hp
  intro o ho
  cases o <;> first | rfl | cases ho | exact decide_eq_false (of_decide_eq_true ho)

section Finalize

variable (deserialize : Bytes → Option RgbPaymentInfo)

theorem paymentClaimed (e : PaymentClaimed) :
  Silent (paymentClaimed deserialize e)
  := by
  apply bind (of_recordsOnly (RecordsOnly.isMakerSwap _))
  intro makerSwap
  apply bind (of_recordsOnly (RecordsOnly.alreadyClaimed _ _))
  intro claimed
  split_ifs
  · trivial
  all_goals
    apply bind (of_plain (Plain.finalizeRgbChannelPayment deserialize e.paymentHash true))
    intro r
    split
    · trivial
  · apply bind (of_recordsOnly (RecordsOnly.updateMakerSwapStatus _ _))
    intro _
    trivial
  · split
    · apply nodePanic
    · apply bind (of_recordsOnly (RecordsOnly.upsertInboundPayment _ _ _ _ _ _ _))
      intro _
      trivial

theorem paymentSent (e : PaymentSent) :
  Silent (paymentSent deserialize e)
  := by
  apply bind (of_plain (Plain.finalizeRgbChannelPayment deserialize e.paymentHash false))
  intro r
  split
  · trivial
  apply bind (of_recordsOnly (RecordsOnly.isMakerSwap _))
  intro makerSwap
  split_ifs
  · apply bind (of_recordsOnly (RecordsOnly.updateMakerSwapStatus _ _))
    intro _
    trivial
  · split
    · apply nodePanic
    · apply bind (of_recordsOnly (RecordsOnly.updateOutboundPayment _ _ _))
      intro _
      trivial

end Finalize

end Silent

/-! ### Calls -/

/-- A property that survives a restart, the whitelisting of a payment hash without an entry,
and taking that back after the write has failed, whether or not it was made. -/
structure SwapsProp.Whitelists (P : SwapsProp) : Prop where
  durable : P.Durable
  add : ∀ m d fs h swap, P m d fs → m.lookup h = none → swap.status = .waiting →
    P (m.insert h swap) d fs ∧ P (m.insert h swap) (m.insert h swap) fs
  takeBack : ∀ m d fs h swap, P m d fs → m.lookup h = none → swap.status = .waiting →
    P ((m.insert h swap).erase h) d fs ∧ P ((m.insert h swap).erase h) (m.insert h swap) fs

section Calls

variable {G : Guard nodeInterface World Fault} {P : SwapsProp} {w : World}

theorem wp_taker (hP : P.Durable) (contractIdFromStr : Str → Option ContractId) (payload : Str)
    (hw : P.Holds w)
    (hadd : ∀ s swap, SwapString.fromStr contractIdFromStr payload = .ok s →
      swap.status = .waiting →
      let m := w.takerSwaps.insert s.paymentHash swap
      P m w.takerSwapsOnDisk w.forwarded ∧ P m m w.forwarded) :
  (taker contractIdFromStr payload).wp nodeMachine G P.Holds (fun _ => P.Holds) w
  := by
  rw [taker]
  split
  · apply hw
  rename_i s hs
  rw [wp_bind]
  apply wp_silent hP Silent.getCurrentTimestamp hw
  intro now w1 h1
  split_ifs
  · apply hw.congr h1
  rw [wp_bind]
  apply wp_silent hP (.of_plain (Plain.hasEnoughAssets _)) (hw.congr h1)
  intro enough w2 h2
  split_ifs
  · rw [wp_bind]
    apply wp_silent hP Silent.getCurrentTimestamp ((hw.congr h1).congr h2)
    intro requestedAt w3 h3
    have hsame := (h1.trans h2).trans h3
    obtain ⟨hmemory, hdisk⟩ := hadd s
      (SwapData.createFromSwapInfo s.swapInfo requestedAt) hs rfl
    rw [← hsame.memory, ← hsame.forwarded] at hmemory hdisk
    rw [← hsame.disk] at hmemory
    rw [wp_bind]
    apply wp_addTakerSwap hP (((hw.congr h1).congr h2).congr h3) hmemory hdisk
  · apply (hw.congr h1).congr h2

theorem wp_reserveRedemption (hP : P.Whitelists) (sender : PublicKey)
    (params : AssetLinkAuthorizeParams) (asset linked : ContractId)
    (hamount : params.amount ≠ 0) (h : PaymentHash) (maxBalance : ℤ) (hw : P.Holds w) :
  (reserveRedemption sender params asset linked hamount h maxBalance).wp nodeMachine G
    P.Holds (fun _ => P.Holds) w
  := by
  have hdur := hP.durable
  have hunlock : ∀ r : Except JsonRpcError Unit,
      Silent (unlockCell .takerSwaps >>= fun _ => (pure r : Node _)) :=
    fun _ => ⟨rfl, fun _ => trivial⟩
  rw [reserveRedemption, wp_bind]
  apply wp_lockTakerSwaps hdur hw
  intro w1 h1
  have hw1 := hw.congr h1
  split
  · apply wp_silent hdur (hunlock _) hw1
    intro _ w2 h2
    apply hw1.congr h2
  rename_i hnone
  rw [Option.not_isSome_iff_eq_none, ← h1.memory] at hnone
  rw [wp_bind]
  apply wp_silent hdur Silent.getCurrentTimestamp hw1
  intro now w2 h2
  split
  · apply wp_silent hdur (hunlock _) (hw1.congr h2)
    intro _ w3 h3
    apply (hw1.congr h2).congr h3
  rw [wp_bind]
  apply wp_silent hdur Silent.getCurrentTimestamp (hw1.congr h2)
  intro requestedAt w3 h3
  have hw3 : P.Holds w3 := (hw1.congr h2).congr h3
  have hsame := h2.trans h3
  rw [← hsame.memory] at hnone
  rw [← h1.memory, ← hsame.memory]
  have hadd := hP.add w3.takerSwaps w3.takerSwapsOnDisk w3.forwarded h
    { SwapData.createFromSwapInfo (redemption params asset linked hamount now) requestedAt with
      authorizedPeer := some sender } hw3 hnone rfl
  have hback := hP.takeBack w3.takerSwaps w3.takerSwapsOnDisk w3.forwarded h
    { SwapData.createFromSwapInfo (redemption params asset linked hamount now) requestedAt with
      authorizedPeer := some sender } hw3 hnone rfl
  rw [wp_bind]
  apply wp_setTakerSwaps hdur hw3
  intro w4 hm4 hd4 hf4
  have hw4 : P.Holds w4 := by
    rw [Holds, hm4, hd4, hf4]
    apply hadd.1
  rw [wp_bind]
  apply wp_saveTakerSwaps hdur hw4
  · intro w5 hm5 hd5 hf5
    have hw5 : P.Holds w5 := by
      rw [Holds, hm5, hd5, hf5, hm4, hf4]
      apply hadd.2
    apply wp_silent hdur (hunlock _) hw5
    intro _ w6 h6
    apply hw5.congr h6
  intro err w5 hm5 hd5 hf5
  rw [hd4, hm4] at hd5
  have hw5 : P.Holds w5 := by
    rw [Holds, hm5, hf5, hm4, hf4]
    rcases hd5 with hd5 | hd5
    · rw [hd5]
      apply hadd.1
    · rw [hd5]
      apply hadd.2
  rw [wp_bind]
  apply wp_setTakerSwaps hdur hw5
  intro w6 hm6 hd6 hf6
  have hw6 : P.Holds w6 := by
    rw [Holds, hm6, hd6, hf6, hf5, hf4]
    rcases hd5 with hd5 | hd5
    · rw [hd5]
      apply hback.1
    · rw [hd5]
      apply hback.2
  apply wp_silent hdur (hunlock _) hw6
  intro _ w7 h7
  apply hw6.congr h7

theorem wp_authorizeSwap (hP : P.Whitelists) (contractIdFromStr : Str → Option ContractId)
    (sender : PublicKey) (params : AssetLinkAuthorizeParams) (hw : P.Holds w) :
  (authorizeSwap contractIdFromStr sender params).wp nodeMachine G P.Holds
    (fun _ => P.Holds) w
  := by
  have hdur := hP.durable
  rw [authorizeSwap]
  split
  · apply hw
  split
  · apply hw
  split
  · apply hw
  split
  · apply hw
  split
  · apply hw
  rw [wp_bind]
  apply wp_silent hdur (Silent.nodeOp rfl) hw
  intro available w1 h1
  split
  · rw [wp_bind]
    apply wp_silent hdur (.of_plain (Plain.checkLink _ _ _)) (hw.congr h1)
    intro r w2 h2
    have hw2 := (hw.congr h1).congr h2
    split
    · apply hw2
    rw [wp_bind]
    apply wp_silent hdur (Silent.nodeOp rfl) hw2
    intro channels w3 h3
    rw [wp_bind]
    apply wp_silent hdur (.of_plain (Plain.getMaxLocalRgbAmount _ _)) (hw2.congr h3)
    intro maxBalance w4 h4
    apply wp_reserveRedemption hP _ _ _ _ _ _ _ ((hw2.congr h3).congr h4)
  · apply hw.congr h1

theorem wp_paymentForwarded (hP : P.Durable) (e : PaymentForwarded) (hw : P.Holds w)
    (hset : ∀ swap now, w.takerSwaps.lookup e.paymentHash = some swap →
      let m := w.takerSwaps.insert e.paymentHash (swap.finish .succeeded now)
      P m w.takerSwapsOnDisk w.forwarded ∧ P m m w.forwarded) :
  (paymentForwarded e).wp nodeMachine G P.Holds (fun _ => P.Holds) w
  := by
  rw [paymentForwarded, wp_bind]
  apply wp_silent hP (.of_plain (Plain.clearRgbPaymentPending _ _)) hw
  intro _ w1 h1
  rw [wp_bind]
  apply wp_silent hP (.of_plain (Plain.clearRgbPaymentPending _ _)) (hw.congr h1)
  intro _ w2 h2
  have hw2 := (hw.congr h1).congr h2
  split
  · apply wp_nodePanic (hP.reboot hw2) (hw2.congr (SameSwaps.panic _))
  · apply wp_nodePanic (hP.reboot hw2) (hw2.congr (SameSwaps.panic _))
  rw [wp_bind]
  apply wp_silent hP (.of_plain (Plain.updateForwarded _ _ _)) hw2
  intro r w3 h3
  split
  · apply hw2.congr h3
  rw [wp_bind]
  apply wp_silent hP (.of_plain (Plain.updateForwarded _ _ _)) (hw2.congr h3)
  intro r w4 h4
  have hw4 := (hw2.congr h3).congr h4
  split
  · apply hw4
  rw [wp_bind]
  apply wp_silent hP (Silent.of_recordsOnly (RecordsOnly.isTakerSwap _)) hw4
  intro takerSwap w5 h5
  split
  · have hsame := (((h1.trans h2).trans h3).trans h4).trans h5
    rw [wp_bind]
    apply wp_updateTakerSwapStatus hP (hw4.congr h5) rfl
    intro swap now hswap
    rw [hsame.memory] at hswap
    rw [hsame.memory, hsame.disk, hsame.forwarded]
    apply hset swap now hswap
  · apply hw4.congr h5

theorem onePerHash_whitelists :
  Whitelists OnePerHash
  where
  durable := onePerHash_durable
  add m d fs h swap hone hnone _ := by
    have hunused := hone.memory.unused_of_lookup_eq_none hnone
    have hm := hone.memory.insert hunused swap
    exact ⟨⟨hm, hone.disk, hone.unique⟩, ⟨hm, hm, hone.unique⟩⟩
  takeBack m d fs h swap hone hnone _ := by
    have hunused := hone.memory.unused_of_lookup_eq_none hnone
    have hm := hone.memory.insert hunused swap
    exact ⟨⟨hm.erase hunused, hone.disk, hone.unique⟩, ⟨hm.erase hunused, hm, hone.unique⟩⟩

theorem handleEvent_wp (deserialize : Bytes → Option RgbPaymentInfo) (e : Event)
    (hw : Holds OnePerHash w) :
  (handleEvent deserialize e).wp nodeMachine G (Holds OnePerHash)
    (fun _ => Holds OnePerHash) w
  := by
  have hdur := onePerHash_durable
  unfold handleEvent
  rw [wp_bind]
  apply wp_silent hdur (Silent.nodeOp rfl) hw
  intro _ w1 h1
  have hw1 := hw.congr h1
  cases e with
  | htlcIntercepted e =>
    have hkeep : ∀ w2, (Handles w1 e).Holds w2 → Holds OnePerHash w2 :=
      fun w2 h2 => h2.2 hw1
    apply wp_mono hkeep (fun _ => hkeep) _ _ (htlcIntercepted_wp w1 e)
  | paymentForwarded e =>
    apply wp_paymentForwarded hdur e hw1
    intro swap now _
    apply OnePerHash.finish hw1 rfl
  | paymentClaimed e =>
    apply wp_silent hdur (Silent.paymentClaimed _ e) hw1
    intro _ w2 h2
    apply hw1.congr h2
  | paymentSent e =>
    apply wp_silent hdur (Silent.paymentSent _ e) hw1
    intro _ w2 h2
    apply hw1.congr h2

end Calls

/-! ### Runs -/

inductive NodeCall where
  | taker (payload : Str)
  | authorizeSwap (sender : PublicKey) (params : AssetLinkAuthorizeParams)
  | event (e : Event)

section Runs

variable (contractIdFromStr : Str → Option ContractId)
variable (deserialize : Bytes → Option RgbPaymentInfo)

/-- The handler of a call.  Returns whether the call succeeds. -/
def NodeCall.handle : NodeCall → Node Bool
  | .taker payload => do
    let r ← RgbLightning.taker contractIdFromStr payload
    pure r.isOk
  | .authorizeSwap sender params => do
    let r ← RgbLightning.authorizeSwap contractIdFromStr sender params
    pure r.isOk
  | .event e => do
    let r ← handleEvent deserialize e
    pure r.isOk

/-- No call of the API names a payment hash for which an HTLC was forwarded. -/
def NodeCall.NamesUnused : NodeCall → World → Prop
  | .taker payload, w => ∀ s, SwapString.fromStr contractIdFromStr payload = .ok s →
      Unused w.forwarded s.paymentHash
  | _, _ => True

/-- The state of a node after a sequence of calls and restarts. -/
abbrev runNode (w : World) (as : List (Action NodeCall Fault)) :
    State World NodeCall Bool :=
  run nodeMachine (NodeCall.handle contractIdFromStr deserialize) ⟨[], w⟩ as

/-- A sequence of calls and restarts in which no call of the API names a payment hash for
which an HTLC was forwarded. -/
abbrev NeverReuses (w : World) (as : List (Action NodeCall Fault)) : Prop :=
  AllowsAll nodeMachine anyFate (NodeCall.NamesUnused contractIdFromStr)
    (NodeCall.handle contractIdFromStr deserialize) ⟨[], w⟩ as

theorem nodeCall_wp {c : NodeCall} {w : World} (hc : c.NamesUnused contractIdFromStr w)
    (hw : Holds OnePerHash w) :
  (c.handle contractIdFromStr deserialize).wp nodeMachine anyFate
    (Holds OnePerHash) (fun _ => Holds OnePerHash) w
  := by
  cases c with
  | taker payload =>
    rw [NodeCall.handle, wp_bind]
    apply wp_taker onePerHash_durable contractIdFromStr payload hw
    intro s swap hs _
    have hm := hw.memory.insert (hc s hs) swap
    exact ⟨⟨hm, hw.disk, hw.unique⟩, ⟨hm, hm, hw.unique⟩⟩
  | authorizeSwap sender params =>
    rw [NodeCall.handle, wp_bind]
    apply wp_authorizeSwap onePerHash_whitelists contractIdFromStr sender params hw
  | event e =>
    rw [NodeCall.handle, wp_bind]
    apply handleEvent_wp deserialize e hw

/-- Along every run in which no call of the API names a payment hash for which an HTLC was
forwarded, at most one HTLC is forwarded for each payment hash, whatever fails and wherever
the node crashes. -/
theorem forwarded_unique (w : World) (hw : w.forwarded = [])
    (as : List (Action NodeCall Fault))
    (has : NeverReuses contractIdFromStr deserialize w as) :
  ∀ g ∈ (runNode contractIdFromStr deserialize w as).world.forwarded,
    ∀ g' ∈ (runNode contractIdFromStr deserialize w as).world.forwarded,
      g.paymentHash = g'.paymentHash → g.interceptId = g'.interceptId
  := by
  have hinit : Holds OnePerHash w := by
    rw [Holds, hw]
    constructor <;> intro g hg <;> cases hg
  have hrun := run_invariant (I := fun _ w => Holds OnePerHash w)
    (fun _ c w hc hw => nodeCall_wp contractIdFromStr deserialize hc hw)
    (fun _ w hw => onePerHash_durable.reboot hw) as hinit has
  apply hrun.unique

end Runs

/-! ### An entry used twice -/

/-- A reader of asset names that knows one asset. -/
def sampleContractId (s : Str) : Option ContractId :=
  if s = str "asset" then some (List.Vector.replicate 32 7) else none

/-- The swap string of 1000 msat for 10 units of the asset. -/
def samplePayload : Str :=
  str "1000/btc/10/asset/100/" ++ hexStr (List.replicate 32 3)

/-- A node with two channels and an empty whitelist. -/
def sampleNode : World := { sampleWorld with cells := emptyCell }

def payingHtlc (id : UInt8) : HTLCIntercepted :=
  { drainingHtlc with
    interceptId := List.Vector.replicate 32 id
    expectedOutboundRgbPayment := none }

/-- A swap is whitelisted, and its HTLC delivered three times with a restart in between. -/
def redeliveries : List (Action NodeCall Fault) :=
  [.call (.taker samplePayload) [], .call (.event (.htlcIntercepted (payingHtlc 4))) [],
    .restart, .call (.event (.htlcIntercepted (payingHtlc 4))) [],
    .call (.event (.htlcIntercepted (payingHtlc 5))) []]

/-- The HTLC is forwarded at both of its deliveries, and the other one is not. -/
theorem forwarded_unique_redeliveries :
  ((runNode sampleContractId (fun _ => none) sampleNode redeliveries).world.forwarded.map
      (·.interceptId) = [List.Vector.replicate 32 4, List.Vector.replicate 32 4])
    ∧ ∀ g ∈ (runNode sampleContractId (fun _ => none) sampleNode redeliveries).world.forwarded,
      ∀ g' ∈ (runNode sampleContractId (fun _ => none) sampleNode redeliveries).world.forwarded,
        g.paymentHash = g'.paymentHash → g.interceptId = g'.interceptId
  := by
  refine ⟨by decide +kernel, forwarded_unique _ _ sampleNode rfl redeliveries ?_⟩
  have hany := fun c w fs => admits_anyFate (M := nodeMachine)
    (NodeCall.handle sampleContractId (fun _ => none) c) w fs
  exact ⟨⟨fun _ _ _ hg => (by cases hg), hany _ _ _⟩, ⟨trivial, hany _ _ _⟩, trivial,
    ⟨trivial, hany _ _ _⟩, ⟨trivial, hany _ _ _⟩, trivial⟩

/-- The same swap string is taken again after its HTLC was forwarded, and another HTLC with
the same payment hash is delivered. -/
def retaken : List (Action NodeCall Fault) :=
  [.call (.taker samplePayload) [], .call (.event (.htlcIntercepted (payingHtlc 4))) [],
    .call (.taker samplePayload) [], .call (.event (.htlcIntercepted (payingHtlc 5))) []]

/-- Both HTLCs are forwarded. -/
theorem forwarded_twice :
  ∃ g ∈ (runNode sampleContractId (fun _ => none) sampleNode retaken).world.forwarded,
    ∃ g' ∈ (runNode sampleContractId (fun _ => none) sampleNode retaken).world.forwarded,
      g.paymentHash = g'.paymentHash ∧ g.interceptId ≠ g'.interceptId
  := by
  decide +kernel

end RgbLightning
