import RgbLightning.Swap.Forwarding
import RgbLightning.Swap.Status

/-!
# What completes a taker swap

A taker swap succeeds when the HTLC that pays for it was forwarded and claimed, which the
channel manager reports as a forwarded payment.  The report names nothing but the payment
hash, and the handler takes every one with the payment hash of a taker swap for the
completion of the swap: also that of an ordinary payment that was merely routed
(`takerSwap_succeeded_unforwarded`).  `takerSwap_succeeded_forwarded` says when a swap that
succeeded is one for which an HTLC was forwarded.
-/

namespace RgbLightning

open Prog SwapsProp Session

/-! ### Swaps that succeeded -/

/-- For every swap of a map that succeeded an HTLC was forwarded. -/
def EarnedIn (m : SwapMap) (fs : List Forward) : Prop :=
  ∀ h swap, m.lookup h = some swap → swap.status = .succeeded → ∃ g ∈ fs, g.paymentHash = h

/-- For every swap that succeeded, in memory or in the store, an HTLC was forwarded. -/
def Earned : SwapsProp := fun m d fs => EarnedIn m fs ∧ EarnedIn d fs

section Changes

variable {m d : SwapMap} {fs : List Forward} {h : PaymentHash} {swap : SwapData}

theorem EarnedIn.insert (hm : EarnedIn m fs)
    (hswap : swap.status = .succeeded → ∃ g ∈ fs, g.paymentHash = h) :
  EarnedIn (m.insert h swap) fs
  := by
  intro h' swap' hlookup hstatus
  rw [Table.lookup_insert_eq] at hlookup
  split_ifs at hlookup with heq
  · obtain rfl : swap = swap' := Option.some.inj hlookup
    rw [heq]
    apply hswap hstatus
  · apply hm h' swap' hlookup hstatus

theorem EarnedIn.erase (hm : EarnedIn m fs) :
  EarnedIn (m.erase h) fs
  := by
  intro h' swap' hlookup
  apply hm h' swap' (Table.lookup_of_lookup_erase hlookup)

theorem EarnedIn.snoc (hm : EarnedIn m fs) (g : Forward) :
  EarnedIn m (fs ++ [g])
  := by
  intro h' swap' hlookup hstatus
  obtain ⟨g', hmem, hhash⟩ := hm h' swap' hlookup hstatus
  exact ⟨g', List.mem_append_left _ hmem, hhash⟩

/-- Setting an entry that did not succeed, or for which an HTLC was forwarded. -/
theorem Earned.insert (hw : Earned m d fs)
    (hswap : swap.status = .succeeded → ∃ g ∈ fs, g.paymentHash = h) :
  Earned (m.insert h swap) d fs ∧ Earned (m.insert h swap) (m.insert h swap) fs
  := by
  have hm := hw.1.insert hswap
  exact ⟨⟨hm, hw.2⟩, ⟨hm, hm⟩⟩

end Changes

theorem earned_durable :
  Durable Earned
  := fun _ _ _ h => ⟨h.2, h.2⟩

theorem earned_whitelists :
  Whitelists Earned
  where
  durable := earned_durable
  add m d fs h swap hw _ hwaiting := by
    apply hw.insert
    rw [hwaiting]
    intro hstatus
    cases hstatus
  takeBack m d fs h swap hw _ hwaiting := by
    have hm : EarnedIn (m.insert h swap) fs := by
      apply hw.1.insert
      rw [hwaiting]
      intro hstatus
      cases hstatus
    exact ⟨⟨hm.erase, hw.2⟩, ⟨hm.erase, hm⟩⟩

/-! ### The handlers -/

section Handlers

variable {G : Guard nodeInterface World Fault} {w : World}

/-- Ending a swap without success. -/
theorem updateTakerSwapStatus_earned (h : PaymentHash) {status : SwapStatus}
    (hfinal : status.isFinal) (hne : status ≠ .succeeded) (hw : Holds Earned w) :
  Earned.Keeps G (updateTakerSwapStatus h status) w
  := by
  apply wp_updateTakerSwapStatus earned_durable hw hfinal
  intro swap now _
  apply Earned.insert hw
  intro hstatus
  cases hne hstatus

theorem rejectIntercept_earned (id : InterceptId) (hw : Holds Earned w) :
  Earned.Keeps G (rejectIntercept id) w
  := by
  apply wp_silent earned_durable (Silent.of_plain (Plain.rejectIntercept _)) hw
  intro _ w' h
  apply hw.congr h

variable (e : HTLCIntercepted)

theorem finishAndReject_earned {status : SwapStatus} (hfinal : status.isFinal)
    (hne : status ≠ .succeeded) (hw : Holds Earned w) :
  Earned.Keeps G (updateTakerSwapStatus e.paymentHash status >>= fun _ => rejectIntercept
    e.interceptId) w
  := by
  rw [SwapsProp.Keeps, wp_bind]
  apply wp_mono (Q := fun _ => Holds Earned) (fun _ h => h)
  · intro _ w' hw'
    apply rejectIntercept_earned _ hw'
  · apply updateTakerSwapStatus_earned _ hfinal hne hw

theorem forwardSwap_earned (outbound : ChannelDetails) (hw : Holds Earned w) :
  Earned.Keeps G (forwardSwap e outbound) w
  := by
  have hpend : ∀ (swap : SwapData) (now : ℕ),
      let m := w.takerSwaps.insert e.paymentHash (swap.pendFor e.interceptId now)
      Earned m w.takerSwapsOnDisk w.forwarded ∧ Earned m m w.forwarded := by
    intro swap now
    apply Earned.insert hw
    intro hstatus
    cases hstatus
  rw [SwapsProp.Keeps, forwardSwap, wp_bind]
  apply wp_updateTakerSwapPendingIntercept earned_durable hw
  · intro swap now _
    apply hpend
  intro swap now w1 _ hm hd hf
  have hw1 : Holds Earned w1 := by
    rw [Holds, hm, hd, hf]
    apply (hpend swap now).2
  rw [wp_bind]
  apply wp_forwardInterceptedHtlc (earned_durable.reboot hw1)
  · exact ⟨hw1.1.snoc _, hw1.2.snoc _⟩
  · intro _
    apply finishAndReject_earned e rfl (by decide) hw1

theorem checkSwap_earned (inbound outbound : ChannelDetails)
    (inboundContract outboundContract : Option ContractId) (swap : SwapData)
    (hw : Holds Earned w) :
  (checkSwap e inbound outbound inboundContract outboundContract swap).wp nodeMachine G
    (Holds Earned) (fun _ => Holds Earned) w
  := by
  rw [checkSwap]
  split
  · apply rejectIntercept_earned _ hw
  split
  · apply rejectIntercept_earned _ hw
  rw [wp_bind]
  apply wp_silent earned_durable Silent.getCurrentTimestamp hw
  intro now w1 h1
  split_ifs
  · apply finishAndReject_earned e rfl (by decide) (hw.congr h1)
  · apply finishAndReject_earned e rfl (by decide) (hw.congr h1)
  · apply forwardSwap_earned e outbound (hw.congr h1)

theorem findSwap_earned (inbound outbound : ChannelDetails) (hw : Holds Earned w) :
  Earned.Keeps G (findSwap e inbound outbound) w
  := by
  have hdur := earned_durable
  rw [SwapsProp.Keeps, findSwap, wp_bind]
  apply wp_silent hdur (.of_plain (Plain.getRgbChannelInfoOptional _ _)) hw
  intro inboundInfo w1 h1
  have hw1 := hw.congr h1
  rw [wp_bind]
  apply wp_silent hdur (.of_plain (Plain.getRgbChannelInfoOptional _ _)) hw1
  intro outboundInfo w2 h2
  have hw2 := hw1.congr h2
  rw [wp_bind]
  apply wp_lockTakerSwaps hdur hw2
  intro w3 h3
  have hw3 := hw2.congr h3
  split
  · have hsilent : Silent (rejectIntercept e.interceptId >>= fun r =>
        unlockCell .takerSwaps >>= fun _ => (pure r : Node (Except ReplayEvent Unit))) :=
      All.bind (Silent.of_plain (Plain.rejectIntercept _)) fun _ => ⟨rfl, fun _ => trivial⟩
    apply wp_silent hdur hsilent hw3
    intro _ w4 h4
    apply hw3.congr h4
  · rw [wp_bind]
    apply wp_unlockCell (hdur.reboot hw3)
    apply checkSwap_earned _ _ _ _ _ _ (hw3.congr (SameSwaps.setLocked _ _ _))

theorem htlcIntercepted_earned (hw : Holds Earned w) :
  Earned.Keeps G (htlcIntercepted e) w
  := by
  rw [SwapsProp.Keeps, htlcIntercepted]
  split_ifs
  · apply rejectIntercept_earned _ hw
  rw [wp_bind]
  apply wp_listChannels (earned_durable.reboot hw)
  split
  · apply rejectIntercept_earned _ hw
  rw [wp_bind]
  apply wp_listChannels (earned_durable.reboot hw)
  split
  · apply rejectIntercept_earned _ hw
  · apply findSwap_earned _ _ _ hw

theorem handleEvent_earned (deserialize : Bytes → Option RgbPaymentInfo) (e : Event)
    (hw : Holds Earned w)
    (he : ∀ e', e = .paymentForwarded e' → (w.takerSwaps.lookup e'.paymentHash).isSome →
      ∃ g ∈ w.forwarded, g.paymentHash = e'.paymentHash) :
  Earned.Keeps G (handleEvent deserialize e) w
  := by
  have hdur := earned_durable
  unfold SwapsProp.Keeps handleEvent
  rw [wp_bind]
  apply wp_silent hdur (Silent.nodeOp rfl) hw
  intro _ w1 h1
  have hw1 := hw.congr h1
  cases e with
  | htlcIntercepted e => apply htlcIntercepted_earned e hw1
  | paymentForwarded e =>
    apply wp_paymentForwarded hdur e hw1
    intro swap now hswap
    apply Earned.insert hw1
    intro _
    rw [h1.memory] at hswap
    rw [h1.forwarded]
    apply he e rfl
    rw [hswap]
    rfl
  | paymentClaimed e =>
    apply wp_silent hdur (Silent.paymentClaimed _ e) hw1
    intro _ w2 h2
    apply hw1.congr h2
  | paymentSent e =>
    apply wp_silent hdur (Silent.paymentSent _ e) hw1
    intro _ w2 h2
    apply hw1.congr h2

/-! ### Listings -/

/-- The time that has passed may have ended a swap, but never made it succeed. -/
theorem currentStatus_wp (swapData : SwapData) (hw : Holds Earned w)
    {Q : SwapStatus → World → Prop}
    (hQ : ∀ status w', SameSwaps w w' →
      status = swapData.status ∨ status = .expired ∨ status = .failed → Q status w') :
  swapData.currentStatus.wp nodeMachine G (Holds Earned) Q w
  := by
  have hdur := earned_durable
  unfold SwapData.currentStatus
  cases hstatus : swapData.status with
  | waiting =>
    dsimp only
    rw [wp_bind]
    apply wp_silent hdur Silent.getCurrentTimestamp hw
    intro now w1 h1
    apply hQ _ _ h1
    split_ifs
    · exact .inr (.inl rfl)
    · exact .inl hstatus.symm
  | pending =>
    dsimp only
    rw [wp_bind]
    apply wp_silent hdur Silent.getCurrentTimestamp hw
    intro now w1 h1
    have hw1 := hw.congr h1
    split
    · apply wp_nodePanic (hdur.reboot hw1) (hw1.congr (SameSwaps.panic _))
    · apply hQ _ _ h1
      split_ifs
      · exact .inr (.inr rfl)
      · exact .inl hstatus.symm
  | succeeded => apply hQ _ _ (SameSwaps.refl w) (.inl hstatus.symm)
  | expired => apply hQ _ _ (SameSwaps.refl w) (.inl hstatus.symm)
  | failed => apply hQ _ _ (SameSwaps.refl w) (.inl hstatus.symm)

theorem mapSwap_earned (h : PaymentHash) (swapData : SwapData) (taker : Bool)
    (hw : Holds Earned w) :
  Earned.Keeps G (mapSwap h swapData taker) w
  := by
  rw [SwapsProp.Keeps, mapSwap, wp_bind]
  apply currentStatus_wp swapData hw
  intro status w1 h1 hstatus
  have hw1 := hw.congr h1
  split_ifs with hne
  · have hover : status.isFinal ∧ status ≠ .succeeded := by
      obtain rfl | rfl | rfl := hstatus
      · cases hne rfl
      · decide
      · decide
    rw [wp_bind]
    cases taker with
    | true => apply updateTakerSwapStatus_earned h hover.1 hover.2 hw1
    | false =>
      apply wp_silent earned_durable
        (Silent.of_recordsOnly (RecordsOnly.updateMakerSwapStatus h status)) hw1
      intro _ w2 h2
      apply hw1.congr h2
  · apply hw1

theorem Silent.swapsOf (taker : Bool) :
  Silent (swapsOf taker)
  := by
  rw [RgbLightning.swapsOf]
  split_ifs <;> apply Silent.readCell

theorem getSwap_earned (h : Str) (taker : Bool) (hw : Holds Earned w) :
  Earned.Keeps G (getSwap h taker) w
  := by
  rw [SwapsProp.Keeps, getSwap]
  split
  · apply hw
  rw [wp_bind]
  apply wp_silent earned_durable (Silent.swapsOf taker) hw
  intro swaps w1 h1
  split
  · apply hw.congr h1
  · rw [wp_bind]
    apply mapSwap_earned _ _ _ (hw.congr h1)

theorem mapSwaps_earned (taker : Bool) (entries : List (Σ _ : PaymentHash, SwapData))
    (hw : Holds Earned w) :
  Earned.Keeps G (mapSwaps taker entries) w
  := by
  induction entries generalizing w with
  | nil => apply hw
  | cons entry entries ih =>
    rw [SwapsProp.Keeps, mapSwaps, wp_bind]
    apply wp_mono (Q := fun _ => Holds Earned) (fun _ h => h)
    · intro _ w1 hw1
      rw [wp_bind]
      apply ih hw1
    · apply mapSwap_earned _ _ _ hw

theorem listSwaps_earned (hw : Holds Earned w) :
  Earned.Keeps G listSwaps w
  := by
  rw [SwapsProp.Keeps, listSwaps, wp_bind]
  apply wp_silent earned_durable (Silent.swapsOf true) hw
  intro takerSwaps w1 h1
  rw [wp_bind]
  apply wp_silent earned_durable (Silent.swapsOf false) (hw.congr h1)
  intro makerSwaps w2 h2
  rw [wp_bind]
  apply wp_mono (Q := fun _ => Holds Earned) (fun _ h => h)
  · intro _ w3 hw3
    rw [wp_bind]
    apply mapSwaps_earned _ _ hw3
  · apply mapSwaps_earned _ _ ((hw.congr h1).congr h2)

end Handlers

/-! ### Runs -/

/-- The calls that can change a taker swap. -/
inductive SwapCall where
  | node (c : NodeCall)
  | getSwap (paymentHash : Str) (taker : Bool)
  | listSwaps

section Runs

variable (contractIdFromStr : Str → Option ContractId)
variable (deserialize : Bytes → Option RgbPaymentInfo)

/-- The handler of a call.  Returns whether the call succeeds. -/
def SwapCall.handle : SwapCall → Node Bool
  | .node c => c.handle contractIdFromStr deserialize
  | .getSwap paymentHash taker => do
    let r ← RgbLightning.getSwap paymentHash taker
    pure r.isOk
  | .listSwaps => do
    let _ ← RgbLightning.listSwaps
    pure true

/-- A payment with the hash of a taker swap is reported as forwarded only after the node
has forwarded an intercepted HTLC with that hash. -/
def SwapCall.ForwardedBefore : SwapCall → World → Prop
  | .node (.event (.paymentForwarded e)), w => (w.takerSwaps.lookup e.paymentHash).isSome →
      ∃ g ∈ w.forwarded, g.paymentHash = e.paymentHash
  | _, _ => True

/-- The state of a node after a sequence of calls and restarts. -/
abbrev runSwaps (w : World) (as : List (Action SwapCall Fault)) :
    State World SwapCall Bool :=
  run nodeMachine (SwapCall.handle contractIdFromStr deserialize) ⟨[], w⟩ as

/-- A sequence of calls and restarts in which payments with the hash of a taker swap are
reported as forwarded only after the node has forwarded an HTLC for it. -/
abbrev ReportsForwards (w : World) (as : List (Action SwapCall Fault)) : Prop :=
  AllowsAll nodeMachine anyFate SwapCall.ForwardedBefore
    (SwapCall.handle contractIdFromStr deserialize) ⟨[], w⟩ as

theorem swapCall_earned {c : SwapCall} {w : World} (hc : c.ForwardedBefore w)
    (hw : Holds Earned w) :
  (c.handle contractIdFromStr deserialize).wp nodeMachine anyFate (Holds Earned)
    (fun _ => Holds Earned) w
  := by
  cases c with
  | node c =>
    cases c with
    | taker payload =>
      rw [SwapCall.handle, NodeCall.handle, wp_bind]
      apply wp_taker earned_durable contractIdFromStr payload hw
      intro s swap _ hwaiting
      apply Earned.insert hw
      rw [hwaiting]
      intro hstatus
      cases hstatus
    | authorizeSwap sender params =>
      rw [SwapCall.handle, NodeCall.handle, wp_bind]
      apply wp_authorizeSwap earned_whitelists contractIdFromStr sender params hw
    | event e =>
      rw [SwapCall.handle, NodeCall.handle, wp_bind]
      apply handleEvent_earned deserialize e hw
      rintro e' rfl
      apply hc
  | getSwap h taker =>
    rw [SwapCall.handle, wp_bind]
    apply getSwap_earned h taker hw
  | listSwaps =>
    rw [SwapCall.handle, wp_bind]
    apply listSwaps_earned hw

end Runs

/-! ### A swap and an ordinary payment with its hash -/

/-- The channel manager reports that a bitcoin payment with the hash of the sample swap was
forwarded from one channel to the other. -/
def sampleForwarded : PaymentForwarded where
  prevChannelId := some (List.Vector.replicate 32 1)
  nextChannelId := some (List.Vector.replicate 32 2)
  outboundAmountForwardedRgb := none
  inboundAmountForwardedRgb := none
  paymentHash := List.Vector.replicate 32 3

/-- The state of the sample node after some calls. -/
abbrev sampleSwapRun (as : List (Action SwapCall Fault)) :
    State World SwapCall Bool :=
  runSwaps sampleContractId (fun _ => none) sampleNode as

/-- A swap is taken, and a payment with its hash is routed without being intercepted. -/
def routedPayment : List (Action SwapCall Fault) :=
  [.call (.node (.taker samplePayload)) [],
    .call (.node (.event (.paymentForwarded sampleForwarded))) []]

/-- A swap is taken, its HTLC is intercepted and forwarded, and the channel manager reports
that. -/
def completedSwap : List (Action SwapCall Fault) :=
  [.call (.node (.taker samplePayload)) [],
    .call (.node (.event (.htlcIntercepted (payingHtlc 4)))) [],
    .call (.node (.event (.paymentForwarded sampleForwarded))) []]

end RgbLightning
