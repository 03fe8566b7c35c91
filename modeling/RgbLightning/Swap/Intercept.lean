import RgbLightning.Swap.Whitelist

/-!
# The interception of swap HTLCs

An intercepted HTLC is forwarded if its payment hash is whitelisted, the entry can still
be used, and the HTLC pays what the entry asks for.  What is compared depends on which
side of the swap is bitcoin (`swapMismatch`).

`htlcIntercepted_wp` says what the handler does when it forwards an HTLC: the entry was
waiting, or pending for the same HTLC; the comparisons of its branch succeeded; and the
entry is pending for this HTLC in memory and in the store before the HTLC is forwarded.
-/

namespace RgbLightning

def rejectIntercept (id : InterceptId) : Node (Except ReplayEvent Unit) := do
  let _ ← nodeOp (.failInterceptedHtlc id)
  pure (.ok ())

/-- Whether an HTLC pair differs from what the whitelist entry asks for.  The contracts
are those of the inbound and of the outbound channel. -/
def swapMismatch (info : SwapInfo) (e : HTLCIntercepted)
    (inboundContract outboundContract : Option ContractId) : Bool :=
  if info.isFromBtc then
    let netMsatDiff := checkedSub e.expectedOutboundAmountMsat e.inboundAmountMsat
    e.inboundRgbAmount ≠ some info.qtyTo
      || inboundContract ≠ info.toAsset
      || netMsatDiff ≠ some info.qtyFrom
  else if info.isToBtc then
    let netMsatDiff := e.inboundAmountMsat - e.expectedOutboundAmountMsat
    e.expectedOutboundRgbPayment ≠ info.fromAsset.map (·, info.qtyFrom)
      || outboundContract ≠ info.fromAsset
      || netMsatDiff ≠ info.qtyTo
  else
    let netMsatDiff := checkedSub e.inboundAmountMsat e.expectedOutboundAmountMsat
    netMsatDiff ≠ some 0
      || e.expectedOutboundRgbPayment ≠ info.fromAsset.map (·, info.qtyFrom)
      || outboundContract ≠ info.fromAsset
      || e.inboundRgbAmount ≠ some info.qtyTo
      || inboundContract ≠ info.toAsset

/-- Whether a whitelist entry can be used for an HTLC. -/
def SwapData.forwardable (swap : SwapData) (id : InterceptId) : Bool :=
  match swap.status with
  | .waiting => true
  | .pending => swap.pendingInterceptId = some id
  | _ => false

variable (e : HTLCIntercepted)

def forwardSwap (outboundChannel : ChannelDetails) :
    Node (Except ReplayEvent Unit) := do
  updateTakerSwapPendingIntercept e.paymentHash e.interceptId
  match ← nodeOp (.forwardInterceptedHtlc ⟨e.paymentHash, e.interceptId,
      e.requestedNextHopScid, outboundChannel.counterparty, e.expectedOutboundAmountMsat,
      e.expectedOutboundRgbPayment⟩) with
  | .ok _ => pure (.ok ())
  | .error _ =>
    updateTakerSwapStatus e.paymentHash .failed
    rejectIntercept e.interceptId

def checkSwap (inboundChannel outboundChannel : ChannelDetails)
    (inboundContract outboundContract : Option ContractId) (swap : SwapData) :
    Node (Except ReplayEvent Unit) := do
  if !swap.forwardable e.interceptId then
    rejectIntercept e.interceptId
  else if swap.authorizedPeer.any (inboundChannel.counterparty ≠ ·) then
    rejectIntercept e.interceptId
  else
    let now ← getCurrentTimestamp
    if now > swap.swapInfo.expiry then
      updateTakerSwapStatus e.paymentHash .expired
      rejectIntercept e.interceptId
    else if swapMismatch swap.swapInfo e inboundContract outboundContract then
      updateTakerSwapStatus e.paymentHash .failed
      rejectIntercept e.interceptId
    else
      forwardSwap e outboundChannel

def findSwap (inboundChannel outboundChannel : ChannelDetails) :
    Node (Except ReplayEvent Unit) := do
  let inboundRgbInfo ← getRgbChannelInfoOptional inboundChannel.channelId true
  let outboundRgbInfo ← getRgbChannelInfoOptional outboundChannel.channelId true
  let swaps ← lockCell .takerSwaps
  match swaps.lookup e.paymentHash with
  | none =>
    let r ← rejectIntercept e.interceptId
    unlockCell .takerSwaps
    pure r
  | some swap =>
    unlockCell .takerSwaps
    checkSwap e inboundChannel outboundChannel (inboundRgbInfo.map (·.contractId))
      (outboundRgbInfo.map (·.contractId)) swap

def findInbound (channels : List ChannelDetails) :
    Option ChannelDetails :=
  channels.find? fun c => c.outboundScidAlias = some e.prevOutboundScidAlias

def findOutbound (channels : List ChannelDetails) :
    Option ChannelDetails :=
  channels.find? fun c => c.shortChannelId = some e.requestedNextHopScid
    ∨ c.outboundScidAlias = some e.requestedNextHopScid

def htlcIntercepted : Node (Except ReplayEvent Unit) := do
  if !e.isSwap then
    rejectIntercept e.interceptId
  else
    let channels ← nodeOp .listChannels
    match findInbound e channels with
    | none => rejectIntercept e.interceptId
    | some inboundChannel =>
      let channels ← nodeOp .listChannels
      match findOutbound e channels with
      | none => rejectIntercept e.interceptId
      | some outboundChannel => findSwap e inboundChannel outboundChannel

/-! ### What the handler does -/

open Prog

/-- A whitelist entry that the given HTLC has used up. -/
def SwapData.UsedBy (swap : SwapData) (id : InterceptId) : Prop :=
  swap.status.isFinal ∨ swap.status = .pending ∧ swap.pendingInterceptId = some id

/-- Every HTLC that was forwarded has used up the whitelist entry of its payment hash. -/
def Spent (m : SwapMap) (fs : List Forward) : Prop :=
  ∀ g ∈ fs, ∃ swap, m.lookup g.paymentHash = some swap ∧ swap.UsedBy g.interceptId

/-- Every HTLC that was forwarded has used up its entry in memory and in the store, and no
two of them with the same payment hash differ. -/
structure OnePerHash (m d : SwapMap) (fs : List Forward) : Prop where
  memory : Spent m fs
  disk : Spent d fs
  unique : ∀ g ∈ fs, ∀ g' ∈ fs, g.paymentHash = g'.paymentHash → g.interceptId = g'.interceptId

theorem onePerHash_durable :
  SwapsProp.Durable OnePerHash
  := fun _ _ _ h => ⟨h.disk, h.disk, h.unique⟩

def World.contractOf (w : World) (channelId : ChannelId) : Option ContractId :=
  (w.rgbInfo.lookup (hexStr channelId.toList, true)).map (·.contractId)

/-- A contract read from a channel: the one it has, or none if it could not be read. -/
def World.MayRead (w : World) (channelId : ChannelId) (contract : Option ContractId) : Prop :=
  contract = none ∨ contract = w.contractOf channelId

/-- What holds of a world in which an HTLC is forwarded under a whitelist entry. -/
structure Accepts (w : World) (e : HTLCIntercepted) (swap : SwapData)
    (inbound outbound : ChannelDetails) : Prop where
  entry : w.takerSwaps.lookup e.paymentHash = some swap
  findInbound : findInbound e w.channels = some inbound
  findOutbound : findOutbound e w.channels = some outbound
  forwardable : swap.forwardable e.interceptId
  matched : ∃ inboundContract outboundContract, w.MayRead inbound.channelId inboundContract
    ∧ w.MayRead outbound.channelId outboundContract
    ∧ swapMismatch swap.swapInfo e inboundContract outboundContract = false

/-- The HTLC the handler hands to the channel manager. -/
def HTLCIntercepted.forward (outbound : ChannelDetails) : Forward :=
  ⟨e.paymentHash, e.interceptId, e.requestedNextHopScid, outbound.counterparty,
    e.expectedOutboundAmountMsat, e.expectedOutboundRgbPayment⟩

@[simp]
theorem HTLCIntercepted.forward_amtToForwardMsat (e : HTLCIntercepted)
    (outbound : ChannelDetails) :
  (e.forward outbound).amtToForwardMsat = e.expectedOutboundAmountMsat
  := rfl
/-- What the handler of an HTLC may have done at any point: it forwarded nothing, or the
HTLC under an entry that accepts it; and every HTLC forwarded still has its own entry. -/
def Handles (w : World) (e : HTLCIntercepted) : SwapsProp := fun m d fs =>
  (fs = w.forwarded ∨ ∃ swap inbound outbound, Accepts w e swap inbound outbound
      ∧ fs = w.forwarded ++ [e.forward outbound])
    ∧ (OnePerHash w.takerSwaps w.takerSwapsOnDisk w.forwarded → OnePerHash m d fs)

theorem handles_durable (w : World) (e : HTLCIntercepted) :
  (Handles w e).Durable
  := fun _ _ _ h => ⟨h.1, fun hone => onePerHash_durable _ _ _ (h.2 hone)⟩

theorem handles_self (w : World) (e : HTLCIntercepted) :
  (Handles w e).Holds w
  := ⟨.inl rfl, fun h => h⟩

/-! ### Changes of an entry -/

section Entries

variable {m d : SwapMap} {fs : List Forward} {h : PaymentHash} {swap : SwapData}

variable {status : SwapStatus}

section Spent

variable (hspent : Spent m fs)
include hspent

theorem Spent.finish (hstatus : status.isFinal) (now : ℕ) :
  Spent (m.insert h (swap.finish status now)) fs
  := by
  intro g hg
  rw [Table.lookup_insert_eq]
  split_ifs with hh
  · exact ⟨_, rfl, .inl hstatus⟩
  · apply hspent g hg

/-- An entry may become pending for the HTLC that used it up. -/
theorem Spent.pendFor {id : InterceptId} (hid : ∀ g ∈ fs, g.paymentHash = h → g.interceptId = id)
    (now : ℕ) :
  Spent (m.insert h (swap.pendFor id now)) fs
  := by
  intro g hg
  rw [Table.lookup_insert_eq]
  split_ifs with hh
  · refine ⟨_, rfl, .inr ⟨rfl, ?_⟩⟩
    rw [hid g hg hh]
    rfl
  · apply hspent g hg

theorem Spent.eq_of_forwardable (hswap : m.lookup h = some swap) {id : InterceptId}
    (hfwd : swap.forwardable id) {g : Forward} (hg : g ∈ fs) (hh : g.paymentHash = h) :
  g.interceptId = id
  := by
  obtain ⟨swap', hswap', hused⟩ := hspent g hg
  rw [hh, hswap, Option.some.injEq] at hswap'
  subst hswap'
  rcases hused with hfinal | ⟨hpending, hid⟩
  · revert hfwd hfinal
    rw [SwapData.forwardable]
    cases swap.status <;> simp [SwapStatus.isFinal]
  · rw [SwapData.forwardable, hpending] at hfwd
    have hid' := of_decide_eq_true hfwd
    rw [hid'] at hid
    apply (Option.some.inj hid).symm

/-- Forwarding an HTLC its entry is pending for. -/
theorem Spent.snoc {g : Forward} (hswap : m.lookup g.paymentHash = some swap)
    (hused : swap.UsedBy g.interceptId) :
  Spent m (fs ++ [g])
  := by
  intro g' hg'
  rcases List.mem_append.mp hg' with hg' | hg'
  · apply hspent g' hg'
  · rw [List.mem_singleton.mp hg']
    exact ⟨swap, hswap, hused⟩

end Spent

theorem OnePerHash.finish (hone : OnePerHash m d fs) (hstatus : status.isFinal) (now : ℕ) :
  OnePerHash (m.insert h (swap.finish status now)) d fs
    ∧ OnePerHash (m.insert h (swap.finish status now)) (m.insert h (swap.finish status now)) fs
  := by
  have hm : Spent (m.insert h (swap.finish status now)) fs := hone.memory.finish hstatus now
  exact ⟨⟨hm, hone.disk, hone.unique⟩, ⟨hm, hm, hone.unique⟩⟩

theorem Handles.finish {w : World} {e : HTLCIntercepted} (hw : Handles w e m d fs)
    (hstatus : status.isFinal) (now : ℕ) :
  Handles w e (m.insert h (swap.finish status now)) d fs
    ∧ Handles w e (m.insert h (swap.finish status now)) (m.insert h (swap.finish status now)) fs
  := by
  constructor
  · exact ⟨hw.1, fun hone => ((hw.2 hone).finish hstatus now).1⟩
  · exact ⟨hw.1, fun hone => ((hw.2 hone).finish hstatus now).2⟩

end Entries

/-! ### The handler -/

section Handler

variable {G : Guard nodeInterface World Fault} {w w' : World} {e : HTLCIntercepted}

theorem Plain.rejectIntercept (id : InterceptId) :
  Plain (rejectIntercept id)
  := ⟨rfl, fun _ => trivial⟩

theorem wp_rejectIntercept (hw : (Handles w e).Holds w') :
  (Handles w e).Keeps G (rejectIntercept e.interceptId) w'
  := by
  apply wp_silent (handles_durable w e) (Silent.of_plain (Plain.rejectIntercept _)) hw
  intro _ w'' h
  apply hw.congr h

theorem wp_finishAndReject (hw : (Handles w e).Holds w') {status : SwapStatus}
    (hstatus : status.isFinal) :
  (Handles w e).Keeps G (updateTakerSwapStatus e.paymentHash status >>= fun _ => rejectIntercept
    e.interceptId) w'
  := by
  rw [SwapsProp.Keeps, wp_bind]
  apply wp_mono (Q := fun _ => (Handles w e).Holds) (fun _ h => h)
  · intro _ w'' hw''
    apply wp_rejectIntercept hw''
  · apply wp_updateTakerSwapStatus (handles_durable w e) hw hstatus
    intro swap now _
    apply Handles.finish hw hstatus

variable {C : World → Prop}

theorem wp_forwardInterceptedHtlc {g : Forward} {Q : Except IoError Unit → World → Prop}
    (hcrash : C w.reboot) (hok : Q (.ok ()) { w with forwarded := w.forwarded ++ [g] })
    (herror : ∀ err, Q (.error err) w) :
  (nodeOp (.forwardInterceptedHtlc g)).wp nodeMachine G C Q w
  := by
  refine ⟨fun _ => hcrash, fun f _ => ?_⟩
  cases f with
  | fails err => apply herror
  | lost err => apply herror
  | calm => apply hok
  | delay d => apply hok

variable {inbound outbound : ChannelDetails}
variable {swap : SwapData}

section Accepts

variable (hacc : Accepts w e swap inbound outbound)
include hacc

/-- The entry of an accepted HTLC may become pending for it. -/
theorem Accepts.onePerHash_pendFor (now : ℕ)
    (hone : OnePerHash w.takerSwaps w.takerSwapsOnDisk w.forwarded) :
  Spent (w.takerSwaps.insert e.paymentHash (swap.pendFor e.interceptId now)) w.forwarded
  := by
  apply hone.memory.pendFor
  intro g hg hh
  apply hone.memory.eq_of_forwardable hacc.entry hacc.forwardable hg hh

theorem Accepts.onePerHash_snoc (now : ℕ)
    (hone : OnePerHash w.takerSwaps w.takerSwapsOnDisk w.forwarded) :
  let m := w.takerSwaps.insert e.paymentHash (swap.pendFor e.interceptId now)
  OnePerHash m m (w.forwarded ++ [e.forward outbound])
  := by
  intro m
  have hm : Spent m (w.forwarded ++ [e.forward outbound]) := by
    apply (hacc.onePerHash_pendFor now hone).snoc (AList.lookup_insert _)
    exact .inr ⟨rfl, rfl⟩
  have hold : ∀ g ∈ w.forwarded, g.paymentHash = e.paymentHash → g.interceptId = e.interceptId :=
    fun g hg hh => hone.memory.eq_of_forwardable hacc.entry hacc.forwardable hg hh
  refine ⟨hm, hm, fun g hg g' hg' hh => ?_⟩
  rcases List.mem_append.mp hg with hg | hg <;> rcases List.mem_append.mp hg' with hg' | hg'
  · apply hone.unique g hg g' hg' hh
  · rw [List.mem_singleton.mp hg'] at hh ⊢
    apply hold g hg hh
  · rw [List.mem_singleton.mp hg] at hh ⊢
    apply (hold g' hg' hh.symm).symm
  · rw [List.mem_singleton.mp hg, List.mem_singleton.mp hg']

theorem forwardSwap_wp (hsame : SameSwaps w w') :
  (Handles w e).Keeps G (forwardSwap e outbound) w'
  := by
  have hdur := handles_durable w e
  have hw' : (Handles w e).Holds w' := (handles_self w e).congr hsame
  rw [SwapsProp.Keeps, forwardSwap, wp_bind]
  apply wp_updateTakerSwapPendingIntercept hdur hw'
  · intro swap' now hswap'
    rw [hsame.memory, hacc.entry, Option.some.injEq] at hswap'
    subst hswap'
    rw [hsame.memory, hsame.disk, hsame.forwarded]
    constructor
    · refine ⟨.inl rfl, fun hone => ⟨?_, hone.disk, hone.unique⟩⟩
      apply hacc.onePerHash_pendFor now hone
    · refine ⟨.inl rfl, fun hone => ⟨?_, ?_, hone.unique⟩⟩ <;>
        apply hacc.onePerHash_pendFor now hone
  intro swap' now w2 hswap' hm hd hf
  rw [hsame.memory, hacc.entry, Option.some.injEq] at hswap'
  subst hswap'
  rw [hsame.memory] at hm hd
  rw [hsame.forwarded] at hf
  have hw2 : (Handles w e).Holds w2 := by
    rw [SwapsProp.Holds, hm, hd, hf]
    refine ⟨.inl rfl, fun hone => ⟨?_, ?_, hone.unique⟩⟩ <;>
      apply hacc.onePerHash_pendFor now hone
  rw [wp_bind]
  apply wp_forwardInterceptedHtlc (hdur.reboot hw2)
  · change Handles w e w2.takerSwaps w2.takerSwapsOnDisk (w2.forwarded ++ [e.forward outbound])
    rw [hm, hd, hf]
    exact ⟨.inr ⟨swap, inbound, outbound, hacc, rfl⟩, hacc.onePerHash_snoc now⟩
  · intro _
    apply wp_finishAndReject hw2 rfl

end Accepts

theorem checkSwap_wp {inboundContract outboundContract : Option ContractId}
    (hentry : w.takerSwaps.lookup e.paymentHash = some swap)
    (hinbound : findInbound e w.channels = some inbound)
    (houtbound : findOutbound e w.channels = some outbound)
    (hic : w.MayRead inbound.channelId inboundContract)
    (hoc : w.MayRead outbound.channelId outboundContract) (hsame : SameSwaps w w') :
  (Handles w e).Keeps G (checkSwap e inbound outbound inboundContract outboundContract swap) w'
  := by
  have hw' : (Handles w e).Holds w' := (handles_self w e).congr hsame
  rw [SwapsProp.Keeps, checkSwap]
  split
  · apply wp_rejectIntercept hw'
  rename_i hfwd
  split
  · apply wp_rejectIntercept hw'
  rw [wp_bind]
  apply wp_silent (handles_durable w e) Silent.getCurrentTimestamp hw'
  intro now w2 h2
  split_ifs with hexpiry hmatch
  · apply wp_finishAndReject (hw'.congr h2) rfl
  · apply wp_finishAndReject (hw'.congr h2) rfl
  have hacc : Accepts w e swap inbound outbound :=
    ⟨hentry, hinbound, houtbound, by simpa using hfwd,
      ⟨_, _, hic, hoc, Bool.eq_false_iff.mpr hmatch⟩⟩
  apply forwardSwap_wp hacc (hsame.trans h2)

theorem wp_listChannels {Q : List ChannelDetails → World → Prop} (hcrash : C w.reboot)
    (hQ : Q w.channels w) :
  (nodeOp .listChannels).wp nodeMachine G C Q w
  := ⟨fun _ => hcrash, fun _ _ => hQ⟩

theorem wp_getRgbChannelInfoOptional {Q : Option RgbInfo → World → Prop} {channelId : ChannelId}
    (hcrash : C w.reboot) (hQ : ∀ info, w.MayRead channelId (info.map (·.contractId)) → Q info w) :
  (getRgbChannelInfoOptional channelId true).wp nodeMachine G C Q w
  := by
  refine ⟨fun _ => hcrash, fun f _ => ?_⟩
  cases f with
  | fails err => apply hQ none (.inl rfl)
  | lost err => apply hQ none (.inl rfl)
  | _ =>
    simp only [World.exec, answer, Fault.error?]
    rcases hinfo : w.rgbInfo.lookup (hexStr channelId.toList, true) with _ | info
    · apply hQ none (.inl rfl)
    · apply hQ (some info) (.inr _)
      rw [World.contractOf, hinfo]

theorem findSwap_wp (hinbound : findInbound e w.channels = some inbound)
    (houtbound : findOutbound e w.channels = some outbound) :
  (Handles w e).Keeps G (findSwap e inbound outbound) w
  := by
  have hdur := handles_durable w e
  have hw := handles_self w e
  rw [SwapsProp.Keeps, findSwap, wp_bind]
  apply wp_getRgbChannelInfoOptional (hdur.reboot hw)
  intro inboundInfo hic
  rw [wp_bind]
  apply wp_getRgbChannelInfoOptional (hdur.reboot hw)
  intro outboundInfo hoc
  rw [wp_bind]
  apply wp_lockTakerSwaps hdur hw
  intro w1 h1
  split
  · have hsilent : Silent (rejectIntercept e.interceptId >>= fun r =>
        unlockCell .takerSwaps >>= fun _ => (pure r : Node (Except ReplayEvent Unit))) :=
      All.bind (Silent.of_plain (Plain.rejectIntercept _)) fun _ => ⟨rfl, fun _ => trivial⟩
    apply wp_silent hdur hsilent (hw.congr h1)
    intro _ w2 h2
    apply hw.congr (h1.trans h2)
  · rename_i swap hswap
    rw [wp_bind]
    apply wp_unlockCell (hdur.reboot (hw.congr h1))
    apply checkSwap_wp hswap hinbound houtbound hic hoc (h1.trans (SameSwaps.setLocked _ _ _))

/-- At every point of handling an HTLC, the handler has forwarded nothing, or the HTLC
under an entry that accepts it. -/
theorem htlcIntercepted_wp (w : World) (e : HTLCIntercepted) :
  (Handles w e).Keeps G (htlcIntercepted e) w
  := by
  have hcrash := (handles_durable w e).reboot (handles_self w e)
  rw [SwapsProp.Keeps, htlcIntercepted]
  split_ifs
  · apply wp_rejectIntercept (handles_self w e)
  rw [wp_bind]
  apply wp_listChannels hcrash
  split
  · apply wp_rejectIntercept (handles_self w e)
  rw [wp_bind]
  apply wp_listChannels hcrash
  split
  · apply wp_rejectIntercept (handles_self w e)
  · rename_i inbound hinbound _ outbound houtbound
    apply findSwap_wp hinbound houtbound

end Handler

end RgbLightning
