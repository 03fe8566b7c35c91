import RgbLightning.Store.Durability
import RgbLightning.Swap.Completion

/-!
# What an authorization reserves

A peer that redeems a linked asset is promised an amount of it until the authorization
expires.  The amounts promised in this way, and by the swaps that are waiting or pending,
are reserved: an authorization succeeds only if the largest balance of the asset in one
channel covers them all.

A request reads the balances before it locks the whitelist.  The node may answer other calls
in between, but from locking the whitelist on the request sees the reservations as they
are.  It adds its swap in memory, and takes it back when the whitelist cannot be saved.
-/

namespace RgbLightning

open Prog World SwapString

/-! ### Reservations -/

def SwapData.reserved (swap : SwapData) (contractId : ContractId) (now : ℕ) : ℕ :=
  if swap.reserves contractId now then swap.swapInfo.qtyFrom else 0

/-- What the swaps of a whitelist reserve of an asset. -/
def reservedTotal (takerSwaps : SwapMap) (contractId : ContractId) (now : ℕ) : ℕ :=
  Table.sum takerSwaps fun _ swap => swap.reserved contractId now

theorem reservedOutboundRgbAmount_eq (takerSwaps : SwapMap) (contractId : ContractId) (now : ℕ) :
  reservedOutboundRgbAmount takerSwaps contractId now
    = min (reservedTotal takerSwaps contractId now) u64Max
  := by
  rw [reservedOutboundRgbAmount, foldl_saturatingAdd _ _ _ (Nat.zero_le _), zero_add, List.map_map]
  rfl

variable {now : ℕ}

theorem SwapData.reserves_of_le {swap : SwapData} {contractId : ContractId} {now' : ℕ}
    (hle : now ≤ now') (h : swap.reserves contractId now') :
  swap.reserves contractId now
  := by
  simp only [SwapData.reserves, Bool.and_eq_true, decide_eq_true_eq] at h ⊢
  refine ⟨h.1, ?_⟩
  have h := h.2
  split at h
  · simp only [decide_eq_true_eq] at h ⊢
    omega
  · split at h
    · rfl
    · simp only [decide_eq_true_eq] at h ⊢
      omega
  all_goals cases h

theorem reservedTotal_anti (takerSwaps : SwapMap) (contractId : ContractId) {now' : ℕ}
    (hle : now ≤ now') :
  reservedTotal takerSwaps contractId now' ≤ reservedTotal takerSwaps contractId now
  := by
  apply Table.sum_mono
  intro _ swap
  simp only [SwapData.reserved]
  split_ifs with h' h
  · rfl
  · exact absurd (SwapData.reserves_of_le hle h') h
  · apply Nat.zero_le
  · rfl

theorem reservedTotal_insert_le {takerSwaps : SwapMap} {h : PaymentHash}
    (hnone : takerSwaps.lookup h = none) (swap : SwapData) (contractId : ContractId) (now : ℕ) :
  reservedTotal (takerSwaps.insert h swap) contractId now
    ≤ swap.swapInfo.qtyFrom + reservedTotal takerSwaps contractId now
  := by
  rw [reservedTotal, Table.sum_insert, Table.erase_of_lookup_eq_none hnone]
  apply Nat.add_le_add_right
  rw [SwapData.reserved]
  split_ifs
  · rfl
  · apply Nat.zero_le

/-- An amount that is available is available together with what is reserved, as no balance
exceeds the largest number. -/
theorem reservedTotal_add_le {takerSwaps : SwapMap} {contractId : ContractId} {amount : ℕ}
    {maxBalance : ℤ} (hmax : maxBalance ≤ u64Max) (hamount : amount ≠ 0)
    (havailable : (amount : ℤ)
      ≤ max (maxBalance - reservedOutboundRgbAmount takerSwaps contractId now) 0) :
  (amount : ℤ) + reservedTotal takerSwaps contractId now ≤ maxBalance
  := by
  rw [reservedOutboundRgbAmount_eq] at havailable
  omega

/-! ### The request -/

/-- What a request has established before it locks the whitelist. -/
structure Redemption (params : AssetLinkAuthorizeParams) where
  paymentHash : PaymentHash
  asset : ContractId
  linked : ContractId
  amount_ne_zero : params.amount ≠ 0
  maxBalance : ℤ

/-- The part of a request that needs no lock. -/
def prepareRedemption (contractIdFromStr : Str → Option ContractId)
    (params : AssetLinkAuthorizeParams) : Node (Except JsonRpcError (Redemption params)) := do
  match parsePaymentHash params.paymentHash with
  | none => pure (.error (.invalidParams "invalid_payment_hash"))
  | some paymentHash =>
    match contractIdFromStr params.assetId with
    | none => pure (.error (.invalidParams "invalid_asset_id"))
    | some asset =>
      match contractIdFromStr params.linkedAssetId with
      | none => pure (.error (.invalidParams "invalid_linked_asset_id"))
      | some linked =>
        if hamount : params.amount = 0 then
          pure (.error (.invalidParams "invalid_amount"))
        else if params.expirySec = 0 then
          pure (.error (.invalidParams "invalid_expiry_sec"))
        else if ← nodeOp .upgradeState then
          match ← checkLink params asset linked with
          | .error e => pure (.error e)
          | .ok _ =>
            let channels ← nodeOp .listChannels
            let maxBalance ← getMaxLocalRgbAmount asset channels
            pure (.ok ⟨paymentHash, asset, linked, hamount, maxBalance⟩)
        else
          pure (.error (.internalError "asset_link_state_unavailable"))

variable {params : AssetLinkAuthorizeParams}

/-- The part of a request that locks the whitelist. -/
def Redemption.reserve (r : Redemption params) (sender : PublicKey) :
    Node (Except JsonRpcError Unit) :=
  reserveRedemption sender params r.asset r.linked r.amount_ne_zero r.paymentHash r.maxBalance

/-- The swap a request adds to the whitelist. -/
def Redemption.swap (r : Redemption params) (sender : PublicKey) (now requestedAt : ℕ) :
    SwapData :=
  { SwapData.createFromSwapInfo (redemption params r.asset r.linked r.amount_ne_zero now)
      requestedAt with
    authorizedPeer := some sender }

/-- A request that has established what it needs reserves it. -/
def reserveIfPrepared (sender : PublicKey) :
    Except JsonRpcError (Redemption params) → Node (Except JsonRpcError Unit)
  | .error e => pure (.error e)
  | .ok r => r.reserve sender

/-- A request consists of its two parts. -/
theorem authorizeSwap_eq (contractIdFromStr : Str → Option ContractId) (sender : PublicKey)
    (params : AssetLinkAuthorizeParams) :
  authorizeSwap contractIdFromStr sender params
    = prepareRedemption contractIdFromStr params >>= reserveIfPrepared sender
  := by
  rw [authorizeSwap, prepareRedemption]
  rcases parsePaymentHash params.paymentHash with _ | paymentHash
  · rfl
  rcases contractIdFromStr params.assetId with _ | asset
  · rfl
  rcases contractIdFromStr params.linkedAssetId with _ | linked
  · rfl
  dsimp only
  split_ifs
  · rfl
  · rfl
  rw [Prog.bind_assoc]
  congr 1
  funext available
  split_ifs
  · rw [Prog.bind_assoc]
    congr 1
    funext link
    cases link with
    | error e => rfl
    | ok _ =>
      dsimp only
      rw [Prog.bind_assoc]
      congr 1
      funext channels
      rw [Prog.bind_assoc]
      rfl
  · rfl

/-! ### What a request asks the world -/

def NodeOp.isQuery : NodeOp → Bool
  | .listChannels => true
  | .readRgbChannelInfo _ _ => true
  | .upgradeState => true
  | .rgbGetAssetMetadata _ => true
  | .rgbFindLinkTransfer _ => true
  | _ => false

/-- A program that only asks. -/
abbrev Query {α : Type} (p : Node α) : Prop :=
  p.All fun o : NodeOp => o.isQuery

theorem Query.nodeOp {o : NodeOp} (ho : o.isQuery) :
  Query (nodeOp o)
  := ⟨ho, fun _ => trivial⟩

theorem exec_of_isQuery (o : NodeOp) (ho : o.isQuery) (f : Fault) (w : World) :
  w = (exec f o w).2
  := by
  cases o <;> first | rfl | cases ho

section Requests

variable {G : Guard nodeInterface World Fault} {w : World}

theorem wp_asking {α : Type} {p : Node α} (hp : Query p)
    {Q : α → World → Prop} (hQ : ∀ a, Q a w) :
  p.wp nodeMachine G (fun _ => True) Q w
  := by
  apply wp_frame (R := Eq) (fun _ => rfl) (fun _ _ _ => Eq.trans) exec_of_isQuery hp
  · rintro a _ rfl
    apply hQ
  · intros
    trivial
  · intros
    trivial

theorem Query.checkLink (params : AssetLinkAuthorizeParams) (asset linked : ContractId) :
  Query (checkLink params asset linked)
  := by
  apply All.bind (Query.nodeOp rfl)
  intro assetMetadata
  split
  · trivial
  apply All.bind (Query.nodeOp rfl)
  intro linkedMetadata
  split
  · trivial
  split
  · trivial
  split_ifs
  · trivial
  apply All.bind (Query.nodeOp rfl)
  intro transfer
  split <;> trivial

/-- The asset has this local balance in one of the channels. -/
def World.HasBalance (w : World) (contractId : ContractId) (balance : ℤ) : Prop :=
  ∃ chanInfo ∈ w.channels, ∃ rgbInfo,
    w.rgbInfo.lookup (hexStr chanInfo.channelId.toList, false) = some rgbInfo
      ∧ rgbInfo.contractId = contractId ∧ rgbInfo.localRgbAmount = balance

/-- The info of a channel is the one that is stored, when it can be read. -/
theorem wp_readRgbChannelInfo (channelId : ChannelId) (pending : Bool)
    {Q : Option RgbInfo → World → Prop} (hnone : Q none w)
    (hsome : ∀ info, w.rgbInfo.lookup (hexStr channelId.toList, pending) = some info →
      Q (some info) w) :
  (getRgbChannelInfoOptional channelId pending).wp nodeMachine G (fun _ => True) Q w
  := by
  rw [getRgbChannelInfoOptional, wp_bind]
  apply wp_fallible (k := id) (fun _ => rfl) trivial
  · cases hinfo : w.rgbInfo.lookup (hexStr channelId.toList, pending) with
    | none => apply hnone
    | some info => apply hsome info hinfo
  · intro _
    apply hnone

/-- The largest balance is none, or one of the balances. -/
theorem wp_getMaxLocalRgbAmount (contractId : ContractId) :
  (getMaxLocalRgbAmount contractId w.channels).wp nodeMachine G (fun _ => True)
    (fun m w' => w' = w ∧ (m = 0 ∨ w.HasBalance contractId m)) w
  := by
  rw [getMaxLocalRgbAmount]
  -- The channels still to be read are channels of the world.
  have hfrom : ∀ channels ⊆ w.channels, ∀ m, (m = 0 ∨ w.HasBalance contractId m) →
      (getMaxLocalRgbAmountFrom contractId channels m).wp nodeMachine G (fun _ => True)
        (fun m w' => w' = w ∧ (m = 0 ∨ w.HasBalance contractId m)) w := by
    intro channels
    induction channels with
    | nil =>
      intro _ m hm
      exact ⟨rfl, hm⟩
    | cons chanInfo channels ih =>
      intro hchannels m hm
      obtain ⟨hmem, hrest⟩ := List.cons_subset.mp hchannels
      rw [getMaxLocalRgbAmountFrom, wp_bind]
      apply wp_readRgbChannelInfo
      · apply ih hrest m hm
      intro info hinfo
      dsimp only
      split_ifs with hlarger
      · apply ih hrest
        exact .inr ⟨chanInfo, hmem, info, hinfo, hlarger.1, rfl⟩
      · apply ih hrest m hm
  apply hfrom _ (List.Subset.refl _) _ (.inl rfl)

/-- What a request establishes before it locks the whitelist. -/
theorem wp_prepareRedemption (contractIdFromStr : Str → Option ContractId)
    (params : AssetLinkAuthorizeParams) :
  (prepareRedemption contractIdFromStr params).wp nodeMachine G (fun _ => True)
    (fun result w' => w' = w ∧ ∀ r, result = .ok r →
      contractIdFromStr params.assetId = some r.asset
        ∧ contractIdFromStr params.linkedAssetId = some r.linked
        ∧ parsePaymentHash params.paymentHash = some r.paymentHash
        ∧ (r.maxBalance = 0 ∨ w.HasBalance r.asset r.maxBalance)) w
  := by
  rw [prepareRedemption]
  rcases hhash : parsePaymentHash params.paymentHash with _ | paymentHash
  · exact ⟨rfl, by intros; contradiction⟩
  rcases hasset : contractIdFromStr params.assetId with _ | asset
  · exact ⟨rfl, by intros; contradiction⟩
  rcases hlinked : contractIdFromStr params.linkedAssetId with _ | linked
  · exact ⟨rfl, by intros; contradiction⟩
  dsimp only
  split_ifs
  · exact ⟨rfl, by intros; contradiction⟩
  · exact ⟨rfl, by intros; contradiction⟩
  rw [wp_bind]
  apply wp_asking (Query.nodeOp rfl)
  intro available
  split_ifs
  · rw [wp_bind]
    apply wp_asking (Query.checkLink _ _ _)
    intro link
    cases link with
    | error e => exact ⟨rfl, by intros; contradiction⟩
    | ok _ =>
      refine ⟨fun _ => trivial, fun f _ => ?_⟩
      change (getMaxLocalRgbAmount asset w.channels >>= _).wp _ _ _ _ _
      apply wp_seq (wp_getMaxLocalRgbAmount asset)
      rintro maxBalance _ ⟨rfl, hmax⟩
      refine ⟨rfl, ?_⟩
      rintro _ ⟨⟩
      exact ⟨rfl, rfl, rfl, hmax⟩
  · exact ⟨rfl, by intros; contradiction⟩

end Requests

/-! ### What a request reserves -/

/-- A write that fails is not made. -/
def FailsUndone : Guard nodeInterface World Fault :=
  fun _ fate _ => ∀ e, fate ≠ .go (.lost e)

def takerSwapsKey : Key := ⟨[], [], str "taker_swaps"⟩

/-- The store is like that: a write of the whitelist that fails changes nothing. -/
theorem takerSwaps_write_failed {G : Guard storeInterface StoreWorld StoreFault}
    (s : SyncedKvStore) (buf : Bytes) (w : StoreWorld) :
  (s.write takerSwapsKey buf).wp storeMachine G (fun _ => True)
    (fun result w' => ∀ e, result = .error e → Unchanged w w') w
  := write_failed_wp (by decide) buf

theorem wp_save_undone {c : Cell} {w : World} {Q : Except IoError Unit → World → Prop}
    (hok : Q (.ok ()) (w.saved c)) (herror : ∀ e, Q (.error e) w) :
  (nodeOp (.save c)).wp nodeMachine FailsUndone (fun _ => True) Q w
  := by
  refine ⟨fun _ => trivial, fun f hf => ?_⟩
  cases f with
  | calm => apply hok
  | delay d => apply hok
  | fails e => apply herror
  | lost e => exact absurd rfl (hf e)

/-- What an authorization at the time `now` does to the whitelist: it has the new swap, which
exchanges equal amounts, in memory and in the store, and from then on the swaps of the
whitelist reserve no more of the asset than `balance`. -/
structure Authorized (params : AssetLinkAuthorizeParams) (r : Redemption params)
    (sender : PublicKey) (balance : ℤ) (w w' : World) (now : ℕ) (swap : SwapData) : Prop where
  clock : w.clock ≤ now ∧ now ≤ w'.clock
  isNew : w.takerSwaps.lookup r.paymentHash = none
  memory : w'.takerSwaps = w.takerSwaps.insert r.paymentHash swap
  disk : w'.takerSwapsOnDisk = w'.takerSwaps
  waiting : swap.status = .waiting ∧ swap.authorizedPeer = some sender
  gives : swap.swapInfo.fromAsset = some r.asset ∧ swap.swapInfo.qtyFrom = params.amount
  receives : swap.swapInfo.toAsset = some r.linked ∧ swap.swapInfo.qtyTo = params.amount
  live : now ≤ u64Max → swap.reserves r.asset now
  reserved : ∀ now', now ≤ now' → (reservedTotal w'.takerSwaps r.asset now' : ℤ) ≤ balance

variable {params : AssetLinkAuthorizeParams}
variable (r : Redemption params)

/-- A swap reserves what it gives when it is added. -/
theorem Redemption.reserves_swap (sender : PublicKey) (hnow : now ≤ u64Max) (requestedAt : ℕ) :
  (r.swap sender now requestedAt).reserves r.asset now
  := by
  have hexpiry : now
      ≤ saturatingAdd now (min params.expirySec assetLinkSwapAuthorizationMaxExpirySecs) :=
    le_min (Nat.le_add_right _ _) hnow
  rw [SwapData.reserves, Bool.and_eq_true]
  exact ⟨decide_eq_true rfl, decide_eq_true hexpiry⟩

theorem Redemption.authorized (sender : PublicKey) {balance : ℤ} {w w' : World} {requestedAt : ℕ}
    (hclock : w.clock ≤ now ∧ now ≤ w'.clock) (hnone : w.takerSwaps.lookup r.paymentHash = none)
    (hmemory : w'.takerSwaps
      = w.takerSwaps.insert r.paymentHash (r.swap sender now requestedAt))
    (hdisk : w'.takerSwapsOnDisk = w'.takerSwaps)
    (hbalance : (params.amount : ℤ) + reservedTotal w.takerSwaps r.asset now ≤ balance) :
  Authorized params r sender balance w w' now (r.swap sender now requestedAt)
  := by
  refine ⟨hclock, hnone, hmemory, hdisk, ⟨rfl, rfl⟩, ⟨rfl, rfl⟩, ⟨rfl, rfl⟩, ?_, ?_⟩
  · intro hnow
    apply r.reserves_swap sender hnow
  intro now' hle
  have htotal : reservedTotal w'.takerSwaps r.asset now'
      ≤ params.amount + reservedTotal w.takerSwaps r.asset now := by
    rw [hmemory]
    apply (reservedTotal_anti _ _ hle).trans
    apply reservedTotal_insert_le hnone
  omega

theorem wp_reserve {w : World} (hmax : r.maxBalance ≤ u64Max) (sender : PublicKey) :
  (r.reserve sender).wp nodeMachine FailsUndone (fun _ => True)
    (fun result w' =>
      (result = .ok () → 0 < r.maxBalance
          ∧ ∃ now swap, Authorized params r sender r.maxBalance w w' now swap)
        ∧ ∀ e, result = .error e → SameSwaps w w') w
  := by
  have hlocked := SameSwaps.setLocked w .takerSwaps true
  rw [Redemption.reserve, reserveRedemption, wp_bind]
  apply wp_lockCell trivial trivial
  intro _
  split
  · rw [wp_bind]
    apply wp_unlockCell trivial
    refine ⟨by intros; contradiction, fun _ _ => ?_⟩
    apply hlocked.trans (SameSwaps.setLocked _ _ _)
  rename_i hnone
  rw [Option.not_isSome_iff_eq_none] at hnone
  rw [wp_bind]
  apply wp_getCurrentTimestamp_le trivial
  intro now hnow
  split
  · rw [wp_bind]
    apply wp_unlockCell trivial
    refine ⟨by intros; contradiction, fun _ _ => ?_⟩
    exact ⟨by simp [World.takerSwaps, World.setLocked, World.setCell],
      by simp [World.takerSwapsOnDisk, World.setLocked, World.setCell], rfl⟩
  rename_i havailable
  rw [not_lt] at havailable
  have hbalance := reservedTotal_add_le hmax r.amount_ne_zero havailable
  rw [wp_bind]
  apply wp_getCurrentTimestamp_le trivial
  intro requestedAt hrequestedAt
  rw [wp_bind]
  apply wp_setCell trivial
  rw [wp_bind]
  apply wp_save_undone
  · rw [wp_bind]
    apply wp_unlockCell trivial
    have hamount := Nat.pos_of_ne_zero r.amount_ne_zero
    refine ⟨fun _ => ⟨by omega, now, r.swap sender now requestedAt, ?_⟩, by intros; contradiction⟩
    apply r.authorized sender
    · exact ⟨hnow, hrequestedAt⟩
    · apply hnone
    · simp [World.takerSwaps, World.saved, World.setMemory, World.setLocked, World.setCell]
      rfl
    · simp [World.takerSwaps, World.takerSwapsOnDisk, World.saved, World.setMemory,
        World.setLocked, World.setCell]
    · apply hbalance
  · intro e
    dsimp only
    rw [wp_bind]
    apply wp_setCell trivial
    rw [wp_bind]
    apply wp_unlockCell trivial
    refine ⟨by intros; contradiction, fun _ _ => ?_⟩
    rw [Table.erase_insert _ hnone]
    exact ⟨by simp [World.takerSwaps, World.setMemory, World.setLocked, World.setCell],
      by simp [World.takerSwapsOnDisk, World.setMemory, World.setLocked, World.setCell], rfl⟩

/-! ### Runs -/

section Runs

variable (contractIdFromStr : Str → Option ContractId)
variable (deserialize : Bytes → Option RgbPaymentInfo)

/-- A request during which the node answers other calls, after the request has read the
balances and before it locks the whitelist.  Returns the result of the request, the world
it finds when it locks the whitelist, and the world it leaves. -/
def authorizeAmid (sender : PublicKey) (params : AssetLinkAuthorizeParams)
    (others : List (Session.Action SwapCall Fault)) (w : World) (fs : List (Fate Fault)) :
    Option (Except JsonRpcError Unit) × World × World :=
  match (prepareRedemption contractIdFromStr params).exec nodeMachine w fs with
  | (some (.ok r), w', fs') =>
    let found := (runSwaps contractIdFromStr deserialize w' others).world
    ((r.reserve sender).result nodeMachine found fs', found,
      (r.reserve sender).world nodeMachine found fs')
  | (some (.error e), w', _) => (some (.error e), w, w')
  | (none, w', _) => (none, w, w')

/-- A request during which there are no other calls. -/
theorem authorizeAmid_nil (sender : PublicKey) (params : AssetLinkAuthorizeParams) (w : World)
    (fs : List (Fate Fault)) :
  let amid := authorizeAmid contractIdFromStr deserialize sender params [] w fs
  amid.1 = (authorizeSwap contractIdFromStr sender params).result nodeMachine w fs
    ∧ amid.2.2 = (authorizeSwap contractIdFromStr sender params).world nodeMachine w fs
  := by
  rw [authorizeSwap_eq, result, world, exec_bind]
  simp only [authorizeAmid]
  rcases (prepareRedemption contractIdFromStr params).exec nodeMachine w fs with
    ⟨_ | e | r, w', fs'⟩
  · exact ⟨rfl, rfl⟩
  · exact ⟨rfl, rfl⟩
  · exact ⟨rfl, rfl⟩

/-- The balances are 64-bit numbers. -/
def World.BalancesFit (w : World) : Prop :=
  ∀ e ∈ w.rgbInfo.entries, e.2.localRgbAmount ≤ u64Max
deriving Decidable

theorem World.HasBalance.le {w : World} (hw : w.BalancesFit) {contractId : ContractId}
    {balance : ℤ} (h : w.HasBalance contractId balance) :
  balance ≤ u64Max
  := by
  obtain ⟨_, _, info, hinfo, _, rfl⟩ := h
  apply hw _ (AList.mem_lookup_iff.mp hinfo)

/-- After any calls, and whatever the node answers meanwhile, a request that succeeds adds a
swap of equal amounts to the whitelist, in memory and in the store, such that the swaps of
the whitelist reserve no more of the asset than its balance in one channel.  A request that
fails leaves the whitelist as it finds it, in memory and in the store. -/
theorem authorizeSwap_reserves (w : World) (before during : List (Session.Action SwapCall Fault))
    (hbalances : (runSwaps contractIdFromStr deserialize w before).world.BalancesFit)
    (sender : PublicKey) (params : AssetLinkAuthorizeParams) (fs : List (Fate Fault))
    (hfs : ∀ e, Fate.go (Fault.lost e) ∉ fs) :
  let w₁ := (runSwaps contractIdFromStr deserialize w before).world
  let request := authorizeAmid contractIdFromStr deserialize sender params during w₁ fs
  (request.1 = some (.ok ()) →
      ∃ (r : Redemption params) (balance : ℤ) (now : ℕ) (swap : SwapData),
        contractIdFromStr params.assetId = some r.asset
          ∧ contractIdFromStr params.linkedAssetId = some r.linked
          ∧ parsePaymentHash params.paymentHash = some r.paymentHash
          ∧ w₁.HasBalance r.asset balance
          ∧ Authorized params r sender balance request.2.1 request.2.2 now swap)
    ∧ ∀ e, request.1 = some (.error e) → SameSwaps request.2.1 request.2.2
  := by
  intro w₁ request
  have hundone : ∀ fs' : List (Fate Fault), fs' <:+ fs → ∀ f ∈ fs', ∀ o w, FailsUndone o f w := by
    rintro fs' hsuffix f hf o w e rfl
    apply hfs e (hsuffix.subset hf)
  have hcalm : ∀ o w, FailsUndone o (.go nodeMachine.calm) w := by
    rintro o w e ⟨⟩
  have hadmits : ∀ {α : Type} (p : Node α) (w : World) (fs' : List (Fate Fault)), fs' <:+ fs →
      p.Admits nodeMachine FailsUndone w fs' := by
    intro α p w fs' hsuffix
    apply admits_of_forall hcalm p w fs' (hundone fs' hsuffix)
  obtain ⟨hprepared, -⟩ := exec_of_wp _ w₁ fs
    (wp_prepareRedemption contractIdFromStr params) (hadmits _ _ _ List.suffix_rfl)
  have hrest := exec_fates nodeMachine (prepareRedemption contractIdFromStr params) w₁ fs
  simp only [result, world] at hprepared
  simp only [request, authorizeAmid]
  generalize (prepareRedemption contractIdFromStr params).exec nodeMachine w₁ fs = x
    at hprepared hrest ⊢
  obtain ⟨_ | e | r, w', fs'⟩ := x
  · exact ⟨by intros; contradiction, by intros; contradiction⟩
  · obtain ⟨rfl, -⟩ := hprepared _ rfl
    refine ⟨by simp, fun _ _ => ?_⟩
    apply SameSwaps.refl
  obtain ⟨-, hr⟩ := hprepared _ rfl
  obtain ⟨hasset, hlinked, hhash, hmax⟩ := hr r rfl
  have hfits : r.maxBalance ≤ u64Max := by
    rcases hmax with hzero | hbalance
    · rw [hzero]
      exact Int.natCast_nonneg _
    · apply hbalance.le hbalances
  obtain ⟨hreserved, -⟩ := exec_of_wp _
    (runSwaps contractIdFromStr deserialize w' during).world fs'
    (wp_reserve r hfits sender) (hadmits _ _ _ hrest)
  constructor
  · intro hok
    obtain ⟨hauthorized, -⟩ := hreserved _ hok
    obtain ⟨hpos, now, swap, hauthorized⟩ := hauthorized rfl
    refine ⟨r, r.maxBalance, now, swap, hasset, hlinked, hhash, ?_, hauthorized⟩
    apply hmax.resolve_left
    omega
  · intro e herror
    obtain ⟨-, hsame⟩ := hreserved _ herror
    apply hsame e rfl

end Runs

/-! ### Requests that share a balance -/

/-- A reader of asset names that knows two assets. -/
def linkedContractId (s : Str) : Option ContractId :=
  if s = str "asset" then some (List.Vector.replicate 32 7)
  else if s = str "linked" then some (List.Vector.replicate 32 8)
  else none

/-- A node with 100 units of an asset that is linked to another one. -/
def redeemingNode : World :=
  { freshWorld with
    channels := [sampleChannel 1]
    rgbInfo := Table.ofList
      [((hexStr (List.replicate 32 1), false), ⟨List.Vector.replicate 32 7, 100, 0⟩)]
    metadata := fun c =>
      if c = List.Vector.replicate 32 7 then some ⟨.ifa, some (str "linked"), none⟩
      else some ⟨.ifa, none, some (str "asset")⟩
    linkTransfer := fun _ => some (some .settled) }

/-- A request for an amount of the asset, for a payment hash with the given number. -/
def sampleRequest (n : UInt8) (amount : ℕ) : AssetLinkAuthorizeParams :=
  ⟨hexStr (List.replicate 32 n), str "asset", str "linked", amount, 60⟩

/-- A peer makes such a request. -/
def requested (n : UInt8) (amount : ℕ) : Session.Action SwapCall Fault :=
  .call (.node (.authorizeSwap (List.Vector.replicate 33 1) (sampleRequest n amount))) []

/-- The state of the node after a peer has requested 60 units. -/
def sixtyReserved : World :=
  (runSwaps linkedContractId (fun _ => none) redeemingNode [requested 1 60]).world

/-- Another peer requests 10 units, and while the node answers it a third one requests 30
units. -/
def tenMore : Option (Except JsonRpcError Unit) × World × World :=
  authorizeAmid linkedContractId (fun _ => none) (List.Vector.replicate 33 2) (sampleRequest 2 10)
    [requested 3 30] sixtyReserved []

theorem authorizeSwap_reserves_tenMore :
  tenMore.1 = some (.ok ()) ∧
    ∃ (r : Redemption (sampleRequest 2 10)) (balance : ℤ) (now : ℕ) (swap : SwapData),
      linkedContractId (str "asset") = some r.asset
        ∧ linkedContractId (str "linked") = some r.linked
        ∧ parsePaymentHash (sampleRequest 2 10).paymentHash = some r.paymentHash
        ∧ sixtyReserved.HasBalance r.asset balance
        ∧ Authorized (sampleRequest 2 10) r (List.Vector.replicate 33 2) balance tenMore.2.1
            tenMore.2.2 now swap
  := by
  have hok : tenMore.1 = some (.ok ()) := by
    decide +kernel
  have hfit : sixtyReserved.BalancesFit := by
    decide +kernel
  refine ⟨hok, (authorizeSwap_reserves linkedContractId (fun _ => none) redeemingNode
    [requested 1 60] [requested 3 30] hfit (List.Vector.replicate 33 2) (sampleRequest 2 10) []
    (fun _ => List.not_mem_nil)).1 hok⟩

end RgbLightning
