import RgbLightning.Swap.Forwarding
import RgbLightning.Swap.Maker

/-!
# Carrying out a swap again

The channel manager refuses to send a payment under the id of one in flight.  The maker's
call treats this like every failure to send: it has written the markers of the swap over
those of the payment in flight, removes them, and sets the swap to failed.

`MakerEnv.makerExecute_inFlight_iff` says when such a call leaves the swap and its markers alone.
-/

namespace RgbLightning

open Prog

/-! ### Markers -/

/-- The markers of a payment hash are gone in one direction, and those of the other direction
are untouched. -/
structure Cleared (h : PaymentHash) (inbound : Bool) (rows rows' : Table Key Bytes) : Prop where
  removed : ∀ key, pendingSuffix h <:+ key → rows'.lookup (paymentKey inbound key) = none
  kept : ∀ key, rows'.lookup (paymentKey (!inbound) key)
    = rows.lookup (paymentKey (!inbound) key)

section Calm

variable {C : World → Prop} {w : World} {h : PaymentHash}
variable {Q : Unit → World → Prop}

theorem removeKeys_calm (inbound : Bool) (keys : List Str) (hQ : ∀ rows : Table Key Bytes,
      (∀ k, rows.lookup k
        = if k ∈ keys.map (paymentKey inbound) then none else w.rows.lookup k) →
        Q () { w with rows }) :
  (removeKeys inbound keys).wpCalm nodeMachine C Q w
  := by
  induction keys generalizing w with
  | nil =>
    apply hQ w.rows
    intro k
    rfl
  | cons key keys ih =>
    have hx : nodeMachine.exec nodeMachine.calm (.remove (paymentKey inbound key)) w
        = (some (.ok ()), { w with rows := w.rows.erase (paymentKey inbound key) }) := rfl
    apply wp_calm_then hx
    apply ih
    intro rows hrows
    apply hQ rows
    intro k
    rw [hrows, Table.lookup_erase_eq, List.map_cons]
    by_cases hk : k ∈ keys.map (paymentKey inbound)
    · rw [if_pos hk, if_pos (List.mem_cons_of_mem _ hk)]
    · rw [if_neg hk]
      simp only [List.mem_cons, hk, or_false]

theorem clearRgbPaymentPending_calm (inbound : Bool)
    (hQ : ∀ rows, Cleared h inbound w.rows rows → Q () { w with rows }) :
  (clearRgbPaymentPending h inbound).wpCalm nodeMachine C Q w
  := by
  have hx : nodeMachine.exec nodeMachine.calm (.remove (paymentKey inbound (pendingSuffix h))) w
      = (some (.ok ()), { w with rows := w.rows.erase (paymentKey inbound (pendingSuffix h)) }) :=
    rfl
  apply wp_calm_then hx
  apply wp_calm_then rfl
  apply removeKeys_calm
  intro rows hrows
  apply hQ rows
  constructor
  · intro key hkey
    rw [hrows]
    split_ifs with hmem
    · rfl
    -- A marker that is not removed from the list was not in it.
    dsimp only
    rw [Table.lookup_erase_eq]
    split_ifs with hraw
    · rfl
    rw [← Option.not_isSome_iff_eq_none]
    intro hsome
    apply hmem
    apply List.mem_map_of_mem
    have hne : key ≠ pendingSuffix h := fun heq => hraw (congrArg _ heq)
    have hlisted : ((w.rows.erase (paymentKey inbound (pendingSuffix h))).lookup
        (paymentKey inbound key)).isSome := by
      rw [Table.lookup_erase_eq, if_neg hraw]
      apply hsome
    rw [List.mem_filter]
    constructor
    · apply mem_listRows.mpr hlisted
    · apply decide_eq_true
      use hkey
      apply lt_of_le_of_ne hkey.length_le
      intro hlen
      apply hne (hkey.eq_of_length hlen).symm
  · intro key
    have hdir : ∀ key', paymentKey (!inbound) key ≠ paymentKey inbound key' := by
      intro key' heq
      have hi := (paymentKey_injective heq).1
      cases inbound <;> cases hi
    rw [hrows, if_neg]
    · dsimp only
      rw [Table.lookup_erase_eq, if_neg (hdir _)]
    · rw [List.mem_map]
      rintro ⟨key', -, heq⟩
      apply hdir key' heq.symm

/-! ### The status of a maker swap -/

def World.makerStatus (w : World) (h : PaymentHash) : Option SwapStatus :=
  ((w.cells .makerSwaps).memory.lookup h).map (·.status)

/-- Setting the status of a maker swap sets it, and leaves the other records and the store
alone. -/
theorem updateMakerSwapStatus_calm {status status0 : SwapStatus}
    (hp : (w.cells .makerSwaps).poisoned = false) (hswap : w.makerStatus h = some status0)
    (hstatus : status ≠ .waiting)
    (hQ : ∀ w' : World, w'.rows = w.rows → (w'.cells .makerSwaps).poisoned = false →
      (∀ c, c ≠ .makerSwaps → w'.cells c = w.cells c) → w'.makerStatus h = some status →
      Q () w') :
  (updateMakerSwapStatus h status).wpCalm nodeMachine C Q w
  := by
  obtain ⟨swap, hlookup, -⟩ := Option.map_eq_some_iff.mp hswap
  have hx : nodeMachine.exec nodeMachine.calm (.lock .makerSwaps) w
      = (some (w.cells .makerSwaps).memory, w.setLocked .makerSwaps true) :=
    if_neg (by rw [hp]; decide)
  apply wp_calm_then hx
  rw [hlookup]
  cases status with
  | waiting => cases hstatus rfl
  | pending =>
    apply wp_calm_then rfl
    apply wp_calm_then rfl
    apply wp_calm_then rfl
    apply wp_calm rfl
    apply hQ
    · rfl
    · simpa [World.setCell, World.setLocked] using hp
    · intro c hc
      simp [World.setCell, World.setLocked, hc]
    · simp [World.makerStatus, World.setCell, World.setLocked]
  | succeeded | expired | failed =>
    apply wp_calm_then rfl
    apply wp_calm_then rfl
    apply wp_calm_then rfl
    apply wp_calm rfl
    apply hQ
    · rfl
    · simpa [World.setCell, World.setLocked] using hp
    · intro c hc
      simp [World.setCell, World.setLocked, hc]
    · simp [World.makerStatus, World.setCell, World.setLocked, SwapData.complete]

theorem updateMakerSwapStatus_poisoned {status : SwapStatus}
    (hp : (w.cells .makerSwaps).poisoned = true) :
  (updateMakerSwapStatus h status).wpCalm nodeMachine (fun _ => True) (fun _ _ => False) w
  := by
  rw [wpCalm, updateMakerSwapStatus, wp_bind]
  refine ⟨fun _ => trivial, ?_⟩
  rintro f ⟨⟩
  have hx : nodeMachine.exec nodeMachine.calm (.lock .makerSwaps) w = (none, w.panic) :=
    if_pos hp
  rw [hx]
  trivial

end Calm

/-! ### What the checks decide -/

/-- What a call does after its checks.  It is stuck if it panics. -/
inductive Verdict where
  | refuse (e : MakerError)
  | stuck
  | expire
  | send (paymentPreimage : PaymentPreimage) (hops : List RouteHop)
deriving DecidableEq

/-- When carrying out a verdict on a swap with a payment in flight does no harm: the call is
refused, or it sets the swap to the status it has, and there are no markers to remove. -/
def Verdict.Harmless (h : PaymentHash) (w : World) : Verdict → Prop
  | .refuse _ => True
  | .stuck => False
  | .expire => (w.cells .makerSwaps).poisoned = false ∧ w.makerStatus h = some .expired
  | .send _ _ => (w.cells .makerSwaps).poisoned = false ∧ w.makerStatus h = some .failed
      ∧ ∀ key, pendingSuffix h <:+ key → w.rows.lookup (paymentKey false key) = none

namespace MakerEnv

variable (env : MakerEnv)

/-- The hints for the channels over which the maker can receive, if they can be made. -/
def hintsFor (swapInfo : SwapInfo) (w : World) (channels : List UsableChannel) :
    Option (List RouteHint) :=
  (channels.filter fun channel => receivesOver swapInfo
    (w.rgbInfo.lookup (hexStr channel.details.channelId.toList, false))).mapM receiveHint

def legsVerdict (s : SwapString) (paymentPreimage : PaymentPreimage) :
    Option (List RouteHop) → Option (List RouteHop) → Verdict
  | some first, some second =>
    if first = [] ∨ second = [] then
      .stuck
    else
      let hops := env.fullPaths s.swapInfo first second
      if totalFee hops ≥ env.maxSwapFeeMsat then
        .refuse (.failedPayment ("Fee too high: " ++ toString (totalFee hops)))
      else
        .send paymentPreimage hops
  | _, _ => .refuse .noRoute

def routeVerdict (s : SwapString) (paymentSecret : PaymentSecret) (taker : PublicKey)
    (w : World) (ln : LnState) : Verdict :=
  match ln.preimage s.paymentHash paymentSecret with
  | none => .refuse .missingSwapPaymentPreimage
  | some paymentPreimage =>
    match hintsFor s.swapInfo w ln.usable with
    | none => .stuck
    | some hints =>
      env.legsVerdict s paymentPreimage (ln.route (env.firstLeg s.swapInfo taker))
        (ln.route (env.secondLeg s.swapInfo taker hints))

/-- What the checks of a call decide, once its swap string is parsed. -/
def verdict (r : MakerExecuteRequest) (s : SwapString) (w : World) (ln : LnState) : Verdict :=
  match SwapString.parsePaymentHash r.paymentSecret with
  | none => .refuse .invalidPaymentSecret
  | some paymentSecret =>
    match env.publicKeyFromStr r.takerPubkey with
    | none => .refuse .invalidPubkey
    | some taker =>
      if w.clock > s.swapInfo.expiry then .expire
      else env.routeVerdict s paymentSecret taker w ln

/-- What a call does after its checks, as a program. -/
def carryOut (s : SwapString) : Verdict → Ln (Except MakerError Unit)
  | .refuse e => pure (.error e)
  | .stuck => nodePanic.inl
  | .expire => do
    (updateMakerSwapStatus s.paymentHash .expired).inl
    pure (.error .expiredSwapOffer)
  | .send paymentPreimage hops => env.sendSwap s paymentPreimage hops

variable {env} {r : MakerExecuteRequest} {s : SwapString} {w : World} {ln : LnState}
variable {C : World × LnState → Prop}

theorem wp_inl_calm {α : Type} {p : Node α} {Q : α → World × LnState → Prop}
    (hp : p.wpCalm nodeMachine (fun w => C (w, ln)) (fun a w => Q a (w, ln)) w) :
  p.inl.wpCalm lnMachine C Q (w, ln)
  := by
  apply wp_inl
  apply wp_mono (fun w' h => ⟨h, h⟩) (fun _ _ h => h) _ _ hp

theorem getRgbChannelInfoOptional_calm {C : World → Prop} {channelId : ChannelId}
    {pending : Bool} {Q : Option RgbInfo → World → Prop}
    (hQ : Q (w.rgbInfo.lookup (hexStr channelId.toList, pending)) w) :
  (getRgbChannelInfoOptional channelId pending).wpCalm nodeMachine C Q w
  := by
  rw [wpCalm, getRgbChannelInfoOptional, wp_bind]
  refine ⟨by intros; contradiction, ?_⟩
  rintro f ⟨⟩
  cases hinfo : w.rgbInfo.lookup (hexStr channelId.toList, pending) with
  | none =>
    rw [hinfo] at hQ
    simp only [World.exec, hinfo]
    apply hQ
  | some info =>
    rw [hinfo] at hQ
    simp only [World.exec, hinfo]
    apply hQ

/-- The hints are made, or the call is stuck. -/
theorem receiveHints_calm (swapInfo : SwapInfo) (channels : List UsableChannel)
    {C : World → Prop} {Q : List RouteHint → World → Prop}
    (hsome : ∀ hints, hintsFor swapInfo w channels = some hints → Q hints w)
    (hnone : hintsFor swapInfo w channels = none → C w.panic) :
  (receiveHints swapInfo channels).wpCalm nodeMachine C Q w
  := by
  induction channels generalizing Q with
  | nil => apply hsome [] rfl
  | cons channel channels ih =>
    rw [hintsFor, List.filter_cons] at hsome hnone
    rw [receiveHints, wpCalm, wp_bind]
    apply getRgbChannelInfoOptional_calm
    split_ifs at hsome hnone ⊢
    · rw [List.mapM_cons] at hsome hnone
      cases hhint : receiveHint channel with
      | none =>
        rw [hhint] at hnone
        exact ⟨by intros; contradiction, fun _ _ => hnone rfl⟩
      | some hint =>
        rw [hhint] at hsome hnone
        dsimp only
        rw [wp_bind]
        apply ih
        · intro hints hhints
          apply hsome
          rw [hintsFor] at hhints
          rw [hhints]
          rfl
        · intro hstuck
          apply hnone
          rw [hintsFor] at hstuck
          rw [hstuck]
          rfl
    · apply ih hsome hnone

variable {Q : Except MakerError Unit → World × LnState → Prop}

theorem routeSwap_calm (paymentSecret : PaymentSecret) (taker : PublicKey)
    (hQ : (env.carryOut s (env.routeVerdict s paymentSecret taker w ln)).wpCalm lnMachine C Q (w, ln)) :
  (env.routeSwap s paymentSecret taker).wpCalm lnMachine C Q (w, ln)
  := by
  unfold routeVerdict at hQ
  apply wp_calm_then rfl
  cases hpreimage : ln.preimage s.paymentHash paymentSecret with
  | none =>
    rw [hpreimage] at hQ
    apply hQ
  | some paymentPreimage =>
    rw [hpreimage] at hQ
    have hchannels : lnMachine.exec lnMachine.calm (Sum.inr LnOp.listUsableChannels) (w, ln)
        = (some ln.usable, (w, ln)) := rfl
    apply wp_calm_then hchannels
    rw [wpCalm, wp_bind]
    apply wp_inl_calm
    apply receiveHints_calm
    · intro hints hhints
      simp only [hhints] at hQ
      have hx : ∀ q, lnMachine.exec lnMachine.calm (Sum.inr (LnOp.findRoute q)) (w, ln)
          = (some (ln.route q), (w, ln)) := fun _ => rfl
      apply wp_calm_then (hx _)
      apply wp_calm_then (hx _)
      generalize ln.route (env.firstLeg s.swapInfo taker) = first at hQ ⊢
      generalize ln.route (env.secondLeg s.swapInfo taker hints) = second at hQ ⊢
      rcases first with _ | first
      · apply hQ
      rcases second with _ | second
      · apply hQ
      rw [legsVerdict] at hQ
      dsimp only at hQ ⊢
      split_ifs at hQ ⊢
      · apply hQ
      · apply hQ
      · apply hQ
    · intro hstuck
      simp only [hstuck] at hQ
      apply hQ.2 lnMachine.calm rfl

/-- A call makes its checks, and does what they decide. -/
theorem makerExecute_calm (hparse : SwapString.fromStr env.contractIdFromStr r.swapstring = .ok s)
    (hQ : (env.carryOut s (env.verdict r s w ln)).wpCalm lnMachine C Q (w, ln)) :
  (env.makerExecute r).wpCalm lnMachine C Q (w, ln)
  := by
  unfold verdict at hQ
  rw [makerExecute, hparse]
  dsimp only
  cases hsecret : SwapString.parsePaymentHash r.paymentSecret with
  | none =>
    rw [hsecret] at hQ
    apply hQ
  | some paymentSecret =>
    rw [hsecret] at hQ
    dsimp only at hQ ⊢
    cases hpubkey : env.publicKeyFromStr r.takerPubkey with
    | none =>
      rw [hpubkey] at hQ
      apply hQ
    | some taker =>
      rw [hpubkey] at hQ
      dsimp only at hQ ⊢
      have hx : lnMachine.exec lnMachine.calm (Sum.inl NodeOp.getCurrentTimestamp) (w, ln)
          = (some w.clock, (w, ln)) := rfl
      apply wp_calm_then hx
      split_ifs at hQ ⊢ with hexpired
      · apply hQ
      · apply routeSwap_calm _ _ hQ

/-! ### Sending while a payment is in flight -/

/-- Writing the markers of a payment that is sent leaves those of received ones alone. -/
theorem writeRgbPaymentInfoFile_calm (h : PaymentHash) (contractId : ContractId) (amount : ℕ)
    (swapPayment : Bool) {Q : Unit → World × LnState → Prop}
    (hQ : ∀ rows : Table Key Bytes,
      (∀ key, rows.lookup (paymentKey true key) = w.rows.lookup (paymentKey true key)) →
        Q () ({ w with rows }, ln)) :
  (env.writeRgbPaymentInfoFile h contractId amount swapPayment false).wpCalm lnMachine C Q (w, ln)
  := by
  have hne : ∀ key key', paymentKey true key ≠ paymentKey false key' := by
    intro key key' heq
    cases (paymentKey_injective heq).1
  have hx : ∀ k v (w : World), lnMachine.exec lnMachine.calm (Sum.inr (LnOp.write k v)) (w, ln)
      = (some (.ok ()), ({ w with rows := w.rows.insert k v }, ln)) := fun _ _ _ => rfl
  apply wp_calm_then (hx _ _ _)
  apply wp_calm_then (hx _ _ _)
  apply hQ
  intro key
  rw [Table.lookup_insert_eq, if_neg (hne _ _), Table.lookup_insert_eq, if_neg (hne _ _)]

/-- What holds before the payment is sent: the markers are written. -/
theorem writeMarkers_calm {Q : Unit → World × LnState → Prop}
    (hQ : ∀ rows : Table Key Bytes,
      (∀ key, rows.lookup (paymentKey true key) = w.rows.lookup (paymentKey true key)) →
        Q () ({ w with rows }, ln)) :
  (env.writeMarkers s).wpCalm lnMachine C Q (w, ln)
  := by
  rw [writeMarkers]
  split
  · apply hQ w.rows
    intro _
    rfl
  · apply writeRgbPaymentInfoFile_calm _ _ _ _ hQ

/-- A send that is refused because the payment is in flight is rolled back all the same. -/
theorem sendSwap_inFlight {status : SwapStatus} (paymentPreimage : PaymentPreimage)
    (hops : List RouteHop) (hp : (w.cells .makerSwaps).poisoned = false)
    (hswap : w.makerStatus s.paymentHash = some status) (hflight : s.paymentHash ∈ ln.inFlight) :
  (env.sendSwap s paymentPreimage hops).wpCalm lnMachine C
    (fun a w' => a = .error (.failedPayment "DuplicatePayment")
      ∧ w'.1.makerStatus s.paymentHash = some .failed
      ∧ Cleared s.paymentHash false w.rows w'.1.rows) (w, ln)
  := by
  rw [sendSwap, wpCalm, wp_bind]
  apply writeMarkers_calm
  intro rows hrows
  rw [wp_bind]
  apply wp_inl_calm
  apply updateMakerSwapStatus_calm (w := { w with rows }) hp hswap (by decide)
  intro w1 hrows1 hp1 _ hswap1
  have hx : ∀ hash, lnMachine.exec lnMachine.calm (Sum.inr (LnOp.sendSpontaneousPayment
      ⟨hops, hash, paymentPreimage, s.paymentHash⟩)) (w1, ln)
      = (some (.error .duplicatePayment), (w1, ln)) := fun _ => if_pos hflight
  apply wp_calm_then (hx _)
  dsimp only
  rw [wpCalm, wp_bind]
  apply wp_inl_calm
  apply clearRgbPaymentPending_calm
  intro rows2 hcleared
  rw [wp_bind]
  apply wp_inl_calm
  apply updateMakerSwapStatus_calm (w := { w1 with rows := rows2 }) hp1 hswap1 (by decide)
  intro w3 hrows3 _ _ hswap3
  refine ⟨rfl, hswap3, ?_, ?_⟩
  · rw [hrows3]
    apply hcleared.removed
  · intro key
    rw [hrows3, hcleared.kept, hrows1]
    apply hrows

theorem sendSwap_poisoned (paymentPreimage : PaymentPreimage) (hops : List RouteHop)
    (hp : (w.cells .makerSwaps).poisoned = true) :
  (env.sendSwap s paymentPreimage hops).wpCalm lnMachine (fun _ => True) (fun _ _ => False) (w, ln)
  := by
  rw [sendSwap, wpCalm, wp_bind]
  apply writeMarkers_calm
  intro rows _
  rw [wp_bind]
  apply wp_inl_calm
  apply wp_mono (fun _ h => h) (fun _ _ h => h.elim) _ _
    (updateMakerSwapStatus_poisoned (w := { w with rows }) hp)

/-! ### The swap of a payment in flight -/

/-- A call that fails and changes neither the status of its swap nor a marker. -/
def LeavesAlone (env : MakerEnv) (r : MakerExecuteRequest) (h : PaymentHash)
    (w : World × LnState) : Prop :=
  let w' := (env.makerExecute r).world lnMachine w []
  (∃ e, (env.makerExecute r).result lnMachine w [] = some (.error e))
    ∧ w'.1.makerStatus h = w.1.makerStatus h
    ∧ ∀ inbound key, pendingSuffix h <:+ key →
        w'.1.rows.lookup (paymentKey inbound key) = w.1.rows.lookup (paymentKey inbound key)

theorem not_leavesAlone
    (h : (env.makerExecute r).wpCalm lnMachine (fun _ => True) (fun _ _ => False) (w, ln)) :
  ¬ LeavesAlone env r s.paymentHash (w, ln)
  := by
  rintro ⟨⟨e, he⟩, -⟩
  have hadm : (env.makerExecute r).Admits lnMachine (calmly lnMachine) (w, ln) [] :=
    admits_of_forall (fun _ _ => rfl) _ _ [] (by simp)
  apply (exec_of_wp _ _ _ h hadm).1 _ he

theorem carryOut_expire {status : SwapStatus} (hp : (w.cells .makerSwaps).poisoned = false)
    (hswap : w.makerStatus s.paymentHash = some status) :
  (env.carryOut s .expire).wpCalm lnMachine C (fun a w' => a = .error .expiredSwapOffer
      ∧ w'.1.makerStatus s.paymentHash = some .expired ∧ w'.1.rows = w.rows) (w, ln)
  := by
  rw [carryOut, wpCalm, wp_bind]
  apply wp_inl_calm
  apply updateMakerSwapStatus_calm hp hswap (by decide)
  intro w' hrows _ _ hswap'
  exact ⟨rfl, hswap', hrows⟩

theorem carryOut_poisoned (hp : (w.cells .makerSwaps).poisoned = true) {v : Verdict}
    (hv : ∀ e, v ≠ .refuse e) :
  (env.carryOut s v).wpCalm lnMachine (fun _ => True) (fun _ _ => False) (w, ln)
  := by
  cases v with
  | refuse e => cases hv e rfl
  | stuck => exact ⟨by intros; contradiction, fun _ _ => trivial⟩
  | expire =>
    rw [carryOut, wpCalm, wp_bind]
    apply wp_inl_calm
    apply wp_mono (fun _ h => h) (fun _ _ h => h.elim) _ _ (updateMakerSwapStatus_poisoned hp)
  | send paymentPreimage hops => apply sendSwap_poisoned _ _ hp

/-- A call to carry out a swap whose payment is in flight fails without touching the swap or
its markers if and only if it is refused, or the swap has the status that the call sets
and there are no markers that the call removes. -/
theorem makerExecute_inFlight_iff (env : MakerEnv) (r : MakerExecuteRequest) (s : SwapString)
    (w : World) (ln : LnState)
    (hparse : SwapString.fromStr env.contractIdFromStr r.swapstring = .ok s)
    (hswap : (w.makerStatus s.paymentHash).isSome) (hflight : s.paymentHash ∈ ln.inFlight) :
  LeavesAlone env r s.paymentHash (w, ln)
    ↔ (env.verdict r s w ln).Harmless s.paymentHash w
  := by
  obtain ⟨status, hstatus⟩ := Option.isSome_iff_exists.mp hswap
  by_cases hrefuse : ∃ e, env.verdict r s w ln = .refuse e
  · obtain ⟨e, hv⟩ := hrefuse
    have hQ : (env.makerExecute r).wpCalm lnMachine (fun _ => False)
        (fun a w' => a = .error e ∧ w' = (w, ln)) (w, ln) := by
      apply makerExecute_calm hparse
      rw [hv]
      exact ⟨rfl, rfl⟩
    obtain ⟨_, hresult, rfl, hworld⟩ := result_of_wp_calmly hQ
    rw [hv, LeavesAlone, hworld]
    exact ⟨fun _ => trivial, fun _ => ⟨⟨e, hresult⟩, rfl, fun _ _ _ => rfl⟩⟩
  have hv' : ∀ e, env.verdict r s w ln ≠ .refuse e := fun e he => hrefuse ⟨e, he⟩
  by_cases hp : (w.cells .makerSwaps).poisoned = true
  · have hstuck : (env.makerExecute r).wpCalm lnMachine (fun _ => True)
        (fun _ _ => False) (w, ln) := makerExecute_calm hparse (carryOut_poisoned hp hv')
    constructor
    · intro h
      cases not_leavesAlone hstuck h
    · intro h
      cases hv : env.verdict r s w ln with
      | refuse e => cases hv' e hv
      | stuck =>
        rw [hv] at h
        cases h
      | expire | send =>
        rw [hv] at h
        rw [h.1] at hp
        cases hp
  rw [Bool.not_eq_true] at hp
  cases hv : env.verdict r s w ln with
  | refuse e => cases hv' e hv
  | stuck =>
    have hstuck : (env.makerExecute r).wpCalm lnMachine (fun _ => True)
        (fun _ _ => False) (w, ln) :=
      makerExecute_calm hparse (by rw [hv]; exact ⟨by intros; contradiction, fun _ _ => trivial⟩)
    exact ⟨fun h => not_leavesAlone hstuck h, fun h => h.elim⟩
  | expire =>
    have hQ := makerExecute_calm (C := fun _ => False) hparse
      (by rw [hv]; apply carryOut_expire hp hstatus)
    obtain ⟨_, hresult, rfl, hswap', hrows⟩ := result_of_wp_calmly hQ
    rw [LeavesAlone, hswap', hrows]
    constructor
    · rintro ⟨-, hsame, -⟩
      exact ⟨hp, hsame.symm⟩
    · rintro ⟨-, hsame⟩
      exact ⟨⟨_, hresult⟩, hsame.symm, fun _ _ _ => rfl⟩
  | send paymentPreimage hops =>
    have hQ := makerExecute_calm (C := fun _ => False) hparse
      (by rw [hv]; apply sendSwap_inFlight _ _ hp hstatus hflight)
    obtain ⟨_, hresult, rfl, hswap', hcleared⟩ := result_of_wp_calmly hQ
    rw [LeavesAlone, hswap']
    constructor
    · rintro ⟨-, hsame, hmarkers⟩
      refine ⟨hp, hsame.symm, fun key hkey => ?_⟩
      rw [← hmarkers false key hkey]
      apply hcleared.removed key hkey
    · rintro ⟨-, hsame, hnone⟩
      refine ⟨⟨_, hresult⟩, hsame.symm, fun inbound key hkey => ?_⟩
      cases inbound with
      | true => apply hcleared.kept
      | false =>
        rw [hnone key hkey]
        apply hcleared.removed key hkey

end MakerEnv

/-! ### A swap that is carried out twice -/

/-- A maker whose routes have one hop. -/
def sampleMaker : MakerEnv where
  contractIdFromStr := sampleContractId
  publicKeyFromStr s := if s = str "taker" then some (List.Vector.replicate 33 2) else none
  serialize _ := [1]
  paymentHashOf _ := List.Vector.replicate 32 3
  runtimeNodeId := List.Vector.replicate 33 1
  htlcMinMsat := 3000
  maxSwapFeeMsat := 1000
  isSwapScid := 2 ^ 63

/-- The channel manager, with the payment of the swap in flight. -/
def payingSwap : LnState where
  preimage _ _ := some (List.Vector.replicate 32 9)
  route _ := some [⟨1, 0, none⟩]
  inFlight := [List.Vector.replicate 32 3]

/-- The maker's node while the payment is in flight: the swap is pending, and its marker is
stored. -/
def payingNode : World :=
  { freshWorld with
    rows := Table.ofList [(paymentKey false (pendingSuffix (List.Vector.replicate 32 3)), [1])]
    cells := Function.update emptyCell .makerSwaps
      ⟨Table.ofList [(List.Vector.replicate 32 3, { sampleSwap with status := .pending })],
        Table.ofList [(List.Vector.replicate 32 3, { sampleSwap with status := .pending })],
        false, false⟩ }

def sampleExecute : MakerExecuteRequest :=
  ⟨samplePayload, hexStr (List.replicate 32 5), str "taker"⟩

def sampleSwapString : SwapString :=
  ⟨sampleSwap.swapInfo, List.Vector.replicate 32 3⟩

/-- A second request for a taker whose key is not one is refused, and does no harm. -/
theorem makerExecute_inFlight_invalidPubkey :
  sampleMaker.LeavesAlone { sampleExecute with takerPubkey := str "other" }
    (List.Vector.replicate 32 3) (payingNode, payingSwap)
  := (MakerEnv.makerExecute_inFlight_iff sampleMaker
    { sampleExecute with takerPubkey := str "other" } sampleSwapString payingNode payingSwap
    (by decide +kernel) (by decide +kernel) (by decide +kernel)).mpr (by
      have hv : sampleMaker.verdict { sampleExecute with takerPubkey := str "other" }
          sampleSwapString payingNode payingSwap = .refuse .invalidPubkey := by
        decide +kernel
      rw [hv]
      trivial)

/-- A second request while the payment is in flight fails, marks the swap as failed and
removes its marker. -/
theorem makerExecute_inFlight_rolledBack :
  let w := (payingNode, payingSwap)
  let w' := (sampleMaker.makerExecute sampleExecute).world lnMachine w []
  (sampleMaker.makerExecute sampleExecute).result lnMachine w []
      = some (.error (.failedPayment "DuplicatePayment"))
    ∧ w.1.makerStatus (List.Vector.replicate 32 3) = some .pending
    ∧ w'.1.makerStatus (List.Vector.replicate 32 3) = some .failed
    ∧ (w.1.rows.lookup (paymentKey false (pendingSuffix (List.Vector.replicate 32 3)))).isSome
    ∧ w'.1.rows.lookup (paymentKey false (pendingSuffix (List.Vector.replicate 32 3))) = none
  := by
  decide +kernel

end RgbLightning
