import RgbLightning.Payments.Ledger

/-!
# Forwarded payments

Handling a forwarded payment subtracts the outbound amount from the balance of the next
channel and then adds the inbound amount to that of the previous one.  Nothing records
that this was done, so it is done again when the event is delivered again.

A delivery that finishes makes both changes, whatever was changed before.  So the changes
are made exactly once if the event is delivered only as long as no balance was changed
(`forwarded_changes_once`).
-/

namespace RgbLightning

open Prog Session List

/-! ### Programs that leave balances alone -/

/-- The worlds agree on balances and on the event that is handled. -/
structure SameBalances (w w' : World) : Prop where
  rgbInfo : w'.rgbInfo = w.rgbInfo
  changes : w'.changes = w.changes
  handling : w'.handling = w.handling

namespace SameBalances

theorem refl (w : World) :
  SameBalances w w
  := ⟨rfl, rfl, rfl⟩

theorem trans {w w' w'' : World} (h : SameBalances w w') (h' : SameBalances w' w'') :
  SameBalances w w''
  := ⟨h'.rgbInfo.trans h.rgbInfo, h'.changes.trans h.changes, h'.handling.trans h.handling⟩

end SameBalances

/-- Whether an operation can change balances, or the event that is handled. -/
def NodeOp.touchesBalances : NodeOp → Bool
  | .deliver _ => true
  | .updateRgbChannelAmount _ _ _ => true
  | _ => false

theorem sameBalances_exec (o : NodeOp) (ho : o.touchesBalances = false) (f : Fault)
    (w : World) :
  SameBalances w (World.exec f o w).2
  := by
  cases hmarkers : o.touchesMarkers with
  | false =>
    have hsame := sameMarkers_exec o hmarkers f w
    exact ⟨hsame.rgbInfo, hsame.changes, hsame.handling⟩
  | true =>
    cases o with
    | remove k => cases f <;> exact ⟨rfl, rfl, rfl⟩
    | deliver e => cases ho
    | updateRgbChannelAmount channelId offered received => cases ho
    | _ => cases hmarkers

/-- A program that leaves balances alone. -/
abbrev LeavesBalances {α : Type} (p : Node α) : Prop :=
  p.All fun o : NodeOp => o.touchesBalances = false

namespace LeavesBalances

theorem removeKeys (inbound : Bool) (keys : List Str) :
  LeavesBalances (removeKeys inbound keys)
  := by
  induction keys with
  | nil => trivial
  | cons key keys ih => exact ⟨rfl, fun _ => ih⟩

theorem clearRgbPaymentPending (h : PaymentHash) (inbound : Bool) :
  LeavesBalances (clearRgbPaymentPending h inbound)
  := by
  refine ⟨rfl, fun _ => ⟨rfl, fun keys => ?_⟩⟩
  cases keys with
  | error e => trivial
  | ok keys => apply LeavesBalances.removeKeys

theorem recordsOnly {α : Type} {p : Node α} (hp : RecordsOnly p) :
  LeavesBalances p
  := by
  apply hp.mono
  intro o ho
  cases o <;> first | rfl | cases ho

theorem nodeOp {o : NodeOp} (ho : o.touchesBalances = false) :
  LeavesBalances (nodeOp o)
  := ⟨ho, fun _ => trivial⟩

theorem nodePanic {α : Type} :
  LeavesBalances (nodePanic : Node α)
  := ⟨rfl, fun e => e.elim⟩

theorem setAndSave {c : Cell} (v : c.Content) :
  LeavesBalances (setCell c v >>= fun _ => saveCell c)
  := by
  apply All.bind (LeavesBalances.nodeOp rfl)
  intro _
  apply All.bind (LeavesBalances.nodeOp rfl)
  intro r
  cases r with
  | ok _ => exact ⟨rfl, fun _ => trivial⟩
  | error _ => apply nodePanic

theorem updateTakerSwapStatus (h : PaymentHash) (status : SwapStatus) :
  LeavesBalances (updateTakerSwapStatus h status)
  := by
  apply All.bind (LeavesBalances.nodeOp rfl)
  intro takerSwaps
  split
  · apply nodePanic
  · apply nodePanic
  · apply All.bind (LeavesBalances.nodeOp rfl)
    intro _
    apply setAndSave
  · apply All.bind (LeavesBalances.nodeOp rfl)
    intro _
    apply setAndSave

end LeavesBalances

/-! ### One delivery -/

/-- The change of a balance that a forwarded payment asks for, if it has an amount and the
channel has RGB info. -/
def PaymentForwarded.change (e : PaymentForwarded) (w₀ : World) (channelId : ChannelId)
    (amount : Option ℕ) (inbound : Bool) : List Change :=
  match amount with
  | none => []
  | some amount =>
    if (w₀.rgbInfo.lookup (hexStr channelId.toList, false)).isSome then
      [⟨some (.paymentForwarded e), hexStr channelId.toList,
        if inbound then 0 else amount, if inbound then amount else 0⟩]
    else
      []

/-- The changes of balances that a forwarded payment asks for. -/
def PaymentForwarded.due (e : PaymentForwarded) (w₀ : World) : List Change :=
  match e.prevChannelId, e.nextChannelId with
  | some prevChannelId, some nextChannelId =>
    e.change w₀ nextChannelId e.outboundAmountForwardedRgb false
      ++ e.change w₀ prevChannelId e.inboundAmountForwardedRgb true
  | _, _ => []

/-- The worlds have RGB info of the same channels. -/
def SameChannels (w w' : World) : Prop :=
  ∀ c, (w'.rgbInfo.lookup (c, false)).isSome = (w.rgbInfo.lookup (c, false)).isSome

/-- A forwarded payment is handled, and the changes `made` were made. -/
structure Stage (e : PaymentForwarded) (w₀ : World) (made : List Change) (w : World) :
    Prop where
  handling : w.handling = some (.paymentForwarded e)
  changes : w.changes = made
  channels : SameChannels w₀ w

/-- After the changes `before`, some of those a forwarded payment asks for were made. -/
structure Begun (e : PaymentForwarded) (w₀ : World) (before : List Change) (w : World) :
    Prop where
  changes : ∃ made, made <+: e.due w₀ ∧ w.changes = before ++ made
  channels : SameChannels w₀ w

section Delivery

variable {e : PaymentForwarded} {w₀ w : World} {before made : List Change}
variable {G : Guard nodeInterface World Fault}

theorem Begun.reboot (hw : Begun e w₀ before w) :
  Begun e w₀ before w.reboot
  := ⟨hw.changes, hw.channels⟩

theorem Begun.panic (hw : Begun e w₀ before w) :
  Begun e w₀ before w.panic
  := ⟨hw.changes, hw.channels⟩

theorem Stage.begun (hw : Stage e w₀ (before ++ made) w) (hmade : made <+: e.due w₀) :
  Begun e w₀ before w
  := ⟨⟨made, hmade, hw.changes⟩, hw.channels⟩

theorem Stage.same (hw : Stage e w₀ made w) {w' : World} (h : SameBalances w w') :
  Stage e w₀ made w'
  := by
  refine ⟨h.handling.trans hw.handling, h.changes.trans hw.changes, fun c => ?_⟩
  rw [h.rgbInfo]
  apply hw.channels

/-- A program that leaves balances alone, while a forwarded payment is handled. -/
theorem wp_leavesBalances {α : Type} {p : Node α} (hp : LeavesBalances p)
    (hw : Stage e w₀ (before ++ made) w) (hmade : made <+: e.due w₀)
    {Q : α → World → Prop} (hQ : ∀ a w', Stage e w₀ (before ++ made) w' → Q a w') :
  p.wp nodeMachine G (Begun e w₀ before) Q w
  := by
  apply wp_frame SameBalances.refl (fun _ _ _ => SameBalances.trans) sameBalances_exec hp
  · intro a w' h
    apply hQ a w' (hw.same h)
  · intro w' h
    apply (hw.same h).begun hmade
  · intro w' h
    apply ((hw.same h).begun hmade).reboot

theorem Stage.update (hw : Stage e w₀ made w) {c : Str} {info : RgbInfo}
    (hinfo : w.rgbInfo.lookup (c, false) = some info) (offered received : ℕ) :
  Stage e w₀ (made ++ [⟨some (.paymentForwarded e), c, offered, received⟩])
    (w.updateRgbChannelAmount c info offered received)
  := by
  refine ⟨hw.handling, ?_, fun c' => ?_⟩
  · rw [World.updateRgbChannelAmount, hw.handling, hw.changes]
  · rw [← hw.channels c', World.updateRgbChannelAmount, Table.lookup_insert_eq]
    split_ifs with hc
    · rw [hc, hinfo]
      rfl
    · rfl

/-- A balance is changed as asked for, unless something fails before. -/
theorem updateForwarded_wp (hw : Stage e w₀ (before ++ made) w) (hmade : made <+: e.due w₀)
    (channelId : ChannelId) (amount : Option ℕ) (inbound : Bool) :
  (updateForwarded channelId amount inbound).wp nodeMachine G (Begun e w₀ before)
    (fun r w' => match r with
      | .error _ => Begun e w₀ before w'
      | .ok _ => Stage e w₀ (before ++ (made ++ e.change w₀ channelId amount inbound)) w') w
  := by
  have hbegun := hw.begun hmade
  cases amount with
  | none =>
    rw [PaymentForwarded.change, append_nil]
    apply hw
  | some amount =>
    have hknown := hw.channels (hexStr channelId.toList)
    rw [updateForwarded, safeUpdateRgbChannelAmount, wp_bind]
    apply wp_fallible (k := id) (fun _ => rfl) hbegun.reboot
    · rcases hinfo : w.rgbInfo.lookup (hexStr channelId.toList, false) with _ | info
      · -- The channel has no RGB info, and its balance is not changed.
        have hnone : e.change w₀ channelId (some amount) inbound = [] := by
          rw [PaymentForwarded.change, ← hknown, hinfo]
          rfl
        rw [hnone, append_nil]
        apply hw
      have hsome : e.change w₀ channelId (some amount) inbound
          = [⟨some (.paymentForwarded e), hexStr channelId.toList,
            if inbound then 0 else amount, if inbound then amount else 0⟩] := by
        rw [PaymentForwarded.change, ← hknown, hinfo]
        rfl
      have hupdate := hw.update hinfo (if inbound then 0 else amount)
        (if inbound then amount else 0)
      rw [append_assoc, ← hsome] at hupdate
      simp only [id]
      rw [wp_bind]
      refine ⟨fun _ => hbegun.reboot, fun f _ => ?_⟩
      simp only [World.exec, hinfo]
      cases f with
      | calm => apply hupdate
      | delay d => apply hupdate
      | fails e => apply hbegun.panic
      | lost e => apply hbegun.panic
    · intro error
      simp only [id, if_neg error.property]
      apply hbegun

theorem paymentForwarded_changes_wp (hw : Stage e w₀ before w) :
  (paymentForwarded e).wp nodeMachine G (Begun e w₀ before)
    (fun r w' => match r with
      | .error _ => Begun e w₀ before w'
      | .ok _ => Stage e w₀ (before ++ e.due w₀) w') w
  := by
  have hnil : ([] : List Change) <+: e.due w₀ := nil_prefix
  rw [← append_nil before] at hw
  unfold paymentForwarded
  rw [wp_bind]
  apply wp_leavesBalances (LeavesBalances.clearRgbPaymentPending _ _) hw hnil
  intro _ w1 hw1
  rw [wp_bind]
  apply wp_leavesBalances (LeavesBalances.clearRgbPaymentPending _ _) hw1 hnil
  intro _ w2 hw2
  have hpanic := (hw2.begun hnil).panic
  have hreboot := (hw2.begun hnil).reboot
  split
  · apply wp_nodePanic hreboot hpanic
  · apply wp_nodePanic hreboot hpanic
  rename_i prevChannelId nextChannelId hprev hnext
  have hdue : e.due w₀ = e.change w₀ nextChannelId e.outboundAmountForwardedRgb false
      ++ e.change w₀ prevChannelId e.inboundAmountForwardedRgb true := by
    rw [PaymentForwarded.due, hprev, hnext]
  apply wp_seq (updateForwarded_wp hw2 hnil _ _ _)
  rintro (_ | _) w3 hw3
  · apply hw3
  rw [nil_append] at hw3
  apply wp_seq (updateForwarded_wp hw3 _ _ _ _)
  · rintro (_ | _) w4 hw4
    · apply hw4
    rw [← hdue] at hw4
    rw [wp_bind]
    apply wp_leavesBalances (LeavesBalances.recordsOnly (RecordsOnly.isTakerSwap _)) hw4
      prefix_rfl
    intro takerSwap w5 hw5
    split
    · rw [wp_bind]
      apply wp_leavesBalances (LeavesBalances.updateTakerSwapStatus _ _) hw5
        prefix_rfl
      intro _ w6 hw6
      apply hw6
    · apply hw5
  · rw [hdue]
    apply prefix_append

end Delivery

/-! ### Deliveries -/

def deliverForwarded (deserialize : Bytes → Option RgbPaymentInfo) (e : PaymentForwarded)
    (_ : Unit) : Node (Except ReplayEvent Unit) :=
  handleEvent deserialize (.paymentForwarded e)

theorem deliverForwarded_wp {deserialize : Bytes → Option RgbPaymentInfo}
    {e : PaymentForwarded} {w₀ w : World} {before : List Change}
    {G : Guard nodeInterface World Fault} (hchanges : w.changes = before)
    (hchannels : SameChannels w₀ w) :
  (deliverForwarded deserialize e ()).wp nodeMachine G (Begun e w₀ before)
    (fun r w' => match r with
      | .error _ => Begun e w₀ before w'
      | .ok _ => Stage e w₀ (before ++ e.due w₀) w') w
  := by
  have hbegun : Begun e w₀ before w :=
    ⟨⟨[], nil_prefix, by rw [hchanges, append_nil]⟩, hchannels⟩
  have hstage : Stage e w₀ before { w with handling := some (.paymentForwarded e) } :=
    ⟨rfl, hchanges, hchannels⟩
  unfold deliverForwarded handleEvent
  rw [wp_bind]
  refine ⟨fun _ => hbegun.reboot, fun _ _ => ?_⟩
  apply paymentForwarded_changes_wp hstage

/-- If the event of a forwarded payment is delivered only as long as no balance was changed,
then at any time only changes it asks for were made, each at most once, and all of them once
a delivery finished without an error; and the balances are the old ones with the changes
made. -/
theorem forwarded_changes_once (deserialize : Bytes → Option RgbPaymentInfo)
    (e : PaymentForwarded) (w₀ : World) (hw₀ : w₀.changes = [])
    (as : List (Action Unit Fault))
    (has : AllowsAll nodeMachine anyFate (fun _ w => w.changes = [])
      (deliverForwarded deserialize e) ⟨[], w₀⟩ as) :
  let s := run nodeMachine (deliverForwarded deserialize e) ⟨[], w₀⟩ as
  s.world.changes <+: e.due w₀
    ∧ (((), some (.ok ())) ∈ s.history → s.world.changes = e.due w₀)
    ∧ ∀ c, s.world.balance c = (w₀.balance c).map (· + netChange c s.world.changes)
  := by
  obtain ⟨made, hchanges, hbalance⟩ := booked_run (deliverForwarded deserialize e) w₀ [] as
  have hrun := run_invariant (I := fun history w => Begun e w₀ [] w ∧
    (((), some (.ok ())) ∈ history → w.changes = e.due w₀)) ?_ ?_ as ?_ has
  · obtain ⟨⟨⟨made', hprefix, hmade'⟩, -⟩, hfinished⟩ := hrun
    refine ⟨?_, hfinished, ?_⟩
    · rw [hmade']
      apply hprefix
    · rw [hw₀, nil_append] at hchanges
      rw [hchanges]
      apply hbalance
  · rintro history _ w hpre ⟨hbegun, hfinished⟩
    -- A delivery after one that finished is possible only if there is nothing to change.
    have hagain : ∀ r w', r ≠ some (.ok ()) → Begun e w₀ [] w' →
        ((), some (.ok ())) ∈ history ++ [((), r)] → w'.changes = e.due w₀ := by
      rintro r w' hr ⟨⟨made', hprefix, hmade'⟩, -⟩ hmem
      have hmem : ((), some (.ok ())) ∈ history := by
        simpa [Ne.symm hr] using hmem
      have hdue := hfinished hmem
      rw [hpre] at hdue
      rw [← hdue, prefix_nil] at hprefix
      rw [hmade', hprefix, ← hdue]
      rfl
    apply wp_mono _ _ _ _ (deliverForwarded_wp hpre hbegun.channels)
    · intro w' hw'
      exact ⟨hw', hagain none w' (by simp) hw'⟩
    · rintro (error | _) w' hw'
      · exact ⟨hw', hagain _ w' (by simp) hw'⟩
      · exact ⟨⟨⟨_, prefix_rfl, hw'.changes⟩, hw'.channels⟩, fun _ => hw'.changes⟩
  · rintro history w ⟨hbegun, hfinished⟩
    exact ⟨hbegun.reboot, hfinished⟩
  · refine ⟨⟨⟨[], nil_prefix, hw₀⟩, fun _ => rfl⟩, ?_⟩
    intro hmem
    cases hmem

/-! ### A payment forwarded from one channel to another -/

/-- A node with 10 units in each of two channels. -/
def twoChannels : World :=
  { freshWorld with
    rgbInfo := Table.ofList
      [((hexStr (List.replicate 32 1), false), ⟨List.Vector.replicate 32 7, 10, 100⟩),
        ((hexStr (List.replicate 32 2), false), ⟨List.Vector.replicate 32 7, 10, 100⟩)] }

/-- A payment of 5 units from the first channel to the second. -/
def forwardedFive : PaymentForwarded where
  prevChannelId := some (List.Vector.replicate 32 1)
  nextChannelId := some (List.Vector.replicate 32 2)
  outboundAmountForwardedRgb := some 5
  inboundAmountForwardedRgb := some 5
  paymentHash := List.Vector.replicate 32 3

/-- The node crashes before the first balance is changed, and the event is delivered
again. -/
def interruptedEarly : List (Action Unit Fault) :=
  [.call () (List.replicate 6 (.go .calm) ++ [.crash]), .call () []]

theorem forwarded_changes_once_interruptedEarly :
  let s := run nodeMachine (deliverForwarded (fun _ => none) forwardedFive)
    ⟨[], twoChannels⟩ interruptedEarly
  ((), some (.ok ())) ∈ s.history ∧ s.world.changes = forwardedFive.due twoChannels
  := by
  have hdone : ((), some (.ok ())) ∈ (run nodeMachine
      (deliverForwarded (fun _ => none) forwardedFive) ⟨[], twoChannels⟩
      interruptedEarly).history := by
    decide +kernel
  refine ⟨hdone, (forwarded_changes_once _ _ twoChannels rfl interruptedEarly ?_).2.1 hdone⟩
  exact ⟨⟨rfl, admits_anyFate _ _ _⟩, ⟨rfl, admits_anyFate _ _ _⟩, trivial⟩

/-- Reading the RGB info of the previous channel fails after the balance of the next one was
changed, and the event is delivered again. -/
def interruptedLate : List (Action Unit Fault) :=
  [.call () (List.replicate 7 (.go .calm) ++ [.go (.fails ⟨⟨.other, "", none⟩, by decide⟩)]),
    .call () []]

/-- The outbound amount is subtracted twice. -/
theorem forwarded_change_repeated :
  let s := run nodeMachine (deliverForwarded (fun _ => none) forwardedFive)
    ⟨[], twoChannels⟩ interruptedLate
  s.history = [((), some (.error .replayEvent)), ((), some (.ok ()))]
    ∧ twoChannels.balance (hexStr (List.replicate 32 2)) = some 10
    ∧ s.world.balance (hexStr (List.replicate 32 2)) = some 0
    ∧ s.world.balance (hexStr (List.replicate 32 1)) = some 15
  := by
  decide +kernel

end RgbLightning
