import RgbLightning.Node.Events

/-!
# The ledger of payment markers

A payment that was received covers the markers of its payment hash in the inbound
namespace, one that was sent those in the outbound namespace.  A world is `Settled`,
compared with an earlier one, if every marker of the earlier world either was applied to
the balance of its channel, once, and is gone, or was not applied and is still there.

While the end of a payment is handled some markers were applied and are still stored; the
`Ledger` says which ones.  It is kept when a marker is applied (`Ledger.apply`) and when
one is removed (`Ledger.remove`), and a ledger without such markers is settled.
-/

namespace RgbLightning

open Prog World Session List

/-! ### Keys of markers -/

theorem length_pendingSuffix (h : PaymentHash) :
  (pendingSuffix h).length = 72
  := by
  rw [pendingSuffix, length_append, length_hexStr, Vector.toList_length]
  rfl

/-- A key is a marker of a payment hash over a channel if and only if it is the channel
followed by the suffix of the payment hash. -/
theorem markerChannel_eq_some {h : PaymentHash} {key c : Str} :
  markerChannel h key = some c ↔ key = c ++ pendingSuffix h ∧ c.length = 64
  := by
  rw [markerChannel]
  constructor
  · intro hc
    split at hc
    · rename_i hmarker
      simp only [isChannelMarker, decide_eq_true_eq] at hmarker
      obtain ⟨⟨c', rfl⟩, -⟩ := hmarker
      rw [length_append, Nat.add_sub_cancel, take_left] at hc
      dsimp only at hc
      split_ifs at hc with hlength
      rw [← Option.some.inj hc]
      exact ⟨rfl, hlength⟩
    · cases hc
  · rintro ⟨rfl, hlength⟩
    have hmarker : isChannelMarker h (c ++ pendingSuffix h) = true := by
      simp only [isChannelMarker, decide_eq_true_eq, length_append]
      exact ⟨suffix_append _ _, by omega⟩
    rw [if_pos hmarker, length_append, Nat.add_sub_cancel, take_left]
    exact if_pos hlength

/-- Markers over channels have the same key only if their channels and payment hashes are
the same. -/
theorem marker_key_injective {h h' : PaymentHash} {c c' : Str} (hc : c.length = 64)
    (hc' : c'.length = 64) (heq : c ++ pendingSuffix h = c' ++ pendingSuffix h') :
  c = c' ∧ h = h'
  := by
  obtain ⟨hcc, hsuffix⟩ := append_inj heq (hc.trans hc'.symm)
  refine ⟨hcc, ?_⟩
  have hhex := (append_inj' hsuffix rfl).1
  apply Vector.toList_injective (hexStr_injective hhex)

/-! ### Balances and changes -/

def World.balance (w : World) (c : Str) : Option ℤ :=
  (w.rgbInfo.lookup (c, false)).map (·.localRgbAmount)

/-- What changes add to the balance of a channel. -/
def netChange (c : Str) (changes : List Change) : ℤ :=
  (changes.map fun change =>
    if change.channelId = c then (change.received - change.offered : ℤ) else 0).sum

/-- The balances of a world are those of an earlier one and the changes made since. -/
def Booked (w w' : World) : Prop :=
  ∃ made, w'.changes = w.changes ++ made
    ∧ ∀ c, w'.balance c = (w.balance c).map (· + netChange c made)

theorem Booked.of_eq {w w' : World} (hinfo : w'.rgbInfo = w.rgbInfo)
    (hchanges : w'.changes = w.changes) :
  Booked w w'
  := by
  refine ⟨[], by rw [hchanges, append_nil], fun c => ?_⟩
  rw [balance, balance, hinfo, Option.map_map]
  simp [netChange, Function.comp_def]

theorem Booked.trans {w w' w'' : World} (h : Booked w w') (h' : Booked w' w'') :
  Booked w w''
  := by
  obtain ⟨made, hchanges, hbalance⟩ := h
  obtain ⟨made', hchanges', hbalance'⟩ := h'
  refine ⟨made ++ made', ?_, fun c => ?_⟩
  · rw [hchanges', hchanges, append_assoc]
  · rw [hbalance', hbalance, Option.map_map]
    congr 1
    funext amount
    simp [netChange, add_assoc]

theorem booked_update {w : World} {c : Str} {info : RgbInfo}
    (hinfo : w.rgbInfo.lookup (c, false) = some info) (offered received : ℕ) :
  Booked w (w.updateRgbChannelAmount c info offered received)
  := by
  refine ⟨_, rfl, fun c' => ?_⟩
  simp only [balance, updateRgbChannelAmount, Table.lookup_insert_eq]
  by_cases hc : c = c'
  · subst hc
    rw [if_pos rfl, hinfo]
    simp only [Option.map_some, netChange, map_singleton, sum_singleton, if_true]
    congr 1
    ring
  · rw [if_neg (fun h => hc (congrArg Prod.fst h).symm)]
    simp [netChange, hc, Function.comp_def]

theorem booked_exec (f : Fault) (o : NodeOp) (w : World) :
  Booked w (World.exec f o w).2
  := by
  cases o with
  | updateRgbChannelAmount c offered received =>
    simp only [World.exec]
    split
    · rename_i info hinfo _
      apply booked_update hinfo
    · exact Booked.of_eq rfl rfl
  | lock c =>
    simp only [World.exec]
    split_ifs <;> exact Booked.of_eq rfl rfl
  | save c => cases f <;> exact Booked.of_eq rfl rfl
  | getCurrentTimestamp => cases f <;> exact Booked.of_eq rfl rfl
  | forwardInterceptedHtlc g => cases f <;> exact Booked.of_eq rfl rfl
  | remove k => cases f <;> exact Booked.of_eq rfl rfl
  | _ => exact Booked.of_eq rfl rfl

/-- If every operation of a machine books what it changes, the balances change as recorded
along handled events. -/
theorem booked_of_exec {S : Interface} {C R : Type} {M : Machine S World Fault}
    (hreboot : ∀ w, Booked w (M.reboot w)) (hexec : ∀ f o w, Booked w (M.exec f o w).2)
    (body : C → Prog S R) (w₀ : World) (history : List (Entry C R))
    (as : List (Action C Fault)) :
  Booked w₀ (run M body ⟨history, w₀⟩ as).world
  := by
  apply run_invariant (I := fun _ w => Booked w₀ w) _ _ as _
    (allowsAll_any M body ⟨history, w₀⟩ as)
  · intro _ call w _ hw
    apply wp_frame (fun _ => Booked.of_eq rfl rfl) (fun _ _ _ => Booked.trans)
      (fun o _ f w => hexec f o w) (all_true _)
    · intro a w' hw'
      apply hw.trans hw'
    · intro w' hw'
      apply hw.trans hw'
    · intro w' hw'
      apply hw.trans (hw'.trans (hreboot w'))
  · intro _ w hw
    apply hw.trans (hreboot w)
  · exact Booked.of_eq rfl rfl

theorem booked_run {C R : Type} (body : C → Node R) (w₀ : World)
    (history : List (Entry C R)) (as : List (Action C Fault)) :
  Booked w₀ (run nodeMachine body ⟨history, w₀⟩ as).world
  := booked_of_exec (fun _ => Booked.of_eq rfl rfl) booked_exec body w₀ history as

/-! ### Markers and changes -/

/-- The payment an event ends: its hash, and whether it was received. -/
def Event.payment? : Event → Option (PaymentHash × Bool)
  | .paymentClaimed e => some (e.paymentHash, true)
  | .paymentSent e => some (e.paymentHash, false)
  | _ => none

/-- The changes of the balance of a channel made while handling the end of a payment:
what was subtracted and what was added. -/
def World.changesOf (w : World) (h : PaymentHash) (receiver : Bool) (c : Str) :
    List (ℕ × ℕ) :=
  w.changes.filterMap fun change =>
    if change.event.bind Event.payment? = some (h, receiver) ∧ change.channelId = c then
      some (change.offered, change.received)
    else
      none

section Markers

variable (deserialize : Bytes → Option RgbPaymentInfo)

/-- The marker of a payment over a channel with RGB info, in the namespace of its
direction. -/
def World.markerAt (w : World) (h : PaymentHash) (inbound : Bool) (c : Str) :
    Option RgbPaymentInfo :=
  if c.length = 64 ∧ (w.rgbInfo.lookup (c, false)).isSome then
    (w.rows.lookup (paymentKey inbound (c ++ pendingSuffix h))).bind deserialize
  else
    none

/-- What the marker of a payment over a channel does to the balance of the channel. -/
def World.due (w : World) (h : PaymentHash) (receiver : Bool) (c : Str) : List (ℕ × ℕ) :=
  ((w.markerAt deserialize h receiver c).map (·.amounts receiver)).toList

/-- A marker that was applied is still stored. -/
def World.Dirty (w : World) : Prop :=
  ∃ h receiver c, w.changesOf h receiver c ≠ []
    ∧ (w.markerAt deserialize h receiver c).isSome

/-- Nothing fails and the node does not crash while a marker that was applied is still
stored. -/
def Undisturbed : Guard nodeInterface World Fault := fun _ fate w =>
  w.Dirty deserialize → fate = .go .calm

/-- Compared with the world `w₀`, every marker was applied once or is still stored and was
not applied.  No markers are left of the payments in `D`. -/
structure Settled (w₀ : World) (D : Set (PaymentHash × Bool)) (w : World) : Prop where
  conserved : ∀ h receiver c,
    w.changesOf h receiver c ++ w.due deserialize h receiver c
      = w₀.due deserialize h receiver c
  done : ∀ p ∈ D, ∀ c, w.markerAt deserialize p.1 p.2 c = none

/-- The markers of a payment hash have the direction of their namespace, and those of the
other direction belong to swaps. -/
def World.Directed (w : World) (h : PaymentHash) (receiver : Bool) : Prop :=
  ∀ i c info, c.length = 64 →
    (w.rows.lookup (paymentKey i (c ++ pendingSuffix h))).bind deserialize = some info →
      info.inbound = i ∧ (info.swapPayment ∨ i = receiver)

/-- The world while the end of a payment is handled, when the markers `A` were applied and
are still stored. -/
structure Ledger (w₀ : World) (D : Set (PaymentHash × Bool)) (h : PaymentHash)
    (receiver : Bool) (A : List Str) (w : World) : Prop where
  handling : w.handling.bind Event.payment? = some (h, receiver)
  directed : w.Directed deserialize h receiver
  conserved : ∀ h' receiver' c,
    ¬ (h' = h ∧ receiver' = receiver ∧ c ++ pendingSuffix h ∈ A) →
      w.changesOf h' receiver' c ++ w.due deserialize h' receiver' c
        = w₀.due deserialize h' receiver' c
  applied : ∀ c, c ++ pendingSuffix h ∈ A →
    w.changesOf h receiver c = w₀.due deserialize h receiver c
      ∧ w.changesOf h receiver c ≠ [] ∧ (w.markerAt deserialize h receiver c).isSome
  keys : ∀ key ∈ A, ∃ c, key = c ++ pendingSuffix h
  done : ∀ p ∈ D, ∀ c, w.markerAt deserialize p.1 p.2 c = none

/-! ### What the markers depend on -/

/-- The worlds agree on markers, on balances and on the event that is handled. -/
structure SameMarkers (w w' : World) : Prop where
  rows : w'.rows = w.rows
  rgbInfo : w'.rgbInfo = w.rgbInfo
  changes : w'.changes = w.changes
  handling : w'.handling = w.handling

namespace SameMarkers

theorem refl (w : World) :
  SameMarkers w w
  := ⟨rfl, rfl, rfl, rfl⟩

theorem trans {w w' w'' : World} (h : SameMarkers w w') (h' : SameMarkers w' w'') :
  SameMarkers w w''
  := ⟨h'.rows.trans h.rows, h'.rgbInfo.trans h.rgbInfo, h'.changes.trans h.changes,
    h'.handling.trans h.handling⟩

end SameMarkers

/-- Whether an operation can change markers, balances, or the event that is handled. -/
def NodeOp.touchesMarkers : NodeOp → Bool
  | .deliver _ => true
  | .updateRgbChannelAmount _ _ _ => true
  | .remove _ => true
  | _ => false

theorem sameMarkers_exec (o : NodeOp) (ho : o.touchesMarkers = false) (f : Fault) (w : World) :
  SameMarkers w (World.exec f o w).2
  := by
  cases o with
  | deliver e => cases ho
  | updateRgbChannelAmount channelId offered received => cases ho
  | remove k => cases ho
  | lock c =>
    simp only [World.exec]
    split_ifs <;> exact ⟨rfl, rfl, rfl, rfl⟩
  | save c => cases f <;> exact ⟨rfl, rfl, rfl, rfl⟩
  | getCurrentTimestamp => cases f <;> exact ⟨rfl, rfl, rfl, rfl⟩
  | forwardInterceptedHtlc g => cases f <;> exact ⟨rfl, rfl, rfl, rfl⟩
  | _ => exact ⟨rfl, rfl, rfl, rfl⟩

variable {deserialize}

section Congruence

variable {w w' : World} (hrows : w'.rows = w.rows) (hinfo : w'.rgbInfo = w.rgbInfo)

include hrows hinfo in
theorem markerAt_congr (h : PaymentHash) (i : Bool) (c : Str) :
  w'.markerAt deserialize h i c = w.markerAt deserialize h i c
  := by
  rw [markerAt, markerAt, hrows, hinfo]

include hrows hinfo in
theorem due_congr (h : PaymentHash) (i : Bool) (c : Str) :
  w'.due deserialize h i c = w.due deserialize h i c
  := by
  rw [due, due, markerAt_congr hrows hinfo]

theorem changesOf_congr (hchanges : w'.changes = w.changes) (h : PaymentHash) (i : Bool)
    (c : Str) :
  w'.changesOf h i c = w.changesOf h i c
  := by
  rw [changesOf, changesOf, hchanges]

end Congruence

theorem Settled.congr {w₀ w w' : World} {D : Set (PaymentHash × Bool)}
    (hw : Settled deserialize w₀ D w) (hrows : w'.rows = w.rows)
    (hinfo : w'.rgbInfo = w.rgbInfo) (hchanges : w'.changes = w.changes) :
  Settled deserialize w₀ D w'
  := by
  constructor
  · intro h receiver c
    rw [changesOf_congr hchanges, due_congr hrows hinfo]
    apply hw.conserved
  · intro p hp c
    rw [markerAt_congr hrows hinfo]
    apply hw.done p hp c

theorem Settled.mono {w₀ w : World} {D D' : Set (PaymentHash × Bool)}
    (hw : Settled deserialize w₀ D' w) (hD : D ⊆ D') :
  Settled deserialize w₀ D w
  := ⟨hw.conserved, fun p hp => hw.done p (hD hp)⟩

/-! ### Applying and removing a marker -/

/-- A balance update is one more change of its channel, and leaves the markers alone. -/
theorem changesOf_update (w : World) (c : Str) (info : RgbInfo) (offered received : ℕ)
    (h : PaymentHash) (i : Bool) (c' : Str) :
  (w.updateRgbChannelAmount c info offered received).changesOf h i c'
    = w.changesOf h i c'
      ++ if w.handling.bind Event.payment? = some (h, i) ∧ c = c' then [(offered, received)]
        else []
  := by
  rw [changesOf, updateRgbChannelAmount, filterMap_append]
  congr 1
  split_ifs with hc
  · simp [hc]
  · simp [hc]

theorem markerAt_update {w : World} {c : Str} {info : RgbInfo}
    (hinfo : w.rgbInfo.lookup (c, false) = some info) (offered received : ℕ)
    (h : PaymentHash) (i : Bool) (c' : Str) :
  (w.updateRgbChannelAmount c info offered received).markerAt deserialize h i c'
    = w.markerAt deserialize h i c'
  := by
  have hsome : ∀ info', ((w.rgbInfo.insert (c, false) info').lookup (c', false)).isSome
      = (w.rgbInfo.lookup (c', false)).isSome := by
    intro info'
    rw [Table.lookup_insert_eq]
    split_ifs with hc
    · rw [hc, hinfo]
      rfl
    · rfl
  simp only [markerAt, updateRgbChannelAmount, hsome]

theorem markerAt_erase (w : World) (i : Bool) (key : Str) (h : PaymentHash) (i' : Bool)
    (c : Str) :
  { w with rows := w.rows.erase (paymentKey i key) }.markerAt deserialize h i' c
    = if i' = i ∧ c ++ pendingSuffix h = key then none else w.markerAt deserialize h i' c
  := by
  have hkey : paymentKey i' (c ++ pendingSuffix h) = paymentKey i key
      ↔ i' = i ∧ c ++ pendingSuffix h = key := by
    constructor
    · apply paymentKey_injective
    · rintro ⟨rfl, rfl⟩
      rfl
  simp only [markerAt, Table.lookup_erase_eq, hkey]
  split_ifs <;> rfl

theorem markerAt_erase_pendingSuffix (w : World) (i : Bool) (h h' : PaymentHash) (i' : Bool)
    (c : Str) :
  { w with rows := w.rows.erase (paymentKey i (pendingSuffix h)) }.markerAt deserialize h' i' c
    = w.markerAt deserialize h' i' c
  := by
  rw [markerAt_erase]
  split_ifs with hc
  · have hlength := congrArg length hc.2
    rw [length_append, length_pendingSuffix, length_pendingSuffix] at hlength
    rw [markerAt, if_neg]
    omega
  · rfl

section Ledger

variable {w₀ w : World} {D : Set (PaymentHash × Bool)} {h : PaymentHash} {receiver : Bool}
variable {A : List Str}

theorem Ledger.settled (hL : Ledger deserialize w₀ D h receiver [] w) :
  Settled deserialize w₀ D w
  := by
  constructor
  · intro h' receiver' c
    apply hL.conserved
    simp
  · apply hL.done

section Ledger

variable (hL : Ledger deserialize w₀ D h receiver A w)
include hL

theorem Ledger.dirty {key : Str} (hkey : key ∈ A) :
  w.Dirty deserialize
  := by
  obtain ⟨c, rfl⟩ := hL.keys key hkey
  obtain ⟨-, hne, hsome⟩ := hL.applied c hkey
  exact ⟨h, receiver, c, hne, hsome⟩

theorem Ledger.eq_nil (hclean : ¬ w.Dirty deserialize) :
  A = []
  := by
  apply eq_nil_iff_forall_not_mem.mpr
  intro key hkey
  apply hclean (hL.dirty hkey)

theorem Ledger.congr {A' : List Str} (hA : ∀ key, key ∈ A' ↔ key ∈ A) :
  Ledger deserialize w₀ D h receiver A' w
  := by
  refine ⟨hL.handling, hL.directed, ?_, ?_, ?_, hL.done⟩
  · simpa only [hA] using hL.conserved
  · simpa only [hA] using hL.applied
  · simpa only [hA] using hL.keys

/-- The ledger depends on the markers, on the changes and on the event that is handled. -/
theorem Ledger.transport {w' : World} (hhandling : w'.handling = w.handling)
    (hchanges : w'.changes = w.changes)
    (hmarker : ∀ h i c, w'.markerAt deserialize h i c = w.markerAt deserialize h i c)
    (hdirected : w'.Directed deserialize h receiver) :
  Ledger deserialize w₀ D h receiver A w'
  := by
  refine ⟨hhandling ▸ hL.handling, hdirected, ?_, ?_, hL.keys, ?_⟩
  · intro h' receiver' c hnot
    rw [changesOf_congr hchanges, due, hmarker]
    apply hL.conserved h' receiver' c hnot
  · intro c hc
    rw [changesOf_congr hchanges, hmarker]
    apply hL.applied c hc
  · intro p hp c
    rw [hmarker]
    apply hL.done p hp c

theorem Ledger.apply {c : Str} (hc : c ++ pendingSuffix h ∉ A) {info : RgbPaymentInfo}
    (hmarker : w.markerAt deserialize h receiver c = some info) {rgbInfo : RgbInfo}
    (hinfo : w.rgbInfo.lookup (c, false) = some rgbInfo) :
  Ledger deserialize w₀ D h receiver ((c ++ pendingSuffix h) :: A)
    (w.updateRgbChannelAmount c rgbInfo (info.amounts receiver).1
      (info.amounts receiver).2)
  := by
  have hdue : w.changesOf h receiver c ++ [info.amounts receiver]
      = w₀.due deserialize h receiver c := by
    rw [← hL.conserved h receiver c (fun hmem => hc hmem.2.2), due, hmarker]
    rfl
  refine ⟨hL.handling, hL.directed, ?_, ?_, ?_, ?_⟩
  · intro h' receiver' c' hnot
    have hother : ¬ (w.handling.bind Event.payment? = some (h', receiver') ∧ c = c') := by
      rw [hL.handling]
      rintro ⟨heq, rfl⟩
      cases heq
      apply hnot ⟨rfl, rfl, mem_cons_self⟩
    rw [changesOf_update, if_neg hother, append_nil, due, markerAt_update hinfo]
    apply hL.conserved
    rintro ⟨hh, hr, hmem⟩
    apply hnot ⟨hh, hr, mem_cons_of_mem _ hmem⟩
  · intro c' hc'
    rw [changesOf_update, markerAt_update hinfo, hL.handling]
    by_cases hcc : c = c'
    · subst hcc
      rw [if_pos ⟨rfl, rfl⟩, hmarker]
      refine ⟨hdue, ?_, rfl⟩
      simp
    · rw [if_neg (fun heq => hcc heq.2), append_nil]
      apply hL.applied
      rcases mem_cons.mp hc' with hc' | hc'
      · exact absurd (append_cancel_right hc').symm hcc
      · apply hc'
  · intro key hkey
    rcases mem_cons.mp hkey with rfl | hkey
    · exact ⟨c, rfl⟩
    · apply hL.keys key hkey
  · intro p hp c'
    rw [markerAt_update hinfo]
    apply hL.done p hp c'

end Ledger

theorem World.Directed.erase (hw : w.Directed deserialize h receiver) (k : Key) :
  { w with rows := w.rows.erase k }.Directed deserialize h receiver
  := by
  intro i c info hc hinfo
  apply hw i c info hc
  simp only [Table.lookup_erase_eq] at hinfo
  split_ifs at hinfo
  · cases hinfo
  · apply hinfo

theorem Ledger.remove {key : Str} (hL : Ledger deserialize w₀ D h receiver (key :: A) w)
    (hkey : key ∉ A) :
  Ledger deserialize w₀ D h receiver A
    { w with rows := w.rows.erase (paymentKey receiver key) }
  := by
  obtain ⟨c, rfl⟩ := hL.keys key mem_cons_self
  obtain ⟨hdue, -, hsome⟩ := hL.applied c mem_cons_self
  have hlength : c.length = 64 := by
    rw [markerAt] at hsome
    split_ifs at hsome with hc
    · apply hc.1
    · cases hsome
  refine ⟨hL.handling, hL.directed.erase _, ?_, ?_, ?_, ?_⟩
  · intro h' receiver' c' hnot
    rw [due, markerAt_erase]
    change w.changesOf h' receiver' c' ++ _ = _
    split_ifs with heq
    · obtain ⟨rfl, hcc⟩ := heq
      have hlength' : c'.length = 64 := by
        have := congrArg length hcc
        rw [length_append, length_append, length_pendingSuffix,
          length_pendingSuffix] at this
        omega
      obtain ⟨rfl, rfl⟩ := marker_key_injective hlength' hlength hcc
      rw [hdue]
      apply append_nil
    · apply hL.conserved
      rintro ⟨rfl, rfl, hmem⟩
      rcases mem_cons.mp hmem with hmem | hmem
      · apply heq ⟨rfl, hmem⟩
      · apply hnot ⟨rfl, rfl, hmem⟩
  · intro c' hc'
    rw [markerAt_erase, if_neg]
    · apply hL.applied c' (mem_cons_of_mem _ hc')
    · rintro ⟨-, heq⟩
      apply hkey (heq ▸ hc')
  · intro key' hkey'
    apply hL.keys key' (mem_cons_of_mem _ hkey')
  · intro p hp c'
    rw [markerAt_erase, hL.done p hp c']
    split_ifs <;> rfl

end Ledger

end Markers

end RgbLightning
