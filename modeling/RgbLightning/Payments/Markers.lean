import RgbLightning.Payments.Ledger

/-!
# Markers are applied once

Handling the end of a payment should apply every marker it covers to the balance of its
channel exactly once, whatever fails and however often the event is delivered.

The balance of a channel is updated before the marker is removed.  So a marker is applied
again if the node crashes, or anything fails, while a marker that was applied is still
stored.  `markers_applied_once` says when every marker is applied once.
-/

namespace RgbLightning

open Prog World Session List Option

section Markers

variable {deserialize : Bytes → Option RgbPaymentInfo}
variable {w₀ w : World} {D : Set (PaymentHash × Bool)} {h : PaymentHash} {receiver : Bool}
variable {A : List Str}

/-! ### Rules -/

theorem Settled.reboot (hw : Settled deserialize w₀ D w) :
  Settled deserialize w₀ D w.reboot
  := hw.congr rfl rfl rfl

theorem Settled.panic (hw : Settled deserialize w₀ D w) :
  Settled deserialize w₀ D w.panic
  := hw.congr rfl rfl rfl

variable {C : World → Prop}

/-- A query answers as it should while a marker that was applied is still stored. -/
theorem wp_query {o : NodeOp} {a : Fault → o.Ans} (hexec : ∀ f, World.exec f o w = (some (a f), w))
    {Q : o.Ans → World → Prop} (hcrash : ¬ w.Dirty deserialize → C w.reboot)
    (hcalm : Q (a .calm) w) (hfault : ¬ w.Dirty deserialize → ∀ f, Q (a f) w) :
  (nodeOp o).wp nodeMachine (Undisturbed deserialize) C Q w
  := by
  by_cases hdirty : w.Dirty deserialize
  · refine ⟨fun hg => ?_, fun f hg => ?_⟩
    · cases hg hdirty
    · cases hg hdirty
      rw [show nodeMachine.exec .calm o w = (some (a .calm), w) from hexec .calm]
      apply hcalm
  · refine ⟨fun _ => hcrash hdirty, fun f _ => ?_⟩
    rw [show nodeMachine.exec f o w = (some (a f), w) from hexec f]
    apply hfault hdirty

/-- A query that may fail, when no marker that was applied is stored. -/
theorem wp_answer {α : Type} {o : NodeOp} {a : Except IoError α} {k : Except IoError α → o.Ans}
    (hexec : ∀ f, World.exec f o w = (some (k (answer f a)), w)) {Q : o.Ans → World → Prop}
    (hL : Ledger deserialize w₀ D h receiver A w) (hcrash : A = [] → C w.reboot) (hok : Q (k a) w)
    (herror : A = [] → ∀ e : Failure, Q (k (.error e.val)) w) :
  (nodeOp o).wp nodeMachine (Undisturbed deserialize) C Q w
  := by
  apply wp_query hexec
  · intro hclean
    apply hcrash (hL.eq_nil hclean)
  · apply hok
  · intro hclean f
    rw [answer]
    split
    · apply herror (hL.eq_nil hclean)
    · apply hok

/-- A balance is updated, or the handler panics when no marker that was applied is
stored. -/
theorem wp_updateRgbChannelAmount {Q : Unit → World → Prop} {c : Str} {offered received : ℕ}
    {rgbInfo : RgbInfo} (hinfo : w.rgbInfo.lookup (c, false) = some rgbInfo)
    (hL : Ledger deserialize w₀ D h receiver A w) (hcrash : A = [] → C w.reboot)
    (hpanic : A = [] → C w.panic)
    (hok : Q () (w.updateRgbChannelAmount c rgbInfo offered received)) :
  (nodeOp (.updateRgbChannelAmount c offered received)).wp nodeMachine
    (Undisturbed deserialize) C Q w
  := by
  have hexec : ∀ f, nodeMachine.exec f (.updateRgbChannelAmount c offered received) w
      = match f.error? with
        | none => (some (), w.updateRgbChannelAmount c rgbInfo offered received)
        | some _ => (none, w.panic) := by
    intro f
    simp only [World.exec, hinfo]
    cases f <;> rfl
  refine ⟨fun hg => ?_, fun f hg => ?_⟩
  · apply hcrash
    apply hL.eq_nil
    intro hdirty
    cases hg hdirty
  rw [hexec]
  rcases herror : f.error? with _ | e
  · apply hok
  · apply hpanic
    apply hL.eq_nil
    intro hdirty
    cases hg hdirty
    cases herror

/-! ### Applying markers -/

variable (deserialize) in
/-- The same markers are stored. -/
structure Unmoved (w w' : World) : Prop where
  rows : w'.rows = w.rows
  markerAt : ∀ h i c, w'.markerAt deserialize h i c = w.markerAt deserialize h i c

theorem Unmoved.refl (w : World) :
  Unmoved deserialize w w
  := ⟨rfl, fun _ _ _ => rfl⟩

theorem Unmoved.trans {w' w'' : World} (h : Unmoved deserialize w w')
    (h' : Unmoved deserialize w' w'') :
  Unmoved deserialize w w''
  := ⟨h'.rows.trans h.rows, fun k i c => (h'.markerAt k i c).trans (h.markerAt k i c)⟩

variable (deserialize) in
/-- What holds after a marker was looked at: it was applied, or it does not count, or
something failed while no marker that was applied was stored. -/
def MarkerPost (w₀ : World) (D : Set (PaymentHash × Bool)) (h : PaymentHash)
    (receiver i : Bool) (A : List Str) (key : Str) (w : World) :
    Except IoError Bool → World → Prop
  | .error _, w' => A = [] ∧ Settled deserialize w₀ D w'
  | .ok true, w' => i = receiver ∧ Ledger deserialize w₀ D h receiver (key :: A) w'
      ∧ Unmoved deserialize w w'
  | .ok false, w' => w' = w
      ∧ (i = receiver → ∀ c, key = c ++ pendingSuffix h →
        w.markerAt deserialize h receiver c = none)

theorem safeUpdateRgbChannelAmount_wp (hL : Ledger deserialize w₀ D h receiver A w)
    {c : Str} (hc : c ++ pendingSuffix h ∉ A) (hlength : c.length = 64)
    {info : RgbPaymentInfo}
    (hrow : (w.rows.lookup (paymentKey receiver (c ++ pendingSuffix h))).bind deserialize
      = some info) :
  (safeUpdateRgbChannelAmount c (info.amounts receiver).1
      (info.amounts receiver).2).wp nodeMachine (Undisturbed deserialize)
    (Settled deserialize w₀ D)
    (MarkerPost deserialize w₀ D h receiver receiver A (c ++ pendingSuffix h) w) w
  := by
  rw [safeUpdateRgbChannelAmount, wp_bind]
  apply wp_answer (k := id) (fun _ => rfl) hL
  · rintro rfl
    apply hL.settled.reboot
  · rcases hinfo : w.rgbInfo.lookup (c, false) with _ | rgbInfo
    · refine ⟨rfl, fun _ c' hc' => ?_⟩
      rw [markerAt, ← append_cancel_right hc', hinfo]
      simp
    have hmarker : w.markerAt deserialize h receiver c = some info := by
      rw [markerAt, hinfo, if_pos ⟨hlength, rfl⟩]
      apply hrow
    have hsettled : A = [] → Settled deserialize w₀ D w := by
      rintro rfl
      apply hL.settled
    simp only [id]
    rw [wp_bind]
    apply wp_updateRgbChannelAmount hinfo hL
    · intro hA
      apply (hsettled hA).reboot
    · intro hA
      apply (hsettled hA).panic
    · exact ⟨rfl, hL.apply hc hmarker hinfo, rfl, markerAt_update hinfo _ _⟩
  · rintro rfl e
    simp only [id, if_neg e.property]
    exact ⟨rfl, hL.settled⟩

theorem applyMarker_wp (hL : Ledger deserialize w₀ D h receiver A w) {i : Bool} {key : Str}
    (hkey : (w.rows.lookup (paymentKey i key)).isSome) (hA : i = receiver → key ∉ A) :
  (applyMarker deserialize h receiver i key).wp nodeMachine (Undisturbed deserialize)
    (Settled deserialize w₀ D) (MarkerPost deserialize w₀ D h receiver i A key w) w
  := by
  rw [applyMarker]
  split
  · -- The key is not that of a marker over a channel.
    rename_i hnone
    refine ⟨rfl, fun _ c hc => ?_⟩
    rw [markerAt, if_neg]
    rintro ⟨hlength, -⟩
    rw [markerChannel_eq_some.mpr ⟨hc, hlength⟩] at hnone
    cases hnone
  rename_i c hc
  obtain ⟨rfl, hlength⟩ := markerChannel_eq_some.mp hc
  obtain ⟨data, hdata⟩ := isSome_iff_exists.mp hkey
  -- What the marker is, once it was read.
  have hmarker : ∀ c', c ++ pendingSuffix h = c' ++ pendingSuffix h → i = receiver →
      w.markerAt deserialize h receiver c'
        = if (w.rgbInfo.lookup (c, false)).isSome then deserialize data else none := by
    rintro c' hc' rfl
    rw [← append_cancel_right hc', markerAt, hdata, bind_some]
    simp only [hlength, true_and]
  rw [wp_bind]
  apply wp_answer (k := id) (fun _ => rfl) hL
  · rintro rfl
    apply hL.settled.reboot
  · rw [hdata]
    simp only [id]
    split
    · rename_i hinfo
      refine ⟨rfl, fun hi c' hc' => ?_⟩
      rw [hmarker c' hc' hi, hinfo, ite_self]
    rename_i info hinfo
    have hrow : (w.rows.lookup (paymentKey i (c ++ pendingSuffix h))).bind deserialize
        = some info := by
      rw [hdata]
      apply hinfo
    obtain ⟨hinbound, hswap⟩ := hL.directed i c info hlength hrow
    by_cases hi : i = receiver
    · subst hi
      rw [if_neg (by simp [hinbound])]
      apply safeUpdateRgbChannelAmount_wp hL (hA rfl) hlength hrow
    -- The marker is that of a swap in the other direction.
    have hskip : (info.swapPayment && receiver != info.inbound) = true := by
      rw [hinbound, hswap.resolve_right hi, Bool.true_and]
      simpa using Ne.symm hi
    rw [if_pos hskip]
    exact ⟨rfl, fun hi' => absurd hi' hi⟩
  · rintro rfl e
    simp only [id, if_neg e.property]
    exact ⟨rfl, hL.settled⟩

variable (deserialize) in
/-- What holds after markers were looked at: those that count were applied, or something
failed while no marker that was applied was stored. -/
def MarkersPost (w₀ : World) (D : Set (PaymentHash × Bool)) (h : PaymentHash)
    (receiver i : Bool) (A keys : List Str) (w : World) :
    Except IoError (List Str) → World → Prop
  | .error _, w' => A = [] ∧ Settled deserialize w₀ D w'
  | .ok applied, w' => Ledger deserialize w₀ D h receiver (applied ++ A) w'
      ∧ Unmoved deserialize w w' ∧ applied.Sublist keys ∧ (i ≠ receiver → applied = [])
      ∧ (i = receiver → ∀ c, c ++ pendingSuffix h ∈ keys →
        (w.markerAt deserialize h receiver c).isSome → c ++ pendingSuffix h ∈ applied)

theorem applyMarkers_wp {i : Bool} {keys : List Str} (hnodup : keys.Nodup)
    (hL : Ledger deserialize w₀ D h receiver A w)
    (hkeys : ∀ key ∈ keys, (w.rows.lookup (paymentKey i key)).isSome)
    (hA : i = receiver → ∀ key ∈ keys, key ∉ A) :
  (applyMarkers deserialize h receiver i keys).wp nodeMachine (Undisturbed deserialize)
    (Settled deserialize w₀ D) (MarkersPost deserialize w₀ D h receiver i A keys w) w
  := by
  induction keys generalizing w A with
  | nil =>
    refine ⟨hL, Unmoved.refl w, Sublist.slnil, fun _ => rfl, ?_⟩
    intro _ c hc
    cases hc
  | cons key keys ih =>
    obtain ⟨hnot, hnodup⟩ := nodup_cons.mp hnodup
    rw [applyMarkers]
    apply wp_seq (applyMarker_wp hL (hkeys key mem_cons_self)
      fun hi => hA hi key mem_cons_self)
    rintro (e | applied) w1 hpost
    · apply hpost
    cases applied with
    | false =>
      obtain ⟨rfl, hnone⟩ := hpost
      apply wp_seq (ih hnodup hL
        (fun key' hkey' => hkeys key' (mem_cons_of_mem _ hkey'))
        fun hi key' hkey' => hA hi key' (mem_cons_of_mem _ hkey'))
      rintro (e | applied) w2 hpost
      · apply hpost
      obtain ⟨hL2, hsame, hsub, hother, hall⟩ := hpost
      refine ⟨hL2, hsame, hsub.cons _, hother, fun hi c hc hsome => ?_⟩
      rcases mem_cons.mp hc with hc | hc
      · rw [hnone hi c hc.symm] at hsome
        cases hsome
      · apply hall hi c hc hsome
    | true =>
      obtain ⟨rfl, hL1, hsame1⟩ := hpost
      apply wp_seq (ih hnodup hL1 _ _)
      · rintro (e | applied) w2 hpost
        · cases hpost.1
        obtain ⟨hL2, hsame2, hsub, hother, hall⟩ := hpost
        refine ⟨hL2.congr ?_, hsame1.trans hsame2, hsub.cons_cons _,
          fun hi => absurd rfl hi, fun hi c hc hsome => ?_⟩
        · intro key'
          simp only [if_true, mem_cons, mem_append]
          tauto
        rcases mem_cons.mp hc with hc | hc
        · rw [hc]
          apply mem_cons_self
        · apply mem_cons_of_mem
          apply hall hi c hc
          rw [hsame1.markerAt]
          apply hsome
      · intro key' hkey'
        rw [hsame1.rows]
        apply hkeys key' (mem_cons_of_mem _ hkey')
      · rintro - key' hkey' hmem
        rcases mem_cons.mp hmem with rfl | hmem
        · apply hnot hkey'
        · apply hA rfl key' (mem_cons_of_mem _ hkey') hmem

/-! ### Removing markers -/

/-- Removing all markers that were applied.  As long as one is left nothing fails. -/
theorem removeKeys_wp {keys : List Str} (hnodup : keys.Nodup)
    (hL : Ledger deserialize w₀ D h receiver keys w)
    (hall : ∀ c, (w.markerAt deserialize h receiver c).isSome → c ++ pendingSuffix h ∈ keys) :
  (removeKeys receiver keys).wp nodeMachine (Undisturbed deserialize)
    (Settled deserialize w₀ D)
    (fun _ => Ledger deserialize w₀ (insert (h, receiver) D) h receiver []) w
  := by
  induction keys generalizing w with
  | nil =>
    refine ⟨hL.handling, hL.directed, hL.conserved, hL.applied, hL.keys, ?_⟩
    rintro p (rfl | hp) c
    · apply not_isSome_iff_eq_none.mp
      intro hsome
      cases hall c hsome
    · apply hL.done p hp c
  | cons key keys ih =>
    obtain ⟨hnot, hnodup⟩ := nodup_cons.mp hnodup
    have hdirty := hL.dirty mem_cons_self
    rw [removeKeys, wp_bind]
    refine ⟨fun hg => ?_, fun f hg => ?_⟩
    · cases hg hdirty
    cases hg hdirty
    apply ih hnodup (hL.remove hnot)
    intro c hsome
    rw [markerAt_erase] at hsome
    split_ifs at hsome with hc
    · cases hsome
    rcases mem_cons.mp (hall c hsome) with heq | hmem
    · exact absurd ⟨rfl, heq⟩ hc
    · apply hmem

/-- Handling a payment ends with its markers gone, in the direction of the payment. -/
def doneAfter (D : Set (PaymentHash × Bool)) (h : PaymentHash) (receiver i : Bool) :
    Set (PaymentHash × Bool) :=
  if i = receiver then insert (h, receiver) D else D

theorem subset_doneAfter (D : Set (PaymentHash × Bool)) (h : PaymentHash)
    (receiver i : Bool) :
  D ⊆ doneAfter D h receiver i
  := by
  rw [doneAfter]
  split_ifs
  · apply Set.subset_insert
  · rfl

theorem doneAfter_doneAfter (D : Set (PaymentHash × Bool)) (h : PaymentHash)
    (receiver : Bool) :
  doneAfter (doneAfter D h receiver true) h receiver false = insert (h, receiver) D
  := by
  cases receiver <;> rfl

section Ledger

variable (hL : Ledger deserialize w₀ D h receiver [] w)
include hL

theorem finalizeDirection_wp (i : Bool) :
  (finalizeDirection deserialize h receiver i).wp nodeMachine (Undisturbed deserialize)
    (Settled deserialize w₀ D)
    (fun r w' => match r with
      | .error _ => Settled deserialize w₀ D w'
      | .ok _ => Ledger deserialize w₀ (doneAfter D h receiver i) h receiver [] w') w
  := by
  rw [finalizeDirection, wp_bind]
  apply wp_answer (k := id) (fun _ => rfl) hL
  · intro _
    apply hL.settled.reboot
  · simp only [id]
    apply wp_seq (applyMarkers_wp (nodup_listRows _ _ _) hL
      (fun key hkey => mem_listRows.mp hkey) fun _ _ _ => not_mem_nil)
    rintro (e | applied) w1 hpost
    · apply hpost.2
    obtain ⟨hL1, hsame, hsub, hother, hall⟩ := hpost
    rw [append_nil] at hL1
    rw [wp_bind]
    by_cases hi : i = receiver
    · subst hi
      have hremove := removeKeys_wp (hsub.nodup (nodup_listRows _ _ _)) hL1 ?_
      · rw [doneAfter, if_pos rfl]
        apply hremove
      intro c hsome
      rw [hsame.markerAt] at hsome
      apply hall rfl c _ hsome
      apply mem_listRows.mpr
      rw [markerAt] at hsome
      split_ifs at hsome
      · apply isSome_of_isSome_bind hsome
      · cases hsome
    · rw [hother hi, doneAfter, if_neg hi]
      rw [hother hi] at hL1
      apply hL1
  · intro _ e
    apply hL.settled

theorem clearRawPending_wp (i : Bool) :
  (clearRawPending h i).wp nodeMachine (Undisturbed deserialize) (Settled deserialize w₀ D)
    (fun r w' => match r with
      | .error _ => Settled deserialize w₀ D w'
      | .ok _ => Ledger deserialize w₀ D h receiver [] w') w
  := by
  have herase : Ledger deserialize w₀ D h receiver []
      { w with rows := w.rows.erase (paymentKey i (pendingSuffix h)) } := by
    refine Ledger.transport hL ?_ ?_ ?_ ?_
    · rfl
    · rfl
    · apply markerAt_erase_pendingSuffix
    · apply hL.directed.erase
  rw [clearRawPending, wp_bind]
  apply wp_answer (k := id) (fun _ => rfl) hL
  · intro _
    apply hL.settled.reboot
  · simp only [id]
    split
    · apply hL
    · refine ⟨fun _ => hL.settled.reboot, fun f _ => ?_⟩
      cases f with
      | fails e => apply hL
      | _ => apply herase
  · intro _ e
    apply hL.settled

theorem finalizeRgbChannelPayment_wp :
  (finalizeRgbChannelPayment deserialize h receiver).wp nodeMachine (Undisturbed deserialize)
    (Settled deserialize w₀ D)
    (fun r w' => match r with
      | .error _ => Settled deserialize w₀ D w'
      | .ok _ => Settled deserialize w₀ (insert (h, receiver) D) w') w
  := by
  have hsub : D ⊆ insert (h, receiver) D := Set.subset_insert _ _
  rw [finalizeRgbChannelPayment]
  apply wp_seq (finalizeDirection_wp hL true)
  rintro (e | appliedInbound) w1 hL1
  · apply hL1
  rw [wp_bind]
  apply wp_mono (fun _ hw => hw.mono (subset_doneAfter _ _ _ _)) _ _ _
    (finalizeDirection_wp hL1 false)
  rintro (e | appliedOutbound) w2 hL2
  · apply hL2.mono (subset_doneAfter _ _ _ _)
  rw [doneAfter_doneAfter] at hL2
  simp only
  split
  · rw [wp_bind]
    apply wp_mono (fun _ hw => hw.mono hsub) _ _ _ (clearRawPending_wp hL2 true)
    rintro (e | _) w3 hL3
    · apply hL3.mono hsub
    apply wp_mono (fun _ hw => hw.mono hsub) _ _ _ (clearRawPending_wp hL3 false)
    rintro (e | _) w4 hL4
    · apply hL4.mono hsub
    · apply hL4.settled
  · apply hL2.settled

end Ledger

/-! ### Handling events -/

theorem sameMarkers_recordsOnly (o : NodeOp) (ho : o.recordsOnly) (f : Fault) (w : World) :
  SameMarkers w (World.exec f o w).2
  := by
  apply sameMarkers_exec
  cases o <;> first | rfl | cases ho

theorem Settled.same (hw : Settled deserialize w₀ D w) {w' : World} (h : SameMarkers w w') :
  Settled deserialize w₀ D w'
  := hw.congr h.rows h.rgbInfo h.changes

variable {G : Guard nodeInterface World Fault}

theorem wp_recordsOnly {α : Type} {p : Node α} (hp : RecordsOnly p)
    (hw : Settled deserialize w₀ D w) {Q : α → World → Prop}
    (hQ : ∀ a w', SameMarkers w w' → Q a w') :
  p.wp nodeMachine G (Settled deserialize w₀ D) Q w
  := by
  apply wp_frame SameMarkers.refl (fun _ _ _ => SameMarkers.trans) sameMarkers_recordsOnly hp hQ
  · intro w' h
    apply hw.same h
  · intro w' h
    apply (hw.same h).reboot

def World.recordedClaimed (w : World) (h : PaymentHash) : Bool :=
  if ((w.cells .makerSwaps).memory.lookup h).isSome then
    ((w.cells .makerSwaps).memory.lookup h).any (·.status = .succeeded)
  else
    ((w.cells .inboundPayments).memory.lookup h).any (·.status = .succeeded)

/-- The worlds agree on the records in memory. -/
def SameMemory (w w' : World) : Prop :=
  ∀ c, (w'.cells c).memory = (w.cells c).memory

theorem sameMemory_setLocked (w : World) (c : Cell) (b : Bool) :
  SameMemory w (w.setLocked c b)
  := by
  intro c'
  by_cases hc : c' = c
  · subst hc
    simp [World.setLocked, World.setCell]
  · simp [World.setLocked, World.setCell, Function.update_of_ne hc]

theorem wp_readCell {c : Cell} (hw : Settled deserialize w₀ D w) {Q : c.Content → World → Prop}
    (hQ : ∀ w', SameMarkers w w' → SameMemory w w' → Q (w.cells c).memory w') :
  (readCell c).wp nodeMachine G (Settled deserialize w₀ D) Q w
  := by
  have hlocked : Settled deserialize w₀ D (w.setLocked c true) := hw.congr rfl rfl rfl
  rw [readCell, wp_bind]
  apply wp_lockCell hw.reboot hw.panic
  intro _
  rw [wp_bind]
  apply wp_unlockCell hlocked.reboot
  apply hQ
  · exact ⟨rfl, rfl, rfl, rfl⟩
  · intro c'
    rw [sameMemory_setLocked _ c false c', sameMemory_setLocked w c true c']

theorem alreadyClaimed_wp (h : PaymentHash) (hw : Settled deserialize w₀ D w)
    {Q : Bool → World → Prop} (hQ : ∀ w', SameMarkers w w' → Q (w.recordedClaimed h) w') :
  (alreadyClaimed h ((w.cells .makerSwaps).memory.lookup h).isSome).wp nodeMachine G
    (Settled deserialize w₀ D) Q w
  := by
  rw [alreadyClaimed]
  split
  · rename_i hmaker
    rw [wp_bind]
    apply wp_readCell hw
    intro w' hsame hmemory
    have h' := hQ w' hsame
    rw [recordedClaimed, if_pos hmaker] at h'
    apply h'
  rename_i hmaker
  rw [wp_bind]
  apply wp_readCell hw
  intro w' hsame hmemory
  have h' := hQ w' hsame
  rw [recordedClaimed, if_neg hmaker] at h'
  apply h'

variable (deserialize) in
/-- What holds after the end of a payment was handled: its markers are gone if it was
handled without an error. -/
def DeliveryPost (w₀ : World) (D : Set (PaymentHash × Bool)) (h : PaymentHash)
    (receiver : Bool) : Except ReplayEvent Unit → World → Prop
  | .error _, w' => Settled deserialize w₀ D w'
  | .ok _, w' => Settled deserialize w₀ (insert (h, receiver) D) w'

/-- Recording the end of a payment after its markers are gone. -/
theorem wp_recordEnd {α : Type} {p : Node α} (hp : RecordsOnly p)
    (hw : Settled deserialize w₀ (insert (h, receiver) D) w) :
  (p >>= fun _ => (pure (.ok ()) : Node (Except ReplayEvent Unit))).wp nodeMachine G
    (Settled deserialize w₀ D) (DeliveryPost deserialize w₀ D h receiver) w
  := by
  rw [wp_bind]
  apply wp_recordsOnly hp (hw.mono (Set.subset_insert _ _))
  intro _ w' hsame
  apply hw.same hsame

theorem paymentSent_wp (e : PaymentSent)
    (hL : Ledger deserialize w₀ D e.paymentHash false [] w) :
  (paymentSent deserialize e).wp nodeMachine (Undisturbed deserialize)
    (Settled deserialize w₀ D) (DeliveryPost deserialize w₀ D e.paymentHash false) w
  := by
  rw [paymentSent]
  apply wp_seq (finalizeRgbChannelPayment_wp hL)
  rintro (_ | _) w1 hw1
  · apply hw1
  have hweak := hw1.mono (Set.subset_insert (e.paymentHash, false) D)
  rw [wp_bind]
  apply wp_recordsOnly (RecordsOnly.isMakerSwap _) hweak
  intro makerSwap w2 h2
  have hw2 := hw1.same h2
  split
  · apply wp_recordEnd (RecordsOnly.updateMakerSwapStatus _ _) hw2
  split
  · apply wp_nodePanic (hweak.same h2).reboot (hweak.same h2).panic
  · apply wp_recordEnd (RecordsOnly.updateOutboundPayment _ _ _) hw2

theorem paymentClaimed_wp (e : PaymentClaimed)
    (hL : Ledger deserialize w₀ D e.paymentHash true [] w)
    (hclaimed : w.recordedClaimed e.paymentHash →
      ∀ c, w.markerAt deserialize e.paymentHash true c = none) :
  (paymentClaimed deserialize e).wp nodeMachine (Undisturbed deserialize)
    (Settled deserialize w₀ D) (DeliveryPost deserialize w₀ D e.paymentHash true) w
  := by
  rw [paymentClaimed, wp_bind, isMakerSwap, wp_bind]
  apply wp_readCell hL.settled
  intro w1 h1 hmemory
  have hw1 := hL.settled.same h1
  have hrecorded : w1.recordedClaimed e.paymentHash = w.recordedClaimed e.paymentHash := by
    rw [recordedClaimed, recordedClaimed, hmemory, hmemory]
  rw [pure_eq_ret, wp_ret, wp_bind, ← hmemory]
  apply alreadyClaimed_wp _ hw1
  intro w2 h2
  have hsame := h1.trans h2
  rw [hrecorded]
  split
  · -- The event is skipped, and no marker is left.
    rename_i hskip
    refine ⟨(hL.settled.same hsame).conserved, ?_⟩
    rintro p (rfl | hp) c
    · rw [markerAt_congr hsame.rows hsame.rgbInfo]
      apply hclaimed hskip c
    · apply (hL.settled.same hsame).done p hp c
  have hL2 : Ledger deserialize w₀ D e.paymentHash true [] w2 := by
    apply hL.transport hsame.handling hsame.changes
    · intro h i c
      apply markerAt_congr hsame.rows hsame.rgbInfo
    · intro i c info hc
      rw [hsame.rows]
      apply hL.directed i c info hc
  apply wp_seq (finalizeRgbChannelPayment_wp hL2)
  rintro (_ | _) w3 hw3
  · apply hw3
  have hweak := hw3.mono (Set.subset_insert (e.paymentHash, true) D)
  simp only
  split
  · apply wp_recordEnd (RecordsOnly.updateMakerSwapStatus _ _) hw3
  split
  · apply wp_nodePanic hweak.reboot hweak.panic
  · apply wp_recordEnd (RecordsOnly.upsertInboundPayment _ _ _ _ _ _ _) hw3

/-! ### Deliveries -/

variable (deserialize) in
/-- An event that ends a payment may be delivered: the markers of its payment hash for the
other direction belong to swaps, and it is not recorded as handled while markers it covers
are left. -/
structure Deliverable (e : Event) (w : World) : Prop where
  payment : e.payment?.isSome
  directed : ∀ h receiver, e.payment? = some (h, receiver) → w.Directed deserialize h receiver
  unclaimed : ∀ claimed, e = .paymentClaimed claimed →
    w.recordedClaimed claimed.paymentHash →
      ∀ c, w.markerAt deserialize claimed.paymentHash true c = none

variable {e : Event}

theorem Settled.ledger (hw : Settled deserialize w₀ D w)
    (hdirected : w.Directed deserialize h receiver) (he : e.payment? = some (h, receiver)) :
  Ledger deserialize w₀ D h receiver [] { w with handling := some e }
  := by
  refine ⟨he, hdirected, fun _ _ _ _ => hw.conserved _ _ _, ?_, ?_, hw.done⟩
  · intro c hc
    cases hc
  · intro key hkey
    cases hkey

theorem delivery_wp (he : e.payment? = some (h, receiver)) (hdeliver : Deliverable deserialize e w)
    (hw : Settled deserialize w₀ D w) :
  (handleEvent deserialize e).wp nodeMachine (Undisturbed deserialize)
    (Settled deserialize w₀ D) (DeliveryPost deserialize w₀ D h receiver) w
  := by
  have hL := hw.ledger (hdeliver.directed h receiver he) he
  unfold handleEvent
  rw [wp_bind]
  refine ⟨fun _ => hw.reboot, fun _ _ => ?_⟩
  cases e with
  | htlcIntercepted e => cases he
  | paymentForwarded e => cases he
  | paymentSent e =>
    obtain ⟨rfl, rfl⟩ := Prod.mk.injEq _ _ _ _ ▸ some.inj he
    apply paymentSent_wp e hL
  | paymentClaimed e =>
    obtain ⟨rfl, rfl⟩ := Prod.mk.injEq _ _ _ _ ▸ some.inj he
    apply paymentClaimed_wp e hL
    apply hdeliver.unclaimed e rfl

/-- The deliveries made so far. -/
abbrev Deliveries : Type := List (Entry Event (Except ReplayEvent Unit))

/-- The payments whose end was handled without an error. -/
def Deliveries.finished (history : Deliveries) : Set (PaymentHash × Bool) :=
  { p | ∃ e, (e, some (.ok ())) ∈ history ∧ e.payment? = some p }

theorem Deliveries.finished_snoc {history : Deliveries} {r : Option (Except ReplayEvent Unit)}
    (hr : r ≠ some (.ok ())) :
  Deliveries.finished (history ++ [(e, r)]) ⊆ history.finished
  := by
  rintro p ⟨e', hmem, hp⟩
  rcases mem_append.mp hmem with hmem | hmem
  · exact ⟨e', hmem, hp⟩
  · cases mem_singleton.mp hmem
    exact absurd rfl hr

theorem Deliveries.finished_snoc_ok {history : Deliveries} {p : PaymentHash × Bool}
    (he : e.payment? = some p) :
  Deliveries.finished (history ++ [(e, some (.ok ()))]) ⊆ insert p history.finished
  := by
  rintro p' ⟨e', hmem, hp'⟩
  rcases mem_append.mp hmem with hmem | hmem
  · right
    exact ⟨e', hmem, hp'⟩
  · left
    cases mem_singleton.mp hmem
    rw [he, some.injEq] at hp'
    apply hp'.symm

/-- Along deliveries every marker is applied once or is still stored, and those of the
payments handled without an error are gone. -/
theorem settled_of_deliveries (hw0 : w₀.changes = [])
    (as : List (Action Event Fault))
    (has : AllowsAll nodeMachine (Undisturbed deserialize) (Deliverable deserialize)
      (handleEvent deserialize) ⟨[], w₀⟩ as) :
  let s := run nodeMachine (handleEvent deserialize) ⟨[], w₀⟩ as
  Settled deserialize w₀ (Deliveries.finished s.history) s.world
  := by
  apply run_invariant (I := fun history w =>
    Settled deserialize w₀ (Deliveries.finished history) w) _ _ as _ has
  · intro history e w hdeliver hw
    obtain ⟨⟨h, receiver⟩, he⟩ := isSome_iff_exists.mp hdeliver.payment
    apply wp_mono _ _ _ _ (delivery_wp he hdeliver hw)
    · intro w' hw'
      apply hw'.mono (Deliveries.finished_snoc (by simp))
    · rintro (_ | _) w' hw'
      · apply hw'.mono (Deliveries.finished_snoc (by simp))
      · apply hw'.mono (Deliveries.finished_snoc_ok he)
  · intro history w hw
    apply hw.reboot
  · constructor
    · intro h receiver c
      rw [changesOf, hw0]
      rfl
    · rintro p ⟨e, hmem, -⟩
      cases hmem

end Markers

/-- Once the end of a payment was handled without an error, every marker it covers changed
the balance of its channel once, by its amount and in its direction; and the balances are
the old ones with the changes made. -/
theorem markers_applied_once (deserialize : Bytes → Option RgbPaymentInfo) (w₀ : World)
    (hw₀ : w₀.changes = []) (as : List (Action Event Fault))
    (has : AllowsAll nodeMachine (Undisturbed deserialize) (Deliverable deserialize)
      (handleEvent deserialize) ⟨[], w₀⟩ as) :
  let s := run nodeMachine (handleEvent deserialize) ⟨[], w₀⟩ as
  (∀ e h receiver, (e, some (.ok ())) ∈ s.history → e.payment? = some (h, receiver) →
      ∀ c, s.world.changesOf h receiver c = w₀.due deserialize h receiver c)
    ∧ ∀ c, s.world.balance c = (w₀.balance c).map (· + netChange c s.world.changes)
  := by
  have hsettled := settled_of_deliveries hw₀ as has
  obtain ⟨made, hchanges, hbalance⟩ := booked_run (handleEvent deserialize) w₀ [] as
  constructor
  · intro e h receiver hmem he c
    have hdone := hsettled.done (h, receiver) ⟨e, hmem, he⟩ c
    rw [← hsettled.conserved h receiver c, due, hdone]
    simp
  · rw [hw₀, nil_append] at hchanges
    rw [hchanges]
    apply hbalance

/-! ### A payment over one channel -/

/-- A marker of 5 units received over a channel. -/
def receivedFive : RgbPaymentInfo :=
  ⟨List.Vector.replicate 32 7, 5, false, true⟩

def sampleHash : PaymentHash := List.Vector.replicate 32 3

def sampleChannelId : Str := hexStr (replicate 32 1)

/-- A node with 10 units in a channel and a marker of 5 more. -/
def markedWorld : World :=
  { freshWorld with
    rgbInfo := Table.ofList [((sampleChannelId, false), ⟨List.Vector.replicate 32 7, 10, 100⟩)]
    rows := Table.ofList [(paymentKey true (sampleChannelId ++ pendingSuffix sampleHash), [1])] }

def claimedEvent : Event :=
  .paymentClaimed
    ⟨sampleHash, .spontaneousPayment (List.Vector.replicate 32 4), 1000,
      some (List.Vector.replicate 33 2)⟩

theorem not_dirty_of_changes {deserialize : Bytes → Option RgbPaymentInfo} {w : World}
    (hw : w.changes = []) :
  ¬ w.Dirty deserialize
  := by
  rintro ⟨h, receiver, c, hne, -⟩
  rw [changesOf, hw] at hne
  apply hne rfl

theorem directed_claimedEvent {w : World} (hrows : w.rows = markedWorld.rows) :
  ∀ h receiver, claimedEvent.payment? = some (h, receiver) →
    w.Directed (fun _ => some receivedFive) h receiver
  := by
  rintro h receiver ⟨⟩ i c info - hinfo
  have hlookup : ∀ k, w.rows.lookup k = if k = paymentKey true
      (sampleChannelId ++ pendingSuffix sampleHash) then some [1] else none := by
    intro k
    rw [hrows]
    apply Table.lookup_insert_eq
  rw [hlookup] at hinfo
  split_ifs at hinfo with hk
  · cases hinfo
    obtain ⟨rfl, -⟩ := paymentKey_injective hk
    exact ⟨rfl, Or.inr rfl⟩
  · cases hinfo

theorem deliverable_claimedEvent {w : World} (hrows : w.rows = markedWorld.rows)
    (hclaimed : w.recordedClaimed sampleHash = false) :
  Deliverable (fun _ => some receivedFive) claimedEvent w
  := by
  refine ⟨rfl, directed_claimedEvent hrows, ?_⟩
  rintro claimed ⟨⟩ hskip
  rw [hclaimed] at hskip
  cases hskip

/-- The node crashes before the markers are listed, and the event is delivered again. -/
def crashedBefore : List (Action Event Fault) :=
  [.call claimedEvent (replicate 5 (.go .calm) ++ [.crash]), .call claimedEvent []]

theorem markers_applied_once_crashedBefore :
  let s := run nodeMachine (handleEvent fun _ => some receivedFive)
    ⟨[], markedWorld⟩ crashedBefore
  (claimedEvent, some (.ok ())) ∈ s.history
    ∧ s.world.changesOf sampleHash true sampleChannelId
      = markedWorld.due (fun _ => some receivedFive) sampleHash true sampleChannelId
    ∧ markedWorld.due (fun _ => some receivedFive) sampleHash true sampleChannelId = [(0, 5)]
  := by
  refine ⟨by decide +kernel, ?_, by decide +kernel⟩
  apply (markers_applied_once _ markedWorld rfl crashedBefore ?_).1 claimedEvent
  · decide +kernel
  · rfl
  refine ⟨⟨deliverable_claimedEvent rfl rfl, ?_⟩, ⟨deliverable_claimedEvent rfl rfl, ?_⟩,
    trivial⟩
  · have hcalm : ∀ w : World, w.Dirty (fun _ => some receivedFive) →
        (Fate.go Fault.calm) = .go .calm := fun _ _ => rfl
    exact ⟨hcalm _, hcalm _, hcalm _, hcalm _, hcalm _,
      fun hdirty => absurd hdirty (not_dirty_of_changes rfl), trivial⟩
  · apply admits_of_forall _ _ _ _ (by simp)
    intro o w _
    rfl

/-- The node crashes after the marker was applied, before it is removed. -/
def crashedBetween : List (Action Event Fault) :=
  [.call claimedEvent (replicate 9 (.go .calm) ++ [.crash]), .call claimedEvent []]

/-- The marker is applied again. -/
theorem marker_applied_twice :
  let s := run nodeMachine (handleEvent fun _ => some receivedFive)
    ⟨[], markedWorld⟩ crashedBetween
  (claimedEvent, some (.ok ())) ∈ s.history
    ∧ markedWorld.due (fun _ => some receivedFive) sampleHash true sampleChannelId = [(0, 5)]
    ∧ s.world.changesOf sampleHash true sampleChannelId = [(0, 5), (0, 5)]
    ∧ markedWorld.balance sampleChannelId = some 10
    ∧ s.world.balance sampleChannelId = some 20
  := by
  decide +kernel

end RgbLightning
