import RgbLightning.Payments.Markers

/-!
# RGB payment records of the browser node

The browser node applies the records of a payment to the balances of their channels as the
native one does, with its own treatment of errors: a channel whose RGB info cannot be read is
skipped, a record counts as applied even if the update of the balance failed, and the
handlers discard what `finalize_rgb_channel_payment` returns.

The handlers return, as a ghost, whether no operation of the store failed.  A record can be
applied twice, or never (`record_applied_wrongly`); `records_applied_once` says when it is
applied once.
-/

namespace RgbLightning.Browser

open Prog World Session List Option

/-! ### The store -/

inductive RgbStoreOp where
  | deliver (e : Event)
  | list (primary secondary : Str)
  | read (k : Key)
  | remove (k : Key)
  | readRgbChannelInfo (channelId : Str) (pending : Bool)
  | updateRgbChannelAmount (channelId : Str) (offered received : ℕ)

abbrev RgbStoreOp.Ans : RgbStoreOp → Type
  | .deliver _ => Unit
  | .list _ _ => Except IoError (List Str)
  | .read _ => Except IoError Bytes
  | .remove _ => Except IoError Unit
  | .readRgbChannelInfo _ _ => Except IoError RgbInfo
  | .updateRgbChannelAmount _ _ _ => Except IoError Unit

abbrev rgbStoreInterface : Interface := ⟨RgbStoreOp, RgbStoreOp.Ans⟩

abbrev Rgb (α : Type) : Type := Prog rgbStoreInterface α

abbrev rgbOp (o : RgbStoreOp) : Rgb o.Ans := Prog.perform (S := rgbStoreInterface) o

/-- The answers of the world.  An update reads the balance and writes it back: it fails
before the write, or after it. -/
def execRgb (f : Fault) : (o : RgbStoreOp) → World → Option o.Ans × World
  | .deliver e, w => exec f (.deliver e) w
  | .list primary secondary, w => exec f (.list primary secondary) w
  | .read k, w => exec f (.read k) w
  | .remove k, w => exec f (.remove k) w
  | .readRgbChannelInfo channelId pending, w =>
    exec f (.readRgbChannelInfo channelId pending) w
  | .updateRgbChannelAmount channelId offered received, w =>
    match w.rgbInfo.lookup (channelId, false) with
    | none => (some (.error .keyNotFound), w)
    | some info =>
      let (r, w') := commit f w (w.updateRgbChannelAmount channelId info offered received)
      (some r, w')

/-- The machine the handlers run on.  A crash is a reload of the page. -/
abbrev rgbMachine : Machine rgbStoreInterface World Fault where
  exec := execRgb
  reboot := reboot
  calm := .calm

/-! ### The handlers -/

section Finalize

variable (deserialize : Bytes → Option RgbPaymentInfo)
variable (paymentHash : PaymentHash)

/-- Applies a record.  Returns whether it counts as applied, and whether nothing failed. -/
def applyRecord (receiver inbound : Bool) (key : Str) :
    Rgb (Except IoError (Bool × Bool)) := do
  match markerChannel paymentHash key with
  | none => pure (.ok (false, true))
  | some channelId =>
    match ← rgbOp (.read (paymentKey inbound key)) with
    | .error e => if e.kind = .notFound then pure (.ok (false, true)) else pure (.error e)
    | .ok data =>
      match deserialize data with
      | none => pure (.ok (false, true))
      | some info =>
        if info.swapPayment && receiver != info.inbound then
          pure (.ok (false, true))
        else
          match ← rgbOp (.readRgbChannelInfo channelId false) with
          | .error e => pure (.ok (false, decide (e.kind = .notFound)))
          | .ok _ => do
            let updated ← rgbOp (.updateRgbChannelAmount channelId
              (info.amounts receiver).1 (info.amounts receiver).2)
            pure (.ok (true, updated.isOk))

/-- Applies records.  Returns the ones that count as applied, and whether nothing
failed. -/
def applyRecords (paymentHash : PaymentHash) (receiver inbound : Bool) :
    List Str → Rgb (Except IoError (List Str × Bool))
  | [] => pure (.ok ([], true))
  | key :: keys => do
    match ← applyRecord deserialize paymentHash receiver inbound key with
    | .error e => pure (.error e)
    | .ok (applied, clean) =>
      match ← applyRecords paymentHash receiver inbound keys with
      | .error e => pure (.error e)
      | .ok (appliedKeys, clean') =>
        pure (.ok (if applied then key :: appliedKeys else appliedKeys, clean && clean'))

/-- Removes values.  Returns whether nothing failed. -/
def removeKeys (inbound : Bool) : List Str → Rgb Bool
  | [] => pure true
  | key :: keys => do
    let removed ← rgbOp (.remove (paymentKey inbound key))
    let clean ← removeKeys inbound keys
    pure (removed.isOk && clean)

/-- Applies and removes the records of a direction.  Returns whether there were any, and
whether nothing failed. -/
def finalizeDirection (receiver inbound : Bool) :
    Rgb (Except IoError (Bool × Bool)) := do
  match ← rgbOp (.list rgbPrimaryNamespace (rgbPaymentInfoNs inbound)) with
  | .error e => pure (.error e)
  | .ok keys =>
    match ← applyRecords deserialize paymentHash receiver inbound keys with
    | .error e => pure (.error e)
    | .ok (appliedKeys, clean) => do
      let removed ← removeKeys inbound appliedKeys
      pure (.ok (decide (appliedKeys ≠ []), clean && removed))

/-- Removes the record of a payment hash without a channel, if no channel has one left.
Returns whether nothing failed. -/
def clearRawPending (inbound : Bool) :
    Rgb (Except IoError Bool) := do
  match ← rgbOp (.list rgbPrimaryNamespace (rgbPaymentInfoNs inbound)) with
  | .error e => pure (.error e)
  | .ok keys =>
    if keys.any (isChannelMarker paymentHash) then
      pure (.ok true)
    else do
      let removed ← rgbOp (.remove (paymentKey inbound (pendingSuffix paymentHash)))
      pure (.ok removed.isOk)

/-- Applies and removes the records of a payment that was received or sent.  Returns whether
nothing failed. -/
def finalizeRgbChannelPayment (receiver : Bool) :
    Rgb (Except IoError Bool) := do
  match ← finalizeDirection deserialize paymentHash receiver true with
  | .error e => pure (.error e)
  | .ok (appliedInbound, cleanInbound) =>
    match ← finalizeDirection deserialize paymentHash receiver false with
    | .error e => pure (.error e)
    | .ok (appliedOutbound, cleanOutbound) =>
      let clean := cleanInbound && cleanOutbound
      if appliedInbound || appliedOutbound then
        match ← clearRawPending paymentHash true with
        | .error e => pure (.error e)
        | .ok clearedInbound =>
          match ← clearRawPending paymentHash false with
          | .error e => pure (.error e)
          | .ok clearedOutbound => pure (.ok (clean && clearedInbound && clearedOutbound))
      else
        pure (.ok clean)

/-- The handlers of `PaymentSent` and `PaymentClaimed`, as far as the RGB store goes.
Returns whether nothing failed. -/
def handleLdkEventSync (e : Event) : Rgb Bool := do
  rgbOp (.deliver e)
  match e.payment? with
  | none => pure true
  | some (paymentHash, receiver) =>
    match ← finalizeRgbChannelPayment deserialize paymentHash receiver with
    | .error _ => pure false
    | .ok clean => pure clean

end Finalize

/-! ### Rules -/

section Records

variable (deserialize : Bytes → Option RgbPaymentInfo)

/-- Nothing fails and the page is not reloaded while a record that was applied is still
stored, and no update of a balance fails without effect. -/
def Undisturbed : Guard rgbStoreInterface World Fault := fun o fate w =>
  (w.Dirty deserialize → fate = .go .calm)
    ∧ match o, fate with
      | .updateRgbChannelAmount .., .go (.fails _) => False
      | _, _ => True

variable {deserialize}
variable {w₀ w : World} {D : Set (PaymentHash × Bool)} {h : PaymentHash} {receiver : Bool}
variable {A : List Str}

/-- A query that may fail, when no record that was applied is stored. -/
theorem wp_answer {α : Type} {o : RgbStoreOp} {a : Except IoError α}
    {k : Except IoError α → o.Ans}
    (hexec : ∀ f, execRgb f o w = (some (k (answer f a)), w)) {C : World → Prop}
    {Q : o.Ans → World → Prop} (hL : Ledger deserialize w₀ D h receiver A w)
    (hcrash : A = [] → C w.reboot) (hok : Q (k a) w)
    (herror : A = [] → ∀ e : Failure, Q (k (.error e.val)) w) :
  (rgbOp o).wp rgbMachine (Undisturbed deserialize) C Q w
  := by
  have hnil {fate : Fate Fault} (hg : w.Dirty deserialize → fate = .go .calm)
      (hfate : fate ≠ .go .calm) : A = [] :=
    hL.eq_nil fun hdirty => hfate (hg hdirty)
  refine ⟨fun hg => hcrash (hnil hg.1 (by simp)), fun f hg => ?_⟩
  rw [show rgbMachine.exec f o w = (some (k (answer f a)), w) from hexec f]
  rw [answer]
  rcases herr : f.error? with _ | e
  · apply hok
  · apply herror (hnil hg.1 _)
    rintro ⟨⟩
    cases herr

/-- A balance is updated: it may be reported as failed, but not fail without effect. -/
theorem wp_updateRgbChannelAmount {C : World → Prop} {Q : Except IoError Unit → World → Prop}
    {c : Str} {offered received : ℕ} {rgbInfo : RgbInfo}
    (hinfo : w.rgbInfo.lookup (c, false) = some rgbInfo)
    (hL : Ledger deserialize w₀ D h receiver A w) (hcrash : A = [] → C w.reboot)
    (hok : ∀ r, Q r (w.updateRgbChannelAmount c rgbInfo offered received)) :
  (rgbOp (.updateRgbChannelAmount c offered received)).wp rgbMachine
    (Undisturbed deserialize) C Q w
  := by
  refine ⟨fun hg => ?_, fun f hg => ?_⟩
  · apply hcrash
    apply hL.eq_nil
    intro hdirty
    cases hg.1 hdirty
  have hexec : rgbMachine.exec f (.updateRgbChannelAmount c offered received) w
      = (some (commit f w (w.updateRgbChannelAmount c rgbInfo offered received)).1,
        (commit f w (w.updateRgbChannelAmount c rgbInfo offered received)).2) := by
    simp only [execRgb, hinfo]
  rw [hexec]
  cases f with
  | fails e => exact hg.2.elim
  | calm => apply hok
  | lost e => apply hok
  | delay d => apply hok

/-! ### Applying records -/

variable (deserialize) in
/-- What holds after a record was looked at: it was applied, or it was left alone, and then
does not count unless something failed. -/
def RecordPost (w₀ : World) (D : Set (PaymentHash × Bool)) (h : PaymentHash)
    (receiver i : Bool) (A : List Str) (key : Str) (w : World) :
    Except IoError (Bool × Bool) → World → Prop
  | .error _, w' => A = [] ∧ Settled deserialize w₀ D w'
  | .ok (true, _), w' => i = receiver ∧ Ledger deserialize w₀ D h receiver (key :: A) w'
      ∧ Unmoved deserialize w w'
  | .ok (false, clean), w' => w' = w
      ∧ (clean = true → i = receiver → ∀ c, key = c ++ pendingSuffix h →
        w.markerAt deserialize h receiver c = none)

theorem applyRecord_wp (hL : Ledger deserialize w₀ D h receiver A w) {i : Bool} {key : Str}
    (hkey : (w.rows.lookup (paymentKey i key)).isSome) (hA : i = receiver → key ∉ A) :
  (applyRecord deserialize h receiver i key).wp rgbMachine (Undisturbed deserialize)
    (Settled deserialize w₀ D) (RecordPost deserialize w₀ D h receiver i A key w) w
  := by
  have hsettled : A = [] → Settled deserialize w₀ D w := by
    rintro rfl
    apply hL.settled
  rw [applyRecord]
  split
  · -- The key is not that of a record over a channel.
    rename_i hnone
    refine ⟨rfl, fun _ _ c hc => ?_⟩
    rw [markerAt, if_neg]
    rintro ⟨hlength, -⟩
    rw [markerChannel_eq_some.mpr ⟨hc, hlength⟩] at hnone
    cases hnone
  rename_i c hc
  obtain ⟨rfl, hlength⟩ := markerChannel_eq_some.mp hc
  obtain ⟨data, hdata⟩ := isSome_iff_exists.mp hkey
  -- What the record is, once it was read.
  have hmarker : ∀ c', c ++ pendingSuffix h = c' ++ pendingSuffix h → i = receiver →
      w.markerAt deserialize h receiver c'
        = if (w.rgbInfo.lookup (c, false)).isSome then deserialize data else none := by
    rintro c' hc' rfl
    rw [← append_cancel_right hc', markerAt, hdata, bind_some]
    simp only [hlength, true_and]
  rw [wp_bind]
  apply wp_answer (k := id) (fun _ => rfl) hL
  · intro hnil
    apply (hsettled hnil).reboot
  · rw [hdata]
    simp only [id]
    split
    · rename_i hinfo
      refine ⟨rfl, fun _ hi c' hc' => ?_⟩
      rw [hmarker c' hc' hi, hinfo, ite_self]
    rename_i info hinfo
    have hrow : (w.rows.lookup (paymentKey i (c ++ pendingSuffix h))).bind deserialize
        = some info := by
      rw [hdata]
      apply hinfo
    obtain ⟨hinbound, hswap⟩ := hL.directed i c info hlength hrow
    by_cases hi : i = receiver
    · subst hi
      rw [if_neg (by simp [hinbound]), wp_bind]
      apply wp_answer (k := id) (fun _ => rfl) hL
      · intro hnil
        apply (hsettled hnil).reboot
      · rcases hrgb : w.rgbInfo.lookup (c, false) with _ | rgbInfo
        · refine ⟨rfl, fun _ _ c' hc' => ?_⟩
          rw [hmarker c' hc' rfl, hrgb]
          rfl
        have hat : w.markerAt deserialize h i c = some info := by
          rw [hmarker c rfl rfl, hrgb, hinfo]
          rfl
        simp only [id]
        rw [wp_bind]
        apply wp_updateRgbChannelAmount hrgb hL
        · intro hnil
          apply (hsettled hnil).reboot
        · intro r
          exact ⟨rfl, hL.apply (hA rfl) hat hrgb, rfl, markerAt_update hrgb _ _⟩
      · intro _ e
        refine ⟨rfl, fun hclean => ?_⟩
        exact absurd (of_decide_eq_true hclean) e.property
    · -- The record is that of a swap in the other direction.
      have hskip : (info.swapPayment && receiver != info.inbound) = true := by
        rw [hinbound, hswap.resolve_right hi, Bool.true_and]
        simpa using Ne.symm hi
      rw [if_pos hskip]
      exact ⟨rfl, fun _ hi' => absurd hi' hi⟩
  · intro hnil e
    simp only [id, if_neg e.property]
    exact ⟨hnil, hsettled hnil⟩

variable (deserialize) in
/-- What holds after records were looked at: those that count were applied, unless something
failed while no record that was applied was stored. -/
def RecordsPost (w₀ : World) (D : Set (PaymentHash × Bool)) (h : PaymentHash)
    (receiver i : Bool) (A keys : List Str) (w : World) :
    Except IoError (List Str × Bool) → World → Prop
  | .error _, w' => A = [] ∧ Settled deserialize w₀ D w'
  | .ok (applied, clean), w' => Ledger deserialize w₀ D h receiver (applied ++ A) w'
      ∧ Unmoved deserialize w w' ∧ applied.Sublist keys ∧ (i ≠ receiver → applied = [])
      ∧ (clean = true → i = receiver → ∀ c, c ++ pendingSuffix h ∈ keys →
        (w.markerAt deserialize h receiver c).isSome → c ++ pendingSuffix h ∈ applied)

theorem applyRecords_wp {i : Bool} {keys : List Str} (hnodup : keys.Nodup)
    (hL : Ledger deserialize w₀ D h receiver A w)
    (hkeys : ∀ key ∈ keys, (w.rows.lookup (paymentKey i key)).isSome)
    (hA : i = receiver → ∀ key ∈ keys, key ∉ A) :
  (applyRecords deserialize h receiver i keys).wp rgbMachine (Undisturbed deserialize)
    (Settled deserialize w₀ D) (RecordsPost deserialize w₀ D h receiver i A keys w) w
  := by
  induction keys generalizing w A with
  | nil =>
    refine ⟨hL, Unmoved.refl w, Sublist.slnil, fun _ => rfl, ?_⟩
    intro _ _ c hc
    cases hc
  | cons key keys ih =>
    obtain ⟨hnot, hnodup⟩ := nodup_cons.mp hnodup
    rw [applyRecords]
    apply wp_seq (applyRecord_wp hL (hkeys key mem_cons_self)
      fun hi => hA hi key mem_cons_self)
    rintro (e | ⟨applied, clean⟩) w1 hpost
    · apply hpost
    cases applied with
    | false =>
      obtain ⟨rfl, hnone⟩ := hpost
      simp only
      apply wp_seq (ih hnodup hL
        (fun key' hkey' => hkeys key' (mem_cons_of_mem _ hkey'))
        fun hi key' hkey' => hA hi key' (mem_cons_of_mem _ hkey'))
      rintro (e | ⟨applied, clean'⟩) w2 hpost
      · apply hpost
      obtain ⟨hL2, hsame, hsub, hother, hall⟩ := hpost
      refine ⟨hL2, hsame, hsub.cons _, hother, fun hclean hi c hc hsome => ?_⟩
      rw [Bool.and_eq_true] at hclean
      rcases mem_cons.mp hc with hc | hc
      · rw [hnone hclean.1 hi c hc.symm] at hsome
        cases hsome
      · apply hall hclean.2 hi c hc hsome
    | true =>
      obtain ⟨rfl, hL1, hsame1⟩ := hpost
      simp only
      apply wp_seq (ih hnodup hL1 _ _)
      · rintro (e | ⟨applied, clean'⟩) w2 hpost
        · cases hpost.1
        obtain ⟨hL2, hsame2, hsub, hother, hall⟩ := hpost
        refine ⟨hL2.congr ?_, hsame1.trans hsame2, hsub.cons_cons _,
          fun hi => absurd rfl hi, fun hclean hi c hc hsome => ?_⟩
        · intro key'
          simp only [if_true, mem_cons, mem_append]
          tauto
        rw [Bool.and_eq_true] at hclean
        rcases mem_cons.mp hc with hc | hc
        · rw [hc]
          apply mem_cons_self
        · apply mem_cons_of_mem
          apply hall hclean.2 hi c hc
          rw [hsame1.markerAt]
          apply hsome
      · intro key' hkey'
        rw [hsame1.rows]
        apply hkeys key' (mem_cons_of_mem _ hkey')
      · rintro - key' hkey' hmem
        rcases mem_cons.mp hmem with rfl | hmem
        · apply hnot hkey'
        · apply hA rfl key' (mem_cons_of_mem _ hkey') hmem

/-! ### Removing records -/

/-- Removing all records that were applied.  As long as one is left nothing fails. -/
theorem removeKeys_wp {keys : List Str} (hnodup : keys.Nodup)
    (hL : Ledger deserialize w₀ D h receiver keys w) {P : Prop}
    (hall : P → ∀ c, (w.markerAt deserialize h receiver c).isSome →
      c ++ pendingSuffix h ∈ keys) :
  (removeKeys receiver keys).wp rgbMachine (Undisturbed deserialize)
    (Settled deserialize w₀ D)
    (fun _ w' => Ledger deserialize w₀ D h receiver [] w'
      ∧ (P → ∀ c, w'.markerAt deserialize h receiver c = none)) w
  := by
  induction keys generalizing w with
  | nil =>
    refine ⟨hL, fun hP c => ?_⟩
    apply not_isSome_iff_eq_none.mp
    intro hsome
    cases hall hP c hsome
  | cons key keys ih =>
    obtain ⟨hnot, hnodup⟩ := nodup_cons.mp hnodup
    have hdirty := hL.dirty mem_cons_self
    rw [removeKeys, wp_bind]
    refine ⟨fun hg => ?_, fun f hg => ?_⟩
    · cases hg.1 hdirty
    cases hg.1 hdirty
    change (removeKeys receiver keys >>= _).wp _ _ _ _ _
    rw [wp_bind]
    apply ih hnodup (hL.remove hnot)
    intro hP c hsome
    rw [markerAt_erase] at hsome
    split_ifs at hsome with hc
    · cases hsome
    rcases mem_cons.mp (hall hP c hsome) with heq | hmem
    · exact absurd ⟨rfl, heq⟩ hc
    · apply hmem

/-- The payments whose records are gone after one direction. -/
def doneAfter (D : Set (PaymentHash × Bool)) (h : PaymentHash) (receiver i clean : Bool) :
    Set (PaymentHash × Bool) :=
  if clean = true ∧ i = receiver then insert (h, receiver) D else D

theorem subset_doneAfter (D : Set (PaymentHash × Bool)) (h : PaymentHash)
    (receiver i clean : Bool) :
  D ⊆ doneAfter D h receiver i clean
  := by
  rw [doneAfter]
  split_ifs
  · apply Set.subset_insert
  · rfl

/-- After both directions the records of the payment are gone, if nothing failed. -/
theorem subset_doneAfter_doneAfter (D : Set (PaymentHash × Bool)) (h : PaymentHash)
    (receiver clean clean' : Bool) (hclean : (clean && clean') = true) :
  insert (h, receiver) D ⊆ doneAfter (doneAfter D h receiver true clean) h receiver false clean'
  := by
  rw [Bool.and_eq_true] at hclean
  cases receiver with
  | true => simp [doneAfter, hclean]
  | false => simp [doneAfter, hclean]

section Ledger

variable (hL : Ledger deserialize w₀ D h receiver [] w)
include hL

theorem finalizeDirection_wp (i : Bool) :
  (finalizeDirection deserialize h receiver i).wp rgbMachine (Undisturbed deserialize)
    (Settled deserialize w₀ D)
    (fun r w' => match r with
      | .error _ => Settled deserialize w₀ D w'
      | .ok (_, clean) =>
        Ledger deserialize w₀ (doneAfter D h receiver i clean) h receiver [] w') w
  := by
  rw [finalizeDirection, wp_bind]
  apply wp_answer (k := id) (fun _ => rfl) hL
  · intro _
    apply hL.settled.reboot
  · simp only [id]
    apply wp_seq (applyRecords_wp (nodup_listRows _ _ _) hL
      (fun key hkey => mem_listRows.mp hkey) fun _ _ _ => not_mem_nil)
    rintro (e | ⟨applied, clean⟩) w1 hpost
    · apply hpost.2
    obtain ⟨hL1, hsame, hsub, hother, hall⟩ := hpost
    rw [append_nil] at hL1
    simp only
    rw [wp_bind]
    by_cases hi : i = receiver
    · subst hi
      have hremove := removeKeys_wp (P := clean = true) (hsub.nodup (nodup_listRows _ _ _)) hL1 ?_
      · apply wp_imp hremove
        rintro removed w2 ⟨hL2, hgone⟩
        refine ⟨hL2.handling, hL2.directed, hL2.conserved, hL2.applied, hL2.keys, ?_⟩
        intro p hp c
        rw [doneAfter] at hp
        split_ifs at hp with hclean
        · rw [Bool.and_eq_true] at hclean
          rcases hp with rfl | hp
          · apply hgone hclean.1.1
          · apply hL2.done p hp c
        · apply hL2.done p hp c
      · intro hclean c hsome
        rw [hsame.markerAt] at hsome
        apply hall hclean rfl c _ hsome
        apply mem_listRows.mpr
        rw [markerAt] at hsome
        split_ifs at hsome
        · apply isSome_of_isSome_bind hsome
        · cases hsome
    · rw [hother hi] at hL1 ⊢
      have hnot : ¬ ((clean && true) = true ∧ i = receiver) := fun hclean => hi hclean.2
      change Ledger deserialize w₀ (doneAfter D h receiver i (clean && true)) h receiver [] w1
      rw [doneAfter, if_neg hnot]
      apply hL1
  · intro _ e
    apply hL.settled

theorem clearRawPending_wp (i : Bool) :
  (clearRawPending h i).wp rgbMachine (Undisturbed deserialize) (Settled deserialize w₀ D)
    (fun r w' => match r with
      | .error _ => Settled deserialize w₀ D w'
      | .ok _ => Ledger deserialize w₀ D h receiver [] w') w
  := by
  have herase : Ledger deserialize w₀ D h receiver []
      { w with rows := w.rows.erase (paymentKey i (pendingSuffix h)) } := by
    refine Ledger.transport hL ?_ ?_ ?_ ?_
    · rfl
    · rfl
    · apply markerAt_erase_pendingSuffix
    · apply hL.directed.erase
  rw [clearRawPending, wp_bind]
  apply wp_answer (k := id) (fun _ => rfl) hL
  · intro _
    apply hL.settled.reboot
  · simp only [id]
    split
    · apply hL
    · refine ⟨fun _ => hL.settled.reboot, fun f _ => ?_⟩
      cases f with
      | fails e => apply hL
      | _ => apply herase
  · intro _ e
    apply hL.settled

theorem finalizeRgbChannelPayment_wp :
  (finalizeRgbChannelPayment deserialize h receiver).wp rgbMachine (Undisturbed deserialize)
    (Settled deserialize w₀ D)
    (fun r w' => match r with
      | .ok true => Settled deserialize w₀ (insert (h, receiver) D) w'
      | _ => Settled deserialize w₀ D w') w
  := by
  rw [finalizeRgbChannelPayment]
  apply wp_seq (finalizeDirection_wp hL true)
  rintro (e | ⟨appliedInbound, cleanInbound⟩) w1 hL1
  · apply hL1
  simp only
  rw [wp_bind]
  apply wp_mono (fun _ hw => hw.mono (subset_doneAfter _ _ _ _ _)) _ _ _
    (finalizeDirection_wp hL1 false)
  rintro (e | ⟨appliedOutbound, cleanOutbound⟩) w2 hL2
  · apply hL2.mono (subset_doneAfter _ _ _ _ _)
  simp only at hL2 ⊢
  set D' := doneAfter (doneAfter D h receiver true cleanInbound) h receiver false cleanOutbound
    with hD'
  have hsub : D ⊆ D' := (subset_doneAfter _ _ _ _ _).trans (subset_doneAfter _ _ _ _ _)
  -- The end of the payment was handled if nothing failed, before or in what is left to do.
  have hend {clean : Bool} {w' : World} (hw' : Settled deserialize w₀ D' w')
      (hclean : clean = true → (cleanInbound && cleanOutbound) = true) :
      match (Except.ok clean : Except IoError Bool) with
      | .ok true => Settled deserialize w₀ (insert (h, receiver) D) w'
      | _ => Settled deserialize w₀ D w' := by
    cases clean with
    | false => apply hw'.mono hsub
    | true => apply hw'.mono (subset_doneAfter_doneAfter _ _ _ _ _ (hclean rfl))
  split
  · rw [wp_bind]
    apply wp_mono (fun _ hw => hw.mono hsub) _ _ _ (clearRawPending_wp hL2 true)
    rintro (e | clearedInbound) w3 hL3
    · apply hL3.mono hsub
    simp only
    rw [wp_bind]
    apply wp_mono (fun _ hw => hw.mono hsub) _ _ _ (clearRawPending_wp hL3 false)
    rintro (e | clearedOutbound) w4 hL4
    · apply hL4.mono hsub
    · apply hend hL4.settled
      intro hclean
      rw [Bool.and_eq_true, Bool.and_eq_true] at hclean
      apply hclean.1.1
  · apply hend hL2.settled
    intro hclean
    apply hclean

end Ledger

/-! ### Deliveries -/

variable (deserialize) in
/-- An event that ends a payment may be delivered: the records of its payment hash have the
direction of their namespace, and those of the other direction belong to swaps. -/
structure Deliverable (e : Event) (w : World) : Prop where
  payment : e.payment?.isSome
  directed : ∀ h receiver, e.payment? = some (h, receiver) → w.Directed deserialize h receiver

theorem delivery_wp {e : Event} (he : e.payment? = some (h, receiver))
    (hdeliver : Deliverable deserialize e w) (hw : Settled deserialize w₀ D w) :
  (handleLdkEventSync deserialize e).wp rgbMachine (Undisturbed deserialize)
    (Settled deserialize w₀ D)
    (fun clean w' => Settled deserialize w₀ (if clean then insert (h, receiver) D else D) w') w
  := by
  have hL := hw.ledger (hdeliver.directed h receiver he) he
  unfold handleLdkEventSync
  rw [wp_bind]
  refine ⟨fun _ => hw.reboot, fun _ _ => ?_⟩
  simp only [he]
  change (finalizeRgbChannelPayment deserialize h receiver >>= _).wp _ _ _ _ _
  apply wp_seq (finalizeRgbChannelPayment_wp hL)
  rintro (_ | clean) w' hw'
  · apply hw'
  · cases clean with
    | true => apply hw'
    | false => apply hw'

/-- The deliveries made so far. -/
abbrev Deliveries : Type := List (Entry Event Bool)

/-- The payments whose end was handled without a failure. -/
def Deliveries.finished (history : Deliveries) : Set (PaymentHash × Bool) :=
  { p | ∃ e, (e, some true) ∈ history ∧ e.payment? = some p }

theorem Deliveries.finished_snoc {history : Deliveries} {e : Event} {p : PaymentHash × Bool}
    (he : e.payment? = some p) (r : Option Bool) :
  Deliveries.finished (history ++ [(e, r)])
    ⊆ if r = some true then insert p history.finished else history.finished
  := by
  rintro p' ⟨e', hmem, hp'⟩
  rcases mem_append.mp hmem with hmem | hmem
  · split_ifs
    · right
      exact ⟨e', hmem, hp'⟩
    · exact ⟨e', hmem, hp'⟩
  · obtain ⟨rfl, hr⟩ := Prod.mk.inj (mem_singleton.mp hmem)
    rw [if_pos hr.symm]
    left
    rw [he, some.injEq] at hp'
    apply hp'.symm

/-- Along deliveries every record is applied once or is still stored, and those of the
payments handled without a failure are gone. -/
theorem settled_of_deliveries (hw0 : w₀.changes = [])
    (as : List (Action Event Fault))
    (has : AllowsAll rgbMachine (Undisturbed deserialize) (Deliverable deserialize)
      (handleLdkEventSync deserialize) ⟨[], w₀⟩ as) :
  let s := run rgbMachine (handleLdkEventSync deserialize) ⟨[], w₀⟩ as
  Settled deserialize w₀ (Deliveries.finished s.history) s.world
  := by
  apply run_invariant (I := fun history w =>
    Settled deserialize w₀ (Deliveries.finished history) w) _ _ as _ has
  · intro history e w hdeliver hw
    obtain ⟨⟨h, receiver⟩, he⟩ := isSome_iff_exists.mp hdeliver.payment
    apply wp_mono _ _ _ _ (delivery_wp he hdeliver hw)
    · intro w' hw'
      apply hw'.mono (Deliveries.finished_snoc he none)
    · intro clean w' hw'
      apply hw'.mono
      intro p hp
      have hmem := Deliveries.finished_snoc he (some clean) hp
      simpa only [some.injEq] using hmem
  · intro history w hw
    apply hw.reboot
  · constructor
    · intro h receiver c
      rw [changesOf, hw0]
      rfl
    · rintro p ⟨e, hmem, -⟩
      cases hmem

theorem booked_exec (f : Fault) (o : RgbStoreOp) (w : World) :
  Booked w (execRgb f o w).2
  := by
  cases o with
  | updateRgbChannelAmount c offered received =>
    simp only [execRgb]
    split
    next => exact Booked.of_eq rfl rfl
    next info hinfo =>
      cases f with
      | fails e => exact Booked.of_eq rfl rfl
      | calm => apply booked_update hinfo
      | lost e => apply booked_update hinfo
      | delay d => apply booked_update hinfo
  | deliver e => apply RgbLightning.booked_exec f (.deliver e)
  | list primary secondary => apply RgbLightning.booked_exec f (.list primary secondary)
  | read k => apply RgbLightning.booked_exec f (.read k)
  | remove k => apply RgbLightning.booked_exec f (.remove k)
  | readRgbChannelInfo c pending =>
    apply RgbLightning.booked_exec f (.readRgbChannelInfo c pending)

end Records

/-- Once the end of a payment was handled without a failure, every record it covers changed
the balance of its channel once, by its amount and in its direction; and the balances are
the old ones with the changes made. -/
theorem records_applied_once (deserialize : Bytes → Option RgbPaymentInfo) (w₀ : World)
    (hw₀ : w₀.changes = []) (as : List (Action Event Fault))
    (has : AllowsAll rgbMachine (Undisturbed deserialize) (Deliverable deserialize)
      (handleLdkEventSync deserialize) ⟨[], w₀⟩ as) :
  let s := run rgbMachine (handleLdkEventSync deserialize) ⟨[], w₀⟩ as
  (∀ e h receiver, (e, some true) ∈ s.history → e.payment? = some (h, receiver) →
      ∀ c, s.world.changesOf h receiver c = w₀.due deserialize h receiver c)
    ∧ ∀ c, s.world.balance c = (w₀.balance c).map (· + netChange c s.world.changes)
  := by
  have hsettled := settled_of_deliveries hw₀ as has
  obtain ⟨made, hchanges, hbalance⟩ := booked_of_exec (M := rgbMachine)
    (fun _ => Booked.of_eq rfl rfl) booked_exec (handleLdkEventSync deserialize) w₀ [] as
  constructor
  · intro e h receiver hmem he c
    have hdone := hsettled.done (h, receiver) ⟨e, hmem, he⟩ c
    rw [← hsettled.conserved h receiver c, due, hdone]
    simp
  · rw [hw₀, nil_append] at hchanges
    rw [hchanges]
    apply hbalance

/-! ### A payment over one channel -/

theorem deliverable_sample {w : World} (hrows : w.rows = markedWorld.rows) :
  Deliverable (fun _ => some receivedFive) claimedEvent w
  := ⟨rfl, directed_claimedEvent hrows⟩

/-- The page is reloaded before the records are listed, and the event is delivered again. -/
theorem records_applied_once_reloadedBefore :
  let s := run rgbMachine (handleLdkEventSync fun _ => some receivedFive)
    ⟨[], markedWorld⟩ [.call claimedEvent [.go .calm, .crash], .call claimedEvent []]
  (claimedEvent, some true) ∈ s.history
    ∧ s.world.changesOf sampleHash true sampleChannelId
      = markedWorld.due (fun _ => some receivedFive) sampleHash true sampleChannelId
    ∧ markedWorld.due (fun _ => some receivedFive) sampleHash true sampleChannelId = [(0, 5)]
  := by
  refine ⟨by decide +kernel, ?_, by decide +kernel⟩
  apply (records_applied_once _ markedWorld rfl _ ?_).1 claimedEvent
  · decide +kernel
  · rfl
  refine ⟨⟨deliverable_sample rfl, ?_⟩, ⟨deliverable_sample rfl, ?_⟩, trivial⟩
  · exact ⟨⟨fun _ => rfl, trivial⟩,
      ⟨fun hdirty => absurd hdirty (not_dirty_of_changes rfl), trivial⟩, trivial⟩
  · apply admits_of_forall _ _ _ _ (by simp)
    intro o w
    refine ⟨fun _ => rfl, ?_⟩
    cases o <;> trivial

/-- If the page is reloaded after the record was applied and before it is removed, it is
applied again.  If the update of the balance fails, the record is removed, and the next
delivery, in which nothing fails, does not apply it. -/
theorem record_applied_wrongly :
  let run := run rgbMachine (handleLdkEventSync fun _ => some receivedFive)
    ⟨[], markedWorld⟩
  let reloaded := run [.call claimedEvent (replicate 5 (.go .calm) ++ [.crash]),
    .call claimedEvent []]
  let failed := run [.call claimedEvent (replicate 4 (.go .calm)
    ++ [.go (.fails ⟨⟨.other, "quota exceeded", none⟩, by decide⟩)]), .call claimedEvent []]
  markedWorld.due (fun _ => some receivedFive) sampleHash true sampleChannelId = [(0, 5)]
    ∧ (claimedEvent, some true) ∈ reloaded.history
    ∧ reloaded.world.changesOf sampleHash true sampleChannelId = [(0, 5), (0, 5)]
    ∧ (claimedEvent, some true) ∈ failed.history
    ∧ failed.world.changesOf sampleHash true sampleChannelId = []
  := by
  decide +kernel

end RgbLightning.Browser
