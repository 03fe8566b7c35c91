import RgbLightning.Swap.TakerSwaps

/-!
# The whitelist along a handler

What the handlers do to the whitelist is seen in three places: its copy in memory, its
copy in the store, and the list of the HTLCs forwarded.  A property of these survives a
restart if it survives replacing the copy in memory by the one in the store; the rules of
this module establish such properties along every handler, at every point where it may
crash or panic.
-/

namespace RgbLightning

open Prog

def World.takerSwaps (w : World) : SwapMap := (w.cells .takerSwaps).memory

def World.takerSwapsOnDisk (w : World) : SwapMap := (w.cells .takerSwaps).disk

/-- The worlds agree on the whitelist and on what was forwarded. -/
structure SameSwaps (w w' : World) : Prop where
  memory : w'.takerSwaps = w.takerSwaps
  disk : w'.takerSwapsOnDisk = w.takerSwapsOnDisk
  forwarded : w'.forwarded = w.forwarded

namespace SameSwaps

theorem refl (w : World) :
  SameSwaps w w
  := ⟨rfl, rfl, rfl⟩

theorem trans {w w' w'' : World} (h : SameSwaps w w') (h' : SameSwaps w' w'') :
  SameSwaps w w''
  := ⟨h'.memory.trans h.memory, h'.disk.trans h.disk, h'.forwarded.trans h.forwarded⟩

theorem setLocked (w : World) (c : Cell) (b : Bool) :
  SameSwaps w (w.setLocked c b)
  := by
  by_cases hc : c = .takerSwaps
  · subst hc
    constructor <;> simp [World.takerSwaps, World.takerSwapsOnDisk, World.setLocked, World.setCell]
  · constructor <;>
      simp [World.takerSwaps, World.takerSwapsOnDisk, World.setLocked, World.setCell,
        Function.update_of_ne (Ne.symm hc)]

theorem panic (w : World) :
  SameSwaps w w.panic
  := ⟨rfl, rfl, rfl⟩

end SameSwaps

/-- A property of the whitelist in memory, in the store, and of what was forwarded. -/
abbrev SwapsProp : Type := SwapMap → SwapMap → List Forward → Prop

def SwapsProp.Holds (P : SwapsProp) (w : World) : Prop :=
  P w.takerSwaps w.takerSwapsOnDisk w.forwarded

/-- A program keeps the property, wherever it stops. -/
abbrev SwapsProp.Keeps (P : SwapsProp) (G : Guard nodeInterface World Fault) {α : Type}
    (p : Node α) (w : World) : Prop :=
  p.wp nodeMachine G P.Holds (fun _ => P.Holds) w

/-- The property survives a restart. -/
def SwapsProp.Durable (P : SwapsProp) : Prop :=
  ∀ m d fs, P m d fs → P d d fs

namespace SwapsProp

variable {P : SwapsProp} {w w' : World}

theorem Holds.congr (h : SameSwaps w w') (hw : P.Holds w) :
  P.Holds w'
  := by
  rw [Holds, h.memory, h.disk, h.forwarded]
  apply hw

theorem Durable.reboot (hP : P.Durable) (hw : P.Holds w) :
  P.Holds w.reboot
  := hP _ _ _ hw

end SwapsProp

/-! ### Silent programs -/

/-- Whether an operation can change the whitelist or what was forwarded. -/
def NodeOp.touchesSwaps : NodeOp → Bool
  | .set c _ => c = .takerSwaps
  | .save c => c = .takerSwaps
  | .forwardInterceptedHtlc _ => true
  | _ => false

/-- A program of operations that change neither the whitelist nor what was forwarded. -/
abbrev Silent {α : Type} (p : Node α) : Prop :=
  p.All fun o : NodeOp => o.touchesSwaps = false

/-- Replacing a record other than the whitelist changes nothing. -/
theorem SameSwaps.setCell {c : Cell} (hc : c ≠ .takerSwaps) (w : World)
    (p : Persisted c.Content) :
  SameSwaps w (w.setCell c p)
  := by
  constructor <;>
    simp [World.takerSwaps, World.takerSwapsOnDisk, World.setCell,
      Function.update_of_ne (Ne.symm hc)]

theorem sameSwaps_commit {f : Fault} {w w' : World} (h : SameSwaps w w') :
  SameSwaps w (commit f w w').2
  := by
  cases f with
  | fails e => apply SameSwaps.refl
  | _ => apply h

theorem sameSwaps_exec (o : NodeOp) (ho : o.touchesSwaps = false) (f : Fault) (w : World) :
  SameSwaps w (World.exec f o w).2
  := by
  cases o with
  | lock c =>
    simp only [World.exec]
    split_ifs
    · apply SameSwaps.panic
    · apply SameSwaps.setLocked w c true
  | unlock c => apply SameSwaps.setLocked w c false
  | set c v => apply SameSwaps.setCell (of_decide_eq_false ho)
  | save c => apply sameSwaps_commit (SameSwaps.setCell (of_decide_eq_false ho) _ _)
  | panic => apply SameSwaps.panic
  | getCurrentTimestamp => cases f <;> exact ⟨rfl, rfl, rfl⟩
  | forwardInterceptedHtlc g => cases ho
  | updateRgbChannelAmount channelId offered received =>
    simp only [World.exec]
    split
    · exact ⟨rfl, rfl, rfl⟩
    · apply SameSwaps.panic
  | remove k => cases f <;> exact ⟨rfl, rfl, rfl⟩
  | _ => exact ⟨rfl, rfl, rfl⟩

section Silent

variable {G : Guard nodeInterface World Fault} {P : SwapsProp} {w : World}

/-- A silent program keeps every property that survives a restart. -/
theorem wp_silent {α : Type} (hP : P.Durable) {p : Node α} (hp : Silent p) (hw : P.Holds w)
    {Q : α → World → Prop} (hQ : ∀ a w', SameSwaps w w' → Q a w') :
  p.wp nodeMachine G P.Holds Q w
  := by
  apply wp_frame SameSwaps.refl (fun _ _ _ => SameSwaps.trans) sameSwaps_exec hp hQ
  · intro w' h
    apply hw.congr h
  · intro w' h
    apply hP.reboot (hw.congr h)

end Silent

namespace Silent

theorem nodeOp {o : NodeOp} (ho : o.touchesSwaps = false) :
  Silent (nodeOp o)
  := ⟨ho, fun _ => trivial⟩

theorem nodePanic {α : Type} :
  Silent (nodePanic : Node α)
  := ⟨rfl, fun e => e.elim⟩

theorem getCurrentTimestamp :
  Silent getCurrentTimestamp
  := Silent.nodeOp rfl

theorem readCell (c : Cell) :
  Silent (readCell c)
  := ⟨rfl, fun _ => ⟨rfl, fun _ => trivial⟩⟩

theorem of_plain {α : Type} {p : Node α} (hp : Plain p) :
  Silent p
  := by
  apply All.mono _ hp
  intro o ho
  cases o <;> first | rfl | cases ho

end Silent

/-! ### Changes of the whitelist -/

section Changes

variable {G : Guard nodeInterface World Fault} {P : SwapsProp} {w : World}

theorem wp_lockTakerSwaps (hP : P.Durable) (hw : P.Holds w)
    {Q : SwapMap → World → Prop} (hQ : ∀ w', SameSwaps w w' → Q w.takerSwaps w') :
  (lockCell .takerSwaps).wp nodeMachine G P.Holds Q w
  := by
  apply wp_lockCell (hP.reboot hw) (hw.congr (SameSwaps.panic w))
  intro _
  apply hQ _ (SameSwaps.setLocked w _ _)

variable {Q : Unit → World → Prop}

theorem wp_setTakerSwaps (hP : P.Durable) (hw : P.Holds w) {m : SwapMap}
    (hQ : ∀ w', w'.takerSwaps = m → w'.takerSwapsOnDisk = w.takerSwapsOnDisk →
      w'.forwarded = w.forwarded → Q () w') :
  (setCell .takerSwaps m).wp nodeMachine G P.Holds Q w
  := by
  apply wp_setCell (hP.reboot hw)
  apply hQ <;>
    simp [World.takerSwaps, World.takerSwapsOnDisk, World.setMemory, World.setCell]

/-- Writing the whitelist to the store.  When the write reports a failure it may have been
made or not. -/
theorem wp_saveTakerSwaps (hP : P.Durable) (hw : P.Holds w)
    {Q : Except IoError Unit → World → Prop}
    (hok : ∀ w', w'.takerSwaps = w.takerSwaps → w'.takerSwapsOnDisk = w.takerSwaps →
      w'.forwarded = w.forwarded → Q (.ok ()) w')
    (herror : ∀ e w', w'.takerSwaps = w.takerSwaps →
      w'.takerSwapsOnDisk = w.takerSwapsOnDisk ∨ w'.takerSwapsOnDisk = w.takerSwaps →
      w'.forwarded = w.forwarded → Q (.error e) w') :
  (nodeOp (.save .takerSwaps)).wp nodeMachine G P.Holds Q w
  := by
  have hm : (w.saved .takerSwaps).takerSwaps = w.takerSwaps := by
    simp [World.takerSwaps, World.saved, World.setCell]
  have hd : (w.saved .takerSwaps).takerSwapsOnDisk = w.takerSwaps := by
    simp [World.takerSwaps, World.takerSwapsOnDisk, World.saved, World.setCell]
  apply wp_save (hP.reboot hw)
  · apply hok _ hm hd rfl
  · intro e
    apply herror e w rfl (.inl rfl) rfl
  · intro e
    apply herror e _ hm (.inr hd) rfl

theorem wp_replaceTakerSwaps (hP : P.Durable) (hw : P.Holds w) {m : SwapMap}
    (hmemory : P m w.takerSwapsOnDisk w.forwarded) (hdisk : P m m w.forwarded)
    (hQ : ∀ w', w'.takerSwaps = m → w'.takerSwapsOnDisk = m → w'.forwarded = w.forwarded →
      Q () w') :
  (setCell .takerSwaps m >>= fun _ => saveCell .takerSwaps).wp nodeMachine G P.Holds Q w
  := by
  rw [wp_bind]
  apply wp_setTakerSwaps hP hw
  intro w1 hm1 hd1 hf1
  have hw1 : P.Holds w1 := by
    rw [SwapsProp.Holds, hm1, hd1, hf1]
    apply hmemory
  rw [saveCell, wp_bind]
  apply wp_saveTakerSwaps hP hw1
  · intro w2 hm2 hd2 hf2
    rw [hm1] at hm2 hd2
    rw [hf1] at hf2
    have hw2 : P.Holds w2 := by
      rw [SwapsProp.Holds, hm2, hd2, hf2]
      apply hdisk
    have hsame := SameSwaps.setLocked w2 .takerSwaps false
    apply wp_unlockCell (hP.reboot hw2)
    apply hQ _ (hsame.memory.trans hm2) (hsame.disk.trans hd2) (hsame.forwarded.trans hf2)
  intro e w2 hm2 hd2 hf2
  have hw2 : P.Holds w2 := by
    rw [SwapsProp.Holds, hm2, hm1, hf2, hf1]
    rcases hd2 with hd2 | hd2
    · rw [hd2, hd1]
      apply hmemory
    · rw [hd2, hm1]
      apply hdisk
  apply wp_nodePanic (hP.reboot hw2) (hw2.congr (SameSwaps.panic _))

variable {h : PaymentHash}

theorem wp_addTakerSwap (hP : P.Durable) (hw : P.Holds w) {swap : SwapData}
    (hmemory : P (w.takerSwaps.insert h swap) w.takerSwapsOnDisk w.forwarded)
    (hdisk : P (w.takerSwaps.insert h swap) (w.takerSwaps.insert h swap) w.forwarded) :
  (addTakerSwap h swap).wp nodeMachine G P.Holds (fun _ => P.Holds) w
  := by
  rw [addTakerSwap, wp_bind]
  apply wp_lockTakerSwaps hP hw
  intro w' h'
  apply wp_replaceTakerSwaps hP (hw.congr h')
  · rw [h'.disk, h'.forwarded]
    apply hmemory
  · rw [h'.forwarded]
    apply hdisk
  · intro w'' hm hd hf
    rw [SwapsProp.Holds, hm, hd, hf, h'.forwarded]
    apply hdisk

/-- The whitelist entry of a payment hash, pending for an HTLC since `now`. -/
def SwapData.pendFor (swap : SwapData) (id : InterceptId) (now : ℕ) : SwapData :=
  { swap with status := .pending, initiatedAt := some now, pendingInterceptId := some id }

theorem wp_updateTakerSwapPendingIntercept (hP : P.Durable) (hw : P.Holds w) {id : InterceptId}
    (hset : ∀ swap now, w.takerSwaps.lookup h = some swap →
      let m := w.takerSwaps.insert h (swap.pendFor id now)
      P m w.takerSwapsOnDisk w.forwarded ∧ P m m w.forwarded)
    (hQ : ∀ swap now w', w.takerSwaps.lookup h = some swap →
      w'.takerSwaps = w.takerSwaps.insert h (swap.pendFor id now) →
      w'.takerSwapsOnDisk = w.takerSwaps.insert h (swap.pendFor id now) →
      w'.forwarded = w.forwarded → Q () w') :
  (updateTakerSwapPendingIntercept h id).wp nodeMachine G P.Holds Q w
  := by
  rw [updateTakerSwapPendingIntercept, wp_bind]
  apply wp_lockTakerSwaps hP hw
  intro w' h'
  have hw' := hw.congr h'
  split
  · apply wp_nodePanic (hP.reboot hw') (hw'.congr (SameSwaps.panic _))
  rename_i swap hswap
  rw [wp_bind]
  apply wp_silent hP Silent.getCurrentTimestamp hw'
  intro now w'' h''
  have hsame := h'.trans h''
  apply wp_replaceTakerSwaps hP (hw'.congr h'')
  · rw [hsame.disk, hsame.forwarded]
    apply (hset swap now hswap).1
  · rw [hsame.forwarded]
    apply (hset swap now hswap).2
  · intro w3 hm hd hf
    apply hQ swap now w3 hswap hm hd (hf.trans hsame.forwarded)

def SwapStatus.isFinal : SwapStatus → Bool
  | .succeeded => true
  | .expired => true
  | .failed => true
  | _ => false

/-- The whitelist entry of a payment hash, over since `now`. -/
def SwapData.finish (swap : SwapData) (status : SwapStatus) (now : ℕ) : SwapData :=
  { swap.complete status now with pendingInterceptId := none }

theorem wp_updateTakerSwapStatus (hP : P.Durable) (hw : P.Holds w) {status : SwapStatus}
    (hstatus : status.isFinal) (hset : ∀ swap now, w.takerSwaps.lookup h = some swap →
      let m := w.takerSwaps.insert h (swap.finish status now)
      P m w.takerSwapsOnDisk w.forwarded ∧ P m m w.forwarded) :
  (updateTakerSwapStatus h status).wp nodeMachine G P.Holds (fun _ => P.Holds) w
  := by
  rw [updateTakerSwapStatus, wp_bind]
  apply wp_lockTakerSwaps hP hw
  intro w' h'
  have hw' := hw.congr h'
  split
  · apply wp_nodePanic (hP.reboot hw') (hw'.congr (SameSwaps.panic _))
  · cases hstatus
  · cases hstatus
  rename_i swap hswap _ _
  rw [wp_bind]
  apply wp_silent hP Silent.getCurrentTimestamp hw'
  intro now w'' h''
  have hsame := h'.trans h''
  obtain ⟨hmemory, hdisk⟩ := hset swap now hswap
  apply wp_replaceTakerSwaps hP (hw'.congr h'')
  · rw [hsame.disk, hsame.forwarded]
    apply hmemory
  · rw [hsame.forwarded]
    apply hdisk
  · intro w3 hm hd hf
    rw [SwapsProp.Holds, hm, hd, hf, hsame.forwarded]
    apply hdisk

end Changes

end RgbLightning
