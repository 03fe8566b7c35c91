import RgbLightning.Browser.Sweep

/-!
# Sweeps across reloads

A sweep that was broadcast is recorded in memory at once, and in the store when the tick is
done with its item.  If the page is reloaded in between, another transaction is broadcast for
the same descriptors (`sweep_broadcast_twice`); `sweep_unique` says when there is only one.

A tick takes its item off the queue before it waits for the network.  An event handled while
it waits stores the queue without the item, which is gone if the page is reloaded then
(`sweep_stranded`); `sweep_kept` says when nothing is lost.
-/

namespace RgbLightning.BrowserSweep

open Prog Session List

/-! ### Rules for sweeps -/

@[simp]
theorem sweepTxes_handleEvents (w : World) (events : List (PendingSweepWork × WriteFate)) :
  (w.handleEvents events).sweepTxes = w.sweepTxes
  := by
  apply foldlRecOn (motive := fun w' : World => w'.sweepTxes = w.sweepTxes) _ _ rfl
  rintro w' hw' ⟨item, fate⟩ -
  cases fate with
  | works => exact hw'
  | fails => exact hw'
  | failsAfterStoring => exact hw'

theorem mapM_eq_nil {α β ε : Type} {f : α → Except ε β} {l : List α}
    (h : l.mapM f = .ok []) :
  l = []
  := by
  have hall := forall₂_of_mapM_eq_ok h
  cases hall
  rfl

section Item

variable {env : Env} {G : Guard interface World Fault} {C I : World → Prop}

/-- A query keeps an invariant, with what is recorded under a key. -/
theorem query_invariant (hcrash : ∀ o w, I w → G o .crash w → C w.reload)
    (hask : ∀ q f w, I w → G (.ask q) (.go f) w → I (exec env f (.ask q) w).2)
    {α : Type} {p : Sweep α} (hp : p.All IsQuery) (key : Str) {made : Option Transaction}
    {w : World} (hw : I w) (hmade : w.sweepTxes.lookup key = made) :
  p.wp (machine env) G C (fun _ w' => I w' ∧ w'.sweepTxes.lookup key = made) w
  := by
  apply wp_invariant _ _ hp ⟨hw, hmade⟩
  · rintro o w - ⟨hw, -⟩ hg
    apply hcrash o w hw hg
  · rintro (_ | _ | _ | _ | _ | _ | _ | _ | q) w f ⟨⟩ ⟨hw, hmade⟩ hg
    refine ⟨hask q f w hw hg, ?_⟩
    split_ifs
    · rw [sweepTxes_handleEvents, hmade]
    · exact hmade

/-- The sweep of one item, from what holds while its transaction is built. -/
theorem processSweepItem_wp {item : PendingSweepWork} {Q : Except String Unit → World → Prop}
    (hcrash : ∀ o w, I w → G o .crash w → C w.reload)
    (hask : ∀ q f w, I w → G (.ask q) (.go f) w → I (exec env f (.ask q) w).2)
    (herror : ∀ e w, I w → Q (.error e) w)
    (hempty : ∀ w, I w → item.descriptorsHex = [] → Q (.ok ()) w)
    (hagain : ∀ w tx, I w →
      w.sweepTxes.lookup (env.sweepDescriptorsKey item.descriptorsHex) = some tx →
      Q (.ok ()) { w with broadcasts := w.broadcasts ++ [(item.descriptorsHex, tx)] })
    (hfinish : ∀ w tx colored, I w →
      w.sweepTxes.lookup (env.sweepDescriptorsKey item.descriptorsHex) = none →
      (finishSweep item.descriptorsHex (env.sweepDescriptorsKey item.descriptorsHex) tx
        colored).wp (machine env) G C (fun _ => Q (.ok ())) w)
    {w : World} (hw : I w) :
  (processSweepItem env item).run.wp (machine env) G C Q w
  := by
  rw [processSweepItem, wp_attempt]
  rcases hdecode : item.descriptorsHex.mapM env.decodeDescriptor with e | descriptors
  · apply herror e w hw
  change (ite _ _ _ : Attempt Unit).run.wp _ _ _ _ _
  split_ifs with hnil
  · rw [hnil] at hdecode
    apply hempty w hw (mapM_eq_nil hdecode)
  apply (wp_attempt _ _ _ _).mpr
  apply wp_imp (query_invariant hcrash hask all_objectGraph
    (env.sweepDescriptorsKey item.descriptorsHex) hw rfl)
  rintro (e | _) w ⟨hw, -⟩
  · apply herror e w hw
  apply (wp_attempt _ _ _ _).mpr
  refine ⟨hcrash _ w hw, fun f _ => ?_⟩
  rcases hmade : w.sweepTxes.lookup (env.sweepDescriptorsKey item.descriptorsHex) with _ | tx
  · simp only [machine, exec, hmade]
    apply (wp_attempt _ _ _ _).mpr
    apply wp_mono (fun _ h => h) _ _ _
      (query_invariant hcrash hask (all_buildSweep descriptors) _ hw hmade)
    rintro (e | ⟨tx, colored⟩) w ⟨hw, hmade⟩
    · apply herror e w hw
    apply (wp_bind _ _ _ _).mpr
    apply hfinish w tx colored hw hmade
  · simp only [machine, exec, hmade]
    refine ⟨hcrash _ w hw, fun f _ => ?_⟩
    apply hagain w tx hw hmade

/-- A tick that takes an item, from what the sweep of the item leaves. -/
theorem driveSweepWork_wp {Q : Unit → World → Prop} {fuel : ℕ} {w : World}
    (hcrash : G .popFront .crash w → C w.reload) (hnil : w.pendingSweepWork = [] → Q () w)
    (hcons : ∀ item rest, w.pendingSweepWork = item :: rest →
      (processSweepItem env item).run.wp (machine env) G C (fun r w' =>
        match r with
        | .ok _ => (persistSweepState >>= fun _ => driveSweepWork env fuel).wp
            (machine env) G C Q w'
        | .error _ => (perform (S := interface) (.pushFront item) >>= fun _ =>
          persistSweepState).wp (machine env) G C Q w')
        { w with pendingSweepWork := rest }) :
  (driveSweepWork env (fuel + 1)).wp (machine env) G C Q w
  := by
  refine ⟨hcrash, fun f _ => ?_⟩
  rcases w with ⟨loaded, _ | ⟨item, rest⟩, sweepTxes, stored, delivered, broadcasts⟩
  · apply hnil rfl
  · change ((processSweepItem env item).run >>= _).wp _ _ _ _ _
    apply wp_seq (hcons item rest rfl)
    rintro (e | _) w' hw'
    · apply hw'
    · apply hw'

end Item

/-- What a page is asked only while it is loaded. -/
def OnPage : Call → World → Prop
  | .new, _ => True
  | _, w => w.loaded = true

instance : (c : Call) → (w : World) → Decidable (OnPage c w)
  | .new, _ => .isTrue trivial
  | .spendableOutputs _, w => inferInstanceAs (Decidable (w.loaded = true))
  | .drive _, w => inferInstanceAs (Decidable (w.loaded = true))

/-- A world outside in which all closing transactions carry an asset, and every choice gives
another change address. -/
def sampleEnv : Env where
  sha256 := id
  decodeDescriptor descriptorHex :=
    .ok (.staticOutput ⟨List.Vector.replicate 32 1, descriptorHex.length⟩)
  answer choice
    | .objectGraph | .rgbWallet | .hasTransferInfo _ => true
    | .getAddress => .ok [UInt8.ofNat choice]
    | .readRgbTransferInfo _ => .ok (List.Vector.replicate 32 2, 100)
    | .proxyEndpoint => .ok (some "http://proxy")
    | .getOnline => .ok true
    | .getTxHeight _ => .ok (some 100)
    | .updateWitnesses _ _ => .ok []
    | .witnessReceive _ => .ok "recipient"
    | .scriptBufFromRecipientId _ => .ok (some [3])
    | .spendSpendableOutputs descriptors outputs changeScript => some
        ⟨descriptors.map fun d => ⟨d.outpoint, [], []⟩, outputs ++ [⟨1000, changeScript⟩]⟩
    | .createSpendableOutputsPsbt descriptors outputs changeScript => some
        ⟨⟨descriptors.map fun d => ⟨d.outpoint, [], []⟩, outputs ++ [⟨1000, changeScript⟩]⟩, []⟩
    | .colorPsbtAndConsume psbt _ => .ok (psbt, [(List.Vector.replicate 32 2, [])])
    | .signSpendableOutputsPsbt _ psbt => some psbt
    | .extractTx psbt => .ok psbt.unsignedTx
    | .postConsignment _ _ _ _ _ => .ok ()
    | .refresh => ()

def sampleItem : PendingSweepWork := ⟨[str "00"], none⟩

def otherItem : PendingSweepWork := ⟨[str "0000"], none⟩

/-! ### One transaction for each set -/

variable (env : Env)

def Recorded (swept : Table Str Transaction) (w : World) : Prop :=
  ∀ b ∈ w.broadcasts, swept.lookup (env.sweepDescriptorsKey b.1) = some b.2
deriving Decidable

/-- The page is reloaded only while the store has all transactions that were broadcast, the
stored state can be read, and a tick can write it. -/
def ReloadedRecorded : Guard interface World Fault
  | _, .crash, w => Recorded env w.stored.swept w
  | .new, .go f, _ => f.read = .works
  | .persistSweepState, .go f, _ => f.write ≠ .fails
  | _, .go _, _ => True

instance (env : Env) : ∀ o f w, Decidable (ReloadedRecorded env o f w)
  | _, .crash, w => inferInstanceAs (Decidable (Recorded env w.stored.swept w))
  | .new, .go f, _ => inferInstanceAs (Decidable (f.read = .works))
  | .persistSweepState, .go f, _ => inferInstanceAs (Decidable (f.write ≠ .fails))
  | .spendableOutputs _, .go _, _ | .popFront, .go _, _ | .pushFront _, .go _, _
  | .sweepTx _, .go _, _ | .insertSweepTx _ _, .go _, _ | .broadcast _ _, .go _, _
  | .ask _, .go _, _ => .isTrue trivial

/-- The store has all transactions that were broadcast, and so has a page that is loaded. -/
structure Settled (env : Env) (w : World) : Prop where
  stored : Recorded env w.stored.swept w
  memory : w.loaded = true → Recorded env w.sweepTxes w

/-- A page that is loaded and has all transactions that were broadcast. -/
def Working (w : World) : Prop :=
  w.loaded = true ∧ Recorded env w.sweepTxes w

section Once

variable {env : Env} {w : World}

section Working

variable (hw : Working env w)
include hw

theorem Working.handleEvents (events : List (PendingSweepWork × WriteFate)) :
  Working env (w.handleEvents events)
  := by
  apply foldlRecOn (motive := Working env) _ _ hw
  rintro w' hw' ⟨item, fate⟩ -
  cases fate with
  | works => exact hw'
  | fails => exact hw'
  | failsAfterStoring => exact hw'

theorem Working.ask (q : Query) (f : Fault) :
  Working env (exec env f (.ask q) w).2
  := by
  change Working env (if q.awaits then w.handleEvents f.events else w)
  split_ifs
  · apply hw.handleEvents
  · exact hw

theorem Working.persist {fate : WriteFate} (hfate : fate ≠ .fails) :
  Settled env (w.persistSweepState fate) ∧ (w.persistSweepState fate).loaded = true
  := by
  cases fate with
  | fails => exact absurd rfl hfate
  | works => exact ⟨⟨hw.2, fun _ => hw.2⟩, hw.1⟩
  | failsAfterStoring => exact ⟨⟨hw.2, fun _ => hw.2⟩, hw.1⟩

omit hw in
theorem settled_reload (hw : Recorded env w.stored.swept w) :
  Settled env w.reload
  := ⟨hw, fun h => by cases h⟩

variable {descriptorsHex : List Str}

theorem Working.record (hnone : w.sweepTxes.lookup (env.sweepDescriptorsKey descriptorsHex) = none)
    (tx : Transaction) :
  Working env
    { w with
      broadcasts := w.broadcasts ++ [(descriptorsHex, tx)]
      sweepTxes := w.sweepTxes.insert (env.sweepDescriptorsKey descriptorsHex) tx }
  := by
  refine ⟨hw.1, fun b hb => ?_⟩
  simp only [Table.lookup_insert_eq]
  rcases mem_append.mp hb with hb | hb
  · split_ifs with hkey
    · -- a set with the same key would have had a transaction
      have hsome := hw.2 b hb
      rw [hkey, hnone] at hsome
      cases hsome
    · apply hw.2 b hb
  · rw [mem_singleton.mp hb, if_pos rfl]

theorem Working.again {tx : Transaction}
    (hmade : w.sweepTxes.lookup (env.sweepDescriptorsKey descriptorsHex) = some tx) :
  Working env { w with broadcasts := w.broadcasts ++ [(descriptorsHex, tx)] }
  := by
  refine ⟨hw.1, fun b hb => ?_⟩
  rcases mem_append.mp hb with hb | hb
  · apply hw.2 b hb
  · rw [mem_singleton.mp hb]
    exact hmade

theorem finishSweep_once
    (hnone : w.sweepTxes.lookup (env.sweepDescriptorsKey descriptorsHex) = none) (tx : Transaction)
    (colored : Bool) :
  (finishSweep descriptorsHex (env.sweepDescriptorsKey descriptorsHex) tx colored).wp
    (machine env) (ReloadedRecorded env) (Settled env) (fun _ => Working env) w
  := by
  refine ⟨settled_reload, fun f _ => ?_⟩
  refine ⟨settled_reload, fun f _ => ?_⟩
  have hw := hw.record hnone tx
  cases colored with
  | false => exact hw
  | true => exact ⟨settled_reload, fun f _ => hw.ask .refresh f⟩

theorem processSweepItem_once (item : PendingSweepWork) :
  (processSweepItem env item).run.wp (machine env) (ReloadedRecorded env) (Settled env)
    (fun _ => Working env) w
  := by
  apply processSweepItem_wp (I := Working env) _ _ _ _ _ _ hw
  · intro o w _ hg
    apply settled_reload
    cases o <;> exact hg
  · intro q f w hw _
    apply hw.ask q f
  · intro e w hw
    exact hw
  · intro w hw _
    exact hw
  · intro w tx hw hmade
    apply hw.again hmade
  · intro w tx colored hw hnone
    apply finishSweep_once hw hnone

end Working

theorem driveSweepWork_once (fuel : ℕ) (hw : Settled env w) (hloaded : w.loaded = true) :
  (driveSweepWork env fuel).wp (machine env) (ReloadedRecorded env) (Settled env)
    (fun _ => Settled env) w
  := by
  induction fuel generalizing w with
  | zero => exact hw
  | succ fuel ih =>
    apply driveSweepWork_wp settled_reload (fun _ => hw)
    intro item rest _
    have hworking : Working env { w with pendingSweepWork := rest } :=
      ⟨hloaded, hw.memory hloaded⟩
    apply wp_imp (processSweepItem_once hworking item)
    rintro (e | _) w hw
    · refine ⟨settled_reload, fun f _ => ?_⟩
      refine ⟨settled_reload, fun f hwrite => ?_⟩
      exact (Working.persist (w := { w with pendingSweepWork := item :: w.pendingSweepWork })
        hw hwrite).1
    · refine ⟨settled_reload, fun f hwrite => ?_⟩
      obtain ⟨hw, hloaded⟩ := hw.persist hwrite
      apply ih hw hloaded

theorem body_once (c : Call) (hpre : OnPage c w) (hw : Settled env w) :
  (body env c).wp (machine env) (ReloadedRecorded env) (Settled env) (fun _ => Settled env) w
  := by
  cases c with
  | new =>
    refine ⟨settled_reload, fun f hread => ?_⟩
    change Settled env (w.new f.read)
    rw [show f.read = .works from hread]
    exact ⟨hw.stored, fun _ => hw.stored⟩
  | spendableOutputs item =>
    refine ⟨settled_reload, fun f _ => ?_⟩
    change Settled env (w.spendableOutputs item f.write)
    cases f.write with
    | fails => exact ⟨hw.stored, hw.memory⟩
    | works => exact ⟨hw.memory hpre, hw.memory⟩
    | failsAfterStoring => exact ⟨hw.memory hpre, hw.memory⟩
  | drive fuel => apply driveSweepWork_once fuel hw hpre

end Once

/-- Along every sequence of events, ticks and reloads, in which the page is reloaded only
while the store has all transactions that were broadcast, and the stored state can be read
by a page and written by a tick, all transactions that are broadcast for a set of
descriptors are the same. -/
theorem sweep_unique (env : Env) (as : List (Action Call Fault))
    (has : AllowsAll (machine env) (ReloadedRecorded env) OnPage (body env) ⟨[], {}⟩ as)
    (descriptorsHex : List Str) (tx tx' : Transaction)
    (htx : (descriptorsHex, tx) ∈ (worldAfter env as).broadcasts)
    (htx' : (descriptorsHex, tx') ∈ (worldAfter env as).broadcasts) :
  tx = tx'
  := by
  have hw : Settled env (worldAfter env as) := by
    apply run_invariant (I := fun _ => Settled env) _ _ as _ has
    · intro _ c w hpre hw
      apply body_once c hpre hw
    · intro _ w hw
      apply settled_reload hw.stored
    · refine ⟨fun b hb => ?_, fun h => ?_⟩
      · cases hb
      · cases h
  have heq := hw.stored _ htx
  rw [hw.stored _ htx'] at heq
  exact (Option.some.inj heq).symm

/-- A page is reloaded while it waits for the height of the closing transaction.  The set is
swept by the next page, and announced to it and swept again. -/
def reloadedBeforeBroadcast : List (Action Call Fault) :=
  [ .call .new [],
    .call (.spendableOutputs sampleItem) [],
    .call (.drive 1) (replicate 9 (.go {}) ++ [.crash]),
    .call .new [],
    .call (.drive 1) (replicate 22 (.go { choice := 1 })),
    .call (.spendableOutputs sampleItem) [],
    .call (.drive 1) [] ]

theorem sweep_unique_reloadedBefore :
  AllowsAll (machine sampleEnv) (ReloadedRecorded sampleEnv) OnPage (body sampleEnv)
      ⟨[], {}⟩ reloadedBeforeBroadcast ∧
    (worldAfter sampleEnv reloadedBeforeBroadcast).broadcasts.length = 2 ∧
    ∀ tx tx',
      (sampleItem.descriptorsHex, tx) ∈ (worldAfter sampleEnv reloadedBeforeBroadcast).broadcasts →
      (sampleItem.descriptorsHex, tx') ∈
        (worldAfter sampleEnv reloadedBeforeBroadcast).broadcasts →
      tx = tx'
  := by
  have has : AllowsAll (machine sampleEnv) (ReloadedRecorded sampleEnv) OnPage
      (body sampleEnv) ⟨[], {}⟩ reloadedBeforeBroadcast := by
    decide +kernel
  refine ⟨has, ?_, ?_⟩
  · decide +kernel
  · intro tx tx' htx htx'
    apply sweep_unique sampleEnv reloadedBeforeBroadcast has _ tx tx' htx htx'

/-- A page is reloaded while the wallet is refreshed after the sweep was broadcast. -/
def reloadedInRefresh : List (Action Call Fault) :=
  [ .call .new [],
    .call (.spendableOutputs sampleItem) [],
    .call (.drive 1) (replicate 20 (.go {}) ++ [.crash]),
    .call .new [],
    .call (.drive 1) (replicate 22 (.go { choice := 1 })) ]

/-- Two transactions are broadcast for one set of descriptors. -/
theorem sweep_broadcast_twice :
  AllowsAll (machine sampleEnv) anyFate OnPage (body sampleEnv) ⟨[], {}⟩
      reloadedInRefresh ∧
    ∃ b ∈ (worldAfter sampleEnv reloadedInRefresh).broadcasts,
      ∃ b' ∈ (worldAfter sampleEnv reloadedInRefresh).broadcasts,
        b.1 = sampleItem.descriptorsHex ∧ b'.1 = sampleItem.descriptorsHex ∧ b.2 ≠ b'.2
  := by
  constructor
  · decide +kernel
  · decide +kernel

/-! ### Nothing delivered is lost -/

/-- A set of descriptors waits in a queue, or has a transaction in a record. -/
def Covers (pending : List PendingSweepWork) (swept : Table Str Transaction)
    (descriptorsHex : List Str) : Prop :=
  (∃ item ∈ pending, item.descriptorsHex = descriptorsHex) ∨
    (swept.lookup (env.sweepDescriptorsKey descriptorsHex)).isSome
deriving Decidable

/-- The page has everything that was delivered. -/
def Held (w : World) : Prop :=
  ∀ d ∈ w.delivered, Covers env w.pendingSweepWork w.sweepTxes d
deriving Decidable

/-- The store has everything that was delivered. -/
def Stored (w : World) : Prop :=
  ∀ d ∈ w.delivered, Covers env w.stored.pending w.stored.swept d
deriving Decidable

/-- The stored state can be read and written. -/
def StorageWorks : Guard interface World Fault
  | _, .crash, _ => True
  | _, .go f, _ => f.read = .works ∧ f.write = .works ∧ ∀ e ∈ f.events, e.2 = .works

instance : ∀ o f w, Decidable (StorageWorks o f w)
  | _, .crash, _ => .isTrue trivial
  | _, .go f, _ => inferInstanceAs (Decidable (f.read = .works ∧ f.write = .works ∧
      ∀ e ∈ f.events, e.2 = .works))

/-- The stored state can be read and written, and events announce outputs and are handled
only while the page has everything that was delivered. -/
def HandledWhileHeld : Guard interface World Fault
  | _, .crash, _ => True
  | o, .go f, w => StorageWorks o (.go f) w ∧
      (∀ e ∈ f.events, e.1.descriptorsHex ≠ []) ∧ (f.events ≠ [] → Held env w)

/-- A page that is loaded, and events that announce outputs. -/
def OnPageWithOutputs (c : Call) (w : World) : Prop :=
  OnPage c w ∧
    match c with
    | .spendableOutputs item => item.descriptorsHex ≠ []
    | _ => True

instance (env : Env) : ∀ o f w, Decidable (HandledWhileHeld env o f w)
  | _, .crash, _ => .isTrue trivial
  | o, .go f, w => inferInstanceAs (Decidable (StorageWorks o (.go f) w ∧
      (∀ e ∈ f.events, e.1.descriptorsHex ≠ []) ∧ (f.events ≠ [] → Held env w)))

instance : (c : Call) → (w : World) → Decidable (OnPageWithOutputs c w)
  | .spendableOutputs item, w =>
    inferInstanceAs (Decidable (OnPage (.spendableOutputs item) w ∧ item.descriptorsHex ≠ []))
  | .new, w => inferInstanceAs (Decidable (OnPage .new w ∧ True))
  | .drive fuel, w => inferInstanceAs (Decidable (OnPage (.drive fuel) w ∧ True))

/-- Every item of the queues has descriptors. -/
def Nonempty (w : World) : Prop :=
  ∀ item, item ∈ w.pendingSweepWork ∨ item ∈ w.stored.pending → item.descriptorsHex ≠ []

/-- The store has everything that was delivered, and so has a page that is loaded. -/
structure Safe (env : Env) (w : World) : Prop where
  stored : Stored env w
  nonempty : Nonempty w
  held : w.loaded = true → Held env w

/-- The same while an item is taken off the queue. -/
structure Taken (env : Env) (item : PendingSweepWork) (w : World) : Prop where
  stored : Stored env w
  nonempty : Nonempty w
  loaded : w.loaded = true
  outputs : item.descriptorsHex ≠ []
  held : ∀ d ∈ w.delivered, Covers env w.pendingSweepWork w.sweepTxes d ∨
    item.descriptorsHex = d

section Kept

variable {env : Env} {w : World} {item : PendingSweepWork}

theorem Safe.reload (hstored : Stored env w) (hnonempty : Nonempty w) :
  Safe env w.reload
  := by
  refine ⟨hstored, ?_, fun h => ?_⟩
  · rintro item (hitem | hitem)
    · cases hitem
    · apply hnonempty item (.inr hitem)
  · cases h

theorem safe_persist (hnonempty : Nonempty w) (hheld : Held env w) :
  Safe env (w.persistSweepState .works)
  := by
  refine ⟨hheld, ?_, fun _ => hheld⟩
  rintro item (hitem | hitem)
  · apply hnonempty item (.inl hitem)
  · apply hnonempty item (.inl hitem)

/-- An event handled while the page has everything that was delivered. -/
theorem safe_spendableOutputs (hnonempty : Nonempty w) (hheld : Held env w)
    (hitem : item.descriptorsHex ≠ []) :
  Safe env (w.spendableOutputs item .works) ∧ Held env (w.spendableOutputs item .works)
  := by
  have hnew : Held env
      { w with
        pendingSweepWork := w.pendingSweepWork ++ [item]
        delivered := w.delivered ++ [item.descriptorsHex] } := by
    intro d hd
    rcases mem_append.mp hd with hd | hd
    · obtain ⟨item', hmem, hitem'⟩ | hswept := hheld d hd
      · exact .inl ⟨item', mem_append_left _ hmem, hitem'⟩
      · exact .inr hswept
    · exact .inl ⟨item, by simp, (mem_singleton.mp hd).symm⟩
  refine ⟨safe_persist ?_ hnew, hnew⟩
  rintro item' (hitem' | hitem')
  · rcases mem_append.mp hitem' with hitem' | hitem'
    · apply hnonempty item' (.inl hitem')
    · rw [mem_singleton.mp hitem']
      exact hitem
  · apply hnonempty item' (.inr hitem')

section Taken

variable (hw : Taken env item w)
include hw

theorem Taken.handleEvents {events : List (PendingSweepWork × WriteFate)}
    (hworks : ∀ e ∈ events, e.2 = .works) (hout : ∀ e ∈ events, e.1.descriptorsHex ≠ [])
    (hheld : events ≠ [] → Held env w) :
  Taken env item (w.handleEvents events)
  := by
  cases events with
  | nil => exact hw
  | cons e events =>
    have hall : Taken env item (w.handleEvents (e :: events)) ∧
        Held env (w.handleEvents (e :: events)) := by
      apply foldlRecOn (motive := fun w => Taken env item w ∧ Held env w) _ _
        ⟨hw, hheld (cons_ne_nil _ _)⟩
      rintro w ⟨hw, hheld⟩ ⟨item', fate⟩ he
      obtain rfl : fate = .works := hworks _ he
      obtain ⟨hsafe, hheld'⟩ := safe_spendableOutputs hw.nonempty hheld (hout _ he)
      exact ⟨⟨hsafe.stored, hsafe.nonempty, hw.loaded, hw.outputs,
        fun d hd => .inl (hheld' d hd)⟩, hheld'⟩
    exact hall.1

theorem Taken.ask {q : Query} {f : Fault} (hg : HandledWhileHeld env (.ask q) (.go f) w) :
  Taken env item (exec env f (.ask q) w).2
  := by
  obtain ⟨⟨-, -, hworks⟩, hout, hheld⟩ := hg
  change Taken env item (if q.awaits then w.handleEvents f.events else w)
  split_ifs
  · apply hw.handleEvents hworks hout hheld
  · exact hw

theorem Taken.held_of_swept
    (hswept : (w.sweepTxes.lookup (env.sweepDescriptorsKey item.descriptorsHex)).isSome) :
  Held env w
  := by
  intro d hd
  rcases hw.held d hd with hd | rfl
  · exact hd
  · exact .inr hswept

theorem Taken.insert (tx : Transaction) :
  Taken env item
    { w with
      broadcasts := w.broadcasts ++ [(item.descriptorsHex, tx)]
      sweepTxes := w.sweepTxes.insert (env.sweepDescriptorsKey item.descriptorsHex) tx }
  := by
  refine ⟨hw.stored, hw.nonempty, hw.loaded, hw.outputs, fun d hd => ?_⟩
  rcases hw.held d hd with (hitem | hswept) | hd
  · exact .inl (.inl hitem)
  · left
    right
    simp only [Table.lookup_insert_eq]
    split_ifs
    · rfl
    · exact hswept
  · exact .inr hd

end Taken

/-- What the sweep of an item leaves: the item has a transaction, unless it failed. -/
def ItemPost (env : Env) (item : PendingSweepWork) : Except String Unit → World → Prop
  | .ok _, w => Taken env item w ∧
      (w.sweepTxes.lookup (env.sweepDescriptorsKey item.descriptorsHex)).isSome
  | .error _, w => Taken env item w

theorem finishSweep_kept (hw : Taken env item w) (tx : Transaction) (colored : Bool) :
  (finishSweep item.descriptorsHex (env.sweepDescriptorsKey item.descriptorsHex) tx colored).wp
    (machine env) (HandledWhileHeld env) (Safe env) (fun _ => ItemPost env item (.ok ())) w
  := by
  refine ⟨fun _ => Safe.reload hw.stored hw.nonempty, fun f _ => ?_⟩
  refine ⟨fun _ => Safe.reload hw.stored hw.nonempty, fun f _ => ?_⟩
  have hw := hw.insert tx
  have hswept : ((w.sweepTxes.insert (env.sweepDescriptorsKey item.descriptorsHex) tx).lookup
      (env.sweepDescriptorsKey item.descriptorsHex)).isSome := by
    rw [Table.lookup_insert_eq, if_pos rfl]
    rfl
  cases colored with
  | false => exact ⟨hw, hswept⟩
  | true =>
    refine ⟨fun _ => Safe.reload hw.stored hw.nonempty, fun f hg => ⟨hw.ask hg, ?_⟩⟩
    change ((World.handleEvents _ f.events).sweepTxes.lookup _).isSome
    rw [sweepTxes_handleEvents]
    exact hswept

theorem processSweepItem_kept (hw : Taken env item w) :
  (processSweepItem env item).run.wp (machine env) (HandledWhileHeld env) (Safe env)
    (ItemPost env item) w
  := by
  apply processSweepItem_wp (I := Taken env item) _ _ _ _ _ _ hw
  · intro o w hw _
    apply Safe.reload hw.stored hw.nonempty
  · intro q f w hw hg
    apply hw.ask hg
  · intro e w hw
    exact hw
  · intro w hw hnil
    exact absurd hnil hw.outputs
  · intro w tx hw hmade
    refine ⟨⟨hw.stored, hw.nonempty, hw.loaded, hw.outputs, hw.held⟩, ?_⟩
    rw [hmade]
    rfl
  · intro w tx colored hw _
    apply finishSweep_kept hw

theorem Taken.pushFront (hw : Taken env item w) :
  Nonempty { w with pendingSweepWork := item :: w.pendingSweepWork } ∧
    Held env { w with pendingSweepWork := item :: w.pendingSweepWork }
  := by
  constructor
  · rintro item' (hitem' | hitem')
    · rcases mem_cons.mp hitem' with rfl | hitem'
      · exact hw.outputs
      · apply hw.nonempty item' (.inl hitem')
    · apply hw.nonempty item' (.inr hitem')
  · intro d hd
    rcases hw.held d hd with (⟨item', hmem, hitem'⟩ | hswept) | hd
    · exact .inl ⟨item', mem_cons_of_mem _ hmem, hitem'⟩
    · exact .inr hswept
    · exact .inl ⟨item, mem_cons_self, hd⟩

theorem Safe.popFront (hw : Safe env w) (hloaded : w.loaded = true)
    {rest : List PendingSweepWork} (hpending : w.pendingSweepWork = item :: rest) :
  Taken env item { w with pendingSweepWork := rest }
  := by
  refine ⟨hw.stored, ?_, hloaded, ?_, fun d hd => ?_⟩
  · rintro item' (hitem' | hitem')
    · apply hw.nonempty item'
      rw [hpending]
      exact .inl (mem_cons_of_mem _ hitem')
    · apply hw.nonempty item' (.inr hitem')
  · apply hw.nonempty item
    rw [hpending]
    exact .inl mem_cons_self
  · obtain ⟨item', hmem, hitem'⟩ | hswept := hw.held hloaded d hd
    · rw [hpending] at hmem
      rcases mem_cons.mp hmem with rfl | hmem
      · exact .inr hitem'
      · exact .inl (.inl ⟨item', hmem, hitem'⟩)
    · exact .inl (.inr hswept)

theorem driveSweepWork_kept (fuel : ℕ) (hw : Safe env w) (hloaded : w.loaded = true) :
  (driveSweepWork env fuel).wp (machine env) (HandledWhileHeld env) (Safe env)
    (fun _ => Safe env) w
  := by
  induction fuel generalizing w with
  | zero => exact hw
  | succ fuel ih =>
    apply driveSweepWork_wp (fun _ => Safe.reload hw.stored hw.nonempty) (fun _ => hw)
    intro item rest hpending
    apply wp_mono (fun _ h => h) _ _ _
      (processSweepItem_kept (hw.popFront hloaded hpending))
    rintro (e | _) w hw
    · have hw : Taken env item w := hw
      obtain ⟨hnonempty, hheld⟩ := hw.pushFront
      refine ⟨fun _ => Safe.reload hw.stored hw.nonempty, fun f _ => ?_⟩
      refine ⟨fun _ => Safe.reload hw.stored hnonempty, fun f hg => ?_⟩
      change Safe env (World.persistSweepState _ f.write)
      rw [hg.1.2.1]
      apply safe_persist hnonempty hheld
    · obtain ⟨hw, hswept⟩ := hw
      refine ⟨fun _ => Safe.reload hw.stored hw.nonempty, fun f hg => ?_⟩
      change (driveSweepWork env fuel).wp _ _ _ _ (w.persistSweepState f.write)
      rw [hg.1.2.1]
      apply ih (safe_persist hw.nonempty (hw.held_of_swept hswept)) hw.loaded

theorem body_kept (c : Call) (hpre : OnPageWithOutputs c w) (hw : Safe env w) :
  (body env c).wp (machine env) (HandledWhileHeld env) (Safe env) (fun _ => Safe env) w
  := by
  obtain ⟨hloaded, hitem⟩ := hpre
  cases c with
  | new =>
    refine ⟨fun _ => Safe.reload hw.stored hw.nonempty, fun f hg => ?_⟩
    change Safe env (w.new f.read)
    rw [hg.1.1]
    refine ⟨hw.stored, ?_, fun _ => hw.stored⟩
    rintro item (hitem | hitem)
    · apply hw.nonempty item (.inr hitem)
    · apply hw.nonempty item (.inr hitem)
  | spendableOutputs item =>
    refine ⟨fun _ => Safe.reload hw.stored hw.nonempty, fun f hg => ?_⟩
    change Safe env (w.spendableOutputs item f.write)
    rw [hg.1.2.1]
    exact (safe_spendableOutputs hw.nonempty (hw.held hloaded) hitem).1
  | drive fuel => apply driveSweepWork_kept fuel hw hloaded

end Kept

/-- Along every sequence of events that announce outputs, ticks and reloads, in which the
stored state can be read and written, and events are handled only while the page has
everything that was delivered, every set of descriptors that was delivered waits in the
stored queue or has a transaction in the stored record. -/
theorem sweep_kept (env : Env) (as : List (Action Call Fault))
    (has : AllowsAll (machine env) (HandledWhileHeld env) OnPageWithOutputs (body env)
      ⟨[], {}⟩ as) :
  Stored env (worldAfter env as)
  := by
  have hw : Safe env (worldAfter env as) := by
    apply run_invariant (I := fun _ => Safe env) _ _ as _ has
    · intro _ c w hpre hw
      apply body_kept c hpre hw
    · intro _ w hw
      apply Safe.reload hw.stored hw.nonempty
    refine ⟨fun d hd => ?_, ?_, fun h => ?_⟩
    · cases hd
    · rintro item (hitem | hitem)
      · cases hitem
      · cases hitem
    · cases h
  exact hw.stored

/-- An event is handled while the wallet is refreshed after a sweep, and the page is reloaded
before the tick ends. -/
def announcedInRefresh : List (Action Call Fault) :=
  [ .call .new [],
    .call (.spendableOutputs sampleItem) [],
    .call (.drive 2) (replicate 20 (.go {}) ++
      [.go { events := [(otherItem, .works)] }, .crash]) ]

theorem sweep_kept_announcedInRefresh :
  AllowsAll (machine sampleEnv) (HandledWhileHeld sampleEnv) OnPageWithOutputs
      (body sampleEnv) ⟨[], {}⟩ announcedInRefresh ∧
    (worldAfter sampleEnv announcedInRefresh).delivered =
      [sampleItem.descriptorsHex, otherItem.descriptorsHex] ∧
    Stored sampleEnv (worldAfter sampleEnv announcedInRefresh)
  := by
  have has : AllowsAll (machine sampleEnv) (HandledWhileHeld sampleEnv)
      OnPageWithOutputs (body sampleEnv) ⟨[], {}⟩ announcedInRefresh := by
    decide +kernel
  refine ⟨has, ?_, ?_⟩
  · decide +kernel
  · apply sweep_kept sampleEnv announcedInRefresh has

/-- An event is handled while a tick waits for the height of the closing transaction, and the
page is reloaded before the tick ends. -/
def announcedInTick : List (Action Call Fault) :=
  [ .call .new [],
    .call (.spendableOutputs sampleItem) [],
    .call (.drive 1) (replicate 9 (.go {}) ++
      [.go { events := [(otherItem, .works)] }, .crash]) ]

/-- The descriptors are neither in the stored queue nor in the stored record. -/
theorem sweep_stranded :
  AllowsAll (machine sampleEnv) StorageWorks OnPageWithOutputs (body sampleEnv) ⟨[], {}⟩
      announcedInTick ∧
    sampleItem.descriptorsHex ∈ (worldAfter sampleEnv announcedInTick).delivered ∧
    ¬ Covers sampleEnv (worldAfter sampleEnv announcedInTick).stored.pending
      (worldAfter sampleEnv announcedInTick).stored.swept sampleItem.descriptorsHex
  := by
  refine ⟨?_, ?_, ?_⟩
  · decide +kernel
  · decide +kernel
  · decide +kernel

end RgbLightning.BrowserSweep
