import RgbLightning.Browser.LivePayments

/-!
# The rebroadcast queue of the browser node

The browser node keeps the transactions that it wants to see confirmed in a queue.  A tick of
the chain sync takes a copy of the queue, asks the indexer about the transactions in it one
after the other, broadcasts those that are not confirmed, and finally puts the copy in the
place of the queue.  While it waits for a reply, other ticks and calls go on.

So what is added to the queue while a tick has its copy is lost (`rebroadcast_lost`), and
only then (`rebroadcast_kept`).

The log is a ghost: it lists, the latest first, what was added to the queue, what was handed
to the broadcaster, and what the indexer reported as confirmed.
-/

namespace RgbLightning

open List Option

/-! ### Lists -/

/-- The list with its first element that satisfies `p` changed, if there is one. -/
def updateFirst {α : Type} (p : α → Bool) (f : α → α) : List α → Option (List α)
  | [] => none
  | a :: l => if p a then some (f a :: l) else (updateFirst p f l).map (a :: ·)

theorem updateFirst_eq_some {α : Type} {p : α → Bool} {f : α → α} {l l' : List α}
    (h : updateFirst p f l = some l') :
  ∃ before a after, l = before ++ a :: after ∧ p a = true ∧ l' = before ++ f a :: after
  := by
  induction l generalizing l' with
  | nil => cases h
  | cons b l ih =>
    rw [updateFirst] at h
    split_ifs at h with hb
    · exact ⟨[], b, l, rfl, hb, (some.inj h).symm⟩
    · obtain ⟨l1, hl1, rfl⟩ := map_eq_some_iff.mp h
      obtain ⟨before, a, after, rfl, ha, rfl⟩ := ih hl1
      exact ⟨b :: before, a, after, rfl, ha, rfl⟩

theorem updateFirst_eq_none {α : Type} {p : α → Bool} {f : α → α} {l : List α}
    (h : updateFirst p f l = none) :
  ∀ a ∈ l, p a = false
  := by
  induction l with
  | nil => simp
  | cons b l ih =>
    rw [updateFirst] at h
    split_ifs at h with hb
    rw [map_eq_none_iff] at h
    simpa [hb] using ih h

/-! ### Transactions -/

/-- A transaction of the queue, `RlnWasmChainRebroadcastTxData`. -/
structure RebroadcastTx where
  txid : Str
  txHex : Str
  attempts : ℕ := 0
  lastBroadcastAt : Option ℕ := none
  confirmedAt : Option ℕ := none
  lastError : Option Str := none
deriving DecidableEq

/-- A transaction id, in lower case. -/
def normalizeTxid (txid : Str) : Except String Str :=
  let txid := toLowercase (trim txid)
  if txid.length ≠ 64 ∨ ¬ txid.all isAsciiHexdigit then .error "txid must be 64 hex chars"
  else .ok txid

/-- A transaction in hexadecimal, in lower case. -/
def normalizeTxHex (txHex : Str) : Except String Str :=
  let txHex := toLowercase (trim txHex)
  if txHex = [] ∨ ¬ txHex.all isAsciiHexdigit then .error "tx_hex must be non-empty hex"
  else .ok txHex

/-- A transaction that LDK handed to the broadcaster.  Its id and its bytes were written by
the node itself, so that they are in normal form. -/
structure PendingBroadcastTx where
  txid : Str
  txHex : Str
  txid_normal : normalizeTxid txid = .ok txid
  txHex_normal : normalizeTxHex txHex = .ok txHex
deriving DecidableEq

/-! ### Ticks -/

/-- A tick that has its copy of the queue: the transactions that it has dealt with, the one
that it asks about, and those that are left. -/
structure TickWork where
  now : ℕ
  pollIntervalSec : ℕ
  done : List RebroadcastTx
  entry : RebroadcastTx
  rest : List RebroadcastTx
  globalError : Option Str
deriving DecidableEq

/-- The transaction was not broadcast within the last poll interval. -/
def TickWork.shouldRebroadcast (work : TickWork) : Bool :=
  match work.entry.lastBroadcastAt with
  | none => true
  | some last => work.now - last ≥ work.pollIntervalSec

/-- What a tick waits for. -/
inductive Tick where
  | tip (now : ℕ)
  | status (work : TickWork)
  | broadcast (work : TickWork)
  | finished
deriving DecidableEq

inductive ChainSyncEntry where
  | enqueued (txid : Str)
  | handed (txid : Str)
  | confirmed (txid : Str)
deriving DecidableEq

/-- The chain sync: its snapshot, the transactions handed to the broadcaster that were not
taken over yet, and the ticks. -/
structure ChainSync where
  pollIntervalMs : ℕ := 10000
  latestTipHeight : Option ℕ := none
  tipRegressed : Bool := false
  lastTickAt : Option ℕ := none
  lastError : Option Str := none
  rebroadcastQueue : List RebroadcastTx := []
  pendingBroadcasts : List PendingBroadcastTx := []
  ticks : List Tick := []
  log : List ChainSyncEntry := []

namespace ChainSync

variable (s : ChainSync)

/-- Adds a transaction to the queue, or takes back that it was confirmed. -/
def enqueueRebroadcastTx (txid txHex : Str) : Except String ChainSync := do
  let txid ← normalizeTxid txid
  let txHex ← normalizeTxHex txHex
  let queue :=
    (updateFirst (fun entry => entry.txid = txid)
      (fun entry => { entry with txHex, lastError := none, confirmedAt := none })
      s.rebroadcastQueue).getD (s.rebroadcastQueue ++ [{ txid := txid, txHex := txHex }])
  .ok { s with rebroadcastQueue := queue, log := .enqueued txid :: s.log }

/-- The same for one transaction of the broadcaster; one that is malformed is ignored. -/
def ingest (tx : PendingBroadcastTx) : ChainSync :=
  match s.enqueueRebroadcastTx tx.txid tx.txHex with
  | .ok s => s
  | .error _ => s

def ingestPendingBroadcasts : ChainSync :=
  { s.pendingBroadcasts.foldl ingest s with pendingBroadcasts := [] }

/-- LDK hands transactions to the broadcaster. -/
def broadcastTransaction (tx : PendingBroadcastTx) : ChainSync :=
  { s with
    pendingBroadcasts :=
      (updateFirst (fun entry => entry.txid = tx.txid) (fun _ => tx) s.pendingBroadcasts).getD
        (s.pendingBroadcasts ++ [tx])
    log := .handed tx.txid :: s.log }

def applyTipHeight (tipHeight now : ℕ) : ChainSync :=
  { s with
    latestTipHeight := some tipHeight
    lastTickAt := some now
    lastError := none
    tipRegressed := s.latestTipHeight.any (tipHeight < ·) }

/-- Goes on with the copy of the queue: the next transaction that is not confirmed, or, when
there is none, the copy takes the place of the queue. -/
def proceed (k now pollIntervalSec : ℕ) (done rest : List RebroadcastTx)
    (globalError : Option Str) : ChainSync :=
  let skipped := rest.takeWhile fun entry => entry.confirmedAt.isSome
  match rest.dropWhile fun entry => entry.confirmedAt.isSome with
  | [] =>
    { s with
      rebroadcastQueue := done ++ skipped
      lastError := globalError
      lastTickAt := some now
      ticks := s.ticks.set k .finished }
  | entry :: rest =>
    { s with
      ticks := s.ticks.set k
        (.status ⟨now, pollIntervalSec, done ++ skipped, entry, rest, globalError⟩) }

/-- Goes on after a transaction was dealt with. -/
def proceedFrom (k : ℕ) (work : TickWork) (entry : RebroadcastTx) (globalError : Option Str) :
    ChainSync :=
  s.proceed k work.now work.pollIntervalSec (work.done ++ [entry]) work.rest globalError

/-- The height of the chain, as the indexer says. -/
def tipReply (k now : ℕ) (reply : Except Str ℕ) : ChainSync :=
  match reply with
  | .error e =>
    { s with
      lastTickAt := some now
      lastError := some e
      ticks := s.ticks.set k .finished }
  | .ok tipHeight =>
    let s := s.applyTipHeight tipHeight now
    s.proceed k now (max (s.pollIntervalMs / 1000) 1) [] s.rebroadcastQueue none

/-- Whether the transaction is confirmed, as the indexer says. -/
def statusReply (k : ℕ) (work : TickWork) (reply : Except Str Bool) : ChainSync :=
  match reply with
  | .error e =>
    s.proceedFrom k work { work.entry with lastError := some e } (some e)
  | .ok true =>
    let s := { s with log := .confirmed work.entry.txid :: s.log }
    s.proceedFrom k work { work.entry with confirmedAt := some work.now, lastError := none }
      work.globalError
  | .ok false =>
    if work.shouldRebroadcast then { s with ticks := s.ticks.set k (.broadcast work) }
    else s.proceedFrom k work work.entry work.globalError

/-- What came of the broadcast. -/
def broadcastReply (k : ℕ) (work : TickWork) (reply : Except Str Unit) : ChainSync :=
  let entry :=
    { work.entry with
      attempts := min (work.entry.attempts + 1) (2 ^ 32 - 1)
      lastBroadcastAt := some work.now }
  match reply with
  | .ok () => s.proceedFrom k work { entry with lastError := none } work.globalError
  | .error e => s.proceedFrom k work { entry with lastError := some e } (some e)

/-! ### Runs -/

inductive Event where
  | start (pollIntervalMs : Option ℕ)
  | enqueue (txid txHex : Str)
  | broadcastTransactions (txs : List PendingBroadcastTx)
  | tick (now : ℕ)
  | tipReply (tick : ℕ) (reply : Except Str ℕ)
  | statusReply (tick : ℕ) (reply : Except Str Bool)
  | broadcastReply (tick : ℕ) (reply : Except Str Unit)

def step (s : ChainSync) : Event → ChainSync
  | .start pollIntervalMs =>
    { s with
      pollIntervalMs := max 1000 (min (pollIntervalMs.getD 10000) 60000)
      lastError := none }
  | .enqueue txid txHex =>
    match s.enqueueRebroadcastTx txid txHex with
    | .ok s => s
    | .error _ => s
  | .broadcastTransactions txs => txs.foldl broadcastTransaction s
  | .tick now =>
    let s := s.ingestPendingBroadcasts
    { s with ticks := s.ticks ++ [.tip now] }
  | .tipReply k reply =>
    match s.ticks[k]? with
    | some (.tip now) => s.tipReply k now reply
    | _ => s
  | .statusReply k reply =>
    match s.ticks[k]? with
    | some (.status work) => s.statusReply k work reply
    | _ => s
  | .broadcastReply k reply =>
    match s.ticks[k]? with
    | some (.broadcast work) => s.broadcastReply k work reply
    | _ => s

end ChainSync

/-! ### What should hold -/

/-- The transactions that were accepted into the queue or handed to the broadcaster. -/
def ChainSyncEntry.accepted : ChainSyncEntry → Option Str
  | .enqueued txid => some txid
  | .handed txid => some txid
  | .confirmed _ => none

/-- The indexer reported a transaction as confirmed since it was last added to the queue. -/
def ConfirmedSince (txid : Str) : List ChainSyncEntry → Prop
  | [] => False
  | .confirmed t :: log => t = txid ∨ ConfirmedSince txid log
  | .enqueued t :: log => t ≠ txid ∧ ConfirmedSince txid log
  | .handed _ :: log => ConfirmedSince txid log

instance decidableConfirmedSince (txid : Str) : ∀ log, Decidable (ConfirmedSince txid log)
  | [] => .isFalse id
  | .confirmed t :: log =>
    have := decidableConfirmedSince txid log
    inferInstanceAs (Decidable (t = txid ∨ ConfirmedSince txid log))
  | .enqueued t :: log =>
    have := decidableConfirmedSince txid log
    inferInstanceAs (Decidable (t ≠ txid ∧ ConfirmedSince txid log))
  | .handed _ :: log => decidableConfirmedSince txid log

def Tick.work : Tick → Option TickWork
  | .status work => some work
  | .broadcast work => some work
  | _ => none

/-- The transactions of the copy. -/
def TickWork.txs (work : TickWork) : List RebroadcastTx :=
  work.done ++ work.entry :: work.rest

namespace ChainSync

variable (s : ChainSync)

def queued : List Str :=
  s.rebroadcastQueue.map RebroadcastTx.txid

/-- The ids of the transactions that were handed to the broadcaster and not taken over. -/
def pending : List Str :=
  s.pendingBroadcasts.map PendingBroadcastTx.txid

/-- The mark of a transaction is justified by the log. -/
def Marked (log : List ChainSyncEntry) (tx : RebroadcastTx) : Prop :=
  tx.confirmedAt.isSome → ConfirmedSince tx.txid log
deriving Decidable

/-- No transaction is lost, and no mark is wrong. -/
def Kept : Prop :=
  (∀ e ∈ s.log, ∀ txid ∈ e.accepted, txid ∈ s.queued ∨ txid ∈ s.pending)
    ∧ ∀ tx ∈ s.rebroadcastQueue, Marked s.log tx
deriving Decidable

/-- No tick has a copy of the queue. -/
def Idle : Prop :=
  ∀ t ∈ s.ticks, t.work = none
deriving Decidable

/-- Nothing is added to the queue while a tick has a copy of it. -/
def Undisturbed : Event → Prop
  | .enqueue _ _ => s.Idle
  | .tick _ => s.Idle ∨ s.pendingBroadcasts = []
  | _ => True

instance (s : ChainSync) : ∀ e, Decidable (s.Undisturbed e)
  | .enqueue .. => inferInstanceAs (Decidable s.Idle)
  | .tick _ => inferInstanceAs (Decidable (_ ∨ _))
  | .start _ | .broadcastTransactions _ | .tipReply .. | .statusReply ..
  | .broadcastReply .. => .isTrue trivial

/-! ### The invariant -/

/-- A copy has the transactions of the queue, and its marks are justified. -/
def Copies (txs : List RebroadcastTx) : Prop :=
  txs.map RebroadcastTx.txid = s.queued ∧ ∀ tx ∈ txs, Marked s.log tx

structure Sound (s : ChainSync) : Prop where
  nodup : s.queued.Nodup
  kept : s.Kept
  copies : ∀ t ∈ s.ticks, ∀ work ∈ t.work, s.Copies work.txs

variable {s : ChainSync}

theorem enqueueRebroadcastTx_eq_ok {txid txHex : Str} {s' : ChainSync}
    (h : s.enqueueRebroadcastTx txid txHex = .ok s') :
  ∃ t, normalizeTxid txid = .ok t ∧ s'.ticks = s.ticks
    ∧ s'.pendingBroadcasts = s.pendingBroadcasts ∧ s'.log = .enqueued t :: s.log
    ∧ ((∃ before tx tx' after, s.rebroadcastQueue = before ++ tx :: after ∧ tx.txid = t
        ∧ tx'.txid = t ∧ tx'.confirmedAt = none
        ∧ s'.rebroadcastQueue = before ++ tx' :: after)
      ∨ t ∉ s.queued ∧ ∃ tx, tx.txid = t ∧ tx.confirmedAt = none
        ∧ s'.rebroadcastQueue = s.rebroadcastQueue ++ [tx])
  := by
  obtain ⟨t, ht, h⟩ := bind_eq_ok.mp h
  obtain ⟨hex, _, h⟩ := bind_eq_ok.mp h
  obtain rfl := Except.ok.inj h
  refine ⟨t, ht, rfl, rfl, rfl, ?_⟩
  dsimp only
  cases hupdate : updateFirst (fun entry => decide (entry.txid = t))
      (fun entry => { entry with txHex := hex, lastError := none, confirmedAt := none })
      s.rebroadcastQueue with
  | some queue =>
    obtain ⟨before, tx, after, hqueue, htx, rfl⟩ := updateFirst_eq_some hupdate
    have htx : tx.txid = t := of_decide_eq_true htx
    exact .inl ⟨before, tx, { tx with txHex := hex, lastError := none, confirmedAt := none },
      after, hqueue, htx, htx, rfl, rfl⟩
  | none =>
    refine .inr ⟨?_, _, rfl, rfl, rfl⟩
    intro hmem
    obtain ⟨tx, htx, rfl⟩ := mem_map.mp hmem
    simpa using updateFirst_eq_none hupdate tx htx

theorem Marked.enqueued {log : List ChainSyncEntry} {tx : RebroadcastTx} {t : Str}
    (h : Marked log tx) (hne : t ≠ tx.txid) :
  Marked (.enqueued t :: log) tx
  := fun hmark => ⟨hne, h hmark⟩

section Sound

variable (hs : s.Sound)
include hs

theorem Sound.enqueue (hidle : s.Idle) {txid txHex : Str} {s' : ChainSync}
    (h : s.enqueueRebroadcastTx txid txHex = .ok s') :
  s'.Sound ∧ s'.Idle ∧ s'.pendingBroadcasts = s.pendingBroadcasts
    ∧ (∀ t ∈ s.queued, t ∈ s'.queued) ∧ ∀ t, normalizeTxid txid = .ok t → t ∈ s'.queued
  := by
  obtain ⟨t, ht, hticks, hpending, hlog, hqueue⟩ := enqueueRebroadcastTx_eq_ok h
  have hidle' : s'.Idle := by
    rw [Idle, hticks]
    apply hidle
  have hmarks : (∀ tx ∈ s'.rebroadcastQueue, Marked s'.log tx) ∧ s'.queued.Nodup
      ∧ t ∈ s'.queued ∧ ∀ t' ∈ s.queued, t' ∈ s'.queued := by
    have hnodup := hs.nodup
    have hmarked := hs.kept.2
    rw [queued] at hnodup ⊢
    rw [hlog, queued]
    rcases hqueue with ⟨before, tx, tx', after, hq, htx, htx', hmark, hq'⟩ |
      ⟨hnew, tx, htx, hmark, hq'⟩
    · rw [hq] at hnodup hmarked ⊢
      rw [hq']
      simp only [map_append, map_cons, htx, htx'] at hnodup ⊢
      obtain ⟨-, hafter, hdisjoint⟩ := nodup_append.mp hnodup
      refine ⟨?_, hnodup, by simp, fun _ h => h⟩
      intro tx0 htx0
      rcases mem_append.mp htx0 with hmem | hmem
      · apply (hmarked tx0 (mem_append_left _ hmem)).enqueued
        intro heq
        apply hdisjoint tx0.txid (mem_map_of_mem hmem) t mem_cons_self heq.symm
      rcases mem_cons.mp hmem with rfl | hmem
      · intro hsome
        rw [hmark] at hsome
        cases hsome
      · apply (hmarked tx0 (mem_append_right _ (mem_cons_of_mem _ hmem))).enqueued
        rintro rfl
        exact (nodup_cons.mp hafter).1 (mem_map_of_mem hmem)
    · rw [hq']
      simp only [map_append, map_cons, map_nil, htx]
      refine ⟨?_, ?_, by simp, fun t' ht' => mem_append_left _ ht'⟩
      · intro tx0 htx0
        rcases mem_append.mp htx0 with hmem | hmem
        · apply (hmarked tx0 hmem).enqueued
          rintro rfl
          exact hnew (mem_map_of_mem hmem)
        · rw [mem_singleton.mp hmem]
          intro hsome
          rw [hmark] at hsome
          cases hsome
      · apply nodup_append.mpr
        refine ⟨hnodup, by simp, ?_⟩
        rintro a ha b hb rfl
        rw [mem_singleton.mp hb] at ha
        exact hnew ha
  obtain ⟨hmarks, hnodup, hmem, hold⟩ := hmarks
  refine ⟨⟨hnodup, ⟨?_, hmarks⟩, ?_⟩, hidle', hpending, hold, ?_⟩
  · intro e he txid' htxid'
    rw [hlog] at he
    rcases mem_cons.mp he with rfl | he
    · left
      rw [← some.inj htxid']
      apply hmem
    · rw [pending, hpending]
      apply (hs.kept.1 e he txid' htxid').imp_left (hold txid')
  · intro t' ht' work hwork
    rw [hidle' t' ht'] at hwork
    cases hwork
  · intro t' ht'
    rw [ht] at ht'
    rw [← Except.ok.inj ht']
    apply hmem

/-- Taking over what LDK handed to the broadcaster, while no tick has a copy. -/
theorem Sound.ingest (hidle : s.Idle) (txs : List PendingBroadcastTx) :
  let s' := txs.foldl ChainSync.ingest s
  s'.Sound ∧ s'.Idle ∧ s'.pendingBroadcasts = s.pendingBroadcasts
    ∧ (∀ t ∈ s.queued, t ∈ s'.queued) ∧ ∀ tx ∈ txs, tx.txid ∈ s'.queued
  := by
  induction txs generalizing s with
  | nil => exact ⟨hs, hidle, rfl, fun _ h => h, by simp⟩
  | cons tx txs ih =>
    have hok : ∃ s1, s.enqueueRebroadcastTx tx.txid tx.txHex = .ok s1 := by
      rw [enqueueRebroadcastTx, tx.txid_normal, tx.txHex_normal]
      exact ⟨_, rfl⟩
    obtain ⟨s1, hs1⟩ := hok
    have hingest : ChainSync.ingest s tx = s1 := by
      rw [ChainSync.ingest, hs1]
    obtain ⟨hsound, hidle1, hpending, hold, hmem⟩ := hs.enqueue hidle hs1
    obtain ⟨hsound', hidle', hpending', hold', hmem'⟩ := ih hsound hidle1
    rw [foldl_cons, hingest]
    refine ⟨hsound', hidle', hpending'.trans hpending, fun t ht => hold' t (hold t ht), ?_⟩
    intro tx' htx'
    rcases mem_cons.mp htx' with rfl | htx'
    · apply hold' _ (hmem _ tx'.txid_normal)
    · apply hmem' tx' htx'

theorem Sound.ingestPendingBroadcasts (h : s.Idle ∨ s.pendingBroadcasts = []) :
  s.ingestPendingBroadcasts.Sound
  := by
  rcases h with hidle | hnone
  · obtain ⟨hsound, _, hpending, _, hmem⟩ := hs.ingest hidle s.pendingBroadcasts
    refine ⟨hsound.nodup, ⟨?_, hsound.kept.2⟩, hsound.copies⟩
    intro e he txid htxid
    left
    rcases hsound.kept.1 e he txid htxid with hqueued | hpend
    · apply hqueued
    · rw [pending, hpending] at hpend
      obtain ⟨tx, htx, rfl⟩ := mem_map.mp hpend
      apply hmem tx htx
  · rw [ChainSync.ingestPendingBroadcasts, hnone]
    refine ⟨hs.nodup, ⟨?_, hs.kept.2⟩, hs.copies⟩
    intro e he txid htxid
    have hold := hs.kept.1 e he txid htxid
    rw [pending, hnone] at hold
    apply hold

theorem Sound.broadcastTransaction (tx : PendingBroadcastTx) :
  (s.broadcastTransaction tx).Sound
  := by
  have hpending : tx.txid ∈ (s.broadcastTransaction tx).pending
      ∧ ∀ t ∈ s.pending, t ∈ (s.broadcastTransaction tx).pending := by
    rw [pending, pending, ChainSync.broadcastTransaction]
    dsimp only
    cases hupdate : updateFirst (fun entry => decide (entry.txid = tx.txid)) (fun _ => tx)
        s.pendingBroadcasts with
    | some txs =>
      obtain ⟨before, tx', after, hold, htx', rfl⟩ := updateFirst_eq_some hupdate
      have htx' : tx'.txid = tx.txid := of_decide_eq_true htx'
      rw [hold, getD_some]
      simp [htx']
    | none => simp +contextual
  refine ⟨hs.nodup, ⟨?_, hs.kept.2⟩, hs.copies⟩
  intro e he txid htxid
  rcases mem_cons.mp he with rfl | he
  · right
    rw [← some.inj htxid]
    apply hpending.1
  · apply (hs.kept.1 e he txid htxid).imp_right (hpending.2 txid)

/-- A tick that waits for something else has the same copy, or none. -/
theorem Sound.setTick {k : ℕ} {t : Tick} (ht : ∀ work ∈ t.work, s.Copies work.txs) :
  Sound { s with ticks := s.ticks.set k t }
  := by
  refine ⟨hs.nodup, hs.kept, ?_⟩
  intro t' ht' work hwork
  rcases mem_or_eq_of_mem_set ht' with ht' | rfl
  · apply hs.copies t' ht' work hwork
  · apply ht work hwork

/-- A tick goes on with its copy, and the copy may take the place of the queue. -/
theorem Sound.proceed {done rest : List RebroadcastTx} (hcopy : s.Copies (done ++ rest))
    (k now pollIntervalSec : ℕ) (globalError : Option Str) :
  (s.proceed k now pollIntervalSec done rest globalError).Sound
  := by
  have hsplit := takeWhile_append_dropWhile (p := fun entry : RebroadcastTx =>
    entry.confirmedAt.isSome) (l := rest)
  unfold ChainSync.proceed
  dsimp only
  split
  next hnil =>
    rw [hnil, append_nil] at hsplit
    rw [hsplit]
    -- All transactions of the copy are dealt with.
    have hqueued : (done ++ rest).map RebroadcastTx.txid = s.queued := hcopy.1
    refine ⟨?_, ⟨?_, hcopy.2⟩, ?_⟩
    · rw [queued]
      dsimp only
      rw [hqueued]
      apply hs.nodup
    · intro e he txid htxid
      rw [queued]
      dsimp only
      rw [hqueued]
      apply hs.kept.1 e he txid htxid
    · intro t ht work hwork
      rw [Copies, queued]
      dsimp only
      rw [hqueued]
      rcases mem_or_eq_of_mem_set ht with ht | rfl
      · apply hs.copies t ht work hwork
      · cases hwork
  next entry rest' hcons =>
    rw [hcons] at hsplit
    apply hs.setTick
    rintro work ⟨⟩
    rw [TickWork.txs]
    dsimp only
    rw [append_assoc, hsplit]
    apply hcopy

/-- A tick has dealt with a transaction: it keeps the id, and a mark is justified. -/
theorem Sound.proceedFrom {work : TickWork} (hwork : s.Copies work.txs) {entry : RebroadcastTx}
    (hid : entry.txid = work.entry.txid) (hmark : Marked s.log entry) (k : ℕ)
    (globalError : Option Str) :
  (s.proceedFrom k work entry globalError).Sound
  := by
  apply hs.proceed
  obtain ⟨hids, hmarks⟩ := hwork
  rw [append_assoc, singleton_append]
  constructor
  · rw [← hids, TickWork.txs]
    simp only [map_append, map_cons, hid]
  · intro tx htx
    rcases mem_append.mp htx with htx | htx
    · apply hmarks tx (mem_append_left _ htx)
    · rcases mem_cons.mp htx with rfl | htx
      · apply hmark
      · apply hmarks tx (mem_append_right _ (mem_cons_of_mem _ htx))

theorem Sound.confirmed (txid : Str) :
  Sound { s with log := .confirmed txid :: s.log }
  := by
  have hmarked {tx : RebroadcastTx} (h : Marked s.log tx) :
      Marked (.confirmed txid :: s.log) tx := fun hmark => .inr (h hmark)
  refine ⟨hs.nodup, ⟨?_, fun tx htx => hmarked (hs.kept.2 tx htx)⟩, ?_⟩
  · intro e he txid' htxid'
    rcases mem_cons.mp he with rfl | he
    · cases htxid'
    · apply hs.kept.1 e he txid' htxid'
  · intro t ht work hwork
    obtain ⟨hids, hmarks⟩ := hs.copies t ht work hwork
    exact ⟨hids, fun tx htx => hmarked (hmarks tx htx)⟩

theorem Sound.statusReply {work : TickWork} (hwork : s.Copies work.txs) (k : ℕ)
    (reply : Except Str Bool) :
  (s.statusReply k work reply).Sound
  := by
  have hentry : Marked s.log work.entry := hwork.2 work.entry (by simp [TickWork.txs])
  unfold ChainSync.statusReply
  split
  next e =>
    apply hs.proceedFrom hwork
    · rfl
    · exact hentry
  next =>
    have hwork' : Copies { s with log := .confirmed work.entry.txid :: s.log } work.txs :=
      ⟨hwork.1, fun tx htx hmark => .inr (hwork.2 tx htx hmark)⟩
    apply (hs.confirmed work.entry.txid).proceedFrom hwork'
    · rfl
    · exact fun _ => .inl rfl
  next =>
    split_ifs
    · apply hs.setTick
      rintro work' ⟨⟩
      apply hwork
    · apply hs.proceedFrom hwork rfl hentry

theorem Sound.broadcastReply {work : TickWork} (hwork : s.Copies work.txs) (k : ℕ)
    (reply : Except Str Unit) :
  (s.broadcastReply k work reply).Sound
  := by
  have hentry : Marked s.log work.entry := hwork.2 work.entry (by simp [TickWork.txs])
  unfold ChainSync.broadcastReply
  dsimp only
  split
  · apply hs.proceedFrom hwork
    · rfl
    · exact hentry
  · apply hs.proceedFrom hwork
    · rfl
    · exact hentry

theorem Sound.tipReply (k now : ℕ) (reply : Except Str ℕ) :
  (s.tipReply k now reply).Sound
  := by
  unfold ChainSync.tipReply
  split
  next e =>
    have hs' : Sound { s with ticks := s.ticks.set k .finished } :=
      hs.setTick (by rintro work ⟨⟩)
    exact ⟨hs'.nodup, hs'.kept, hs'.copies⟩
  next tipHeight =>
    have hs' : (s.applyTipHeight tipHeight now).Sound := ⟨hs.nodup, hs.kept, hs.copies⟩
    apply hs'.proceed
    exact ⟨rfl, hs.kept.2⟩

theorem Sound.step {e : Event} (h : s.Undisturbed e) :
  (s.step e).Sound
  := by
  cases e with
  | start pollIntervalMs => exact ⟨hs.nodup, hs.kept, hs.copies⟩
  | enqueue txid txHex =>
    rw [ChainSync.step]
    cases henqueue : s.enqueueRebroadcastTx txid txHex with
    | error e => apply hs
    | ok s' => apply (hs.enqueue h henqueue).1
  | broadcastTransactions txs =>
    rw [ChainSync.step]
    apply foldlRecOn _ _ hs
    intro s' hs' tx _
    apply hs'.broadcastTransaction
  | tick now =>
    have hs' := hs.ingestPendingBroadcasts h
    refine ⟨hs'.nodup, hs'.kept, ?_⟩
    intro t ht work hwork
    rcases mem_append.mp ht with ht | ht
    · apply hs'.copies t ht work hwork
    · rw [mem_singleton.mp ht] at hwork
      cases hwork
  | tipReply k reply =>
    rw [ChainSync.step]
    split
    next now _ => apply hs.tipReply
    next => apply hs
  | statusReply k reply =>
    rw [ChainSync.step]
    split
    next work hk =>
      apply hs.statusReply
      apply hs.copies _ (mem_of_getElem? hk) work rfl
    next => apply hs
  | broadcastReply k reply =>
    rw [ChainSync.step]
    split
    next work hk =>
      apply hs.broadcastReply
      apply hs.copies _ (mem_of_getElem? hk) work rfl
    next => apply hs

end Sound

/-- As long as nothing is added to the queue while a tick has a copy of it, every transaction
that was accepted into the queue or handed to the broadcaster is in the queue or still to be
taken over, and a transaction is marked as confirmed only if the indexer said so since it was
last added. -/
theorem rebroadcast_kept (es : List Event) (h : Run.Meets step Undisturbed {} es) :
  (Run.run step {} es).Kept
  := by
  have hstart : Sound {} := by
    refine ⟨nodup_nil, ⟨?_, ?_⟩, ?_⟩
    · simp
    · simp
    · simp
  have hend := Run.run_invariant (I := Sound) (fun s e hs he => hs.step he) hstart h
  apply hend.kept

/-- An id and the bytes of a transaction. -/
def sampleTxid (c : UInt8) : Str :=
  replicate 64 c

/-- A tick asks about a transaction of the queue and its reply arrives. -/
theorem rebroadcast_kept_confirmed :
  (Run.run step {} [.enqueue (sampleTxid 97) (str "00"), .tick 100, .tipReply 0 (.ok 5),
    .statusReply 0 (.ok true), .enqueue (sampleTxid 98) (str "00")]).Kept
  := rebroadcast_kept _ (by decide +kernel)

/-- A transaction that is added while a tick has its copy is lost when the copy takes the
place of the queue.  If it was in the queue and confirmed before, its mark comes back. -/
theorem rebroadcast_lost :
  let added := Run.run step {} [.enqueue (sampleTxid 97) (str "00"), .tick 100,
    .tipReply 0 (.ok 5), .enqueue (sampleTxid 98) (str "00"), .statusReply 0 (.ok true)]
  let again := Run.run step {} [.enqueue (sampleTxid 97) (str "00"),
    .enqueue (sampleTxid 98) (str "00"), .tick 100, .tipReply 0 (.ok 5),
    .statusReply 0 (.ok true), .enqueue (sampleTxid 97) (str "00"), .statusReply 0 (.ok true)]
  (.enqueued (sampleTxid 98) ∈ added.log ∧ sampleTxid 98 ∉ added.queued ∧ added.pending = [])
    ∧ (∃ tx ∈ again.rebroadcastQueue, tx.txid = sampleTxid 97 ∧ tx.confirmedAt = some 100
      ∧ ¬ ConfirmedSince (sampleTxid 97) again.log)
    ∧ ¬ added.Kept ∧ ¬ again.Kept
  := by
  decide +kernel

end ChainSync

end RgbLightning
