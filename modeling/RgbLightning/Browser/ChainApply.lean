import Mathlib.Data.List.SplitBy
import RgbLightning.Lib.Run
import RgbLightning.Text

/-!
# The chain as the browser node sees it

The node is told about the chain in passes.  A pass asks an indexer who spent the outputs
that are watched, adds the spenders to the transactions that are relevant, asks for the
status of these, and hands the confirmed ones to the node, block by block.  The watched
outputs are kept in the order in which they were registered, and are never removed.

A pass looks at the first 64 watched outputs only, and at the first 128 transactions, among
which the spenders come last.  `spenders_covered_iff` says when every spender is handed over;
otherwise one of them never is (`spender_never_applied`).
-/

namespace RgbLightning.ChainApply

open List

/-! ### Calls that may fail -/

/-- A computation that makes calls: those it made, and how it ended. -/
def Calling (C α : Type) : Type := List C × Except String α

namespace Calling

variable {C α β : Type}

def bind (x : Calling C α) (f : α → Calling C β) : Calling C β :=
  match x.2 with
  | .error e => (x.1, .error e)
  | .ok a => (x.1 ++ (f a).1, (f a).2)

instance : Monad (Calling C) where
  pure a := ([], .ok a)
  bind := bind

/-- A computation that makes no call. -/
def request (r : Except String α) : Calling C α :=
  ([], r)

theorem bind_eq_ok {x : Calling C α} {f : α → Calling C β} {calls : List C} {b : β} :
  x >>= f = (calls, .ok b) ↔
    ∃ calls1 a calls2, x = (calls1, .ok a) ∧ f a = (calls2, .ok b) ∧ calls = calls1 ++ calls2
  := by
  obtain ⟨calls1, e | a⟩ := x
  · constructor
    · intro h
      cases h
    · rintro ⟨_, _, _, ⟨⟩, _⟩
  constructor
  · intro h
    obtain ⟨rfl, hb⟩ := Prod.mk.inj h
    use calls1, a, (f a).1, rfl
    constructor
    · rw [← hb]
      rfl
    · rfl
  · rintro ⟨_, _, calls2, ⟨⟩, hf, rfl⟩
    change (calls1 ++ (f a).1, (f a).2) = _
    rw [hf]

theorem request_eq_ok {r : Except String α} {calls : List C} {a : α} :
  request r = (calls, .ok a) ↔ r = .ok a ∧ calls = []
  := by
  constructor
  · intro h
    obtain ⟨rfl, rfl⟩ := Prod.mk.inj h
    exact ⟨rfl, rfl⟩
  · rintro ⟨rfl, rfl⟩
    rfl

end Calling

open Calling

/-! ### The indexer and the node -/

/-- What the indexer answers.  A status without a value is that of a transaction which is not
reported confirmed, and an outspend without one of an output without a confirmed spender. -/
structure Indexer where
  fetchOutspendTxid : Str → ℕ → Except String (Option Str)
  fetchTxStatus : Str → Except String (Option (ℕ × Str))
  fetchBlockHashByHeight : ℕ → Except String Str
  fetchBlockHeaderHex : Str → Except String Str
  fetchTxIndexInBlock : Str → Str → Except String ℕ
  fetchTxHex : Str → Except String Str

def Indexer.fetchBlockHeaderHexByHeight (i : Indexer) (height : ℕ) : Except String Str := do
  let blockHash ← i.fetchBlockHashByHeight height
  i.fetchBlockHeaderHex blockHash

/-- What the node is told. -/
inductive LdkCall where
  | chainApplyConfirmedTx (height : ℕ) (headerHex : Str) (txIndex : ℕ) (txHex : Str)
  | chainApplyBestBlock (height : ℕ) (headerHex : Str)
deriving DecidableEq

structure IterationOrder where
  order : List Str → List Str
  perm : ∀ l, (order l).Perm l.dedup

/-- What a pass finds: the indexer and its tip, the transactions that the monitors and the
node name, the order in which they are enumerated, and how the node answers calls. -/
structure Pass where
  indexer : Option Indexer
  latestTipHeight : Option ℕ
  tipRegressed : Bool
  objectGraph : Bool
  monitorTxids : List Str
  submittedFundingTxids : List Str
  txidOrder : IterationOrder
  answer : LdkCall → Except String Unit

/-- What the filter was told to watch, and the calls that were made to the node. -/
structure LiveChain where
  watchedTxids : List Str := []
  watchedOutputs : List (Str × ℕ) := []
  calls : List LdkCall := []

namespace LiveChain

variable (s : LiveChain)

def registerTx (txid : Str) : LiveChain :=
  { s with watchedTxids := s.watchedTxids.insert txid }

def registerOutput (outpoint : Str × ℕ) : LiveChain :=
  { s with watchedOutputs := s.watchedOutputs ++ [outpoint] }

/-- The transactions that are relevant, each once. -/
def relevantTxids (p : Pass) : List Str :=
  p.txidOrder.order (p.monitorTxids ++ s.watchedTxids ++ p.submittedFundingTxids ++
    s.watchedOutputs.map (·.1))

def chainRelevantTxids (p : Pass) : Except String (List Str) :=
  if p.objectGraph then .ok (s.relevantTxids p) else .error "ldk object graph is not initialized"

def chainWatchedOutputs (p : Pass) : Except String (List (Str × ℕ)) :=
  if p.objectGraph then .ok s.watchedOutputs else .error "ldk object graph is not initialized"

end LiveChain

/-! ### A pass -/

def maxOutspends : ℕ := 64

def maxTxids : ℕ := 128

structure ConfirmedTx where
  txid : Str
  height : ℕ
  blockHash : Str

/-- The order in which confirmations are applied. -/
def ConfirmedTx.le (a b : ConfirmedTx) : Bool :=
  decide (a.height < b.height) || (decide (a.height = b.height) &&
    (decide (a.blockHash < b.blockHash) || (decide (a.blockHash = b.blockHash) &&
      !decide (b.txid < a.txid))))

def ConfirmedTx.sameBlock (a b : ConfirmedTx) : Bool :=
  decide (b.height = a.height) && decide (b.blockHash = a.blockHash)

namespace Indexer

variable (i : Indexer)

/-- A confirmed spender joins the relevant transactions.  A lookup that fails is ignored. -/
def addSpender (relevant : List Str) (outpoint : Str × ℕ) : List Str :=
  match i.fetchOutspendTxid outpoint.1 outpoint.2 with
  | .ok (some spenderTxid) =>
    if spenderTxid ∈ relevant then relevant else relevant ++ [spenderTxid]
  | .ok none => relevant
  | .error _ => relevant

def addSpenders (relevant : List Str) (outputs : List (Str × ℕ)) : List Str :=
  outputs.foldl i.addSpender relevant

/-- The transactions that are reported confirmed. -/
def confirmedTxs : List Str → Except String (List ConfirmedTx)
  | [] => .ok []
  | txid :: txids => do
    let status ← i.fetchTxStatus txid
    let confirmed ← confirmedTxs txids
    match status with
    | some (height, blockHash) => .ok (⟨txid, height, blockHash⟩ :: confirmed)
    | none => .ok confirmed

def positions (blockHash : Str) (block : List ConfirmedTx) : Except String (List (ℕ × Str)) :=
  block.mapM fun tx => do
    let txIndex ← i.fetchTxIndexInBlock blockHash tx.txid
    .ok (txIndex, tx.txid)

end Indexer

namespace Pass

variable (p : Pass) (i : Indexer)

def call (c : LdkCall) : Calling LdkCall Unit :=
  ([c], p.answer c)

/-- Transactions of one block are handed to the node. -/
def applyTxs (height : ℕ) (headerHex : Str) : List (ℕ × Str) → Calling LdkCall Unit
  | [] => pure ()
  | (txIndex, txid) :: txs => do
    let txHex ← request (i.fetchTxHex txid)
    p.call (.chainApplyConfirmedTx height headerHex txIndex txHex)
    applyTxs height headerHex txs

/-- The header of a block, unless it was fetched before. -/
def headerOf (headerCache : Table Str Str) (blockHash : Str) : Except String Str :=
  match headerCache.lookup blockHash with
  | some headerHex => .ok headerHex
  | none => i.fetchBlockHeaderHex blockHash

/-- One block is applied, in the order of its transactions. -/
def applyBlock (headerCache : Table Str Str) :
    List ConfirmedTx → Calling LdkCall (Table Str Str)
  | [] => pure headerCache
  | tx :: txs => do
    let headerHex ← request (headerOf i headerCache tx.blockHash)
    let withPos ← request (i.positions tx.blockHash (tx :: txs))
    p.applyTxs i tx.height headerHex (withPos.mergeSort fun a b => decide (a.1 ≤ b.1))
    p.call (.chainApplyBestBlock tx.height headerHex)
    pure (headerCache.insert tx.blockHash headerHex)

def applyBlocks (headerCache : Table Str Str) :
    List (List ConfirmedTx) → Calling LdkCall Unit
  | [] => pure ()
  | block :: blocks => do
    let headerCache ← p.applyBlock i headerCache block
    applyBlocks headerCache blocks

/-- The confirmed transactions, and then the tip, which is at least as high as they are. -/
def applyConfirmed (tipHeight : ℕ) (confirmed : List ConfirmedTx) : Calling LdkCall Unit := do
  let effectiveTipHeight := (confirmed.map (·.height)).foldr max tipHeight
  let tipHeaderHex ← request (i.fetchBlockHeaderHexByHeight effectiveTipHeight)
  p.applyBlocks i ∅ ((confirmed.mergeSort ConfirmedTx.le).splitBy ConfirmedTx.sameBlock)
  p.call (.chainApplyBestBlock effectiveTipHeight tipHeaderHex)

/-- The tip alone.  An answer of the node that it is not ready is ignored. -/
def applyHeight (tipHeight : ℕ) : Calling LdkCall Unit := do
  let tipHeaderHex ← request (i.fetchBlockHeaderHexByHeight tipHeight)
  ([.chainApplyBestBlock tipHeight tipHeaderHex], .ok ())

/-- The pass with an indexer whose tip can be applied. -/
def applyTip (s : LiveChain) (tipHeight : ℕ) : Calling LdkCall Unit := do
  let relevant ← request (s.chainRelevantTxids p)
  let watchedOutputs ← request (s.chainWatchedOutputs p)
  let relevant := i.addSpenders relevant (watchedOutputs.take maxOutspends)
  if relevant = [] then applyHeight i tipHeight
  else
    let confirmed ← request (i.confirmedTxs (relevant.take maxTxids))
    p.applyConfirmed i tipHeight confirmed

def applyChainSyncToLiveLdk (s : LiveChain) : Calling LdkCall Unit :=
  match p.indexer, p.latestTipHeight with
  | some i, some tipHeight =>
    if tipHeight = 0 ∨ p.tipRegressed then pure () else p.applyTip i s tipHeight
  | _, _ => pure ()

end Pass

/-! ### Runs -/

inductive ChainEvent where
  | registerTx (txid : Str)
  | registerOutput (outpoint : Str × ℕ)
  | pass (p : Pass)

def step (s : LiveChain) : ChainEvent → LiveChain
  | .registerTx txid => s.registerTx txid
  | .registerOutput outpoint => s.registerOutput outpoint
  | .pass p => { s with calls := s.calls ++ (p.applyChainSyncToLiveLdk s).1 }

/-- The passes of a run. -/
def passes (es : List ChainEvent) : List Pass :=
  es.filterMap fun e =>
    match e with
    | .pass p => some p
    | _ => none

/-- A pass with an indexer whose tip has not regressed, in which no request and no call to
the node fails. -/
def Succeeds (s : LiveChain) (p : Pass) : Prop :=
  p.tipRegressed = false ∧ (∃ tipHeight ≠ 0, p.latestTipHeight = some tipHeight) ∧
    (p.applyChainSyncToLiveLdk s).2 = .ok () ∧
    ∃ i, p.indexer = some i ∧
      ∀ o ∈ s.watchedOutputs.take maxOutspends, ∃ r, i.fetchOutspendTxid o.1 o.2 = .ok r

/-- Passes succeed, with at most `n` outputs watched and `m` transactions relevant. -/
def Smooth (n m : ℕ) (s : LiveChain) : ChainEvent → Prop
  | .pass p => Succeeds s p ∧ s.watchedOutputs.length ≤ n ∧ (s.relevantTxids p).length ≤ m
  | _ => True

/-- The indexer reports a transaction as the confirmed spender of an output. -/
def Reports (p : Pass) (outpoint : Str × ℕ) (txid : Str) : Prop :=
  ∃ i, p.indexer = some i ∧ i.fetchOutspendTxid outpoint.1 outpoint.2 = .ok (some txid) ∧
    ∃ block, i.fetchTxStatus txid = .ok (some block)

/-- A transaction is handed to the node, as the indexer has it. -/
def Hands (i : Indexer) (calls : List LdkCall) (txid : Str) : Prop :=
  ∃ txHex, i.fetchTxHex txid = .ok txHex ∧
    ∃ height headerHex txIndex, .chainApplyConfirmedTx height headerHex txIndex txHex ∈ calls

/-- A transaction is handed to the node, as the indexer of a pass has it. -/
def HandedOver (p : Pass) (txid : Str) (calls : List LdkCall) : Prop :=
  ∃ i, p.indexer = some i ∧ Hands i calls txid

/-- There is a number of passes after which every transaction that was reported throughout as
the confirmed spender of a watched output has been handed to the node. -/
def SpendersCovered (n m : ℕ) : Prop :=
  ∃ k, ∀ s es, s.calls = [] → k ≤ (passes es).length → Run.Meets step (Smooth n m) s es →
    ∀ outpoint ∈ s.watchedOutputs, ∀ txid, (∀ p ∈ passes es, Reports p outpoint txid) →
      ∃ p ∈ passes es, HandedOver p txid (Run.run step s es).calls

/-! ### What a pass hands over -/

section Applied

variable {p : Pass} {i : Indexer} {calls : List LdkCall}

variable {relevant : List Str} {txid : Str}

theorem mem_addSpender (h : txid ∈ relevant) (outpoint : Str × ℕ) :
  txid ∈ i.addSpender relevant outpoint
  := by
  rw [Indexer.addSpender]
  split
  · split_ifs
    · exact h
    · apply mem_append_left _ h
  · exact h
  · exact h

theorem length_addSpender_le (relevant : List Str) (outpoint : Str × ℕ) :
  (i.addSpender relevant outpoint).length ≤ relevant.length + 1
  := by
  rw [Indexer.addSpender]
  split
  · split_ifs
    · omega
    · simp
  · omega
  · omega

theorem length_addSpenders_le (relevant : List Str) (outputs : List (Str × ℕ)) :
  (i.addSpenders relevant outputs).length ≤ relevant.length + outputs.length
  := by
  induction outputs generalizing relevant with
  | nil => simp [Indexer.addSpenders]
  | cons o outputs ih =>
    have h := ih (i.addSpender relevant o)
    have ho := length_addSpender_le (i := i) relevant o
    simp only [Indexer.addSpenders, foldl_cons, length_cons] at h ⊢
    omega

theorem mem_addSpenders_of_mem (h : txid ∈ relevant) (outputs : List (Str × ℕ)) :
  txid ∈ i.addSpenders relevant outputs
  := by
  apply foldlRecOn (motive := fun relevant => txid ∈ relevant) _ _ h
  intro relevant h o _
  apply mem_addSpender h

variable {o : Str × ℕ}

theorem mem_addSpenders {outputs : List (Str × ℕ)} (ho : o ∈ outputs)
    (hspent : i.fetchOutspendTxid o.1 o.2 = .ok (some txid)) :
  txid ∈ i.addSpenders relevant outputs
  := by
  induction outputs generalizing relevant with
  | nil => cases ho
  | cons o' outputs ih =>
    rcases mem_cons.mp ho with rfl | ho
    · have hmem : txid ∈ i.addSpender relevant o := by
        simp only [Indexer.addSpender, hspent]
        split_ifs with hmem
        · exact hmem
        · simp
      apply mem_addSpenders_of_mem hmem
    · apply ih ho

variable {blockHash : Str}

theorem mem_confirmedTxs {txids : List Str} {confirmed : List ConfirmedTx}
    (h : i.confirmedTxs txids = .ok confirmed) (htxid : txid ∈ txids) {height : ℕ}
    (hstatus : i.fetchTxStatus txid = .ok (some (height, blockHash))) :
  ⟨txid, height, blockHash⟩ ∈ confirmed
  := by
  induction txids generalizing confirmed with
  | nil => cases htxid
  | cons txid' txids ih =>
    rw [Indexer.confirmedTxs, RgbLightning.bind_eq_ok] at h
    obtain ⟨status, hstatus', h⟩ := h
    rw [RgbLightning.bind_eq_ok] at h
    obtain ⟨rest, hrest, h⟩ := h
    rcases mem_cons.mp htxid with rfl | htxid
    · rw [hstatus] at hstatus'
      cases hstatus'
      cases h
      apply mem_cons_self
    have hmem := ih hrest htxid
    split at h
    · cases h
      apply mem_cons_of_mem _ hmem
    · cases h
      exact hmem

theorem mem_of_applyTxs {height : ℕ} {headerHex : Str} {txs : List (ℕ × Str)}
    (h : p.applyTxs i height headerHex txs = (calls, .ok ())) {txIndex : ℕ}
    (htx : (txIndex, txid) ∈ txs) :
  ∃ txHex, i.fetchTxHex txid = .ok txHex ∧
    .chainApplyConfirmedTx height headerHex txIndex txHex ∈ calls
  := by
  induction txs generalizing calls with
  | nil => cases htx
  | cons tx txs ih =>
    obtain ⟨_, txHex, _, hreq, hrest, rfl⟩ := Calling.bind_eq_ok.mp h
    obtain ⟨htxHex, rfl⟩ := Calling.request_eq_ok.mp hreq
    obtain ⟨_, _, _, hcall, htxs, rfl⟩ := Calling.bind_eq_ok.mp hrest
    obtain ⟨rfl, -⟩ := Prod.mk.inj hcall
    rcases mem_cons.mp htx with rfl | htx
    · use txHex, htxHex
      simp
    · obtain ⟨txHex', htxHex', hmem⟩ := ih htxs htx
      use txHex', htxHex'
      simp [hmem]

variable {tx : ConfirmedTx}

theorem mem_positions {block : List ConfirmedTx} {withPos : List (ℕ × Str)}
    (h : i.positions blockHash block = .ok withPos) (htx : tx ∈ block) :
  ∃ txIndex, (txIndex, tx.txid) ∈ withPos
  := by
  have hall := forall₂_of_mapM_eq_ok h
  clear h
  induction hall with
  | nil => cases htx
  | cons hpos hrest ih =>
    rcases mem_cons.mp htx with rfl | htx
    · obtain ⟨txIndex, -, hpos⟩ := RgbLightning.bind_eq_ok.mp hpos
      use txIndex
      rw [← Except.ok.inj hpos]
      apply mem_cons_self
    · obtain ⟨txIndex, hmem⟩ := ih htx
      use txIndex
      apply mem_cons_of_mem _ hmem

theorem Hands.mono {calls' : List LdkCall} (h : Hands i calls txid) (hsub : calls ⊆ calls') :
  Hands i calls' txid
  := by
  obtain ⟨txHex, htxHex, height, headerHex, txIndex, hmem⟩ := h
  use txHex, htxHex, height, headerHex, txIndex
  apply hsub hmem

theorem hands_of_applyBlock {headerCache headerCache' : Table Str Str} {block : List ConfirmedTx}
    (h : p.applyBlock i headerCache block = (calls, .ok headerCache')) (htx : tx ∈ block) :
  Hands i calls tx.txid
  := by
  cases block with
  | nil => cases htx
  | cons first txs =>
    obtain ⟨_, headerHex, _, -, h1, rfl⟩ := Calling.bind_eq_ok.mp h
    obtain ⟨_, withPos, _, hreq, h2, rfl⟩ := Calling.bind_eq_ok.mp h1
    obtain ⟨hpos, rfl⟩ := Calling.request_eq_ok.mp hreq
    obtain ⟨_, _, _, htxs, -, rfl⟩ := Calling.bind_eq_ok.mp h2
    obtain ⟨txIndex, hmem⟩ := mem_positions hpos htx
    obtain ⟨txHex, htxHex, hcall⟩ := mem_of_applyTxs htxs (mem_mergeSort.mpr hmem)
    use txHex, htxHex, first.height, headerHex, txIndex
    simp [hcall]

theorem hands_of_applyBlocks {headerCache : Table Str Str} {blocks : List (List ConfirmedTx)}
    (h : p.applyBlocks i headerCache blocks = (calls, .ok ())) (htx : tx ∈ blocks.flatten) :
  Hands i calls tx.txid
  := by
  induction blocks generalizing headerCache calls with
  | nil => cases htx
  | cons block blocks ih =>
    obtain ⟨_, _, _, hblock, hblocks, rfl⟩ := Calling.bind_eq_ok.mp h
    rcases mem_append.mp htx with htx | htx
    · apply (hands_of_applyBlock hblock htx).mono (subset_append_left _ _)
    · apply (ih hblocks htx).mono (subset_append_right _ _)

theorem hands_of_applyConfirmed {tipHeight : ℕ} {confirmed : List ConfirmedTx}
    (h : p.applyConfirmed i tipHeight confirmed = (calls, .ok ())) (htx : tx ∈ confirmed) :
  Hands i calls tx.txid
  := by
  obtain ⟨_, _, _, -, h1, rfl⟩ := Calling.bind_eq_ok.mp h
  obtain ⟨_, _, _, hblocks, -, rfl⟩ := Calling.bind_eq_ok.mp h1
  have hmem : tx ∈ ((confirmed.mergeSort ConfirmedTx.le).splitBy
      ConfirmedTx.sameBlock).flatten := by
    rw [flatten_splitBy]
    apply mem_mergeSort.mpr htx
  apply (hands_of_applyBlocks hblocks hmem).mono
  intro c hc
  simp [hc]

variable {s : LiveChain}

/-- A pass that succeeds hands over every confirmed spender of the outputs it looks up, if
all transactions are looked at. -/
theorem hands_of_applyTip {tipHeight : ℕ} (h : p.applyTip i s tipHeight = (calls, .ok ()))
    (ho : o ∈ s.watchedOutputs) (hout : s.watchedOutputs.length ≤ maxOutspends)
    (hall : (s.relevantTxids p).length + s.watchedOutputs.length ≤ maxTxids)
    (hspent : i.fetchOutspendTxid o.1 o.2 = .ok (some txid)) {height : ℕ}
    (hstatus : i.fetchTxStatus txid = .ok (some (height, blockHash))) :
  Hands i calls txid
  := by
  obtain ⟨_, relevant, _, hreq, h1, rfl⟩ := Calling.bind_eq_ok.mp h
  obtain ⟨hrelevant, rfl⟩ := Calling.request_eq_ok.mp hreq
  obtain ⟨_, outputs, _, hreq, h2, rfl⟩ := Calling.bind_eq_ok.mp h1
  obtain ⟨houtputs, rfl⟩ := Calling.request_eq_ok.mp hreq
  rw [LiveChain.chainRelevantTxids] at hrelevant
  rw [LiveChain.chainWatchedOutputs] at houtputs
  split_ifs at hrelevant houtputs with hgraph
  obtain rfl := Except.ok.inj hrelevant
  obtain rfl := Except.ok.inj houtputs
  rw [take_of_length_le hout] at h2
  have hmem : txid ∈ i.addSpenders (s.relevantTxids p) s.watchedOutputs :=
    mem_addSpenders ho hspent
  have hlength := length_addSpenders_le (i := i) (s.relevantTxids p) s.watchedOutputs
  simp only at h2
  split_ifs at h2 with hnil
  · rw [hnil] at hmem
    cases hmem
  · obtain ⟨_, confirmed, _, hreq, h3, rfl⟩ := Calling.bind_eq_ok.mp h2
    obtain ⟨hconfirmed, rfl⟩ := Calling.request_eq_ok.mp hreq
    rw [take_of_length_le (hlength.trans hall)] at hconfirmed
    apply hands_of_applyConfirmed h3 (mem_confirmedTxs hconfirmed hmem hstatus)

theorem hands_of_succeeds (h : Succeeds s p) (ho : o ∈ s.watchedOutputs)
    (hout : s.watchedOutputs.length ≤ maxOutspends)
    (hall : (s.relevantTxids p).length + s.watchedOutputs.length ≤ maxTxids)
    (hreport : Reports p o txid) :
  HandedOver p txid (p.applyChainSyncToLiveLdk s).1
  := by
  obtain ⟨hregressed, ⟨tipHeight, htip, hlatest⟩, hok, -⟩ := h
  obtain ⟨i, hi, hspent, ⟨height, blockHash⟩, hstatus⟩ := hreport
  have heq : p.applyChainSyncToLiveLdk s = p.applyTip i s tipHeight := by
    simp only [Pass.applyChainSyncToLiveLdk, hi, hlatest, hregressed, htip, false_or,
      Bool.false_eq_true, if_false]
  rw [heq] at hok ⊢
  use i, hi
  apply hands_of_applyTip (Prod.ext rfl hok) ho hout hall hspent hstatus

end Applied

/-! ### Runs in which all spenders are handed over -/

/-- A run makes calls and registers outputs, and takes neither back. -/
structure Extends (s s' : LiveChain) : Prop where
  calls : s.calls ⊆ s'.calls
  outputs : s.watchedOutputs ⊆ s'.watchedOutputs

theorem extends_step (s : LiveChain) (e : ChainEvent) :
  Extends s (step s e)
  := by
  cases e with
  | registerTx txid =>
    constructor
    · apply Subset.refl
    · apply Subset.refl
  | registerOutput outpoint =>
    constructor
    · apply Subset.refl
    · apply subset_append_left
  | pass p =>
    constructor
    · apply subset_append_left
    · apply Subset.refl

theorem extends_run (s : LiveChain) (es : List ChainEvent) :
  Extends s (Run.run step s es)
  := by
  induction es generalizing s with
  | nil =>
    constructor
    · apply Subset.refl
    · apply Subset.refl
  | cons e es ih =>
    have hstep := extends_step s e
    have hrun := ih (step s e)
    constructor
    · apply Subset.trans hstep.calls hrun.calls
    · apply Subset.trans hstep.outputs hrun.outputs

theorem watched_relevant {s : LiveChain} {o : Str × ℕ} (ho : o ∈ s.watchedOutputs) (p : Pass) :
  o.1 ∈ s.relevantTxids p
  := by
  rw [LiveChain.relevantTxids, (p.txidOrder.perm _).mem_iff, mem_dedup]
  apply mem_append_right
  apply mem_map_of_mem ho

/-- The first pass of a run hands over every spender. -/
theorem handedOver_of_meets {n m : ℕ}
    (hbounds : n = 0 ∨ m = 0 ∨ (n ≤ maxOutspends ∧ n + m ≤ maxTxids))
    {s : LiveChain} {es : List ChainEvent} (hpass : 1 ≤ (passes es).length)
    (hes : Run.Meets step (Smooth n m) s es) {o : Str × ℕ} (ho : o ∈ s.watchedOutputs)
    {txid : Str} (hreport : ∀ p ∈ passes es, Reports p o txid) :
  ∃ p ∈ passes es, HandedOver p txid (Run.run step s es).calls
  := by
  induction es generalizing s with
  | nil => cases hpass
  | cons e es ih =>
    obtain ⟨he, hes⟩ := hes
    cases e with
    | pass p =>
      obtain ⟨hsucceeds, hout, hrelevant⟩ := he
      have hn := length_pos_of_mem ho
      have hm := length_pos_of_mem (watched_relevant ho p)
      use p, mem_cons_self
      obtain ⟨i, hi, hhands⟩ := hands_of_succeeds hsucceeds ho (by omega) (by omega)
        (hreport p mem_cons_self)
      use i, hi
      apply hhands.mono
      apply Subset.trans (subset_append_right s.calls _)
      apply (extends_run (step s (.pass p)) es).calls
    | registerTx txid' => apply ih hpass hes ((extends_step s _).outputs ho) hreport
    | registerOutput outpoint =>
      apply ih hpass hes ((extends_step s (.registerOutput outpoint)).outputs ho) hreport

/-! ### Runs in which a spender is never handed over -/

/-- The enumeration of a set by first occurrence from the right. -/
def dedupOrder : IterationOrder := ⟨dedup, fun _ => Perm.refl _⟩

/-- Transactions that were registered. -/
def fundingTxid (j : ℕ) : Str := replicate j 0

/-- Transactions that spend an output each. -/
def spenderTxid (j : ℕ) : Str := 1 :: replicate j 0

/-- Every output of the first transaction is spent by a transaction of its own, of which the
one with the given number is reported confirmed. -/
def spentIndexer (last : ℕ) : Indexer where
  fetchOutspendTxid _ vout := .ok (some (spenderTxid vout))
  fetchTxStatus txid := .ok (if txid = spenderTxid last then some (1, []) else none)
  fetchBlockHashByHeight _ := .ok []
  fetchBlockHeaderHex _ := .ok []
  fetchTxIndexInBlock _ _ := .ok 0
  fetchTxHex txid := .ok txid

def spentPass (last : ℕ) : Pass where
  indexer := some (spentIndexer last)
  latestTipHeight := some 1
  tipRegressed := false
  objectGraph := true
  monitorTxids := []
  submittedFundingTxids := []
  txidOrder := dedupOrder
  answer _ := .ok ()

/-- Outputs of one transaction are watched, beside other transactions. -/
def watching (n m : ℕ) (calls : List LdkCall) : LiveChain where
  watchedTxids := (range m).map fundingTxid
  watchedOutputs := (range n).map fun j => (fundingTxid 0, j)
  calls := calls

theorem fundingTxid_injective :
  Function.Injective fundingTxid
  := by
  intro j k h
  have hlength := congrArg length h
  simpa [fundingTxid] using hlength

theorem spenderTxid_injective :
  Function.Injective spenderTxid
  := by
  intro j k h
  have hlength := congrArg length h
  simpa [spenderTxid] using hlength

theorem fundingTxid_ne_spenderTxid (j k : ℕ) :
  fundingTxid j ≠ spenderTxid k
  := by
  intro h
  cases j with
  | zero => cases h
  | succ j =>
    have hhead := congrArg head? h
    simp [fundingTxid, spenderTxid, replicate_succ] at hhead

section Missed

variable {n m last : ℕ} {calls : List LdkCall}

theorem mem_relevantTxids (hm : m ≠ 0) {txid : Str} :
  txid ∈ (watching n m calls).relevantTxids (spentPass last) ↔
    txid ∈ (range m).map fundingTxid
  := by
  simp only [LiveChain.relevantTxids, spentPass, dedupOrder, watching, nil_append,
    append_nil, mem_dedup, mem_append]
  constructor
  · rintro (h | h)
    · exact h
    · obtain ⟨o, ho, rfl⟩ := mem_map.mp h
      obtain ⟨_, -, rfl⟩ := mem_map.mp ho
      apply mem_map_of_mem
      apply mem_range.mpr (Nat.pos_of_ne_zero hm)
  · exact .inl

theorem length_relevantTxids (hm : m ≠ 0) :
  ((watching n m calls).relevantTxids (spentPass last)).length = m
  := by
  have hperm : ((watching n m calls).relevantTxids (spentPass last)).Perm
      ((range m).map fundingTxid) := by
    apply (perm_ext_iff_of_nodup (nodup_dedup _) _).mpr
    · intro txid
      apply mem_relevantTxids hm
    · apply nodup_range.map fundingTxid_injective
  rw [hperm.length_eq, length_map, length_range]

theorem addSpenders_eq {relevant : List Str} {js : List ℕ} (hjs : js.Nodup)
    (hnew : ∀ j ∈ js, spenderTxid j ∉ relevant) :
  (spentIndexer last).addSpenders relevant (js.map fun j => (fundingTxid 0, j))
    = relevant ++ js.map spenderTxid
  := by
  induction js generalizing relevant with
  | nil => simp [Indexer.addSpenders]
  | cons j js ih =>
    obtain ⟨hj, hjs⟩ := nodup_cons.mp hjs
    have hstep : (spentIndexer last).addSpender relevant (fundingTxid 0, j)
        = relevant ++ [spenderTxid j] := by
      simp only [Indexer.addSpender, spentIndexer]
      rw [if_neg (hnew j mem_cons_self)]
    have hrest := @ih (relevant ++ [spenderTxid j]) hjs
    simp only [Indexer.addSpenders, map_cons, foldl_cons, hstep] at hrest ⊢
    rw [hrest, append_assoc, singleton_append]
    intro k hk hmem
    rcases mem_append.mp hmem with hmem | hmem
    · apply hnew k (mem_cons_of_mem _ hk) hmem
    · obtain rfl := spenderTxid_injective (mem_singleton.mp hmem)
      apply hj hk

theorem confirmedTxs_eq_nil {i : Indexer} {txids : List Str}
    (h : ∀ txid ∈ txids, i.fetchTxStatus txid = .ok none) :
  i.confirmedTxs txids = .ok []
  := by
  induction txids with
  | nil => rfl
  | cons txid txids ih =>
    rw [Indexer.confirmedTxs, h txid mem_cons_self,
      ih fun txid' htxid' => h txid' (mem_cons_of_mem _ htxid')]
    rfl

/-- The spender of the last output is not among the transactions that are looked at. -/
theorem spenderTxid_notMem_take (hm : m ≠ 0) (hmissed : maxOutspends < n ∨ maxTxids < n + m) :
  spenderTxid (n - 1) ∉ ((spentIndexer last).addSpenders
    ((watching n m calls).relevantTxids (spentPass last))
    ((watching n m calls).watchedOutputs.take maxOutspends)).take maxTxids
  := by
  have hspender : ∀ j, spenderTxid j ∉ (watching n m calls).relevantTxids (spentPass last) := by
    intro j hj
    obtain ⟨k, -, hk⟩ := mem_map.mp ((mem_relevantTxids hm).mp hj)
    apply fundingTxid_ne_spenderTxid k j hk
  have houtputs : (watching n m calls).watchedOutputs.take maxOutspends
      = (range (min maxOutspends n)).map fun j => (fundingTxid 0, j) := by
    rw [watching, ← map_take, take_range]
  rw [houtputs, addSpenders_eq nodup_range fun j _ => hspender j, take_append,
    length_relevantTxids hm, ← map_take, take_range]
  intro hmem
  rcases mem_append.mp hmem with hmem | hmem
  · apply hspender _ (mem_of_mem_take hmem)
  · obtain ⟨j, hj, heq⟩ := mem_map.mp hmem
    obtain rfl := spenderTxid_injective heq
    rw [mem_range] at hj
    simp only [maxOutspends, maxTxids] at hj hmissed
    omega

/-- Such a pass succeeds and tells the node nothing but the tip. -/
theorem applyChainSyncToLiveLdk_watching (hm : m ≠ 0)
    (hmissed : maxOutspends < n ∨ maxTxids < n + m) :
  (spentPass (n - 1)).applyChainSyncToLiveLdk (watching n m calls)
    = ([.chainApplyBestBlock 1 []], .ok ())
  := by
  have hconfirmed : (spentIndexer (n - 1)).confirmedTxs (((spentIndexer (n - 1)).addSpenders
      ((watching n m calls).relevantTxids (spentPass (n - 1)))
      ((watching n m calls).watchedOutputs.take maxOutspends)).take maxTxids) = .ok [] := by
    apply confirmedTxs_eq_nil
    intro txid htxid
    have hne : txid ≠ spenderTxid (n - 1) := by
      rintro rfl
      apply spenderTxid_notMem_take hm hmissed htxid
    simp only [spentIndexer, if_neg hne]
  have hnonempty : (spentIndexer (n - 1)).addSpenders
      ((watching n m calls).relevantTxids (spentPass (n - 1)))
      ((watching n m calls).watchedOutputs.take maxOutspends) ≠ [] := by
    apply ne_nil_of_mem (a := fundingTxid 0)
    apply mem_addSpenders_of_mem
    apply (mem_relevantTxids hm).mpr
    apply mem_map_of_mem
    apply mem_range.mpr (Nat.pos_of_ne_zero hm)
  change (spentPass (n - 1)).applyTip (spentIndexer (n - 1)) (watching n m calls) 1 = _
  apply Calling.bind_eq_ok.mpr
  use [], (watching n m calls).relevantTxids (spentPass (n - 1)), [.chainApplyBestBlock 1 []], rfl
  constructor
  · apply Calling.bind_eq_ok.mpr
    use [], (watching n m calls).watchedOutputs, [.chainApplyBestBlock 1 []], rfl
    constructor
    · simp only
      rw [if_neg hnonempty]
      apply Calling.bind_eq_ok.mpr
      use [], [], [.chainApplyBestBlock 1 []], Calling.request_eq_ok.mpr ⟨hconfirmed, rfl⟩
      constructor
      · simp only [Pass.applyConfirmed, mergeSort_nil]
        rfl
      · rfl
    · rfl
  · rfl

theorem succeeds_watching (hm : m ≠ 0) (hmissed : maxOutspends < n ∨ maxTxids < n + m) :
  Succeeds (watching n m calls) (spentPass (n - 1))
  := by
  use rfl
  constructor
  · use 1
    simp [spentPass]
  constructor
  · rw [applyChainSyncToLiveLdk_watching hm hmissed]
  · use spentIndexer (n - 1), rfl
    intro o _
    use some (spenderTxid o.2)
    rfl

/-- However many such passes there are, nothing but the tip is told. -/
theorem run_watching (hm : m ≠ 0) (hmissed : maxOutspends < n ∨ maxTxids < n + m) (k : ℕ) :
  Run.Meets step (Smooth n m) (watching n m calls)
      (replicate k (.pass (spentPass (n - 1)))) ∧
    (Run.run step (watching n m calls) (replicate k (.pass (spentPass (n - 1))))).calls
      = calls ++ replicate k (.chainApplyBestBlock 1 [])
  := by
  induction k generalizing calls with
  | zero =>
    constructor
    · trivial
    · simp [Run.run, watching]
  | succ k ih =>
    have hstep : step (watching n m calls) (.pass (spentPass (n - 1)))
        = watching n m (calls ++ [.chainApplyBestBlock 1 []]) := by
      simp only [step, applyChainSyncToLiveLdk_watching hm hmissed]
      rfl
    obtain ⟨hmeets, hcalls⟩ := @ih (calls ++ [.chainApplyBestBlock 1 []])
    rw [replicate_succ, Run.Meets, Run.run_cons, hstep, hcalls]
    constructor
    · use ⟨succeeds_watching hm hmissed, by simp [watching], (length_relevantTxids hm).le⟩
    · rw [append_assoc, singleton_append, ← replicate_succ]

theorem passes_replicate (p : Pass) (k : ℕ) :
  passes (replicate k (.pass p)) = replicate k p
  := by
  simp [passes]

/-- The spender of the last output is reported throughout and never handed over. -/
theorem not_handedOver_watching (hm : m ≠ 0) (hmissed : maxOutspends < n ∨ maxTxids < n + m)
    (k : ℕ) (p : Pass) (txid : Str) :
  ¬ HandedOver p txid (Run.run step (watching n m [])
    (replicate k (.pass (spentPass (n - 1))))).calls
  := by
  rintro ⟨i, -, txHex, -, height, headerHex, txIndex, hmem⟩
  rw [(run_watching hm hmissed k).2, nil_append] at hmem
  cases eq_of_mem_replicate hmem

theorem reports_spentPass (n : ℕ) :
  Reports (spentPass n) (fundingTxid 0, n) (spenderTxid n)
  := by
  use spentIndexer n, rfl, rfl, (1, [])
  simp [spentIndexer]

end Missed

/-- There is a number of passes after which all spenders were handed over if and only if
nothing is watched, or at most 64 outputs are, and they are at most 128 together with the
relevant transactions. -/
theorem spenders_covered_iff (n m : ℕ) :
  SpendersCovered n m ↔ n = 0 ∨ m = 0 ∨ (n ≤ 64 ∧ n + m ≤ 128)
  := by
  constructor
  · rintro ⟨k, hk⟩
    by_contra hcon
    have hn : n ≠ 0 := fun h => hcon (.inl h)
    have hm : m ≠ 0 := fun h => hcon (.inr (.inl h))
    have hmissed : maxOutspends < n ∨ maxTxids < n + m := by
      simp only [maxOutspends, maxTxids]
      omega
    obtain ⟨p, -, hp⟩ := hk (watching n m []) (replicate k (.pass (spentPass (n - 1)))) rfl
      (by rw [passes_replicate, length_replicate]) (run_watching hm hmissed k).1
      (fundingTxid 0, n - 1)
      (mem_map.mpr ⟨n - 1, mem_range.mpr (by omega), rfl⟩) (spenderTxid (n - 1))
      (by
        intro p hp
        rw [passes_replicate] at hp
        rw [eq_of_mem_replicate hp]
        apply reports_spentPass)
    apply not_handedOver_watching hm hmissed k p _ hp
  · intro hbounds
    use 1
    intro s es _ hpass hes o ho txid hreport
    apply handedOver_of_meets hbounds hpass hes ho hreport

/-- With 65 outputs of one transaction, the spender of the last is reported in every pass, the
passes succeed, and it is not handed over in any of them. -/
theorem spender_never_applied :
  (fundingTxid 0, 64) ∈ (watching 65 1 []).watchedOutputs ∧
    Reports (spentPass 64) (fundingTxid 0, 64) (spenderTxid 64) ∧
    ∀ k, Run.Meets step (Smooth 65 1) (watching 65 1 [])
        (replicate k (.pass (spentPass 64))) ∧
      ¬ HandedOver (spentPass 64) (spenderTxid 64) (Run.run step (watching 65 1 [])
        (replicate k (.pass (spentPass 64)))).calls
  := by
  have hmissed : maxOutspends < 65 ∨ maxTxids < 65 + 1 := by
    decide
  use mem_map_of_mem (mem_range.mpr (by decide))
  use reports_spentPass 64
  intro k
  use (run_watching one_ne_zero hmissed k).1
  apply not_handedOver_watching one_ne_zero hmissed k

end RgbLightning.ChainApply
