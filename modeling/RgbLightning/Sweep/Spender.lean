import Mathlib.Data.Finset.Basic
import Mathlib.Data.UInt
import RgbLightning.Lib.Run
import RgbLightning.Node.Interface
import RgbLightning.Sweep.Coloring

/-!
# Sweeps of closed channels

The spender turns a list of spendable outputs into a transaction that sweeps them.  The list
may come in any order and in any batch, and an attempt may fail at every step: the
transactions that were signed are kept in memory and in one row of the store, and a
transaction that is colored but not yet signed is kept in a receipt of its own.

Every colored transaction that an attempt ever returns stays in the row, and an attempt goes
on to a new transaction only when its inputs are disjoint from all of them
(`sweeps_same_or_disjoint`).
-/

namespace RgbLightning

open List Except Option

/-! ### Receipts -/

structure PreparedRgbSweep where
  psbt : Psbt
  batchTransferIdx : ℤ
  consignments : SweepConsignments
deriving DecidableEq

/-- What happens to the read of a receipt.  It may be gone by the time it is read, and it
fails also when its bytes do not decode. -/
inductive ReceiptRead where
  | works
  | gone
  | fails
deriving DecidableEq, Repr

inductive TransferKind where
  | issuance
  | receiveBlind
  | receiveWitness
  | send
  | inflation
  | link
  | burn
deriving DecidableEq, Repr

/-- A transfer, as the wallet lists it. -/
structure Transfer where
  batchTransferIdx : ℤ
  status : TransferStatus
  kind : TransferKind
  txid : Option Txid
deriving DecidableEq

/-- What the world outside answers during an attempt.  Coloring may change the outputs of a
transaction, but not its inputs. -/
structure SweepEnv extends ColoringEnv where
  listReceipts : Except String Unit
  receiptRead : String → ReceiptRead
  spendSpendableOutputs : List TxOut → Option Transaction
  change : Option (List TxOut)
  colorPsbt : Psbt → ColoringInfo → Except String (List TxOut × ℤ × SweepConsignments)
  saveConsignments : Except String Unit
  receiptWrite : WriteFate
  computeTxid : Transaction → Txid
  listTransfers : Option String → Txid → Except String (List Transfer)
  signSpendableOutputsPsbt : Psbt → Except String Psbt
  extractTx : Except String Unit
  provideConsignment : String → Bytes → Except String Unit
  txesWrite : WriteFate

variable (env : SweepEnv)

/-- One receipt is compared with the inputs of the attempt. -/
def inspectReceipt (receipts : Table String PreparedRgbSweep) (inputs : Finset OutPoint)
    (found : Option PreparedRgbSweep × Bool) (key : String) :
    Except String (Option PreparedRgbSweep × Bool) :=
  match env.receiptRead key with
  | .fails => .ok (found.1, true)
  | .gone => .ok found
  | .works =>
    match receipts.lookup key with
    | none => .ok found
    | some sweep =>
      let saved := sweep.psbt.unsignedTx.spent.toFinset
      if Disjoint saved inputs then .ok found
      else if saved ≠ inputs ∨ found.1.isSome then
        .error ("inputs overlap another prepared RGB sweep " ++ key)
      else .ok (some sweep, found.2)

def findPreparedSweep (receipts : Table String PreparedRgbSweep) (inputs : Finset OutPoint) :
    Except String (Option PreparedRgbSweep) :=
  match env.listReceipts with
  | .error e => .error e
  | .ok () =>
    match receipts.keys.foldlM (inspectReceipt env receipts inputs) (none, false) with
    | .error e => .error e
    | .ok (none, true) =>
      .error "repair unreadable RGB sweep receipts before preparing a new sweep"
    | .ok (matching, _) => .ok matching

/-- What the world outside answers while receipts are reconciled. -/
structure ReconcileEnv where
  listReceipts : ReadFate
  receiptRead : String → ReceiptRead
  isConfirmed : PreparedRgbSweep → Except String Bool
  consume : ℤ → Except String Unit
  receiptRemove : String → WriteFate

/-- A receipt is removed once its transaction is confirmed and its transfer consumed. -/
def reconcileReceipt (env : ReconcileEnv) (receipts : Table String PreparedRgbSweep)
    (key : String) : Table String PreparedRgbSweep :=
  match env.receiptRead key, receipts.lookup key with
  | .works, some sweep =>
    match env.isConfirmed sweep, env.consume sweep.batchTransferIdx with
    | .ok true, .ok () =>
      match env.receiptRemove key with
      | .works | .failsAfterStoring => receipts.erase key
      | .fails => receipts
    | _, _ => receipts
  | _, _ => receipts

def reconcilePreparedSweeps (env : ReconcileEnv) (receipts : Table String PreparedRgbSweep) :
    Table String PreparedRgbSweep :=
  match env.listReceipts with
  | .fails => receipts
  | .works => receipts.keys.foldl (reconcileReceipt env) receipts

/-! ### Attempts -/

/-- The state of the spender.  It remembers the colored transactions that were returned. -/
structure Spender where
  txes : Table UInt64 Transaction
  txesRow : Table UInt64 Transaction
  receipts : Table String PreparedRgbSweep
  recipients : SweepRecipients
  returned : List Transaction

def Spender.start : Spender := ⟨∅, ∅, ∅, ∅, []⟩

inductive Spend where
  | colored (tx : Transaction)
  | vanilla (tx : Transaction)
deriving DecidableEq

/-- An error unless the condition holds. -/
def ensure (p : Prop) [Decidable p] (e : String) : Except String Unit :=
  if p then .ok () else .error e

/-- The transfer of a prepared sweep is still to be completed, or complete. -/
def PreparedRgbSweep.BatchIsActive (prepared : PreparedRgbSweep) (transfers : List Transfer) :
    Prop :=
  ∃ transfer ∈ transfers, transfer.batchTransferIdx = prepared.batchTransferIdx ∧
    transfer.status ∈ [.initiated, .waitingConfirmations, .settled]
deriving Decidable

/-- The wallet has accepted the consignment of a transaction. -/
def Received (txid : Txid) (transfers : List Transfer) : Prop :=
  ∃ transfer ∈ transfers, transfer.txid = some txid ∧ transfer.kind = .receiveWitness ∧
    transfer.status ≠ .failed ∧ transfer.status ≠ .waitingCounterparty
deriving Decidable

/-- The signed transaction: each input gets its final script and witness. -/
def Psbt.extractTx (psbt : Psbt) : Transaction where
  input := psbt.unsignedTx.input.mapIdx fun i txin =>
    { txin with
      scriptSig := (psbt.finalScripts.getD i ([], [])).1
      witness := (psbt.finalScripts.getD i ([], [])).2 }
  output := psbt.unsignedTx.output

/-- A consignment is given to the wallet unless the wallet has accepted it already. -/
def handConsignment (txid : Txid) (consignment : String × Bytes) :
    Except String Unit :=
  match env.listTransfers (some consignment.1) txid with
  | .error e => .error ("cannot inspect sweep receive: " ++ e)
  | .ok transfers =>
    if Received txid transfers then .ok ()
    else env.provideConsignment consignment.1 consignment.2

/-- The signed transaction of a prepared sweep, with its consignments handed over. -/
def signPreparedRgbSweep (prepared : PreparedRgbSweep) :
    Except String Transaction := do
  let unsignedTx := prepared.psbt.unsignedTx
  let transfers ← (env.listTransfers none (env.computeTxid unsignedTx)).mapError
    ("cannot inspect prepared sweep: " ++ ·)
  ensure (prepared.BatchIsActive transfers)
    "prepared RGB sweep batch is missing or no longer active"
  let psbt ← (env.signSpendableOutputsPsbt prepared.psbt).mapError
    ("cannot sign the sweep PSBT: " ++ ·)
  ensure (psbt.unsignedTx = unsignedTx) "signer changed the prepared RGB sweep transaction"
  env.extractTx
  let spendingTx := psbt.extractTx
  ensure (env.computeTxid spendingTx = env.computeTxid unsignedTx)
    "signing changed the prepared RGB sweep transaction ID"
  prepared.consignments.forM (handConsignment env (env.computeTxid spendingTx))
  pure spendingTx

def finishPreparedRgbSweep (descriptorsHash : UInt64) (prepared : PreparedRgbSweep) (s : Spender) :
    Except String Spend × Spender :=
  match signPreparedRgbSweep env prepared with
  | .error e => (.error e, s)
  | .ok spendingTx =>
    let txes := s.txes.insert descriptorsHash spendingTx
    match env.txesWrite with
    | .works =>
      (.ok (.colored spendingTx),
        { s with
          txes := txes
          txesRow := txes
          recipients := Table.retain s.recipients fun key _ => key.1 ≠ descriptorsHash })
    -- the transaction is taken back from memory, whatever the write has stored
    | .fails =>
      (.error "cannot persist output spender txes",
        { s with txes := txes.erase descriptorsHash })
    | .failsAfterStoring =>
      (.error "cannot persist output spender txes",
        { s with txes := txes.erase descriptorsHash, txesRow := txes })

/-- The signed transaction with the inputs of the attempt, if there is one. -/
def cachedSweep (inputs : Finset OutPoint) : List Transaction →
    Except String (Option Transaction)
  | [] => .ok none
  | tx :: txes =>
    if tx.spent.toFinset = inputs then .ok (some tx)
    else if Disjoint tx.spent.toFinset inputs then cachedSweep inputs txes
    else .error "inputs overlap a previously signed sweep"

def prepareRgbSweep (descriptors : List SpendableOutputDescriptor) (c : Coloring) :
    Except String PreparedRgbSweep := do
  let psbt ← createSpendableOutputsPsbt descriptors c.txouts env.change
  let (output, batchTransferIdx, consignments) ← (env.colorPsbt psbt c.coloringInfo).mapError
    ("cannot color the sweep PSBT: " ++ ·)
  env.saveConsignments
  pure ⟨{ psbt with unsignedTx := { psbt.unsignedTx with output := output } },
    batchTransferIdx, consignments⟩

/-- An attempt to which no transaction and no receipt belongs yet. -/
def spendNewSweep (descriptorsHash : UInt64) (descriptors : List SpendableOutputDescriptor)
    (outputs : List TxOut) (s : Spender) :
    Except String Spend × Spender :=
  match Coloring.build env.toColoringEnv descriptorsHash s.recipients outputs descriptors with
  | .error (e, recipients) => (.error e, { s with recipients := recipients })
  | .ok c =>
    let s := { s with recipients := c.recipients }
    if c.vanillaDescriptor then
      match env.spendSpendableOutputs c.txouts with
      | none => (.error "cannot spend vanilla spendable outputs", s)
      | some tx => (.ok (.vanilla tx), s)
    else
      match prepareRgbSweep env descriptors c with
      | .error e => (.error e, s)
      | .ok prepared =>
        let key := toString descriptorsHash
        let stored := { s with receipts := s.receipts.insert key prepared }
        match env.receiptWrite with
        | .works => finishPreparedRgbSweep env descriptorsHash prepared stored
        | .fails => (.error ("cannot persist prepared RGB sweep " ++ key), s)
        | .failsAfterStoring =>
          (.error ("cannot persist prepared RGB sweep " ++ key), stored)

def trySpendSpendableOutputs (descriptorsHash : UInt64)
    (descriptors : List SpendableOutputDescriptor) (outputs : List TxOut) (s : Spender) :
    Except String Spend × Spender :=
  match s.txes.lookup descriptorsHash with
  | some tx => (.ok (.colored tx), s)
  | none =>
    let inputs := (descriptors.map (·.outpoint)).toFinset
    match cachedSweep inputs (s.txes.entries.map (·.2)) with
    | .error e => (.error e, s)
    | .ok (some tx) => (.ok (.colored tx), s)
    | .ok none =>
      match findPreparedSweep env s.receipts inputs with
      | .error e => (.error e, s)
      | .ok (some prepared) => finishPreparedRgbSweep env descriptorsHash prepared s
      | .ok none => spendNewSweep env descriptorsHash descriptors outputs s

/-! ### Runs -/

/-- What happens to the spender.  An attempt that is cut off by a crash is one that fails
there, followed by a restart. -/
inductive SweepEvent where
  | attempt (env : SweepEnv) (descriptors : List SpendableOutputDescriptor)
      (outputs : List TxOut)
  | reconcile (env : ReconcileEnv)
  | restart

/-- The colored transaction that an attempt returned is remembered. -/
def Spender.record (s : Spender) : Except String Spend → Spender
  | .ok (.colored tx) => { s with returned := tx :: s.returned }
  | _ => s

/-- A step of the spender, where `hash` is the hash of a list of descriptors. -/
def Spender.step (hash : List SpendableOutputDescriptor → UInt64) (s : Spender) :
    SweepEvent → Spender
  | .attempt env descriptors outputs =>
    let (result, s') := trySpendSpendableOutputs env (hash descriptors) descriptors outputs s
    s'.record result
  | .reconcile env => { s with receipts := reconcilePreparedSweeps env s.receipts }
  | .restart => { s with txes := s.txesRow, recipients := ∅ }

/-! ### What an attempt can do -/

theorem spent_extractTx (psbt : Psbt) :
  psbt.extractTx.spent = psbt.unsignedTx.spent
  := by
  apply ext_getElem
  · simp [Transaction.spent, Psbt.extractTx]
  · intro i _ _
    simp [Transaction.spent, Psbt.extractTx]

theorem ensure_eq_ok {p : Prop} [Decidable p] {e : String} {u : Unit} (h : ensure p e = .ok u) :
  p
  := by
  unfold ensure at h
  split_ifs at h with hp
  exact hp

variable {env : SweepEnv} {prepared : PreparedRgbSweep} {tx : Transaction}

theorem spent_of_signPreparedRgbSweep_eq_ok (h : signPreparedRgbSweep env prepared = .ok tx) :
  tx.spent = prepared.psbt.unsignedTx.spent
  := by
  unfold signPreparedRgbSweep at h
  obtain ⟨transfers, -, h⟩ := bind_eq_ok.mp h
  obtain ⟨_, -, h⟩ := bind_eq_ok.mp h
  obtain ⟨psbt, -, h⟩ := bind_eq_ok.mp h
  obtain ⟨_, hunsigned, h⟩ := bind_eq_ok.mp h
  obtain ⟨_, -, h⟩ := bind_eq_ok.mp h
  obtain ⟨_, -, h⟩ := bind_eq_ok.mp h
  obtain ⟨_, -, h⟩ := bind_eq_ok.mp h
  obtain rfl : psbt.extractTx = tx := ok.inj h
  rw [spent_extractTx, ensure_eq_ok hunsigned]

variable {descriptors : List SpendableOutputDescriptor}

theorem spent_of_prepareRgbSweep_eq_ok {c : Coloring}
    (h : prepareRgbSweep env descriptors c = .ok prepared) :
  prepared.psbt.unsignedTx.spent = descriptors.map (·.outpoint)
  := by
  unfold prepareRgbSweep at h
  obtain ⟨psbt, hpsbt, h⟩ := bind_eq_ok.mp h
  obtain ⟨⟨output, batchTransferIdx, consignments⟩, -, h⟩ := bind_eq_ok.mp h
  obtain ⟨_, -, h⟩ := bind_eq_ok.mp h
  obtain rfl := ok.inj h
  exact (output_of_createSpendableOutputsPsbt_eq_ok hpsbt).1

variable {inputs : Finset OutPoint}

/-- A receipt that is found has the inputs of the attempt. -/
theorem spent_of_findPreparedSweep_eq_ok {receipts : Table String PreparedRgbSweep}
    (h : findPreparedSweep env receipts inputs = .ok (some prepared)) :
  prepared.psbt.unsignedTx.spent.toFinset = inputs
  := by
  have hloop : ∀ found, receipts.keys.foldlM (inspectReceipt env receipts inputs) (none, false)
      = .ok found → ∀ sweep, found.1 = some sweep →
      sweep.psbt.unsignedTx.spent.toFinset = inputs := by
    intro found hfound
    apply foldlM_induction (I := fun _ found => ∀ sweep, found.1 = some sweep →
      sweep.psbt.unsignedTx.spent.toFinset = inputs) _ _ hfound
    · intro _ key found found' hinv hstep sweep hsweep
      unfold inspectReceipt at hstep
      cases hread : env.receiptRead key with
      | fails =>
        rw [hread] at hstep
        obtain rfl := ok.inj hstep
        exact hinv sweep hsweep
      | gone =>
        rw [hread] at hstep
        obtain rfl := ok.inj hstep
        exact hinv sweep hsweep
      | works =>
        rw [hread] at hstep
        dsimp only at hstep
        cases hlookup : receipts.lookup key with
        | none =>
          rw [hlookup] at hstep
          obtain rfl := ok.inj hstep
          exact hinv sweep hsweep
        | some sweep' =>
          rw [hlookup] at hstep
          dsimp only at hstep
          split_ifs at hstep with hdisjoint hoverlap
          · obtain rfl := ok.inj hstep
            exact hinv sweep hsweep
          · obtain rfl := ok.inj hstep
            obtain rfl : sweep' = sweep := some.inj hsweep
            by_contra hne
            exact hoverlap (.inl hne)
    · intro sweep hsweep
      cases hsweep
  unfold findPreparedSweep at h
  cases hlist : env.listReceipts with
  | error e =>
    rw [hlist] at h
    cases h
  | ok _ =>
    rw [hlist] at h
    dsimp only at h
    generalize hfold : receipts.keys.foldlM (inspectReceipt env receipts inputs) (none, false)
      = result at h
    obtain e | ⟨_ | sweep, unreadable⟩ := result
    · cases h
    · cases unreadable <;> cases h
    · obtain rfl : sweep = prepared := by
        cases unreadable <;> exact some.inj (ok.inj h)
      exact hloop _ hfold sweep rfl

theorem mem_of_cachedSweep_eq_ok {txes : List Transaction}
    (h : cachedSweep inputs txes = .ok (some tx)) :
  tx ∈ txes
  := by
  induction txes with
  | nil => cases h
  | cons tx' txes ih =>
    unfold cachedSweep at h
    split_ifs at h with heq hdisjoint
    · obtain rfl : tx' = tx := some.inj (ok.inj h)
      exact mem_cons_self
    · exact mem_cons_of_mem _ (ih h)

/-- Where none is found, all of those searched spend other inputs. -/
theorem disjoint_of_cachedSweep_eq_ok {txes : List Transaction}
    (h : cachedSweep inputs txes = .ok none) :
  ∀ tx ∈ txes, Disjoint tx.spent.toFinset inputs
  := by
  induction txes with
  | nil => simp
  | cons tx' txes ih =>
    unfold cachedSweep at h
    split_ifs at h with heq hdisjoint
    · cases h
    · intro tx hmem
      obtain rfl | hmem := mem_cons.mp hmem
      · exact hdisjoint
      · exact ih h tx hmem

/-- What an attempt does to the transactions: it returns one that was signed before, it
leaves them as they are, it signs one whose inputs no signed transaction spends, or it
fails to save such a one. -/
inductive Spends (s : Spender) : Except String Spend → Spender → Prop
  | cached (descriptorsHash : UInt64) (tx : Transaction)
      (h : s.txes.lookup descriptorsHash = some tx) : Spends s (.ok (.colored tx)) s
  | untouched (result : Except String Spend) (s' : Spender)
      (hresult : ∀ tx, result ≠ .ok (.colored tx)) (htxes : s'.txes = s.txes)
      (hrow : s'.txesRow = s.txesRow) (hreturned : s'.returned = s.returned) :
      Spends s result s'
  | signed (descriptorsHash : UInt64) (tx : Transaction) (s' : Spender)
      (hfree : ∀ h tx', s.txes.lookup h = some tx' →
        Disjoint tx'.spent.toFinset tx.spent.toFinset)
      (htxes : s'.txes = s.txes.insert descriptorsHash tx)
      (hnew : s.txes.lookup descriptorsHash = none)
      (hrow : s'.txesRow = s'.txes) (hreturned : s'.returned = s.returned) :
      Spends s (.ok (.colored tx)) s'
  | unsaved (descriptorsHash : UInt64) (tx : Transaction) (e : String) (s' : Spender)
      (hfree : ∀ h tx', s.txes.lookup h = some tx' →
        Disjoint tx'.spent.toFinset tx.spent.toFinset)
      (htxes : s'.txes = (s.txes.insert descriptorsHash tx).erase descriptorsHash)
      (hnew : s.txes.lookup descriptorsHash = none)
      (hrow : s'.txesRow = s.txesRow ∨ s'.txesRow = s.txes.insert descriptorsHash tx)
      (hreturned : s'.returned = s.returned) :
      Spends s (.error e) s'

variable {s : Spender}

theorem Spends.of_error {s' : Spender} {e : String} (htxes : s'.txes = s.txes)
    (hrow : s'.txesRow = s.txesRow) (hreturned : s'.returned = s.returned) :
  Spends s (.error e) s'
  := .untouched _ _ (fun _ h => by cases h) htxes hrow hreturned

variable {descriptorsHash : UInt64}

theorem spends_finishPreparedRgbSweep {t : Spender} (hnew : s.txes.lookup descriptorsHash = none)
    (hfree : ∀ h tx, s.txes.lookup h = some tx →
      Disjoint tx.spent.toFinset prepared.psbt.unsignedTx.spent.toFinset) (htxes : t.txes = s.txes)
    (hrow : t.txesRow = s.txesRow) (hreturned : t.returned = s.returned) :
  Spends s (finishPreparedRgbSweep env descriptorsHash prepared t).1
    (finishPreparedRgbSweep env descriptorsHash prepared t).2
  := by
  unfold finishPreparedRgbSweep
  cases hsign : signPreparedRgbSweep env prepared with
  | error e => exact .of_error htxes hrow hreturned
  | ok tx =>
    rw [← spent_of_signPreparedRgbSweep_eq_ok hsign] at hfree
    dsimp only
    rw [htxes]
    cases env.txesWrite with
    | works => exact .signed descriptorsHash tx _ hfree rfl hnew rfl hreturned
    | fails =>
      exact .unsaved descriptorsHash tx _ _ hfree rfl hnew (.inl hrow) hreturned
    | failsAfterStoring =>
      exact .unsaved descriptorsHash tx _ _ hfree rfl hnew (.inr rfl) hreturned

theorem spends_spendNewSweep {outputs : List TxOut} (hnew : s.txes.lookup descriptorsHash = none)
    (hfree : ∀ h tx, s.txes.lookup h = some tx →
      Disjoint tx.spent.toFinset (descriptors.map (·.outpoint)).toFinset) :
  Spends s (spendNewSweep env descriptorsHash descriptors outputs s).1
    (spendNewSweep env descriptorsHash descriptors outputs s).2
  := by
  unfold spendNewSweep
  cases Coloring.build env.toColoringEnv descriptorsHash s.recipients outputs descriptors with
  | error e => exact .of_error rfl rfl rfl
  | ok c =>
    dsimp only
    split_ifs with hvanilla
    · cases env.spendSpendableOutputs c.txouts with
      | none => exact .of_error rfl rfl rfl
      | some tx => exact .untouched _ _ (fun _ h => by cases h) rfl rfl rfl
    cases hprepare : prepareRgbSweep env descriptors c with
    | error e => exact .of_error rfl rfl rfl
    | ok prepared =>
      rw [← spent_of_prepareRgbSweep_eq_ok hprepare] at hfree
      dsimp only
      cases env.receiptWrite with
      | works => exact spends_finishPreparedRgbSweep hnew hfree rfl rfl rfl
      | fails => exact .of_error rfl rfl rfl
      | failsAfterStoring => exact .of_error rfl rfl rfl

variable {txes : Table UInt64 Transaction}

theorem mem_values_iff :
  tx ∈ txes.entries.map (·.2) ↔ ∃ h, txes.lookup h = some tx
  := by
  constructor
  · intro hmem
    obtain ⟨⟨h, tx'⟩, hentry, rfl⟩ := mem_map.mp hmem
    exact ⟨h, AList.mem_lookup_iff.mpr hentry⟩
  · rintro ⟨h, hlookup⟩
    exact mem_map.mpr ⟨⟨h, tx⟩, AList.mem_lookup_iff.mp hlookup, rfl⟩

theorem spends_trySpendSpendableOutputs (env : SweepEnv) (descriptorsHash : UInt64)
    (descriptors : List SpendableOutputDescriptor) (outputs : List TxOut) (s : Spender) :
  Spends s (trySpendSpendableOutputs env descriptorsHash descriptors outputs s).1
    (trySpendSpendableOutputs env descriptorsHash descriptors outputs s).2
  := by
  unfold trySpendSpendableOutputs
  cases hnew : s.txes.lookup descriptorsHash with
  | some tx => exact .cached descriptorsHash tx hnew
  | none =>
    dsimp only
    generalize hcached : cachedSweep (descriptors.map (·.outpoint)).toFinset
      (s.txes.entries.map (·.2)) = cached
    obtain e | _ | tx := cached
    · exact .of_error rfl rfl rfl
    · have hfree : ∀ h tx, s.txes.lookup h = some tx →
          Disjoint tx.spent.toFinset (descriptors.map (·.outpoint)).toFinset :=
        fun h tx hlookup => disjoint_of_cachedSweep_eq_ok hcached tx
          (mem_values_iff.mpr ⟨h, hlookup⟩)
      dsimp only
      generalize hfind : findPreparedSweep env s.receipts
        (descriptors.map (·.outpoint)).toFinset = found
      obtain e | _ | prepared := found
      · exact .of_error rfl rfl rfl
      · exact spends_spendNewSweep hnew hfree
      · rw [← spent_of_findPreparedSweep_eq_ok hfind] at hfree
        exact spends_finishPreparedRgbSweep hnew hfree rfl rfl rfl
    · obtain ⟨h, hlookup⟩ := mem_values_iff.mp (mem_of_cachedSweep_eq_ok hcached)
      exact .cached h tx hlookup

/-! ### The transactions of a run -/

/-- Two transactions that do not compete for an output. -/
def SameOrDisjoint (tx tx' : Transaction) : Prop :=
  tx = tx' ∨ Disjoint tx.spent.toFinset tx'.spent.toFinset

/-- No two transactions of a map compete for an output. -/
def NonCompeting (txes : Table UInt64 Transaction) : Prop :=
  ∀ h h' tx tx', txes.lookup h = some tx → txes.lookup h' = some tx' → SameOrDisjoint tx tx'

theorem NonCompeting.insert (hc : NonCompeting txes) (hfree : ∀ h tx', txes.lookup h = some tx' →
      Disjoint tx'.spent.toFinset tx.spent.toFinset) :
  NonCompeting (txes.insert descriptorsHash tx)
  := by
  intro h h' tx1 tx2 h1 h2
  rw [Table.lookup_insert_eq] at h1 h2
  split_ifs at h1 h2
  · exact .inl (some.inj (h1.symm.trans h2))
  · obtain rfl : tx = tx1 := some.inj h1
    exact .inr (hfree h' tx2 h2).symm
  · obtain rfl : tx = tx2 := some.inj h2
    exact .inr (hfree h tx1 h1)
  · exact hc h h' tx1 tx2 h1 h2

/-- The transactions in memory and in the row do not compete, the row holds those in
memory, and these hold every colored transaction that was returned. -/
structure Spender.Consistent (s : Spender) : Prop where
  txes : NonCompeting s.txes
  txesRow : NonCompeting s.txesRow
  stored : ∀ h tx, s.txes.lookup h = some tx → s.txesRow.lookup h = some tx
  returned : ∀ tx ∈ s.returned, ∃ h, s.txes.lookup h = some tx

theorem Spender.consistent_start :
  Spender.start.Consistent
  where
  txes _ _ _ _ h := by cases h
  txesRow _ _ _ _ h := by cases h
  stored _ _ h := by cases h
  returned _ h := by cases h

theorem lookup_insert_of_new {h : UInt64} {tx' : Transaction}
    (hnew : txes.lookup descriptorsHash = none) (hlookup : txes.lookup h = some tx') :
  (txes.insert descriptorsHash tx).lookup h = some tx'
  := by
  rw [Table.lookup_insert_eq, if_neg]
  · exact hlookup
  · rintro rfl
    rw [hnew] at hlookup
    cases hlookup

theorem lookup_erase_insert_of_new (hnew : txes.lookup descriptorsHash = none) (h : UInt64) :
  ((txes.insert descriptorsHash tx).erase descriptorsHash).lookup h = txes.lookup h
  := by
  rw [Table.lookup_erase_eq, Table.lookup_insert_eq]
  split_ifs with heq
  · rw [heq, hnew]
  · rfl

theorem Spender.Consistent.congr {s' : Spender} (hs : s.Consistent)
    (htxes : ∀ h, s'.txes.lookup h = s.txes.lookup h) (hrow : s'.txesRow = s.txesRow)
    (hreturned : s'.returned = s.returned) :
  s'.Consistent
  := by
  constructor
  · intro h h' tx tx' hl hl'
    rw [htxes] at hl hl'
    exact hs.txes h h' tx tx' hl hl'
  · rw [hrow]
    exact hs.txesRow
  · intro h tx hl
    rw [htxes] at hl
    rw [hrow]
    exact hs.stored h tx hl
  · intro tx hmem
    rw [hreturned] at hmem
    obtain ⟨h, hl⟩ := hs.returned tx hmem
    use h
    rw [htxes, hl]

theorem Spender.Consistent.record {s' : Spender} {result : Except String Spend} (hs : s.Consistent)
    (h : Spends s result s') :
  (s'.record result).Consistent
  := by
  cases h with
  | cached descriptorsHash tx hlookup =>
    refine ⟨hs.txes, hs.txesRow, hs.stored, fun tx' hmem => ?_⟩
    obtain rfl | hmem := mem_cons.mp hmem
    · exact ⟨descriptorsHash, hlookup⟩
    · exact hs.returned tx' hmem
  | untouched _ _ hresult htxes hrow hreturned =>
    have hrecord : s'.record result = s' := by
      match result, hresult with
      | .error _, _ => rfl
      | .ok (.vanilla _), _ => rfl
      | .ok (.colored tx), hresult => exact absurd rfl (hresult tx)
    rw [hrecord]
    apply hs.congr _ hrow hreturned
    intro h
    rw [htxes]
  | signed descriptorsHash tx _ hfree htxes hnew hrow hreturned =>
    have hapart : NonCompeting s'.txes := by
      rw [htxes]
      exact hs.txes.insert hfree
    refine ⟨hapart, ?_, ?_, ?_⟩
    · rw [Spender.record, hrow]
      exact hapart
    · intro h tx' hl
      rw [Spender.record, hrow]
      exact hl
    intro tx' hmem
    rw [Spender.record, htxes]
    obtain rfl | hmem := mem_cons.mp hmem
    · use descriptorsHash
      rw [Table.lookup_insert_eq, if_pos rfl]
    · rw [hreturned] at hmem
      obtain ⟨h, hl⟩ := hs.returned tx' hmem
      exact ⟨h, lookup_insert_of_new hnew hl⟩
  | unsaved descriptorsHash tx e _ hfree htxes hnew hrow hreturned =>
    change s'.Consistent
    have hlookup : ∀ h, s'.txes.lookup h = s.txes.lookup h := by
      intro h
      rw [htxes, lookup_erase_insert_of_new hnew]
    obtain hrow | hrow := hrow
    · exact hs.congr hlookup hrow hreturned
    -- the row holds the transaction that was taken back from memory
    have hback : ({ s' with txesRow := s.txesRow } : Spender).Consistent :=
      hs.congr hlookup rfl hreturned
    refine ⟨hback.txes, ?_, ?_, hback.returned⟩
    · rw [hrow]
      exact hs.txes.insert hfree
    · intro h tx' hl
      rw [hlookup] at hl
      rw [hrow]
      exact lookup_insert_of_new hnew hl

theorem Spender.Consistent.step (hs : s.Consistent)
    (hash : List SpendableOutputDescriptor → UInt64) (e : SweepEvent) :
  (s.step hash e).Consistent
  := by
  cases e with
  | attempt env descriptors outputs =>
    exact hs.record (spends_trySpendSpendableOutputs env (hash descriptors) descriptors
      outputs s)
  | reconcile env => exact ⟨hs.txes, hs.txesRow, hs.stored, hs.returned⟩
  | restart =>
    refine ⟨hs.txesRow, hs.txesRow, fun _ _ h => h, fun tx hmem => ?_⟩
    obtain ⟨h, hl⟩ := hs.returned tx hmem
    exact ⟨h, hs.stored h tx hl⟩

/-- Any two colored transactions that attempts of a run return are the same or spend
disjoint inputs. -/
theorem sweeps_same_or_disjoint (hash : List SpendableOutputDescriptor → UInt64)
    (es : List SweepEvent) {tx tx' : Transaction}
    (htx : tx ∈ (Run.run (Spender.step hash) Spender.start es).returned)
    (htx' : tx' ∈ (Run.run (Spender.step hash) Spender.start es).returned) :
  tx = tx' ∨ Disjoint tx.spent.toFinset tx'.spent.toFinset
  := by
  have hs : (Run.run (Spender.step hash) Spender.start es).Consistent :=
    Run.run_invariant (fun _ e hs _ => hs.step hash e) Spender.consistent_start
      (Run.meets_of_forall (fun _ _ => trivial) _ _)
  obtain ⟨h, hl⟩ := hs.returned tx htx
  obtain ⟨h', hl'⟩ := hs.returned tx' htx'
  exact hs.txes h h' tx tx' hl hl'

/-- Everything works. -/
def sampleSweepEnv : SweepEnv where
  toColoringEnv := sampleColoringEnv fun _ => .works
  listReceipts := .ok ()
  receiptRead _ := .works
  spendSpendableOutputs _ := none
  change := some []
  colorPsbt psbt _ := .ok (psbt.unsignedTx.output, 1, [])
  saveConsignments := .ok ()
  receiptWrite := .works
  computeTxid _ := List.Vector.replicate 32 0
  listTransfers _ _ := .ok [⟨1, .initiated, .send, none⟩]
  signSpendableOutputsPsbt psbt := .ok psbt
  extractTx := .ok ()
  provideConsignment _ _ := .ok ()
  txesWrite := .works

/-- The first output is swept when the row can be written after all, the node restarts, and
the second one is swept. -/
def sampleSweeps : List SweepEvent :=
  [.attempt { sampleSweepEnv with txesWrite := .fails } [sampleDescriptor 1] [],
    .attempt sampleSweepEnv [sampleDescriptor 1] [], .restart,
    .attempt sampleSweepEnv [sampleDescriptor 2] []]

def sampleDescriptorsHash (descriptors : List SpendableOutputDescriptor) : UInt64 :=
  (descriptors.map fun d => (d.outpoint.txid.toList.headD 0).toUInt64).sum

def sampleSweepTx (n : UInt8) : Transaction :=
  ⟨[⟨(sampleDescriptor n).outpoint, [], []⟩], [⟨546, [0, 20]⟩]⟩

theorem sweeps_same_or_disjoint_twoSweeps :
  (Run.run (Spender.step sampleDescriptorsHash) Spender.start sampleSweeps).returned
      = [sampleSweepTx 2, sampleSweepTx 1] ∧
    (sampleSweepTx 1 = sampleSweepTx 2 ∨
      Disjoint (sampleSweepTx 1).spent.toFinset (sampleSweepTx 2).spent.toFinset)
  := by
  have hreturned : (Run.run (Spender.step sampleDescriptorsHash) Spender.start
      sampleSweeps).returned = [sampleSweepTx 2, sampleSweepTx 1] := by decide +kernel
  refine ⟨hreturned, sweeps_same_or_disjoint sampleDescriptorsHash sampleSweeps ?_ ?_⟩
  · rw [hreturned]
    exact mem_cons_of_mem _ mem_cons_self
  · rw [hreturned]
    exact mem_cons_self

end RgbLightning
