import RgbLightning.Browser.LivePayments

/-!
# Invoices of the browser node

Two laws of a run of the browser node: the handler of `PaymentClaimable` claims a payment
only within the terms of the invoice that was made last for its hash (`TermsKept`), and no
invoice is made for a hash whose preimage was released (`SingleUse`).

Neither holds of every run: a refused payment lowers the amount in the record
(`terms_lowered`), and a completed payment lets its hash be used again
(`invoice_made_again`).  `terms_kept` and `invoice_made_once` say when they hold.
-/

namespace RgbLightning

open Option

/-! ### What the log says -/

/-- The amount and the expiry of the last invoice for a hash. -/
def latestTerms (paymentHash : PaymentHash) : List LiveEntry → Option (Option ℕ × ℕ)
  | [] => none
  | .minted hash amtMsat expiresAt :: log =>
    if hash = paymentHash then some (amtMsat, expiresAt) else latestTerms paymentHash log
  | _ :: log => latestTerms paymentHash log

/-- A payment that arrives in time and pays what the invoice asks for. -/
def InTerms (terms : Option ℕ × ℕ) (amountMsat now : ℕ) : Prop :=
  (∀ amtMsat ∈ terms.1, amtMsat ≤ amountMsat) ∧ now < terms.2
deriving Decidable

/-- Every call of `claim_funds` by the handler was for a payment within the terms of the
invoice. -/
def TermsKept : List LiveEntry → Prop
  | [] => True
  | .claimedByHandler _ paymentHash amountMsat now :: log =>
    (∀ terms ∈ latestTerms paymentHash log, InTerms terms amountMsat now) ∧ TermsKept log
  | .minted .. :: log => TermsKept log
  | .claimedByUser _ :: log => TermsKept log

instance decidableTermsKept : ∀ log, Decidable (TermsKept log)
  | [] => .isTrue trivial
  | .claimedByHandler _ paymentHash amountMsat now :: log =>
    have := decidableTermsKept log
    inferInstanceAs (Decidable
      ((∀ terms ∈ latestTerms paymentHash log, InTerms terms amountMsat now) ∧ TermsKept log))
  | .minted .. :: log => decidableTermsKept log
  | .claimedByUser _ :: log => decidableTermsKept log

/-- The preimages that were released through `claim_funds`. -/
def releasedPreimages : List LiveEntry → List PaymentPreimage
  | [] => []
  | .claimedByHandler preimage .. :: log => preimage :: releasedPreimages log
  | .claimedByUser preimage :: log => preimage :: releasedPreimages log
  | .minted .. :: log => releasedPreimages log

/-- No invoice was made for a hash whose preimage had been released. -/
def SingleUse (env : LiveEnv) : List LiveEntry → Prop
  | [] => True
  | .minted paymentHash .. :: log =>
    (∀ preimage ∈ releasedPreimages log, env.paymentHashOf preimage ≠ paymentHash)
      ∧ SingleUse env log
  | .claimedByHandler .. :: log => SingleUse env log
  | .claimedByUser _ :: log => SingleUse env log

instance decidableSingleUse (env : LiveEnv) : ∀ log, Decidable (SingleUse env log)
  | [] => .isTrue trivial
  | .minted paymentHash .. :: log =>
    have := decidableSingleUse env log
    inferInstanceAs (Decidable
      ((∀ preimage ∈ releasedPreimages log, env.paymentHashOf preimage ≠ paymentHash)
        ∧ SingleUse env log))
  | .claimedByHandler .. :: log => decidableSingleUse env log
  | .claimedByUser _ :: log => decidableSingleUse env log

namespace LiveNode

variable {env : LiveEnv} {s : LiveNode}

/-! ### The payments that an event changes -/

theorem record_failOverdue (now : ℕ) (key : Str) (h : PaymentHash) :
  (s.failOverdue now key).record h
    = (s.record h).map fun rec =>
        if hashHex h = key then { rec with status := .cancelled, updatedAt := now } else rec
  := by
  simp only [record, failOverdue]
  cases hkey : s.livePayments.lookup key with
  | none =>
    cases hrec : s.livePayments.lookup (hashHex h) with
    | none => simp
    | some rec =>
      have hne : hashHex h ≠ key := by
        rintro rfl
        simp [hkey] at hrec
      simp [hne]
  | some rec =>
    rw [Table.lookup_insert_eq]
    split_ifs with heq
    · rw [heq, hkey]
      rfl
    · simp

/-! ### The terms of an invoice -/

/-- A record that is still open has the terms of the last invoice, or asks for more. -/
def Fits (log : List LiveEntry) (h : PaymentHash) (rec : LivePaymentData) : Prop :=
  rec.status = .pending ∨ rec.status = .claimable → ∀ terms ∈ latestTerms h log,
    rec.expiresAt = some terms.2 ∧ ∀ amtMsat ∈ terms.1, ∃ b ∈ rec.amtMsat, amtMsat ≤ b

/-- Open records have the terms of their invoices, and all claims were within them. -/
structure Tracks (s : LiveNode) : Prop where
  records : ∀ h rec, s.record h = some rec → Fits s.log h rec
  log : TermsKept s.log

/-- The payment of an invoice arrives while its record is there and open, and the node sends
no payment with the hash of an invoice of its own. -/
def Undisturbed (s : LiveNode) : LiveEvent → Prop
  | .paymentClaimable c _ =>
    (latestTerms c.paymentHash s.log).isSome →
      ∃ rec ∈ s.record c.paymentHash, rec.status = .pending ∨ rec.status = .claimable
  | .send paymentHash .. => latestTerms paymentHash s.log = none
  | _ => True

instance (s : LiveNode) : ∀ e, Decidable (Undisturbed s e)
  | .paymentClaimable c _ => inferInstanceAs (Decidable (_ → ∃ rec ∈ s.record c.paymentHash, _))
  | .send .. => inferInstanceAs (Decidable (_ = _))
  | .createBolt11Invoice .. | .createHodlBolt11Invoice .. | .requestInvoice ..
  | .paymentClaimed .. | .paymentSent .. | .paymentFailed .. | .claimHodlInvoice ..
  | .cancelHodlInvoice .. | .bestBlock .. | .reload => .isTrue trivial

variable {h : PaymentHash} {rec : LivePaymentData}

theorem fits_of_ended {log : List LiveEntry} (hpending : rec.status ≠ .pending)
    (hclaimable : rec.status ≠ .claimable) :
  Fits log h rec
  := by
  rintro (h | h)
  · exact absurd h hpending
  · exact absurd h hclaimable

variable {s' : LiveNode} {key : Str}

theorem Tracks.insert (hs : Tracks s) (hlive : s'.livePayments = s.livePayments.insert key rec)
    (hlog : s'.log = s.log) (hrec : ∀ h, hashHex h = key → Fits s.log h rec) :
  Tracks s'
  := by
  constructor
  · intro h' rec' hrec'
    rw [record, hlive, Table.lookup_insert_eq] at hrec'
    rw [hlog]
    split_ifs at hrec' with heq
    · rw [← some.inj hrec']
      apply hrec h' heq
    · apply hs.records h' rec' hrec'
  · rw [hlog]
    apply hs.log

/-- So may one whose payment has ended. -/
theorem Tracks.ended (hs : Tracks s) (hlive : s'.livePayments = s.livePayments.insert key rec)
    (hlog : s'.log = s.log) (hpending : rec.status ≠ .pending)
    (hclaimable : rec.status ≠ .claimable) :
  Tracks s'
  := hs.insert hlive hlog fun _ _ => fits_of_ended hpending hclaimable

variable {now : ℕ}

theorem Tracks.mint (hs : Tracks s) {amtMsat : Option ℕ} {expirySec : ℕ}
    {contractId : Option ContractId} {assetAmount : Option ℕ} (hlive : s'.livePayments
      = (s.mint env h amtMsat expirySec contractId assetAmount now).livePayments)
    (hlog : s'.log = (s.mint env h amtMsat expirySec contractId assetAmount now).log) :
  Tracks s'
  := by
  constructor
  · intro h' rec' hrec'
    rw [record, hlive, LiveNode.mint, lookup_insert_hashHex] at hrec'
    rw [hlog, LiveNode.mint]
    split_ifs at hrec' with heq
    · intro _ terms hterms
      rw [latestTerms, if_pos heq.symm, mem_some] at hterms
      rw [← some.inj hrec', ← hterms]
      exact ⟨rfl, fun a ha => ⟨a, ha, le_rfl⟩⟩
    · intro hopen terms hterms
      rw [latestTerms, if_neg (Ne.symm heq)] at hterms
      apply hs.records h' rec' hrec' hopen terms hterms
  · rw [hlog]
    apply hs.log

variable {c : LiveClaimable}

section Tracks

variable (hs : Tracks s)
include hs

/-- An entry of the log that is no invoice leaves the terms alone. -/
theorem Tracks.claim {p : PaymentPreimage}
    (hterms : ∀ terms ∈ latestTerms c.paymentHash s.log, InTerms terms c.amountMsat now) :
  Tracks (s.claimFunds p c now)
  := ⟨hs.records, hterms, hs.log⟩

theorem Tracks.failOverdue (now : ℕ) (key : Str) :
  Tracks (s.failOverdue now key)
  := by
  constructor
  · intro h rec hrec
    rw [record_failOverdue, map_eq_some_iff] at hrec
    obtain ⟨rec0, hrec0, rfl⟩ := hrec
    split_ifs
    · exact fits_of_ended (by simp) (by simp)
    · apply hs.records h rec0 hrec0
  · apply hs.log

/-- A payment for an invoice that is not refused is within its terms, and its record keeps
the expiry. -/
theorem inTerms_of_accepted (h : Undisturbed s (.paymentClaimable c now))
    (haccepted : (s.expired c now || s.underpaid c) = false) {terms : Option ℕ × ℕ}
    (hterms : terms ∈ latestTerms c.paymentHash s.log) :
  InTerms terms c.amountMsat now
    ∧ ∃ rec, s.record c.paymentHash = some rec ∧ rec.expiresAt = some terms.2
  := by
  obtain ⟨rec, hrec, hopen⟩ := h (isSome_iff_exists.mpr ⟨terms, hterms⟩)
  obtain ⟨hexpires, hamt⟩ := hs.records _ rec hrec hopen terms hterms
  have hlookup : s.livePayments.lookup (hashHex c.paymentHash) = some rec := hrec
  simp only [expired, underpaid, hlookup, any_some, hexpires, Bool.or_eq_false_iff,
    decide_eq_false_iff_not, not_le] at haccepted
  refine ⟨⟨fun a ha => ?_, haccepted.1⟩, rec, hrec, hexpires⟩
  obtain ⟨b, hb, hab⟩ := hamt a ha
  rw [mem_def] at hb
  rw [hb, any_some, decide_eq_false_iff_not, not_lt] at haccepted
  apply hab.trans haccepted.2

/-- The amount of a payment within the terms may be written into the record. -/
theorem Tracks.upsert {amountMsat : ℕ}
    (hterms : ∀ terms ∈ latestTerms h s.log, InTerms terms amountMsat now
      ∧ ∃ rec, s.record h = some rec ∧ rec.expiresAt = some terms.2) (status : LivePaymentStatus) :
  Tracks (s.upsertInboundLivePayment (hashHex h) status amountMsat now)
  := by
  refine hs.insert rfl rfl fun h' heq _ terms hmem => ?_
  rw [hashHex_injective heq] at hmem
  obtain ⟨hin, rec, hrec, hexpires⟩ := hterms terms hmem
  have hlookup : s.livePayments.lookup (hashHex h) = some rec := hrec
  simp only [hlookup, getD_some]
  exact ⟨hexpires, fun a ha => ⟨amountMsat, rfl, hin.1 a ha⟩⟩

theorem Tracks.beside (h : Beside key s s') :
  Tracks s'
  := by
  constructor
  · intro hash rec hrec
    rw [record, h.livePayments] at hrec
    rw [h.log]
    apply hs.records hash rec hrec
  · rw [h.log]
    apply hs.log

theorem Tracks.paymentClaimable (h : Undisturbed s (.paymentClaimable c now)) :
  Tracks (s.paymentClaimable c now)
  := by
  obtain ⟨_, heq⟩ | ⟨haccepted, hcases⟩ := paymentClaimable_cases s c now
  · rw [heq]
    exact hs.ended rfl rfl (by simp) (by simp)
  obtain heq | ⟨s', hs', hcases⟩ := hcases
  · rw [heq]
    apply hs
  have hterms : ∀ terms ∈ latestTerms c.paymentHash s'.log,
      InTerms terms c.amountMsat now
        ∧ ∃ rec, s'.record c.paymentHash = some rec ∧ rec.expiresAt = some terms.2 := by
    intro terms hmem
    rw [hs'.log] at hmem
    rw [record, hs'.livePayments]
    apply inTerms_of_accepted hs h haccepted hmem
  obtain ⟨preimage, _, heq⟩ | heq := hcases
  · rw [heq]
    have hclaim : Tracks (s'.claimFunds preimage c now) :=
      (hs.beside hs').claim fun terms hmem => (hterms terms hmem).1
    apply hclaim.upsert hterms
  · rw [heq]
    apply (hs.beside hs').upsert hterms

theorem Tracks.step {e : LiveEvent} (h : Undisturbed s e) :
  Tracks (s.step env e)
  := by
  cases e with
  | createBolt11Invoice request created persists now =>
    rw [LiveNode.step]
    obtain heq | ⟨hash, contractId, _, heq⟩ :=
      createBolt11InvoiceLive_cases env s request created persists now
    · rw [heq]
      apply hs
    · rw [heq]
      exact hs.mint rfl rfl
  | createHodlBolt11Invoice request paymentHash created persists now =>
    rw [LiveNode.step]
    obtain heq | ⟨hash, contractId, _, heq⟩ :=
      createHodlBolt11InvoiceLive_cases env s request paymentHash created persists now
    · rw [heq]
      apply hs
    · rw [heq]
      exact hs.mint rfl rfl
  | requestInvoice params created now =>
    rw [LiveNode.step]
    obtain heq | ⟨preimage, amtMsat, expirySec, contractId, assetAmount, _, heq⟩ :=
      processOneRequestInvoice_cases env s params created now
    · rw [heq]
      apply hs
    · rw [heq]
      exact hs.mint rfl rfl
  | paymentClaimable c now => apply hs.paymentClaimable h
  | paymentClaimed paymentHash amountMsat now => exact hs.ended rfl rfl (by simp) (by simp)
  | paymentSent paymentHash preimage now => exact hs.ended rfl rfl (by simp) (by simp)
  | paymentFailed paymentHash now => exact hs.ended rfl rfl (by simp) (by simp)
  | claimHodlInvoice paymentHash paymentPreimage now =>
    rw [LiveNode.step]
    obtain heq | ⟨preimage, _, _, heq⟩ :=
      claimHodlInvoiceLive_cases env s paymentHash paymentPreimage now
    · rw [heq]
      apply hs
    · have hlog : Tracks { s with log := .claimedByUser preimage :: s.log } :=
        ⟨hs.records, hs.log⟩
      rw [heq]
      exact hlog.ended rfl rfl (by simp) (by simp)
  | cancelHodlInvoice paymentHash now =>
    rw [LiveNode.step]
    obtain heq | ⟨hash, _, heq⟩ := cancelHodlInvoiceLive_cases s paymentHash now
    · rw [heq]
      apply hs
    · rw [heq]
      exact hs.ended rfl rfl (by simp) (by simp)
  | bestBlock height now =>
    rw [LiveNode.step, chainApplyBestBlock]
    apply List.foldlRecOn _ _ hs
    intro s' hs' key _
    apply hs'.failOverdue
  | send paymentHash amtMsat assetId assetAmount now =>
    refine hs.insert rfl rfl fun h' heq _ terms hterms => ?_
    rw [hashHex_injective heq, show latestTerms paymentHash s.log = none from h] at hterms
    simp at hterms
  | reload =>
    constructor
    · intro h rec hrec
      simp [LiveNode.step, record] at hrec
    · apply hs.log

end Tracks

/-- The handler claims payments only within the terms of their invoices, as long as they
arrive while the records of the invoices are there and open. -/
theorem terms_kept (env : LiveEnv) (es : List LiveEvent)
    (h : Run.Meets (LiveNode.step env) Undisturbed {} es) :
  TermsKept (Run.run (LiveNode.step env) {} es).log
  := by
  have hstart : Tracks {} := ⟨fun h rec hrec => by simp [record] at hrec, trivial⟩
  have hend := Run.run_invariant (I := Tracks) (fun s e hs he => hs.step he) hstart h
  apply hend.log

/-- SHA-256 and the seed are stood in for by simple functions. -/
def sampleLiveEnv : LiveEnv where
  paymentHashOf preimage := preimage
  contractIdFromStr _ := none
  contractIdToStr _ := []
  preimageRoot := .ok fun hashIndex => .ok (List.Vector.replicate 32 (UInt8.ofNat hashIndex))

def samplePaymentHash : PaymentHash := List.Vector.replicate 32 7

/-- An invoice for 1000 msat that expires at time 3700. -/
def sampleLiveInvoice : LiveEvent :=
  .createBolt11Invoice ⟨some 1000, 3600, none, none⟩ (some samplePaymentHash) true 100

/-- A payment of the invoice. -/
def sampleLivePayment (amountMsat now : ℕ) : LiveEvent :=
  .paymentClaimable
    { paymentHash := samplePaymentHash
      purpose := .bolt11InvoicePayment (some samplePaymentHash) (List.Vector.replicate 32 0)
      amountMsat
      claimDeadline := none } now

theorem terms_kept_paid :
  TermsKept (Run.run (LiveNode.step sampleLiveEnv) {}
    [sampleLiveInvoice, sampleLivePayment 1000 200, sampleLivePayment 1 300]).log
  := terms_kept sampleLiveEnv _ (by decide +kernel)

/-- A payment of 1 msat is refused, but then the record says that 1 msat is expected, and
the next one is claimed.  After a reload there is no record, and whatever arrives is claimed,
also after the invoice has expired. -/
theorem terms_lowered :
  ¬ TermsKept (Run.run (LiveNode.step sampleLiveEnv) {}
      [sampleLiveInvoice, sampleLivePayment 1 200, sampleLivePayment 1 300]).log
    ∧ ¬ TermsKept (Run.run (LiveNode.step sampleLiveEnv) {}
      [sampleLiveInvoice, .reload, sampleLivePayment 1 200]).log
    ∧ ¬ TermsKept (Run.run (LiveNode.step sampleLiveEnv) {}
      [sampleLiveInvoice, .reload, sampleLivePayment 1000 3700]).log
  := by
  decide +kernel

/-! ### Invoices that are made once -/

def Released (env : LiveEnv) (s : LiveNode) (h : PaymentHash) : Prop :=
  ∃ preimage ∈ releasedPreimages s.log, env.paymentHashOf preimage = h
deriving Decidable

/-- A payment that has not ended. -/
def Ongoing (s : LiveNode) (h : PaymentHash) : Prop :=
  ∃ rec ∈ s.record h, rec.status ∈ [LivePaymentStatus.pending, .claimable, .claiming]

/-- LDK hands over preimages of the payment hash and makes an invoice for a new hash, and
nothing ends a payment whose preimage was released: no report on it, no refusal, no
cancellation, no deadline and no reload. -/
def Unended (env : LiveEnv) (s : LiveNode) : LiveEvent → Prop
  | .createBolt11Invoice _ created _ _ => ∀ h ∈ created, ¬ Released env s h
  | .paymentClaimable c now =>
    (∀ preimage ∈ (purposePreimage c.purpose).1, env.paymentHashOf preimage = c.paymentHash)
      ∧ (Released env s c.paymentHash → (s.expired c now || s.underpaid c) = false)
  | .paymentClaimed h _ _ => ¬ Released env s h
  | .paymentSent h _ _ => ¬ Released env s h
  | .paymentFailed h _ => ¬ Released env s h
  | .cancelHodlInvoice paymentHash _ => ∀ h ∈ hexDecode32 paymentHash, ¬ Released env s h
  | .bestBlock height _ => ∀ preimage ∈ releasedPreimages s.log,
      hashHex (env.paymentHashOf preimage) ∉ s.overdue height
  | .reload => releasedPreimages s.log = []
  | _ => True

instance (env : LiveEnv) (s : LiveNode) : ∀ e, Decidable (Unended env s e)
  | .createBolt11Invoice _ created _ _ => inferInstanceAs (Decidable (∀ h ∈ created, _))
  | .paymentClaimable c now => inferInstanceAs (Decidable
      ((∀ preimage ∈ (purposePreimage c.purpose).1, env.paymentHashOf preimage = c.paymentHash)
        ∧ (Released env s c.paymentHash → (s.expired c now || s.underpaid c) = false)))
  | .paymentClaimed .. | .paymentSent .. | .paymentFailed .. =>
    inferInstanceAs (Decidable (¬ Released env s _))
  | .cancelHodlInvoice paymentHash _ =>
    inferInstanceAs (Decidable (∀ h ∈ hexDecode32 paymentHash, _))
  | .bestBlock .. => inferInstanceAs (Decidable (∀ preimage ∈ releasedPreimages s.log, _))
  | .reload => inferInstanceAs (Decidable (_ = _))
  | .createHodlBolt11Invoice .. | .requestInvoice .. | .claimHodlInvoice .. | .send .. =>
    .isTrue trivial

/-- The payments whose preimages were released go on, and the hashes of HODL invoices and
of the preimages for an invoice host are what they should be. -/
structure Guards (env : LiveEnv) (s : LiveNode) : Prop where
  hodl : ∀ key ∈ s.hodlPaymentHashes, ∃ h, key = hashHex h
  preimages : ∀ key preimage, s.asyncRecipientPreimages.lookup key = some preimage →
    key = hashHex (env.paymentHashOf preimage)
  ongoing : ∀ h, Released env s h → Ongoing s h
  log : SingleUse env s.log

section Guards

variable (hs : Guards env s)
include hs

/-- A record of a payment that goes on may replace another one, and so may any record of a
payment whose preimage was not released. -/
theorem Guards.insert (hhodl : s'.hodlPaymentHashes = s.hodlPaymentHashes)
    (hpreimages : s'.asyncRecipientPreimages = s.asyncRecipientPreimages)
    (hlive : s'.livePayments = s.livePayments.insert (hashHex h) rec) (hlog : s'.log = s.log)
    (hrec : Released env s h →
      rec.status ∈ [LivePaymentStatus.pending, .claimable, .claiming]) :
  Guards env s'
  := by
  constructor
  · rw [hhodl]
    apply hs.hodl
  · rw [hpreimages]
    apply hs.preimages
  · intro h' hreleased
    rw [Released, hlog] at hreleased
    rw [Ongoing, record, hlive, lookup_insert_hashHex]
    split_ifs with heq
    · rw [heq] at hreleased
      exact ⟨rec, rfl, hrec hreleased⟩
    · apply hs.ongoing h' hreleased
  · rw [hlog]
    apply hs.log

theorem Guards.claim {preimage : PaymentPreimage} {e : LiveEntry}
    (hhodl : s'.hodlPaymentHashes = s.hodlPaymentHashes)
    (hpreimages : s'.asyncRecipientPreimages = s.asyncRecipientPreimages)
    (hlog : s'.log = e :: s.log)
    (hreleased : releasedPreimages (e :: s.log) = preimage :: releasedPreimages s.log)
    (huse : SingleUse env (e :: s.log) = SingleUse env s.log) (hlive : s'.livePayments
      = s.livePayments.insert (hashHex (env.paymentHashOf preimage)) rec)
    (hrec : rec.status ∈ [LivePaymentStatus.pending, .claimable, .claiming]) :
  Guards env s'
  := by
  constructor
  · rw [hhodl]
    apply hs.hodl
  · rw [hpreimages]
    apply hs.preimages
  · intro h' hreleased'
    rw [Released, hlog, hreleased, List.exists_mem_cons_iff] at hreleased'
    rw [Ongoing, record, hlive, lookup_insert_hashHex]
    split_ifs with heq
    · exact ⟨rec, rfl, hrec⟩
    · obtain heq' | hreleased' := hreleased'
      · exact absurd heq'.symm heq
      · apply hs.ongoing h' hreleased'
  · rw [hlog, huse]
    apply hs.log

theorem Guards.beside (h : Beside (hashHex h) s s') :
  Guards env s'
  := by
  constructor
  · intro key hkey
    obtain rfl | hkey := h.hodl key hkey
    · exact ⟨_, rfl⟩
    · apply hs.hodl key hkey
  · intro key preimage hlookup
    apply hs.preimages key preimage (h.preimages key preimage hlookup)
  · intro h' hreleased
    rw [Released, h.log] at hreleased
    rw [Ongoing, record, h.livePayments]
    apply hs.ongoing h' hreleased
  · rw [h.log]
    apply hs.log

theorem Guards.paymentClaimable (h : Unended env s (.paymentClaimable c now)) :
  Guards env (s.paymentClaimable c now)
  := by
  obtain ⟨hrefused, heq⟩ | ⟨_, hcases⟩ := paymentClaimable_cases s c now
  · rw [heq]
    refine hs.insert rfl rfl rfl rfl fun hreleased => ?_
    rw [h.2 hreleased] at hrefused
    cases hrefused
  obtain heq | ⟨s', hs', hcases⟩ := hcases
  · rw [heq]
    apply hs
  obtain ⟨preimage, hpreimage, heq⟩ | heq := hcases
  · have hhash : env.paymentHashOf preimage = c.paymentHash := by
      obtain hpreimage | hpreimage := hpreimage
      · exact (hashHex_injective (hs.preimages _ _ hpreimage)).symm
      · apply h.1 preimage hpreimage
    rw [heq, ← hhash]
    exact (hs.beside hs').claim rfl rfl rfl rfl rfl rfl (by simp)
  · rw [heq]
    exact (hs.beside hs').insert rfl rfl rfl rfl fun _ => by simp

/-- An invoice for a hash whose preimage was not released. -/
theorem Guards.mint {amtMsat : Option ℕ} {expirySec : ℕ} {contractId : Option ContractId}
    {assetAmount : Option ℕ} (hreleased : ¬ Released env s h)
    (hhodl : ∀ key ∈ s'.hodlPaymentHashes, key = hashHex h ∨ key ∈ s.hodlPaymentHashes)
    (hpreimages : ∀ key preimage, s'.asyncRecipientPreimages.lookup key = some preimage →
      key = hashHex (env.paymentHashOf preimage)) (hlive : s'.livePayments
      = (s.mint env h amtMsat expirySec contractId assetAmount now).livePayments)
    (hlog : s'.log = (s.mint env h amtMsat expirySec contractId assetAmount now).log) :
  Guards env s'
  := by
  constructor
  · intro key hkey
    obtain rfl | hkey := hhodl key hkey
    · exact ⟨h, rfl⟩
    · apply hs.hodl key hkey
  · apply hpreimages
  · intro h' hreleased'
    rw [Released, hlog] at hreleased'
    have hne : h' ≠ h := by
      rintro rfl
      exact hreleased hreleased'
    rw [Ongoing, record, hlive, LiveNode.mint, lookup_insert_hashHex, if_neg hne]
    apply hs.ongoing h' hreleased'
  · rw [hlog]
    exact ⟨fun preimage hmem heq => hreleased ⟨preimage, hmem, heq⟩, hs.log⟩

/-- Nothing is made anew for a payment that goes on. -/
theorem Guards.not_released_of_staleFlow (hstale : s.staleFlow (hashHex h) = false) :
  ¬ Released env s h
  := by
  intro hreleased
  obtain ⟨rec, hrec, hstatus⟩ := hs.ongoing h hreleased
  have hlookup : s.livePayments.lookup (hashHex h) = some rec := hrec
  rw [staleFlow, Bool.or_eq_false_iff, hlookup, any_some,
    decide_eq_false_iff_not] at hstale
  exact hstale.2 hstatus

theorem Guards.not_released_of_record (hrec : s.record h = none) :
  ¬ Released env s h
  := by
  intro hreleased
  obtain ⟨rec, hrec', _⟩ := hs.ongoing h hreleased
  rw [hrec] at hrec'
  cases hrec'

theorem Guards.failOverdue (now : ℕ) (hkey : ∀ h, Released env s h → hashHex h ≠ key) :
  Guards env (s.failOverdue now key)
  := by
  constructor
  · intro key' hkey'
    apply hs.hodl key' (List.mem_of_mem_filter hkey')
  · apply hs.preimages
  · intro h hreleased
    obtain ⟨rec, hrec, hstatus⟩ := hs.ongoing h hreleased
    rw [mem_def] at hrec
    rw [Ongoing, record_failOverdue, hrec, map_some, if_neg (hkey h hreleased)]
    exact ⟨rec, rfl, hstatus⟩
  · apply hs.log

theorem Guards.chainApplyBestBlock {height : ℕ} (h : Unended env s (.bestBlock height now)) :
  Guards env (s.chainApplyBestBlock height now)
  := by
  have hfold : Guards env (s.chainApplyBestBlock height now)
      ∧ (s.chainApplyBestBlock height now).log = s.log := by
    apply List.foldlRecOn (motive := fun s' => Guards env s' ∧ s'.log = s.log) _ _ ⟨hs, rfl⟩
    rintro s' ⟨hs', hlog⟩ key hkey
    refine ⟨hs'.failOverdue now ?_, hlog⟩
    rintro h' ⟨preimage, hmem, rfl⟩ heq
    rw [hlog] at hmem
    apply h preimage hmem
    rwa [heq]
  apply hfold.1

theorem Guards.step {e : LiveEvent} (h : Unended env s e) :
  Guards env (s.step env e)
  := by
  cases e with
  | createBolt11Invoice request created persists now =>
    rw [LiveNode.step]
    obtain heq | ⟨hash, contractId, hcreated, heq⟩ :=
      createBolt11InvoiceLive_cases env s request created persists now
    · rw [heq]
      apply hs
    · rw [heq]
      exact hs.mint (h hash hcreated) (fun _ hkey => .inr hkey) hs.preimages rfl rfl
  | createHodlBolt11Invoice request paymentHash created persists now =>
    rw [LiveNode.step]
    obtain heq | ⟨hash, contractId, hrec, heq⟩ :=
      createHodlBolt11InvoiceLive_cases env s request paymentHash created persists now
    · rw [heq]
      apply hs
    · rw [heq]
      exact hs.mint (hs.not_released_of_record hrec) (fun _ hkey => List.mem_insert_iff.mp hkey)
        hs.preimages rfl rfl
  | requestInvoice params created now =>
    rw [LiveNode.step]
    obtain heq | ⟨preimage, amtMsat, expirySec, contractId, assetAmount, hstale, heq⟩ :=
      processOneRequestInvoice_cases env s params created now
    · rw [heq]
      apply hs
    rw [heq]
    refine hs.mint (hs.not_released_of_staleFlow hstale) (fun _ hkey => .inr hkey) ?_ rfl rfl
    intro key preimage' hlookup
    rw [Table.lookup_insert_eq] at hlookup
    split_ifs at hlookup with hkey
    · rw [hkey, some.inj hlookup]
    · apply hs.preimages key preimage' hlookup
  | paymentClaimable c now => apply hs.paymentClaimable h
  | paymentClaimed hash amountMsat now =>
    exact hs.insert rfl rfl rfl rfl fun hreleased => absurd hreleased h
  | paymentSent hash preimage now =>
    exact hs.insert rfl rfl rfl rfl fun hreleased => absurd hreleased h
  | paymentFailed hash now =>
    exact hs.insert rfl rfl rfl rfl fun hreleased => absurd hreleased h
  | claimHodlInvoice paymentHash paymentPreimage now =>
    rw [LiveNode.step]
    obtain heq | ⟨preimage, hmem, hhash, heq⟩ :=
      claimHodlInvoiceLive_cases env s paymentHash paymentPreimage now
    · rw [heq]
      apply hs
    · obtain ⟨hash, rfl⟩ := hs.hodl paymentHash hmem
      rw [hexDecode32_hashHex, some.injEq] at hhash
      rw [heq, hhash]
      exact hs.claim (e := .claimedByUser preimage) rfl rfl rfl rfl rfl rfl (by simp)
  | cancelHodlInvoice paymentHash now =>
    rw [LiveNode.step]
    obtain heq | ⟨hash, hhash, heq⟩ := cancelHodlInvoiceLive_cases s paymentHash now
    · rw [heq]
      apply hs
    · rw [heq]
      exact hs.insert rfl rfl rfl rfl fun hreleased => absurd hreleased (h hash hhash)
  | bestBlock height now => apply hs.chainApplyBestBlock h
  | send hash amtMsat assetId assetAmount now =>
    exact hs.insert rfl rfl rfl rfl fun _ => by simp
  | reload =>
    constructor
    · simp [LiveNode.step]
    · simp [LiveNode.step]
    · rintro hash ⟨preimage, hmem, _⟩
      rw [show releasedPreimages (s.step env .reload).log = [] from h] at hmem
      cases hmem
    · apply hs.log

end Guards

/-- No invoice is made for a hash whose preimage was released, as long as nothing ends the
payments whose preimages were released. -/
theorem invoice_made_once (env : LiveEnv) (es : List LiveEvent)
    (h : Run.Meets (LiveNode.step env) (Unended env) {} es) :
  SingleUse env (Run.run (LiveNode.step env) {} es).log
  := by
  have hstart : Guards env {} := by
    constructor
    · simp
    · simp
    · rintro hash ⟨preimage, hmem, _⟩
      cases hmem
    · trivial
  have hend := Run.run_invariant (I := Guards env) (fun s e hs he => hs.step he) hstart h
  apply hend.log

/-- A request of an invoice host for the invoice with index 7. -/
def sampleInvoiceRequest (now : ℕ) : LiveEvent :=
  .requestInvoice
    (some
      { hashIndex := str "7"
        paymentHash := hashHex samplePaymentHash
        amountMsat := 1000
        assetId := none
        assetAmount := none
        descriptionHash := hashHex (List.Vector.replicate 32 0)
        invoiceExpirySec := 3600 }) true now

theorem invoice_made_once_requested :
  SingleUse sampleLiveEnv (Run.run (LiveNode.step sampleLiveEnv) {}
    [sampleInvoiceRequest 100, sampleLivePayment 1000 200, sampleInvoiceRequest 300]).log
  := invoice_made_once sampleLiveEnv _ (by decide +kernel)

/-- Once the payment is reported as claimed, or after a reload, the invoice host gets another
invoice for the hash whose preimage was released. -/
theorem invoice_made_again :
  ¬ SingleUse sampleLiveEnv (Run.run (LiveNode.step sampleLiveEnv) {}
      [sampleInvoiceRequest 100, sampleLivePayment 1000 200,
        .paymentClaimed samplePaymentHash 1000 250, sampleInvoiceRequest 300]).log
    ∧ ¬ SingleUse sampleLiveEnv (Run.run (LiveNode.step sampleLiveEnv) {}
      [sampleInvoiceRequest 100, sampleLivePayment 1000 200, .reload,
        sampleInvoiceRequest 300]).log
  := by
  decide +kernel

end LiveNode

end RgbLightning
