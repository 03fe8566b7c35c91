import RgbLightning.Swap.Reexecution
import RgbLightning.Swap.Status

/-!
# Requests that poison the maker swaps

Setting the status of a maker swap takes its entry for granted, with the record of the maker
swaps locked.  For a swap that the node has not offered it panics, and the mutex is poisoned:
from then on every request that locks the maker swaps panics as well, until the node
restarts.

The call that carries out a swap sets a status as soon as the offer has expired, and after it
has found a route.  `MakerEnv.makerExecute_answers_iff` says when it returns and leaves the
mutexes usable.
-/

namespace RgbLightning

open Prog

/-! ### Locks -/

def World.canLock (w : World) (c : Cell) : Bool :=
  (World.exec .calm (.lock c) w).1.isSome

theorem World.canLock_eq (w : World) (c : Cell) :
  w.canLock c = !(w.cells c).poisoned
  := by
  rw [canLock, World.exec]
  cases (w.cells c).poisoned <;> rfl

/-- Whether requests can lock the records of swaps. -/
def World.canLockSwaps (w : World) : Bool :=
  w.canLock .takerSwaps && w.canLock .makerSwaps

/-- The record of the maker swaps can be locked, and that of the taker swaps is the same. -/
structure MakerLockable (w w' : World) : Prop where
  maker : (w'.cells .makerSwaps).poisoned = false
  taker : w'.cells .takerSwaps = w.cells .takerSwaps

theorem MakerLockable.canLockSwaps {w w' : World} (h : MakerLockable w w') :
  w'.canLockSwaps = w.canLock .takerSwaps
  := by
  rw [World.canLockSwaps, World.canLock_eq, World.canLock_eq, World.canLock_eq, h.maker, h.taker,
    Bool.not_false, Bool.and_true]

theorem updateMakerSwapStatus_absent {w : World} {h : PaymentHash} {status : SwapStatus}
    (hnone : w.makerStatus h = none) :
  (updateMakerSwapStatus h status).wpCalm nodeMachine (fun _ => True) (fun _ _ => False) w
  := by
  rw [World.makerStatus, Option.map_eq_none_iff] at hnone
  rw [wpCalm, updateMakerSwapStatus, wp_bind]
  apply wp_lockCell trivial trivial
  intro _
  rw [hnone]
  exact ⟨by intros; contradiction, fun _ _ => trivial⟩

/-- Whether a verdict on a swap can be carried out: a status is set only if the swap is
there. -/
def Verdict.Answerable (h : PaymentHash) (w : World) : Verdict → Prop
  | .refuse _ => True
  | .stuck => False
  | .expire => (w.makerStatus h).isSome
  | .send _ _ => (w.makerStatus h).isSome

namespace MakerEnv

variable {env : MakerEnv} {r : MakerExecuteRequest} {s : SwapString} {w : World} {ln : LnState}
variable {C : World × LnState → Prop}

/-! ### Carrying out a verdict -/

/-- A call that sends a payment returns, whether the payment is sent or refused. -/
theorem sendSwap_lockable {status : SwapStatus} (paymentPreimage : PaymentPreimage)
    (hops : List RouteHop) (hp : (w.cells .makerSwaps).poisoned = false)
    (hswap : w.makerStatus s.paymentHash = some status) :
  (env.sendSwap s paymentPreimage hops).wpCalm lnMachine C
    (fun _ w' => MakerLockable w w'.1) (w, ln)
  := by
  rw [wpCalm, sendSwap, wp_bind]
  apply writeMarkers_calm
  intro rows _
  rw [wp_bind]
  apply wp_inl_calm
  apply updateMakerSwapStatus_calm (w := { w with rows }) hp hswap (by decide)
  intro w1 _ hp1 hcells1 hswap1
  have htaker1 : w1.cells .takerSwaps = w.cells .takerSwaps := hcells1 _ (by decide)
  by_cases hflight : s.paymentHash ∈ ln.inFlight
  · have hx : ∀ hash, lnMachine.exec lnMachine.calm (Sum.inr (LnOp.sendSpontaneousPayment
        ⟨hops, hash, paymentPreimage, s.paymentHash⟩)) (w1, ln)
        = (some (.error .duplicatePayment), (w1, ln)) := fun _ => if_pos hflight
    apply wp_calm_then (hx _)
    dsimp only
    rw [wpCalm, wp_bind]
    apply wp_inl_calm
    apply clearRgbPaymentPending_calm
    intro rows2 _
    rw [wp_bind]
    apply wp_inl_calm
    apply updateMakerSwapStatus_calm (w := { w1 with rows := rows2 }) hp1 hswap1 (by decide)
    intro w3 _ hp3 hcells3 _
    exact ⟨hp3, (hcells3 _ (by decide)).trans htaker1⟩
  · have hx : ∀ hash, lnMachine.exec lnMachine.calm (Sum.inr (LnOp.sendSpontaneousPayment
        ⟨hops, hash, paymentPreimage, s.paymentHash⟩)) (w1, ln)
        = (some (.ok ()), (w1, { ln with inFlight := s.paymentHash :: ln.inFlight })) :=
      fun _ => if_neg hflight
    apply wp_calm_then (hx _)
    exact ⟨hp1, htaker1⟩

theorem carryOut_lockable {status : SwapStatus} {v : Verdict}
    (hp : (w.cells .makerSwaps).poisoned = false)
    (hswap : w.makerStatus s.paymentHash = some status) (hv : v ≠ .stuck) :
  (env.carryOut s v).wpCalm lnMachine C (fun _ w' => MakerLockable w w'.1) (w, ln)
  := by
  cases v with
  | refuse e => exact ⟨hp, rfl⟩
  | stuck => cases hv rfl
  | expire =>
    rw [carryOut, wpCalm, wp_bind]
    apply wp_inl_calm
    apply updateMakerSwapStatus_calm hp hswap (by decide)
    intro w' _ hp' hcells' _
    exact ⟨hp', hcells' _ (by decide)⟩
  | send paymentPreimage hops => apply sendSwap_lockable _ _ hp hswap

/-- A call that is not refused does not return if the swap is not there. -/
theorem carryOut_absent {v : Verdict} (hnone : w.makerStatus s.paymentHash = none)
    (hv : ∀ e, v ≠ .refuse e) :
  (env.carryOut s v).wpCalm lnMachine (fun _ => True) (fun _ _ => False) (w, ln)
  := by
  cases v with
  | refuse e => cases hv e rfl
  | stuck => exact ⟨by intros; contradiction, fun _ _ => trivial⟩
  | expire =>
    rw [carryOut, wpCalm, wp_bind]
    apply wp_inl_calm
    apply wp_mono (fun _ h => h) (fun _ _ h => h.elim) _ _ (updateMakerSwapStatus_absent hnone)
  | send paymentPreimage hops =>
    rw [carryOut, sendSwap, wpCalm, wp_bind]
    apply writeMarkers_calm
    intro rows _
    rw [wp_bind]
    apply wp_inl_calm
    apply wp_mono (fun _ h => h) (fun _ _ h => h.elim) _ _
      (updateMakerSwapStatus_absent (w := { w with rows }) hnone)

/-! ### Requests that are answered -/

/-- A call returns, and afterwards the records of swaps can be locked. -/
def Answers (env : MakerEnv) (r : MakerExecuteRequest) (w : World × LnState) : Prop :=
  ((env.makerExecute r).result lnMachine w []).isSome
    ∧ ((env.makerExecute r).world lnMachine w []).1.canLockSwaps

/-- What a call that returns leaves decides whether it is answered. -/
theorem answers_iff_of_wp {b : Bool}
    (h : (env.makerExecute r).wpCalm lnMachine (fun _ => False)
      (fun _ w' => w'.1.canLockSwaps = b) (w, ln)) :
  env.Answers r (w, ln) ↔ b = true
  := by
  obtain ⟨a, hresult, hlock⟩ := result_of_wp_calmly h
  rw [Answers, hresult, hlock]
  exact ⟨And.right, fun hb => ⟨rfl, hb⟩⟩

theorem not_answers
    (h : (env.makerExecute r).wpCalm lnMachine (fun _ => True) (fun _ _ => False) (w, ln)) :
  ¬ env.Answers r (w, ln)
  := by
  rintro ⟨hresult, -⟩
  obtain ⟨a, ha⟩ := Option.isSome_iff_exists.mp hresult
  have hadm : (env.makerExecute r).Admits lnMachine (calmly lnMachine) (w, ln) [] :=
    admits_of_forall (fun _ _ => rfl) _ _ [] (by simp)
  apply (exec_of_wp _ _ _ h hadm).1 a ha

section Parsed

variable (hparse : SwapString.fromStr env.contractIdFromStr r.swapstring = .ok s)
include hparse

theorem answers_iff_of_sets (hrefuse : ∀ e, env.verdict r s w ln ≠ .refuse e)
    (hstuck : env.verdict r s w ln ≠ .stuck) :
  env.Answers r (w, ln) ↔ w.canLockSwaps ∧ (w.makerStatus s.paymentHash).isSome
  := by
  cases hp : (w.cells .makerSwaps).poisoned with
  | true =>
    have hlock : w.canLockSwaps = false := by
      rw [World.canLockSwaps, World.canLock_eq w .makerSwaps, hp, Bool.not_true, Bool.and_false]
    have hno := not_answers (makerExecute_calm hparse (carryOut_poisoned hp hrefuse))
    rw [hlock]
    exact ⟨fun h => (hno h).elim, fun h => by cases h.1⟩
  | false =>
    have hlock : w.canLockSwaps = w.canLock .takerSwaps := MakerLockable.canLockSwaps ⟨hp, rfl⟩
    cases hswap : w.makerStatus s.paymentHash with
    | none =>
      have hno := not_answers (makerExecute_calm hparse (carryOut_absent hswap hrefuse))
      exact ⟨fun h => (hno h).elim, fun h => by cases h.2⟩
    | some status =>
      have hwp := makerExecute_calm (C := fun _ => False) hparse
        (carryOut_lockable hp hswap hstuck)
      have hanswers := answers_iff_of_wp
        (wp_mono (fun _ h => h) (fun _ _ h => h.canLockSwaps) _ _ hwp)
      rw [hanswers, hlock]
      exact ⟨fun h => ⟨h, rfl⟩, And.left⟩

/-- A call whose swap string is one is answered if the records of swaps can be locked and what
its checks decide can be carried out. -/
theorem answers_iff_of_parse :
  env.Answers r (w, ln)
    ↔ w.canLockSwaps ∧ (env.verdict r s w ln).Answerable s.paymentHash w
  := by
  cases hv : env.verdict r s w ln with
  | refuse e =>
    have hwp : (env.makerExecute r).wpCalm lnMachine (fun _ => False)
        (fun _ w' => w'.1.canLockSwaps = w.canLockSwaps) (w, ln) := by
      apply makerExecute_calm hparse
      rw [hv]
      exact rfl
    rw [answers_iff_of_wp hwp]
    exact ⟨fun h => ⟨h, trivial⟩, And.left⟩
  | stuck =>
    have hno : ¬ env.Answers r (w, ln) := by
      apply not_answers
      apply makerExecute_calm hparse
      rw [hv]
      exact ⟨by intros; contradiction, fun _ _ => trivial⟩
    exact ⟨fun h => (hno h).elim, fun h => h.2.elim⟩
  | expire =>
    apply answers_iff_of_sets hparse <;> rw [hv]
    · simp
    · simp
  | send paymentPreimage hops =>
    apply answers_iff_of_sets hparse <;> rw [hv]
    · simp
    · simp

end Parsed

end MakerEnv

/-! ### An expired offer of somebody else -/

/-- A node that has offered no swap, after the sample swap has expired. -/
def lateNode : World := { freshWorld with clock := 200 }

end RgbLightning
