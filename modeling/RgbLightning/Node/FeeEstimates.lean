import Mathlib.Data.Finset.Max
import Mathlib.Data.Rat.Floor
import Mathlib.Tactic.Linarith

/-!
# Fee estimates

An indexer reports fee rates for some block targets.  The rate of another target is
interpolated between its neighbours (`feeEstimates_ordered`).  Floating-point numbers are
taken as exact.
-/

namespace RgbLightning

open Finset

def minFeerate : ℕ := 253

inductive ConfirmationTarget where
  | maximumFeeEstimate
  | urgentOnChainSweep
  | minAllowedAnchorChannelRemoteFee
  | minAllowedNonAnchorChannelRemoteFee
  | anchorChannelFee
  | nonAnchorChannelFee
  | channelCloseMinimum
  | outputSpendingFee

def storeFeeEstimates (background normal highPrio veryHighPrio minAllowedAnchor : ℕ) :
    ConfirmationTarget → ℕ
  | .maximumFeeEstimate => veryHighPrio
  | .urgentOnChainSweep => highPrio
  | .minAllowedAnchorChannelRemoteFee => minAllowedAnchor
  | .minAllowedNonAnchorChannelRemoteFee => background - 250
  | .anchorChannelFee | .channelCloseMinimum | .outputSpendingFee => background
  | .nonAnchorChannelFee => normal

/-- The reported rates, by their targets. -/
structure EstimateMap where
  targets : Finset ℕ
  rate : ℕ → ℚ

namespace EstimateMap

variable (m : EstimateMap) (blocks : ℕ)

def lowerKey : Option ℕ :=
  (m.targets.filter (· < blocks)).max

def upperKey : Option ℕ :=
  (m.targets.filter (blocks ≤ ·)).min

/-- The targets next to one that is not reported, twice the same if there is only one. -/
def neighbours : Option (ℕ × ℕ) :=
  match m.lowerKey blocks, m.upperKey blocks with
  | some x1, some x2 => some (x1, x2)
  | some x, none => some (x, x)
  | none, some x => some (x, x)
  | none, none => none

/-- The rate between two targets. -/
def line (x1 x2 : ℕ) : ℚ :=
  if x1 ≠ x2 then m.rate x1 + ((blocks : ℚ) - x1) / (x2 - x1) * (m.rate x2 - m.rate x1)
  else m.rate x1

def interpolateFeeRate : Option ℚ :=
  if blocks = 0 ∨ m.targets = ∅ then none
  else if blocks ∈ m.targets then some (m.rate blocks)
  else (m.neighbours blocks).map fun (x1, x2) => m.line blocks x1 x2

/-- A rate is rounded, and cut off at the largest 32-bit number. -/
def estimateFeeRateSatPerKw (default : ℕ) : ℕ :=
  match m.interpolateFeeRate blocks with
  | none => default
  | some satPerVb => max (min ⌊satPerVb * 250 + 1 / 2⌋.toNat (2 ^ 32 - 1)) minFeerate

def pollEsploraFeeEstimates : ConfirmationTarget → ℕ :=
  storeFeeEstimates (m.estimateFeeRateSatPerKw 144 minFeerate)
    (m.estimateFeeRateSatPerKw 18 2000) (m.estimateFeeRateSatPerKw 6 5000)
    (m.estimateFeeRateSatPerKw 2 50000) minFeerate

variable {m} {blocks' x x1 x2 : ℕ}

theorem lowerKey_cases :
  (m.lowerKey blocks = none ∧ ∀ y ∈ m.targets, blocks ≤ y)
    ∨ ∃ x ∈ m.targets, m.lowerKey blocks = some x ∧ x < blocks
      ∧ ∀ y ∈ m.targets, y < blocks → y ≤ x
  := by
  cases h : m.lowerKey blocks with
  | none =>
    have hempty := filter_eq_empty_iff.mp (max_eq_bot.mp h)
    exact .inl ⟨rfl, fun y hy => not_lt.mp (hempty hy)⟩
  | some x =>
    obtain ⟨hx, hlt⟩ := mem_filter.mp (mem_of_max h)
    exact .inr ⟨x, hx, rfl, hlt, fun y hy hlt =>
      le_max_of_eq (mem_filter.mpr ⟨hy, hlt⟩) h⟩

theorem upperKey_cases :
  (m.upperKey blocks = none ∧ ∀ y ∈ m.targets, y < blocks)
    ∨ ∃ x ∈ m.targets, m.upperKey blocks = some x ∧ blocks ≤ x
      ∧ ∀ y ∈ m.targets, blocks ≤ y → x ≤ y
  := by
  cases h : m.upperKey blocks with
  | none =>
    have hempty := filter_eq_empty_iff.mp (min_eq_top.mp h)
    exact .inl ⟨rfl, fun y hy => not_le.mp (hempty hy)⟩
  | some x =>
    obtain ⟨hx, hle⟩ := mem_filter.mp (mem_of_min h)
    exact .inr ⟨x, hx, rfl, hle, fun y hy hle =>
      min_le_of_eq (mem_filter.mpr ⟨hy, hle⟩) h⟩

/-- Once a target is reported there are neighbours, with none between them. -/
theorem neighbours_spec (hx : x ∈ m.targets) :
  ∃ x1 ∈ m.targets, ∃ x2 ∈ m.targets, m.neighbours blocks = some (x1, x2)
    ∧ (∀ y ∈ m.targets, y < blocks → y ≤ x1) ∧ (∀ y ∈ m.targets, blocks ≤ y → x2 ≤ y)
    ∧ (x1 = x2 ∨ x1 < blocks ∧ blocks ≤ x2)
  := by
  rcases lowerKey_cases (m := m) blocks with ⟨hl, hge⟩ | ⟨x1, hx1, hl, hlt, hmax⟩
  · rcases upperKey_cases (m := m) blocks with ⟨-, hlt⟩ | ⟨x2, hx2, hu, -, hmin⟩
    · exact absurd (hge x hx) (not_le.mpr (hlt x hx))
    · refine ⟨x2, hx2, x2, hx2, by simp only [neighbours, hl, hu], ?_, hmin, .inl rfl⟩
      intro y hy hlt
      exact absurd (hge y hy) (not_le.mpr hlt)
  · rcases upperKey_cases (m := m) blocks with ⟨hu, hlt⟩ | ⟨x2, hx2, hu, hle, hmin⟩
    · refine ⟨x1, hx1, x1, hx1, by simp only [neighbours, hl, hu], hmax, ?_, .inl rfl⟩
      intro y hy hle
      exact absurd (hlt y hy) (not_lt.mpr hle)
    · exact ⟨x1, hx1, x2, hx2, by simp only [neighbours, hl, hu], hmax, hmin, .inr ⟨hlt, hle⟩⟩

variable {blocks}

theorem line_antitone (hx : x1 ≤ x2) (hrate : m.rate x2 ≤ m.rate x1) (hle : blocks ≤ blocks') :
  m.line blocks' x1 x2 ≤ m.line blocks x1 x2
  := by
  rw [line, line]
  split_ifs with hne
  · have hlt : (x1 : ℚ) < x2 := Nat.cast_lt.mpr (lt_of_le_of_ne hx hne)
    have hle : (blocks : ℚ) ≤ blocks' := Nat.cast_le.mpr hle
    have hpart : ((blocks : ℚ) - x1) / (x2 - x1) ≤ (blocks' - x1) / (x2 - x1) :=
      div_le_div_of_nonneg_right (by linarith) (by linarith)
    nlinarith
  · rfl

theorem line_right :
  m.line x2 x1 x2 = m.rate x2
  := by
  rw [line]
  split_ifs with hne
  · rw [div_self (sub_ne_zero.mpr (Nat.cast_injective.ne (Ne.symm hne)))]
    ring
  · rw [not_not.mp hne]

section Falling

variable (hrates : ∀ x ∈ m.targets, ∀ y ∈ m.targets, x ≤ y → m.rate y ≤ m.rate x)
include hrates

theorem interpolateFeeRate_between {r : ℚ} (h : m.interpolateFeeRate blocks = some r)
    (hx : x ∈ m.targets) :
  (x ≤ blocks → r ≤ m.rate x) ∧ (blocks ≤ x → m.rate x ≤ r)
  := by
  rw [interpolateFeeRate] at h
  split_ifs at h with _ hmem
  · obtain rfl := Option.some.inj h
    exact ⟨hrates x hx blocks hmem, hrates blocks hmem x hx⟩
  obtain ⟨x1, hx1, x2, hx2, hn, hmax, hmin, hor⟩ := neighbours_spec blocks hx
  rw [hn] at h
  obtain rfl := Option.some.inj h
  have hle : x1 ≤ x2 := by omega
  have hbounds : m.rate x2 ≤ m.line blocks x1 x2 ∧ m.line blocks x1 x2 ≤ m.rate x1 := by
    rcases hor with rfl | ⟨hlt, hge⟩
    · simp [line]
    · constructor
      · exact line_right.ge.trans (line_antitone hle (hrates x1 hx1 x2 hx2 hle) hge)
      · exact (line_antitone hle (hrates x1 hx1 x2 hx2 hle) hlt.le).trans_eq (by simp [line])
  constructor
  · intro hle
    have hne : x ≠ blocks := fun heq => hmem (heq ▸ hx)
    exact hbounds.2.trans (hrates x hx x1 hx1 (hmax x hx (lt_of_le_of_ne hle hne)))
  · intro hge
    exact (hrates x2 hx2 x hx (hmin x hx hge)).trans hbounds.1

theorem interpolateFeeRate_antitone (hx : x ∈ m.targets) (hblocks : blocks ≠ 0)
    (hle : blocks ≤ blocks') :
  ∃ r r', m.interpolateFeeRate blocks = some r ∧ m.interpolateFeeRate blocks' = some r' ∧ r' ≤ r
  := by
  have hsome : ∀ b ≠ 0, ∃ r, m.interpolateFeeRate b = some r := by
    intro b hb
    obtain ⟨x1, -, x2, -, hn, -⟩ := neighbours_spec b hx
    rw [interpolateFeeRate, if_neg (not_or.mpr ⟨hb, ne_empty_of_mem hx⟩), hn]
    split_ifs <;> exact ⟨_, rfl⟩
  obtain ⟨r, h⟩ := hsome blocks hblocks
  obtain ⟨r', h'⟩ := hsome blocks' (by omega)
  refine ⟨r, r', h, h', ?_⟩
  by_cases hkey : ∃ x ∈ m.targets, blocks ≤ x ∧ x ≤ blocks'
  · obtain ⟨x, hx, hge, hle⟩ := hkey
    calc r' ≤ m.rate x := (interpolateFeeRate_between hrates h' hx).1 hle
      _ ≤ r := (interpolateFeeRate_between hrates h hx).2 hge
  -- Both targets have the same neighbours.
  push Not at hkey
  have hlower : m.lowerKey blocks' = m.lowerKey blocks := by
    apply congrArg Finset.max (filter_congr fun x hx => ?_)
    have := hkey x hx
    omega
  have hupper : m.upperKey blocks' = m.upperKey blocks := by
    apply congrArg Finset.min (filter_congr fun x hx => ?_)
    have := hkey x hx
    omega
  rw [interpolateFeeRate] at h h'
  rw [if_neg fun hmem => absurd (hkey _ hmem le_rfl) (not_lt.mpr hle)] at h
  rw [if_neg fun hmem => absurd (hkey _ hmem hle) (lt_irrefl _), neighbours, hlower, hupper,
    ← neighbours] at h'
  split_ifs at h h'
  obtain ⟨x1, hx1, x2, hx2, hn, -, -, hor⟩ := neighbours_spec blocks hx
  rw [hn] at h h'
  rw [← Option.some.inj h, ← Option.some.inj h']
  have hx12 : x1 ≤ x2 := by omega
  apply line_antitone hx12 (hrates x1 hx1 x2 hx2 hx12) hle

theorem estimateFeeRateSatPerKw_antitone {default default' : ℕ} (hblocks : blocks ≠ 0)
    (hle : blocks ≤ blocks') (hdefault : default' ≤ default) :
  m.estimateFeeRateSatPerKw blocks' default' ≤ m.estimateFeeRateSatPerKw blocks default
  := by
  rw [estimateFeeRateSatPerKw, estimateFeeRateSatPerKw]
  rcases m.targets.eq_empty_or_nonempty with hempty | ⟨x, hx⟩
  · simpa [interpolateFeeRate, hempty] using hdefault
  obtain ⟨r, r', h, h', hr⟩ := interpolateFeeRate_antitone hrates hx hblocks hle
  simp only [h, h']
  gcongr max (min ?_ _) _
  apply Int.toNat_le_toNat
  gcongr

end Falling

/-- If the reported rates do not rise with the target, the stored estimates are ordered, none
is below the smallest rate, and an interpolated rate lies between those of the targets below
and those of the targets above. -/
theorem feeEstimates_ordered (m : EstimateMap)
    (hrates : ∀ x ∈ m.targets, ∀ y ∈ m.targets, x ≤ y → m.rate y ≤ m.rate x) :
  let fees := m.pollEsploraFeeEstimates
  minFeerate ≤ fees .anchorChannelFee ∧ fees .anchorChannelFee ≤ fees .nonAnchorChannelFee
    ∧ fees .nonAnchorChannelFee ≤ fees .urgentOnChainSweep
    ∧ fees .urgentOnChainSweep ≤ fees .maximumFeeEstimate
    ∧ ∀ blocks r, m.interpolateFeeRate blocks = some r → ∀ x ∈ m.targets,
      (x ≤ blocks → r ≤ m.rate x) ∧ (blocks ≤ x → m.rate x ≤ r)
  := by
  refine ⟨?_, ?_, ?_, ?_, fun blocks r h x hx => interpolateFeeRate_between hrates h hx⟩
  · change minFeerate ≤ m.estimateFeeRateSatPerKw 144 minFeerate
    rw [estimateFeeRateSatPerKw]
    split
    · rfl
    · apply le_max_right
  all_goals
    apply estimateFeeRateSatPerKw_antitone hrates <;> decide

theorem feeEstimates_ordered_twoTargets :
  let m : EstimateMap := ⟨{1, 25}, fun x => 100 - x⟩
  m.pollEsploraFeeEstimates .urgentOnChainSweep ≤ m.pollEsploraFeeEstimates .maximumFeeEstimate
  := by
  intro m
  apply (feeEstimates_ordered m _).2.2.2.1
  intro x _ y _ hle
  exact sub_le_sub_left (Nat.cast_le.mpr hle) 100

end EstimateMap

end RgbLightning
