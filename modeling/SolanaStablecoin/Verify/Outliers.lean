import SolanaStablecoin.Verify.Consensus
import SolanaStablecoin.Verify.Sessions

/-! Which prices the consensus rejects. The deviation from the median is computed with a product
that stops at the largest number, and behind a large median nothing is an outlier any more. -/

namespace SolanaStablecoin

variable {clock : Clock} {s : State} {oc : OracleConsensus} {fresh : List UInt64} {m p : UInt64}
  {t : Nat}

theorem median_pos (hpos : ∀ p ∈ fresh, 0 < p) (hsome : fresh ≠ []) : 0 < median fresh := by
  have hall : ∀ p ∈ fresh, Within 1 (UInt64.ofNat (2 ^ 64 - 1)) p = true := by
    intro p hp
    refine within_iff.mpr ⟨?_, ?_⟩
    · have := UInt64.lt_iff_toNat_lt.mp (hpos p hp)
      exact UInt64.le_iff_toNat_le.mpr this
    · exact UInt64.le_iff_toNat_le.mpr (Nat.le_pred_of_lt p.toNat_lt)
  have hmajority : fresh.Majority (Within 1 (UInt64.ofNat (2 ^ 64 - 1))) := by
    have hlen := List.length_pos_of_ne_nil hsome
    rw [List.Majority, List.countP_eq_length.mpr hall]
    omega
  have hone := UInt64.le_iff_toNat_le.mp (within_iff.mp (median_within hmajority)).1
  exact UInt64.lt_iff_toNat_lt.mpr hone

/-- The deviation of a price from the median in basis points, over the natural numbers. -/
def exactDeviation (median p : UInt64) : Nat :=
  (max p.toNat median.toNat - min p.toNat median.toNat) * 10000 / median.toNat

/-- The fresh prices whose exact deviation is within the threshold. -/
def OracleConsensus.exactlyAccepted (oc : OracleConsensus) (fresh : List UInt64) : List UInt64 :=
  fresh.filter fun p => exactDeviation (median fresh) p ≤ oc.outlierThresholdBps.toNat

theorem deviationOf_toNat (hm : 0 < m) : (deviationOf m p).toNat =
    min ((max p.toNat m.toNat - min p.toNat m.toNat) * 10000) (2 ^ 64 - 1) / m.toNat := by
  have hm' := UInt64.lt_iff_toNat_lt.mp hm
  have hmax : (max m 1).toNat = m.toNat := by
    rw [UInt64.toNat_max]
    exact Nat.max_eq_left hm'
  rw [deviationOf, UInt64.toNat_div, UInt64.toNat_saturatingMul, toNat_absDiff, hmax]
  rfl

/-- The code accepts what it should, and all the rest as well once the median is so large that the
threshold lies behind the largest number. -/
theorem deviationOf_le_iff (hm : 0 < m) : (deviationOf m p).toNat ≤ t ↔
    exactDeviation m p ≤ t ∨ 2 ^ 64 ≤ (t + 1) * m.toNat := by
  have hm' : 0 < m.toNat := UInt64.lt_iff_toNat_lt.mp hm
  rw [deviationOf_toNat hm, exactDeviation, ← Nat.lt_succ_iff, ← Nat.lt_succ_iff,
    Nat.div_lt_iff_lt_mul hm', Nat.div_lt_iff_lt_mul hm', Nat.succ_eq_add_one]
  omega

/-- The rejection is exact as long as the threshold is reached by a product that does not stop.
Where the median is larger, an outlier among the prices is always accepted. -/
theorem accepted_exact_iff (hpos : ∀ p ∈ fresh, 0 < p) :
    oc.accepted fresh = oc.exactlyAccepted fresh ↔
      (oc.outlierThresholdBps.toNat + 1) * (median fresh).toNat < 2 ^ 64 ∨
        ∀ p ∈ fresh, exactDeviation (median fresh) p ≤ oc.outlierThresholdBps.toNat := by
  have hcode : ∀ p ∈ fresh, deviationOf (median fresh) p ≤ oc.outlierThresholdBps.toUInt64 ↔
      exactDeviation (median fresh) p ≤ oc.outlierThresholdBps.toNat ∨
        2 ^ 64 ≤ (oc.outlierThresholdBps.toNat + 1) * (median fresh).toNat := by
    intro p hp
    rw [UInt64.le_iff_toNat_le, UInt16.toNat_toUInt64]
    exact deviationOf_le_iff (median_pos hpos (List.ne_nil_of_mem hp))
  constructor
  · intro h
    refine or_iff_not_imp_left.mpr fun hlarge p hp => ?_
    have hmem : p ∈ oc.accepted fresh :=
      List.mem_filter.mpr ⟨hp, decide_eq_true ((hcode p hp).mpr (.inr (Nat.not_lt.mp hlarge)))⟩
    rw [h] at hmem
    exact of_decide_eq_true (List.mem_filter.mp hmem).2
  · intro h
    refine List.filter_congr fun p hp => decide_eq_decide.mpr ?_
    rw [hcode p hp]
    rcases h with hfits | hnone
    · exact or_iff_left (Nat.not_le.mpr hfits)
    · exact iff_of_true (.inl (hnone p hp)) (hnone p hp)

theorem forall_pos {l : List UInt64} (h : l.all (0 < ·)) : ∀ p ∈ l, 0 < p := by
  intro p hp
  exact of_decide_eq_true (List.all_eq_true.mp h p hp)

namespace Market

/-- Prices within two percent of the median are accepted. -/
def twoPercent : OracleConsensus := { minOracles := 2, outlierThresholdBps := 200 }

/-- Two feeds with a large price, and a third whose price is larger by a half. -/
def largeFeeds : List (OracleSource × Pubkey) :=
  [.key 21, .key 22, .key 23].map fun feed => ({ oracleType := oraclePyth, feed }, feed)

def largePrice (n : Nat) : Price :=
  { price := .ofNat n, conf := 0, expo := -8, publishTime := 0, pubSlot := 5 }

def largeMarket : State :=
  { genesis with
    pythPriceFeeds := fun feed =>
      if feed = .key 23 then some (largePrice (2 ^ 62 + 2 ^ 61)) else some (largePrice (2 ^ 62)) }

def largePrices : List UInt64 := [.ofNat (2 ^ 62), .ofNat (2 ^ 62), .ofNat (2 ^ 62 + 2 ^ 61)]

end Market

open Market in
theorem accepted_exact_iff_largePrices :
    (twoPercent.accepted [100, 101, 102] = twoPercent.exactlyAccepted [100, 101, 102] ↔
      201 * (median [100, 101, 102]).toNat < 2 ^ 64 ∨
        ∀ p ∈ [100, 101, 102], exactDeviation (median [100, 101, 102]) p ≤ 200) ∧
    (twoPercent.accepted largePrices = twoPercent.exactlyAccepted largePrices ↔
      201 * (median largePrices).toNat < 2 ^ 64 ∨
        ∀ p ∈ largePrices, exactDeviation (median largePrices) p ≤ 200) :=
  ⟨accepted_exact_iff (forall_pos (by decide)), accepted_exact_iff (forall_pos (by decide))⟩

open Market in
/-- A price that is half as high again as the median is accepted within two percent. -/
theorem large_outlier_accepted :
    freshPrices (day 0) largeMarket 10 largeFeeds = .ok largePrices ∧
      exactDeviation (median largePrices) (.ofNat (2 ^ 62 + 2 ^ 61)) = 5000 ∧
      twoPercent.accepted largePrices = largePrices ∧
      twoPercent.accepted largePrices ≠ twoPercent.exactlyAccepted largePrices := by
  decide +kernel

end SolanaStablecoin
