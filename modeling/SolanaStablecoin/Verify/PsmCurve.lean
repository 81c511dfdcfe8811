import SolanaStablecoin.Program.Views
import SolanaStablecoin.Verify.DynamicFee

/-! The fee curve of the peg stability module, and the quote that is given before a swap. -/

namespace SolanaStablecoin

variable {rt : Runtime} {clock : Clock} {s s' : State} {c : StablecoinConfig}
  {psm : PsmCurveConfig} {vault : TokenAccount} {v v' t t' : UInt64}

namespace PsmCurveConfig

/-- How far the vault is from half of the reserves, rounded down. -/
def imbalance (vaultAmount totalReserves : UInt64) : Nat :=
  max vaultAmount.toNat (totalReserves.toNat / 2) - min vaultAmount.toNat (totalReserves.toNat / 2)

/-- What the curve adds to the base fee, for an imbalance in millionths of the reserves. -/
def surcharge (psm : PsmCurveConfig) (ratio : Nat) : Nat :=
  U128.saturatingMul (U128.saturatingMul psm.curveK.toNat ratio) ratio / 1000000000000

theorem saturatingMul_mono {a a' b b' : Nat} (ha : a ≤ a') (hb : b ≤ b') :
    U128.saturatingMul a b ≤ U128.saturatingMul a' b' :=
  min_le_min_right _ (Nat.mul_le_mul ha hb)

/-- Where the products stop, the surcharge still does not fall. -/
theorem surcharge_mono {r r' : Nat} (h : r ≤ r') : psm.surcharge r ≤ psm.surcharge r' :=
  Nat.div_le_div_right (saturatingMul_mono (saturatingMul_mono (Nat.le_refl _) h) h)

theorem surcharge_zero : psm.surcharge 0 = 0 := by
  rw [surcharge, U128.saturatingMul, Nat.mul_zero, Nat.zero_min, Nat.zero_div]

theorem imbalance_lt : imbalance v t < 2 ^ 64 := by
  have hv := v.toNat_lt
  have ht := t.toNat_lt
  rw [imbalance]
  omega

/-- The ratio is exact, since a balance times a million fits. -/
theorem computeFee_toNat (ht : t ≠ 0) : (psm.computeFee v t).toNat =
    min (psm.baseFeeBps.toNat + psm.surcharge (imbalance v t * 1000000 / t.toNat))
      psm.maxFeeBps.toNat := by
  have hideal : (t / 2).toNat = t.toNat / 2 := UInt64.toNat_div _ _
  have himbalance : (if v > t / 2 then v - t / 2 else t / 2 - v).toNat = imbalance v t := by
    split
    next h =>
      have hlt := UInt64.lt_iff_toNat_lt.mp h
      rw [UInt64.toNat_sub_of_le _ _ (UInt64.le_of_lt h), imbalance]
      omega
    next h =>
      have hle := UInt64.le_iff_toNat_le.mp (UInt64.not_lt.mp h)
      rw [UInt64.toNat_sub_of_le _ _ (UInt64.not_lt.mp h), imbalance]
      omega
  have hfits : U128.saturatingMul (imbalance v t) 1000000 = imbalance v t * 1000000 := by
    have := @imbalance_lt v t
    rw [U128.saturatingMul]
    omega
  have hmax := psm.maxFeeBps.toNat_lt
  rw [computeFee, if_neg ht]
  dsimp only
  rw [himbalance, hfits, ← surcharge]
  generalize psm.surcharge _ = more
  rw [UInt16.toNat_ofNat_of_lt' (by rw [UInt16.size]; omega)]
  omega

theorem computeFee_zero : psm.computeFee v 0 = psm.baseFeeBps := if_pos rfl

theorem computeFee_ideal (hbase : psm.baseFeeBps ≤ psm.maxFeeBps) :
    psm.computeFee (t / 2) t = psm.baseFeeBps := by
  by_cases ht : t = 0
  · rw [ht, computeFee_zero]
  · have hideal : (t / 2).toNat = t.toNat / 2 := UInt64.toNat_div _ _
    have hzero : imbalance (t / 2) t = 0 := by
      rw [imbalance, hideal]
      omega
    rw [← UInt16.toNat_inj, computeFee_toNat ht, hzero, Nat.zero_mul, Nat.zero_div, surcharge_zero,
      Nat.add_zero]
    exact Nat.min_eq_left (UInt16.le_iff_toNat_le.mp hbase)

theorem computeFee_bounds (hbase : psm.baseFeeBps ≤ psm.maxFeeBps) :
    psm.baseFeeBps ≤ psm.computeFee v t ∧ psm.computeFee v t ≤ psm.maxFeeBps := by
  by_cases ht : t = 0
  · rw [ht, computeFee_zero]
    exact ⟨UInt16.le_refl _, hbase⟩
  · rw [UInt16.le_iff_toNat_le] at hbase
    rw [UInt16.le_iff_toNat_le, UInt16.le_iff_toNat_le, computeFee_toNat ht]
    exact ⟨le_min (Nat.le_add_right _ _) hbase, Nat.min_le_right _ _⟩

/-- The fee grows with the part of the reserves that the vault is off by, also between reserves of
different size. -/
theorem computeFee_mono (hbase : psm.baseFeeBps ≤ psm.maxFeeBps) (ht' : t' ≠ 0)
    (h : imbalance v t * t'.toNat ≤ imbalance v' t' * t.toNat) :
    psm.computeFee v t ≤ psm.computeFee v' t' := by
  by_cases ht : t = 0
  · rw [ht, computeFee_zero]
    exact (computeFee_bounds hbase).1
  · have pos_of {x : UInt64} (hx : x ≠ 0) : 0 < x.toNat :=
      Nat.pos_of_ne_zero fun hzero => hx (UInt64.toNat_inj.mp hzero)
    have hratio : imbalance v t * 1000000 / t.toNat ≤ imbalance v' t' * 1000000 / t'.toNat := by
      rw [Nat.le_div_iff_mul_le (pos_of ht')]
      refine Nat.le_of_mul_le_mul_right ?_ (pos_of ht)
      calc imbalance v t * 1000000 / t.toNat * t'.toNat * t.toNat
        _ = imbalance v t * 1000000 / t.toNat * t.toNat * t'.toNat := Nat.mul_right_comm ..
        _ ≤ imbalance v t * 1000000 * t'.toNat :=
          Nat.mul_le_mul_right _ (Nat.div_mul_le_self ..)
        _ = imbalance v t * t'.toNat * 1000000 := Nat.mul_right_comm ..
        _ ≤ imbalance v' t' * t.toNat * 1000000 := Nat.mul_le_mul_right _ h
        _ = imbalance v' t' * 1000000 * t.toNat := Nat.mul_right_comm ..
    rw [UInt16.le_iff_toNat_le, computeFee_toNat ht, computeFee_toNat ht']
    exact min_le_min_right _ (Nat.add_le_add_left (surcharge_mono hratio) _)

theorem imbalance_symm (h : v.toNat + v'.toNat = 2 * (t.toNat / 2)) :
    imbalance v t = imbalance v' t := by
  rw [imbalance, imbalance]
  omega

/-- The fee is a function of the imbalance and the reserves. -/
theorem computeFee_congr (h : imbalance v t = imbalance v' t) :
    psm.computeFee v t = psm.computeFee v' t := by
  by_cases ht : t = 0
  · rw [ht, computeFee_zero, computeFee_zero]
  · rw [← UInt16.toNat_inj, computeFee_toNat ht, computeFee_toNat ht, h]

end PsmCurveConfig

/-! ## The quote -/

/-- What is reported for an amount, with the reserves as they are. -/
def PsmCurveConfig.quote (psm : PsmCurveConfig) (c : StablecoinConfig) (vault : TokenAccount)
    (n : UInt64) : PsmQuoteEvent :=
  { mint := c.mint, amountIn := n, expectedOut := n.saturatingSub (psm.feeFor c vault n)
    expectedFee := psm.feeFor c vault n
    feeBps := psm.computeFee vault.amount c.totalCollateral, vaultAmount := vault.amount }

/-- The fee of the quote is computed like that of the swap. -/
theorem ofNat_saturatingMul (n : UInt64) (feeBps : UInt16) :
    UInt64.ofNat (U128.saturatingMul n.toNat feeBps.toNat / 10000) = feeOf n feeBps := by
  have hlt : n.toNat * feeBps.toNat < 2 ^ 64 * 2 ^ 16 :=
    Nat.mul_lt_mul'' n.toNat_lt feeBps.toNat_lt
  rw [U128.saturatingMul, Nat.min_eq_left (by omega), feeOf]

/-- Whoever may swap may ask for a quote. -/
theorem psmDynamicSwapHandler_quoted {a : Redeem} {n : UInt64} (caller : Signer)
    (h : psmDynamicSwapHandler rt s a n = .ok s') :
    ∃ c psm vault, DynamicFees s (a.redemption n) c psm vault ∧
      getPsmQuoteHandler s { caller, sssMint := a.sssMint, reserveVault := a.reserveVault } n =
        .ok (psm.quote c vault n) := by
  simp only [psmDynamicSwapHandler, Redeem.load, bind_eq_ok, loadSss3OfMint_eq_ok, load_eq_ok,
    require_eq_ok, requireAmount_eq_ok, pure_eq_ok, Prod.exists, Prod.mk.injEq] at h
  obtain ⟨_, _, ⟨_, _, ⟨hc, -, hm, hmint⟩, -, -, -, -, -, -, -, -, _, hvault, -, hkey, -, -, -,
    -, rfl, rfl⟩, -, hflag, psm, hpsm, -, hcurve, -, hpos, -⟩ := h
  refine ⟨_, psm, _, ⟨hc, hflag, hpsm, hkey, hkey ▸ hvault⟩, ?_⟩
  simp only [getPsmQuoteHandler, load_eq_ok.mpr hc, ok_bind, require_pos hflag,
    load_eq_ok.mpr hpsm, require_pos hcurve, load_eq_ok.mpr hm, require_pos hmint,
    load_eq_ok.mpr hvault, require_pos hkey, (requireAmount_eq_ok (u := ())).mpr hpos,
    ofNat_saturatingMul]
  rfl

/-- The curve stays within its bounds and grows away from its ideal, and a swap pays what the quote
for it says. -/
theorem psm_curve (rt : Runtime) (clock : Clock) :
    (∀ psm : PsmCurveConfig, psm.baseFeeBps ≤ psm.maxFeeBps →
      (∀ v t, psm.baseFeeBps ≤ psm.computeFee v t ∧ psm.computeFee v t ≤ psm.maxFeeBps) ∧
      (∀ v t : UInt64, psm.computeFee (t / 2) t ≤ psm.computeFee v t) ∧
      (∀ v v' t : UInt64, v.toNat + v'.toNat = 2 * (t / 2).toNat →
        psm.computeFee v t = psm.computeFee v' t) ∧
      ∀ v t v' t' : UInt64, t' ≠ 0 →
        PsmCurveConfig.imbalance v t * t'.toNat ≤ PsmCurveConfig.imbalance v' t' * t.toNat →
        psm.computeFee v t ≤ psm.computeFee v' t') ∧
    ∀ s s' a n caller, (Instruction.psmDynamicSwap a n).exec rt clock s = .ok s' →
      ∃ c psm vault q, DynamicFees s (a.redemption n) c psm vault ∧
        getPsmQuoteHandler s { caller, sssMint := a.sssMint, reserveVault := a.reserveVault } n =
          .ok q ∧
        q.feeBps = psm.computeFee vault.amount c.totalCollateral ∧
        q.expectedOut.toNat + q.expectedFee.toNat = n.toNat ∧
        feeCharged s s' (a.redemption n) = q.expectedFee.toNat ∧
        PaysOut rt s s' a.reserveVault q.expectedOut.toNat := by
  refine ⟨fun psm hbase => ⟨fun v t => PsmCurveConfig.computeFee_bounds hbase, fun v t => ?_,
    fun v v' t h => ?_, fun v t v' t' ht' h => PsmCurveConfig.computeFee_mono hbase ht' h⟩,
    fun s s' a n caller h => ?_⟩
  · rw [PsmCurveConfig.computeFee_ideal hbase]
    exact (PsmCurveConfig.computeFee_bounds hbase).1
  · rw [UInt64.toNat_div] at h
    exact PsmCurveConfig.computeFee_congr (PsmCurveConfig.imbalance_symm h)
  · obtain ⟨c, psm, vault, hd, hquote⟩ := psmDynamicSwapHandler_quoted caller h
    obtain ⟨hfee, hpays⟩ := Instruction.exec_charged rfl hd h
    have hfee' : feeCharged s s' (a.redemption n) = (psm.feeFor c vault n).toNat := hfee
    have hle : (psm.feeFor c vault n).toNat ≤ n.toNat := hfee' ▸ Nat.sub_le _ _
    have hout : (psm.quote c vault n).expectedOut.toNat =
        n.toNat - (psm.feeFor c vault n).toNat := UInt64.toNat_saturatingSub _ _
    refine ⟨c, psm, vault, _, hd, hquote, rfl, ?_, hfee', ?_⟩
    · rw [hout]
      exact Nat.sub_add_cancel hle
    · rw [hout, ← hfee']
      exact hpays

namespace Market

/-- A curve that starts at one percent and ends at ten. -/
def steep : PsmCurveConfig := { baseFeeBps := 100, curveK := 4000, maxFeeBps := 1000 }

end Market

open Market in
theorem psm_curve_steep :
    (steep.baseFeeBps ≤ steep.computeFee 90 100 ∧ steep.computeFee 90 100 ≤ steep.maxFeeBps) ∧
    (∃ s', (Instruction.psmDynamicSwap redemption 100).exec localRuntime (day 0)
        (run localRuntime genesis curved) = .ok s' ∧
      ∃ q, getPsmQuoteHandler (run localRuntime genesis curved)
          { caller := other, sssMint := mint.key, reserveVault := reserve.key } 100 = .ok q ∧
        q.feeBps = 100 ∧ q.expectedFee = 1 ∧ q.expectedOut = 99 ∧
        PaysOut localRuntime (run localRuntime genesis curved) s' reserve.key
          q.expectedOut.toNat) := by
  refine ⟨((psm_curve localRuntime (day 0)).1 steep (by decide)).1 90 100, ?_⟩
  obtain ⟨s', h⟩ : ∃ s', (Instruction.psmDynamicSwap redemption 100).exec localRuntime (day 0)
    (run localRuntime genesis curved) = .ok s' := isOk_iff.mp (by decide +kernel)
  obtain ⟨c, psm, vault, q, hd, hquote, hrate, hsplit, hfee, hpays⟩ :=
    (psm_curve localRuntime (day 0)).2 _ s' redemption 100 other h
  have hread : ((getPsmQuoteHandler (run localRuntime genesis curved)
      { caller := other, sssMint := mint.key, reserveVault := reserve.key } 100).map fun q =>
        (q.feeBps, q.expectedFee, q.expectedOut)).toOption = some (100, 1, 99) := by
    decide +kernel
  obtain ⟨q', hq', heq⟩ := toOption_map_eq_some.mp hread
  cases hquote.symm.trans hq'
  simp only [Prod.mk.injEq] at heq
  exact ⟨s', h, q, hquote, heq.1, heq.2.1, heq.2.2, hpays⟩

end SolanaStablecoin
