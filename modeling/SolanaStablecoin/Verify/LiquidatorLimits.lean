import SolanaStablecoin.Verify.Liquidation
import SolanaStablecoin.Verify.Accrual

/-! The two limits that a liquidator sets: what is repaid at most, and what collateral there is for
it at least. A `cdp_liquidate` that repays the principal takes the fees on top of it. -/

namespace SolanaStablecoin

variable {rt : Runtime} {clock : Clock} {s s' : State} {a : CdpLiquidate} {i : Instruction}
  {least repay : UInt64}

/-- What the liquidator is ready to repay is less than the principal or covers the fees as well.
`cdp_liquidate_v2` does not mind. -/
def Liquidation.WithinLimit (x : Liquidation) : Prop :=
  match x.engine with
  | .cdpLiquidate _ =>
    x.repay < x.accounts.position.debtAmount ∨ x.accounts.debt ≤ x.repay.toNat
  | .cdpLiquidateV2 _ => True

instance : DecidablePred Liquidation.WithinLimit
  | { engine := .cdpLiquidate _, accounts := l, repay, .. } =>
    inferInstanceAs (Decidable (repay < l.position.debtAmount ∨ l.debt ≤ repay.toNat))
  | { engine := .cdpLiquidateV2 _, .. } => inferInstanceAs (Decidable True)

variable {l : LiquidationAccounts} {price : OraclePrice} {debt burned seized : UInt64}

theorem Settles.burned_le_iff {cc : Option CollateralConfig}
    (h : Settles l cc price debt repay burned seized) (hdebt : debt.toNat = l.debt)
    (hrepay : 0 < repay) :
    burned ≤ repay ↔ repay < l.position.debtAmount ∨ l.debt ≤ repay.toNat := by
  rcases h with ⟨⟨-, hless⟩, hseize⟩ | ⟨hall, rfl, -⟩
  · simp only [seizePartial, bind_eq_ok, pure_eq_ok, Prod.mk.injEq] at hseize
    obtain ⟨-, -, -, -, -, -, -, -, -, -, -, -, -, -, -, -, -, -, rfl, -⟩ := hseize
    exact iff_of_true (UInt64.le_refl _) (.inl hless)
  · rw [UInt64.le_iff_toNat_le, hdebt]
    exact ⟨.inr, fun h => h.resolve_left fun hless => hall ⟨hrepay, hless⟩⟩

theorem SettlesV2.burned_le {cc : CollateralConfig}
    (h : SettlesV2 l cc price debt repay burned seized) (hrepay : 0 < repay) : burned ≤ repay := by
  obtain ⟨rfl, -⟩ := h
  split
  next hall => exact hall.resolve_left (UInt64.pos_iff_ne_zero.mp hrepay)
  · exact UInt64.le_refl _

/-- In a liquidation that goes through with an amount to repay, no more than that is burned and no
less than asked for is handed over just when the amount is within the limit. -/
theorem liquidator_limits (hrepay : 0 < repay)
    (hi : i = .cdpLiquidate a least repay ∨ i = .cdpLiquidateV2 a repay least)
    (h : i.exec rt clock s = .ok s') :
    ∃ x burned seized, i.liquidation rt clock s = some x ∧ a.Moves rt s burned seized s' ∧
      x.seized s s' = seized.toNat ∧
      (burned ≤ repay ∧ least ≤ seized ↔ x.WithinLimit) := by
  rcases hi with rfl | rfl
  · obtain ⟨l, cc, price, debt, burned, seized, hopens, hdebt, hsettles, hslippage, hcloses⟩ :=
      cdpLiquidateHandler_eq_ok.mp h
    have hliq := hopens.liquidated hsettles hcloses
    refine ⟨_, burned, seized, congrArg Except.toOption (hopens.liquidation repay), hliq.tokens,
      Liquidation.seized_of rfl rfl rfl hliq, ?_⟩
    rw [and_iff_left (checkSlippage_eq_ok.mp hslippage)]
    exact hsettles.burned_le_iff (checkLiquidatable_debt hdebt) hrepay
  · obtain ⟨l, cc, price, debt, burned, seized, hopens, -, hsettles, -, hslippage, hcloses⟩ :=
      cdpLiquidateV2Handler_eq_ok.mp h
    have hliq := hopens.liquidated hsettles hcloses
    exact ⟨_, burned, seized, congrArg Except.toOption (hopens.liquidation repay), hliq.tokens,
      Liquidation.seized_of rfl rfl rfl hliq,
      iff_of_true ⟨hsettles.burned_le hrepay, checkSlippage_eq_ok.mp hslippage⟩ trivial⟩

open Market in
/-- Half of the debt is within the limit. -/
theorem liquidator_limits_half : Genesis genesis ∧ ∃ s' burned seized,
    cdpLiquidateHandler localRuntime (day 0) (graduated 500) (liquidateUser false) 228 50 =
      .ok s' ∧
    (liquidateUser false).Moves localRuntime (graduated 500) burned seized s' ∧
    burned ≤ 50 ∧ 228 ≤ seized := by
  obtain ⟨s', h⟩ : ∃ s', cdpLiquidateHandler localRuntime (day 0) (graduated 500)
      (liquidateUser false) 228 50 = .ok s' := isOk_iff.mp (by decide +kernel)
  obtain ⟨x, burned, seized, hx, hmoves, -, hiff⟩ := liquidator_limits (by decide) (.inl rfl) h
  obtain ⟨y, hy, hwithin⟩ := Option.map_eq_some_iff.mp (show
    ((Instruction.cdpLiquidate (liquidateUser false) 228 50).liquidation localRuntime (day 0)
      (graduated 500)).map (fun x => decide x.WithinLimit) = some true by decide +kernel)
  cases hx.symm.trans hy
  exact ⟨genesis_genesis, s', burned, seized, h, hmoves, hiff.mpr (of_decide_eq_true hwithin)⟩

namespace Market

/-- The user owes 101 and fees of 20, has 121, and the price falls to 0.23. -/
def indebted : State :=
  run localRuntime genesis <| priced ++ [borrow 100 3] ++ savings ++
    [ publish 1 368, borrow 1 368,
      .world (.publishPythPrice feed
        { price := 23, conf := 0, expo := -2, publishTime := (day 368).unixTimestamp }) ]

end Market

open Market in
/-- A liquidator who wants to repay 101 loses 121. -/
theorem liquidator_limits_exceeded : Genesis genesis ∧
    (cdpLiquidateHandler localRuntime (day 368) indebted (liquidateUser false) 0 101).isOk ∧
    (indebted.tokens.accounts userStable.key).map (·.amount) = some 121 ∧
    ((run localRuntime indebted
      [.call (day 368) (.cdpLiquidate (liquidateUser false) 0 101)]).tokens.accounts
        userStable.key).map (·.amount) = some 0 :=
  ⟨genesis_genesis, by decide +kernel, by decide +kernel, by decide +kernel⟩

end SolanaStablecoin
