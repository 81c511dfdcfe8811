import SolanaStablecoin.Verify.Effects

/-! What the instructions of collateralised debt positions do when they succeed. -/

namespace SolanaStablecoin

variable {rt : Runtime} {clock : Clock} {s s' : State} {c : StablecoinConfig} {n : UInt64}

/-- The same owner, stablecoin and locked collateral. -/
structure CdpPosition.SameLock (p p' : CdpPosition) : Prop where
  owner : p'.owner = p.owner
  sssMint : p'.sssMint = p.sssMint
  collateralMint : p'.collateralMint = p.collateralMint

/-- What a call does to the total of a registered collateral when the config is `passed`: `x` goes
in and `y` comes out. -/
inductive Tallied (s : State) (mint collateral : Pubkey) (x y : Nat) (s' : State) :
    Bool → Prop where
  | omitted (same : s'.collateralConfigs = s.collateralConfigs) :
    Tallied s mint collateral x y s' false
  | counted {cc : CollateralConfig} {total : UInt64}
    (stored : s.collateralConfigs (.collateralConfig mint collateral) = some cc)
    (total_eq : cc.totalDeposited.toNat + x = total.toNat + y)
    (put_eq : s'.collateralConfigs = put s.collateralConfigs (.collateralConfig mint collateral)
      { cc with totalDeposited := total }) :
    Tallied s mint collateral x y s' true

/-- An optional config is there exactly when it is passed. -/
theorem loadCollateralConfig_eq_ok {passed : Bool} {mint collateral : Pubkey}
    {cc : Option CollateralConfig} (h : loadCollateralConfig s passed mint collateral = .ok cc) :
    passed = false ∧ cc = none ∨ passed = true ∧ ∃ c, cc = some c ∧
      s.collateralConfigs (.collateralConfig mint collateral) = some c := by
  cases passed with
  | false =>
    cases h
    exact .inl ⟨rfl, rfl⟩
  | true =>
    change (load s.collateralConfigs (.collateralConfig mint collateral) >>= fun c =>
      pure (some c)) = .ok cc at h
    simp only [bind_eq_ok, load_eq_ok, pure_eq_ok] at h
    obtain ⟨c, hc, rfl⟩ := h
    exact .inr ⟨rfl, c, rfl, hc⟩

theorem Tallied.of_addDeposited {passed : Bool} {mint collateral : Pubkey}
    {cc cc' : Option CollateralConfig} (h : loadCollateralConfig s passed mint collateral = .ok cc)
    (hadd : CollateralConfig.addDeposited n cc = .ok cc')
    (hput : s'.collateralConfigs =
      putOption s.collateralConfigs (.collateralConfig mint collateral) cc') :
    Tallied s mint collateral n.toNat 0 s' passed := by
  rcases loadCollateralConfig_eq_ok h with ⟨rfl, rfl⟩ | ⟨rfl, c, rfl, hc⟩
  · cases hadd
    exact .omitted hput
  · simp only [CollateralConfig.addDeposited, bind_eq_ok, Option.okOr_eq_ok, pure_eq_ok,
      UInt64.checkedAdd_eq_some] at hadd
    obtain ⟨x, hx, rfl⟩ := hadd
    exact .counted hc hx.symm hput

theorem Tallied.of_subDeposited {passed : Bool} {mint collateral : Pubkey}
    {cc cc' : Option CollateralConfig} (h : loadCollateralConfig s passed mint collateral = .ok cc)
    (hsub : CollateralConfig.subDeposited n cc = .ok cc')
    (hput : s'.collateralConfigs =
      putOption s.collateralConfigs (.collateralConfig mint collateral) cc') :
    Tallied s mint collateral 0 n.toNat s' passed := by
  rcases loadCollateralConfig_eq_ok h with ⟨rfl, rfl⟩ | ⟨rfl, c, rfl, hc⟩
  · cases hsub
    exact .omitted hput
  · simp only [CollateralConfig.subDeposited, bind_eq_ok, Option.okOr_eq_ok, pure_eq_ok,
      UInt64.checkedSub_eq_some] at hsub
    obtain ⟨x, hx, rfl⟩ := hsub
    exact .counted hc hx hput

/-- Nothing comes out, and the config is written back as it was. -/
theorem Tallied.of_same {passed : Bool} {mint collateral : Pubkey} {cc : Option CollateralConfig}
    (h : loadCollateralConfig s passed mint collateral = .ok cc)
    (hput : s'.collateralConfigs =
      putOption s.collateralConfigs (.collateralConfig mint collateral) cc) :
    Tallied s mint collateral 0 0 s' passed := by
  rcases loadCollateralConfig_eq_ok h with ⟨rfl, rfl⟩ | ⟨rfl, c, rfl, hc⟩
  · exact .omitted hput
  · exact .counted hc rfl hput

/-! ## cdp_deposit_collateral -/

/-- The user's collateral moves to an account of the vault, and the vault records the amount. -/
structure Deposited (rt : Runtime) (s : State) (a : CdpDepositCollateral) (n : UInt64)
    (s' : State) : Prop where
  configs : s'.configs = s.configs
  positions : s'.cdpPositions = s.cdpPositions
  records : s'.records = s.records
  source : ∃ b, s.tokens.accounts a.userCollateralAccount = some b ∧ b.owner = a.user.key
  destination : ∃ b, s.tokens.accounts a.vaultTokenAccount = some b ∧
    b.mint = a.collateralMint ∧ b.owner = .collateralVault a.sssMint a.user.key a.collateralMint
  tokens : s.tokens.Transfers a.userCollateralAccount a.collateralMint a.vaultTokenAccount
    a.user.key n (rt.token.transferFee s.tokens a.collateralMint n) s'.tokens
  vaults : ∃ v x, v = ((s.collateralVaults
      (.collateralVault a.sssMint a.user.key a.collateralMint)).getD {}).initialise a.user.key
        a.collateralMint a.vaultTokenAccount ∧
    x.toNat = v.depositedAmount.toNat + n.toNat ∧
    s'.collateralVaults = put s.collateralVaults
      (.collateralVault a.sssMint a.user.key a.collateralMint) { v with depositedAmount := x }
  admitted : a.collateralConfig = true → ∃ cc,
    s.collateralConfigs (.collateralConfig a.sssMint a.collateralMint) = some cc ∧
      cc.checkDeposit a.sssMint a.collateralMint n = .ok ()
  tallied : Tallied s a.sssMint a.collateralMint n.toNat 0 s' a.collateralConfig

theorem cdpDepositCollateralHandler_ok {a : CdpDepositCollateral}
    (h : cdpDepositCollateralHandler rt s a n = .ok s') : Deposited rt s a n s' := by
  simp [cdpDepositCollateralHandler, UInt64.checkedAdd_eq_some] at h
  obtain ⟨c, -, -, -, ⟨b, hb, hmint, howner⟩, ⟨b', hb', -, howner'⟩, yc, -, cc, hcc, -, -, -,
    ⟨_, hcheck⟩, t, ht, x, hx, cc', hadd, rfl⟩ := h
  exact
    { configs := rfl
      positions := rfl
      records := rfl
      source := ⟨b', hb', howner'⟩
      destination := ⟨b, hb, hmint, howner⟩
      tokens := rt.token.transferChecked_ok ht
      vaults := ⟨_, x, rfl, hx, rfl⟩
      admitted := fun hpassed => by
        rcases loadCollateralConfig_eq_ok hcc with ⟨hnot, -⟩ | ⟨-, c, rfl, hc⟩
        · rw [hpassed] at hnot
          cases hnot
        · exact ⟨c, hc, hcheck⟩
      tallied := .of_addDeposited hcc hadd rfl }

/-! ## cdp_borrow_stable -/

/-- The position of the borrower, blank before the first borrow. -/
def CdpBorrowStable.position (a : CdpBorrowStable) (s : State) : CdpPosition :=
  (s.cdpPositions (.cdpPosition a.sssMint a.user.key)).getD {}

/-- A position in use is locked already, and keeps its lock. -/
theorem CdpPosition.touch_ok {p q : CdpPosition} {config mint user collateral : Pubkey}
    {now : Int64} {fees : UInt64} (h : p.touch config mint user collateral now fees = .ok q) :
    q.collateralMint = collateral ∧ q.debtAmount = p.debtAmount ∧
      (p.owner ≠ .default → p.SameLock q) ∧ (p.owner = .default → q.owner = user) ∧
      q.accruedFees ≤ fees := by
  unfold CdpPosition.touch at h
  split at h
  next hdefault =>
    cases h
    exact ⟨rfl, rfl, fun hne => absurd hdefault hne, fun _ => rfl, UInt64.zero_le⟩
  next hne =>
    simp at h
    obtain ⟨hmint, rfl⟩ := h
    exact ⟨hmint, rfl, fun _ => ⟨rfl, rfl, rfl⟩, fun hdefault => absurd hdefault hne,
      UInt64.le_refl _⟩

/-- What is minted is added to the debt of a position that is locked to the vault's mint. -/
structure Borrowed (clock : Clock) (s : State) (a : CdpBorrowStable) (n : UInt64) (s' : State)
    (c : StablecoinConfig) (v : CollateralVault) : Prop
    extends Issued s c a.sssMint a.userSssAccount n s' where
  preset : c.preset = 3
  positive : 0 < n
  vault : s.collateralVaults (.collateralVault a.sssMint a.user.key a.collateralMint) = some v
  vaults : s'.collateralVaults = s.collateralVaults
  records : s'.records = s.records
  positions : ∃ p x,
    (a.position s).touch (.stablecoinConfig a.sssMint) a.sssMint a.user.key a.collateralMint
      clock.unixTimestamp ((a.position s).totalAccrued c clock.unixTimestamp) = .ok p ∧
    x.toNat = p.debtAmount.toNat + n.toNat ∧
    s'.cdpPositions = put s.cdpPositions (.cdpPosition a.sssMint a.user.key)
      { p with debtAmount := x }

/-- The old debt, all fees and the amount together are at most what the vault's collateral
allows at the oracle price. -/
structure Collateralised (rt : Runtime) (clock : Clock) (s : State) (a : CdpBorrowStable)
    (n : UInt64) (c : StablecoinConfig) (v : CollateralVault) (price : OraclePrice)
    (sssMint collateralMint : Mint) : Prop where
  sssMint_eq : s.tokens.mints a.sssMint = some sssMint
  collateralMint_eq : s.tokens.mints a.collateralMint = some collateralMint
  price_eq : ∃ oc, loadOracleConsensus s a.oracleConsensus a.sssMint = .ok oc ∧
    getEffectiveOraclePrice rt clock s a.pythPriceFeed c oc = .ok price
  deposited : 0 < v.depositedAmount
  debt_le : ∃ value max,
    collateralValueUsdE6 v.depositedAmount price collateralMint.decimals = .ok value ∧
    maxBorrowSss value sssMint.decimals = .ok max ∧
    (a.position s).debtAmount.toNat +
      ((a.position s).totalAccrued c clock.unixTimestamp).toNat + n.toNat ≤ max

theorem cdpBorrowStableHandler_ok {a : CdpBorrowStable}
    (h : cdpBorrowStableHandler rt clock s a n = .ok s') :
    ∃ c v price m m', Borrowed clock s a n s' c v ∧
      Collateralised rt clock s a n c v price m m' := by
  simp [cdpBorrowStableHandler, UInt64.checkedAdd_eq_some] at h
  obtain ⟨c, m, ⟨hc, hpreset, hm, hmint⟩, hrun, m', hm', v, ⟨hv, -⟩, -, oc, hoc, -, hpos, hcb,
    -, price, hprice, hdep, value, hvalue, max, hmax, hle, t, ht, p, hp, x, hx, y, hy, rfl⟩ := h
  refine ⟨c, v, price, m, m', ?_, ?_⟩
  · exact
      { Posted.of_addMinted hc hmint hy rfl with
        running := hrun
        breaker := hcb
        tokens := rt.token.mintTo_ok ht
        preset := hpreset
        positive := hpos
        vault := hv
        vaults := rfl
        records := rfl
        positions := ⟨p, x, hp, hx, rfl⟩ }
  · exact
      { sssMint_eq := hm
        collateralMint_eq := hm'
        price_eq := ⟨oc, hoc, hprice⟩
        deposited := hdep
        debt_le := ⟨value, max, hvalue, hmax, hle⟩ }

/-! ## cdp_repay_stable -/

/-- Debt and fees are burned; the vault that the caller names releases collateral in proportion
to the debt. Whether the position is locked to that vault is not checked. -/
structure Repaid (rt : Runtime) (s : State) (a : CdpRepayStable) (n : UInt64) (s' : State)
    (c : StablecoinConfig) (p : CdpPosition) (v : CollateralVault) (released : UInt64) : Prop where
  preset : c.preset = 3
  position : s.cdpPositions (.cdpPosition a.sssMint a.user.key) = some p
  vault : s.collateralVaults (.collateralVault a.sssMint a.user.key a.collateralMint) = some v
  registered : a.vaultTokenAccount = v.vaultTokenAccount
  positive : 0 < n
  le_debt : n ≤ p.debtAmount
  released_eq : released.toNat = v.depositedAmount.toNat * n.toNat / p.debtAmount.toNat
  burned : ∃ total t, total.toNat = n.toNat + p.accruedFees.toNat ∧
    Posted s c a.sssMint 0 total.toNat s' ∧
    s.tokens.Burns a.sssMint a.userSssAccount a.user.key total t ∧
    (released ≠ 0 ∧ t.Transfers a.vaultTokenAccount a.collateralMint a.userCollateralAccount
        (.collateralVault a.sssMint a.user.key a.collateralMint) released
        (rt.token.transferFee t a.collateralMint released) s'.tokens ∨
      released = 0 ∧ s'.tokens = t)
  records : s'.records = s.records
  positions : ∃ x, p.debtAmount.toNat = x.toNat + n.toNat ∧
    s'.cdpPositions = put s.cdpPositions (.cdpPosition a.sssMint a.user.key)
      { p with
        debtAmount := x
        accruedFees := 0 }
  vaults : ∃ x, v.depositedAmount.toNat = x.toNat + released.toNat ∧
    s'.collateralVaults = put s.collateralVaults
      (.collateralVault a.sssMint a.user.key a.collateralMint) { v with depositedAmount := x }
  tallied : Tallied s a.sssMint a.collateralMint 0 released.toNat s' a.collateralConfig

/-- What is released is at most what was deposited, so it fits in 64 bits. -/
theorem collateralToRelease_ok {deposited amount debt x : UInt64}
    (h : collateralToRelease deposited amount debt = .ok x) (hpos : 0 < amount)
    (hle : amount ≤ debt) : x.toNat = deposited.toNat * amount.toNat / debt.toNat := by
  have hle' := UInt64.le_iff_toNat_le.mp hle
  have hdebt : 0 < debt := UInt64.lt_of_lt_of_le hpos hle
  rw [collateralToRelease, if_pos hdebt] at h
  simp [U128.checkedMul_eq_some] at h
  obtain ⟨-, rfl⟩ := h
  rw [UInt64.toNat_ofNat_of_lt']
  refine lt_of_le_of_lt (Nat.div_le_of_le_mul ?_) deposited.toNat_lt
  rw [Nat.mul_comm debt.toNat]
  exact Nat.mul_le_mul_left _ hle'

/-- No more is released than is there. -/
theorem collateralToRelease_le {deposited amount debt x : UInt64}
    (h : collateralToRelease deposited amount debt = .ok x) (hpos : 0 < amount)
    (hle : amount ≤ debt) : x ≤ deposited := by
  rw [UInt64.le_iff_toNat_le, collateralToRelease_ok h hpos hle, Nat.mul_comm]
  exact Nat.div_le_of_le_mul (Nat.mul_le_mul_right _ (UInt64.le_iff_toNat_le.mp hle))

theorem cdpRepayStableHandler_ok {a : CdpRepayStable}
    (h : cdpRepayStableHandler rt s a n = .ok s') :
    ∃ c p v released, Repaid rt s a n s' c p v released := by
  simp [cdpRepayStableHandler, UInt64.checkedAdd_eq_some, UInt64.checkedSub_eq_some] at h
  obtain ⟨c, ⟨hc, hpreset, -, hm⟩, -, p, ⟨hp, -⟩, v, ⟨hv, -⟩, -, ⟨b, -, hreg, -⟩, -, cc, hcc, hpos,
    -, hle, released, hrel, total, htotal, t, ht, t', htransfer, x, hx, y, hy, cc', hsub, z, hz,
    rfl⟩ := h
  refine ⟨c, p, v, released, ?_⟩
  exact
    { preset := hpreset
      position := hp
      vault := hv
      registered := hreg
      positive := hpos
      le_debt := hle
      released_eq := collateralToRelease_ok hrel hpos hle
      burned := by
        refine ⟨total, t, htotal, .of_addBurned hc hm hz rfl, rt.token.burn_ok ht, ?_⟩
        rcases htransfer with ⟨hne, h⟩ | ⟨heq, rfl⟩
        · exact .inl ⟨UInt64.pos_iff_ne_zero.mp hne, rt.token.transferChecked_ok h⟩
        · exact .inr ⟨heq, rfl⟩
      records := rfl
      positions := ⟨x, hx, rfl⟩
      vaults := ⟨y, hy, rfl⟩
      tallied := by
        rcases hsub with ⟨-, hsub⟩ | ⟨rfl, rfl⟩
        · exact .of_subDeposited hcc hsub rfl
        · exact .of_same hcc rfl }

/-! ## Liquidation -/

/-- The liquidator's stablecoins are burned, and the vault that the position is locked to hands
over collateral. -/
structure Liquidated (rt : Runtime) (s : State) (a : CdpLiquidate) (s' : State)
    (c : StablecoinConfig) (p p' : CdpPosition) (v : CollateralVault) (burned seized : UInt64) :
    Prop extends Posted s c a.sssMint 0 burned.toNat s' where
  preset : c.preset = 3
  position : s.cdpPositions (.cdpPosition a.sssMint a.cdpOwner) = some p
  locked : p.collateralMint = a.collateralMint
  vault : s.collateralVaults (.collateralVault a.sssMint a.cdpOwner a.collateralMint) = some v
  registered : a.vaultTokenAccount = v.vaultTokenAccount
  tokens : ∃ t, s.tokens.Burns a.sssMint a.liquidatorSssAccount a.liquidator.key burned t ∧
    t.Transfers a.vaultTokenAccount a.collateralMint a.liquidatorCollateralAccount
      (.collateralVault a.sssMint a.cdpOwner a.collateralMint) seized
      (rt.token.transferFee t a.collateralMint seized) s'.tokens
  sameLock : p.SameLock p'
  debt_le : p'.debtAmount ≤ p.debtAmount
  accrual : p'.lastFeeAccrual = p.lastFeeAccrual
  records : s'.records = s.records
  positions : s'.cdpPositions = put s.cdpPositions (.cdpPosition a.sssMint a.cdpOwner) p'
  vaults : s'.collateralVaults = put s.collateralVaults
    (.collateralVault a.sssMint a.cdpOwner a.collateralMint)
    { v with depositedAmount := v.depositedAmount.saturatingSub seized }
  seized_le : seized ≤ v.depositedAmount

/-- The accounts that both engines load. -/
structure CdpLiquidate.Loaded (a : CdpLiquidate) (s : State) (l : LiquidationAccounts) :
    Prop where
  config : s.configs (.stablecoinConfig a.sssMint) = some l.config
  mint_eq : a.sssMint = l.config.mint
  preset : l.config.preset = 3
  sssMint : ∃ m, s.tokens.mints a.sssMint = some m ∧ l.sssDecimals = m.decimals
  position : s.cdpPositions (.cdpPosition a.sssMint a.cdpOwner) = some l.position
  locked : l.position.collateralMint = a.collateralMint
  vault : s.collateralVaults (.collateralVault a.sssMint a.cdpOwner a.collateralMint) =
    some l.vault
  collateralMint : ∃ m, s.tokens.mints a.collateralMint = some m ∧
    l.collateralDecimals = m.decimals
  registered : a.vaultTokenAccount = l.vault.vaultTokenAccount

theorem CdpLiquidate.load_ok {a : CdpLiquidate} {l : LiquidationAccounts}
    (h : a.load s = .ok l) : a.Loaded s l := by
  simp [CdpLiquidate.load] at h
  obtain ⟨c, m, ⟨hc, hpreset, hm, hmint⟩, -, p, ⟨hp, -⟩, hlock, v, ⟨hv, -⟩, m', hm',
    ⟨b, -, hreg, -⟩, -, rfl⟩ := h
  exact
    { config := hc
      mint_eq := hmint
      preset := hpreset
      sssMint := ⟨m, hm, rfl⟩
      position := hp
      locked := hlock
      vault := hv
      collateralMint := ⟨m', hm', rfl⟩
      registered := hreg }

theorem CdpLiquidate.loadsCollateralConfig {a : CdpLiquidate} {passed : Bool} {e : SssError}
    {cc : Option CollateralConfig} (h : a.loadCollateralConfig s passed e = .ok cc) :
    SolanaStablecoin.loadCollateralConfig s passed a.sssMint a.collateralMint = .ok cc := by
  simp only [CdpLiquidate.loadCollateralConfig, bind_eq_ok, pure_eq_ok] at h
  obtain ⟨cc', hcc, -, -, rfl⟩ := h
  exact hcc

theorem saturatingSub_le (x y : UInt64) : x.saturatingSub y ≤ x := by
  rw [UInt64.le_iff_toNat_le, UInt64.toNat_saturatingSub]
  exact Nat.sub_le ..

/-- What a liquidation may make of a position. -/
structure CdpPosition.Reduces (p p' : CdpPosition) : Prop where
  sameLock : p.SameLock p'
  debt_le : p'.debtAmount ≤ p.debtAmount
  accrual : p'.lastFeeAccrual = p.lastFeeAccrual

theorem CdpPosition.afterLiquidation_reduces (p : CdpPosition) :
    p.Reduces (p.afterLiquidation n) :=
  ⟨⟨rfl, rfl, rfl⟩, saturatingSub_le .., rfl⟩

theorem CdpPosition.afterLiquidationV2_reduces (p : CdpPosition) :
    p.Reduces (p.afterLiquidationV2 n) := by
  unfold CdpPosition.afterLiquidationV2
  split
  · exact ⟨⟨rfl, rfl, rfl⟩, UInt64.zero_le, rfl⟩
  · exact ⟨⟨rfl, rfl, rfl⟩, saturatingSub_le .., rfl⟩

/-- What both engines do with the amounts they have settled on. -/
theorem CdpLiquidate.store_ok {a : CdpLiquidate} {l : LiquidationAccounts} {t : Tokens}
    {burned seized x : UInt64} {p' : CdpPosition} {cc cc' : Option CollateralConfig}
    {passed : Bool} {e : SssError}
    (hl : a.Loaded s l) (ht : a.settle rt s burned seized = .ok t)
    (hx : x.toNat = l.config.totalBurned.toNat + burned.toNat) (hp' : l.position.Reduces p')
    (hseized : seized ≤ l.vault.depositedAmount)
    (hcc : a.loadCollateralConfig s passed e = .ok cc)
    (hsub : CollateralConfig.subDeposited seized cc = .ok cc')
    (hs' : s' = a.store s t { l.config with totalBurned := x } p'
      { l.vault with depositedAmount := l.vault.depositedAmount.saturatingSub seized } cc') :
    Liquidated rt s a s' l.config l.position p' l.vault burned seized ∧
      Tallied s a.sssMint a.collateralMint 0 seized.toNat s' passed := by
  simp [CdpLiquidate.settle] at ht
  obtain ⟨t', hburn, htransfer⟩ := ht
  subst hs'
  refine ⟨?_, .of_subDeposited (CdpLiquidate.loadsCollateralConfig hcc) hsub rfl⟩
  exact
    { Posted.of_addBurned hl.config hl.mint_eq hx rfl with
      preset := hl.preset
      position := hl.position
      locked := hl.locked
      vault := hl.vault
      registered := hl.registered
      tokens := ⟨t', rt.token.burn_ok hburn, rt.token.transferChecked_ok htransfer⟩
      sameLock := hp'.sameLock
      debt_le := hp'.debt_le
      accrual := hp'.accrual
      records := rfl
      positions := rfl
      vaults := rfl
      seized_le := hseized }

/-- No more is seized than is there. -/
theorem seizePartial_le {l : LiquidationAccounts} {price : OraclePrice}
    {repay burned seized : UInt64} {threshold : Nat} {bonusBps : UInt16}
    (h : seizePartial l price repay threshold bonusBps = .ok (burned, seized)) :
    seized ≤ l.vault.depositedAmount := by
  simp only [seizePartial, bind_eq_ok, pure_eq_ok, Prod.mk.injEq] at h
  obtain ⟨-, -, -, -, -, -, -, -, -, -, -, -, v, -, -, -, -, -, -, rfl⟩ := h
  rw [UInt64.le_iff_toNat_le,
    UInt64.toNat_ofNat_of_lt' ((min_le_right _ _).trans_lt l.vault.depositedAmount.toNat_lt)]
  exact min_le_right _ _

theorem seizeV2_le {l : LiquidationAccounts} {price : OraclePrice} {total repaid seized : UInt64}
    {bonusBps : UInt16} (h : seizeV2 l price total repaid bonusBps = .ok seized) :
    seized ≤ l.vault.depositedAmount := by
  simp only [seizeV2, bind_eq_ok] at h
  obtain ⟨-, -, -, -, -, -, -, -, -, -, -, -, v, -, h⟩ := h
  split at h
  · cases h
    exact UInt64.le_refl _
  next hless =>
    cases h
    have hlt : v / 1000000 < l.vault.depositedAmount.toNat := by
      by_contra hge
      exact hless (.inl (not_lt.mp hge))
    rw [UInt64.le_iff_toNat_le,
      UInt64.toNat_ofNat_of_lt' (hlt.trans l.vault.depositedAmount.toNat_lt)]
    exact hlt.le

/-- The debt that a liquidation burns and the collateral that it seizes: everything, or what a
partial repayment comes to. -/
def Settles (l : LiquidationAccounts) (cc : Option CollateralConfig) (price : OraclePrice)
    (debt repay burned seized : UInt64) : Prop :=
  (0 < repay ∧ repay < l.position.debtAmount) ∧
      seizePartial l price repay (liquidationParams cc).1 (liquidationParams cc).2 =
        .ok (burned, seized) ∨
    ¬(0 < repay ∧ repay < l.position.debtAmount) ∧ debt = burned ∧
      l.vault.depositedAmount = seized

theorem Settles.seized_le {l : LiquidationAccounts} {cc : Option CollateralConfig}
    {price : OraclePrice} {debt repay burned seized : UInt64}
    (h : Settles l cc price debt repay burned seized) : seized ≤ l.vault.depositedAmount := by
  rcases h with ⟨-, hpartial⟩ | ⟨-, -, rfl⟩
  · exact seizePartial_le hpartial
  · exact UInt64.le_refl _

/-- The same with the accounts as they are loaded, and the amounts. -/
theorem cdpLiquidateHandler_settles {a : CdpLiquidate} {min repay : UInt64}
    (h : cdpLiquidateHandler rt clock s a min repay = .ok s') :
    ∃ l cc oc price debt p' burned seized, a.load s = .ok l ∧
      a.loadCollateralConfig s a.collateralConfig .unauthorized = .ok cc ∧
      loadOracleConsensus s a.oracleConsensus a.sssMint = .ok oc ∧
      getEffectiveOraclePrice rt clock s a.pythPriceFeed l.config oc = .ok price ∧
      checkLiquidatable l price (liquidationParams cc).1 = .ok debt ∧
      Settles l cc price debt repay burned seized ∧
      Liquidated rt s a s' l.config l.position p' l.vault burned seized ∧
      Tallied s a.sssMint a.collateralMint 0 seized.toNat s' a.collateralConfig := by
  simp only [cdpLiquidateHandler, bind_eq_ok, pure_eq_ok, Prod.exists, onlyWhen_eq_ok,
    Prod.mk.injEq, StablecoinConfig.addBurned_eq_ok] at h
  obtain ⟨l, hl, cc, hcc, oc, hoc, -, -, -, -, -, -, -, -, price, hprice, debt, hdebt, burned,
    seized, hamount, -, -, t, ht, cc', hsub, c', ⟨x, hx, rfl⟩, rfl⟩ := h
  exact ⟨l, cc, oc, price, debt, _, burned, seized, hl, hcc, hoc, hprice, hdebt, hamount,
    CdpLiquidate.store_ok (CdpLiquidate.load_ok hl) ht hx l.position.afterLiquidation_reduces
      (Settles.seized_le hamount) hcc hsub rfl⟩

/-- The liquidation is for a loaded position that the price makes liquidatable. -/
theorem cdpLiquidateHandler_ok {a : CdpLiquidate} {min repay : UInt64}
    (h : cdpLiquidateHandler rt clock s a min repay = .ok s') :
    ∃ l cc oc price debt p' burned seized, a.Loaded s l ∧
      a.loadCollateralConfig s a.collateralConfig .unauthorized = .ok cc ∧
      loadOracleConsensus s a.oracleConsensus a.sssMint = .ok oc ∧
      getEffectiveOraclePrice rt clock s a.pythPriceFeed l.config oc = .ok price ∧
      checkLiquidatable l price (liquidationParams cc).1 = .ok debt ∧
      Liquidated rt s a s' l.config l.position p' l.vault burned seized := by
  obtain ⟨l, cc, oc, price, debt, p', burned, seized, hl, hcc, hoc, hprice, hdebt, -, h, -⟩ :=
    cdpLiquidateHandler_settles h
  exact ⟨l, cc, oc, price, debt, p', burned, seized, CdpLiquidate.load_ok hl, hcc, hoc, hprice,
    hdebt, h⟩

/-- The debt that `cdp_liquidate_v2` burns and the collateral that it seizes. -/
def SettlesV2 (l : LiquidationAccounts) (cc : CollateralConfig) (price : OraclePrice)
    (debt repay burned seized : UInt64) : Prop :=
  (if repay = 0 ∨ debt ≤ repay then debt else repay) = burned ∧
    seizeV2 l price debt burned cc.liquidationBonusBps = .ok seized

theorem cdpLiquidateV2Handler_settles {a : CdpLiquidate} {repay min : UInt64}
    (h : cdpLiquidateV2Handler rt clock s a repay min = .ok s') :
    ∃ l cc price debt p' burned seized, a.load s = .ok l ∧
      a.loadCollateralConfig s true .invalidCollateralMint = .ok (some cc) ∧
      liquidateV2Price rt clock s l.config a.pythPriceFeed = .ok price ∧
      cc.whitelisted = true ∧
      checkLiquidatable l price cc.liquidationThresholdBps.toNat = .ok debt ∧
      SettlesV2 l cc price debt repay burned seized ∧
      Liquidated rt s a s' l.config l.position p' l.vault burned seized ∧
      Tallied s a.sssMint a.collateralMint 0 seized.toNat s' true := by
  simp [cdpLiquidateV2Handler] at h
  obtain ⟨l, hl, cc, hcc, -, -, price, hprice, hwhite, debt, hdebt, seized, hseize, -, -, t, ht,
    cc', hsub, x, hx, rfl⟩ := h
  exact ⟨l, cc, price, debt, _, _, seized, hl, hcc, hprice, hwhite, hdebt, ⟨rfl, hseize⟩,
    CdpLiquidate.store_ok (CdpLiquidate.load_ok hl) ht hx l.position.afterLiquidationV2_reduces
      (seizeV2_le hseize) hcc hsub rfl⟩

theorem cdpLiquidateV2Handler_ok {a : CdpLiquidate} {repay min : UInt64}
    (h : cdpLiquidateV2Handler rt clock s a repay min = .ok s') :
    ∃ l cc price debt p' burned seized, a.Loaded s l ∧
      a.loadCollateralConfig s true .invalidCollateralMint = .ok (some cc) ∧
      liquidateV2Price rt clock s l.config a.pythPriceFeed = .ok price ∧
      cc.whitelisted = true ∧
      checkLiquidatable l price cc.liquidationThresholdBps.toNat = .ok debt ∧
      Liquidated rt s a s' l.config l.position p' l.vault burned seized := by
  obtain ⟨l, cc, price, debt, p', burned, seized, hl, hcc, hprice, hwhite, hdebt, -, h, -⟩ :=
    cdpLiquidateV2Handler_settles h
  exact ⟨l, cc, price, debt, p', burned, seized, CdpLiquidate.load_ok hl, hcc, hprice, hwhite,
    hdebt, h⟩

/-! ## collect_stability_fee -/

/-- Only the accrual of the position changes. -/
structure Accrued (s s' : State) (sssMint debtor : Pubkey) : Prop where
  vaults : s'.collateralVaults = s.collateralVaults
  records : s'.records = s.records
  positions : s'.cdpPositions = s.cdpPositions ∨ ∃ p p',
    s.cdpPositions (.cdpPosition sssMint debtor) = some p ∧ p.SameLock p' ∧
      p'.debtAmount = p.debtAmount ∧
      s'.cdpPositions = put s.cdpPositions (.cdpPosition sssMint debtor) p'

/-- Nothing is burned, or what is due is. -/
theorem collectStabilityFeeHandler_ok {a : CollectStabilityFee}
    (h : collectStabilityFeeHandler rt clock s a = .ok s') :
    ∃ c, s.configs (.stablecoinConfig a.sssMint) = some c ∧ c.paused = false ∧
      Accrued s s' a.sssMint a.debtor ∧
      (s'.tokens = s.tokens ∧ s'.configs = s.configs ∨ ∃ n, Retired s c a.sssMint n s') := by
  simp only [collectStabilityFeeHandler, bind_eq_ok, loadSss3OfMint_eq_ok, Prod.exists,
    StablecoinConfig.requireNotPaused_eq_ok, load_eq_ok, require_eq_ok] at h
  obtain ⟨c, m, ⟨hc, -, -, hm⟩, -, hrun, p, hp, b, -, -, -, -, -, -, -, h⟩ := h
  refine ⟨c, hc, hrun, ?_⟩
  split at h
  · cases h
    exact ⟨⟨rfl, rfl, .inl rfl⟩, .inl ⟨rfl, rfl⟩⟩
  split at h
  · cases h
    exact ⟨⟨rfl, rfl, .inl rfl⟩, .inl ⟨rfl, rfl⟩⟩
  simp only [bind_eq_ok] at h
  obtain ⟨fee, -, total, -, h⟩ := h
  split at h
  · cases h
    refine ⟨⟨rfl, rfl, .inr ⟨p, _, hp, ?_, ?_, rfl⟩⟩, .inl ⟨rfl, rfl⟩⟩
    · exact ⟨rfl, rfl, rfl⟩
    · rfl
  · simp at h
    obtain ⟨t, ht, x, hx, rfl⟩ := h
    refine ⟨⟨rfl, rfl, .inr ⟨p, _, hp, ?_, ?_, rfl⟩⟩, .inr ⟨total, ?_⟩⟩
    · exact ⟨rfl, rfl, rfl⟩
    · rfl
    · exact { Posted.of_addBurned hc hm hx rfl with tokens := .of_burn rfl ht }

end SolanaStablecoin
