import SolanaStablecoin.Program.Issue

/-! Collateralised debt positions: per-collateral parameters, deposits, borrowing, repayment, the
two liquidation engines and the collection of stability fees. -/

namespace SolanaStablecoin

variable (rt : Runtime) (clock : Clock) (s : State)

/-! ## Collateral parameters -/

structure CollateralParams where
  whitelisted : Bool
  maxLtvBps : UInt16
  liquidationThresholdBps : UInt16
  liquidationBonusBps : UInt16
  maxDepositCap : UInt64

structure CollateralAdmin where
  authority : Signer
  sssMint : Pubkey
  collateralMint : Pubkey

def CollateralAdmin.collateralConfig (a : CollateralAdmin) : Pubkey :=
  .collateralConfig a.sssMint a.collateralMint

/-- A stablecoin with a timelock accepts new parameters only from its multisig. -/
def CollateralAdmin.check (a : CollateralAdmin) (p : CollateralParams) : Result Unit := do
  let config ← load s.configs (.stablecoinConfig a.sssMint)
  require (config.preset = 3) (.sss .invalidPreset)
  require (config.authority = a.authority.key) (.sss .unauthorized)
  let _ ← load s.tokens.mints a.sssMint
  let _ ← load s.tokens.mints a.collateralMint
  requireWhen (config.adminTimelockDelay > 0) <|
    require (config.featureFlags &&& flagSquadsAuthority ≠ 0) (.sss .timelockRequired)
  checkSquads config a.authority.key
  CollateralConfig.validate p.maxLtvBps p.liquidationThresholdBps p.liquidationBonusBps

def registerCollateralHandler (a : CollateralAdmin) (p : CollateralParams) : Result State := do
  requireFree s.collateralConfigs a.collateralConfig
  a.check s p
  pure { s with
    collateralConfigs := put s.collateralConfigs a.collateralConfig
      { sssMint := a.sssMint, collateralMint := a.collateralMint
        whitelisted := p.whitelisted, maxLtvBps := p.maxLtvBps
        liquidationThresholdBps := p.liquidationThresholdBps
        liquidationBonusBps := p.liquidationBonusBps, maxDepositCap := p.maxDepositCap } }

def updateCollateralConfigHandler (a : CollateralAdmin) (p : CollateralParams) :
    Result State := do
  let cc ← load s.collateralConfigs a.collateralConfig
  require (cc.sssMint = a.sssMint ∧ cc.collateralMint = a.collateralMint)
    (.anchor .constraintRaw)
  a.check s p
  pure { s with
    collateralConfigs := put s.collateralConfigs a.collateralConfig
      { cc with
        whitelisted := p.whitelisted, maxLtvBps := p.maxLtvBps
        liquidationThresholdBps := p.liquidationThresholdBps
        liquidationBonusBps := p.liquidationBonusBps, maxDepositCap := p.maxDepositCap } }

/-! ## Loading the accounts of a position -/

/-- The config of an SSS-3 stablecoin. -/
def loadSss3 (sssMint : Pubkey) : Result StablecoinConfig := do
  let config ← load s.configs (.stablecoinConfig sssMint)
  require (config.preset = 3) (.sss .invalidPreset)
  pure config

/-- The same, where the mint must also be the one recorded. -/
def loadSss3OfMint (sssMint : Pubkey) : Result (StablecoinConfig × Mint) := do
  let config ← loadSss3 s sssMint
  let mint ← load s.tokens.mints sssMint
  require (sssMint = config.mint) (.anchor .constraintRaw)
  pure (config, mint)

/-- A token account of the given mint and owner. -/
def requireTokenAccount (k mint owner : Pubkey) : Result Unit := do
  let account ← load s.tokens.accounts k
  require (account.mint = mint) (.anchor .constraintRaw)
  require (account.owner = owner) (.anchor .constraintRaw)

def loadPosition (sssMint owner : Pubkey) : Result CdpPosition := do
  let position ← load s.cdpPositions (.cdpPosition sssMint owner)
  require (position.owner = owner) (.anchor .constraintRaw)
  require (position.sssMint = sssMint) (.anchor .constraintRaw)
  pure position

def loadVault (sssMint owner collateralMint : Pubkey) : Result CollateralVault := do
  let vault ← load s.collateralVaults (.collateralVault sssMint owner collateralMint)
  require (vault.owner = owner) (.anchor .constraintRaw)
  require (vault.collateralMint = collateralMint) (.anchor .constraintRaw)
  pure vault

/-- The token account that the vault has registered. -/
def requireVaultTokenAccount (vault : CollateralVault) (k collateralMint : Pubkey) :
    Result Unit := do
  let account ← load s.tokens.accounts k
  require (k = vault.vaultTokenAccount) (.anchor .constraintRaw)
  require (account.mint = collateralMint) (.anchor .constraintRaw)

/-- An optional account without a prescribed address. -/
def loadOptional {α : Type} (m : Pubkey → Option α) : Option Pubkey → Result (Option α)
  | some k => do
    let a ← load m k
    pure (some a)
  | none => pure none

/-- An optional collateral config, loaded from its derived address when it is passed. -/
def loadCollateralConfig (passed : Bool) (sssMint collateralMint : Pubkey) :
    Result (Option CollateralConfig) :=
  if passed then do
    let cc ← load s.collateralConfigs (.collateralConfig sssMint collateralMint)
    pure (some cc)
  else pure none

def loadOracleConsensus (passed : Bool) (sssMint : Pubkey) : Result (Option OracleConsensus) :=
  if passed then do
    let oc ← load s.oracleConsensuses (.oracleConsensus sssMint)
    require (oc.mint = sssMint) (.sss .oracleConsensusNotFound)
    pure (some oc)
  else pure none

/-- Write an optional account back. -/
def putOption {α : Type} (m : Pubkey → Option α) (k : Pubkey) : Option α → Pubkey → Option α
  | some a => put m k a
  | none => m

/-! ## cdp_deposit_collateral -/

structure CdpDepositCollateral where
  user : Signer
  sssMint : Pubkey
  collateralMint : Pubkey
  vaultTokenAccount : Pubkey
  userCollateralAccount : Pubkey
  yieldCollateralConfig : Option Pubkey := none
  /-- Whether the optional `CollateralConfig` is passed. -/
  collateralConfig : Bool := false

/-- With `FLAG_YIELD_COLLATERAL` only whitelisted mints may be deposited. -/
def checkYieldCollateral (config : StablecoinConfig) (sssMint collateralMint : Pubkey)
    (ycConfig : Option YieldCollateralConfig) : Result Unit :=
  requireWhen (config.featureFlags &&& flagYieldCollateral ≠ 0) do
    let ycConfig ← ycConfig.okOr (.sss .yieldCollateralNotEnabled)
    require (ycConfig.sssMint = sssMint) (.sss .invalidCollateralMint)
    require (collateralMint ∈ ycConfig.whitelistedMints) (.sss .collateralMintNotWhitelisted)

/-- The account belongs to this pair of mints, is whitelisted, and has room under its cap. -/
def CollateralConfig.checkDeposit (cc : CollateralConfig) (sssMint collateralMint : Pubkey)
    (amount : UInt64) : Result Unit := do
  require (cc.sssMint = sssMint ∧ cc.collateralMint = collateralMint)
    (.sss .collateralNotWhitelisted)
  require cc.whitelisted (.sss .collateralNotWhitelisted)
  requireWhen (cc.maxDepositCap > 0) <|
    require (cc.totalDeposited.saturatingAdd amount ≤ cc.maxDepositCap)
      (.sss .depositCapExceeded)

/-- The first deposit records the vault's owner, mint and token account. -/
def CollateralVault.initialise (v : CollateralVault) (user collateralMint
    vaultTokenAccount : Pubkey) : CollateralVault :=
  if v.owner = .default then { v with owner := user, collateralMint, vaultTokenAccount } else v

def CollateralConfig.addDeposited (amount : UInt64) :
    Option CollateralConfig → Result (Option CollateralConfig)
  | some cc => do
    let totalDeposited ← (cc.totalDeposited.checkedAdd amount).okOr (.sss .overflow)
    pure (some { cc with totalDeposited })
  | none => pure none

def CollateralConfig.subDeposited (amount : UInt64) :
    Option CollateralConfig → Result (Option CollateralConfig)
  | some cc => do
    let totalDeposited ← (cc.totalDeposited.checkedSub amount).okOr (.sss .overflow)
    pure (some { cc with totalDeposited })
  | none => pure none

def cdpDepositCollateralHandler (a : CdpDepositCollateral) (amount : UInt64) :
    Result State := do
  let vaultKey := Pubkey.collateralVault a.sssMint a.user.key a.collateralMint
  let ccKey := Pubkey.collateralConfig a.sssMint a.collateralMint
  let config ← loadSss3 s a.sssMint
  let _ ← load s.tokens.mints a.sssMint
  let _ ← load s.tokens.mints a.collateralMint
  let vault := (s.collateralVaults vaultKey).getD {}
  requireTokenAccount s a.vaultTokenAccount a.collateralMint vaultKey
  requireTokenAccount s a.userCollateralAccount a.collateralMint a.user.key
  let ycConfig ← loadOptional s.yieldCollateralConfigs a.yieldCollateralConfig
  let cc ← loadCollateralConfig s a.collateralConfig a.sssMint a.collateralMint
  requireAmount amount
  config.requireVersion
  checkYieldCollateral config a.sssMint a.collateralMint ycConfig
  cc.elim (.ok ()) fun cc => cc.checkDeposit a.sssMint a.collateralMint amount
  let vault := vault.initialise a.user.key a.collateralMint a.vaultTokenAccount
  let tokens ← (rt.token.transferChecked s.tokens a.userCollateralAccount a.collateralMint
    a.vaultTokenAccount a.user.key amount).okOr .token
  let depositedAmount ← (vault.depositedAmount.checkedAdd amount).okOr (.sss .overflow)
  let cc ← CollateralConfig.addDeposited amount cc
  pure { s with
    tokens
    collateralVaults := put s.collateralVaults vaultKey { vault with depositedAmount }
    collateralConfigs := putOption s.collateralConfigs ccKey cc }

/-! ## Valuation -/

/-- Collateral in millionths of a dollar. -/
def collateralValueUsdE6 (deposited : UInt64) (price : OraclePrice) (decimals : UInt8) :
    Result Nat := do
  let v ← (U128.checkedMul deposited.toNat price.price.toU128).okOr (.sss .invalidPrice)
  let v ← (U128.checkedMul v 1000000).okOr (.sss .invalidPrice)
  let expoScale ← (U128.pow10 price.expoAbs).okOr .panic
  let decimalScale ← (U128.pow10 decimals.toNat).okOr .panic
  pure (v / expoScale / decimalScale)

/-- Debt in millionths of a dollar, one stablecoin for one dollar. -/
def debtUsdE6 (debt : UInt64) (sssDecimals : UInt8) : Result Nat := do
  let v ← (U128.checkedMul debt.toNat 1000000).okOr (.sss .overflow)
  let scale ← (U128.pow10 sssDecimals.toNat).okOr .panic
  pure (v / scale)

/-- Collateral over debt in basis points. A debt that is worth nothing divides by zero. -/
def ratioBps (collateralValue debtValue : Nat) : Result Nat := do
  let v ← (U128.checkedMul collateralValue 10000).okOr (.sss .invalidPrice)
  (U128.checkedDiv v debtValue).okOr .panic

/-! ## cdp_borrow_stable -/

structure CdpBorrowStable where
  user : Signer
  sssMint : Pubkey
  collateralMint : Pubkey
  userSssAccount : Pubkey
  pythPriceFeed : Pubkey
  /-- Whether the optional `OracleConsensus` is passed. -/
  oracleConsensus : Bool := false

def secsPerYear : Nat := 31536000

/-- Seconds since the last accrual, none when the clock went back. -/
def CdpPosition.elapsedSecs (p : CdpPosition) (now : Int64) : Nat :=
  (max (now.saturatingSub p.lastFeeAccrual) 0).toNat

/-- The fee that `cdp_borrow_stable` takes to be due and not yet accrued. A product that
overflows counts as no fee. -/
def CdpPosition.pendingFees (p : CdpPosition) (config : StablecoinConfig) (now : Int64) :
    UInt64 :=
  if p.lastFeeAccrual.toInt > 0 ∧ config.stabilityFeeBps > 0 then
    let v := (U128.checkedMul p.debtAmount.toNat config.stabilityFeeBps.toNat).getD 0
    let v := (U128.checkedMul v (p.elapsedSecs now)).getD 0
    .ofNat (min (v / (10000 * secsPerYear)) (2 ^ 64 - 1))
  else 0

/-- Stored and pending fees. -/
def CdpPosition.totalAccrued (p : CdpPosition) (config : StablecoinConfig) (now : Int64) :
    UInt64 :=
  (p.accruedFees.checkedAdd (p.pendingFees config now)).getD p.accruedFees

/-- The most that may be owed against a collateral value, in stablecoin units. -/
def maxBorrowSss (collateralValue : Nat) (sssDecimals : UInt8) : Result Nat := do
  let v ← (U128.checkedMul collateralValue 10000).okOr (.sss .collateralRatioTooLow)
  let maxBorrowUsdE6 := v / CdpPosition.minCollateralRatioBps
  let scale ← (U128.pow10 sssDecimals.toNat).okOr .panic
  let v ← (U128.checkedMul maxBorrowUsdE6 scale).okOr (.sss .collateralRatioTooLow)
  pure (v / 1000000)

/-- The first borrow opens the position and locks its collateral mint; later ones must use that
mint and store the accrued fees. -/
def CdpPosition.touch (p : CdpPosition) (config sssMint user collateralMint : Pubkey)
    (now : Int64) (totalAccrued : UInt64) : Result CdpPosition :=
  if p.owner = .default then
    pure { p with
      config, sssMint, owner := user, collateralMint, lastFeeAccrual := now, accruedFees := 0 }
  else do
    require (p.collateralMint = collateralMint) (.sss .wrongCollateralMint)
    pure { p with accruedFees := totalAccrued, lastFeeAccrual := now }

def requireConsensusPassed (config : StablecoinConfig) (passed : Bool) : Result Unit :=
  require (config.featureFlags &&& flagMultiOracleConsensus = 0 ∨ passed)
    (.sss .oracleConsensusNotFound)

def cdpBorrowStableHandler (a : CdpBorrowStable) (amount : UInt64) : Result State := do
  let configKey := Pubkey.stablecoinConfig a.sssMint
  let positionKey := Pubkey.cdpPosition a.sssMint a.user.key
  let (config, sssMint) ← loadSss3OfMint s a.sssMint
  config.requireNotPaused
  let collateralMint ← load s.tokens.mints a.collateralMint
  let vault ← loadVault s a.sssMint a.user.key a.collateralMint
  let position := (s.cdpPositions positionKey).getD {}
  requireTokenAccount s a.userSssAccount a.sssMint a.user.key
  let oc ← loadOracleConsensus s a.oracleConsensus a.sssMint
  config.requireVersion
  requireAmount amount
  config.requireNoCircuitBreaker
  requireConsensusPassed config a.oracleConsensus
  let price ← getEffectiveOraclePrice rt clock s a.pythPriceFeed config oc
  require (vault.depositedAmount > 0) (.sss .insufficientCollateral)
  let collateralValue ← collateralValueUsdE6 vault.depositedAmount price collateralMint.decimals
  let maxBorrow ← maxBorrowSss collateralValue sssMint.decimals
  let totalAccrued := position.totalAccrued config clock.unixTimestamp
  let newTotalDebt := position.debtAmount.toNat + totalAccrued.toNat + amount.toNat
  require (newTotalDebt ≤ maxBorrow) (.sss .collateralRatioTooLow)
  let tokens ← (rt.token.mintTo s.tokens a.sssMint a.userSssAccount configKey amount).okOr .token
  let position ← position.touch configKey a.sssMint a.user.key a.collateralMint
    clock.unixTimestamp totalAccrued
  let debtAmount ← (position.debtAmount.checkedAdd amount).okOr (.sss .overflow)
  let config ← config.addMinted amount
  pure { s with
    tokens
    configs := put s.configs configKey config
    cdpPositions := put s.cdpPositions positionKey { position with debtAmount } }

/-! ## cdp_repay_stable -/

structure CdpRepayStable where
  user : Signer
  sssMint : Pubkey
  userSssAccount : Pubkey
  collateralMint : Pubkey
  vaultTokenAccount : Pubkey
  userCollateralAccount : Pubkey
  /-- Whether the optional `CollateralConfig` is passed. -/
  collateralConfig : Bool := false

/-- `deposited * amount / debt`; nothing when there is no debt. -/
def collateralToRelease (deposited amount debt : UInt64) : Result UInt64 :=
  if debt > 0 then do
    let v ← (U128.checkedMul deposited.toNat amount.toNat).okOr (.sss .overflow)
    pure (.ofNat (v / debt.toNat))
  else pure 0

def cdpRepayStableHandler (a : CdpRepayStable) (amount : UInt64) : Result State := do
  let configKey := Pubkey.stablecoinConfig a.sssMint
  let positionKey := Pubkey.cdpPosition a.sssMint a.user.key
  let vaultKey := Pubkey.collateralVault a.sssMint a.user.key a.collateralMint
  let ccKey := Pubkey.collateralConfig a.sssMint a.collateralMint
  let (config, _) ← loadSss3OfMint s a.sssMint
  requireTokenAccount s a.userSssAccount a.sssMint a.user.key
  -- the position's locked mint is not compared with the collateral mint
  let position ← loadPosition s a.sssMint a.user.key
  let vault ← loadVault s a.sssMint a.user.key a.collateralMint
  let _ ← load s.tokens.mints a.collateralMint
  requireVaultTokenAccount s vault a.vaultTokenAccount a.collateralMint
  requireTokenAccount s a.userCollateralAccount a.collateralMint a.user.key
  let cc ← loadCollateralConfig s a.collateralConfig a.sssMint a.collateralMint
  requireAmount amount
  config.requireVersion
  require (position.debtAmount ≥ amount) (.sss .insufficientDebt)
  let toRelease ← collateralToRelease vault.depositedAmount amount position.debtAmount
  let totalBurn ← (amount.checkedAdd position.accruedFees).okOr (.sss .invalidAmount)
  let tokens ← (rt.token.burn s.tokens a.sssMint a.userSssAccount a.user.key totalBurn).okOr
    .token
  let tokens ← onlyWhen (toRelease > 0) tokens <|
    (rt.token.transferChecked tokens a.vaultTokenAccount a.collateralMint
      a.userCollateralAccount vaultKey toRelease).okOr .token
  let debtAmount ← (position.debtAmount.checkedSub amount).okOr (.sss .overflow)
  let depositedAmount ← (vault.depositedAmount.checkedSub toRelease).okOr (.sss .overflow)
  let cc ← onlyWhen (toRelease > 0) cc <| CollateralConfig.subDeposited toRelease cc
  let config ← config.addBurned totalBurn
  pure { s with
    tokens
    configs := put s.configs configKey config
    cdpPositions := put s.cdpPositions positionKey { position with debtAmount, accruedFees := 0 }
    collateralVaults := put s.collateralVaults vaultKey { vault with depositedAmount }
    collateralConfigs := putOption s.collateralConfigs ccKey cc }

/-! ## Liquidation -/

structure CdpLiquidate where
  liquidator : Signer
  sssMint : Pubkey
  liquidatorSssAccount : Pubkey
  cdpOwner : Pubkey
  collateralMint : Pubkey
  vaultTokenAccount : Pubkey
  liquidatorCollateralAccount : Pubkey
  pythPriceFeed : Pubkey
  /-- Whether the optional `CollateralConfig` is passed; `cdp_liquidate_v2` always takes it. -/
  collateralConfig : Bool := false
  /-- Whether the optional `OracleConsensus` is passed. -/
  oracleConsensus : Bool := false

/-- The accounts that a liquidation loads, under the constraints common to both engines. -/
structure LiquidationAccounts where
  config : StablecoinConfig
  sssDecimals : UInt8
  position : CdpPosition
  vault : CollateralVault
  collateralDecimals : UInt8

def CdpLiquidate.load (a : CdpLiquidate) : Result LiquidationAccounts := do
  let (config, sssMint) ← loadSss3OfMint s a.sssMint
  requireTokenAccount s a.liquidatorSssAccount a.sssMint a.liquidator.key
  let position ← loadPosition s a.sssMint a.cdpOwner
  require (position.collateralMint = a.collateralMint) (.sss .wrongCollateralMint)
  let vault ← loadVault s a.sssMint a.cdpOwner a.collateralMint
  let collateralMint ← SolanaStablecoin.load s.tokens.mints a.collateralMint
  requireVaultTokenAccount s vault a.vaultTokenAccount a.collateralMint
  requireTokenAccount s a.liquidatorCollateralAccount a.collateralMint a.liquidator.key
  pure { config, sssDecimals := sssMint.decimals, position, vault
         collateralDecimals := collateralMint.decimals }

/-- The collateral config, which must be for this pair of mints. -/
def CdpLiquidate.loadCollateralConfig (a : CdpLiquidate) (passed : Bool) (e : SssError) :
    Result (Option CollateralConfig) := do
  let cc ← SolanaStablecoin.loadCollateralConfig s passed a.sssMint a.collateralMint
  cc.elim (.ok ()) fun cc => do
    require (cc.sssMint = a.sssMint) (.sss e)
    require (cc.collateralMint = a.collateralMint) (.sss .wrongCollateralMint)
  pure cc

def checkExpectedFeed (config : StablecoinConfig) (feed : Pubkey) : Result Unit :=
  requireWhen (config.expectedPythFeed ≠ .default) <|
    require (feed = config.expectedPythFeed) (.sss .unexpectedPriceFeed)

def defaultLiquidationBonusBps : UInt16 := 500

/-- Threshold and bonus: the collateral's own when it is configured, else the global ones. -/
def liquidationParams : Option CollateralConfig → Nat × UInt16
  | some cc => (cc.liquidationThresholdBps.toNat, cc.liquidationBonusBps)
  | none => (CdpPosition.liquidationThresholdBps, defaultLiquidationBonusBps)

/-- The check that makes a position liquidatable: stored debt and fees against the collateral. -/
def checkLiquidatable (l : LiquidationAccounts) (price : OraclePrice) (threshold : Nat) :
    Result UInt64 := do
  let deposited := l.vault.depositedAmount
  require (deposited > 0) (.sss .insufficientCollateral)
  let collateralValue ← collateralValueUsdE6 deposited price l.collateralDecimals
  let effectiveDebt ← (l.position.debtAmount.checkedAdd l.position.accruedFees).okOr
    (.sss .overflow)
  require (effectiveDebt > 0) (.sss .insufficientDebt)
  let debtValue ← debtUsdE6 effectiveDebt l.sssDecimals
  let ratio ← ratioBps collateralValue debtValue
  require (ratio < threshold) (.sss .cdpNotLiquidatable)
  pure effectiveDebt

/-- After a partial liquidation the rest of the position must have at least `threshold`; a
position without debt is not checked. -/
def checkRemaining (l : LiquidationAccounts) (price : OraclePrice) (collateral debt : UInt64)
    (threshold : Nat) (e : SssError) : Result Unit :=
  requireWhen (debt > 0) do
    let collateralValue ← collateralValueUsdE6 collateral price l.collateralDecimals
    let debtValue ← debtUsdE6 debt l.sssDecimals
    let ratio ← ratioBps collateralValue debtValue
    require (ratio ≥ threshold) (.sss e)

def checkSlippage (seized minCollateralAmount : UInt64) : Result Unit :=
  requireWhen (minCollateralAmount > 0) <|
    require (seized ≥ minCollateralAmount) (.sss .slippageExceeded)

/-- The debt to burn and the collateral to seize of a partial `cdp_liquidate`. -/
def seizePartial (l : LiquidationAccounts) (price : OraclePrice) (repay : UInt64)
    (threshold : Nat) (bonusBps : UInt16) : Result (UInt64 × UInt64) := do
  let deposited := l.vault.depositedAmount
  let repayUsdE6 ← debtUsdE6 repay l.sssDecimals
  let decimalScale ← (U128.pow10 l.collateralDecimals.toNat).okOr .panic
  let v ← (U128.checkedMul repayUsdE6 decimalScale).okOr (.sss .invalidPrice)
  let v ← (U128.checkedMul v (10000 + bonusBps.toNat)).okOr (.sss .invalidPrice)
  let expoScale ← (U128.pow10 price.expoAbs).okOr .panic
  let v ← (U128.checkedMul v expoScale).okOr (.sss .invalidPrice)
  let v ← (U128.checkedDiv v price.price.toU128).okOr .panic
  let toSeize := UInt64.ofNat (min (v / 1000000 / 10000) deposited.toNat)
  let remainingDebt ← ((l.position.debtAmount.saturatingSub repay).checkedAdd
    l.position.accruedFees).okOr (.sss .overflow)
  checkRemaining l price (deposited.saturatingSub toSeize) remainingDebt threshold
    .partialLiquidationInsufficientRepay
  pure (repay, toSeize)

/-- Burn the liquidator's stablecoins and hand over the collateral; the vault signs. -/
def CdpLiquidate.settle (a : CdpLiquidate) (debtToBurn collateralToSeize : UInt64) :
    Result Tokens := do
  let vaultKey := Pubkey.collateralVault a.sssMint a.cdpOwner a.collateralMint
  let tokens ← (rt.token.burn s.tokens a.sssMint a.liquidatorSssAccount a.liquidator.key
    debtToBurn).okOr .token
  (rt.token.transferChecked tokens a.vaultTokenAccount a.collateralMint
    a.liquidatorCollateralAccount vaultKey collateralToSeize).okOr .token

/-- Fees are cleared once no principal is left. -/
def CdpPosition.afterLiquidation (p : CdpPosition) (debtToBurn : UInt64) : CdpPosition :=
  let debtAmount := p.debtAmount.saturatingSub debtToBurn
  { p with debtAmount, accruedFees := if debtAmount = 0 then 0 else p.accruedFees }

/-- The accounts a liquidation writes. -/
def CdpLiquidate.store (a : CdpLiquidate) (tokens : Tokens) (config : StablecoinConfig)
    (position : CdpPosition) (vault : CollateralVault) (cc : Option CollateralConfig) : State :=
  { s with
    tokens
    configs := put s.configs (.stablecoinConfig a.sssMint) config
    cdpPositions := put s.cdpPositions (.cdpPosition a.sssMint a.cdpOwner) position
    collateralVaults := put s.collateralVaults
      (.collateralVault a.sssMint a.cdpOwner a.collateralMint) vault
    collateralConfigs := putOption s.collateralConfigs
      (.collateralConfig a.sssMint a.collateralMint) cc }

def cdpLiquidateHandler (a : CdpLiquidate) (minCollateralAmount partialRepayAmount : UInt64) :
    Result State := do
  let l ← a.load s
  let cc ← a.loadCollateralConfig s a.collateralConfig .unauthorized
  let oc ← loadOracleConsensus s a.oracleConsensus a.sssMint
  l.config.requireVersion
  l.config.requireNoCircuitBreaker
  checkExpectedFeed l.config a.pythPriceFeed
  requireConsensusPassed l.config a.oracleConsensus
  let price ← getEffectiveOraclePrice rt clock s a.pythPriceFeed l.config oc
  let (threshold, bonusBps) := liquidationParams cc
  let effectiveDebt ← checkLiquidatable l price threshold
  let (debtToBurn, collateralToSeize) ← onlyWhen
    (partialRepayAmount > 0 ∧ partialRepayAmount < l.position.debtAmount)
    (effectiveDebt, l.vault.depositedAmount) <|
    seizePartial l price partialRepayAmount threshold bonusBps
  checkSlippage collateralToSeize minCollateralAmount
  let tokens ← a.settle rt s debtToBurn collateralToSeize
  let cc ← CollateralConfig.subDeposited collateralToSeize cc
  let config ← l.config.addBurned debtToBurn
  pure <| a.store s tokens config (l.position.afterLiquidation debtToBurn)
    { l.vault with
      depositedAmount := l.vault.depositedAmount.saturatingSub collateralToSeize } cc

/-! ## cdp_liquidate_v2 -/

/-- The price that `cdp_liquidate_v2` uses: always the Pyth feed it is given. -/
def liquidateV2Price (config : StablecoinConfig) (pythPriceFeed : Pubkey) :
    Result OraclePrice := do
  checkExpectedFeed config pythPriceFeed
  let price ← Pyth.getPrice rt clock s pythPriceFeed (maxAgeSecs config)
  require (price.price.toInt > 0) (.sss .invalidPrice)
  checkConf config price.price price.conf
  pure price

/-- The collateral to seize, and whether the liquidation is partial. -/
def seizeV2 (l : LiquidationAccounts) (price : OraclePrice) (totalDebt repaid : UInt64)
    (bonusBps : UInt16) : Result UInt64 := do
  let deposited := l.vault.depositedAmount
  let repaidUsdE6 ← debtUsdE6 repaid l.sssDecimals
  let v ← (U128.checkedMul repaidUsdE6 (10000 + bonusBps.toNat)).okOr (.sss .invalidPrice)
  let seizeUsdE6 := v / 10000
  let decimalScale ← (U128.pow10 l.collateralDecimals.toNat).okOr .panic
  let v ← (U128.checkedMul seizeUsdE6 decimalScale).okOr (.sss .invalidPrice)
  let expoScale ← (U128.pow10 price.expoAbs).okOr .panic
  let v ← (U128.checkedMul v expoScale).okOr (.sss .invalidPrice)
  let v ← (U128.checkedDiv v price.price.toU128).okOr .panic
  let raw := v / 1000000
  if raw ≥ deposited.toNat ∨ ¬ repaid < totalDebt then pure deposited else pure (.ofNat raw)

/-- Principal first, then fees; fees are cleared once no principal is left. -/
def CdpPosition.afterLiquidationV2 (p : CdpPosition) (repaid : UInt64) : CdpPosition :=
  if repaid ≥ p.debtAmount then { p with debtAmount := 0, accruedFees := 0 }
  else
    let debtAmount := p.debtAmount.saturatingSub repaid
    { p with debtAmount, accruedFees := if debtAmount = 0 then 0 else p.accruedFees }

def cdpLiquidateV2Handler (a : CdpLiquidate) (debtToRepay minCollateralAmount : UInt64) :
    Result State := do
  let l ← a.load s
  let cc ← (← a.loadCollateralConfig s true .invalidCollateralMint).okOr
    (.anchor .accountNotInitialized)
  l.config.requireVersion
  l.config.requireNoCircuitBreaker
  let price ← liquidateV2Price rt clock s l.config a.pythPriceFeed
  require cc.whitelisted (.sss .collateralNotWhitelisted)
  let totalDebt ← checkLiquidatable l price cc.liquidationThresholdBps.toNat
  let repaid := if debtToRepay = 0 ∨ debtToRepay ≥ totalDebt then totalDebt else debtToRepay
  let collateralToSeize ← seizeV2 l price totalDebt repaid cc.liquidationBonusBps
  requireWhen (repaid < totalDebt) <|
    checkRemaining l price (l.vault.depositedAmount.saturatingSub collateralToSeize)
      (totalDebt.saturatingSub repaid) CdpPosition.minCollateralRatioBps .collateralRatioTooLow
  checkSlippage collateralToSeize minCollateralAmount
  let tokens ← a.settle rt s repaid collateralToSeize
  let cc ← CollateralConfig.subDeposited collateralToSeize (some cc)
  let config ← l.config.addBurned repaid
  pure <| a.store s tokens config (l.position.afterLiquidationV2 repaid)
    { l.vault with
      depositedAmount := l.vault.depositedAmount.saturatingSub collateralToSeize } cc

/-! ## collect_stability_fee -/

structure CollectStabilityFee where
  caller : Signer
  sssMint : Pubkey
  debtor : Pubkey
  debtorSssAccount : Pubkey

/-- The config authority or a whitelisted keeper. -/
def StablecoinConfig.mayCollect (c : StablecoinConfig) (caller : Pubkey) : Bool :=
  caller = c.authority || c.authorizedKeepers.any fun k => k = caller && k ≠ .default

/-- Interest of the time that passed; a product that overflows is an error here. -/
def CdpPosition.newFee (p : CdpPosition) (feeBps : UInt16) (now : Int64) : Result UInt64 := do
  let v ← (U128.checkedMul p.debtAmount.toNat feeBps.toNat).okOr (.sss .invalidPrice)
  let v ← (U128.checkedMul v (p.elapsedSecs now)).okOr (.sss .invalidPrice)
  pure (.ofNat (min (v / (10000 * secsPerYear)) (2 ^ 64 - 1)))

def collectStabilityFeeHandler (a : CollectStabilityFee) : Result State := do
  let configKey := Pubkey.stablecoinConfig a.sssMint
  let positionKey := Pubkey.cdpPosition a.sssMint a.debtor
  let (config, _) ← loadSss3OfMint s a.sssMint
  config.requireNotPaused
  let position ← load s.cdpPositions positionKey
  let account ← load s.tokens.accounts a.debtorSssAccount
  require (account.mint = a.sssMint) (.anchor .constraintRaw)
  require (account.owner = a.debtor) (.sss .unauthorized)
  require (config.mayCollect a.caller.key) (.sss .unauthorized)
  if config.stabilityFeeBps = 0 then pure s
  else if position.elapsedSecs clock.unixTimestamp = 0 then pure s
  else do
    let newFee ← position.newFee config.stabilityFeeBps clock.unixTimestamp
    let totalToBurn ← (position.accruedFees.checkedAdd newFee).okOr (.sss .overflow)
    let settled := { position with accruedFees := 0, lastFeeAccrual := clock.unixTimestamp }
    if totalToBurn = 0 then
      pure { s with cdpPositions := put s.cdpPositions positionKey settled }
    else do
      -- the config PDA signs as if it were the debtor's delegate
      let tokens ← (rt.token.burn s.tokens a.sssMint a.debtorSssAccount configKey
        totalToBurn).okOr .token
      let config ← config.addBurned totalToBurn
      pure { s with
        tokens
        configs := put s.configs configKey config
        cdpPositions := put s.cdpPositions positionKey settled }

end SolanaStablecoin
