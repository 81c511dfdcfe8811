import SolanaStablecoin.Program.Redeem

/-! Instructions that set the parameters of a stablecoin: the controller of the stability fee, the
redemption fee, mint velocity, liquidation bonuses, yield-bearing collateral, the published
reserves and the guard of the upgrade authority. -/

namespace SolanaStablecoin

variable (clock : Clock) (s : State)

/-! ## The stability-fee controller (`pid_fee.rs`) -/

structure InitPidConfigParams where
  kp : Int64
  ki : Int64
  kd : Int64
  targetPrice : UInt64
  minFeeBps : UInt16
  maxFeeBps : UInt16

/-- The fee range is compared with nothing but itself. -/
def initPidConfigHandler (a : AuthorityAndConfig) (p : InitPidConfigParams) : Result State := do
  let config ← a.loadConfig s
  requireFree s.pidConfigs (.pidConfig config.mint)
  checkSquads config a.authority.key
  require (p.minFeeBps ≤ p.maxFeeBps) (.sss .invalidPidFeeRange)
  pure { s with
    pidConfigs := put s.pidConfigs (.pidConfig config.mint)
      { sssMint := config.mint, kp := p.kp, ki := p.ki, kd := p.kd, targetPrice := p.targetPrice
        minFeeBps := p.minFeeBps, maxFeeBps := p.maxFeeBps, lastError := 0, integral := 0
        lastUpdateSlot := clock.slot }
    configs := put s.configs a.config
      { config with featureFlags := config.featureFlags ||| flagPidFeeControl } }

namespace PidConfig

/-- The distance from the target price. -/
def error (pid : PidConfig) (currentPrice : UInt64) : Int :=
  Int.clamp64 (pid.targetPrice.toInt64.toInt - currentPrice.toInt64.toInt)

def newIntegral (pid : PidConfig) (error : Int) : Int :=
  max (-1000000000) (min (Int.clamp64 (pid.integral.toInt + error)) 1000000000)

/-- The correction in basis points; the gains are in millionths. -/
def deltaBps (pid : PidConfig) (error : Int) : Int :=
  let derivative := Int.clamp64 (error - pid.lastError.toInt)
  let proportional := Int.clamp64 (pid.kp.toInt * error)
  let integral := Int.clamp64 (pid.ki.toInt * pid.newIntegral error)
  let rawOutput := Int.clamp64 (Int.clamp64 (proportional + integral) +
    Int.clamp64 (pid.kd.toInt * derivative))
  rawOutput.tdiv 1000000

/-- The corrected fee, moved into the range of the controller. -/
def newBps (pid : PidConfig) (currentBps : UInt16) (error : Int) : UInt16 :=
  let unclamped := Int.clamp64 (currentBps.toNat + pid.deltaBps error)
  .ofNat (max (pid.minFeeBps.toNat : Int) (min unclamped pid.maxFeeBps.toNat)).toNat

end PidConfig

structure UpdateStabilityFeePid where
  caller : Signer
  config : Pubkey

/-- Anybody may call this, and with any price unless an oracle other than Pyth is configured. -/
def updateStabilityFeePidHandler (a : UpdateStabilityFeePid) (currentPrice : UInt64) :
    Result State := do
  let config ← loadOwnConfig s a.config
  let pid ← load s.pidConfigs (.pidConfig config.mint)
  require (config.checkFeatureFlag flagPidFeeControl) (.sss .pidConfigNotFound)
  require (clock.slot ≥ pid.lastUpdateSlot.saturatingAdd 10) (.sss .pidUpdateTooFrequent)
  requireWhen (config.oracleType ≠ 0 ∧ config.oracleFeed ≠ .default) <| do
    let maxDeviation := pid.targetPrice / 10
    require (currentPrice ≥ pid.targetPrice.saturatingSub maxDeviation ∧
      currentPrice ≤ pid.targetPrice.saturatingAdd maxDeviation) (.sss .invalidPrice)
  let error := pid.error currentPrice
  -- the clamp needs a range
  require (pid.minFeeBps ≤ pid.maxFeeBps) .panic
  pure { s with
    configs := put s.configs a.config
      { config with stabilityFeeBps := pid.newBps config.stabilityFeeBps error }
    pidConfigs := put s.pidConfigs (.pidConfig config.mint)
      { pid with
        lastError := .ofInt error
        integral := .ofInt (pid.newIntegral error)
        lastUpdateSlot := clock.slot } }

/-! ## The redemption fee and mint velocity (`psm_fee.rs`) -/

def maxPsmFeeBps : UInt16 := 1000

def setPsmFeeHandler (a : AuthorityAndMint) (feeBps : UInt16) : Result State := do
  let config ← a.loadConfig s
  require (config.preset = 3) (.sss .invalidPreset)
  requireTimelockExecuted config adminOpSetPsmFee
  checkSquads config a.authority.key
  require (feeBps ≤ maxPsmFeeBps) (.sss .invalidPsmFee)
  pure { s with configs := put s.configs a.config { config with redemptionFeeBps := feeBps } }

def setMintVelocityLimitHandler (a : UpdateMinter) (maxMintPerEpoch : UInt64) :
    Result State := do
  let config ← a.loadConfig s
  let minterInfo ← load s.minterInfos a.minterInfo
  require (minterInfo.config = a.config) (.sss .notAMinter)
  require (minterInfo.minter = a.minter) (.sss .notAMinter)
  checkSquads config a.authority.key
  pure { s with
    minterInfos := put s.minterInfos a.minterInfo { minterInfo with maxMintPerEpoch } }

/-! ## Liquidation bonuses (`liquidation_bonus.rs`) -/

structure LiquidationBonusParams where
  tier1ThresholdBps : UInt16
  tier1BonusBps : UInt16
  tier2ThresholdBps : UInt16
  tier2BonusBps : UInt16
  tier3ThresholdBps : UInt16
  tier3BonusBps : UInt16
  maxBonusBps : UInt16

/-- Deeper tiers have lower thresholds and no lower bonuses. -/
def LiquidationBonusParams.validateTiers (p : LiquidationBonusParams) : Result Unit := do
  require (p.tier3ThresholdBps < p.tier2ThresholdBps) (.sss .invalidLiquidationTierConfig)
  require (p.tier2ThresholdBps < p.tier1ThresholdBps) (.sss .invalidLiquidationTierConfig)
  require (p.tier1ThresholdBps ≤ 15000) (.sss .invalidLiquidationTierConfig)
  require (p.tier1BonusBps ≤ p.tier2BonusBps ∧ p.tier2BonusBps ≤ p.tier3BonusBps)
    (.sss .invalidLiquidationTierConfig)
  require (p.maxBonusBps ≤ 5000) (.sss .invalidLiquidationTierConfig)
  require (p.tier1BonusBps ≤ p.maxBonusBps ∧ p.tier2BonusBps ≤ p.maxBonusBps ∧
    p.tier3BonusBps ≤ p.maxBonusBps) (.sss .invalidLiquidationTierConfig)

def LiquidationBonusConfig.setTiers (cfg : LiquidationBonusConfig)
    (p : LiquidationBonusParams) : LiquidationBonusConfig :=
  { cfg with
    tier1ThresholdBps := p.tier1ThresholdBps, tier1BonusBps := p.tier1BonusBps
    tier2ThresholdBps := p.tier2ThresholdBps, tier2BonusBps := p.tier2BonusBps
    tier3ThresholdBps := p.tier3ThresholdBps, tier3BonusBps := p.tier3BonusBps
    maxBonusBps := p.maxBonusBps }

def initLiquidationBonusConfigHandler (a : AuthorityAndConfig) (p : LiquidationBonusParams) :
    Result State := do
  let config ← a.loadConfig s
  let key := Pubkey.liquidationBonusConfig config.mint
  requireFree s.liquidationBonusConfigs key
  checkSquads config a.authority.key
  p.validateTiers
  let cfg : LiquidationBonusConfig := { sssMint := config.mint, authority := a.authority.key }
  pure { s with
    liquidationBonusConfigs := put s.liquidationBonusConfigs key (cfg.setTiers p)
    configs := put s.configs a.config
      { config with featureFlags := config.featureFlags ||| flagGradLiquidationBonus } }

def updateLiquidationBonusConfigHandler (a : AuthorityAndConfig) (p : LiquidationBonusParams) :
    Result State := do
  let config ← a.loadConfig s
  let key := Pubkey.liquidationBonusConfig config.mint
  let cfg ← load s.liquidationBonusConfigs key
  require (cfg.sssMint = config.mint) (.sss .unauthorized)
  checkSquads config a.authority.key
  p.validateTiers
  pure { s with
    liquidationBonusConfigs := put s.liquidationBonusConfigs key (cfg.setTiers p) }

/-! ## Yield-bearing collateral (`yield_collateral.rs`) -/

def initYieldCollateralHandler (a : AuthorityAndMint) (initialMints : List Pubkey) :
    Result State := do
  let config ← a.loadConfig s
  require (config.preset = 3) (.sss .invalidPreset)
  requireFree s.yieldCollateralConfigs (.yieldCollateral a.mint)
  checkSquads config a.authority.key
  require (initialMints.length ≤ YieldCollateralConfig.maxMints) (.sss .whitelistFull)
  pure { s with
    yieldCollateralConfigs := put s.yieldCollateralConfigs (.yieldCollateral a.mint)
      { sssMint := a.mint, whitelistedMints := initialMints }
    configs := put s.configs a.config
      { config with featureFlags := config.featureFlags ||| flagYieldCollateral } }

def addYieldCollateralMintHandler (a : AuthorityAndMint) (collateralMint : Pubkey) :
    Result State := do
  let config ← a.loadConfig s
  let yc ← load s.yieldCollateralConfigs (.yieldCollateral a.mint)
  checkSquads config a.authority.key
  require (config.featureFlags &&& flagYieldCollateral ≠ 0) (.sss .yieldCollateralNotEnabled)
  require (yc.whitelistedMints.length < YieldCollateralConfig.maxMints) (.sss .whitelistFull)
  require (collateralMint ∉ yc.whitelistedMints) (.sss .mintAlreadyWhitelisted)
  pure { s with
    yieldCollateralConfigs := put s.yieldCollateralConfigs (.yieldCollateral a.mint)
      { yc with whitelistedMints := yc.whitelistedMints ++ [collateralMint] } }

/-! ## The published reserves (`reserve_composition.rs`, `proof_of_reserves.rs`) -/

structure ReserveCompositionParams where
  cashBps : UInt16
  tBillsBps : UInt16
  cryptoBps : UInt16
  otherBps : UInt16

def updateReserveCompositionHandler (rt : Runtime) (a : AuthorityAndConfig)
    (p : ReserveCompositionParams) : Result State := do
  let config ← a.loadConfig s
  let key := Pubkey.reserveComposition config.mint
  let rc := (s.reserveCompositions key).getD {}
  checkSquads config a.authority.key
  require (p.cashBps.toNat + p.tBillsBps.toNat + p.cryptoBps.toNat + p.otherBps.toNat = 10000)
    (.sss .invalidCompositionBps)
  let rc := if rc.bump = 0 then { rc with bump := rt.bump key, sssMint := config.mint } else rc
  pure { s with
    reserveCompositions := put s.reserveCompositions key
      { rc with
        cashBps := p.cashBps, tBillsBps := p.tBillsBps, cryptoBps := p.cryptoBps
        otherBps := p.otherBps, lastUpdatedSlot := clock.slot
        lastUpdatedBy := a.authority.key } }

structure InitProofOfReserves where
  payer : Signer
  authority : Signer
  mint : Pubkey

def initProofOfReservesHandler (a : InitProofOfReserves) (attester : Pubkey) : Result State := do
  let config ← load s.configs (.stablecoinConfig a.mint)
  require (config.authority = a.authority.key) (.sss .unauthorized)
  requireFree s.proofsOfReserves (.proofOfReserves a.mint)
  pure { s with
    proofsOfReserves := put s.proofsOfReserves (.proofOfReserves a.mint)
      { mint := a.mint, attester } }

structure AttestProofOfReserves where
  attester : Signer
  mint : Pubkey

def attestProofOfReservesHandler (a : AttestProofOfReserves) (verifiedRatioBps : UInt64) :
    Result State := do
  let por ← load s.proofsOfReserves (.proofOfReserves a.mint)
  require (por.attester = a.attester.key) (.sss .unauthorized)
  pure { s with
    proofsOfReserves := put s.proofsOfReserves (.proofOfReserves a.mint)
      { por with lastAttestationSlot := clock.slot, lastVerifiedRatioBps := verifiedRatioBps } }

/-! ## The upgrade authority (`upgrade_authority_guard.rs`) -/

/-- Set once, to the multisig. -/
def setUpgradeAuthorityGuardHandler (a : AuthorityAndConfig) (upgradeAuthority : Pubkey) :
    Result State := do
  let config ← a.loadConfig s
  require (config.featureFlags &&& flagSquadsAuthority ≠ 0) (.sss .unauthorized)
  require (upgradeAuthority = config.squadsMultisig) (.sss .upgradeAuthorityGuardInvalidKey)
  require (upgradeAuthority ≠ .default) (.sss .upgradeAuthorityGuardInvalidKey)
  require (config.expectedUpgradeAuthority = .default) (.sss .upgradeAuthorityGuardAlreadySet)
  pure { s with
    configs := put s.configs a.config
      { config with expectedUpgradeAuthority := upgradeAuthority } }

end SolanaStablecoin
