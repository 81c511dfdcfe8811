import SolanaStablecoin.Program.Cdp

/-! Exchanging stablecoins for collateral: the reserve and its peg stability module, the instant
redemption pool, the redemption queue and the redemption guarantee. -/

namespace SolanaStablecoin

variable (rt : Runtime) (clock : Clock) (s : State)

/-- A config given by its own address, which must be the one derived from its mint. -/
def loadOwnConfig (k : Pubkey) : Result StablecoinConfig := do
  let config ← load s.configs k
  require (k = .stablecoinConfig config.mint) (.anchor .constraintSeeds)
  pure config

/-- `token::mint`, `token::authority`. -/
def requireTokenOf (k mint owner : Pubkey) : Result Unit := do
  let account ← load s.tokens.accounts k
  require (account.mint = mint) (.anchor .constraintTokenMint)
  require (account.owner = owner) (.anchor .constraintTokenOwner)

/-! ## deposit_collateral and redeem -/

structure DepositCollateral where
  depositor : Signer
  sssMint : Pubkey
  collateralMint : Pubkey
  depositorCollateral : Pubkey
  reserveVault : Pubkey

def depositCollateralHandler (a : DepositCollateral) (amount : UInt64) : Result State := do
  let config ← loadSss3 s a.sssMint
  let _ ← load s.tokens.mints a.sssMint
  let _ ← load s.tokens.mints a.collateralMint
  require (a.collateralMint = config.collateralMint) (.sss .invalidCollateralMint)
  requireTokenAccount s a.depositorCollateral a.collateralMint a.depositor.key
  let vault ← load s.tokens.accounts a.reserveVault
  require (a.reserveVault = config.reserveVault) (.sss .invalidVault)
  require (vault.mint = a.collateralMint) (.anchor .constraintRaw)
  requireAmount amount
  config.requireVersion
  let tokens ← (rt.token.transferChecked s.tokens a.depositorCollateral a.collateralMint
    a.reserveVault a.depositor.key amount).okOr .token
  let totalCollateral ← (config.totalCollateral.checkedAdd amount).okOr (.sss .overflow)
  pure { s with
    tokens
    configs := put s.configs (.stablecoinConfig a.sssMint) { config with totalCollateral } }

structure Redeem where
  redeemer : Signer
  sssMint : Pubkey
  redeemerSssAccount : Pubkey
  collateralMint : Pubkey
  reserveVault : Pubkey
  redeemerCollateral : Pubkey

/-- The accounts common to `redeem` and `psm_dynamic_swap`: the config and the reserve vault. -/
def Redeem.load (a : Redeem) : Result (StablecoinConfig × TokenAccount) := do
  let (config, _) ← loadSss3OfMint s a.sssMint
  config.requireNotPaused
  requireTokenAccount s a.redeemerSssAccount a.sssMint a.redeemer.key
  let _ ← SolanaStablecoin.load s.tokens.mints a.collateralMint
  require (a.collateralMint = config.collateralMint) (.sss .invalidCollateralMint)
  let vault ← SolanaStablecoin.load s.tokens.accounts a.reserveVault
  require (a.reserveVault = config.reserveVault) (.sss .invalidVault)
  require (vault.mint = a.collateralMint) (.anchor .constraintRaw)
  requireTokenAccount s a.redeemerCollateral a.collateralMint a.redeemer.key
  pure (config, vault)

/-- Burn the stablecoins; the config PDA releases the collateral and both counters move. -/
def Redeem.settle (a : Redeem) (config : StablecoinConfig) (amount collateralOut : UInt64)
    (e : SssError) : Result State := do
  let configKey := Pubkey.stablecoinConfig a.sssMint
  let tokens ← (rt.token.burn s.tokens a.sssMint a.redeemerSssAccount a.redeemer.key
    amount).okOr .token
  let tokens ← (rt.token.transferChecked tokens a.reserveVault a.collateralMint
    a.redeemerCollateral configKey collateralOut).okOr .token
  let config ← config.addBurned amount
  let totalCollateral ← (config.totalCollateral.checkedSub collateralOut).okOr (.sss e)
  pure { s with tokens, configs := put s.configs configKey { config with totalCollateral } }

def redeemHandler (a : Redeem) (amount : UInt64) : Result State := do
  let (config, vault) ← a.load s
  requireAmount amount
  config.requireVersion
  config.requireNoCircuitBreaker
  require (vault.amount ≥ amount) (.sss .insufficientReserves)
  let collateralOut ← (amount.checkedSub (feeOf amount config.redemptionFeeBps)).okOr
    (.sss .invalidAmount)
  a.settle rt s config amount collateralOut .overflow

/-! ## psm_dynamic_swap -/

def validateCurveParams (baseFeeBps maxFeeBps : UInt16) : Result Unit := do
  require (maxFeeBps ≤ PsmCurveConfig.capFeeBps) (.sss .invalidPsmCurveMaxFee)
  require (baseFeeBps ≤ maxFeeBps) (.sss .invalidPsmCurveBaseFee)

def initPsmCurveConfigHandler (a : AuthorityAndConfig) (baseFeeBps : UInt16) (curveK : UInt64)
    (maxFeeBps : UInt16) : Result State := do
  let config ← a.loadSss3 s
  requireFree s.psmCurveConfigs (.psmCurveConfig config.mint)
  checkSquads config a.authority.key
  validateCurveParams baseFeeBps maxFeeBps
  pure { s with
    psmCurveConfigs := put s.psmCurveConfigs (.psmCurveConfig config.mint)
      { sssMint := config.mint, authority := a.authority.key, baseFeeBps, curveK, maxFeeBps }
    configs := put s.configs a.config
      { config with featureFlags := config.featureFlags ||| flagPsmDynamicFees } }

def updatePsmCurveConfigHandler (a : AuthorityAndConfig) (baseFeeBps : UInt16)
    (curveK : UInt64) (maxFeeBps : UInt16) : Result State := do
  let config ← a.loadConfig s
  let psm ← load s.psmCurveConfigs (.psmCurveConfig config.mint)
  require (psm.sssMint = config.mint) (.sss .psmCurveConfigNotFound)
  checkSquads config a.authority.key
  validateCurveParams baseFeeBps maxFeeBps
  pure { s with
    psmCurveConfigs := put s.psmCurveConfigs (.psmCurveConfig config.mint)
      { psm with baseFeeBps, curveK, maxFeeBps } }

/-- No version guard and no circuit breaker here, unlike `redeem`. -/
def psmDynamicSwapHandler (a : Redeem) (amount : UInt64) : Result State := do
  let (config, vault) ← a.load s
  require (config.checkFeatureFlag flagPsmDynamicFees) (.sss .psmDynamicFeesNotEnabled)
  let psm ← load s.psmCurveConfigs (.psmCurveConfig a.sssMint)
  require (psm.sssMint = config.mint) (.sss .psmCurveConfigNotFound)
  requireAmount amount
  require (vault.amount ≥ amount) (.sss .insufficientReserves)
  let feeAmount := feeOf amount (psm.computeFee vault.amount config.totalCollateral)
  let collateralOut := (amount.checkedSub feeAmount).getD 0
  require (collateralOut > 0) (.sss .psmSwapOutputZero)
  a.settle rt s config amount collateralOut .insufficientReserves

/-! ## The redemption pool -/

/-- The collateral mint of a config, which must be set and exist. -/
def loadPoolMints (config : StablecoinConfig) : Result Unit := do
  let _ ← load s.tokens.mints config.mint
  let _ ← load s.tokens.mints config.collateralMint
  require (config.collateralMint ≠ .default) (.sss .noCollateralConfigured)

/-- The caller's collateral token account. -/
def requirePoolAccount (config : StablecoinConfig) (k owner : Pubkey) : Result Unit := do
  let account ← load s.tokens.accounts k
  require (account.owner = owner) (.sss .tokenAccountOwnerMismatch)
  require (account.mint = config.collateralMint) (.sss .redemptionPoolMintMismatch)

def loadPool (config : StablecoinConfig) : Result RedemptionPool := do
  let pool ← load s.redemptionPools (.redemptionPool config.mint)
  require (pool.sssMint = config.mint) (.sss .redemptionPoolMintMismatch)
  pure pool

/-- The vault that the pool has registered. -/
def requirePoolVault (pool : RedemptionPool) (k : Pubkey) : Result Unit := do
  let _ ← load s.tokens.accounts k
  require (k = pool.reserveVault) (.sss .redemptionPoolVaultMismatch)

structure SeedRedemptionPool extends AuthorityAndConfig where
  reserveVault : Pubkey
  reserveSource : Pubkey

/-- The first seed records mint and vault. -/
def RedemptionPool.initialise (p : RedemptionPool) (bump : UInt8) (sssMint reserveVault : Pubkey) :
    RedemptionPool :=
  if p.bump = 0 then { p with bump, sssMint, reserveVault } else p

def seedRedemptionPoolHandler (a : SeedRedemptionPool) (amount maxPoolSize : UInt64)
    (instantRedemptionFeeBps : UInt16) : Result State := do
  let config ← a.loadConfig s
  let poolKey := Pubkey.redemptionPool config.mint
  let pool := (s.redemptionPools poolKey).getD {}
  let vault ← load s.tokens.accounts a.reserveVault
  require (vault.mint = config.collateralMint) (.sss .redemptionPoolMintMismatch)
  requirePoolAccount s config a.reserveSource a.authority.key
  checkSquads config a.authority.key
  loadPoolMints s config
  require (amount > 0) (.sss .invalidAmount)
  require (instantRedemptionFeeBps ≤ RedemptionPool.capFeeBps) (.sss .redemptionFeeTooHigh)
  let pool := pool.initialise (rt.bump poolKey) config.mint a.reserveVault
  require (pool.reserveVault = a.reserveVault) (.sss .redemptionPoolVaultMismatch)
  let liquidity := pool.currentLiquidity.saturatingAdd amount
  requireWhen (maxPoolSize > 0) <| require (liquidity ≤ maxPoolSize) (.sss .redemptionPoolFull)
  let tokens ← (rt.token.transferChecked s.tokens a.reserveSource config.collateralMint
    a.reserveVault a.authority.key amount).okOr .token
  pure { s with
    tokens
    redemptionPools := put s.redemptionPools poolKey
      { pool with
        maxPoolSize, instantRedemptionFeeBps, currentLiquidity := liquidity
        totalSeeded := pool.totalSeeded.saturatingAdd amount } }

structure InstantRedemption where
  user : Signer
  config : Pubkey
  userTokenAccount : Pubkey
  reserveVault : Pubkey
  userReserveAccount : Pubkey

/-- Liquidity, totals and utilization after `amount` is redeemed. -/
def RedemptionPool.redeem (p : RedemptionPool) (amount : UInt64) : RedemptionPool :=
  let totalRedeemed := p.totalRedeemed.saturatingAdd amount
  let totalIn := p.totalSeeded.saturatingAdd p.totalReplenished
  { p with
    currentLiquidity := p.currentLiquidity.saturatingSub amount
    totalRedeemed
    utilizationBps :=
      if totalIn > 0 then
        .ofNat (min (U128.saturatingMul totalRedeemed.toNat 10000 / totalIn.toNat) 10000)
      else p.utilizationBps }

/-- The config is read only: `total_burned` is not moved. Neither the version nor the circuit
breaker is looked at. -/
def instantRedemptionHandler (a : InstantRedemption) (amount : UInt64) : Result State := do
  let config ← loadOwnConfig s a.config
  config.requireNotPaused
  let pool ← loadPool s config
  let userToken ← load s.tokens.accounts a.userTokenAccount
  require (userToken.owner = a.user.key) (.sss .tokenAccountOwnerMismatch)
  require (userToken.mint = config.mint) (.sss .redemptionPoolMintMismatch)
  requirePoolVault s pool a.reserveVault
  requirePoolAccount s config a.userReserveAccount a.user.key
  loadPoolMints s config
  require (amount > 0) (.sss .invalidAmount)
  require (pool.currentLiquidity ≥ amount) (.sss .redemptionPoolEmpty)
  let payout := amount.saturatingSub (feeOf amount pool.instantRedemptionFeeBps)
  require (payout > 0) (.sss .invalidAmount)
  let tokens ← (rt.token.burn s.tokens config.mint a.userTokenAccount a.user.key amount).okOr
    .token
  let tokens ← (rt.token.transferChecked tokens a.reserveVault config.collateralMint
    a.userReserveAccount (.vaultAuthority config.mint) payout).okOr .token
  pure { s with
    tokens
    redemptionPools := put s.redemptionPools (.redemptionPool config.mint) (pool.redeem amount) }

structure ReplenishRedemptionPool where
  replenisher : Signer
  config : Pubkey
  reserveVault : Pubkey
  replenisherSource : Pubkey

def replenishRedemptionPoolHandler (a : ReplenishRedemptionPool) (amount : UInt64) :
    Result State := do
  let config ← loadOwnConfig s a.config
  let pool ← loadPool s config
  requirePoolVault s pool a.reserveVault
  requirePoolAccount s config a.replenisherSource a.replenisher.key
  loadPoolMints s config
  require (amount > 0) (.sss .invalidAmount)
  let liquidity := pool.currentLiquidity.saturatingAdd amount
  requireWhen (pool.maxPoolSize > 0) <|
    require (liquidity ≤ pool.maxPoolSize) (.sss .redemptionPoolFull)
  let tokens ← (rt.token.transferChecked s.tokens a.replenisherSource config.collateralMint
    a.reserveVault a.replenisher.key amount).okOr .token
  pure { s with
    tokens
    redemptionPools := put s.redemptionPools (.redemptionPool config.mint)
      { pool with
        currentLiquidity := liquidity
        totalReplenished := pool.totalReplenished.saturatingAdd amount } }

structure DrainRedemptionPool extends AuthorityAndConfig where
  reserveVault : Pubkey
  drainDestination : Pubkey

def drainRedemptionPoolHandler (a : DrainRedemptionPool) : Result State := do
  let config ← a.loadConfig s
  let pool ← loadPool s config
  requirePoolVault s pool a.reserveVault
  requirePoolAccount s config a.drainDestination a.authority.key
  loadPoolMints s config
  checkSquads config a.authority.key
  let drainAmount := pool.currentLiquidity
  require (drainAmount > 0) (.sss .invalidAmount)
  let tokens ← (rt.token.transferChecked s.tokens a.reserveVault config.collateralMint
    a.drainDestination (.vaultAuthority config.mint) drainAmount).okOr .token
  pure { s with
    tokens
    redemptionPools := put s.redemptionPools (.redemptionPool config.mint)
      { pool with currentLiquidity := 0 } }

/-! ## The redemption queue -/

def StablecoinConfig.requireQueueFlag (c : StablecoinConfig) : Result Unit :=
  require (c.featureFlags &&& flagRedemptionQueue ≠ 0) (.sss .featureNotEnabled)

def loadQueue (config : StablecoinConfig) : Result RedemptionQueue := do
  let rq ← load s.redemptionQueues (.redemptionQueue config.mint)
  require (rq.sssMint = config.mint) (.sss .redemptionQueueNotInitialized)
  pure rq

def initRedemptionQueueHandler (a : AuthorityAndConfig) : Result State := do
  let config ← a.loadConfig s
  config.requireQueueFlag
  requireFree s.redemptionQueues (.redemptionQueue config.mint)
  pure { s with
    redemptionQueues := put s.redemptionQueues (.redemptionQueue config.mint)
      { sssMint := config.mint, minDelaySlots := 750, maxQueueDepth := 1000
        maxRedemptionPerSlotBps := 100, keeperRewardLamports := 1000000 } }

def updateRedemptionQueueHandler (a : AuthorityAndConfig) (minDelaySlots maxQueueDepth :
    Option UInt64) (maxRedemptionPerSlotBps : Option UInt16)
    (keeperRewardLamports : Option UInt64) : Result State := do
  let config ← a.loadConfig s
  let rq ← loadQueue s config
  requireWhen maxQueueDepth.isSome <| require (maxQueueDepth.getD 0 > 0) (.sss .invalidAmount)
  requireWhen maxRedemptionPerSlotBps.isSome <|
    require (maxRedemptionPerSlotBps.getD 0 ≤ 10000) (.sss .invalidAmount)
  pure { s with
    redemptionQueues := put s.redemptionQueues (.redemptionQueue config.mint)
      { rq with
        minDelaySlots := minDelaySlots.getD rq.minDelaySlots
        maxQueueDepth := maxQueueDepth.getD rq.maxQueueDepth
        maxRedemptionPerSlotBps := maxRedemptionPerSlotBps.getD rq.maxRedemptionPerSlotBps
        keeperRewardLamports := keeperRewardLamports.getD rq.keeperRewardLamports } }

structure EnqueueRedemption where
  user : Signer
  config : Pubkey
  userStableAta : Pubkey
  /-- Any mint; it is not compared with the config's. -/
  stableMint : Pubkey

def enqueueRedemptionHandler (a : EnqueueRedemption) (amount : UInt64) : Result State := do
  let config ← loadOwnConfig s a.config
  config.requireQueueFlag
  let queueKey := Pubkey.redemptionQueue config.mint
  let rq ← loadQueue s config
  let escrow := Pubkey.queueEscrow config.mint rq.queueTail
  let entryKey := Pubkey.redemptionEntry config.mint rq.queueTail
  requireTokenOf s a.userStableAta a.stableMint a.user.key
  let tokens ← (rt.token.initializeAccount s.tokens escrow a.stableMint queueKey).okOr .token
  requireFree s.redemptionEntries entryKey
  require (amount > 0) (.sss .invalidAmount)
  require (rq.queueTail.saturatingSub rq.queueHead < rq.maxQueueDepth)
    (.sss .redemptionQueueFull)
  let tokens ← (rt.token.thawAccount tokens escrow a.stableMint a.config).okOr .token
  let tokens ← (rt.token.transferChecked tokens a.userStableAta a.stableMint escrow a.user.key
    amount).okOr .token
  pure { s with
    tokens
    redemptionEntries := put s.redemptionEntries entryKey
      { queueIndex := rq.queueTail, owner := a.user.key, amount, enqueueSlot := clock.slot }
    redemptionQueues := put s.redemptionQueues queueKey
      { rq with queueTail := rq.queueTail.saturatingAdd 1 } }

/-- An entry that is still waiting. -/
def loadEntry (config : StablecoinConfig) (queueIndex : UInt64) : Result RedemptionEntry := do
  let re ← load s.redemptionEntries (.redemptionEntry config.mint queueIndex)
  require (re.fulfilled = false) (.sss .redemptionAlreadyProcessed)
  require (re.cancelled = false) (.sss .redemptionAlreadyProcessed)
  pure re

structure ProcessRedemption where
  keeper : Signer
  config : Pubkey
  reserveVault : Pubkey
  reserveVaultAuthority : Signer
  userCollateralAta : Pubkey
  /-- Any mint; it is not compared with the config's. -/
  stableMint : Pubkey
  collateralMint : Pubkey

/-- A new slot resets what has been redeemed in the current one. -/
def RedemptionQueue.rollSlot (rq : RedemptionQueue) (slot : UInt64) : RedemptionQueue :=
  if slot ≠ rq.lastSlotProcessed then
    { rq with lastSlotProcessed := slot, slotRedemptionTotal := 0 }
  else rq

/-- Neither `paused` nor the circuit breaker is looked at. -/
def processRedemptionHandler (a : ProcessRedemption) (queueIndex : UInt64) : Result State := do
  let config ← loadOwnConfig s a.config
  config.requireQueueFlag
  let queueKey := Pubkey.redemptionQueue config.mint
  let rq ← loadQueue s config
  let re ← loadEntry s config queueIndex
  let escrow := Pubkey.queueEscrow config.mint queueIndex
  requireTokenOf s escrow a.stableMint queueKey
  let vault ← load s.tokens.accounts a.reserveVault
  require (vault.owner = a.reserveVaultAuthority.key) (.anchor .constraintTokenOwner)
  let stableMint ← load s.tokens.mints a.stableMint
  let _ ← load s.tokens.mints a.collateralMint
  require (queueIndex = rq.queueHead) (.sss .redemptionQueueOutOfOrder)
  require (clock.slot ≥ re.enqueueSlot.saturatingAdd rq.minDelaySlots) (.sss .redemptionNotReady)
  let rq := rq.rollSlot clock.slot
  let slotCap := max (stableMint.supply.saturatingMul rq.maxRedemptionPerSlotBps.toUInt64 / 10000) 1
  let slotTotal := rq.slotRedemptionTotal.saturatingAdd re.amount
  require (slotTotal ≤ slotCap) (.sss .redemptionSlotCapExceeded)
  let tokens ← (rt.token.burn s.tokens a.stableMint escrow queueKey re.amount).okOr .token
  let tokens ← (rt.token.transferChecked tokens a.reserveVault a.collateralMint
    a.userCollateralAta a.reserveVaultAuthority.key re.amount).okOr .token
  let config ← config.addBurned re.amount
  let totalCollateral ← (config.totalCollateral.checkedSub re.amount).okOr (.sss .overflow)
  pure { s with
    tokens
    configs := put s.configs a.config { config with totalCollateral }
    redemptionQueues := put s.redemptionQueues queueKey
      { rq with slotRedemptionTotal := slotTotal, queueHead := rq.queueHead.saturatingAdd 1 }
    redemptionEntries := put s.redemptionEntries (.redemptionEntry config.mint queueIndex)
      { re with fulfilled := true } }

structure CancelRedemption where
  owner : Signer
  config : Pubkey
  userStableAta : Pubkey
  stableMint : Pubkey

def cancelRedemptionHandler (a : CancelRedemption) (queueIndex : UInt64) : Result State := do
  let config ← loadOwnConfig s a.config
  let queueKey := Pubkey.redemptionQueue config.mint
  let rq ← loadQueue s config
  let re ← loadEntry s config queueIndex
  require (re.owner = a.owner.key) (.sss .redemptionNotOwner)
  let escrow := Pubkey.queueEscrow config.mint queueIndex
  requireTokenOf s escrow a.stableMint queueKey
  requireTokenOf s a.userStableAta a.stableMint a.owner.key
  let tokens ← (rt.token.transferChecked s.tokens escrow a.stableMint a.userStableAta queueKey
    re.amount).okOr .token
  pure { s with
    tokens
    redemptionEntries := put s.redemptionEntries (.redemptionEntry config.mint queueIndex)
      { re with cancelled := true }
    redemptionQueues := put s.redemptionQueues queueKey
      { rq with
        queueHead :=
          if queueIndex = rq.queueHead then rq.queueHead.saturatingAdd 1 else rq.queueHead } }

/-- Anyone may step over a head entry that is done with. -/
def compactRedemptionHeadHandler (configKey : Pubkey) (headIndex : UInt64) : Result State := do
  let config ← loadOwnConfig s configKey
  config.requireQueueFlag
  let rq ← loadQueue s config
  let headEntry ← load s.redemptionEntries (.redemptionEntry config.mint headIndex)
  require (headEntry.cancelled ∨ headEntry.fulfilled) (.sss .redemptionQueueOutOfOrder)
  require (headIndex = rq.queueHead) (.sss .redemptionQueueOutOfOrder)
  pure { s with
    redemptionQueues := put s.redemptionQueues (.redemptionQueue config.mint)
      { rq with queueHead := rq.queueHead.saturatingAdd 1 } }

/-! ## The redemption guarantee -/

def defaultSlaSlots : UInt64 := 450
def penaltyBps : UInt64 := 1000
def slotsPerDay : UInt64 := 216000

def loadGuarantee (config : StablecoinConfig) : Result RedemptionGuarantee := do
  let rg ← load s.redemptionGuarantees (.redemptionGuarantee config.mint)
  require (rg.sssMint = config.mint) (.sss .invalidVault)
  pure rg

def registerRedemptionPoolHandler (a : AuthorityAndConfig) (reserveVault : Pubkey)
    (maxDailyRedemption : UInt64) : Result State := do
  let config ← a.loadConfig s
  let rgKey := Pubkey.redemptionGuarantee config.mint
  let rg := (s.redemptionGuarantees rgKey).getD {}
  checkSquads config a.authority.key
  require (maxDailyRedemption > 0) (.sss .invalidAmount)
  pure { s with
    redemptionGuarantees := put s.redemptionGuarantees rgKey
      { rg with
        bump := if rg.bump = 0 then rt.bump rgKey else rg.bump
        sssMint := if rg.bump = 0 then config.mint else rg.sssMint
        reserveVault, maxDailyRedemption, dailyRedeemed := 0, dayStartSlot := clock.slot
        slaSlots := defaultSlaSlots, lastUpdatedSlot := clock.slot } }

structure RequestRedemption where
  user : Signer
  config : Pubkey
  userStableAta : Pubkey
  stableMint : Pubkey

/-- A new day resets what has been requested in the current one. -/
def RedemptionGuarantee.rollDay (rg : RedemptionGuarantee) (slot : UInt64) :
    RedemptionGuarantee :=
  if slot.saturatingSub rg.dayStartSlot ≥ slotsPerDay then
    { rg with dailyRedeemed := 0, dayStartSlot := slot }
  else rg

def requestRedemptionHandler (a : RequestRedemption) (amount : UInt64) : Result State := do
  let config ← loadOwnConfig s a.config
  let rgKey := Pubkey.redemptionGuarantee config.mint
  let requestKey := Pubkey.redemptionRequest config.mint a.user.key
  let escrow := Pubkey.redemptionEscrow config.mint a.user.key
  let rg ← loadGuarantee s config
  requireTokenOf s a.userStableAta config.mint a.user.key
  requireTokenOf s escrow config.mint rgKey
  requireFree s.redemptionRequests requestKey
  let _ ← load s.tokens.mints a.stableMint
  require (amount > 0) (.sss .invalidAmount)
  let rg := rg.rollDay clock.slot
  let dailyRedeemed := rg.dailyRedeemed.saturatingAdd amount
  require (dailyRedeemed ≤ rg.maxDailyRedemption) (.sss .redemptionDailyLimitExceeded)
  let tokens ← (rt.token.transferChecked s.tokens a.userStableAta a.stableMint escrow a.user.key
    amount).okOr .token
  pure { s with
    tokens
    redemptionGuarantees := put s.redemptionGuarantees rgKey { rg with dailyRedeemed }
    redemptionRequests := put s.redemptionRequests requestKey
      { sssMint := config.mint, user := a.user.key, amount, requestedSlot := clock.slot
        expirySlot := clock.slot.saturatingAdd rg.slaSlots } }

/-- A request that is still open, given by its own address. -/
def loadRequest (config : StablecoinConfig) (k : Pubkey) : Result RedemptionRequest := do
  let rr ← load s.redemptionRequests k
  require (k = .redemptionRequest config.mint rr.user) (.anchor .constraintSeeds)
  require (rr.fulfilled = false) (.sss .redemptionAlreadyFulfilled)
  require (rr.slaBreached = false) (.sss .redemptionSlaBreached)
  pure rr

structure FulfillRedemption where
  fulfiller : Signer
  config : Pubkey
  redemptionRequest : Pubkey
  reserveVault : Pubkey
  userCollateralAta : Pubkey
  burnDestination : Pubkey
  stableMint : Pubkey
  collateralMint : Pubkey

/-- `paused` is not looked at. -/
def fulfillRedemptionHandler (a : FulfillRedemption) : Result State := do
  let config ← loadOwnConfig s a.config
  let rgKey := Pubkey.redemptionGuarantee config.mint
  let rg ← loadGuarantee s config
  let rr ← loadRequest s config a.redemptionRequest
  let escrow := Pubkey.redemptionEscrow config.mint rr.user
  requireTokenOf s escrow config.mint rgKey
  let _ ← load s.tokens.accounts a.reserveVault
  require (a.reserveVault = rg.reserveVault) (.sss .invalidVault)
  let destination ← load s.tokens.accounts a.burnDestination
  require (destination.mint = config.mint) (.anchor .constraintTokenMint)
  let _ ← load s.tokens.mints a.stableMint
  let _ ← load s.tokens.mints a.collateralMint
  require (clock.slot ≤ rr.expirySlot) (.sss .redemptionSlaBreached)
  let tokens ← (rt.token.burn s.tokens a.stableMint escrow rgKey rr.amount).okOr .token
  let tokens ← (rt.token.transferChecked tokens a.reserveVault a.collateralMint
    a.userCollateralAta a.fulfiller.key rr.amount).okOr .token
  let config ← config.addBurned rr.amount
  pure { s with
    tokens
    redemptionRequests := put s.redemptionRequests a.redemptionRequest
      { rr with fulfilled := true }
    configs := put s.configs a.config config }

structure ClaimExpiredRedemption where
  user : Signer
  config : Pubkey
  userStableAta : Pubkey
  insuranceFund : Pubkey
  userCollateralAta : Pubkey
  stableMint : Pubkey
  penaltyMint : Pubkey

def claimExpiredRedemptionHandler (a : ClaimExpiredRedemption) : Result State := do
  let config ← loadOwnConfig s a.config
  let rgKey := Pubkey.redemptionGuarantee config.mint
  let requestKey := Pubkey.redemptionRequest config.mint a.user.key
  let escrow := Pubkey.redemptionEscrow config.mint a.user.key
  let _ ← loadGuarantee s config
  let rr ← loadRequest s config requestKey
  require (rr.user = a.user.key) (.sss .unauthorized)
  requireTokenOf s escrow config.mint rgKey
  requireTokenOf s a.userStableAta config.mint a.user.key
  let fund ← load s.tokens.accounts a.insuranceFund
  require (a.insuranceFund = config.insuranceFundPubkey) (.sss .invalidVault)
  let _ ← load s.tokens.mints a.stableMint
  let _ ← load s.tokens.mints a.penaltyMint
  require (clock.slot > rr.expirySlot) (.sss .redemptionNotExpired)
  require (config.insuranceFundPubkey ≠ .default) (.sss .insuranceFundNotConfigured)
  let tokens ← (rt.token.transferChecked s.tokens escrow a.stableMint a.userStableAta rgKey
    rr.amount).okOr .token
  let penaltyAmount := min (rr.amount.saturatingMul penaltyBps / 10000) fund.amount
  let tokens ← onlyWhen (penaltyAmount > 0) tokens <|
    (rt.token.transferChecked tokens a.insuranceFund a.penaltyMint a.userCollateralAta a.config
      penaltyAmount).okOr .token
  pure { s with
    tokens
    redemptionRequests := put s.redemptionRequests requestKey { rr with slaBreached := true } }

end SolanaStablecoin
