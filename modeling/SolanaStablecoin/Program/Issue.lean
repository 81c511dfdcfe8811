import SolanaStablecoin.Program.Admin
import SolanaStablecoin.Program.Data
import SolanaStablecoin.Program.Oracle

/-! Minting and burning by minters, by programs over the versioned interface, by market makers
and by the bridge relayer. -/

namespace SolanaStablecoin

variable (rt : Runtime) (clock : Clock) (s : State)

/-! ## Shared guards and bookkeeping -/

def StablecoinConfig.requireVersion (c : StablecoinConfig) : Result Unit :=
  require (c.version ≥ minSupportedVersion) (.sss .configVersionTooOld)

def StablecoinConfig.requireNotPaused (c : StablecoinConfig) : Result Unit :=
  require (c.paused = false) (.sss .mintPaused)

def StablecoinConfig.requireNoCircuitBreaker (c : StablecoinConfig) : Result Unit :=
  require (c.featureFlags &&& flagCircuitBreaker = 0) (.sss .circuitBreakerActive)

def StablecoinConfig.checkMaxSupply (c : StablecoinConfig) (amount : UInt64) : Result Unit :=
  requireWhen (c.maxSupply > 0) do
    let supply ← (c.netSupply.checkedAdd amount).okOr (.sss .overflow)
    require (supply ≤ c.maxSupply) (.sss .maxSupplyExceeded)

def StablecoinConfig.addMinted (c : StablecoinConfig) (amount : UInt64) :
    Result StablecoinConfig := do
  let totalMinted ← (c.totalMinted.checkedAdd amount).okOr (.sss .overflow)
  pure { c with totalMinted }

def StablecoinConfig.addBurned (c : StablecoinConfig) (amount : UInt64) :
    Result StablecoinConfig := do
  let totalBurned ← (c.totalBurned.checkedAdd amount).okOr (.sss .overflow)
  pure { c with totalBurned }

def requireAmount (amount : UInt64) : Result Unit := require (amount > 0) (.sss .zeroAmount)

/-- The config derived from `mint`, which must record that mint. -/
def loadConfigOfMint (mint : Pubkey) : Result StablecoinConfig := do
  let config ← load s.configs (.stablecoinConfig mint)
  let _ ← load s.tokens.mints mint
  require (mint = config.mint) (.anchor .constraintRaw)
  pure config

/-! ## mint and burn -/

structure MintTokens where
  minter : Signer
  mint : Pubkey
  recipientTokenAccount : Pubkey
  remainingAccounts : List Pubkey := []

def loadMinterInfo (config : Pubkey) (minter : Signer) : Result MinterInfo := do
  let minterInfo ← load s.minterInfos (.minterInfo config minter.key)
  require (minterInfo.config = config) (.sss .notAMinter)
  require (minterInfo.minter = minter.key) (.sss .notAMinter)
  pure minterInfo

/-- With `FLAG_POR_HALT_ON_BREACH` the attestation must be passed, and its ratio be at least the
configured minimum. -/
def checkPorBreach (config : StablecoinConfig) (remainingAccounts : List Pubkey) : Result Unit :=
  requireWhen (config.featureFlags &&& flagPorHaltOnBreach ≠ 0) do
    let porInfo ← remainingAccounts.head?.okOr (.sss .porNotAttested)
    require (porInfo = .proofOfReserves config.mint) (.sss .invalidVault)
    let por ← (s.proofsOfReserves porInfo).okOr (.anchor .accountDidNotDeserialize)
    require (por.lastAttestationSlot > 0) (.sss .porNotAttested)
    let minRatio := config.minReserveRatioBps.toUInt64
    require (minRatio = 0 ∨ por.lastVerifiedRatioBps ≥ minRatio) (.sss .porBreachHaltsMinting)

/-- A new epoch resets what the minter has minted in the current one. -/
def MinterInfo.rollEpoch (m : MinterInfo) (epoch : UInt64) : MinterInfo :=
  if m.lastEpochReset = 0 ∨ epoch ≠ m.lastEpochReset then
    { m with mintedThisEpoch := 0, lastEpochReset := epoch }
  else m

def MinterInfo.checkLimits (m : MinterInfo) (amount : UInt64) : Result Unit := do
  requireWhen (m.maxMintPerEpoch > 0) do
    let minted ← (m.mintedThisEpoch.checkedAdd amount).okOr (.sss .overflow)
    require (minted ≤ m.maxMintPerEpoch) (.sss .mintVelocityExceeded)
  requireWhen (m.cap > 0) do
    let minted ← (m.minted.checkedAdd amount).okOr (.sss .overflow)
    require (minted ≤ m.cap) (.sss .minterCapExceeded)

def MinterInfo.addMinted (m : MinterInfo) (amount : UInt64) : Result MinterInfo := do
  let minted ← (m.minted.checkedAdd amount).okOr (.sss .overflow)
  let mintedThisEpoch ← (m.mintedThisEpoch.checkedAdd amount).okOr (.sss .overflow)
  pure { m with minted, mintedThisEpoch }

def mintHandler (a : MintTokens) (amount : UInt64) : Result State := do
  let configKey := Pubkey.stablecoinConfig a.mint
  let config ← loadConfigOfMint s a.mint
  let minterInfo ← loadMinterInfo s configKey a.minter
  let recipient ← load s.tokens.accounts a.recipientTokenAccount
  require (recipient.mint = a.mint) (.sss .invalidMint)
  config.requireVersion
  requireAmount amount
  config.requireNotPaused
  config.requireNoCircuitBreaker
  checkPorBreach s config a.remainingAccounts
  let minterInfo := minterInfo.rollEpoch clock.epoch
  minterInfo.checkLimits amount
  config.checkMaxSupply amount
  let tokens ← (rt.token.mintTo s.tokens a.mint a.recipientTokenAccount configKey amount).okOr
    .token
  let config ← config.addMinted amount
  let minterInfo ← minterInfo.addMinted amount
  pure { s with
    tokens
    configs := put s.configs configKey config
    minterInfos := put s.minterInfos (.minterInfo configKey a.minter.key) minterInfo }

structure BurnTokens where
  minter : Signer
  mint : Pubkey
  sourceTokenAccount : Pubkey

def burnHandler (a : BurnTokens) (amount : UInt64) : Result State := do
  let configKey := Pubkey.stablecoinConfig a.mint
  let config ← loadConfigOfMint s a.mint
  let _ ← loadMinterInfo s configKey a.minter
  let source ← load s.tokens.accounts a.sourceTokenAccount
  require (source.mint = a.mint) (.sss .invalidMint)
  require (source.owner = a.minter.key) (.anchor .constraintRaw)
  config.requireVersion
  requireAmount amount
  config.requireNotPaused
  config.requireNoCircuitBreaker
  let tokens ← (rt.token.burn s.tokens a.mint a.sourceTokenAccount a.minter.key amount).okOr
    .token
  let config ← config.addBurned amount
  pure { s with tokens, configs := put s.configs configKey config }

/-! ## The versioned interface -/

def initInterfaceVersionHandler (a : AuthorityAndMint) : Result State := do
  let config ← load s.configs a.config
  require (config.authority = a.authority.key) (.sss .unauthorized)
  require (a.mint = config.mint) (.anchor .constraintAddress)
  requireFree s.interfaceVersions (.interfaceVersion a.mint)
  checkSquads config a.authority.key
  pure { s with
    interfaceVersions := put s.interfaceVersions (.interfaceVersion a.mint)
      { mint := a.mint, version := InterfaceVersion.currentVersion, active := true } }

/-- The interface account is given by its own address; the config follows from its mint. -/
structure UpdateInterfaceVersion where
  authority : Signer
  interfaceVersion : Pubkey

def updateInterfaceVersionHandler (a : UpdateInterfaceVersion) (newVersion : Option UInt8)
    (active : Option Bool) : Result State := do
  let iv ← load s.interfaceVersions a.interfaceVersion
  let config ← load s.configs (.stablecoinConfig iv.mint)
  require (config.authority = a.authority.key) (.sss .unauthorized)
  require (a.interfaceVersion = .interfaceVersion iv.mint) (.anchor .constraintSeeds)
  checkSquads config a.authority.key
  require (newVersion.getD iv.version ≥ iv.version) (.sss .invalidInterfaceVersion)
  pure { s with
    interfaceVersions := put s.interfaceVersions a.interfaceVersion
      { iv with version := newVersion.getD iv.version, active := active.getD iv.active } }

def checkInterface (mint : Pubkey) (requiredVersion : UInt8) : Result Unit := do
  let iv ← load s.interfaceVersions (.interfaceVersion mint)
  require iv.active (.sss .interfaceDeprecated)
  require (iv.version = requiredVersion) (.sss .interfaceVersionMismatch)

/-- A second copy of the logic of `mint`, behind the interface gate. -/
def cpiMintHandler (a : MintTokens) (amount : UInt64) (requiredVersion : UInt8) :
    Result State := do
  let configKey := Pubkey.stablecoinConfig a.mint
  let config ← load s.configs configKey
  let minterInfo ← loadMinterInfo s configKey a.minter
  let _ ← load s.tokens.mints a.mint
  require (a.mint = config.mint) (.anchor .constraintRaw)
  let recipient ← load s.tokens.accounts a.recipientTokenAccount
  require (recipient.mint = a.mint) (.sss .invalidMint)
  checkInterface s a.mint requiredVersion
  config.requireVersion
  requireAmount amount
  config.requireNotPaused
  config.requireNoCircuitBreaker
  checkPorBreach s config a.remainingAccounts
  let minterInfo := minterInfo.rollEpoch clock.epoch
  minterInfo.checkLimits amount
  config.checkMaxSupply amount
  let tokens ← (rt.token.mintTo s.tokens a.mint a.recipientTokenAccount configKey amount).okOr
    .token
  let config ← config.addMinted amount
  let minterInfo ← minterInfo.addMinted amount
  pure { s with
    tokens
    configs := put s.configs configKey config
    minterInfos := put s.minterInfos (.minterInfo configKey a.minter.key) minterInfo }

/-- A second copy of the logic of `burn`, behind the interface gate. -/
def cpiBurnHandler (a : BurnTokens) (amount : UInt64) (requiredVersion : UInt8) :
    Result State := do
  let configKey := Pubkey.stablecoinConfig a.mint
  let config ← load s.configs configKey
  let _ ← loadMinterInfo s configKey a.minter
  let _ ← load s.tokens.mints a.mint
  require (a.mint = config.mint) (.anchor .constraintRaw)
  let source ← load s.tokens.accounts a.sourceTokenAccount
  require (source.mint = a.mint) (.sss .invalidMint)
  require (source.owner = a.minter.key) (.anchor .constraintRaw)
  checkInterface s a.mint requiredVersion
  config.requireVersion
  requireAmount amount
  config.requireNotPaused
  config.requireNoCircuitBreaker
  let tokens ← (rt.token.burn s.tokens a.mint a.sourceTokenAccount a.minter.key amount).okOr
    .token
  let config ← config.addBurned amount
  pure { s with tokens, configs := put s.configs configKey config }

/-! ## Market makers -/

/-- `10i64.pow(e)` -/
def pow10I64 (e : Nat) : Result Int := if e ≤ 18 then .ok (10 ^ e) else .error .panic

/-- An oracle price in millionths of a dollar. -/
def OraclePrice.microUsd (p : OraclePrice) : Result Int :=
  if p.expo.toInt ≥ 0 then do
    let scale ← pow10I64 p.expoAbs
    pure (Int.clamp64 (Int.clamp64 (p.price.toInt * scale) * 1000000))
  else if p.expoAbs > 6 then do
    let divisor ← pow10I64 (p.expoAbs - 6)
    pure (p.price.toInt / divisor)
  else do
    let scale ← pow10I64 (6 - p.expoAbs)
    pure (Int.clamp64 (p.price.toInt * scale))

def pegPriceMicroUsd : Int := 1000000

/-- The price is within `spread_bps` of the peg; no configured feed, no check. -/
def checkOracleSpread (oracleFeedAcct : Pubkey) (config : StablecoinConfig) (spreadBps : UInt16) :
    Result Unit :=
  requireWhen (config.oracleFeed ≠ .default) do
    let price ← getOraclePrice rt clock s oracleFeedAcct config
    let priceInMicroUsd ← price.microUsd
    require ((priceInMicroUsd - pegPriceMicroUsd).natAbs ≤ spreadBps.toNat * 100)
      (.sss .oraclePriceOutsideSpread)

def initMarketMakerConfigHandler (a : AuthorityAndMint)
    (mmMintLimitPerSlot mmBurnLimitPerSlot : UInt64) (spreadBps : UInt16) : Result State := do
  let config ← a.loadConfig s
  requireFree s.marketMakerConfigs (.marketMakerConfig a.mint)
  checkSquads config a.authority.key
  require (config.featureFlags &&& flagMarketMakerHooks ≠ 0) (.sss .marketMakerHooksNotEnabled)
  pure { s with
    marketMakerConfigs := put s.marketMakerConfigs (.marketMakerConfig a.mint)
      { sssMint := a.mint, mmMintLimitPerSlot, mmBurnLimitPerSlot, spreadBps } }

/-- The list may hold ten by the check, but the account has room for eight. -/
def registerMarketMakerHandler (a : AuthorityAndMint) (mmPubkey : Pubkey) : Result State := do
  let config ← a.loadConfig s
  let mmConfig ← load s.marketMakerConfigs (.marketMakerConfig a.mint)
  require (config.featureFlags &&& flagMarketMakerHooks ≠ 0) (.sss .marketMakerHooksDisabled)
  checkSquads config a.authority.key
  require (mmPubkey ∉ mmConfig.whitelistedMms) (.sss .marketMakerAlreadyRegistered)
  require (mmConfig.whitelistedMms.length < 10) (.sss .marketMakerListFull)
  require (mmConfig.whitelistedMms.length < 8) (.anchor .accountDidNotSerialize)
  pure { s with
    marketMakerConfigs := put s.marketMakerConfigs (.marketMakerConfig a.mint)
      { mmConfig with whitelistedMms := mmConfig.whitelistedMms ++ [mmPubkey] } }

structure MmAccounts where
  marketMaker : Signer
  mint : Pubkey
  mmTokenAccount : Pubkey
  oracleFeed : Pubkey

/-- What `mm_mint` and `mm_burn` check before their rate limits. -/
def MmAccounts.check (a : MmAccounts) (amount : UInt64) :
    Result (StablecoinConfig × MarketMakerConfig) := do
  let config ← loadConfigOfMint s a.mint
  config.requireNotPaused
  let mmConfig ← load s.marketMakerConfigs (.marketMakerConfig a.mint)
  let account ← load s.tokens.accounts a.mmTokenAccount
  require (account.mint = a.mint) (.sss .tokenAccountMintMismatch)
  require (account.owner = a.marketMaker.key) (.sss .tokenAccountOwnerMismatch)
  requireAmount amount
  require (config.featureFlags &&& flagMarketMakerHooks ≠ 0) (.sss .marketMakerHooksDisabled)
  config.requireNoCircuitBreaker
  require (a.marketMaker.key ∈ mmConfig.whitelistedMms) (.sss .notWhitelistedMarketMaker)
  checkOracleSpread rt clock s a.oracleFeed config mmConfig.spreadBps
  pure (config, mmConfig)

def mmMintHandler (a : MmAccounts) (amount : UInt64) : Result State := do
  let configKey := Pubkey.stablecoinConfig a.mint
  let (config, mmConfig) ← a.check rt clock s amount
  let minted := if clock.slot ≠ mmConfig.lastMintSlot then 0 else mmConfig.mmMintedThisSlot
  let newTotal ← (minted.checkedAdd amount).okOr (.sss .mmMintLimitExceeded)
  require (newTotal ≤ mmConfig.mmMintLimitPerSlot) (.sss .mmMintLimitExceeded)
  requireWhen (config.maxSupply > 0) <|
    require ((config.netSupply.checkedAdd amount).getD (.ofNat (2 ^ 64 - 1)) ≤ config.maxSupply)
      (.sss .maxSupplyExceeded)
  let tokens ← (rt.token.mintTo s.tokens a.mint a.mmTokenAccount configKey amount).okOr .token
  let config ← config.addMinted amount
  pure { s with
    tokens
    configs := put s.configs configKey config
    marketMakerConfigs := put s.marketMakerConfigs (.marketMakerConfig a.mint)
      { mmConfig with mmMintedThisSlot := newTotal, lastMintSlot := clock.slot } }

def mmBurnHandler (a : MmAccounts) (amount : UInt64) : Result State := do
  let configKey := Pubkey.stablecoinConfig a.mint
  let (config, mmConfig) ← a.check rt clock s amount
  let burned := if clock.slot ≠ mmConfig.lastBurnSlot then 0 else mmConfig.mmBurnedThisSlot
  let newTotal ← (burned.checkedAdd amount).okOr (.sss .mmBurnLimitExceeded)
  require (newTotal ≤ mmConfig.mmBurnLimitPerSlot) (.sss .mmBurnLimitExceeded)
  let tokens ← (rt.token.burn s.tokens a.mint a.mmTokenAccount a.marketMaker.key amount).okOr
    .token
  let config ← config.addBurned amount
  pure { s with
    tokens
    configs := put s.configs configKey config
    marketMakerConfigs := put s.marketMakerConfigs (.marketMakerConfig a.mint)
      { mmConfig with mmBurnedThisSlot := newTotal, lastBurnSlot := clock.slot } }

/-! ## The bridge -/

def initBridgeConfigHandler (a : AuthorityAndMint) (bridgeType : UInt8) (bridgeProgram : Pubkey)
    (maxBridgeAmountPerTx : UInt64) (bridgeFeeBps : UInt16) (feeVault : Pubkey) :
    Result State := do
  let config ← load s.configs a.config
  require (config.authority = a.authority.key) (.sss .unauthorized)
  let _ ← load s.tokens.mints a.mint
  requireFree s.bridgeConfigs (.bridgeConfig a.mint)
  require (bridgeFeeBps ≤ 1000) (.sss .bridgeFeeTooHigh)
  require (bridgeType = BridgeConfig.bridgeTypeWormhole ∨
    bridgeType = BridgeConfig.bridgeTypeLayerzero) (.sss .invalidBridgeType)
  pure { s with
    bridgeConfigs := put s.bridgeConfigs (.bridgeConfig a.mint)
      { sssMint := a.mint, bridgeType, bridgeProgram, maxBridgeAmountPerTx, bridgeFeeBps
        feeVault, authority := config.authority } }

/-- The bridge config of a mint, which must record that mint. -/
def loadBridgeConfig (mint : Pubkey) : Result BridgeConfig := do
  let bc ← load s.bridgeConfigs (.bridgeConfig mint)
  require (bc.sssMint = mint) (.sss .bridgeConfigMintMismatch)
  pure bc

/-- The guards that open both directions. -/
def StablecoinConfig.requireBridge (c : StablecoinConfig) (amount : UInt64) : Result Unit := do
  requireAmount amount
  c.requireNotPaused
  c.requireNoCircuitBreaker
  require (c.featureFlags &&& flagBridgeEnabled ≠ 0) (.sss .bridgeNotEnabled)

structure BridgeTokensOut where
  sender : Signer
  mint : Pubkey
  senderTokenAccount : Pubkey
  feeVault : Pubkey

/-- `amount * fee_bps / 10_000` -/
def feeOf (amount : UInt64) (feeBps : UInt16) : UInt64 :=
  .ofNat (amount.toNat * feeBps.toNat / 10000)

def bridgeOutHandler (a : BridgeTokensOut) (amount : UInt64) : Result State := do
  let configKey := Pubkey.stablecoinConfig a.mint
  let config ← loadConfigOfMint s a.mint
  let bc ← loadBridgeConfig s a.mint
  let sender ← load s.tokens.accounts a.senderTokenAccount
  require (sender.owner = a.sender.key) (.sss .tokenAccountOwnerMismatch)
  require (sender.mint = a.mint) (.sss .tokenAccountMintMismatch)
  let feeVault ← load s.tokens.accounts a.feeVault
  require (a.feeVault = bc.feeVault) (.sss .feeVaultMismatch)
  require (feeVault.mint = a.mint) (.sss .tokenAccountMintMismatch)
  config.requireBridge amount
  require (bc.maxBridgeAmountPerTx = 0 ∨ amount ≤ bc.maxBridgeAmountPerTx)
    (.sss .bridgeAmountExceedsLimit)
  let feeAmount := feeOf amount bc.bridgeFeeBps
  let burnAmount ← (amount.checkedSub feeAmount).okOr (.sss .overflow)
  requireAmount burnAmount
  let tokens ← onlyWhen (feeAmount > 0) s.tokens <|
    (rt.token.transferChecked s.tokens a.senderTokenAccount a.mint a.feeVault a.sender.key
      feeAmount).okOr .token
  let tokens ← (rt.token.burn tokens a.mint a.senderTokenAccount a.sender.key burnAmount).okOr
    .token
  let config ← config.addBurned burnAmount
  let totalBridgedOut ← (bc.totalBridgedOut.checkedAdd burnAmount).okOr (.sss .overflow)
  pure { s with
    tokens
    configs := put s.configs configKey config
    bridgeConfigs := put s.bridgeConfigs (.bridgeConfig a.mint) { bc with totalBridgedOut } }

structure BridgeTokensIn where
  relayer : Signer
  mint : Pubkey
  recipientTokenAccount : Pubkey
  sanctionsRecord : Option Pubkey := none

/-- The sanctions check reads the flag at byte 72 of the record. -/
def checkSanctions (config : StablecoinConfig) (mint recipient : Pubkey)
    (sanctionsRecord : Option Pubkey) : Result Unit :=
  requireWhen (config.featureFlags &&& flagSanctionsOracle ≠ 0) do
    let srAccount ← sanctionsRecord.okOr (.sss .sanctionsRecordMissing)
    require (srAccount = .sanctionsRecord mint recipient) (.sss .unauthorized)
    let srData := s.data srAccount
    requireWhen (srData.length ≥ 73) do
      let isSanctioned ← (Cell.u8.read srData 72).okOr .panic
      require (isSanctioned = 0) (.sss .sanctionedAddress)

def bridgeInHandler (a : BridgeTokensIn) (proofBytes : List UInt8) (amount : UInt64)
    (recipient : Pubkey) (messageId : BitVec 256) : Result State := do
  let configKey := Pubkey.stablecoinConfig a.mint
  let config ← loadConfigOfMint s a.mint
  let bc ← loadBridgeConfig s a.mint
  require (a.relayer.key = bc.authority) (.sss .bridgeRelayerUnauthorized)
  requireFree s.consumedMessageIds (.consumedMessageId a.mint messageId)
  let recipientAccount ← load s.tokens.accounts a.recipientTokenAccount
  require (recipientAccount.mint = a.mint) (.sss .tokenAccountMintMismatch)
  config.requireBridge amount
  require (recipientAccount.owner = recipient) (.sss .bridgeRecipientMismatch)
  require (proofBytes.length ≥ 32) (.sss .bridgeProofEmpty)
  require (bc.authority ≠ .default) (.sss .unauthorized)
  config.checkMaxSupply amount
  checkSanctions s config a.mint recipient a.sanctionsRecord
  let tokens ← (rt.token.mintTo s.tokens a.mint a.recipientTokenAccount configKey amount).okOr
    .token
  let config ← config.addMinted amount
  let totalBridgedIn ← (bc.totalBridgedIn.checkedAdd amount).okOr (.sss .overflow)
  pure { s with
    tokens
    configs := put s.configs configKey config
    consumedMessageIds := put s.consumedMessageIds (.consumedMessageId a.mint messageId)
      { messageId, sssMint := a.mint }
    bridgeConfigs := put s.bridgeConfigs (.bridgeConfig a.mint) { bc with totalBridgedIn } }

end SolanaStablecoin
