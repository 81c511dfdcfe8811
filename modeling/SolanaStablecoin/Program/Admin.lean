import SolanaStablecoin.Program.State

/-! The administrative instructions: creating a stablecoin, managing minters, pausing, feature
flags, freezing, timelocked operations, stability-fee parameters and oracle configuration. -/

namespace SolanaStablecoin

variable (rt : Runtime) (clock : Clock) (s : State)

/-! ## Shared guards -/

/-- A direct admin call is possible only while no timelock delay is configured. The operation
kind is not looked at. -/
def requireTimelockExecuted (config : StablecoinConfig) (_opKind : UInt8) : Result Unit :=
  require (config.adminTimelockDelay = 0) (.sss .timelockRequired)

def verifySquadsSigner (config : StablecoinConfig) (signer : Pubkey) : Result Unit := do
  require (config.featureFlags &&& flagSquadsAuthority ≠ 0) (.sss .squadsAuthorityNotSet)
  require (config.squadsMultisig ≠ .default) (.sss .squadsMultisigPdaInvalid)
  require (signer = config.squadsMultisig) (.sss .squadsSignerMismatch)

/-- The block that every guarded admin handler opens with. -/
def checkSquads (config : StablecoinConfig) (authority : Pubkey) : Result Unit :=
  requireWhen (config.featureFlags &&& flagSquadsAuthority ≠ 0) <|
    verifySquadsSigner config authority

def requireNoDao (config : StablecoinConfig) : Result Unit :=
  require (config.featureFlags &&& flagDaoCommittee = 0) (.sss .daoCommitteeRequired)

/-- Accounts of an admin instruction that names the mint: the config is derived from the mint,
its authority signs, and the mint account exists. -/
structure AuthorityAndMint where
  authority : Signer
  mint : Pubkey

def AuthorityAndMint.config (a : AuthorityAndMint) : Pubkey := .stablecoinConfig a.mint

def AuthorityAndMint.loadConfig (a : AuthorityAndMint) : Result StablecoinConfig := do
  let config ← load s.configs a.config
  require (config.authority = a.authority.key) (.sss .unauthorized)
  let _ ← load s.tokens.mints a.mint
  require (a.mint = config.mint) (.anchor .constraintRaw)
  pure config

/-- Accounts of an admin instruction that names only the config: the config must lie at the
address derived from the mint it records. -/
structure AuthorityAndConfig where
  authority : Signer
  config : Pubkey

def AuthorityAndConfig.loadConfig (a : AuthorityAndConfig) : Result StablecoinConfig := do
  let config ← load s.configs a.config
  require (a.config = .stablecoinConfig config.mint) (.anchor .constraintSeeds)
  require (config.authority = a.authority.key) (.sss .unauthorized)
  pure config

/-- The same for instructions that exist only for SSS-3. -/
def AuthorityAndConfig.loadSss3 (a : AuthorityAndConfig) : Result StablecoinConfig := do
  let config ← a.loadConfig s
  require (config.preset = 3) (.sss .invalidPreset)
  pure config

/-! ## initialize -/

/-- `anchor_spl::token_2022::ID` -/
def token2022Id : Pubkey := .key 2022

structure InitializeParams where
  preset : UInt8
  decimals : UInt8
  transferHookProgram : Option Pubkey := none
  collateralMint : Option Pubkey := none
  reserveVault : Option Pubkey := none
  maxSupply : Option UInt64 := none
  featureFlags : Option UInt64 := none
  auditorElgamalPubkey : Option (BitVec 256) := none
  adminTimelockDelay : Option UInt64 := none
  squadsMultisig : Option Pubkey := none

structure Initialize where
  payer : Signer
  mint : Signer
  tokenProgram : Pubkey

/-- The checks on the parameters that precede the creation of the mint. -/
def InitializeParams.check (p : InitializeParams) : Result Unit := do
  require (p.preset = 1 ∨ p.preset = 2 ∨ p.preset = 3) (.sss .invalidPreset)
  requireWhen (p.preset = 2) <|
    require p.transferHookProgram.isSome (.sss .missingTransferHook)
  requireWhen (p.preset = 3) do
    require p.collateralMint.isSome (.sss .invalidCollateralMint)
    require p.reserveVault.isSome (.sss .invalidVault)
    require (p.maxSupply.getD 0 > 0) (.sss .requiresMaxSupplyForSss3)
    require (p.squadsMultisig.getD .default ≠ .default) (.sss .requiresSquadsForSss3)
  requireWhen (p.featureFlags.getD 0 &&& flagConfidentialTransfers ≠ 0) <|
    require p.auditorElgamalPubkey.isSome (.sss .missingAuditorKey)

def initializeHandler (a : Initialize) (p : InitializeParams) : Result State := do
  let config := Pubkey.stablecoinConfig a.mint.key
  requireFree s.configs config
  p.check
  require (a.tokenProgram = token2022Id) (.sss .invalidTokenProgram)
  -- new accounts of the mint start frozen; the config PDA mints and thaws
  let tokens ← (rt.token.initializeMint s.tokens a.mint.key
    { mintAuthority := some config, supply := 0, decimals := p.decimals,
      freezeAuthority := some config, permanentDelegate := none, defaultFrozen := true,
      extended := false, transferHook := none }).okOr .token
  let adminTimelockDelay := p.adminTimelockDelay.getD defaultAdminTimelockDelay
  requireWhen (p.preset = 3) <|
    require (adminTimelockDelay ≥ 216000) (.sss .invalidTimelockDelay)
  let featureFlags := p.featureFlags.getD 0
  require (featureFlags &&& flagDaoCommittee = 0) (.sss .invalidFeatureFlags)
  let squadsMultisig := p.squadsMultisig.getD .default
  pure { s with
    tokens
    configs := put s.configs config {
      mint := a.mint.key
      authority := a.payer.key
      complianceAuthority := a.payer.key
      preset := p.preset
      transferHookProgram := p.transferHookProgram.getD .default
      collateralMint := p.collateralMint.getD .default
      reserveVault := p.reserveVault.getD .default
      maxSupply := p.maxSupply.getD 0
      adminTimelockDelay
      squadsMultisig
      featureFlags :=
        if squadsMultisig ≠ .default then featureFlags ||| flagSquadsAuthority else featureFlags
      auditorElgamalPubkey :=
        if featureFlags &&& flagConfidentialTransfers ≠ 0 then p.auditorElgamalPubkey.getD 0
        else 0
      supplyCapLocked := p.preset = 3
      version := currentVersion
      bump := rt.bump config } }

/-! ## Minters -/

structure UpdateMinter extends AuthorityAndMint where
  minter : Pubkey

def UpdateMinter.minterInfo (a : UpdateMinter) : Pubkey := .minterInfo a.config a.minter

def updateMinterHandler (a : UpdateMinter) (cap : UInt64) : Result State := do
  let config ← a.loadConfig s
  let minterInfo := (s.minterInfos a.minterInfo).getD {}
  checkSquads config a.authority.key
  requireNoDao config
  pure { s with
    minterInfos := put s.minterInfos a.minterInfo
      { minterInfo with config := a.config, minter := a.minter, cap } }

/-- The minter record is closed. -/
def revokeMinterHandler (a : UpdateMinter) : Result State := do
  let config ← a.loadConfig s
  let _ ← load s.minterInfos a.minterInfo
  checkSquads config a.authority.key
  requireNoDao config
  pure { s with minterInfos := Function.update s.minterInfos a.minterInfo none }

/-! ## Pause and feature flags -/

def pauseHandler (a : AuthorityAndMint) (paused : Bool) : Result State := do
  let config ← a.loadConfig s
  requireTimelockExecuted config (if paused then adminOpPause else adminOpUnpause)
  checkSquads config a.authority.key
  requireNoDao config
  pure { s with configs := put s.configs a.config { config with paused } }

def setFeatureFlagHandler (a : AuthorityAndMint) (flag : UInt64) : Result State := do
  let config ← a.loadConfig s
  requireTimelockExecuted config adminOpSetFeatureFlag
  checkSquads config a.authority.key
  requireNoDao config
  pure { s with
    configs := put s.configs a.config
      { config with featureFlags := config.featureFlags ||| flag } }

def clearFeatureFlagHandler (a : AuthorityAndMint) (flag : UInt64) : Result State := do
  let config ← a.loadConfig s
  requireTimelockExecuted config adminOpClearFeatureFlag
  checkSquads config a.authority.key
  require (flag &&& flagDaoCommittee = 0) (.sss .daoFlagProtected)
  require (flag &&& flagSquadsAuthority = 0) (.sss .daoFlagProtected)
  requireNoDao config
  pure { s with
    configs := put s.configs a.config
      { config with featureFlags := config.featureFlags &&& ~~~flag } }

/-! ## Freezing and thawing -/

structure ComplianceAccounts where
  complianceAuthority : Signer
  mint : Pubkey
  targetTokenAccount : Pubkey

def ComplianceAccounts.check (a : ComplianceAccounts) : Result Unit := do
  let config ← load s.configs (.stablecoinConfig a.mint)
  require (config.complianceAuthority = a.complianceAuthority.key) (.sss .unauthorizedCompliance)
  let _ ← load s.tokens.mints a.mint
  require (a.mint = config.mint) (.anchor .constraintRaw)
  let target ← load s.tokens.accounts a.targetTokenAccount
  require (target.mint = a.mint) (.sss .invalidMint)

def freezeHandler (a : ComplianceAccounts) : Result State := do
  a.check s
  let tokens ← (rt.token.freezeAccount s.tokens a.targetTokenAccount a.mint
    (.stablecoinConfig a.mint)).okOr .token
  pure { s with tokens }

def thawHandler (a : ComplianceAccounts) : Result State := do
  a.check s
  let tokens ← (rt.token.thawAccount s.tokens a.targetTokenAccount a.mint
    (.stablecoinConfig a.mint)).okOr .token
  pure { s with tokens }

/-! ## Timelocked operations -/

def proposeTimelockedOpHandler (a : AuthorityAndMint) (opKind : UInt8) (param : UInt64)
    (target : Pubkey) : Result State := do
  let config ← a.loadConfig s
  checkSquads config a.authority.key
  require (opKind ≠ adminOpUnpause) (.sss .instructionDisabled)
  require (opKind ≠ adminOpNone ∧ opKind ≤ adminOpPause) (.sss .invalidTimelockOpKind)
  let effectiveDelay :=
    if opKind = adminOpTransferComplianceAuthority then
      max config.adminTimelockDelay defaultAdminTimelockDelay
    else config.adminTimelockDelay
  let matureSlot ← (clock.slot.checkedAdd effectiveDelay).okOr (.sss .overflow)
  pure { s with
    configs := put s.configs a.config
      { config with
      adminOpKind := opKind, adminOpParam := param, adminOpTarget := target
      adminOpMatureSlot := matureSlot } }

/-- What the pending operation does to the config. -/
def StablecoinConfig.applyTimelockedOp (c : StablecoinConfig) : Result StablecoinConfig :=
  let param := c.adminOpParam
  let target := c.adminOpTarget
  let op := c.adminOpKind
  if op = adminOpTransferAuthority then do
    require (target ≠ .default) (.sss .noTimelockPending)
    pure { c with pendingAuthority := target }
  else if op = adminOpSetFeatureFlag then
    pure { c with featureFlags := c.featureFlags ||| param }
  else if op = adminOpClearFeatureFlag then do
    require (param &&& flagDaoCommittee = 0) (.sss .daoFlagProtected)
    require (param &&& flagSquadsAuthority = 0) (.sss .daoFlagProtected)
    pure { c with featureFlags := c.featureFlags &&& ~~~param }
  else if op = adminOpSetPythFeed then
    pure { c with
      expectedPythFeed := target
      oracleFeed := if c.oracleType = 0 then target else c.oracleFeed }
  else if op = adminOpSetOracleParams then
    pure { c with
      maxOracleAgeSecs := (param >>> 16).toUInt32
      maxOracleConfBps := (param &&& 0xFFFF).toUInt16 }
  else if op = adminOpSetStabilityFee then do
    require (param ≤ 10000) (.sss .invalidStabilityFee)
    pure { c with stabilityFeeBps := param.toUInt16 }
  else if op = adminOpSetPsmFee then do
    require (param ≤ 1000) (.sss .invalidPsmFee)
    pure { c with redemptionFeeBps := param.toUInt16 }
  else if op = adminOpSetBackstopParams then do
    require (param ≤ 10000) (.sss .invalidBackstopParams)
    pure { c with insuranceFundPubkey := target, maxBackstopBps := param.toUInt16 }
  else if op = adminOpSetSpendLimit then
    pure { c with maxTransferAmount := param }
  else if op = adminOpTransferComplianceAuthority then do
    require (target ≠ .default) (.sss .unauthorized)
    pure { c with pendingComplianceAuthority := target }
  else if op = adminOpSetOracleConfig then do
    require (param.toUInt8 ≤ 2) (.sss .invalidOracleType)
    pure { c with oracleType := param.toUInt8, oracleFeed := target }
  else if op = adminOpSetMinReserveRatio then do
    require (param ≤ 20000) (.sss .invalidReserveRatio)
    pure { c with minReserveRatioBps := param.toUInt16 }
  else if op = adminOpSetTravelRuleThreshold then
    pure { c with travelRuleThreshold := param }
  else if op = adminOpSetSanctionsParams then
    pure { c with sanctionsOracle := target, sanctionsMaxStalenessSlots := param }
  else if op = adminOpSetTimelockDelay then do
    require (param ≥ 216000) (.sss .invalidTimelockDelay)
    pure { c with adminTimelockDelay := param }
  else if op = adminOpPause then
    pure { c with paused := true }
  else if op = adminOpUnpause then .error (.sss .instructionDisabled)
  else .error (.sss .invalidTimelockOpKind)

/-- No operation is pending any more. -/
def StablecoinConfig.clearTimelockedOp (c : StablecoinConfig) : StablecoinConfig :=
  { c with
    adminOpKind := adminOpNone, adminOpParam := 0, adminOpTarget := .default
    adminOpMatureSlot := 0 }

def executeTimelockedOpHandler (a : AuthorityAndMint) : Result State := do
  let config ← a.loadConfig s
  checkSquads config a.authority.key
  require (config.adminOpKind ≠ adminOpNone) (.sss .noTimelockPending)
  require (clock.slot ≥ config.adminOpMatureSlot) (.sss .timelockNotMature)
  let config ← config.applyTimelockedOp
  pure { s with configs := put s.configs a.config config.clearTimelockedOp }

def cancelTimelockedOpHandler (a : AuthorityAndMint) : Result State := do
  let config ← a.loadConfig s
  checkSquads config a.authority.key
  require (config.adminOpKind ≠ adminOpNone) (.sss .noTimelockPending)
  pure { s with configs := put s.configs a.config config.clearTimelockedOp }

def setPythFeedHandler (a : AuthorityAndMint) (feed : Pubkey) : Result State := do
  let config ← a.loadConfig s
  requireTimelockExecuted config adminOpSetPythFeed
  pure { s with configs := put s.configs a.config { config with expectedPythFeed := feed } }

def setOracleParamsHandler (a : AuthorityAndMint) (maxAgeSecs : UInt32) (maxConfBps : UInt16) :
    Result State := do
  let config ← a.loadConfig s
  requireTimelockExecuted config adminOpSetOracleParams
  pure { s with
    configs := put s.configs a.config
      { config with maxOracleAgeSecs := maxAgeSecs, maxOracleConfBps := maxConfBps } }

/-! ## Stability fee parameters -/

def maxStabilityFeeBps : UInt16 := 2000

def setStabilityFeeHandler (a : AuthorityAndConfig) (feeBps : UInt16) : Result State := do
  let config ← a.loadSss3 s
  requireTimelockExecuted config adminOpSetStabilityFee
  checkSquads config a.authority.key
  require (feeBps ≤ maxStabilityFeeBps) (.sss .stabilityFeeTooHigh)
  pure { s with configs := put s.configs a.config { config with stabilityFeeBps := feeBps } }

/-- Overwrite the first occurrence of `old`. -/
def replaceFirst (old new : Pubkey) : List Pubkey → Option (List Pubkey)
  | [] => none
  | k :: ks => if k = old then some (new :: ks) else (replaceFirst old new ks).map (k :: ·)

/-- A keeper takes the first empty slot; the list itself never grows. -/
def addAuthorizedKeeperHandler (a : AuthorityAndConfig) (keeper : Pubkey) : Result State := do
  let config ← a.loadSss3 s
  require (keeper ≠ .default) (.sss .unauthorized)
  if keeper ∈ config.authorizedKeepers then pure s
  else do
    let keepers ← (replaceFirst .default keeper config.authorizedKeepers).okOr
      (.sss .whitelistFull)
    pure { s with
      configs := put s.configs a.config { config with authorizedKeepers := keepers } }

def removeAuthorizedKeeperHandler (a : AuthorityAndConfig) (keeper : Pubkey) :
    Result State := do
  let config ← a.loadSss3 s
  let keepers ← (replaceFirst keeper .default config.authorizedKeepers).okOr
    (.sss .memberNotFound)
  pure { s with configs := put s.configs a.config { config with authorizedKeepers := keepers } }

/-! ## Oracle configuration -/

def setOracleConfigHandler (a : AuthorityAndMint) (oracleType : UInt8) (oracleFeed : Pubkey) :
    Result State := do
  let config ← a.loadConfig s
  requireTimelockExecuted config adminOpSetOracleConfig
  checkSquads config a.authority.key
  require (oracleType ≤ 2) (.sss .invalidOracleType)
  pure { s with configs := put s.configs a.config { config with oracleType, oracleFeed } }

def initCustomPriceFeedHandler (a : AuthorityAndMint) : Result State := do
  let config ← a.loadConfig s
  require (config.preset = 3) (.sss .invalidPreset)
  requireFree s.customPriceFeeds (.customPriceFeed a.mint)
  checkSquads config a.authority.key
  pure { s with
    customPriceFeeds := put s.customPriceFeeds (.customPriceFeed a.mint)
      { authority := a.authority.key, expo := -8, bump := rt.bump (.customPriceFeed a.mint) } }

def updateCustomPriceHandler (a : AuthorityAndMint) (price : Int64) (expo : Int32)
    (conf : UInt64) : Result State := do
  let config ← a.loadConfig s
  let feed ← load s.customPriceFeeds (.customPriceFeed a.mint)
  require (feed.authority = a.authority.key) (.sss .unauthorized)
  checkSquads config a.authority.key
  require (price.toInt > 0) (.sss .invalidPrice)
  pure { s with
    customPriceFeeds := put s.customPriceFeeds (.customPriceFeed a.mint)
      { feed with
      price, expo, conf
      lastUpdateSlot := clock.slot, lastUpdateUnixTimestamp := clock.unixTimestamp } }

end SolanaStablecoin
