import SolanaStablecoin.Program.Redeem

/-! Cover for bad debt: the backstop, which draws on an insurance fund, and the insurance vault
of the program itself. -/

namespace SolanaStablecoin

variable (rt : Runtime) (clock : Clock) (s : State)

/-! ## The backstop (`bad_debt_backstop.rs`) -/

/-- Accounts of an SSS-3 instruction that names a mint without comparing it to the config's. -/
structure AuthorityAndSssMint where
  authority : Signer
  sssMint : Pubkey

def AuthorityAndSssMint.loadConfig (a : AuthorityAndSssMint) : Result StablecoinConfig := do
  let config ← load s.configs (.stablecoinConfig a.sssMint)
  require (config.authority = a.authority.key) (.sss .unauthorized)
  require (config.preset = 3) (.sss .invalidPreset)
  let _ ← load s.tokens.mints a.sssMint
  pure config

def setBackstopParamsHandler (a : AuthorityAndSssMint) (insuranceFundPubkey : Pubkey)
    (maxBackstopBps : UInt16) : Result State := do
  let config ← a.loadConfig s
  requireTimelockExecuted config adminOpSetBackstopParams
  checkSquads config a.authority.key
  require (maxBackstopBps ≤ 10000) (.sss .invalidBackstopBps)
  pure { s with
    configs := put s.configs (.stablecoinConfig a.sssMint)
      { config with insuranceFundPubkey, maxBackstopBps } }

/-- The accounts of `trigger_backstop` that need not sign. -/
structure BackstopAccounts where
  sssMint : Pubkey
  cdpOwner : Pubkey
  collateralMint : Pubkey
  oraclePriceFeed : Pubkey
  insuranceFund : Pubkey
  reserveVault : Pubkey

/-- The collateral in stablecoin units. -/
def collateralValueInSss (deposited : UInt64) (price : OraclePrice) (collateralDecimals
    sssDecimals : UInt8) : Result Nat := do
  let v ← (U128.checkedMul deposited.toNat price.price.toU128).okOr (.sss .invalidPrice)
  let sssScale ← (U128.pow10 sssDecimals.toNat).okOr .panic
  let v ← (U128.checkedMul v sssScale).okOr (.sss .invalidPrice)
  let collateralScale ← (U128.pow10 collateralDecimals.toNat).okOr .panic
  let expoScale ← (U128.pow10 price.expoAbs).okOr .panic
  pure (v / collateralScale / expoScale)

/-- What the shortfall is computed from. -/
structure BackstopReading where
  deposited : UInt64
  debt : UInt64
  accruedFees : UInt64
  oraclePrice : OraclePrice
  collateralDecimals : UInt8
  sssDecimals : UInt8
deriving DecidableEq

/-- How much of the debt the collateral leaves uncovered. -/
def BackstopReading.shortfall (r : BackstopReading) : Result UInt64 := do
  let effectiveDebt ← (r.debt.checkedAdd r.accruedFees).okOr (.sss .overflow)
  let value ← collateralValueInSss r.deposited r.oraclePrice r.collateralDecimals r.sssDecimals
  require (effectiveDebt.toNat > value) (.sss .noBadDebt)
  pure (.ofNat (effectiveDebt.toNat - value))

/-- The most that one call may draw, as far as the shortfall goes. -/
def StablecoinConfig.maxBackstop (c : StablecoinConfig) (shortfall : UInt64) : UInt64 :=
  if c.maxBackstopBps = 0 then shortfall
  else min (.ofNat (c.netSupply.toNat * c.maxBackstopBps.toNat / 10000)) shortfall

/-- The config, what the shortfall is computed from, and the balance of the fund. -/
def BackstopAccounts.load (a : BackstopAccounts) (liquidationAuthority : Pubkey) :
    Result (StablecoinConfig × BackstopReading × UInt64) := do
  let config ← loadSss3 s a.sssMint
  require (liquidationAuthority = .stablecoinConfig a.sssMint) (.sss .unauthorizedBackstopCaller)
  let sssMint ← SolanaStablecoin.load s.tokens.mints a.sssMint
  let position ← SolanaStablecoin.load s.cdpPositions (.cdpPosition a.sssMint a.cdpOwner)
  require (position.sssMint = a.sssMint) (.sss .unauthorized)
  require (position.collateralMint = a.collateralMint) (.sss .wrongCollateralMint)
  let vault ← SolanaStablecoin.load s.collateralVaults
    (.collateralVault a.sssMint a.cdpOwner a.collateralMint)
  require (vault.owner = a.cdpOwner) (.sss .unauthorized)
  require (vault.collateralMint = a.collateralMint) (.sss .wrongCollateralMint)
  let collateralMint ← SolanaStablecoin.load s.tokens.mints a.collateralMint
  require (a.collateralMint = config.collateralMint) (.sss .wrongCollateralMint)
  let fund ← SolanaStablecoin.load s.tokens.accounts a.insuranceFund
  require (a.insuranceFund = config.insuranceFundPubkey) (.sss .backstopNotConfigured)
  require (fund.mint = a.collateralMint) (.anchor .constraintRaw)
  let reserve ← SolanaStablecoin.load s.tokens.accounts a.reserveVault
  require (a.reserveVault = config.reserveVault) (.anchor .constraintRaw)
  require (reserve.mint = a.collateralMint) (.anchor .constraintRaw)
  require (config.insuranceFundPubkey ≠ .default) (.sss .backstopNotConfigured)
  let oraclePrice ← getOraclePrice rt clock s a.oraclePriceFeed config
  pure (config,
    { deposited := vault.depositedAmount, debt := position.debtAmount
      accruedFees := position.accruedFees, oraclePrice
      collateralDecimals := collateralMint.decimals, sssDecimals := sssMint.decimals },
    fund.amount)

/-- The handler with the signatures of the two authorities. The first must be the config's own
address, which signs only for calls of the program itself. -/
def triggerBackstopHandler (a : BackstopAccounts)
    (liquidationAuthority insuranceFundAuthority : Pubkey) : Result State := do
  let (config, reading, fundBalance) ← a.load rt clock s liquidationAuthority
  let shortfallAmount ← reading.shortfall
  require (fundBalance > 0) (.sss .insuranceFundEmpty)
  let backstopAmount := min (config.maxBackstop shortfallAmount) fundBalance
  let tokens ← (rt.token.transferChecked s.tokens a.insuranceFund a.collateralMint
    a.reserveVault insuranceFundAuthority backstopAmount).okOr .token
  let totalCollateral ← (config.totalCollateral.checkedAdd backstopAmount).okOr
    (.sss .invalidPrice)
  pure { s with
    tokens
    configs := put s.configs (.stablecoinConfig a.sssMint) { config with totalCollateral } }

/-- A call that a transaction makes, with the signers that a transaction can have. -/
structure TriggerBackstop extends BackstopAccounts where
  liquidationAuthority : Signer
  insuranceFundAuthority : Signer

/-! ## The insurance vault (`insurance_vault.rs`) -/

def initInsuranceVaultHandler (a : AuthorityAndSssMint) (vaultTokenAccount : Pubkey)
    (minSeedBps maxDrawPerEventBps : UInt16) : Result State := do
  let config ← a.loadConfig s
  let account ← load s.tokens.accounts vaultTokenAccount
  require (account.mint = config.collateralMint) (.sss .invalidCollateralMint)
  requireFree s.insuranceVaults (.insuranceVault a.sssMint)
  require (minSeedBps ≤ 10000) (.sss .invalidBackstopBps)
  pure { s with
    insuranceVaults := put s.insuranceVaults (.insuranceVault a.sssMint)
      { sssMint := a.sssMint, vaultTokenAccount, minSeedBps, currentBalance := 0
        totalDrawn := 0, maxDrawPerEventBps, adequatelySeeded := minSeedBps = 0 }
    configs := put s.configs (.stablecoinConfig a.sssMint)
      { config with featureFlags := config.featureFlags ||| flagInsuranceVaultRequired } }

/-- The config, whose flag must be set, and its insurance vault. -/
def loadInsuranceVault (sssMint vaultTokenAccount : Pubkey) :
    Result (StablecoinConfig × InsuranceVault) := do
  let config ← load s.configs (.stablecoinConfig sssMint)
  require (config.featureFlags &&& flagInsuranceVaultRequired ≠ 0) (.sss .featureNotEnabled)
  let _ ← load s.tokens.mints sssMint
  let vault ← load s.insuranceVaults (.insuranceVault sssMint)
  let _ ← load s.tokens.accounts vaultTokenAccount
  require (vaultTokenAccount = vault.vaultTokenAccount) (.sss .invalidVault)
  let _ ← load s.tokens.mints config.collateralMint
  pure (config, vault)

/-- The vault with a new balance, measured against the seed that the supply asks for. -/
def InsuranceVault.withBalance (v : InsuranceVault) (balance netSupply : UInt64) :
    InsuranceVault :=
  { v with
    currentBalance := balance
    adequatelySeeded := balance ≥ v.requiredSeedAmount netSupply }

structure SeedInsuranceVault where
  depositor : Signer
  sssMint : Pubkey
  depositorTokenAccount : Pubkey
  vaultTokenAccount : Pubkey

/-- Anybody may pay in. -/
def seedInsuranceVaultHandler (a : SeedInsuranceVault) (amount : UInt64) : Result State := do
  let (config, vault) ← loadInsuranceVault s a.sssMint a.vaultTokenAccount
  let account ← load s.tokens.accounts a.depositorTokenAccount
  require (account.mint = config.collateralMint) (.sss .invalidCollateralMint)
  require (account.owner = a.depositor.key) (.sss .tokenAccountOwnerMismatch)
  requireAmount amount
  let tokens ← (rt.token.transferChecked s.tokens a.depositorTokenAccount config.collateralMint
    a.vaultTokenAccount a.depositor.key amount).okOr .token
  let balance ← (vault.currentBalance.checkedAdd amount).okOr (.sss .invalidPrice)
  pure { s with
    tokens
    insuranceVaults := put s.insuranceVaults (.insuranceVault a.sssMint)
      (vault.withBalance balance config.netSupply) }

/-- `replenish_insurance_vault` does what `seed_insurance_vault` does. -/
def replenishInsuranceVaultHandler (a : SeedInsuranceVault) (amount : UInt64) : Result State :=
  seedInsuranceVaultHandler rt s a amount

structure DrawInsurance where
  authority : Signer
  sssMint : Pubkey
  vaultTokenAccount : Pubkey
  destinationTokenAccount : Pubkey
  daoProposal : Option Pubkey := none

/-- The proposal, which the draw uses up by `amount`. -/
def ProposalPda.consume (p : ProposalPda) (config authority : Pubkey) (amount : UInt64) :
    Result ProposalPda := do
  require (p.config = config) (.sss .daoProposalConfigMismatch)
  require (p.action = .drawInsurance) (.sss .daoProposalWrongAction)
  require p.executed (.sss .daoProposalNotExecuted)
  require (p.cancelled = false) (.sss .proposalCancelled)
  require (p.target = authority) (.sss .unauthorized)
  let cumulativeConsumed ← (p.cumulativeConsumed.checkedAdd amount).okOr (.sss .invalidAmount)
  require (cumulativeConsumed ≤ p.param) (.sss .daoProposalExhausted)
  pure { p with cumulativeConsumed }

/-- With a DAO committee a proposal authorises the draw, and otherwise the authority does. -/
def DrawInsurance.authorise (a : DrawInsurance) (config : StablecoinConfig)
    (proposal : Option ProposalPda) (amount : UInt64) : Result (Pubkey → Option ProposalPda) :=
  if config.featureFlags &&& flagDaoCommittee ≠ 0 then do
    let key ← a.daoProposal.okOr (.sss .daoProposalRequired)
    let proposal ← proposal.okOr (.sss .daoProposalRequired)
    let proposal ← proposal.consume (.stablecoinConfig a.sssMint) a.authority.key amount
    pure (put s.proposals key proposal)
  else do
    require (config.authority = a.authority.key) (.sss .unauthorized)
    pure s.proposals

/-- The most that one call may draw; the cast may truncate. -/
def InsuranceVault.maxDraw (v : InsuranceVault) (netSupply : UInt64) : UInt64 :=
  if v.maxDrawPerEventBps = 0 then v.currentBalance
  else
    min (.ofNat (U128.saturatingMul netSupply.toNat v.maxDrawPerEventBps.toNat / 10000))
      v.currentBalance

def drawInsuranceHandler (a : DrawInsurance) (amount : UInt64) : Result State := do
  let vaultKey := Pubkey.insuranceVault a.sssMint
  let (config, vault) ← loadInsuranceVault s a.sssMint a.vaultTokenAccount
  require (vault.currentBalance > 0) (.sss .insuranceFundEmpty)
  let destination ← load s.tokens.accounts a.destinationTokenAccount
  require (destination.mint = config.collateralMint) (.sss .invalidCollateralMint)
  let proposal ← loadOptional s.proposals a.daoProposal
  requireAmount amount
  let proposals ← a.authorise s config proposal amount
  require (amount ≤ vault.maxDraw config.netSupply) (.sss .invalidAmount)
  let tokens ← (rt.token.transferChecked s.tokens a.vaultTokenAccount config.collateralMint
    a.destinationTokenAccount vaultKey amount).okOr .token
  let balance ← (vault.currentBalance.checkedSub amount).okOr (.sss .insufficientCollateral)
  let totalDrawn ← (vault.totalDrawn.checkedAdd amount).okOr (.sss .invalidPrice)
  pure { s with
    tokens, proposals
    insuranceVaults := put s.insuranceVaults vaultKey
      ({ vault with totalDrawn }.withBalance balance config.netSupply) }

end SolanaStablecoin
