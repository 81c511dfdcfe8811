import SolanaStablecoin.Program.Redeem

/-! Compliance instructions: spend limits, travel-rule records, the sanctions oracle, proofs of
compliance and the registry of the issuing legal entity. -/

namespace SolanaStablecoin

variable (rt : Runtime) (clock : Clock) (s : State)

/-! ## Spend limits (`spend_policy.rs`) -/

def setSpendLimitHandler (a : AuthorityAndMint) (maxAmount : UInt64) : Result State := do
  let config ← a.loadConfig s
  requireTimelockExecuted config adminOpSetSpendLimit
  checkSquads config a.authority.key
  require (maxAmount > 0) (.sss .spendPolicyNotConfigured)
  pure { s with
    configs := put s.configs a.config
      { config with
        maxTransferAmount := maxAmount
        featureFlags := config.featureFlags ||| flagSpendPolicy } }

def clearSpendLimitHandler (a : AuthorityAndMint) : Result State := do
  let config ← a.loadConfig s
  requireTimelockExecuted config adminOpSetSpendLimit
  checkSquads config a.authority.key
  pure { s with
    configs := put s.configs a.config
      { config with
        featureFlags := config.featureFlags &&& ~~~flagSpendPolicy
        maxTransferAmount := 0 } }

/-! ## The travel rule (`travel_rule.rs`) -/

def setTravelRuleThresholdHandler (a : AuthorityAndConfig) (threshold : UInt64) :
    Result State := do
  let config ← a.loadConfig s
  requireTimelockExecuted config adminOpSetTravelRuleThreshold
  checkSquads config a.authority.key
  requireWhen (config.checkFeatureFlag flagTravelRule) <|
    require (threshold > 0) (.sss .travelRuleThresholdNotSet)
  pure { s with
    configs := put s.configs a.config { config with travelRuleThreshold := threshold } }

structure SubmitTravelRuleRecord where
  originatorVaspSigner : Signer
  config : Pubkey

def submitTravelRuleRecordHandler (a : SubmitTravelRuleRecord) (nonce : UInt64)
    (encryptedPayload : BitVec 2048) (beneficiaryVasp : Pubkey) (transferAmount : UInt64) :
    Result State := do
  let config ← loadOwnConfig s a.config
  requireFree s.travelRuleRecords (.travelRuleRecord config.mint nonce)
  require (transferAmount > 0) (.sss .invalidAmount)
  requireWhen (config.checkFeatureFlag flagTravelRule) <|
    require (config.travelRuleThreshold > 0) (.sss .travelRuleThresholdNotSet)
  pure { s with
    travelRuleRecords := put s.travelRuleRecords (.travelRuleRecord config.mint nonce)
      { sssMint := config.mint, nonce, encryptedPayload
        originatorVasp := a.originatorVaspSigner.key, beneficiaryVasp, transferAmount
        slot := clock.slot } }

/-- Whether the record covers a transfer that the rule applies to. No instruction of the two
programs calls it. -/
def verifyTravelRuleIfRequired (config : StablecoinConfig) (record : Option TravelRuleRecord)
    (transferAmount : UInt64) (expectedBeneficiaryVasp : Pubkey) : Result Unit :=
  requireWhen (config.checkFeatureFlag flagTravelRule ∧
      ¬ (config.travelRuleThreshold = 0 ∨ transferAmount < config.travelRuleThreshold)) do
    let record ← record.okOr (.sss .travelRuleRequired)
    require (record.sssMint = config.mint) (.sss .travelRuleRecordInvalid)
    require (record.transferAmount = transferAmount) (.sss .travelRuleRecordInvalid)
    require (record.beneficiaryVasp = expectedBeneficiaryVasp) (.sss .travelRuleRecordInvalid)

structure CloseTravelRuleRecord where
  originatorVaspSigner : Signer
  travelRuleRecord : Pubkey

def closeTravelRuleRecordHandler (a : CloseTravelRuleRecord) (nonce : UInt64) :
    Result State := do
  let record ← load s.travelRuleRecords a.travelRuleRecord
  require (a.travelRuleRecord = .travelRuleRecord record.sssMint nonce) (.anchor .constraintSeeds)
  require (record.originatorVasp = a.originatorVaspSigner.key) (.sss .unauthorized)
  pure { s with
    travelRuleRecords := Function.update s.travelRuleRecords a.travelRuleRecord none }

/-! ## The sanctions oracle (`sanctions_oracle.rs`) -/

def setSanctionsOracleHandler (a : AuthorityAndConfig) (oracle : Pubkey)
    (maxStalenessSlots : UInt64) : Result State := do
  let config ← a.loadConfig s
  requireTimelockExecuted config adminOpSetSanctionsParams
  checkSquads config a.authority.key
  pure { s with
    configs := put s.configs a.config
      { config with
        sanctionsOracle := oracle
        sanctionsMaxStalenessSlots := maxStalenessSlots
        featureFlags := config.featureFlags ||| flagSanctionsOracle } }

/-- There is no timelock here. -/
def clearSanctionsOracleHandler (a : AuthorityAndConfig) : Result State := do
  let config ← a.loadConfig s
  checkSquads config a.authority.key
  pure { s with
    configs := put s.configs a.config
      { config with
        sanctionsOracle := .default
        sanctionsMaxStalenessSlots := 0
        featureFlags := config.featureFlags &&& ~~~flagSanctionsOracle } }

/-- Accounts of an instruction that the sanctions oracle signs. -/
structure OracleAndConfig where
  oracle : Signer
  config : Pubkey

def updateSanctionsRecordHandler (a : OracleAndConfig) (wallet : Pubkey) (isSanctioned : Bool) :
    Result State := do
  let config ← loadOwnConfig s a.config
  require (config.checkFeatureFlag flagSanctionsOracle) (.sss .featureNotEnabled)
  require (config.sanctionsOracle = a.oracle.key) (.sss .unauthorized)
  let record := Pubkey.sanctionsRecord config.mint wallet
  pure { s with
    sanctionsRecords := put s.sanctionsRecords record
      { isSanctioned, updatedSlot := clock.slot, bump := rt.bump record } }

def closeSanctionsRecordHandler (a : OracleAndConfig) (wallet : Pubkey) : Result State := do
  let config ← loadOwnConfig s a.config
  require (config.sanctionsOracle = a.oracle.key) (.sss .unauthorized)
  let _ ← load s.sanctionsRecords (.sanctionsRecord config.mint wallet)
  pure { s with
    sanctionsRecords :=
      Function.update s.sanctionsRecords (.sanctionsRecord config.mint wallet) none }

/-! ## Proofs of compliance (`zk_compliance.rs`) -/

def initZkComplianceHandler (a : AuthorityAndMint) (ttlSlots : UInt64)
    (verifierPubkey : Option Pubkey) : Result State := do
  let config ← a.loadConfig s
  require (config.preset = 2) (.sss .invalidPreset)
  requireFree s.zkComplianceConfigs (.zkComplianceConfig a.mint)
  checkSquads config a.authority.key
  let effectiveTtl := if ttlSlots = 0 then ZkComplianceConfig.defaultTtlSlots else ttlSlots
  pure { s with
    zkComplianceConfigs := put s.zkComplianceConfigs (.zkComplianceConfig a.mint)
      { sssMint := a.mint, ttlSlots := effectiveTtl, verifierPubkey }
    configs := put s.configs a.config
      { config with featureFlags := config.featureFlags ||| flagZkCompliance } }

structure SubmitZkProof where
  user : Signer
  mint : Pubkey
  verifier : Option Signer := none

/-- The configured verifier co-signs; without one nobody has to. -/
def ZkComplianceConfig.checkVerifier (zkConfig : ZkComplianceConfig) (verifier : Option Signer) :
    Result Unit :=
  match zkConfig.verifierPubkey, verifier with
  | some requiredVk, some v => require (v.key = requiredVk) (.sss .zkVerifierMismatch)
  | some _, none => .error (.sss .zkVerifierRequired)
  | none, _ => pure ()

/-- The record of the user, which lives for the configured number of slots. -/
def submitZkProofHandler (a : SubmitZkProof) : Result State := do
  let config ← loadConfigOfMint s a.mint
  require (config.featureFlags &&& flagZkCompliance ≠ 0) (.sss .zkComplianceNotEnabled)
  let zkConfig ← load s.zkComplianceConfigs (.zkComplianceConfig a.mint)
  zkConfig.checkVerifier a.verifier
  let record := Pubkey.zkVerification a.mint a.user.key
  pure { s with
    verificationRecords := put s.verificationRecords record
      { sssMint := a.mint, user := a.user.key
        expiresAtSlot := clock.slot.saturatingAdd zkConfig.ttlSlots, bump := rt.bump record } }

def closeVerificationRecordHandler (a : AuthorityAndMint) (recordOwner : Pubkey) :
    Result State := do
  let config ← a.loadConfig s
  let record ← load s.verificationRecords (.zkVerification a.mint recordOwner)
  checkSquads config a.authority.key
  require (clock.slot ≥ record.expiresAtSlot) (.sss .verificationRecordNotExpired)
  pure { s with
    verificationRecords :=
      Function.update s.verificationRecords (.zkVerification a.mint recordOwner) none }

/-! ## The legal entity (`legal_entity_registry.rs`) -/

structure LegalEntityParams where
  legalEntityHash : BitVec 256
  jurisdiction : BitVec 32
  registrationNumberHash : BitVec 256
  attestor : Pubkey
  expirySlot : UInt64

def LegalEntityParams.check (p : LegalEntityParams) : Result Unit := do
  require (p.jurisdiction ≠ 0) (.sss .invalidLegalEntityJurisdiction)
  require (p.legalEntityHash ≠ 0) (.sss .invalidLegalEntityHash)
  require (p.registrationNumberHash ≠ 0) (.sss .invalidLegalEntityHash)
  require (p.attestor ≠ .default) (.sss .invalidLegalEntityAttestor)
  requireWhen (p.expirySlot ≠ 0) <| require (p.expirySlot > clock.slot) (.sss .legalEntityExpired)

/-- The entity as it is registered, not attested yet. -/
def LegalEntityParams.registry (p : LegalEntityParams) (config : Pubkey) : IssuerRegistry :=
  { config, legalEntityHash := p.legalEntityHash, jurisdiction := p.jurisdiction
    registrationNumberHash := p.registrationNumberHash, attestor := p.attestor, attestedSlot := 0
    expirySlot := p.expirySlot, attested := false }

def registerLegalEntity (a : AuthorityAndConfig) (p : LegalEntityParams) : Result State := do
  let config ← a.loadConfig s
  requireFree s.issuerRegistries (.issuerRegistry a.config)
  p.check clock
  pure { s with
    issuerRegistries := put s.issuerRegistries (.issuerRegistry a.config) (p.registry a.config)
    configs := put s.configs a.config
      { config with featureFlags := config.featureFlags ||| flagLegalRegistry } }

def loadIssuerRegistry (config : Pubkey) : Result IssuerRegistry := do
  let registry ← load s.issuerRegistries (.issuerRegistry config)
  require (registry.config = config) (.sss .unauthorized)
  pure registry

structure AttestLegalEntity where
  attestor : Signer
  config : Pubkey

def attestLegalEntity (a : AttestLegalEntity) : Result State := do
  let _ ← loadOwnConfig s a.config
  let registry ← loadIssuerRegistry s a.config
  require (a.attestor.key = registry.attestor) (.sss .unauthorized)
  require (registry.attested = false) (.sss .legalEntityAlreadyAttested)
  requireWhen (registry.expirySlot ≠ 0) <|
    require (clock.slot ≤ registry.expirySlot) (.sss .legalEntityExpired)
  pure { s with
    issuerRegistries := put s.issuerRegistries (.issuerRegistry a.config)
      { registry with attested := true, attestedSlot := clock.slot } }

def updateLegalEntity (a : AuthorityAndConfig) (p : LegalEntityParams) : Result State := do
  let _ ← a.loadConfig s
  let registry ← loadIssuerRegistry s a.config
  p.check clock
  pure { s with
    issuerRegistries := put s.issuerRegistries (.issuerRegistry a.config)
      (p.registry registry.config) }

end SolanaStablecoin
