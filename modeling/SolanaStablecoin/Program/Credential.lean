import SolanaStablecoin.Base.Layout
import SolanaStablecoin.Program.Admin

/-! The credential registry (`zk_credential.rs`). Its issuer checks proofs off chain and co-signs
`verify_zk_credential`, which leaves a record for the holder. -/

namespace SolanaStablecoin

variable (rt : Runtime) (clock : Clock) (s : State)

/-- The shape of a proof: 192 bytes, and the signals open with the Merkle root. -/
def validateProofStructure (proof publicSignals : List UInt8) (expectedRoot : BitVec 256) :
    Result Unit := do
  require (proof.length = 192) (.sss .invalidZkProof)
  require (publicSignals.length ≥ 32) (.sss .invalidZkProof)
  require (publicSignals.take 32 = Layout.leBytes 32 expectedRoot.toNat) (.sss .invalidZkProof)

structure InitCredentialRegistryParams where
  issuer : Pubkey
  merkleRoot : BitVec 256
  credentialTtlSlots : UInt64

def initCredentialRegistryHandler (a : AuthorityAndConfig) (p : InitCredentialRegistryParams) :
    Result State := do
  let config ← a.loadConfig s
  requireFree s.credentialRegistries (.credentialRegistry config.mint)
  checkSquads config a.authority.key
  pure { s with
    credentialRegistries := put s.credentialRegistries (.credentialRegistry config.mint)
      { sssMint := config.mint, issuer := p.issuer, merkleRoot := p.merkleRoot
        credentialTtlSlots := p.credentialTtlSlots, updatedSlot := clock.slot }
    configs := put s.configs a.config
      { config with featureFlags := config.featureFlags ||| flagZkCredentials } }

/-- The config at its own address, with its registry. -/
def loadRegistry (configKey : Pubkey) : Result (StablecoinConfig × CredentialRegistry) := do
  let config ← load s.configs configKey
  let registry ← load s.credentialRegistries (.credentialRegistry config.mint)
  require (configKey = .stablecoinConfig config.mint) (.anchor .constraintSeeds)
  pure (config, registry)

/-- Accounts of an instruction that the issuer signs. -/
structure IssuerAndConfig where
  issuer : Signer
  config : Pubkey

def IssuerAndConfig.loadRegistry (a : IssuerAndConfig) :
    Result (StablecoinConfig × CredentialRegistry) := do
  let (config, registry) ← SolanaStablecoin.loadRegistry s a.config
  require (registry.issuer = a.issuer.key) (.sss .unauthorized)
  pure (config, registry)

def rotateCredentialRootHandler (a : IssuerAndConfig) (newMerkleRoot : BitVec 256) :
    Result State := do
  let (config, registry) ← a.loadRegistry s
  pure { s with
    credentialRegistries := put s.credentialRegistries (.credentialRegistry config.mint)
      { registry with merkleRoot := newMerkleRoot, updatedSlot := clock.slot } }

structure VerifyZkCredential extends IssuerAndConfig where
  holder : Signer

/-- An expired or revoked record is refreshed, and an absent one created. -/
def verifyZkCredentialHandler (a : VerifyZkCredential) (proof publicSignals : List UInt8) :
    Result State := do
  let (config, registry) ← a.loadRegistry s
  let record := Pubkey.credentialRecord config.mint a.holder.key
  require (config.checkFeatureFlag flagZkCredentials) (.sss .credentialRegistryNotFound)
  validateProofStructure proof publicSignals registry.merkleRoot
  let expiresSlot ← onlyWhen (registry.credentialTtlSlots ≠ 0) 0
    ((clock.slot.checkedAdd registry.credentialTtlSlots).okOr .panic)
  pure { s with
    credentialRecords := put s.credentialRecords record
      { sssMint := config.mint, holder := a.holder.key, issuedSlot := clock.slot, expiresSlot
        revoked := false, bump := rt.bump record } }

structure RevokeCredential extends IssuerAndConfig where
  holder : Pubkey

def revokeCredentialHandler (a : RevokeCredential) : Result State := do
  let (config, _) ← a.loadRegistry s
  let record ← load s.credentialRecords (.credentialRecord config.mint a.holder)
  pure { s with
    credentialRecords := put s.credentialRecords (.credentialRecord config.mint a.holder)
      { record with revoked := true } }

structure CloseCredentialRecord where
  holder : Signer
  config : Pubkey

def closeCredentialRecordHandler (a : CloseCredentialRecord) : Result State := do
  let config ← load s.configs a.config
  require (a.config = .stablecoinConfig config.mint) (.anchor .constraintSeeds)
  let record ← load s.credentialRecords (.credentialRecord config.mint a.holder.key)
  require (record.holder = a.holder.key) (.sss .unauthorized)
  pure { s with
    credentialRecords :=
      Function.update s.credentialRecords (.credentialRecord config.mint a.holder.key) none }

end SolanaStablecoin
