import SolanaStablecoin.Program.Redeem

/-! The two escrows of the program: payments on proof, where an issuer commits stablecoins to
whoever knows a secret, and payment channels between two agents. -/

namespace SolanaStablecoin

variable (rt : Runtime) (clock : Clock) (s : State)

/-- A config whose escrow feature is on. -/
def loadEscrowConfig (stableMint : Pubkey) (flag : UInt64) : Result StablecoinConfig := do
  let config ← load s.configs (.stablecoinConfig stableMint)
  require (config.preset ≥ 1) (.sss .invalidPreset)
  require (config.paused = false) (.sss .mintPaused)
  require (config.featureFlags &&& flag ≠ 0) (.sss .featureNotEnabled)
  let _ ← load s.tokens.mints stableMint
  require (stableMint = config.mint) (.anchor .constraintRaw)
  pure config

/-- A transfer out of escrow. The owner of the escrow signs with the seeds that it records, and
these must be its own. -/
def payFrom (tokens : Tokens) (escrow mint dst owner seeds : Pubkey) (amount : UInt64) :
    Result Tokens := do
  require (seeds = owner) .privilegeEscalation
  (rt.token.transferChecked tokens escrow mint dst owner amount).okOr .token

/-- What goes to one party first and the rest to the other, each only when there is something. -/
def splitFrom (tokens : Tokens) (escrow mint first second owner seeds : Pubkey)
    (amount rest : UInt64) : Result Tokens := do
  let tokens ← onlyWhen (amount > 0) tokens
    (payFrom rt tokens escrow mint first owner seeds amount)
  onlyWhen (rest > 0) tokens (payFrom rt tokens escrow mint second owner seeds rest)

/-! ## Payments on proof (`pbs.rs`) -/

structure CommitProbabilisticParams where
  amount : UInt64
  conditionHash : BitVec 256
  expirySlot : UInt64
  commitmentId : UInt64
  claimant : Pubkey

structure CommitProbabilistic where
  issuer : Signer
  stableMint : Pubkey
  escrowTokenAccount : Pubkey
  issuerTokenAccount : Pubkey

def commitProbabilisticHandler (a : CommitProbabilistic) (p : CommitProbabilisticParams) :
    Result State := do
  let configKey := Pubkey.stablecoinConfig a.stableMint
  let vaultKey := Pubkey.pbsVault configKey p.commitmentId
  let _ ← loadEscrowConfig s a.stableMint flagProbabilisticMoney
  requireFree s.probabilisticVaults vaultKey
  requireTokenAccount s a.escrowTokenAccount a.stableMint vaultKey
  requireTokenAccount s a.issuerTokenAccount a.stableMint a.issuer.key
  requireAmount p.amount
  require (p.expirySlot > clock.slot) (.sss .invalidExpirySlot)
  let tokens ← (rt.token.transferChecked s.tokens a.issuerTokenAccount a.stableMint
    a.escrowTokenAccount a.issuer.key p.amount).okOr .token
  pure { s with
    tokens
    probabilisticVaults := put s.probabilisticVaults vaultKey
      { config := configKey, issuer := a.issuer.key, claimant := p.claimant
        stableMint := a.stableMint, committedAmount := p.amount, resolvedAmount := 0
        conditionHash := p.conditionHash, expirySlot := p.expirySlot
        commitmentId := p.commitmentId, status := .pending } }

/-- Accounts of the claimant's instructions; only `partial_resolve` looks at the issuer's. -/
structure Resolve where
  claimant : Signer
  vault : Pubkey
  stableMint : Pubkey
  escrowTokenAccount : Pubkey
  claimantTokenAccount : Pubkey
  issuerTokenAccount : Pubkey

/-- The claimant's vault, which is still open. -/
def Resolve.load (a : Resolve) : Result ProbabilisticVault := do
  let vault ← SolanaStablecoin.load s.probabilisticVaults a.vault
  require (vault.claimant = a.claimant.key) (.sss .unauthorized)
  require (vault.isTerminal = false) (.sss .vaultAlreadyTerminal)
  let _ ← SolanaStablecoin.load s.tokens.mints a.stableMint
  require (a.stableMint = vault.stableMint) (.anchor .constraintRaw)
  requireTokenAccount s a.escrowTokenAccount a.stableMint a.vault
  requireTokenAccount s a.claimantTokenAccount a.stableMint a.claimant.key
  pure vault

namespace ProbabilisticVault

/-- The address that the recorded seeds derive. -/
def seeds (v : ProbabilisticVault) : Pubkey := .pbsVault v.config v.commitmentId

/-- Only who knows the secret can present it. -/
def checkProof (v : ProbabilisticVault) (proofHash : BitVec 256) : Result Unit :=
  require (rt.blake3 proofHash = v.conditionHash) (.sss .proofHashMismatch)

end ProbabilisticVault

def proveAndResolveHandler (a : Resolve) (proofHash : BitVec 256) : Result State := do
  let vault ← a.load s
  vault.checkProof rt proofHash
  requireAmount vault.remaining
  let tokens ← payFrom rt s.tokens a.escrowTokenAccount a.stableMint a.claimantTokenAccount
    a.vault vault.seeds vault.remaining
  pure { s with
    tokens
    probabilisticVaults := put s.probabilisticVaults a.vault
      { vault with resolvedAmount := vault.committedAmount, status := .resolved } }

/-- The claimant takes a part, and the rest goes back to the issuer at once. -/
def partialResolveHandler (a : Resolve) (amount : UInt64) (proofHash : BitVec 256) :
    Result State := do
  let vault ← a.load s
  requireTokenAccount s a.issuerTokenAccount a.stableMint vault.issuer
  vault.checkProof rt proofHash
  requireAmount amount
  require (amount ≤ vault.remaining) (.sss .invalidAmount)
  let remainder := vault.remaining.saturatingSub amount
  let tokens ← splitFrom rt s.tokens a.escrowTokenAccount a.stableMint a.claimantTokenAccount
    a.issuerTokenAccount a.vault vault.seeds amount remainder
  let resolvedAmount ← (vault.resolvedAmount.checkedAdd amount).okOr (.sss .overflow)
  pure { s with
    tokens
    probabilisticVaults := put s.probabilisticVaults a.vault
      { vault with
        resolvedAmount := if remainder > 0 then vault.committedAmount else resolvedAmount
        status := .resolved } }

structure ExpireAndRefund where
  caller : Signer
  vault : Pubkey
  stableMint : Pubkey
  escrowTokenAccount : Pubkey
  issuerTokenAccount : Pubkey

/-- Anybody may call this. -/
def expireAndRefundHandler (a : ExpireAndRefund) : Result State := do
  let vault ← load s.probabilisticVaults a.vault
  require (vault.isTerminal = false) (.sss .vaultAlreadyTerminal)
  let _ ← load s.tokens.mints a.stableMint
  require (a.stableMint = vault.stableMint) (.anchor .constraintRaw)
  requireTokenAccount s a.escrowTokenAccount a.stableMint a.vault
  requireTokenAccount s a.issuerTokenAccount a.stableMint vault.issuer
  require (clock.slot ≥ vault.expirySlot) (.sss .vaultNotExpired)
  let tokens ← onlyWhen (vault.remaining > 0) s.tokens
    (payFrom rt s.tokens a.escrowTokenAccount a.stableMint a.issuerTokenAccount a.vault
      vault.seeds vault.remaining)
  pure { s with
    tokens
    probabilisticVaults := put s.probabilisticVaults a.vault { vault with status := .expired } }

/-! ## Payment channels (`apc.rs`) -/

structure OpenChannelParams where
  counterparty : Pubkey
  deposit : UInt64
  channelId : UInt64
  disputePolicy : UInt8
  timeoutSlots : UInt64

structure OpenChannel where
  initiator : Signer
  stableMint : Pubkey
  escrowTokenAccount : Pubkey
  initiatorTokenAccount : Pubkey

def openChannelHandler (a : OpenChannel) (p : OpenChannelParams) : Result State := do
  let channelKey := Pubkey.apcChannel a.initiator.key p.channelId
  let _ ← loadEscrowConfig s a.stableMint flagAgentPaymentChannel
  requireFree s.paymentChannels channelKey
  requireTokenAccount s a.escrowTokenAccount a.stableMint channelKey
  requireTokenAccount s a.initiatorTokenAccount a.stableMint a.initiator.key
  require (p.timeoutSlots > 0) (.sss .invalidExpirySlot)
  requireAmount p.deposit
  let tokens ← (rt.token.transferChecked s.tokens a.initiatorTokenAccount a.stableMint
    a.escrowTokenAccount a.initiator.key p.deposit).okOr .token
  pure { s with
    tokens
    paymentChannels := put s.paymentChannels channelKey
      { initiator := a.initiator.key, counterparty := p.counterparty, stableMint := a.stableMint
        initiatorDeposit := p.deposit, openSlot := clock.slot, channelId := p.channelId
        disputePolicy := p.disputePolicy, timeoutSlots := p.timeoutSlots, workProofHash := 0
        status := .opened } }

/-- Accounts of an instruction that one of the two parties signs. -/
structure Party where
  party : Signer
  channel : Pubkey

/-- The channel, which is open and has the signer for a party. -/
def Party.loadOpen (a : Party) : Result PaymentChannel := do
  let channel ← load s.paymentChannels a.channel
  require (channel.status = .opened) (.sss .channelAlreadyClosed)
  require (channel.initiator = a.party.key ∨ channel.counterparty = a.party.key)
    (.sss .unauthorized)
  pure channel

/-- The type of the proof goes into an event only. -/
def submitWorkProofHandler (a : Party) (taskHash outputHash : BitVec 256) : Result State := do
  let channel ← a.loadOpen s
  pure { s with
    paymentChannels := put s.paymentChannels a.channel
      { channel with workProofHash := rt.blake3 (taskHash ++ outputHash) } }

/-- A party proposes what the counterparty shall get. There is one proposal at a time. -/
def proposeSettleHandler (a : Party) (amount : UInt64) : Result State := do
  let channel ← a.loadOpen s
  requireFree s.proposedSettlements (.apcSettle a.channel)
  require (amount ≤ channel.initiatorDeposit) (.sss .invalidSettleAmount)
  pure { s with
    proposedSettlements := put s.proposedSettlements (.apcSettle a.channel)
      { amount, proposedBy := a.party.key } }

def disputeHandler (a : Party) (evidenceHash : BitVec 256) : Result State := do
  let channel ← a.loadOpen s
  pure { s with
    paymentChannels := put s.paymentChannels a.channel
      { channel with workProofHash := evidenceHash, status := .disputed } }

/-- The token accounts that a settlement moves stablecoins between. -/
structure SettleAccounts where
  stableMint : Pubkey
  escrowTokenAccount : Pubkey
  counterpartyTokenAccount : Pubkey
  initiatorTokenAccount : Pubkey

def SettleAccounts.check (a : SettleAccounts) (key : Pubkey) (channel : PaymentChannel) :
    Result Unit := do
  let _ ← load s.tokens.mints a.stableMint
  require (a.stableMint = channel.stableMint) (.anchor .constraintRaw)
  requireTokenAccount s a.escrowTokenAccount a.stableMint key
  requireTokenAccount s a.counterpartyTokenAccount a.stableMint channel.counterparty
  requireTokenAccount s a.initiatorTokenAccount a.stableMint channel.initiator

/-- The address that the recorded seeds derive. -/
def PaymentChannel.seeds (c : PaymentChannel) : Pubkey := .apcChannel c.initiator c.channelId

/-- The counterparty gets `amount` and the initiator the rest, and the channel is settled. -/
def SettleAccounts.settle (a : SettleAccounts) (key : Pubkey) (channel : PaymentChannel)
    (amount : UInt64) : Result State := do
  let remainder := channel.initiatorDeposit.saturatingSub amount
  let tokens ← splitFrom rt s.tokens a.escrowTokenAccount a.stableMint
    a.counterpartyTokenAccount a.initiatorTokenAccount key channel.seeds amount remainder
  pure { s with
    tokens
    paymentChannels := put s.paymentChannels key { channel with status := .settled } }

structure CountersignSettle extends Party, SettleAccounts

/-- The other party agrees; its proposal is closed. -/
def countersignSettleHandler (a : CountersignSettle) (amount : UInt64) : Result State := do
  let channel ← a.loadOpen s
  let proposed ← load s.proposedSettlements (.apcSettle a.channel)
  require (proposed.proposedBy ≠ a.party.key) (.sss .unauthorized)
  a.check s a.channel channel
  require (amount = proposed.amount) (.sss .settlementNotMatching)
  require (amount ≤ channel.initiatorDeposit) (.sss .invalidSettleAmount)
  let s' ← a.settle rt s a.channel channel amount
  pure { s' with
    proposedSettlements := Function.update s'.proposedSettlements (.apcSettle a.channel) none }

structure ForceClose where
  initiator : Signer
  channel : Pubkey
  stableMint : Pubkey
  escrowTokenAccount : Pubkey
  initiatorTokenAccount : Pubkey

def forceCloseHandler (a : ForceClose) : Result State := do
  let channel ← load s.paymentChannels a.channel
  require (channel.initiator = a.initiator.key) (.sss .unauthorized)
  require (channel.status.isTerminal = false) (.sss .channelAlreadyClosed)
  let _ ← load s.tokens.mints a.stableMint
  require (a.stableMint = channel.stableMint) (.anchor .constraintRaw)
  requireTokenAccount s a.escrowTokenAccount a.stableMint a.channel
  requireTokenAccount s a.initiatorTokenAccount a.stableMint a.initiator.key
  require (clock.slot ≥ channel.openSlot.saturatingAdd channel.timeoutSlots)
    (.sss .channelNotExpired)
  let tokens ← onlyWhen (channel.initiatorDeposit > 0) s.tokens
    (payFrom rt s.tokens a.escrowTokenAccount a.stableMint a.initiatorTokenAccount a.channel
      channel.seeds channel.initiatorDeposit)
  pure { s with
    tokens
    paymentChannels := put s.paymentChannels a.channel { channel with status := .forceClose } }

/-- An account of the instruction, which may or may not have signed. -/
inductive Presented where
  | signed (u : Signer)
  | unsigned (k : Pubkey)

/-- The account signed and is `k`. -/
def Presented.signedBy (p : Presented) (k : Pubkey) : Bool :=
  match p with
  | signed u => u.key = k
  | unsigned _ => false

structure ResolveDispute extends SettleAccounts where
  channel : Pubkey
  initiatorSigner : Presented
  counterpartySigner : Presented
  authority : Presented

/-- Both parties resolve a dispute, or the authority of the config does. -/
def resolveDisputeHandler (a : ResolveDispute) (settlementAmount : UInt64) : Result State := do
  let config ← load s.configs (.stablecoinConfig a.stableMint)
  let channel ← load s.paymentChannels a.channel
  require (channel.status = .disputed) (.sss .channelAlreadyClosed)
  a.check s a.channel channel
  require (a.initiatorSigner.signedBy channel.initiator ∧
      a.counterpartySigner.signedBy channel.counterparty ∨ a.authority.signedBy config.authority)
    (.sss .unauthorized)
  require (settlementAmount ≤ channel.initiatorDeposit) (.sss .invalidSettleAmount)
  a.settle rt s a.channel channel settlementAmount

end SolanaStablecoin
