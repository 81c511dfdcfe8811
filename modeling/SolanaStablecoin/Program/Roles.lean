import SolanaStablecoin.Program.Admin

/-! Handing a stablecoin over: direct transfers of its authorities, the rotation with a backup,
and the move under a multisig. -/

namespace SolanaStablecoin

variable (clock : Clock) (s : State)

/-! ## update_roles and the acceptance of a role -/

structure UpdateRolesParams where
  newAuthority : Option Pubkey := none
  newComplianceAuthority : Option Pubkey := none

def updateRolesHandler (a : AuthorityAndMint) (p : UpdateRolesParams) : Result State := do
  let config ← a.loadConfig s
  checkSquads config a.authority.key
  require p.newComplianceAuthority.isNone (.sss .complianceAuthorityRequiresTimelock)
  match p.newAuthority with
  | none => pure s
  | some proposed => do
    require (config.adminTimelockDelay = 0) (.sss .useTimelockForAuthorityTransfer)
    pure { s with
      configs := put s.configs a.config { config with pendingAuthority := proposed } }

/-- The one who takes over signs, and nobody else. -/
structure AcceptRole where
  pending : Signer
  mint : Pubkey

def acceptAuthorityHandler (a : AcceptRole) : Result State := do
  let config ← load s.configs (.stablecoinConfig a.mint)
  require (config.pendingAuthority ≠ .default) (.sss .noPendingAuthority)
  require (config.pendingAuthority = a.pending.key) (.sss .unauthorized)
  let _ ← load s.tokens.mints a.mint
  require (a.mint = config.mint) (.anchor .constraintRaw)
  pure { s with
    configs := put s.configs (.stablecoinConfig a.mint)
      { config with authority := config.pendingAuthority, pendingAuthority := .default } }

def acceptComplianceAuthorityHandler (a : AcceptRole) : Result State := do
  let config ← load s.configs (.stablecoinConfig a.mint)
  require (config.pendingComplianceAuthority ≠ .default) (.sss .noPendingComplianceAuthority)
  require (config.pendingComplianceAuthority = a.pending.key) (.sss .unauthorized)
  let _ ← load s.tokens.mints a.mint
  require (a.mint = config.mint) (.anchor .constraintRaw)
  pure { s with
    configs := put s.configs (.stablecoinConfig a.mint)
      { config with
        complianceAuthority := config.pendingComplianceAuthority
        pendingComplianceAuthority := .default } }

/-! ## The rotation of the authority -/

def rotationTimelockSlots : UInt64 := 432000
def emergencyRecoverySlots : UInt64 := 7 * 432000

/-- The maturity slot that the handler logs is computed with overflow checks. -/
def proposeAuthorityRotationHandler (a : AuthorityAndMint)
    (newAuthority backupAuthority : Pubkey) : Result State := do
  let config ← load s.configs a.config
  require (config.authority = a.authority.key) (.sss .unauthorized)
  requireFree s.authorityRotationRequests (.authorityRotation a.mint)
  let _ ← load s.tokens.mints a.mint
  require (a.mint = config.mint) (.anchor .constraintRaw)
  checkSquads config a.authority.key
  require (newAuthority ≠ config.authority) (.sss .rotationNewAuthorityIsCurrent)
  require (backupAuthority ≠ config.authority) (.sss .rotationBackupIsCurrent)
  require (backupAuthority ≠ newAuthority) (.sss .rotationBackupEqualsNew)
  require (newAuthority ≠ .default) (.sss .rotationZeroPubkey)
  require (backupAuthority ≠ .default) (.sss .rotationZeroPubkey)
  let _ ← (clock.slot.checkedAdd rotationTimelockSlots).okOr .panic
  pure { s with
    authorityRotationRequests := put s.authorityRotationRequests (.authorityRotation a.mint)
      { configMint := config.mint, currentAuthority := config.authority
        newAuthority, backupAuthority, proposedSlot := clock.slot
        timelockSlots := rotationTimelockSlots } }

/-- Accounts of the two ways a rotation ends with a new authority: the one who takes over, and
the wallet that gets the rent back. -/
structure TakeOver where
  successor : Signer
  currentAuthority : Pubkey
  mint : Pubkey

/-- The request is closed, and the successor it names is the authority from now on. -/
def TakeOver.complete (a : TakeOver) (named : AuthorityRotationRequest → Pubkey)
    (delay : AuthorityRotationRequest → UInt64) (e : SssError) : Result State := do
  let config ← load s.configs (.stablecoinConfig a.mint)
  let req ← load s.authorityRotationRequests (.authorityRotation a.mint)
  require (req.configMint = a.mint) (.sss .unauthorized)
  require (named req = a.successor.key) (.sss .unauthorized)
  require (req.currentAuthority = a.currentAuthority) (.sss .unauthorized)
  let _ ← load s.tokens.mints a.mint
  require (a.mint = config.mint) (.anchor .constraintRaw)
  let mature ← (req.proposedSlot.checkedAdd (delay req)).okOr (.sss .overflow)
  require (clock.slot ≥ mature) (.sss e)
  pure { s with
    configs := put s.configs (.stablecoinConfig a.mint)
      { config with authority := named req, pendingAuthority := .default }
    authorityRotationRequests :=
      Function.update s.authorityRotationRequests (.authorityRotation a.mint) none }

def acceptAuthorityRotationHandler (a : TakeOver) : Result State :=
  a.complete clock s (·.newAuthority) (·.timelockSlots) .timelockNotMature

def emergencyRecoverAuthorityHandler (a : TakeOver) : Result State :=
  a.complete clock s (·.backupAuthority) (fun _ => emergencyRecoverySlots)
    .emergencyRecoveryNotReady

def cancelAuthorityRotationHandler (a : AuthorityAndMint) : Result State := do
  let config ← load s.configs a.config
  require (config.authority = a.authority.key) (.sss .unauthorized)
  let req ← load s.authorityRotationRequests (.authorityRotation a.mint)
  require (req.configMint = a.mint) (.sss .unauthorized)
  require (req.currentAuthority = a.authority.key) (.sss .unauthorized)
  let _ ← load s.tokens.mints a.mint
  require (a.mint = config.mint) (.anchor .constraintRaw)
  checkSquads config a.authority.key
  pure { s with
    authorityRotationRequests :=
      Function.update s.authorityRotationRequests (.authorityRotation a.mint) none }

/-! ## init_squads_authority -/

def presetInstitutional : UInt8 := 4

structure InitSquadsAuthorityParams where
  multisigPda : Pubkey
  threshold : UInt8
  members : List Pubkey

def InitSquadsAuthorityParams.check (p : InitSquadsAuthorityParams) : Result Unit := do
  require (p.multisigPda ≠ .default) (.sss .squadsMultisigPdaInvalid)
  require (p.threshold > 0) (.sss .squadsThresholdZero)
  require (p.members ≠ []) (.sss .squadsMembersEmpty)
  require (p.members.length ≤ SquadsMultisigConfig.maxMembers) (.sss .squadsMembersTooMany)
  require (p.threshold.toNat ≤ p.members.length) (.sss .squadsThresholdExceedsMembers)
  require p.members.Nodup (.sss .squadsDuplicateMember)

/-- The multisig takes over at once, and for good. -/
def initSquadsAuthorityHandler (a : AuthorityAndMint) (p : InitSquadsAuthorityParams) :
    Result State := do
  let config ← load s.configs a.config
  require (config.authority = a.authority.key) (.sss .unauthorized)
  require (config.squadsMultisig = .default) (.sss .squadsAuthorityAlreadySet)
  let _ ← load s.tokens.mints a.mint
  require (a.mint = config.mint) (.anchor .constraintRaw)
  requireFree s.squadsMultisigConfigs (.squadsMultisigConfig a.mint)
  p.check
  pure { s with
    configs := put s.configs a.config
      { config with
        authority := p.multisigPda, squadsMultisig := p.multisigPda
        preset := presetInstitutional
        featureFlags := config.featureFlags ||| flagSquadsAuthority }
    squadsMultisigConfigs := put s.squadsMultisigConfigs (.squadsMultisigConfig a.mint)
      { sssMint := a.mint, multisigPda := p.multisigPda, threshold := p.threshold
        members := p.members } }

end SolanaStablecoin
