import SolanaStablecoin.Program.Issue

/-! Governance by votes: the DAO committee, whose executed proposals act on the config, and the
guardians, who can pause it. -/

namespace SolanaStablecoin

variable (clock : Clock) (s : State)

/-! ## The DAO committee (`dao_committee.rs`) -/

def initDaoCommitteeHandler (a : AuthorityAndMint) (members : List Pubkey) (quorum : UInt8) :
    Result State := do
  let config ← a.loadConfig s
  requireFree s.daoCommittees (.daoCommittee a.config)
  checkSquads config a.authority.key
  require (members ≠ []) (.sss .invalidQuorum)
  require (members.length ≤ DaoCommitteeConfig.maxMembers) (.sss .committeeFull)
  require (1 ≤ quorum ∧ quorum.toNat ≤ members.length) (.sss .invalidQuorum)
  require members.Nodup (.sss .duplicateMember)
  pure { s with
    daoCommittees := put s.daoCommittees (.daoCommittee a.config)
      { config := a.config, members, quorum, nextProposalId := 0 }
    configs := put s.configs a.config
      { config with featureFlags := config.featureFlags ||| flagDaoCommittee } }

/-- Accounts of an instruction of somebody who need not be the authority. -/
structure CallerAndMint where
  caller : Signer
  mint : Pubkey

def CallerAndMint.config (a : CallerAndMint) : Pubkey := .stablecoinConfig a.mint

def CallerAndMint.loadCommittee (a : CallerAndMint) :
    Result (StablecoinConfig × DaoCommitteeConfig) := do
  let config ← loadConfigOfMint s a.mint
  let committee ← load s.daoCommittees (.daoCommittee a.config)
  pure (config, committee)

def proposeActionHandler (a : CallerAndMint) (action : ProposalAction) (param : UInt64)
    (target : Pubkey) : Result State := do
  let (config, committee) ← a.loadCommittee s
  let proposalId := committee.nextProposalId
  let key := Pubkey.daoProposal a.config proposalId
  requireFree s.proposals key
  require (config.featureFlags &&& flagDaoCommittee ≠ 0) (.sss .daoCommitteeRequired)
  require (config.authority = a.caller.key ∨ a.caller.key ∈ committee.members)
    (.sss .notAuthorizedToPropose)
  checkSquads config a.caller.key
  let nextProposalId ← (proposalId.checkedAdd 1).okOr (.sss .overflow)
  pure { s with
    daoCommittees := put s.daoCommittees (.daoCommittee a.config) { committee with nextProposalId }
    proposals := put s.proposals key
      { config := a.config, proposalId, proposer := a.caller.key, action, param, target
        quorum := committee.quorum } }

def voteActionHandler (a : CallerAndMint) (proposalId : UInt64) : Result State := do
  let (_, committee) ← a.loadCommittee s
  let proposal ← load s.proposals (.daoProposal a.config proposalId)
  require (a.caller.key ∈ committee.members) (.sss .notACommitteeMember)
  require (proposal.executed = false) (.sss .proposalAlreadyExecuted)
  require (proposal.cancelled = false) (.sss .proposalCancelled)
  require (a.caller.key ∉ proposal.votes) (.sss .alreadyVoted)
  pure { s with
    proposals := put s.proposals (.daoProposal a.config proposalId)
      { proposal with votes := proposal.votes ++ [a.caller.key] } }

/-- What an executed proposal does to the config. Minters are updated, and the insurance vault is
drawn, by instructions of their own. -/
def StablecoinConfig.enact (c : StablecoinConfig) (param : UInt64) :
    ProposalAction → Result StablecoinConfig
  | .pause => pure { c with paused := true }
  | .unpause => pure { c with paused := false }
  | .setFeatureFlag => pure { c with featureFlags := c.featureFlags ||| param }
  | .clearFeatureFlag => do
    require (param &&& flagDaoCommittee = 0) (.sss .daoFlagProtected)
    require (param &&& flagSquadsAuthority = 0) (.sss .daoFlagProtected)
    pure { c with featureFlags := c.featureFlags &&& ~~~param }
  | .updateMinter | .revokeMinter | .drawInsurance => pure c

def executeActionHandler (a : CallerAndMint) (proposalId : UInt64) : Result State := do
  let (config, _) ← a.loadCommittee s
  let proposal ← load s.proposals (.daoProposal a.config proposalId)
  require (proposal.executed = false) (.sss .proposalAlreadyExecuted)
  require (proposal.cancelled = false) (.sss .proposalCancelled)
  require (proposal.votes.length ≥ proposal.quorum.toNat) (.sss .quorumNotReached)
  let config ← config.enact proposal.param proposal.action
  pure { s with
    configs := put s.configs a.config config
    proposals := put s.proposals (.daoProposal a.config proposalId)
      { proposal with executed := true } }

/-! ## The guardians (`guardian.rs`) -/

def initGuardianConfigHandler (a : AuthorityAndMint) (guardians : List Pubkey)
    (threshold : UInt8) : Result State := do
  let config ← a.loadConfig s
  requireFree s.guardianConfigs (.guardianConfig a.config)
  checkSquads config a.authority.key
  require (guardians ≠ []) (.sss .guardianListEmpty)
  require (guardians.length ≤ GuardianConfig.maxGuardians) (.sss .guardianListFull)
  require (1 ≤ threshold) (.sss .invalidGuardianThreshold)
  require (threshold.toNat ≤ guardians.length) (.sss .invalidGuardianThreshold)
  require guardians.Nodup (.sss .duplicateGuardian)
  pure { s with
    guardianConfigs := put s.guardianConfigs (.guardianConfig a.config)
      { config := a.config, guardians, threshold } }

def CallerAndMint.loadGuardians (a : CallerAndMint) :
    Result (StablecoinConfig × GuardianConfig) := do
  let config ← loadConfigOfMint s a.mint
  let gc ← load s.guardianConfigs (.guardianConfig a.config)
  pure (config, gc)

/-- The guardians' own pause begins; the authority cannot lift it for a day. -/
def GuardianConfig.beginPause (gc : GuardianConfig) : Result GuardianConfig := do
  let guardianPauseUnlocksAt ← (clock.unixTimestamp.checkedAdd
    GuardianConfig.guardianPauseAuthorityOverrideDelay).okOr (.sss .overflow)
  pure { gc with guardianPauseActive := true, guardianPauseUnlocksAt, pendingLiftVotes := [] }

/-- The pause takes effect with the vote that meets the threshold. -/
def CallerAndMint.recordVote (a : CallerAndMint) (config : StablecoinConfig)
    (gc : GuardianConfig) (proposal : PauseProposal) (reached : Bool) : Result State := do
  let key := Pubkey.pauseProposal a.config proposal.proposalId
  if reached then do
    let gc ← gc.beginPause clock
    pure { s with
      configs := put s.configs a.config { config with paused := true }
      guardianConfigs := put s.guardianConfigs (.guardianConfig a.config) gc
      pauseProposals := put s.pauseProposals key { proposal with executed := true } }
  else
    pure { s with
      guardianConfigs := put s.guardianConfigs (.guardianConfig a.config) gc
      pauseProposals := put s.pauseProposals key proposal }

def guardianProposePauseHandler (a : CallerAndMint) (reason : BitVec 256) : Result State := do
  let (config, gc) ← a.loadGuardians s
  let proposalId := gc.nextProposalId
  requireFree s.pauseProposals (.pauseProposal a.config proposalId)
  require (a.caller.key ∈ gc.guardians) (.sss .notAGuardian)
  let nextProposalId ← (proposalId.checkedAdd 1).okOr (.sss .overflow)
  a.recordVote clock s config { gc with nextProposalId }
    { config := a.config, proposalId, proposer := a.caller.key, reason, votes := [a.caller.key]
      threshold := gc.threshold }
    (gc.threshold = 1)

def guardianVotePauseHandler (a : CallerAndMint) (proposalId : UInt64) : Result State := do
  let (config, gc) ← a.loadGuardians s
  let proposal ← load s.pauseProposals (.pauseProposal a.config proposalId)
  require (proposal.executed = false) (.sss .alreadyVoted)
  require (a.caller.key ∈ gc.guardians) (.sss .notAGuardian)
  require (proposal.proposalId = proposalId) (.sss .unauthorized)
  require (a.caller.key ∉ proposal.votes) (.sss .alreadyVoted)
  let votes := proposal.votes ++ [a.caller.key]
  a.recordVote clock s config gc { proposal with votes }
    (UInt8.ofNat votes.length ≥ gc.threshold)

/-- A guardian votes, and all of them together lift the pause. The authority alone lifts it, once
the guardians' own pause has run out. -/
def guardianLiftPauseHandler (a : CallerAndMint) : Result State := do
  let (config, gc) ← a.loadGuardians s
  let lifted := { config with paused := false }
  if a.caller.key ∈ gc.guardians then do
    require (a.caller.key ∉ gc.pendingLiftVotes) (.sss .alreadyVoted)
    let votes := gc.pendingLiftVotes ++ [a.caller.key]
    if votes.length ≥ gc.guardians.length then
      pure { s with
        configs := put s.configs a.config lifted
        guardianConfigs := put s.guardianConfigs (.guardianConfig a.config)
          { gc with
            guardianPauseActive := false, guardianPauseUnlocksAt := 0, pendingLiftVotes := [] } }
    else
      pure { s with
        guardianConfigs := put s.guardianConfigs (.guardianConfig a.config)
          { gc with pendingLiftVotes := votes } }
  else do
    require (config.authority = a.caller.key) (.sss .unauthorized)
    checkSquads config a.caller.key
    requireWhen gc.guardianPauseActive <|
      require (clock.unixTimestamp ≥ gc.guardianPauseUnlocksAt)
        (.sss .guardianPauseTimelockActive)
    pure { s with
      configs := put s.configs a.config lifted
      guardianConfigs := put s.guardianConfigs (.guardianConfig a.config)
        { gc with
          guardianPauseActive := false
          guardianPauseUnlocksAt :=
            if gc.guardianPauseActive then 0 else gc.guardianPauseUnlocksAt
          pendingLiftVotes := [] } }

end SolanaStablecoin
