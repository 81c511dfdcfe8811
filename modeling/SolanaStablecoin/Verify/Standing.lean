import SolanaStablecoin.Verify.Settings

/-! Which transactions write whether a stablecoin is paused and what it holds in reserve, and which
write the accounts of its councils and of its minters. -/

namespace SolanaStablecoin

open Transition

/-- Whether a stablecoin is paused, and its reserve as the config records it. -/
structure Standing where
  paused : Bool
  collateralMint : Pubkey
  reserveVault : Pubkey
  totalCollateral : UInt64

def StablecoinConfig.standing (c : StablecoinConfig) : Standing :=
  { paused := c.paused, collateralMint := c.collateralMint, reserveVault := c.reserveVault
    totalCollateral := c.totalCollateral }

abbrev SameStanding : State → State → Prop := SameConfigs StablecoinConfig.standing

/-- The accounts that votes are counted in, the pending rotations and the minters. -/
structure Councils where
  daoCommittees : Pubkey → Option DaoCommitteeConfig
  proposals : Pubkey → Option ProposalPda
  guardianConfigs : Pubkey → Option GuardianConfig
  pauseProposals : Pubkey → Option PauseProposal
  authorityRotationRequests : Pubkey → Option AuthorityRotationRequest
  minterInfos : Pubkey → Option MinterInfo

def State.councils (s : State) : Councils :=
  { daoCommittees := s.daoCommittees, proposals := s.proposals
    guardianConfigs := s.guardianConfigs, pauseProposals := s.pauseProposals
    authorityRotationRequests := s.authorityRotationRequests, minterInfos := s.minterInfos }

namespace Instruction

/-- The instruction pauses or unpauses, or moves the reserve. -/
def restands : Instruction → Bool
  | initializeStablecoin .. | pause .. | executeTimelockedOp .. | crankCircuitBreaker ..
  | crankUnpause .. | executeAction .. | guardianProposePause .. | guardianVotePause ..
  | guardianLiftPause .. | depositCollateral .. | redeem .. | psmDynamicSwap ..
  | processRedemption .. | triggerBackstop .. => true
  | _ => false

/-- The instruction is one of the DAO committee's, or uses up what the committee has granted. -/
def deliberates : Instruction → Bool
  | initDaoCommittee .. | proposeAction .. | voteAction .. | executeAction .. | drawInsurance .. =>
    true
  | _ => false

/-- The instruction is one of the guardians'. -/
def guards : Instruction → Bool
  | initGuardianConfig .. | guardianProposePause .. | guardianVotePause ..
  | guardianLiftPause .. => true
  | _ => false

/-- The instruction is part of a rotation of the authority. -/
def rotates : Instruction → Bool
  | proposeAuthorityRotation .. | acceptAuthorityRotation .. | emergencyRecoverAuthority ..
  | cancelAuthorityRotation .. => true
  | _ => false

/-- The instruction writes the account of a minter. -/
def licenses : Instruction → Bool
  | updateMinter .. | revokeMinter .. | setMintVelocityLimit .. | mint .. | cpiMint .. => true
  | _ => false

/-- The instruction writes the accounts of a council. -/
def convenes (i : Instruction) : Bool := i.deliberates || i.guards || i.rotates || i.licenses

end Instruction

variable {rt : Runtime} {clock : Clock} {s s' : State} {k : Pubkey} {c c' : StablecoinConfig}

/-- All configs keep their standing, and the councils stay. -/
structure Settled (s s' : State) : Prop where
  standing : SameStanding s s'
  councils : s'.councils = s.councils

theorem Instruction.standing_without {i : Instruction} (hstand : i.restands = false) :
    (c.without i.fields).standing = c.standing := by
  cases i with
  | _ => first | rfl | cases hstand

theorem Instruction.councils_without {i : Instruction} (hconvene : i.convenes = false) :
    (s.without i.tables).councils = s.councils := by
  cases i with
  | _ => first | rfl | cases hconvene

theorem Instruction.exec_sameStanding {i : Instruction} (hstand : i.restands = false)
    (h : i.exec rt clock s = .ok s') : SameStanding s s' := by
  refine (exec_fields ?_ s' h).of_without fun _ => standing_without hstand
  rintro a p rfl
  cases hstand

theorem Instruction.exec_sameCouncils {i : Instruction} (hconvene : i.convenes = false)
    (h : i.exec rt clock s = .ok s') : s'.councils = s.councils :=
  exec_same State.councils (fun _ => councils_without hconvene) h

theorem Instruction.exec_sameMinterInfos {i : Instruction} (hi : i.licenses = false)
    (h : i.exec rt clock s = .ok s') : s'.minterInfos = s.minterInfos := by
  refine exec_same State.minterInfos (fun t => ?_) h
  cases i with
  | _ => first | rfl | cases hi

theorem World.exec_settled {w : World} (h : w.exec rt s = .ok s') : Settled s s' := by
  obtain ⟨t, p, q, d, rfl⟩ := World.exec_outside h
  exact ⟨.of_eq rfl, rfl⟩

/-! ## The councils -/

/-- Each council is written by its own instructions. -/
inductive CouncilsChange (s : State) : Action → State → Prop where
  | same {a : Action} {s' : State} (h : s'.councils = s.councils) : CouncilsChange s a s'
  | deliberated {clock : Clock} {i : Instruction} {s' : State} (kind : i.deliberates = true)
    (h : s'.councils =
      { s.councils with daoCommittees := s'.daoCommittees, proposals := s'.proposals }) :
    CouncilsChange s (.call clock i) s'
  | guarded {clock : Clock} {i : Instruction} {s' : State} (kind : i.guards = true)
    (h : s'.councils =
      { s.councils with
        guardianConfigs := s'.guardianConfigs, pauseProposals := s'.pauseProposals }) :
    CouncilsChange s (.call clock i) s'
  | rotated {clock : Clock} {i : Instruction} {s' : State} (kind : i.rotates = true)
    (h : s'.councils =
      { s.councils with authorityRotationRequests := s'.authorityRotationRequests }) :
    CouncilsChange s (.call clock i) s'
  | licensed {clock : Clock} {i : Instruction} {s' : State} (kind : i.licenses = true)
    (h : s'.councils = { s.councils with minterInfos := s'.minterInfos }) :
    CouncilsChange s (.call clock i) s'

theorem Instruction.exec_councils {i : Instruction} (h : i.exec rt clock s = .ok s') :
    CouncilsChange s (.call clock i) s' := by
  cases hconvene : i.convenes with
  | false => exact .same (Instruction.exec_sameCouncils hconvene h)
  | true =>
    revert s'
    change Ensures (i.exec rt clock s) (CouncilsChange s (.call clock i))
    cases i
    all_goals try (cases hconvene; done)
    all_goals change Ensures (_ >>= _) _
    all_goals repeat' first
      | with_reducible refine .bind fun _ _ => ?_
      | with_reducible refine .ite (fun _ => ?_) fun _ => ?_
      | exact .pure (.deliberated rfl rfl)
      | exact .pure (.guarded rfl rfl)
      | exact .pure (.rotated rfl rfl)
      | exact .pure (.licensed rfl rfl)
      | change Ensures (_ >>= _) _
      | rw [CallerAndMint.recordVote]

theorem exec_councils {a : Action} (h : Action.exec rt s a = .ok s') :
    CouncilsChange s a s' := by
  cases a with
  | call clock i => exact Instruction.exec_councils h
  | world w => exact .same (World.exec_settled h).councils

end SolanaStablecoin
