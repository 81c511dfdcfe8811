import SolanaStablecoin.Verify.Settings

/-! Which transactions write the accounts of the insurance vault, of the redemption pool and of the
redemption guarantee. -/

namespace SolanaStablecoin

structure Funds where
  insuranceVaults : Pubkey → Option InsuranceVault
  redemptionPools : Pubkey → Option RedemptionPool
  redemptionGuarantees : Pubkey → Option RedemptionGuarantee
  redemptionRequests : Pubkey → Option RedemptionRequest

def State.funds (s : State) : Funds :=
  { insuranceVaults := s.insuranceVaults, redemptionPools := s.redemptionPools
    redemptionGuarantees := s.redemptionGuarantees, redemptionRequests := s.redemptionRequests }

namespace Instruction

/-- The instruction is one of the insurance vault's. -/
def insures : Instruction → Bool
  | initInsuranceVault .. | seedInsuranceVault .. | replenishInsuranceVault ..
  | drawInsurance .. => true
  | _ => false

/-- The instruction is one of the redemption pool's. -/
def pools : Instruction → Bool
  | seedRedemptionPool .. | instantRedemption .. | replenishRedemptionPool ..
  | drainRedemptionPool .. => true
  | _ => false

/-- The instruction is one of the redemption guarantee's. -/
def guarantees : Instruction → Bool
  | registerRedemptionPool .. | requestRedemption .. | fulfillRedemption ..
  | claimExpiredRedemption .. => true
  | _ => false

end Instruction

variable {rt : Runtime} {clock : Clock} {s s' : State} {a : Action} {i : Instruction}

/-- Each fund is written by its own instructions. -/
inductive FundsChange (s : State) : Action → State → Prop where
  | same {a : Action} {s' : State} (h : s'.funds = s.funds) : FundsChange s a s'
  | insured {clock : Clock} {i : Instruction} {s' : State} (kind : i.insures = true)
    (h : s'.funds = { s.funds with insuranceVaults := s'.insuranceVaults }) :
    FundsChange s (.call clock i) s'
  | pooled {clock : Clock} {i : Instruction} {s' : State} (kind : i.pools = true)
    (h : s'.funds = { s.funds with redemptionPools := s'.redemptionPools }) :
    FundsChange s (.call clock i) s'
  | guaranteed {clock : Clock} {i : Instruction} {s' : State} (kind : i.guarantees = true)
    (h : s'.funds =
      { s.funds with
        redemptionGuarantees := s'.redemptionGuarantees
        redemptionRequests := s'.redemptionRequests }) :
    FundsChange s (.call clock i) s'

theorem Instruction.funds_without (hi : i.insures = false) (hp : i.pools = false)
    (hg : i.guarantees = false) : (s.without i.tables).funds = s.funds := by
  cases i with
  | _ => first | rfl | (cases hi; done) | (cases hp; done) | cases hg

theorem Instruction.sameFunds (hi : i.insures = false) (hp : i.pools = false)
    (hg : i.guarantees = false) : Ensures (i.exec rt clock s) fun s' => s'.funds = s.funds :=
  fun _ h => exec_same State.funds (fun _ => funds_without hi hp hg) h

theorem Instruction.exec_funds (h : i.exec rt clock s = .ok s') :
    FundsChange s (.call clock i) s' := by
  cases hkind : i.insures || i.pools || i.guarantees with
  | false =>
    simp only [Bool.or_eq_false_iff] at hkind
    exact .same (Instruction.sameFunds hkind.1.1 hkind.1.2 hkind.2 s' h)
  | true =>
    revert s'
    change Ensures (i.exec rt clock s) (FundsChange s (.call clock i))
    cases i
    all_goals try (cases hkind; done)
    all_goals change Ensures (_ >>= _) _
    all_goals repeat' first
      | with_reducible refine .bind fun _ _ => ?_
      | with_reducible refine .ite (fun _ => ?_) fun _ => ?_
      | exact .pure (.insured rfl rfl)
      | exact .pure (.pooled rfl rfl)
      | exact .pure (.guaranteed rfl rfl)

theorem exec_funds (h : a.exec rt s = .ok s') : FundsChange s a s' := by
  cases a with
  | call clock i => exact Instruction.exec_funds h
  | world w =>
    obtain ⟨t, p, q, d, rfl⟩ := World.exec_outside h
    exact .same rfl

end SolanaStablecoin
