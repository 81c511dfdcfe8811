import SolanaStablecoin.Verify.Settings

/-! Which transactions write the accounts of the keepers, of the oracle consensus and of the
limits on what a wallet sends. -/

namespace SolanaStablecoin

structure Monitors where
  keeperConfigs : Pubkey → Option KeeperConfig
  oracleConsensuses : Pubkey → Option OracleConsensus
  walletRateLimits : Pubkey → Option WalletRateLimit

def State.monitors (s : State) : Monitors :=
  { keeperConfigs := s.keeperConfigs, oracleConsensuses := s.oracleConsensuses
    walletRateLimits := s.walletRateLimits }

namespace Instruction

/-- The instruction is one of the circuit breaker's keepers. -/
def cranks : Instruction → Bool
  | initKeeperConfig .. | crankCircuitBreaker .. | crankUnpause .. => true
  | _ => false

/-- The instruction is one of the oracle consensus. -/
def agrees : Instruction → Bool
  | initOracleConsensus .. | setOracleSource .. | removeOracleSource ..
  | updateOracleConsensus .. => true
  | _ => false

/-- The instruction sets a limit, or draws on one. -/
def meters : Instruction → Bool
  | setWalletRateLimit .. | removeWalletRateLimit .. | updateWalletRateLimit ..
  | transferHook .. => true
  | _ => false

end Instruction

variable {rt : Runtime} {clock : Clock} {s s' : State} {a : Action} {i : Instruction}

/-- Each of them is written by its own instructions. -/
inductive MonitorsChange (s : State) : Action → State → Prop where
  | same {a : Action} {s' : State} (h : s'.monitors = s.monitors) : MonitorsChange s a s'
  | cranked {clock : Clock} {i : Instruction} {s' : State} (kind : i.cranks = true)
    (h : s'.monitors = { s.monitors with keeperConfigs := s'.keeperConfigs }) :
    MonitorsChange s (.call clock i) s'
  | agreed {clock : Clock} {i : Instruction} {s' : State} (kind : i.agrees = true)
    (h : s'.monitors = { s.monitors with oracleConsensuses := s'.oracleConsensuses }) :
    MonitorsChange s (.call clock i) s'
  | metered {clock : Clock} {i : Instruction} {s' : State} (kind : i.meters = true)
    (h : s'.monitors = { s.monitors with walletRateLimits := s'.walletRateLimits }) :
    MonitorsChange s (.call clock i) s'

theorem Instruction.monitors_without (hc : i.cranks = false) (ha : i.agrees = false)
    (hm : i.meters = false) : (s.without i.tables).monitors = s.monitors := by
  cases i with
  | _ => first | rfl | (cases hc; done) | (cases ha; done) | cases hm

theorem Instruction.sameMonitors (hc : i.cranks = false) (ha : i.agrees = false)
    (hm : i.meters = false) :
    Ensures (i.exec rt clock s) fun s' => s'.monitors = s.monitors :=
  fun _ h => exec_same State.monitors (fun _ => monitors_without hc ha hm) h

theorem Instruction.exec_monitors (h : i.exec rt clock s = .ok s') :
    MonitorsChange s (.call clock i) s' := by
  cases hkind : i.cranks || i.agrees || i.meters with
  | false =>
    simp only [Bool.or_eq_false_iff] at hkind
    exact .same (Instruction.sameMonitors hkind.1.1 hkind.1.2 hkind.2 s' h)
  | true =>
    revert s'
    change Ensures (i.exec rt clock s) (MonitorsChange s (.call clock i))
    cases i
    case transferHook =>
      intro s' h
      rw [transferHookHandler_writes s' h]
      exact .metered rfl rfl
    all_goals try (cases hkind; done)
    all_goals change Ensures (_ >>= _) _
    all_goals repeat' first
      | with_reducible refine .bind fun _ _ => ?_
      | with_reducible refine .ite (fun _ => ?_) fun _ => ?_
      | exact .pure (.cranked rfl rfl)
      | exact .pure (.agreed rfl rfl)
      | exact .pure (.metered rfl rfl)

theorem exec_monitors (h : a.exec rt s = .ok s') : MonitorsChange s a s' := by
  cases a with
  | call clock i => exact Instruction.exec_monitors h
  | world w =>
    obtain ⟨t, p, q, d, rfl⟩ := World.exec_outside h
    exact .same rfl

end SolanaStablecoin
