import Mathlib.Algebra.GroupWithZero.Nat
import SolanaStablecoin.Verify.Committee
import SolanaStablecoin.Verify.Funds

/-! The insurance vault of a stablecoin: its balance accounts for all that was paid in and drawn,
a draw keeps to the cap, and the draws that a proposal of the committee allows to what it says. -/

namespace SolanaStablecoin

open Transition

variable {rt : Runtime} {clock : Clock} {s s' : State} {a : Action} {i : Instruction}
  {M k : Pubkey} {n : UInt64}

/-- The insurance vault of a stablecoin. -/
def State.insuranceVault (s : State) (M : Pubkey) : Option InsuranceVault :=
  s.insuranceVaults (.insuranceVault M)

/-- What goes into a vault and out of it. -/
structure VaultFlow where
  seeded : Nat := 0
  replenished : Nat := 0
  drawn : Nat := 0

def Instruction.vaultFlow (M : Pubkey) : Instruction → List VaultFlow
  | seedInsuranceVault a amount => if a.sssMint = M then [{ seeded := amount.toNat }] else []
  | replenishInsuranceVault a amount =>
    if a.sssMint = M then [{ replenished := amount.toNat }] else []
  | drawInsurance a amount => if a.sssMint = M then [{ drawn := amount.toNat }] else []
  | _ => []

def vaultFlow (M : Pubkey) (_ : State) : Action → List VaultFlow
  | .call _ i => i.vaultFlow M
  | .world _ => []

/-- The draw is allowed by the proposal at `k`. -/
def DrawInsurance.against (a : DrawInsurance) (s : State) (k : Pubkey) : Prop :=
  a.daoProposal = some k ∧
    ∃ c ∈ s.configs (.stablecoinConfig a.sssMint), c.featureFlags &&& flagDaoCommittee ≠ 0

instance DrawInsurance.against.decidable {a : DrawInsurance} : Decidable (a.against s k) :=
  inferInstanceAs (Decidable (_ ∧ _))

/-- What a call draws by the proposal at `k`. -/
def drawsAgainst (k : Pubkey) (s : State) : Action → List Nat
  | .call _ (.drawInsurance a amount) => if a.against s k then [amount.toNat] else []
  | _ => []

/-! ## What the handlers do -/

theorem loadInsuranceVault_ok {account : Pubkey} {x : StablecoinConfig × InsuranceVault}
    (h : loadInsuranceVault s M account = .ok x) :
    s.configs (.stablecoinConfig M) = some x.1 ∧ s.insuranceVault M = some x.2 := by
  simp only [loadInsuranceVault, bind_eq_ok, load_eq_ok, pure_eq_ok] at h
  obtain ⟨c, hc, -, -, _, -, v, hv, _, -, -, -, _, -, rfl⟩ := h
  exact ⟨hc, hv⟩

/-- A vault with its new contents is written back. -/
structure Rebalances (M : Pubkey) (c : StablecoinConfig) (v : InsuranceVault)
    (balance drawn : UInt64) (s s' : State) : Prop where
  config : s.configs (.stablecoinConfig M) = some c
  vault : s.insuranceVault M = some v
  written : s'.insuranceVaults = put s.insuranceVaults (.insuranceVault M)
    ({ v with totalDrawn := drawn }.withBalance balance c.netSupply)
  configs : s'.configs = s.configs

theorem seedInsuranceVaultHandler_rebalances {b : SeedInsuranceVault}
    (h : seedInsuranceVaultHandler rt s b n = .ok s') : ∃ c v balance,
    Rebalances b.sssMint c v balance v.totalDrawn s s' ∧
      balance.toNat = v.currentBalance.toNat + n.toNat ∧ s'.proposals = s.proposals := by
  simp only [seedInsuranceVaultHandler, bind_eq_ok, Option.okOr_eq_ok,
    UInt64.checkedAdd_eq_some, pure_eq_ok] at h
  obtain ⟨⟨c, v⟩, hload, _, -, -, -, -, -, -, -, t, -, balance, hbalance, rfl⟩ := h
  obtain ⟨hc, hv⟩ := loadInsuranceVault_ok hload
  exact ⟨c, v, balance, ⟨hc, hv, rfl, rfl⟩, hbalance, rfl⟩

/-- A draw stays within the balance and within the cap per event, if there is one. -/
structure WithinCap (c : StablecoinConfig) (v : InsuranceVault) (n : UInt64) : Prop where
  balance : n.toNat ≤ v.currentBalance.toNat
  event : v.maxDrawPerEventBps ≠ 0 →
    n.toNat * 10000 ≤ c.netSupply.toNat * v.maxDrawPerEventBps.toNat

theorem InsuranceVault.withinCap {c : StablecoinConfig} {v : InsuranceVault}
    (h : n ≤ v.maxDraw c.netSupply) : WithinCap c v n := by
  rw [InsuranceVault.maxDraw] at h
  have hn := UInt64.le_iff_toNat_le.mp h
  split at hn
  next hzero => exact ⟨hn, fun hne => absurd hzero hne⟩
  next hcap =>
    rw [UInt64.toNat_min, UInt64.toNat_ofNat'] at hn
    refine ⟨hn.trans (Nat.min_le_right _ _), fun _ => ?_⟩
    calc n.toNat * 10000
      _ ≤ U128.saturatingMul c.netSupply.toNat v.maxDrawPerEventBps.toNat / 10000 * 10000 :=
        Nat.mul_le_mul_right _
          ((hn.trans (Nat.min_le_left _ _)).trans (Nat.mod_le _ _))
      _ ≤ U128.saturatingMul c.netSupply.toNat v.maxDrawPerEventBps.toNat :=
        Nat.div_mul_le_self _ _
      _ ≤ c.netSupply.toNat * v.maxDrawPerEventBps.toNat := Nat.min_le_left _ _

/-- What a draw by the proposal `p` makes of it. -/
structure ProposalPda.Consumed (p : ProposalPda) (n : UInt64) (p' : ProposalPda) : Prop where
  param : p'.param = p.param
  consumed : p'.cumulativeConsumed.toNat = p.cumulativeConsumed.toNat + n.toNat
  le : p'.cumulativeConsumed ≤ p'.param

theorem ProposalPda.consumed_of_ok {p p' : ProposalPda} {config authority : Pubkey}
    (h : p.consume config authority n = .ok p') : p.Consumed n p' := by
  simp only [consume, bind_eq_ok, require_eq_ok, Option.okOr_eq_ok, UInt64.checkedAdd_eq_some,
    pure_eq_ok] at h
  obtain ⟨-, -, -, -, -, -, -, -, -, -, x, hx, -, hle, rfl⟩ := h
  exact ⟨rfl, hx, hle⟩

/-- With a committee the draw uses one proposal up, and without one it touches none. -/
inductive Authorised (s : State) (b : DrawInsurance) (n : UInt64) :
    (Pubkey → Option ProposalPda) → Prop where
  | proposal {k : Pubkey} {p p' : ProposalPda} (against : b.against s k)
    (stored : s.proposals k = some p) (consumed : p.Consumed n p') :
    Authorised s b n (put s.proposals k p')
  | authority (none : ∀ k, ¬ b.against s k) : Authorised s b n s.proposals

theorem DrawInsurance.authorised {b : DrawInsurance} {c : StablecoinConfig}
    {x : Option ProposalPda} {ps : Pubkey → Option ProposalPda}
    (hc : s.configs (.stablecoinConfig b.sssMint) = some c)
    (hx : loadOptional s.proposals b.daoProposal = .ok x)
    (h : b.authorise s c x n = .ok ps) : Authorised s b n ps := by
  refine ite_ok_cases (fun hdao h => ?_) (fun hdao h => ?_) h
  · simp only [bind_eq_ok, Option.okOr_eq_ok, pure_eq_ok] at h
    obtain ⟨key, hkey, p, rfl, p', hconsume, rfl⟩ := h
    rw [hkey] at hx
    exact .proposal ⟨hkey, c, hc, hdao⟩ (loadOptional_some hx)
      (ProposalPda.consumed_of_ok hconsume)
  · simp only [bind_eq_ok, pure_eq_ok] at h
    obtain ⟨-, -, rfl⟩ := h
    refine .authority fun k hk => ?_
    obtain ⟨-, c', hc', hset⟩ := hk
    cases hc.symm.trans hc'
    exact hdao hset

theorem drawInsuranceHandler_rebalances {b : DrawInsurance}
    (h : drawInsuranceHandler rt s b n = .ok s') : ∃ c v balance drawn,
    Rebalances b.sssMint c v balance drawn s s' ∧
      v.currentBalance.toNat = balance.toNat + n.toNat ∧
      drawn.toNat = v.totalDrawn.toNat + n.toNat ∧ WithinCap c v n ∧
      Authorised s b n s'.proposals := by
  simp only [drawInsuranceHandler, bind_eq_ok, require_eq_ok, Option.okOr_eq_ok,
    UInt64.checkedAdd_eq_some, UInt64.checkedSub_eq_some, pure_eq_ok] at h
  obtain ⟨⟨c, v⟩, hload, -, -, _, -, -, -, x, hx, -, -, ps, hps, -, hmax, t, -, balance, hbalance,
    drawn, hdrawn, rfl⟩ := h
  obtain ⟨hc, hv⟩ := loadInsuranceVault_ok hload
  exact ⟨c, v, balance, drawn, ⟨hc, hv, rfl, rfl⟩, hbalance, hdrawn,
    InsuranceVault.withinCap hmax, DrawInsurance.authorised hc hx hps⟩

/-! ## The ledger of a vault -/

/-- What a successful transaction does to the vault of `M`, and what flows. -/
inductive VaultStep (M : Pubkey) (s s' : State) : List VaultFlow → Prop where
  | kept (h : s'.insuranceVault M = s.insuranceVault M) : VaultStep M s s' []
  | opened {v : InsuranceVault} (free : s.insuranceVault M = none)
    (stored : s'.insuranceVault M = some v) (balance : v.currentBalance = 0)
    (drawn : v.totalDrawn = 0) : VaultStep M s s' []
  | flowed {v v' : InsuranceVault} {f : VaultFlow} (old : s.insuranceVault M = some v)
    (stored : s'.insuranceVault M = some v')
    (balance : v'.currentBalance.toNat + f.drawn =
      v.currentBalance.toNat + f.seeded + f.replenished)
    (drawn : v'.totalDrawn.toNat = v.totalDrawn.toNat + f.drawn) : VaultStep M s s' [f]

theorem State.insuranceVault_eq (h : s'.insuranceVaults = s.insuranceVaults) :
    s'.insuranceVault M = s.insuranceVault M := by
  rw [State.insuranceVault, State.insuranceVault, h]

theorem State.insuranceVault_put {mint : Pubkey} {v : InsuranceVault}
    (h : s'.insuranceVaults = put s.insuranceVaults (.insuranceVault mint) v) :
    s'.insuranceVault M = if mint = M then some v else s.insuranceVault M := by
  rw [State.insuranceVault, State.insuranceVault, h]
  by_cases hM : mint = M
  · rw [hM, put_self, if_pos rfl]
  · rw [if_neg hM, put_of_ne]
    intro heq
    exact hM (Pubkey.insuranceVault.inj heq).symm

theorem initInsuranceVaultHandler_step {b : AuthorityAndSssMint} {account : Pubkey}
    {seed draw : UInt16} (h : initInsuranceVaultHandler s b account seed draw = .ok s') :
    VaultStep M s s' [] := by
  simp only [initInsuranceVaultHandler, bind_eq_ok, requireFree_eq_ok, pure_eq_ok] at h
  obtain ⟨c, -, _, -, -, -, -, hfree, -, -, rfl⟩ := h
  by_cases hM : b.sssMint = M
  · refine .opened (hM ▸ hfree) ((State.insuranceVault_put rfl).trans (if_pos hM)) rfl rfl
  · exact .kept ((State.insuranceVault_put rfl).trans (if_neg hM))

/-- A vault that is rebalanced has the flow of that call. -/
theorem Rebalances.step {mint : Pubkey} {c : StablecoinConfig} {v : InsuranceVault}
    {balance drawn : UInt64} {f : VaultFlow} (h : Rebalances mint c v balance drawn s s')
    (hbalance : balance.toNat + f.drawn = v.currentBalance.toNat + f.seeded + f.replenished)
    (hdrawn : drawn.toNat = v.totalDrawn.toNat + f.drawn) :
    VaultStep M s s' (if mint = M then [f] else []) := by
  by_cases hM : mint = M
  · rw [if_pos hM]
    exact .flowed (hM ▸ h.vault) ((State.insuranceVault_put h.written).trans (if_pos hM)) hbalance
      hdrawn
  · rw [if_neg hM]
    exact .kept ((State.insuranceVault_put h.written).trans (if_neg hM))

theorem Instruction.vaultFlow_eq_nil (hi : i.insures = false) : i.vaultFlow M = [] := by
  cases i with
  | seedInsuranceVault | replenishInsuranceVault | drawInsurance => cases hi
  | _ => rfl

theorem FundsChange.insuranceVaults (h : FundsChange s (.call clock i) s')
    (hi : i.insures = false) : s'.insuranceVaults = s.insuranceVaults := by
  cases h with
  | same h | pooled _ h | guaranteed _ h => exact congrArg Funds.insuranceVaults h
  | insured kind =>
    rw [hi] at kind
    cases kind

theorem Instruction.exec_vaultStep (h : i.exec rt clock s = .ok s') :
    VaultStep M s s' (i.vaultFlow M) := by
  cases hi : i.insures with
  | false =>
    rw [Instruction.vaultFlow_eq_nil hi]
    exact .kept (State.insuranceVault_eq ((Instruction.exec_funds h).insuranceVaults hi))
  | true =>
    cases i with
    | initInsuranceVault => exact initInsuranceVaultHandler_step h
    | seedInsuranceVault | replenishInsuranceVault =>
      obtain ⟨c, v, balance, hre, hbalance, -⟩ := seedInsuranceVaultHandler_rebalances h
      exact hre.step (by simpa using hbalance) rfl
    | drawInsurance =>
      obtain ⟨c, v, balance, drawn, hre, hbalance, hdrawn, -⟩ := drawInsuranceHandler_rebalances h
      exact hre.step hbalance.symm hdrawn
    | _ => cases hi

theorem exec_vaultStep (h : a.exec rt s = .ok s') : VaultStep M s s' (vaultFlow M s a) := by
  cases a with
  | call clock i => exact Instruction.exec_vaultStep h
  | world w =>
    obtain ⟨t, p, q, d, rfl⟩ := World.exec_outside h
    exact .kept rfl

/-- The totals of what has flowed. -/
def seeded (fs : List VaultFlow) : Nat := (fs.map (·.seeded)).sum
def replenished (fs : List VaultFlow) : Nat := (fs.map (·.replenished)).sum
def vaultDrawn (fs : List VaultFlow) : Nat := (fs.map (·.drawn)).sum

/-- The books of a vault balance. Before there is one, nothing has flowed. -/
inductive Balances : Option InsuranceVault → List VaultFlow → Prop where
  | absent : Balances none []
  | live {v : InsuranceVault} {fs : List VaultFlow}
    (balance : v.currentBalance.toNat + vaultDrawn fs = seeded fs + replenished fs)
    (drawn : v.totalDrawn.toNat = vaultDrawn fs) : Balances (some v) fs

theorem Balances.step {fs new : List VaultFlow} (h : Balances (s.insuranceVault M) fs)
    (hstep : VaultStep M s s' new) : Balances (s'.insuranceVault M) (fs ++ new) := by
  cases hstep with
  | kept heq =>
    rw [List.append_nil, heq]
    exact h
  | opened free stored hbalance hdrawn =>
    rw [free] at h
    cases h
    rw [stored]
    refine .live ?_ ?_
    · rw [hbalance]
      rfl
    · rw [hdrawn]
      rfl
  | flowed old stored hbalance hdrawn =>
    rw [old] at h
    cases h with
    | live balance drawn =>
      rw [stored]
      refine .live ?_ ?_
      · simp only [seeded, replenished, vaultDrawn, List.map_append, List.sum_append,
          List.map_singleton, List.sum_singleton] at balance ⊢
        omega
      · simp only [vaultDrawn, List.map_append, List.sum_append, List.map_singleton,
          List.sum_singleton] at drawn ⊢
        omega

theorem run_balances (as : List Action) (hs : s.insuranceVault M = none) :
    Balances ((run rt s as).insuranceVault M) (history (Action.exec rt) (vaultFlow M) s as) := by
  have hnone : Balances (s.insuranceVault M) [] := hs ▸ Balances.absent
  exact invariant_history (I := fun s fs => Balances (s.insuranceVault M) fs)
    (P := fun _ _ => True) (h := []) (fun hi _ hexec => hi.step (exec_vaultStep hexec)) hnone
    (along_of_forall fun _ _ _ => trivial)

/-! ## What a proposal allows -/

/-- What a successful transaction does to the proposal at `k`, and what is drawn by it. -/
inductive ProposalStep (k : Pubkey) (s s' : State) : List Nat → Prop where
  | kept (h : ∀ p, s.proposals k = some p → ∃ p', s'.proposals k = some p' ∧
      p'.param = p.param ∧ p'.cumulativeConsumed = p.cumulativeConsumed) : ProposalStep k s s' []
  | drawn {n : UInt64} {p p' : ProposalPda} (old : s.proposals k = some p)
    (stored : s'.proposals k = some p') (consumed : p.Consumed n p') :
    ProposalStep k s s' [n.toNat]

theorem ProposalStep.of_eq (h : s'.proposals = s.proposals) : ProposalStep k s s' [] :=
  .kept fun p hp => ⟨p, by rw [h, hp], rfl, rfl⟩

/-- A proposal that is written back with its terms keeps them; a new one is written where there was
none. -/
theorem ProposalStep.of_put {key : Pubkey} {p' : ProposalPda}
    (h : s'.proposals = put s.proposals key p')
    (hkeep : ∀ p, s.proposals key = some p →
      p'.param = p.param ∧ p'.cumulativeConsumed = p.cumulativeConsumed) :
    ProposalStep k s s' [] := by
  refine .kept fun p hp => ?_
  rw [h]
  by_cases hk : k = key
  · subst hk
    exact ⟨p', put_self .., hkeep p hp⟩
  · exact ⟨p, (put_of_ne _ _ hk).trans hp, rfl, rfl⟩

theorem drawInsuranceHandler_proposalStep {b : DrawInsurance}
    (h : drawInsuranceHandler rt s b n = .ok s') :
    ProposalStep k s s' (if b.against s k then [n.toNat] else []) := by
  obtain ⟨c, v, balance, drawn, -, -, -, -, hauth⟩ := drawInsuranceHandler_rebalances h
  generalize hps : s'.proposals = ps at hauth
  cases hauth with
  | authority hnone =>
    rw [if_neg (hnone k)]
    exact .of_eq hps
  | @proposal key p p' against stored consumed =>
    by_cases hk : key = k
    · subst hk
      rw [if_pos against]
      exact .drawn stored (by rw [hps, put_self]) consumed
    · rw [if_neg fun h => hk (Option.some.inj (against.1.symm.trans h.1))]
      refine .kept fun p₀ hp₀ => ⟨p₀, ?_, rfl, rfl⟩
      rw [hps, put_of_ne _ _ (Ne.symm hk), hp₀]

theorem CouncilsChange.proposals (h : CouncilsChange s (.call clock i) s')
    (hi : i.deliberates = false) : s'.proposals = s.proposals := by
  cases h with
  | same h | guarded _ h | rotated _ h | licensed _ h => exact congrArg Councils.proposals h
  | deliberated kind =>
    rw [hi] at kind
    cases kind

theorem drawsAgainst_eq_nil (hi : i.deliberates = false) :
    drawsAgainst k s (.call clock i) = [] := by
  cases i with
  | drawInsurance => cases hi
  | _ => rfl

theorem exec_proposalStep (h : a.exec rt s = .ok s') :
    ProposalStep k s s' (drawsAgainst k s a) := by
  cases a with
  | world w => exact .of_eq (congrArg Councils.proposals (World.exec_settled h).councils)
  | call clock i =>
    cases hi : i.deliberates with
    | false =>
      rw [drawsAgainst_eq_nil hi]
      exact .of_eq ((Instruction.exec_councils h).proposals hi)
    | true =>
      cases i with
      | drawInsurance => exact drawInsuranceHandler_proposalStep h
      | initDaoCommittee b members quorum =>
        change initDaoCommitteeHandler s b members quorum = .ok s' at h
        simp only [initDaoCommitteeHandler, bind_eq_ok, pure_eq_ok] at h
        obtain ⟨_, -, _, -, -, -, -, -, -, -, -, -, -, -, rfl⟩ := h
        exact .of_eq rfl
      | proposeAction b action param target =>
        change proposeActionHandler s b action param target = .ok s' at h
        simp only [proposeActionHandler, bind_eq_ok, requireFree_eq_ok, pure_eq_ok] at h
        obtain ⟨⟨c, d⟩, -, -, hfree, -, -, -, -, -, -, next, -, rfl⟩ := h
        refine .of_put rfl fun p hp => ?_
        cases hfree.symm.trans hp
      | voteAction b id =>
        change voteActionHandler s b id = .ok s' at h
        simp only [voteActionHandler, bind_eq_ok, load_eq_ok, pure_eq_ok] at h
        obtain ⟨⟨c, d⟩, -, p, hp, -, -, -, -, -, -, -, -, rfl⟩ := h
        refine .of_put rfl fun p' hp' => ?_
        cases hp.symm.trans hp'
        exact ⟨rfl, rfl⟩
      | executeAction b id =>
        change executeActionHandler s b id = .ok s' at h
        simp only [executeActionHandler, bind_eq_ok, load_eq_ok, pure_eq_ok] at h
        obtain ⟨⟨c, d⟩, -, p, hp, -, -, -, -, -, -, c', -, rfl⟩ := h
        refine .of_put rfl fun p' hp' => ?_
        cases hp.symm.trans hp'
        exact ⟨rfl, rfl⟩
      | _ => cases hi

/-- Of a proposal no more is drawn than it has been used up by, and that is within its terms. -/
def Granted (k : Pubkey) (s : State) (ds : List Nat) : Prop :=
  ds.sum = 0 ∨ ∃ p, s.proposals k = some p ∧ ds.sum ≤ p.cumulativeConsumed.toNat ∧
    p.cumulativeConsumed ≤ p.param

theorem Granted.step {ds new : List Nat} (h : Granted k s ds) (hstep : ProposalStep k s s' new) :
    Granted k s' (ds ++ new) := by
  cases hstep with
  | kept hkeep =>
    rw [List.append_nil]
    rcases h with hzero | ⟨p, hp, hle, hparam⟩
    · exact .inl hzero
    · obtain ⟨p', hp', hparam', hconsumed⟩ := hkeep p hp
      refine .inr ⟨p', hp', ?_, ?_⟩
      · rwa [hconsumed]
      · rwa [hconsumed, hparam']
  | drawn old stored consumed =>
    refine .inr ⟨_, stored, ?_, consumed.le⟩
    rw [List.sum_append, List.sum_singleton, consumed.consumed]
    rcases h with hzero | ⟨p, hp, hle, -⟩
    · omega
    · cases old.symm.trans hp
      omega

theorem run_granted (as : List Action) :
    Granted k (run rt s as) (history (Action.exec rt) (drawsAgainst k) s as) :=
  invariant_history (I := Granted k) (P := fun _ _ => True) (h := [])
    (fun hi _ hexec => hi.step (exec_proposalStep hexec)) (.inl rfl)
    (along_of_forall fun _ _ _ => trivial)

/-! ## Runs -/

/-- The books of the vault balance, every draw keeps to the balance and to the cap per event, and
what is drawn by one proposal keeps to what the proposal says. -/
theorem insurance_vault_ledger (as : List Action) (hs : s.insuranceVault M = none) :
    (∀ v, (run rt s as).insuranceVault M = some v →
      v.currentBalance.toNat + v.totalDrawn.toNat =
        seeded (history (Action.exec rt) (vaultFlow M) s as) +
          replenished (history (Action.exec rt) (vaultFlow M) s as) ∧
      v.totalDrawn.toNat = vaultDrawn (history (Action.exec rt) (vaultFlow M) s as)) ∧
    Along (Action.exec rt) (fun s a => ∀ clock b n, a = .call clock (.drawInsurance b n) →
      b.sssMint = M → (a.exec rt s).isOk → ∃ c v, s.configs (.stablecoinConfig M) = some c ∧
        s.insuranceVault M = some v ∧ WithinCap c v n) s as ∧
    ∀ k, (history (Action.exec rt) (drawsAgainst k) s as).sum = 0 ∨
      ∃ p, (run rt s as).proposals k = some p ∧
        (history (Action.exec rt) (drawsAgainst k) s as).sum ≤ p.param.toNat := by
  refine ⟨fun v hv => ?_, ?_, fun k => ?_⟩
  · have h : Balances ((run rt s as).insuranceVault M)
        (history (Action.exec rt) (vaultFlow M) s as) := run_balances as hs
    rw [hv] at h
    cases h with
    | live balance drawn =>
      rw [drawn]
      exact ⟨balance, rfl⟩
  · refine along_of_forall fun a _ s clock b n ha hM hok => ?_
    subst ha hM
    obtain ⟨s', hs'⟩ := isOk_iff.mp hok
    obtain ⟨c, v, _, _, hre, -, -, hcap, -⟩ := drawInsuranceHandler_rebalances hs'
    exact ⟨c, v, hre.config, hre.vault, hcap⟩
  · have h : Granted k (run rt s as) (history (Action.exec rt) (drawsAgainst k) s as) :=
      run_granted as
    rcases h with hzero | ⟨p, hp, hle, hparam⟩
    · exact .inl hzero
    · exact .inr ⟨p, hp, hle.trans (UInt64.le_iff_toNat_le.mp hparam)⟩

namespace Market

def insuranceAccount : Signer := ⟨.key 54, rfl⟩

/-- A vault with 200 of gold in it. A tenth of the supply may be drawn at a time. -/
def insured : List Action :=
  [ .world (.createAccount insuranceAccount gold.key (.insuranceVault mint.key)),
    .call (day 1) (.initInsuranceVault { authority, sssMint := mint.key } insuranceAccount.key 0
      1000),
    .call (day 1) (.seedInsuranceVault
      { depositor := user, sssMint := mint.key, depositorTokenAccount := userGold.key
        vaultTokenAccount := insuranceAccount.key } 200) ]

/-- The committee lets the authority draw 15, of which it draws 10. -/
def drawnByProposal : List Action :=
  funded 1000 ++ insured ++
    [ .call (day 1) (.initDaoCommittee asAuthority [user.key, other.key] 2),
      .call (day 1)
        (.proposeAction { caller := authority, mint := mint.key } .drawInsurance 15
          authority.key),
      .call (day 1) (.voteAction asUser 0),
      .call (day 1) (.voteAction asOther 0),
      .call (day 1) (.executeAction asUser 0),
      .call (day 1) (.drawInsurance
        { authority, sssMint := mint.key, vaultTokenAccount := insuranceAccount.key
          destinationTokenAccount := userGold.key
          daoProposal := some (.daoProposal config 0) } 10) ]

end Market

open Market in
theorem insurance_vault_ledger_drawn : ∃ v,
    (run localRuntime genesis drawnByProposal).insuranceVault mint.key = some v ∧
      v.totalDrawn = 10 ∧
      v.currentBalance.toNat + v.totalDrawn.toNat =
        seeded (history (Action.exec localRuntime) (vaultFlow mint.key) genesis
          drawnByProposal) +
          replenished (history (Action.exec localRuntime) (vaultFlow mint.key) genesis
            drawnByProposal) := by
  have hdrawn : ((run localRuntime genesis drawnByProposal).insuranceVault mint.key).map
      (·.totalDrawn) = some 10 := by decide +kernel
  obtain ⟨v, hv, htotal⟩ := Option.map_eq_some_iff.mp hdrawn
  exact ⟨v, hv, htotal, ((insurance_vault_ledger drawnByProposal rfl).1 v hv).1⟩

end SolanaStablecoin
