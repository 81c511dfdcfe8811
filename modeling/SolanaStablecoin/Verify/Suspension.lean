import SolanaStablecoin.Verify.Committee
import SolanaStablecoin.Verify.Flags

/-! While a stablecoin has a committee, its authority administers it no longer: what may still
change the flags and the pause, and that nothing changes the caps of the minters. -/

namespace SolanaStablecoin

open Transition

variable {rt : Runtime} {clock : Clock} {s s' : State} {a : Action} {i : Instruction}
  {c c' : StablecoinConfig} {M minter : Pubkey} {p : ProposalPda} {n : UInt64}

/-- The cap of a minter, if it is registered. -/
def State.minterCap (s : State) (M minter : Pubkey) : Option UInt64 :=
  (s.minterInfos (.minterInfo (.stablecoinConfig M) minter)).map (·.cap)

/-- The feature flags of a stablecoin. -/
def State.featureFlags (s : State) (M : Pubkey) : Option UInt64 :=
  (s.configs (.stablecoinConfig M)).map (·.featureFlags)

/-! ## Caps -/

theorem State.minterCap_eq (h : s'.minterInfos = s.minterInfos) :
    s'.minterCap M minter = s.minterCap M minter := by
  rw [State.minterCap, State.minterCap, h]

/-- A minter that is written back keeps its cap. -/
theorem State.minterCap_put {k : Pubkey} {m m' : MinterInfo} (hm : s.minterInfos k = some m)
    (h : s'.minterInfos = put s.minterInfos k m') (hcap : m'.cap = m.cap) :
    s'.minterCap M minter = s.minterCap M minter := by
  rw [State.minterCap, State.minterCap, h]
  by_cases hk : Pubkey.minterInfo (.stablecoinConfig M) minter = k
  · rw [hk, put_self, hm, Option.map_some, Option.map_some, hcap]
  · rw [put_of_ne _ _ hk]

theorem MinterInfo.addMinted_cap {m m' : MinterInfo} (h : m.addMinted n = .ok m') :
    m'.cap = m.cap := by
  simp only [addMinted, bind_eq_ok, pure_eq_ok] at h
  obtain ⟨_, -, _, -, rfl⟩ := h
  rfl

theorem MinterInfo.rollEpoch_cap {m : MinterInfo} {epoch : UInt64} :
    (m.rollEpoch epoch).cap = m.cap := by
  rw [rollEpoch]
  split <;> rfl

theorem loadMinterInfo_ok {config : Pubkey} {signer : Signer} {m : MinterInfo}
    (h : loadMinterInfo s config signer = .ok m) :
    s.minterInfos (.minterInfo config signer.key) = some m := by
  simp only [loadMinterInfo, bind_eq_ok, load_eq_ok, pure_eq_ok] at h
  obtain ⟨_, hm, -, -, -, -, rfl⟩ := h
  exact hm

theorem mintHandler_minterCap {a : MintTokens} (h : mintHandler rt clock s a n = .ok s') :
    s'.minterCap M minter = s.minterCap M minter := by
  simp only [mintHandler, bind_eq_ok, pure_eq_ok] at h
  obtain ⟨_, -, m, hm, _, -, -, -, -, -, -, -, -, -, -, -, -, -, -, -, -, -, t, -, _, -, m', hm',
    rfl⟩ := h
  exact State.minterCap_put (loadMinterInfo_ok hm) rfl
    ((MinterInfo.addMinted_cap hm').trans MinterInfo.rollEpoch_cap)

theorem setMintVelocityLimitHandler_minterCap {a : UpdateMinter}
    (h : setMintVelocityLimitHandler s a n = .ok s') :
    s'.minterCap M minter = s.minterCap M minter := by
  simp only [setMintVelocityLimitHandler, bind_eq_ok, load_eq_ok, pure_eq_ok] at h
  obtain ⟨_, -, m, hm, -, -, -, -, -, -, rfl⟩ := h
  exact State.minterCap_put hm rfl rfl

/-- There is no committee that would have to register and to revoke minters. -/
def Uncommitted (M : Pubkey) (s : State) : Prop :=
  ∃ c, s.configs (.stablecoinConfig M) = some c ∧ c.featureFlags &&& flagDaoCommittee = 0

theorem State.minterCap_of_ne {k : Pubkey} (hk : Pubkey.minterInfo (.stablecoinConfig M) minter ≠ k)
    {x : Option MinterInfo} (h : s'.minterInfos = Function.update s.minterInfos k x) :
    s'.minterCap M minter = s.minterCap M minter := by
  rw [State.minterCap, State.minterCap, h, Function.update_of_ne hk]

theorem updateMinterHandler_minterCap {a : UpdateMinter} (h : updateMinterHandler s a n = .ok s') :
    s'.minterCap M minter = s.minterCap M minter ∨ Uncommitted M s := by
  simp only [updateMinterHandler, bind_eq_ok, AuthorityAndMint.loadConfig_eq_ok, requireNoDao,
    require_eq_ok, pure_eq_ok] at h
  obtain ⟨c, ⟨hc, -⟩, -, -, -, hdao, rfl⟩ := h
  by_cases hM : a.mint = M
  · exact .inr ⟨c, hM ▸ hc, hdao⟩
  · refine .inl (State.minterCap_of_ne (k := a.minterInfo) (fun heq => hM ?_) rfl)
    exact Pubkey.stablecoinConfig.inj (Pubkey.minterInfo.inj heq).1.symm

theorem revokeMinterHandler_minterCap {a : UpdateMinter} (h : revokeMinterHandler s a = .ok s') :
    s'.minterCap M minter = s.minterCap M minter ∨ Uncommitted M s := by
  simp only [revokeMinterHandler, bind_eq_ok, AuthorityAndMint.loadConfig_eq_ok, requireNoDao,
    require_eq_ok, pure_eq_ok] at h
  obtain ⟨c, ⟨hc, -⟩, _, -, -, -, -, hdao, rfl⟩ := h
  by_cases hM : a.mint = M
  · exact .inr ⟨c, hM ▸ hc, hdao⟩
  · refine .inl (State.minterCap_of_ne (k := a.minterInfo) (fun heq => hM ?_) rfl)
    exact Pubkey.stablecoinConfig.inj (Pubkey.minterInfo.inj heq).1.symm

/-- A cap changes only while there is no committee. -/
theorem exec_minterCap (h : a.exec rt s = .ok s') :
    s'.minterCap M minter = s.minterCap M minter ∨ Uncommitted M s := by
  cases a with
  | world w =>
    have hc := (World.exec_settled h).councils
    exact .inl (State.minterCap_eq (congrArg Councils.minterInfos hc))
  | call clock i =>
    cases Instruction.exec_councils h with
    | same h => exact .inl (State.minterCap_eq (congrArg Councils.minterInfos h))
    | deliberated _ h | guarded _ h | rotated _ h =>
      exact .inl (State.minterCap_eq (congrArg Councils.minterInfos h))
    | licensed kind =>
      cases i with
      | updateMinter => exact updateMinterHandler_minterCap h
      | revokeMinter => exact revokeMinterHandler_minterCap h
      | setMintVelocityLimit => exact .inl (setMintVelocityLimitHandler_minterCap h)
      | mint => exact .inl (mintHandler_minterCap h)
      | cpiMint => exact .inl (mintHandler_minterCap (cpiMintHandler_ok h))
      | _ => cases kind

theorem Raised.not_uncommitted (h : Raised flagDaoCommittee (.stablecoinConfig M) s) :
    ¬ Uncommitted M s := by
  rintro ⟨c, hc, hdao⟩
  obtain ⟨c₀, hc₀, hset⟩ := h
  cases hc.symm.trans hc₀
  exact hset hdao

/-- While there is a committee, every minter keeps its cap. -/
theorem run_minterCap (h : Raised flagDaoCommittee (.stablecoinConfig M) s) (as : List Action) :
    (run rt s as).minterCap M minter = s.minterCap M minter := by
  refine (invariant_run_of_forall (I := fun s' => Raised flagDaoCommittee (.stablecoinConfig M) s' ∧
    s'.minterCap M minter = s.minterCap M minter) (fun hi hexec => ?_) as ⟨h, rfl⟩).2
  refine ⟨hi.1.step (.inl rfl) hexec, ?_⟩
  rcases exec_minterCap hexec with hsame | hnone
  · exact hsame.trans hi.2
  · exact absurd hnone hi.1.not_uncommitted

/-! ## Flags and the pause -/

/-- A proposal for the committee of `M` that does one of `actions` and has its votes is executed. -/
inductive Enacts (M : Pubkey) (s : State) (actions : List ProposalAction) : Instruction → Prop where
  | intro {b : CallerAndMint} {n : UInt64} {p : ProposalPda} (mint : b.mint = M)
    (proposal : s.proposal M n = some p) (quorum : p.quorum.toNat ≤ p.votes.length)
    (action : p.action ∈ actions) : Enacts M s actions (.executeAction b n)

/-- Who may change the flags `f` of `M` to others while there is a committee. Whether timelocked
operations may is left open. -/
inductive Reflags (M : Pubkey) (s : State) (f : UInt64) : Instruction → UInt64 → Prop where
  | enacted {i : Instruction} {f' : UInt64}
    (enacts : Enacts M s [.setFeatureFlag, .clearFeatureFlag] i) : Reflags M s f i f'
  | raised {i : Instruction} {flag : UInt64} (raises : i.raises = some flag) :
    Reflags M s f i (f ||| flag)
  | lowered {i : Instruction} {flag : UInt64} (lowers : i.lowers = some flag) :
    Reflags M s f i (f &&& ~~~flag)
  | timelockedSet {b : AuthorityAndMint} {c : StablecoinConfig}
    (config : b.config = .stablecoinConfig M) (stored : s.configs b.config = some c)
    (kind : c.adminOpKind = adminOpSetFeatureFlag) :
    Reflags M s f (.executeTimelockedOp b) (f ||| c.adminOpParam)
  | timelockedClear {b : AuthorityAndMint} {c : StablecoinConfig}
    (config : b.config = .stablecoinConfig M) (stored : s.configs b.config = some c)
    (kind : c.adminOpKind = adminOpClearFeatureFlag) :
    Reflags M s f (.executeTimelockedOp b) (f &&& ~~~c.adminOpParam)

/-- Who may pause and unpause `M` while there is a committee. Whether a timelocked operation may is
left open. -/
inductive Repauses (M : Pubkey) (s : State) : Instruction → Bool → Prop where
  | enacted {i : Instruction} {paused : Bool}
    (enacts : Enacts M s [if paused then .pause else .unpause] i) : Repauses M s i paused
  | guarded {i : Instruction} {paused : Bool} (guards : i.guards = true) : Repauses M s i paused
  | tripped {b : Crank} (config : b.config = .stablecoinConfig M) :
    Repauses M s (.crankCircuitBreaker b) true
  | recovered {b : Crank} (config : b.config = .stablecoinConfig M) :
    Repauses M s (.crankUnpause b) false
  | timelocked {b : AuthorityAndMint} {c : StablecoinConfig}
    (config : b.config = .stablecoinConfig M) (stored : s.configs b.config = some c)
    (kind : c.adminOpKind = adminOpPause) : Repauses M s (.executeTimelockedOp b) true

/-- What is left of the administration of `M` by one transaction. -/
structure Suspended (M : Pubkey) (s : State) (a : Action) (s' : State) : Prop where
  flags : s'.featureFlags M = s.featureFlags M ∨ ∃ clock i f f', a = .call clock i ∧
    s.featureFlags M = some f ∧ s'.featureFlags M = some f' ∧ Reflags M s f i f'
  paused : s'.paused M = s.paused M ∨ ∃ clock i paused, a = .call clock i ∧
    s'.paused M = some paused ∧ Repauses M s i paused

theorem Flags.reflags {f : UInt64} (h : Flags s (.stablecoinConfig M) c i f)
    (hc : s.configs (.stablecoinConfig M) = some c)
    (hset : c.featureFlags &&& flagDaoCommittee ≠ 0) :
    f = c.featureFlags ∨ Reflags M s c.featureFlags i f := by
  cases h with
  | same => exact .inl rfl
  | set _ committee => exact absurd committee hset
  | clear _ _ _ committee => exact absurd committee hset
  | raised raises => exact .inr (.raised raises)
  | lowered lowers => exact .inr (.lowered lowers)
  | timelockedSet config kind => exact .inr (.timelockedSet config (config ▸ hc) kind)
  | timelockedClear config kind => exact .inr (.timelockedClear config (config ▸ hc) kind)
  | enactedSet config proposal quorum action | enactedClear config proposal quorum action =>
    have hmint := Pubkey.stablecoinConfig.inj config
    exact .inr (.enacted (.intro hmint proposal quorum (by simp [action])))

theorem PauseStep.repauses (h : PauseStep clock M s s' i)
    (hset : Raised flagDaoCommittee (.stablecoinConfig M) s) :
    s'.paused M = s.paused M ∨ ∃ paused, s'.paused M = some paused ∧ Repauses M s i paused := by
  cases h with
  | same h => exact .inl h
  | initialized h =>
    obtain ⟨c, hc, -⟩ := hset
    rw [State.paused, hc] at h
    cases h
  | direct mint config committee h => exact absurd ⟨_, config, committee⟩ hset.not_uncommitted
  | timelocked mint config kind h =>
    subst mint
    exact .inr ⟨true, h, .timelocked rfl config kind⟩
  | tripped config h => exact .inr ⟨true, h, .tripped config⟩
  | recovered config h => exact .inr ⟨false, h, .recovered config⟩
  | enacted mint proposal quorum action h =>
    exact .inr ⟨_, h, .enacted (.intro mint proposal quorum (List.mem_singleton.mpr action))⟩
  | proposed _ h | voted _ h => exact .inr ⟨true, h, .guarded rfl⟩
  | @lifted b _ _ _ mint _ _ lifts =>
    have hconfig : b.config = .stablecoinConfig M := congrArg _ mint
    cases lifts with
    | vote _ _ configs => exact .inl (State.paused_eq configs)
    | all _ _ _ _ _ configs | authority _ _ _ _ _ configs =>
      exact .inr ⟨false, (State.paused_put configs).trans (if_pos hconfig), .guarded rfl⟩

/-- What a transaction may still do under a committee. -/
theorem Raised.suspended (h : Raised flagDaoCommittee (.stablecoinConfig M) s)
    (hexec : a.exec rt s = .ok s') : Suspended M s a s' where
  flags := by
    obtain ⟨c, hc, hset⟩ := h
    have hf : s.featureFlags M = some c.featureFlags := congrArg (Option.map _) hc
    obtain ⟨c', hc', hsame | ⟨clock, i, rfl, hflags⟩⟩ := exec_flags hexec hc
    · left
      rw [hf, State.featureFlags, hc', Option.map_some, hsame]
    · have hf' : s'.featureFlags M = some c'.featureFlags := congrArg (Option.map _) hc'
      rcases hflags.reflags hc hset with hsame | hreflags
      · left
        rw [hf, hf', hsame]
      · exact .inr ⟨clock, i, _, _, rfl, hf, hf', hreflags⟩
  paused := by
    cases a with
    | world w => exact .inl (World.exec_settled hexec).standing.paused
    | call clock i =>
      rcases (Instruction.exec_paused hexec).repauses h with hsame | ⟨paused, hpaused, hrepauses⟩
      · exact .inl hsame
      · exact .inr ⟨clock, i, paused, rfl, hpaused, hrepauses⟩

/-- In every run under a committee no minter's cap changes, and each transaction that changes the
flags or the pause executes a proposal that has its votes, raises or lowers the flag of what it
sets up or takes down, is one of the guardians' or of the keepers', or executes the timelocked
operation for just that. -/
theorem committee_suspends (h : Raised flagDaoCommittee (.stablecoinConfig M) s)
    (as : List Action) :
    (∀ minter, (run rt s as).minterCap M minter = s.minterCap M minter) ∧
    Along (Action.exec rt) (fun s a => ∀ s', a.exec rt s = .ok s' → Suspended M s a s') s as := by
  refine ⟨fun _ => run_minterCap h as, ?_⟩
  refine along_of_invariant (I := Raised flagDaoCommittee (.stablecoinConfig M))
    (P := fun _ _ => True) (fun hi hexec => hi.step (.inl rfl) hexec) ?_ h
    (along_of_forall fun _ _ _ => trivial)
  intro s a hi _ s' hexec
  exact hi.suspended hexec

namespace Market

/-- The stablecoin has a committee of two. -/
def seated : List Action :=
  funded 1000 ++ [.call (day 1) (.initDaoCommittee asAuthority [user.key, other.key] 2)]

end Market

open Market in
theorem committee_suspends_seated :
    (∀ minter, (run localRuntime (run localRuntime genesis seated)
      [.call (day 2) (.initYieldCollateral asAuthority [])]).minterCap mint.key minter =
        (run localRuntime genesis seated).minterCap mint.key minter) ∧
    Along (Action.exec localRuntime)
      (fun s a => ∀ s', a.exec localRuntime s = .ok s' → Suspended mint.key s a s')
      (run localRuntime genesis seated) [.call (day 2) (.initYieldCollateral asAuthority [])] :=
  committee_suspends (by decide +kernel) _

open Market in
/-- What sets a feature up raises its flag without asking the committee. -/
theorem flag_raised_under_committee : ∃ s',
    Raised flagDaoCommittee config (run localRuntime genesis seated) ∧
    (Instruction.initYieldCollateral asAuthority []).exec localRuntime (day 2)
      (run localRuntime genesis seated) = .ok s' ∧
    s'.featureFlags mint.key ≠ (run localRuntime genesis seated).featureFlags mint.key := by
  obtain ⟨s', h⟩ : ∃ s', (Instruction.initYieldCollateral asAuthority []).exec localRuntime (day 2)
      (run localRuntime genesis seated) = .ok s' := isOk_iff.mp (by decide +kernel)
  have hflags : ((Instruction.initYieldCollateral asAuthority []).exec localRuntime (day 2)
      (run localRuntime genesis seated)).toOption.map (·.featureFlags mint.key) ≠
      some ((run localRuntime genesis seated).featureFlags mint.key) := by
    decide +kernel
  refine ⟨s', by decide +kernel, h, fun heq => hflags ?_⟩
  rw [h]
  exact congrArg some heq

/-! ## Minters that the committee has decided on -/

/-- What a proposal about a minter asks for is so. -/
def ProposalPda.InEffect (p : ProposalPda) (M : Pubkey) (s : State) : Prop :=
  (p.action = .updateMinter → s.minterCap M p.target = some p.param) ∧
    (p.action = .revokeMinter → s.minterCap M p.target = none)

/-- When a proposal about a minter is executed, no run from then on brings about what it asks for,
unless that is so already. -/
theorem minter_proposal_effect {b : CallerAndMint}
    (hset : Raised flagDaoCommittee (.stablecoinConfig b.mint) s)
    (h : (Instruction.executeAction b n).exec rt clock s = .ok s') :
    ∃ p, s.proposal b.mint n = some p ∧
      ((∃ as, p.InEffect b.mint (run rt s' as)) ↔ p.InEffect b.mint s) := by
  obtain ⟨c, p, c', -, hp, -⟩ := executeActionHandler_enacts h
  refine ⟨p, hp, ?_⟩
  have hcap (as) : (run rt s' as).minterCap b.mint p.target = s.minterCap b.mint p.target := by
    have hrun : run rt s (.call clock (.executeAction b n) :: as) = run rt s' as :=
      congrArg (fun s => run rt s as) (next_of_ok h)
    rw [← hrun]
    exact run_minterCap hset _
  simp only [ProposalPda.InEffect, hcap, exists_const]

namespace Market

/-- It has decided to register a minter. -/
def licensed : List Action :=
  seated ++
    [ .call (day 1)
        (.proposeAction { caller := authority, mint := mint.key } .updateMinter 5 other.key),
      .call (day 1) (.voteAction asUser 0),
      .call (day 1) (.voteAction asOther 0) ]

/-- And the decision is executed. -/
def decided : List Action := licensed ++ [.call (day 2) (.executeAction asUser 0)]

end Market

open Market in
/-- The proposal is executed, and the minter is never registered. -/
theorem minter_proposal_without_effect :
    ((run localRuntime genesis decided).proposal mint.key 0).map
      (fun p => (p.resolution, p.executed)) =
      some ({ action := .updateMinter, param := 5, target := other.key, quorum := 2 }, true) ∧
    ¬ ∃ as, (run localRuntime (run localRuntime genesis decided) as).minterCap mint.key other.key =
      some 5 := by
  have hset : Raised flagDaoCommittee config (run localRuntime genesis decided) := by
    decide +kernel
  refine ⟨by decide +kernel, ?_⟩
  rintro ⟨as, has⟩
  rw [run_minterCap hset] at has
  exact absurd has (by decide +kernel)

open Market in
theorem minter_proposal_effect_licensed : ∃ s' p,
    (Instruction.executeAction asUser 0).exec localRuntime (day 2)
      (run localRuntime genesis licensed) = .ok s' ∧
    (run localRuntime genesis licensed).proposal mint.key 0 = some p ∧
    ((∃ as, p.InEffect mint.key (run localRuntime s' as)) ↔
      p.InEffect mint.key (run localRuntime genesis licensed)) := by
  obtain ⟨s', h⟩ : ∃ s', (Instruction.executeAction asUser 0).exec localRuntime (day 2)
      (run localRuntime genesis licensed) = .ok s' := isOk_iff.mp (by decide +kernel)
  have hset : Raised flagDaoCommittee (.stablecoinConfig asUser.mint)
      (run localRuntime genesis licensed) := by
    decide +kernel
  obtain ⟨p, hp, heffect⟩ := minter_proposal_effect hset h
  exact ⟨s', p, h, hp, heffect⟩

end SolanaStablecoin
