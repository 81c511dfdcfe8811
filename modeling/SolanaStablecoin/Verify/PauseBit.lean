import SolanaStablecoin.Verify.Administration
import SolanaStablecoin.Verify.Guardians
import SolanaStablecoin.Verify.Reserve

/-! Who pauses and unpauses a stablecoin, and what a pause of its guardians withstands. -/

namespace SolanaStablecoin

open Transition

variable {rt : Runtime} {clock : Clock} {s s' : State} {a : Action} {i : Instruction}
  {c c' : StablecoinConfig} {k M : Pubkey}

/-- Whether a stablecoin is paused. -/
def State.paused (s : State) (M : Pubkey) : Option Bool :=
  (s.configs (.stablecoinConfig M)).map (·.paused)

theorem SameStanding.paused (h : SameStanding s s') : s'.paused M = s.paused M := by
  have hmap := congrArg (Option.map Standing.paused) (h (.stablecoinConfig M))
  rwa [Option.map_map, Option.map_map] at hmap

theorem State.paused_eq (h : s'.configs = s.configs) : s'.paused M = s.paused M := by
  rw [State.paused, State.paused, h]

theorem State.paused_put (h : s'.configs = put s.configs k c') :
    s'.paused M = if k = .stablecoinConfig M then some c'.paused else s.paused M := by
  rw [State.paused, State.paused, h]
  by_cases hk : k = .stablecoinConfig M
  · rw [if_pos hk, hk, put_self, Option.map_some]
  · rw [if_neg hk, put_of_ne _ _ (Ne.symm hk)]

/-- A config that is written back keeps the pause. -/
theorem State.paused_put_same (hc : s.configs k = some c) (h : s'.configs = put s.configs k c')
    (hpaused : c'.paused = c.paused) : s'.paused M = s.paused M := by
  rw [State.paused_put h]
  split
  next hk => rw [State.paused, ← hk, hc, Option.map_some, hpaused]
  next => rfl

/-- What an instruction makes of the pause of `M`. -/
inductive PauseStep (clock : Clock) (M : Pubkey) (s s' : State) : Instruction → Prop where
  | same {i : Instruction} (h : s'.paused M = s.paused M) : PauseStep clock M s s' i
  | initialized {i : Instruction} (h : s.paused M = none) : PauseStep clock M s s' i
  /-- The authority pauses or unpauses, while there is no delay and no committee. -/
  | direct {a : AuthorityAndMint} {paused : Bool} {c : StablecoinConfig} (mint : a.mint = M)
    (config : s.configs (.stablecoinConfig M) = some c)
    (committee : c.featureFlags &&& flagDaoCommittee = 0)
    (h : s'.paused M = some paused) : PauseStep clock M s s' (.pause a paused)
  | timelocked {a : AuthorityAndMint} {c : StablecoinConfig} (mint : a.mint = M)
    (config : s.configs (.stablecoinConfig M) = some c) (kind : c.adminOpKind = adminOpPause)
    (h : s'.paused M = some true) : PauseStep clock M s s' (.executeTimelockedOp a)
  | tripped {a : Crank} (config : a.config = .stablecoinConfig M) (h : s'.paused M = some true) :
    PauseStep clock M s s' (.crankCircuitBreaker a)
  | recovered {a : Crank} (config : a.config = .stablecoinConfig M)
    (h : s'.paused M = some false) : PauseStep clock M s s' (.crankUnpause a)
  /-- The committee has decided. -/
  | enacted {a : CallerAndMint} {n : UInt64} {p : ProposalPda} {paused : Bool} (mint : a.mint = M)
    (proposal : s.proposals (.daoProposal (.stablecoinConfig M) n) = some p)
    (quorum : p.quorum.toNat ≤ p.votes.length)
    (action : p.action = if paused then .pause else .unpause) (h : s'.paused M = some paused) :
    PauseStep clock M s s' (.executeAction a n)
  | proposed {a : CallerAndMint} {reason : BitVec 256} (mint : a.mint = M)
    (h : s'.paused M = some true) : PauseStep clock M s s' (.guardianProposePause a reason)
  | voted {a : CallerAndMint} {n : UInt64} (mint : a.mint = M) (h : s'.paused M = some true) :
    PauseStep clock M s s' (.guardianVotePause a n)
  | lifted {a : CallerAndMint} {c : StablecoinConfig} {gc gc' : GuardianConfig} (mint : a.mint = M)
    (config : s.configs (.stablecoinConfig M) = some c) (guardians : s.guardians M = some gc)
    (lifts : LiftsPause clock s a c gc gc' s') : PauseStep clock M s s' (.guardianLiftPause a)

/-! ## Handlers -/

theorem pauseHandler_sets {a : AuthorityAndMint} {paused : Bool}
    (h : pauseHandler s a paused = .ok s') :
    ∃ c, s.configs a.config = some c ∧ c.featureFlags &&& flagDaoCommittee = 0 ∧
      s'.configs = put s.configs a.config { c with paused } := by
  simp only [pauseHandler, bind_eq_ok, AuthorityAndMint.loadConfig_eq_ok, requireNoDao,
    require_eq_ok, pure_eq_ok] at h
  obtain ⟨c, ⟨hc, -⟩, -, -, -, -, -, hdao, rfl⟩ := h
  exact ⟨c, hc, hdao, rfl⟩

theorem pauseHandler_paused {a : AuthorityAndMint} {paused : Bool}
    (h : pauseHandler s a paused = .ok s') : PauseStep clock M s s' (.pause a paused) := by
  obtain ⟨c, hc, hdao, hput⟩ := pauseHandler_sets h
  by_cases hM : a.mint = M
  · subst hM
    exact .direct rfl hc hdao ((State.paused_put hput).trans (if_pos rfl))
  · refine .same ((State.paused_put hput).trans (if_neg fun heq => hM ?_))
    exact Pubkey.stablecoinConfig.inj heq

theorem executeTimelockedOpHandler_paused {a : AuthorityAndMint}
    (h : executeTimelockedOpHandler clock s a = .ok s') :
    PauseStep clock M s s' (.executeTimelockedOp a) := by
  simp only [executeTimelockedOpHandler, bind_eq_ok, AuthorityAndMint.loadConfig_eq_ok,
    pure_eq_ok] at h
  obtain ⟨c, ⟨hc, -⟩, -, -, -, -, -, -, c', happly, rfl⟩ := h
  by_cases hpaused : c'.paused = c.paused
  · exact .same (State.paused_put_same hc rfl hpaused)
  · have htrue : c.adminOpKind = adminOpPause ∧ c'.paused = true := by
      cases StablecoinConfig.applyTimelockedOp_operates happly with
      | pause kind => exact ⟨kind, rfl⟩
      | _ => exact absurd rfl hpaused
    obtain ⟨hkind, htrue⟩ := htrue
    by_cases hM : a.mint = M
    · subst hM
      refine .timelocked rfl hc hkind ((State.paused_put rfl).trans ?_)
      exact (if_pos rfl).trans (congrArg some htrue)
    · refine .same ((State.paused_put rfl).trans (if_neg fun heq => hM ?_))
      exact Pubkey.stablecoinConfig.inj heq

theorem crankCircuitBreakerHandler_paused {a : Crank}
    (h : crankCircuitBreakerHandler rt clock s a = .ok s') :
    PauseStep clock M s s' (.crankCircuitBreaker a) := by
  simp only [crankCircuitBreakerHandler, bind_eq_ok, pure_eq_ok] at h
  obtain ⟨⟨c, kc⟩, -, -, -, -, -, -, -, _, -, _, -, -, -, rfl⟩ := h
  by_cases hk : a.config = .stablecoinConfig M
  · exact .tripped hk ((State.paused_put rfl).trans (if_pos hk))
  · exact .same ((State.paused_put rfl).trans (if_neg hk))

theorem crankUnpauseHandler_sets {a : Crank} (h : crankUnpauseHandler rt clock s a = .ok s') :
    ∃ c : StablecoinConfig, s'.configs = put s.configs a.config { c with paused := false } := by
  simp only [crankUnpauseHandler, bind_eq_ok, pure_eq_ok] at h
  obtain ⟨⟨c, kc⟩, -, -, -, _, -, _, -, -, -, -, -, rfl⟩ := h
  exact ⟨c, rfl⟩

theorem crankUnpauseHandler_paused {a : Crank} (h : crankUnpauseHandler rt clock s a = .ok s') :
    PauseStep clock M s s' (.crankUnpause a) := by
  obtain ⟨c, hput⟩ := crankUnpauseHandler_sets h
  by_cases hk : a.config = .stablecoinConfig M
  · exact .recovered hk ((State.paused_put hput).trans (if_pos hk))
  · exact .same ((State.paused_put hput).trans (if_neg hk))

theorem StablecoinConfig.enact_paused {param : UInt64} {action : ProposalAction}
    (h : c.enact param action = .ok c') :
    c'.paused = c.paused ∨ action = if c'.paused then .pause else .unpause := by
  cases action with
  | pause | unpause =>
    cases h
    exact .inr rfl
  | clearFeatureFlag =>
    simp only [enact, bind_eq_ok, pure_eq_ok] at h
    obtain ⟨-, -, -, -, rfl⟩ := h
    exact .inl rfl
  | setFeatureFlag | updateMinter | revokeMinter | drawInsurance =>
    cases h
    exact .inl rfl

/-- An executed proposal had its quorum, and is enacted. -/
theorem executeActionHandler_enacts {a : CallerAndMint} {n : UInt64}
    (h : executeActionHandler s a n = .ok s') :
    ∃ c p c', s.configs a.config = some c ∧ s.proposals (.daoProposal a.config n) = some p ∧
      p.quorum.toNat ≤ p.votes.length ∧ c.enact p.param p.action = .ok c' ∧
      s'.configs = put s.configs a.config c' ∧
      s'.proposals = put s.proposals (.daoProposal a.config n) { p with executed := true } := by
  simp only [executeActionHandler, bind_eq_ok, CallerAndMint.loadCommittee_eq_ok,
    loadConfigOfMint_eq_ok, load_eq_ok, require_eq_ok, pure_eq_ok] at h
  obtain ⟨⟨c, d⟩, ⟨⟨hc, -⟩, -⟩, p, hp, -, -, -, -, -, hquorum, c', henact, rfl⟩ := h
  exact ⟨c, p, c', hc, hp, hquorum, henact, rfl, rfl⟩

theorem executeActionHandler_paused {a : CallerAndMint} {n : UInt64}
    (h : executeActionHandler s a n = .ok s') : PauseStep clock M s s' (.executeAction a n) := by
  obtain ⟨c, p, c', hc, hp, hquorum, henact, hput, -⟩ := executeActionHandler_enacts h
  rcases StablecoinConfig.enact_paused henact with hsame | haction
  · exact .same (State.paused_put_same hc hput hsame)
  · by_cases hM : a.mint = M
    · subst hM
      exact .enacted rfl hp hquorum haction ((State.paused_put hput).trans (if_pos rfl))
    · refine .same ((State.paused_put hput).trans (if_neg fun heq => hM ?_))
      exact Pubkey.stablecoinConfig.inj heq

theorem CallerAndMint.recordVote_paused {a : CallerAndMint} {gc : GuardianConfig}
    {p : PauseProposal} {reached : Bool} (h : a.recordVote clock s c gc p reached = .ok s') :
    s'.paused M = s.paused M ∨ a.mint = M ∧ s'.paused M = some true := by
  cases reached with
  | true =>
    simp only [recordVote, if_true, bind_eq_ok, pure_eq_ok] at h
    obtain ⟨_, -, rfl⟩ := h
    by_cases hM : a.mint = M
    · subst hM
      exact .inr ⟨rfl, (State.paused_put rfl).trans (if_pos rfl)⟩
    · refine .inl ((State.paused_put rfl).trans (if_neg fun heq => hM ?_))
      exact Pubkey.stablecoinConfig.inj heq
  | false =>
    simp only [recordVote, Bool.false_eq_true, if_false, pure_eq_ok] at h
    subst h
    exact .inl rfl

theorem guardianProposePauseHandler_paused {a : CallerAndMint} {reason : BitVec 256}
    (h : guardianProposePauseHandler clock s a reason = .ok s') :
    PauseStep clock M s s' (.guardianProposePause a reason) := by
  simp only [guardianProposePauseHandler, bind_eq_ok] at h
  obtain ⟨⟨c, gc⟩, -, -, -, -, -, x, -, h⟩ := h
  rcases CallerAndMint.recordVote_paused h with hsame | ⟨hM, hpaused⟩
  · exact .same hsame
  · exact .proposed hM hpaused

theorem guardianVotePauseHandler_paused {a : CallerAndMint} {n : UInt64}
    (h : guardianVotePauseHandler clock s a n = .ok s') :
    PauseStep clock M s s' (.guardianVotePause a n) := by
  simp only [guardianVotePauseHandler, bind_eq_ok] at h
  obtain ⟨⟨c, gc⟩, -, p, -, -, -, -, -, -, -, -, -, h⟩ := h
  rcases CallerAndMint.recordVote_paused h with hsame | ⟨hM, hpaused⟩
  · exact .same hsame
  · exact .voted hM hpaused

theorem guardianLiftPauseHandler_paused {a : CallerAndMint}
    (h : guardianLiftPauseHandler clock s a = .ok s') :
    PauseStep clock M s s' (.guardianLiftPause a) := by
  obtain ⟨c, gc, gc', hc, hgc, -, -, hlifts⟩ := guardianLiftPauseHandler_lifts h
  by_cases hM : a.mint = M
  · subst hM
    exact .lifted rfl hc hgc hlifts
  · have hne : a.config ≠ .stablecoinConfig M := fun heq =>
      hM (Pubkey.stablecoinConfig.inj heq)
    cases hlifts with
    | vote _ _ configs => exact .same (State.paused_eq configs)
    | all _ _ _ _ _ configs | authority _ _ _ _ _ configs =>
      exact .same ((State.paused_put configs).trans (if_neg hne))

/-- What moves the reserve leaves the pause alone. -/
theorem Instruction.samePaused {n : UInt64} (hi : (∃ b, i = .depositCollateral b n) ∨
      (∃ b, i = .redeem b n ∨ i = .psmDynamicSwap b n) ∨ ∃ b, i = .processRedemption b n) :
    Ensures (i.exec rt clock s) (SameConfigs (·.paused) s) := by
  rcases hi with ⟨b, rfl⟩ | ⟨b, rfl | rfl⟩ | ⟨b, rfl⟩
  all_goals change Ensures (_ >>= _) _
  all_goals repeat' first
    | with_reducible refine Ensures.bind_reads_pair fun _ _ _ => ?_
    | with_reducible refine Ensures.bind_reads fun _ _ => ?_
    | with_reducible refine Ensures.bind_addBurned fun _ => ?_
    | with_reducible refine .bind fun _ _ => ?_
    | ((with_reducible apply Ensures.pure; apply SameConfigs.of_put; assumption; rfl); rfl)
    | change Ensures (_ >>= _) _

theorem Instruction.exec_paused (h : i.exec rt clock s = .ok s') : PauseStep clock M s s' i := by
  cases hstand : i.restands with
  | false => exact .same (Instruction.exec_sameStanding hstand h).paused
  | true =>
    cases i with
    | initializeStablecoin b p =>
      obtain ⟨hfree, hconfigs, -⟩ := initializeHandler_fresh h
      by_cases hM : b.mint.key = M
      · subst hM
        exact .initialized (by rw [State.paused, hfree, Option.map_none])
      · refine .same ((State.paused_put hconfigs).trans (if_neg fun heq => hM ?_))
        exact Pubkey.stablecoinConfig.inj heq
    | pause => exact pauseHandler_paused h
    | executeTimelockedOp => exact executeTimelockedOpHandler_paused h
    | crankCircuitBreaker => exact crankCircuitBreakerHandler_paused h
    | crankUnpause => exact crankUnpauseHandler_paused h
    | executeAction => exact executeActionHandler_paused h
    | guardianProposePause => exact guardianProposePauseHandler_paused h
    | guardianVotePause => exact guardianVotePauseHandler_paused h
    | guardianLiftPause => exact guardianLiftPauseHandler_paused h
    | depositCollateral b n =>
      exact .same (Instruction.samePaused (.inl ⟨b, rfl⟩) s' h (.stablecoinConfig M))
    | redeem b n =>
      exact .same (Instruction.samePaused (.inr (.inl ⟨b, .inl rfl⟩)) s' h (.stablecoinConfig M))
    | psmDynamicSwap b n =>
      exact .same (Instruction.samePaused (.inr (.inl ⟨b, .inr rfl⟩)) s' h (.stablecoinConfig M))
    | processRedemption b n =>
      exact .same (Instruction.samePaused (.inr (.inr ⟨b, rfl⟩)) s' h (.stablecoinConfig M))
    | triggerBackstop => exact absurd h triggerBackstopHandler_ne_ok
    | _ => cases hstand

/-! ## The guardians' own pause -/

/-- The guardians' own pause is on, and the authority has to wait. -/
def GuardianPause (M : Pubkey) (clock : Clock) (s : State) : Prop :=
  ∃ gc, s.guardians M = some gc ∧ gc.guardianPauseActive = true ∧
    clock.unixTimestamp < gc.guardianPauseUnlocksAt

instance : Decidable (GuardianPause M clock s) :=
  inferInstanceAs (Decidable (∃ gc ∈ s.guardians M,
    gc.guardianPauseActive = true ∧ clock.unixTimestamp < gc.guardianPauseUnlocksAt))

/-- With the caller, all guardians want the pause lifted. -/
def LiftedByAll (M : Pubkey) (s : State) (i : Instruction) : Prop :=
  ∃ b gc, i = .guardianLiftPause b ∧ b.mint = M ∧ s.guardians M = some gc ∧
    ∀ g ∈ gc.guardians, g = b.caller.key ∨ g ∈ gc.pendingLiftVotes

/-- The instructions that unpause without asking whether the guardians have paused. -/
inductive Overrides (M : Pubkey) (s : State) : Instruction → Prop where
  | pause {b : AuthorityAndMint} (mint : b.mint = M) : Overrides M s (.pause b false)
  | enact {b : CallerAndMint} {n : UInt64} {p : ProposalPda} (mint : b.mint = M)
    (proposal : s.proposals (.daoProposal (.stablecoinConfig M) n) = some p)
    (action : p.action = .unpause) : Overrides M s (.executeAction b n)
  | crank {b : Crank} (config : b.config = .stablecoinConfig M) : Overrides M s (.crankUnpause b)

theorem Overrides.unpauses (ho : Overrides M s i) (h : i.exec rt clock s = .ok s') :
    s'.paused M = some false := by
  cases ho with
  | pause mint =>
    obtain ⟨c, -, -, hput⟩ := pauseHandler_sets h
    exact (State.paused_put hput).trans (if_pos (congrArg _ mint))
  | enact mint proposal action =>
    obtain ⟨c, p, c', -, hp, -, henact, hput, -⟩ := executeActionHandler_enacts h
    rw [CallerAndMint.config, mint, proposal] at hp
    cases hp
    rw [action] at henact
    cases henact
    exact (State.paused_put hput).trans (if_pos (congrArg _ mint))
  | crank config =>
    obtain ⟨c, hput⟩ := crankUnpauseHandler_sets h
    exact (State.paused_put hput).trans (if_pos config)

theorem Overrides.not_liftedByAll (ho : Overrides M s i) : ¬ LiftedByAll M s i := by
  rintro ⟨b, gc, rfl, -⟩
  cases ho

/-- While their pause is on, a lift takes all guardians. -/
theorem LiftsPause.by_all {b : CallerAndMint} {gc gc' : GuardianConfig} {es : List GuardianEvent}
    (h : LiftsPause clock s b c gc gc' s') (hb : b.mint = M) (hgc : s.guardians M = some gc)
    (hpending : Pending gc es) (hforce : GuardianPause M clock s)
    (hs : s.paused M ≠ s'.paused M) : LiftedByAll M s (.guardianLiftPause b) := by
  cases h with
  | vote _ _ configs => exact absurd (State.paused_eq configs).symm hs
  | all member fresh full _ _ _ =>
    refine ⟨b, gc, rfl, hb, hgc, fun g hg => ?_⟩
    have hvoted := (hpending.vote member fresh).covers full g hg
    rcases List.mem_append.mp hvoted with h | h
    · exact .inr h
    · exact .inl (List.mem_singleton.mp h)
  | authority _ _ unlocked _ _ _ =>
    obtain ⟨gc₀, hgc₀, hactive, hlocked⟩ := hforce
    rw [hgc] at hgc₀
    cases hgc₀
    exact absurd (unlocked hactive) (Int64.not_le.mpr hlocked)

namespace Market

/-- The guardians have paused the stablecoin, and one of them wants to lift the pause. -/
def halfLifted : List Action :=
  emergency ++ [.call (day 1) (.guardianLiftPause asUser)]

/-- Guardians pause a stablecoin whose timelock has no delay. -/
def undelayedEmergency : List Action :=
  [ .call (day 1) (.initGuardianConfig asAuthority [user.key, other.key] 2),
    .call (day 1) (.guardianProposePause asUser 0),
    .call (day 1) (.guardianVotePause asOther 0) ]

end Market

/-- In every run from before there are guardians: while their own pause is on, an instruction that
succeeds takes the votes of all guardians to unpause exactly if it is none of those that do not
ask. -/
theorem guardian_pause_withstands (init : List Action) (hs : s.guardians M = none)
    (hp : ∀ id, s.pauseProposal M id = none) (hforce : GuardianPause M clock (run rt s init))
    (hpaused : (run rt s init).paused M = some true)
    (h : i.exec rt clock (run rt s init) = .ok s') :
    (s'.paused M = some false → LiftedByAll M (run rt s init) i) ↔
      ¬ Overrides M (run rt s init) i := by
  constructor
  · exact fun hall ho => ho.not_liftedByAll (hall (ho.unpauses h))
  · intro hno hunpaused
    cases Instruction.exec_paused h with
    | same hsame =>
      rw [hsame, hpaused] at hunpaused
      cases hunpaused
    | initialized hnone =>
      rw [hnone] at hpaused
      cases hpaused
    | direct mint _ _ hset =>
      rw [hset] at hunpaused
      cases hunpaused
      exact absurd (.pause mint) hno
    | timelocked _ _ _ hset | tripped _ hset | proposed _ hset | voted _ hset =>
      rw [hset] at hunpaused
      cases hunpaused
    | recovered config => exact absurd (.crank config) hno
    | enacted mint proposal _ action hset =>
      rw [hset] at hunpaused
      cases hunpaused
      exact absurd (.enact mint proposal action) hno
    | lifted mint _ guardians lifts =>
      have hall : Guardianship M (run rt s init) _ := run_guardianship init hs hp
      rw [Guardianship, guardians] at hall
      refine lifts.by_all mint guardians hall.pending hforce ?_
      rw [hpaused, hunpaused]
      simp

open Market in
/-- One guardian has asked to lift the pause, and the other one is about to. -/
theorem guardian_pause_withstands_lift : ∃ s',
    (Instruction.guardianLiftPause asOther).exec localRuntime (day 1)
      (run localRuntime genesis halfLifted) = .ok s' ∧
    ((s'.paused mint.key = some false →
      LiftedByAll mint.key (run localRuntime genesis halfLifted) (.guardianLiftPause asOther)) ↔
    ¬ Overrides mint.key (run localRuntime genesis halfLifted) (.guardianLiftPause asOther)) := by
  obtain ⟨s', h⟩ : ∃ s', (Instruction.guardianLiftPause asOther).exec localRuntime (day 1)
      (run localRuntime genesis halfLifted) = .ok s' := isOk_iff.mp (by decide +kernel)
  exact ⟨s', h, guardian_pause_withstands halfLifted rfl (fun _ => rfl) (by decide +kernel)
    (by decide +kernel) h⟩

open Market in
/-- Where the timelock has no delay, the authority ends the guardians' pause at once. -/
theorem authority_ends_guardian_pause : ∃ s',
    (GuardianPause mint.key (day 1) (run localRuntime undelayed undelayedEmergency) ∧
      (run localRuntime undelayed undelayedEmergency).paused mint.key = some true) ∧
    (Instruction.pause asAuthority false).exec localRuntime (day 1)
      (run localRuntime undelayed undelayedEmergency) = .ok s' ∧
    s'.paused mint.key = some false ∧
    ¬ LiftedByAll mint.key (run localRuntime undelayed undelayedEmergency)
      (.pause asAuthority false) := by
  obtain ⟨s', h⟩ : ∃ s', (Instruction.pause asAuthority false).exec localRuntime (day 1)
      (run localRuntime undelayed undelayedEmergency) = .ok s' := isOk_iff.mp (by decide +kernel)
  have hover : Overrides mint.key (run localRuntime undelayed undelayedEmergency)
    (.pause asAuthority false) := .pause rfl
  exact ⟨s', by decide +kernel, h, hover.unpauses h, hover.not_liftedByAll⟩

end SolanaStablecoin
