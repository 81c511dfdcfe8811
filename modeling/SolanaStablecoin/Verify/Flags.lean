import SolanaStablecoin.Verify.PauseBit

/-! Who raises and lowers the feature flags of a stablecoin, and which flags stay up. -/

namespace SolanaStablecoin

open Transition

variable {rt : Runtime} {clock : Clock} {s s' : State} {a : Action} {i : Instruction}
  {c c' : StablecoinConfig} {k : Pubkey} {f mask flag : UInt64}

/-! ## Masks -/

theorem or_and_distrib_right : (f ||| mask) &&& flag = f &&& flag ||| mask &&& flag := by
  rw [← UInt64.toBitVec_inj, UInt64.toBitVec_or, UInt64.toBitVec_and, UInt64.toBitVec_and,
    UInt64.toBitVec_and, UInt64.toBitVec_or, BitVec.eq_of_getLsbD_eq_iff]
  intro n _
  simp only [BitVec.getLsbD_or, BitVec.getLsbD_and, Bool.and_or_distrib_right]

/-- Raising flags lowers none. -/
theorem or_and_ne_zero (h : f &&& flag ≠ 0) : (f ||| mask) &&& flag ≠ 0 := by
  rw [or_and_distrib_right, Ne, UInt64.or_eq_zero_iff]
  exact fun h' => h h'.1

/-- A mask lowers no flag that is not in it. -/
theorem and_not_and_of_and_eq_zero (h : mask &&& flag = 0) :
    f &&& ~~~mask &&& flag = f &&& flag := by
  have hflag : ~~~mask &&& flag = flag := by
    calc
      ~~~mask &&& flag = mask &&& flag ||| ~~~mask &&& flag := by rw [h, UInt64.zero_or]
      _ = (mask ||| ~~~mask) &&& flag := or_and_distrib_right.symm
      _ = flag := by rw [UInt64.or_not_self, UInt64.neg_one_and]
  rw [UInt64.and_assoc, hflag]

/-! ## Steps -/

namespace Instruction

/-- The flag that an instruction raises with what it sets up. -/
def raises (i : Instruction) : Option UInt64 :=
  i.ownFlag.or <|
    match i with
    | setSpendLimit .. => some flagSpendPolicy
    | setSanctionsOracle .. => some flagSanctionsOracle
    | _ => none

/-- The flag that an instruction lowers with what it takes down. -/
def lowers : Instruction → Option UInt64
  | clearSpendLimit .. => some flagSpendPolicy
  | clearSanctionsOracle .. => some flagSanctionsOracle
  | _ => none

/-- The instruction sets or clears the flags that it is told to. -/
def setsFlags : Instruction → Bool
  | setFeatureFlag .. | clearFeatureFlag .. | executeTimelockedOp .. | executeAction .. => true
  | _ => false

end Instruction

/-- What an instruction makes of the feature flags of the config at `k`. -/
inductive Flags (s : State) (k : Pubkey) (c : StablecoinConfig) : Instruction → UInt64 → Prop where
  | same {i : Instruction} : Flags s k c i c.featureFlags
  /-- The authority sets and clears flags, while there is no committee. -/
  | set {a : AuthorityAndMint} {flag : UInt64} (config : a.config = k)
    (committee : c.featureFlags &&& flagDaoCommittee = 0) :
    Flags s k c (.setFeatureFlag a flag) (c.featureFlags ||| flag)
  | clear {a : AuthorityAndMint} {flag : UInt64} (config : a.config = k)
    (dao : flag &&& flagDaoCommittee = 0) (squads : flag &&& flagSquadsAuthority = 0)
    (committee : c.featureFlags &&& flagDaoCommittee = 0) :
    Flags s k c (.clearFeatureFlag a flag) (c.featureFlags &&& ~~~flag)
  | raised {i : Instruction} {flag : UInt64} (raises : i.raises = some flag) :
    Flags s k c i (c.featureFlags ||| flag)
  | lowered {i : Instruction} {flag : UInt64} (lowers : i.lowers = some flag) :
    Flags s k c i (c.featureFlags &&& ~~~flag)
  | timelockedSet {a : AuthorityAndMint} (config : a.config = k)
    (kind : c.adminOpKind = adminOpSetFeatureFlag) :
    Flags s k c (.executeTimelockedOp a) (c.featureFlags ||| c.adminOpParam)
  | timelockedClear {a : AuthorityAndMint} (config : a.config = k)
    (kind : c.adminOpKind = adminOpClearFeatureFlag)
    (dao : c.adminOpParam &&& flagDaoCommittee = 0)
    (squads : c.adminOpParam &&& flagSquadsAuthority = 0) :
    Flags s k c (.executeTimelockedOp a) (c.featureFlags &&& ~~~c.adminOpParam)
  /-- The committee has decided. -/
  | enactedSet {a : CallerAndMint} {n : UInt64} {p : ProposalPda} (config : a.config = k)
    (proposal : s.proposals (.daoProposal k n) = some p)
    (quorum : p.quorum.toNat ≤ p.votes.length) (action : p.action = .setFeatureFlag) :
    Flags s k c (.executeAction a n) (c.featureFlags ||| p.param)
  | enactedClear {a : CallerAndMint} {n : UInt64} {p : ProposalPda} (config : a.config = k)
    (proposal : s.proposals (.daoProposal k n) = some p)
    (quorum : p.quorum.toNat ≤ p.votes.length) (action : p.action = .clearFeatureFlag)
    (dao : p.param &&& flagDaoCommittee = 0) (squads : p.param &&& flagSquadsAuthority = 0) :
    Flags s k c (.executeAction a n) (c.featureFlags &&& ~~~p.param)

theorem setFeatureFlagHandler_sets {a : AuthorityAndMint}
    (h : setFeatureFlagHandler s a flag = .ok s') :
    ∃ c, s.configs a.config = some c ∧ c.featureFlags &&& flagDaoCommittee = 0 ∧
      s'.configs = put s.configs a.config { c with featureFlags := c.featureFlags ||| flag } := by
  simp only [setFeatureFlagHandler, bind_eq_ok, AuthorityAndMint.loadConfig_eq_ok, requireNoDao,
    require_eq_ok, pure_eq_ok] at h
  obtain ⟨c, ⟨hc, -⟩, -, -, -, -, -, hdao, rfl⟩ := h
  exact ⟨c, hc, hdao, rfl⟩

theorem clearFeatureFlagHandler_sets {a : AuthorityAndMint}
    (h : clearFeatureFlagHandler s a flag = .ok s') :
    ∃ c, s.configs a.config = some c ∧ flag &&& flagDaoCommittee = 0 ∧
      flag &&& flagSquadsAuthority = 0 ∧ c.featureFlags &&& flagDaoCommittee = 0 ∧
      s'.configs =
        put s.configs a.config { c with featureFlags := c.featureFlags &&& ~~~flag } := by
  simp only [clearFeatureFlagHandler, bind_eq_ok, AuthorityAndMint.loadConfig_eq_ok, requireNoDao,
    require_eq_ok, pure_eq_ok] at h
  obtain ⟨c, ⟨hc, -⟩, -, -, -, -, -, hdao, -, hsquads, -, hcommittee, rfl⟩ := h
  exact ⟨c, hc, hdao, hsquads, hcommittee, rfl⟩

theorem StablecoinConfig.enact_flags {a : CallerAndMint} {n : UInt64} {p : ProposalPda}
    (hk : a.config = k) (hp : s.proposals (.daoProposal k n) = some p)
    (hquorum : p.quorum.toNat ≤ p.votes.length) (h : c.enact p.param p.action = .ok c') :
    Flags s k c (.executeAction a n) c'.featureFlags := by
  cases haction : p.action with
  | setFeatureFlag =>
    rw [haction] at h
    cases h
    exact .enactedSet hk hp hquorum haction
  | clearFeatureFlag =>
    rw [haction] at h
    simp only [enact, bind_eq_ok, require_eq_ok, pure_eq_ok] at h
    obtain ⟨-, hdao, -, hsquads, rfl⟩ := h
    exact .enactedClear hk hp hquorum haction hdao hsquads
  | pause | unpause | updateMinter | revokeMinter | drawInsurance =>
    rw [haction] at h
    cases h
    exact .same

theorem Operates.flags {a : AuthorityAndMint} (hk : a.config = k) (h : Operates c c') :
    Flags s k c (.executeTimelockedOp a) c'.featureFlags := by
  cases h with
  | setFeatureFlag kind => exact .timelockedSet hk kind
  | clearFeatureFlag kind dao squads => exact .timelockedClear hk kind dao squads
  | _ => exact .same

theorem Resets.flags (h : Resets clock s k c i c') (hi : i.setsFlags = false) :
    Flags s k c i c'.featureFlags := by
  cases h with
  | direct sets =>
    cases i with
    | setFeatureFlag | clearFeatureFlag => cases hi
    | setSpendLimit | setSanctionsOracle =>
      cases sets
      exact .raised rfl
    | clearSpendLimit =>
      cases sets
      exact .lowered rfl
    | setPythFeed | setOracleParams | setStabilityFee | setPsmFee | setBackstopParams
    | setOracleConfig | setTravelRuleThreshold =>
      cases sets
      exact .same
    | _ => cases sets
  | own sets settings =>
    have hflags : c'.featureFlags = c.featureFlags ||| _ := congrArg Settings.featureFlags settings
    rw [hflags]
    exact .raised ((congrArg (Option.or · _) sets).trans (Option.some_or ..))
  | control => exact .same
  | enact => cases hi
  | clear => exact .lowered rfl
  | execute => cases hi

theorem Flags.of_put {k' : Pubkey} {d d' : StablecoinConfig} (hc : s.configs k = some c)
    (hd : s.configs k' = some d) (h : s'.configs = put s.configs k' d')
    (hflags : Flags s k' d i d'.featureFlags) :
    ∃ c', s'.configs k = some c' ∧ Flags s k c i c'.featureFlags := by
  by_cases hk : k = k'
  · subst hk
    cases hd.symm.trans hc
    exact ⟨d', by rw [h, put_self], hflags⟩
  · exact ⟨c, by rw [h, put_of_ne _ _ hk, hc], .same⟩

/-- A config stays, and an instruction may change its flags. -/
theorem Instruction.exec_flags (h : i.exec rt clock s = .ok s') (hc : s.configs k = some c) :
    ∃ c', s'.configs k = some c' ∧ Flags s k c i c'.featureFlags := by
  cases hi : i.setsFlags with
  | true =>
    cases i with
    | setFeatureFlag =>
      obtain ⟨d, hd, hdao, hput⟩ := setFeatureFlagHandler_sets h
      exact Flags.of_put hc hd hput (.set rfl hdao)
    | clearFeatureFlag =>
      obtain ⟨d, hd, hdao, hsquads, hcommittee, hput⟩ := clearFeatureFlagHandler_sets h
      exact Flags.of_put hc hd hput (.clear rfl hdao hsquads hcommittee)
    | executeTimelockedOp b =>
      obtain ⟨mint, d, d', hgoverned⟩ := executeTimelockedOpHandler_ok h
      cases hgoverned.governs with
      | @execute _ e _ _ happlies =>
        have hflags : Flags s b.config d (.executeTimelockedOp b) e.featureFlags :=
          (StablecoinConfig.applyTimelockedOp_operates happlies).flags rfl
        exact Flags.of_put hc hgoverned.config hgoverned.configs hflags
      | takeOver kind => rcases kind with kind | kind <;> cases kind
    | executeAction =>
      obtain ⟨d, p, d', hd, hp, hquorum, henact, hput, -⟩ := executeActionHandler_enacts h
      exact Flags.of_put hc hd hput (d.enact_flags rfl hp hquorum henact)
    | _ => cases hi
  | false =>
    cases Instruction.exec_settings h with
    | same h =>
      obtain ⟨c', hc', hsettings⟩ := h.config' hc
      have hflags : c'.featureFlags = c.featureFlags := congrArg Settings.featureFlags hsettings
      exact ⟨c', hc', hflags ▸ .same⟩
    | reset h =>
      obtain ⟨k', d, d', hd, hput, hresets⟩ := h
      exact Flags.of_put hc hd hput (hresets.flags hi)
    | @initialized _ mint _ h =>
      obtain ⟨d, hput, -⟩ := h.config
      have hk : k ≠ .stablecoinConfig mint := by
        rintro rfl
        rw [h.free] at hc
        cases hc
      exact ⟨c, by rw [hput, put_of_ne _ _ hk, hc], .same⟩

theorem exec_flags (h : a.exec rt s = .ok s') (hc : s.configs k = some c) :
    ∃ c', s'.configs k = some c' ∧ (c'.featureFlags = c.featureFlags ∨
      ∃ clock i, a = .call clock i ∧ Flags s k c i c'.featureFlags) := by
  cases a with
  | world w =>
    exact ⟨c, (congrFun (World.exec_configs h) k).trans hc, .inl rfl⟩
  | call clock i =>
    obtain ⟨c', hc', hflags⟩ := Instruction.exec_flags h hc
    exact ⟨c', hc', .inr ⟨clock, i, rfl, hflags⟩⟩

/-! ## Flags that stay up -/

/-- A flag that no instruction may lower. -/
def Protected (flag : UInt64) : Prop := flag = flagDaoCommittee ∨ flag = flagSquadsAuthority

theorem Protected.of_dao_of_squads (h : Protected flag) (hdao : mask &&& flagDaoCommittee = 0)
    (hsquads : mask &&& flagSquadsAuthority = 0) : mask &&& flag = 0 := by
  rcases h with rfl | rfl
  · exact hdao
  · exact hsquads

theorem Protected.of_lowers (h : Protected flag) (hlowers : i.lowers = some mask) :
    mask &&& flag = 0 := by
  cases i with
  | clearSpendLimit | clearSanctionsOracle =>
    cases hlowers
    exact h.of_dao_of_squads (by decide) (by decide)
  | _ => cases hlowers

theorem Flags.stays (h : Flags s k c i f) (hflag : Protected flag)
    (hset : c.featureFlags &&& flag ≠ 0) : f &&& flag ≠ 0 := by
  cases h with
  | same => exact hset
  | set | raised | timelockedSet | enactedSet => exact or_and_ne_zero hset
  | clear _ dao squads =>
    rwa [and_not_and_of_and_eq_zero (hflag.of_dao_of_squads dao squads)]
  | lowered lowers => rwa [and_not_and_of_and_eq_zero (hflag.of_lowers lowers)]
  | timelockedClear _ _ dao squads =>
    rwa [and_not_and_of_and_eq_zero (hflag.of_dao_of_squads dao squads)]
  | enactedClear _ _ _ _ dao squads =>
    rwa [and_not_and_of_and_eq_zero (hflag.of_dao_of_squads dao squads)]

/-- The flag is up in the config at `k`. -/
def Raised (flag : UInt64) (k : Pubkey) (s : State) : Prop :=
  ∃ c, s.configs k = some c ∧ c.featureFlags &&& flag ≠ 0

instance : Decidable (Raised flag k s) :=
  inferInstanceAs (Decidable (∃ c ∈ s.configs k, c.featureFlags &&& flag ≠ 0))

theorem Raised.step (hflag : Protected flag) (h : Raised flag k s) (hexec : a.exec rt s = .ok s') :
    Raised flag k s' := by
  obtain ⟨c, hc, hset⟩ := h
  obtain ⟨c', hc', hsame | ⟨_, _, _, hflags⟩⟩ := exec_flags hexec hc
  · exact ⟨c', hc', hsame ▸ hset⟩
  · exact ⟨c', hc', hflags.stays hflag hset⟩

theorem Raised.run (hflag : Protected flag) (h : Raised flag k s) (as : List Action) :
    Raised flag k (run rt s as) :=
  invariant_run_of_forall (fun hi hexec => hi.step hflag hexec) as h

/-- The flags of the committee and of the multisig stay up in every run of any instructions. -/
theorem governance_flags_stay (hflag : flag = flagDaoCommittee ∨ flag = flagSquadsAuthority)
    (as : List Action) (hc : s.configs k = some c) (hset : c.featureFlags &&& flag ≠ 0) :
    ∃ c', (run rt s as).configs k = some c' ∧ c'.featureFlags &&& flag ≠ 0 := by
  have hraised : Raised flag k s := ⟨c, hc, hset⟩
  exact hraised.run hflag as

open Market in
theorem governance_flags_stay_squads : ∃ c',
    (run localRuntime (run localRuntime genesis (funded 1000))
      [.call (day 1) (.clearFeatureFlag asAuthority flagSquadsAuthority)]).configs config =
        some c' ∧
    c'.featureFlags &&& flagSquadsAuthority ≠ 0 := by
  obtain ⟨c, hc, hset⟩ : ∃ c ∈ (run localRuntime genesis (funded 1000)).configs config,
      c.featureFlags &&& flagSquadsAuthority ≠ 0 := by
    decide +kernel
  exact governance_flags_stay (.inr rfl) _ hc hset

end SolanaStablecoin
