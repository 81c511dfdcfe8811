import SolanaStablecoin.Verify.Committee
import SolanaStablecoin.Verify.Flags
import SolanaStablecoin.Verify.Supply

/-! Who becomes the authority of a stablecoin, and whether a multisig stays in office. -/

namespace SolanaStablecoin

open Transition

variable {rt : Runtime} {clock : Clock} {s s' : State} {a : Action} {i : Instruction}
  {c c' : StablecoinConfig} {k M : Pubkey} {f mask flag : UInt64}

/-- The rotation that is pending for a stablecoin. -/
def State.rotation (s : State) (M : Pubkey) : Option AuthorityRotationRequest :=
  s.authorityRotationRequests (.authorityRotation M)

/-- The instruction is told to raise the flag of the multisig of `M`. -/
inductive RaisesSquads (M : Pubkey) (s : State) (c : StablecoinConfig) : Instruction → Prop where
  | set {b : AuthorityAndMint} {flag : UInt64} (mint : b.mint = M)
    (squads : flag &&& flagSquadsAuthority ≠ 0) : RaisesSquads M s c (.setFeatureFlag b flag)
  | timelocked {b : AuthorityAndMint} (mint : b.mint = M)
    (kind : c.adminOpKind = adminOpSetFeatureFlag)
    (squads : c.adminOpParam &&& flagSquadsAuthority ≠ 0) :
    RaisesSquads M s c (.executeTimelockedOp b)
  | enacted {b : CallerAndMint} {n : UInt64} {p : ProposalPda} (mint : b.mint = M)
    (proposal : s.proposal M n = some p) (action : p.action = .setFeatureFlag)
    (squads : p.param &&& flagSquadsAuthority ≠ 0) : RaisesSquads M s c (.executeAction b n)

/-- The instruction hands `M` over to a successor. -/
inductive HandsOver (M : Pubkey) (s : State) (c : StablecoinConfig) :
    Instruction → Pubkey → Prop where
  | accepted {b : AcceptRole} (mint : b.mint = M) :
    HandsOver M s c (.acceptAuthority b) c.pendingAuthority
  | rotated {b : TakeOver} {req : AuthorityRotationRequest} (mint : b.mint = M)
    (request : s.rotation M = some req) :
    HandsOver M s c (.acceptAuthorityRotation b) req.newAuthority
  | recovered {b : TakeOver} {req : AuthorityRotationRequest} (mint : b.mint = M)
    (request : s.rotation M = some req) :
    HandsOver M s c (.emergencyRecoverAuthority b) req.backupAuthority

/-- What becomes of the authority and of the multisig of `M`. -/
inductive Succession (M : Pubkey) (s s' : State) (c c' : StablecoinConfig) :
    Instruction → Prop where
  | same {i : Instruction} (authority : c'.authority = c.authority)
    (multisig : c'.squadsMultisig = c.squadsMultisig)
    (flag : c'.featureFlags &&& flagSquadsAuthority ≠ 0 →
      c.featureFlags &&& flagSquadsAuthority ≠ 0 ∨ RaisesSquads M s c i) : Succession M s s' c c' i
  | handed {i : Instruction} {successor : Pubkey} (hands : HandsOver M s c i successor)
    (authority : c'.authority = successor) (multisig : c'.squadsMultisig = c.squadsMultisig)
    (flags : c'.featureFlags = c.featureFlags)
    (closed : (∀ b, i ≠ .acceptAuthority b) → s'.rotation M = none) : Succession M s s' c c' i
  /-- A multisig takes over. -/
  | seated {b : AuthorityAndMint} {p : InitSquadsAuthorityParams} (mint : b.mint = M)
    (authority : c'.authority = p.multisigPda) (multisig : c'.squadsMultisig = p.multisigPda) :
    Succession M s s' c c' (.initSquadsAuthority b p)

/-! ## Steps -/

theorem or_and_ne_zero_cases (h : (f ||| mask) &&& flag ≠ 0) :
    f &&& flag ≠ 0 ∨ mask &&& flag ≠ 0 := by
  rw [or_and_distrib_right, Ne, UInt64.or_eq_zero_iff] at h
  exact not_and_or.mp h

theorem and_ne_zero_of_and_not (h : f &&& ~~~mask &&& flag ≠ 0) : f &&& flag ≠ 0 := by
  intro hzero
  apply h
  calc
    f &&& ~~~mask &&& flag = ~~~mask &&& (f &&& flag) := by
      rw [UInt64.and_comm f, UInt64.and_assoc]
    _ = 0 := by rw [hzero, UInt64.and_zero]

/-- Only the multisig's own instruction raises its flag with what it sets up. -/
theorem Instruction.raises_squads (h : i.raises = some flag)
    (hi : ∀ b p, i ≠ .initSquadsAuthority b p) : flag &&& flagSquadsAuthority = 0 := by
  cases i with
  | initSquadsAuthority => exact absurd rfl (hi _ _)
  | initPidConfig | initZkCompliance | registerLegalEntity | initLiquidationBonusConfig
  | initYieldCollateral | initPsmCurveConfig | initInsuranceVault | initDaoCommittee
  | initOracleConsensus | initCredentialRegistry | setSpendLimit | setSanctionsOracle =>
    cases h
    decide
  | _ => cases h

theorem Flags.squads (h : Flags s (.stablecoinConfig M) c i f)
    (hi : ∀ b p, i ≠ .initSquadsAuthority b p) (hf : f &&& flagSquadsAuthority ≠ 0) :
    c.featureFlags &&& flagSquadsAuthority ≠ 0 ∨ RaisesSquads M s c i := by
  cases h with
  | same => exact .inl hf
  | clear | lowered | timelockedClear | enactedClear => exact .inl (and_ne_zero_of_and_not hf)
  | set config =>
    exact (or_and_ne_zero_cases hf).imp_right (.set (Pubkey.stablecoinConfig.inj config))
  | timelockedSet config kind =>
    exact (or_and_ne_zero_cases hf).imp_right
      (.timelocked (Pubkey.stablecoinConfig.inj config) kind)
  | enactedSet config proposal _ action =>
    exact (or_and_ne_zero_cases hf).imp_right
      (.enacted (Pubkey.stablecoinConfig.inj config) proposal action)
  | raised raises =>
    refine .inl ((or_and_ne_zero_cases hf).resolve_right fun h => h ?_)
    exact Instruction.raises_squads raises hi

theorem StablecoinConfig.applyTimelockedOp_authority (h : c.applyTimelockedOp = .ok c') :
    c'.authority = c.authority := by
  cases applyTimelockedOp_operates h <;> rfl

/-- The instruction puts somebody else in office. -/
def Instruction.succeeds : Instruction → Bool
  | acceptAuthority .. | acceptAuthorityRotation .. | emergencyRecoverAuthority ..
  | initSquadsAuthority .. => true
  | _ => false

/-- An instruction on another stablecoin. -/
theorem Succession.of_ne (hk : k ≠ .stablecoinConfig M)
    (hc : s.configs (.stablecoinConfig M) = some c) (h : s'.configs = put s.configs k c') :
    ∃ c', s'.configs (.stablecoinConfig M) = some c' ∧ Succession M s s' c c' i :=
  ⟨c, by rw [h, put_of_ne _ _ (Ne.symm hk), hc], .same rfl rfl .inl⟩

theorem TakeOver.complete_sets {b : TakeOver} {named : AuthorityRotationRequest → Pubkey}
    {delay : AuthorityRotationRequest → UInt64} {e : SssError}
    (h : b.complete clock s named delay e = .ok s') :
    ∃ c req, s.configs (.stablecoinConfig b.mint) = some c ∧ s.rotation b.mint = some req ∧
      s'.configs = put s.configs (.stablecoinConfig b.mint)
        { c with authority := named req, pendingAuthority := .default } ∧
      s'.rotation b.mint = none := by
  simp only [complete, bind_eq_ok, load_eq_ok, pure_eq_ok] at h
  obtain ⟨c, hc, req, hreq, -, -, -, -, -, -, _, -, -, -, _, -, -, -, rfl⟩ := h
  exact ⟨c, req, hc, hreq, rfl, Function.update_self ..⟩

theorem TakeOver.complete_succession {b : TakeOver} {named : AuthorityRotationRequest → Pubkey}
    {delay : AuthorityRotationRequest → UInt64} {e : SssError}
    (h : b.complete clock s named delay e = .ok s') (hc : s.configs (.stablecoinConfig M) = some c)
    (hands : ∀ req, b.mint = M → s.rotation M = some req → HandsOver M s c i (named req)) :
    ∃ c', s'.configs (.stablecoinConfig M) = some c' ∧ Succession M s s' c c' i := by
  obtain ⟨d, req, hd, hreq, hput, hclosed⟩ := complete_sets h
  by_cases hM : b.mint = M
  · subst hM
    cases hd.symm.trans hc
    exact ⟨_, (congrFun hput _).trans (put_self ..),
      .handed (hands req rfl hreq) rfl rfl rfl fun _ => hclosed⟩
  · exact Succession.of_ne (fun heq => hM (Pubkey.stablecoinConfig.inj heq)) hc hput

theorem acceptAuthorityHandler_succession {b : AcceptRole}
    (h : acceptAuthorityHandler s b = .ok s') (hc : s.configs (.stablecoinConfig M) = some c) :
    ∃ c', s'.configs (.stablecoinConfig M) = some c' ∧
      Succession M s s' c c' (.acceptAuthority b) := by
  simp only [acceptAuthorityHandler, bind_eq_ok, load_eq_ok, pure_eq_ok] at h
  obtain ⟨d, hd, -, -, -, -, _, -, -, -, rfl⟩ := h
  by_cases hM : b.mint = M
  · subst hM
    cases hd.symm.trans hc
    exact ⟨_, put_self .., .handed (.accepted rfl) rfl rfl rfl fun hno => absurd rfl (hno b)⟩
  · exact Succession.of_ne (fun heq => hM (Pubkey.stablecoinConfig.inj heq)) hc rfl

theorem initSquadsAuthorityHandler_succession {b : AuthorityAndMint}
    {p : InitSquadsAuthorityParams} (h : initSquadsAuthorityHandler s b p = .ok s')
    (hc : s.configs (.stablecoinConfig M) = some c) :
    ∃ c', s'.configs (.stablecoinConfig M) = some c' ∧
      Succession M s s' c c' (.initSquadsAuthority b p) := by
  simp only [initSquadsAuthorityHandler, bind_eq_ok, load_eq_ok, pure_eq_ok] at h
  obtain ⟨d, hd, -, -, -, -, _, -, -, -, -, -, -, -, rfl⟩ := h
  by_cases hM : b.mint = M
  · subst hM
    exact ⟨_, put_self .., .seated rfl rfl rfl⟩
  · exact Succession.of_ne (fun heq => hM (Pubkey.stablecoinConfig.inj heq)) hc rfl

theorem Instruction.exec_succession (h : i.exec rt clock s = .ok s')
    (hc : s.configs (.stablecoinConfig M) = some c) :
    ∃ c', s'.configs (.stablecoinConfig M) = some c' ∧ Succession M s s' c c' i := by
  cases hi : i.succeeds with
  | true =>
    cases i with
    | acceptAuthority => exact acceptAuthorityHandler_succession h hc
    | acceptAuthorityRotation =>
      exact TakeOver.complete_succession h hc fun req hM hreq => .rotated hM hreq
    | emergencyRecoverAuthority =>
      exact TakeOver.complete_succession h hc fun req hM hreq => .recovered hM hreq
    | initSquadsAuthority => exact initSquadsAuthorityHandler_succession h hc
    | _ => cases hi
  | false =>
    obtain ⟨c', hc', hflags⟩ := Instruction.exec_flags h hc
    refine ⟨c', hc', ?_⟩
    have hflag := hflags.squads (by rintro b p rfl; cases hi)
    have hexec : Action.exec rt s (.call clock i) = .ok s' := h
    obtain ⟨c₁, hc₁, hoffice | ⟨_, _, mint, hcall, -, hgoverns⟩⟩ := (exec_step hexec).config_next hc
    · cases hc'.symm.trans hc₁
      exact .same (congrArg Office.authority hoffice) (congrArg Office.squadsMultisig hoffice) hflag
    · cases hc'.symm.trans hc₁
      cases hcall
      cases hgoverns with
      | propose | cancel | updateRoles | acceptComplianceAuthority => exact .same rfl rfl hflag
      | execute _ _ happlies =>
        have hauthority := StablecoinConfig.applyTimelockedOp_authority happlies
        exact .same hauthority (StablecoinConfig.applyTimelockedOp_preset happlies).2 hflag
      | takeOver kind => rcases kind with rfl | rfl <;> cases hi
      | acceptAuthority | initSquads => cases hi

/-! ## The multisig in office -/

/-- Where a multisig is to sign, it is the authority. -/
def MultisigInOffice (M : Pubkey) (s : State) : Prop :=
  ∀ c, s.configs (.stablecoinConfig M) = some c → c.featureFlags &&& flagSquadsAuthority ≠ 0 →
    c.authority = c.squadsMultisig

instance : Decidable (MultisigInOffice M s) :=
  inferInstanceAs (Decidable (∀ c ∈ s.configs (.stablecoinConfig M),
    c.featureFlags &&& flagSquadsAuthority ≠ 0 → c.authority = c.squadsMultisig))

/-- The instruction raises the flag only where the multisig is the authority, and hands the
stablecoin over to nobody else where the flag is up. -/
structure KeepsMultisig (M : Pubkey) (s : State) (i : Instruction) : Prop where
  initialized : ∀ b p, i = .initializeStablecoin b p → b.mint.key = M →
    p.squadsMultisig.getD .default ≠ .default ∨
      p.featureFlags.getD 0 &&& flagSquadsAuthority ≠ 0 →
    p.squadsMultisig = some b.payer.key
  raised : ∀ c, s.configs (.stablecoinConfig M) = some c → RaisesSquads M s c i →
    c.authority = c.squadsMultisig
  handed : ∀ c successor, s.configs (.stablecoinConfig M) = some c →
    HandsOver M s c i successor → c.featureFlags &&& flagSquadsAuthority ≠ 0 →
    successor = c.squadsMultisig

theorem Succession.keeps (h : Succession M s s' c c' i) (hkeeps : KeepsMultisig M s i)
    (hc : s.configs (.stablecoinConfig M) = some c)
    (hoffice : c.featureFlags &&& flagSquadsAuthority ≠ 0 → c.authority = c.squadsMultisig)
    (hflag : c'.featureFlags &&& flagSquadsAuthority ≠ 0) : c'.authority = c'.squadsMultisig := by
  cases h with
  | same authority multisig flag =>
    rw [authority, multisig]
    rcases flag hflag with hold | hraises
    · exact hoffice hold
    · exact hkeeps.raised c hc hraises
  | handed hands authority multisig flags =>
    rw [authority, multisig]
    rw [flags] at hflag
    exact hkeeps.handed c _ hc hands hflag
  | seated _ authority multisig => rw [authority, multisig]

theorem initializeHandler_multisig {b : Initialize} {p : InitializeParams}
    (h : initializeHandler rt s b p = .ok s') (hnone : s.configs (.stablecoinConfig M) = none)
    (hkeeps : KeepsMultisig M s (.initializeStablecoin b p)) : MultisigInOffice M s' := by
  intro c hc hflag
  obtain ⟨-, hput, -⟩ := initializeHandler_fresh h
  rw [hput] at hc
  rcases put_eq_some.mp hc with ⟨hM, rfl⟩ | ⟨-, hold⟩
  · have hset : p.squadsMultisig = some b.payer.key := by
      apply hkeeps.initialized b p rfl (Pubkey.stablecoinConfig.inj hM).symm
      by_cases hmultisig : p.squadsMultisig.getD .default = .default
      · rw [Initialize.fresh, if_neg (not_not.mpr hmultisig)] at hflag
        exact .inr hflag
      · exact .inl hmultisig
    show b.payer.key = p.squadsMultisig.getD .default
    rw [hset, Option.getD_some]
  · rw [hnone] at hold
    cases hold

theorem MultisigInOffice.step (h : MultisigInOffice M s) (hexec : i.exec rt clock s = .ok s')
    (hkeeps : KeepsMultisig M s i) : MultisigInOffice M s' := by
  cases hc : s.configs (.stablecoinConfig M) with
  | some c =>
    intro c' hc' hflag
    obtain ⟨c₁, hc₁, hsuccession⟩ := Instruction.exec_succession hexec hc
    cases hc'.symm.trans hc₁
    exact hsuccession.keeps hkeeps hc (h c hc) hflag
  | none =>
    by_cases hi : ∃ b p, i = .initializeStablecoin b p
    · obtain ⟨b, p, rfl⟩ := hi
      exact initializeHandler_multisig hexec hc hkeeps
    · intro c' hc'
      rw [Instruction.config_none (fun b p heq => hi ⟨b, p, heq⟩) hexec hc] at hc'
      cases hc'

/-- The multisig is in office after every run whose instructions keep it there: then whoever is the
authority passes the check for the multisig as well. -/
theorem multisig_stays_in_office {as : List Action} (hs : s.configs (.stablecoinConfig M) = none)
    (h : Along (Action.exec rt) (fun s a => ∀ clock i s', a = .call clock i →
      i.exec rt clock s = .ok s' → KeepsMultisig M s i) s as)
    (hc : (run rt s as).configs (.stablecoinConfig M) = some c)
    (hflag : c.featureFlags &&& flagSquadsAuthority ≠ 0) :
    c.authority = c.squadsMultisig ∧
      ∀ who : Signer, who.key = c.authority → checkSquads c who.key = .ok () := by
  have hall : MultisigInOffice M (run rt s as) := by
    refine invariant_run (fun {s s' a} hi hkeeps hexec => ?_) ?_ h
    · cases a with
      | call clock i => exact MultisigInOffice.step hi hexec (hkeeps clock i s' rfl hexec)
      | world w =>
        rw [MultisigInOffice, World.exec_configs hexec]
        exact hi
    · intro c hc
      rw [hs] at hc
      cases hc
  have hoffice := hall c hc hflag
  refine ⟨hoffice, fun who hwho => checkSquads_eq_ok.mpr fun _ => ?_⟩
  rw [← hoffice, ← hwho]
  exact ⟨who.ne_default, rfl⟩

namespace Market

/-- A stablecoin with a multisig. -/
def multisigned (multisig : Pubkey) : List Action :=
  [ .call (day 0) (.initializeStablecoin
      { payer := authority, mint, tokenProgram := token2022Id }
      { preset := 1, decimals := 6, adminTimelockDelay := some 0
        squadsMultisig := some multisig }) ]

/-- The multisig transfers the authority. -/
def transferred : List Action :=
  multisigned authority.key ++
    [ .call (day 1) (.updateRoles asAuthority { newAuthority := some other.key }),
      .call (day 1) (.acceptAuthority { pending := other, mint := mint.key }) ]

end Market

open Market in
theorem multisig_stays_in_office_multisigned : ∃ c,
    (run localRuntime genesis (multisigned authority.key)).configs config = some c ∧
      c.authority = c.squadsMultisig ∧
      ∀ who : Signer, who.key = c.authority → checkSquads c who.key = .ok () := by
  obtain ⟨c, hc, hflag⟩ :
      ∃ c ∈ (run localRuntime genesis (multisigned authority.key)).configs config,
        c.featureFlags &&& flagSquadsAuthority ≠ 0 := by
    decide +kernel
  have halong : Along (Action.exec localRuntime) (fun s a => ∀ clock i s', a = .call clock i →
      i.exec localRuntime clock s = .ok s' → KeepsMultisig mint.key s i) genesis
      (multisigned authority.key) := by
    refine ⟨?_, trivial⟩
    intro clock i s' hcall _
    cases hcall
    exact
      { initialized := by
          rintro b p heq - -
          cases heq
          rfl
        raised := fun _ _ hraises => by cases hraises
        handed := fun _ _ _ hands _ => by cases hands }
  exact ⟨c, hc, multisig_stays_in_office (genesis_genesis.configs _) halong hc hflag⟩

open Market in
/-- It is not in office where another key initialises the stablecoin, nor once it has transferred
the authority. -/
theorem multisig_out_of_office :
    ¬ MultisigInOffice mint.key (run localRuntime genesis (multisigned other.key)) ∧
    ¬ MultisigInOffice mint.key (run localRuntime genesis transferred) := by
  decide +kernel

end SolanaStablecoin
