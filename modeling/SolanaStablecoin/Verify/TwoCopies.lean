import SolanaStablecoin.Verify.Policy
import SolanaStablecoin.Verify.Settings
import SolanaStablecoin.Verify.Timelock

/-! The key that governs compliance is stored twice: in the config, where it is handed over, and
with the blacklist of the hook, where whoever made the list stays. The two agree for as long as no
step gives one of them to another key than the other has. -/

namespace SolanaStablecoin

open Transition

variable {rt : Runtime} {clock : Clock} {s s' : State} {c c' : StablecoinConfig}
  {bl : BlacklistState} {a : Action} {M k : Pubkey}

/-! ## Control of the list -/

/-- The instruction writes the blacklist of `M` under the signature of `k`. -/
def Instruction.listsFor (M k : Pubkey) : Instruction → Prop
  | .blacklistAdd b _ | .blacklistRemove b _ => b.mint = M ∧ b.authority.key = k
  | .blacklistAddAndFreeze b _ _ => b.mint = M ∧ b.complianceAuthority.key = k
  | _ => False

/-- Only `k` writes the blacklist of `M`, and `k` takes off it whom it will, and puts on it whom it
will while there is room. -/
structure Controls (rt : Runtime) (clock : Clock) (s : State) (M : Pubkey) (bl : BlacklistState)
    (k : Pubkey) : Prop where
  only : ∀ (i : Instruction) (k' : Pubkey), i.listsFor M k' →
    (i.exec rt clock s).isOk = true → k' = k
  removes : ∀ address, ∃ b : AuthorityAndMint, b.mint = M ∧ b.authority.key = k ∧
    (blacklistRemoveHandler s b address).isOk = true
  adds : ∀ address, address ∈ bl.blacklisted ∨ bl.blacklisted.length < BlacklistState.maxAddresses →
    ∃ b : AuthorityAndMint, b.mint = M ∧ b.authority.key = k ∧
      (blacklistAddHandler s b address).isOk = true

/-- Whoever writes the list is its authority. -/
theorem Instruction.listsFor.authority {i : Instruction} (h : i.listsFor M k)
    (hok : (i.exec rt clock s).isOk = true)
    (hbl : s.blacklistStates (.hook .blacklistState M) = some bl) : k = bl.authority := by
  obtain ⟨s', hs'⟩ := isOk_iff.mp hok
  cases i
  case blacklistAdd b address =>
    obtain ⟨rfl, rfl⟩ := h
    obtain ⟨bl', hbl', hauth, -⟩ := blacklistAddHandler_eq hs'
    cases hbl.symm.trans hbl'
    exact hauth.symm
  case blacklistRemove b address =>
    obtain ⟨rfl, rfl⟩ := h
    simp only [Instruction.exec, blacklistRemoveHandler, bind_eq_ok, loadBlacklist_eq_ok] at hs'
    obtain ⟨bl', ⟨hbl', hauth⟩, -⟩ := hs'
    cases hbl.symm.trans hbl'
    exact hauth.symm
  case blacklistAddAndFreeze b list hook =>
    obtain ⟨rfl, rfl⟩ := h
    obtain ⟨mint, bl', hsets, -⟩ := (blacklistAddAndFreezeHandler_ok hs').blacklists
    cases hsets with
    | addAndFreeze hbl' hauth =>
      cases hbl.symm.trans hbl'
      exact hauth.symm
  all_goals exact h.elim

theorem blacklistRemoveHandler_isOk {b : AuthorityAndMint}
    (hbl : s.blacklistStates (.hook .blacklistState b.mint) = some bl)
    (hauth : bl.authority = b.authority.key) (address : Pubkey) :
    (blacklistRemoveHandler s b address).isOk = true := by
  have hload : loadBlacklist s b = .ok bl := loadBlacklist_eq_ok.mpr ⟨hbl, hauth⟩
  rw [blacklistRemoveHandler, hload]
  rfl

theorem blacklistAddHandler_isOk {b : AuthorityAndMint} {address : Pubkey}
    (hbl : s.blacklistStates (.hook .blacklistState b.mint) = some bl)
    (hauth : bl.authority = b.authority.key)
    (hroom : address ∈ bl.blacklisted ∨ bl.blacklisted.length < BlacklistState.maxAddresses) :
    (blacklistAddHandler s b address).isOk = true := by
  have hload : loadBlacklist s b = .ok bl := loadBlacklist_eq_ok.mpr ⟨hbl, hauth⟩
  rw [blacklistAddHandler, hload, ok_bind]
  split
  next => rfl
  next hnot =>
    rw [require_pos (hroom.resolve_left hnot)]
    rfl

/-- The list is controlled by its authority, and by nobody else. -/
theorem controls_iff (hbl : s.blacklistStates (.hook .blacklistState M) = some bl)
    (hsign : bl.authority.canSign = true) :
    Controls rt clock s M bl k ↔ bl.authority = k := by
  let signer : AuthorityAndMint := { authority := ⟨bl.authority, hsign⟩, mint := M }
  constructor
  · intro h
    exact h.only (.blacklistRemove signer .default) bl.authority ⟨rfl, rfl⟩
      (blacklistRemoveHandler_isOk (b := signer) hbl rfl .default)
  · rintro rfl
    exact
      { only := fun _ _ hlists hok => hlists.authority hok hbl
        removes := fun address =>
          ⟨signer, rfl, rfl, blacklistRemoveHandler_isOk (b := signer) hbl rfl address⟩
        adds := fun _ hroom =>
          ⟨signer, rfl, rfl, blacklistAddHandler_isOk (b := signer) hbl rfl hroom⟩ }

/-! ## The two copies -/

/-- The authority of the blacklist of `M`. -/
def State.lister (s : State) (M : Pubkey) : Option Pubkey :=
  (s.blacklistStates (.hook .blacklistState M)).map (·.authority)

/-- The compliance authority of `M`. -/
def State.overseer (s : State) (M : Pubkey) : Option Pubkey :=
  (s.configs (.stablecoinConfig M)).map (·.complianceAuthority)

/-- The step gives one of the copies to another key than the other has. -/
def Splits (M : Pubkey) (s : State) : Action → Prop
  | .call _ (.acceptComplianceAuthority b) => b.mint = M ∧ ∃ k ∈ s.lister M, k ≠ b.pending.key
  | .call _ (.initializeStablecoin b _) => b.mint.key = M ∧ ∃ k ∈ s.lister M, k ≠ b.payer.key
  | .call _ (.initializeExtraAccountMetaList b) =>
    b.mint = M ∧ ∃ k ∈ s.overseer M, k ≠ b.authority.key
  | _ => False

/-- What a step may do to the two copies. -/
inductive CopiesStep (M : Pubkey) (s : State) (a : Action) (s' : State) : Prop where
  | same (lister : s'.lister M = s.lister M) (overseer : s'.overseer M = s.overseer M)
    (whole : ¬ Splits M s a)
  | overseer {k : Pubkey} (lister : s'.lister M = s.lister M) (overseer : s'.overseer M = some k)
    (splits : Splits M s a ↔ ∃ k' ∈ s.lister M, k' ≠ k)
  | lister {k : Pubkey} (lister : s'.lister M = some k) (overseer : s'.overseer M = s.overseer M)
    (splits : Splits M s a ↔ ∃ k' ∈ s.overseer M, k' ≠ k) (signs : k.canSign = true)

/-- The two copies agree, where both are there. -/
def State.Agreed (s : State) (M : Pubkey) : Prop := ∀ k ∈ s.lister M, ∀ k' ∈ s.overseer M, k = k'

theorem CopiesStep.agreed_iff (h : CopiesStep M s a s') (hs : s.Agreed M) :
    s'.Agreed M ↔ ¬ Splits M s a := by
  cases h with
  | same hl ho hwhole =>
    rw [State.Agreed, hl, ho]
    exact iff_of_true hs hwhole
  | overseer hl ho hsplits =>
    rw [State.Agreed, hl, ho, hsplits]
    simp
  | lister hl ho hsplits =>
    rw [State.Agreed, hl, ho, hsplits]
    simp [eq_comm]

/-! ## Steps -/

/-- Editing a list leaves its authority. -/
theorem SetsBlacklist.authority {i : Instruction} (h : SetsBlacklist s i M bl)
    (hi : ∀ b, i = .initializeExtraAccountMetaList b → b.mint ≠ M) :
    s.lister M = some bl.authority := by
  have of_stored {bl₀ : BlacklistState}
      (hbl : s.blacklistStates (.hook .blacklistState M) = some bl₀) :
      s.lister M = some bl₀.authority := by rw [State.lister, hbl, Option.map_some]
  cases h with
  | init => exact absurd rfl (hi _ rfl)
  | migrate hbl => exact of_stored hbl
  | remove hbl =>
    rw [of_stored hbl]
    rfl
  | add hbl | addAndFreeze hbl =>
    rw [of_stored hbl, BlacklistState.add]
    split <;> rfl

theorem exec_lister {i : Instruction} (h : i.exec rt clock s = .ok s')
    (hi : ∀ b, i = .initializeExtraAccountMetaList b → b.mint ≠ M) :
    s'.lister M = s.lister M := by
  rcases (Instruction.exec_step h).lists with ⟨heq, -⟩ | ⟨clock, i, hcall, hlists⟩
  · rw [State.lister, heq, State.lister]
  · cases hcall
    obtain ⟨mint, bl, hsets, hput⟩ := hlists.blacklists
    rw [State.lister, hput]
    by_cases hM : mint = M
    · subst hM
      rw [put_self, hsets.authority hi, Option.map_some]
    · have hne : Pubkey.hook .blacklistState M ≠ .hook .blacklistState mint := by
        intro heq
        cases heq
        exact hM rfl
      rw [put_of_ne _ _ hne, State.lister]

theorem Governs.accepts_mint {b : AcceptRole}
    (h : Governs clock c (.acceptComplianceAuthority b) M c') : b.mint = M := by
  cases h with
  | acceptComplianceAuthority => rfl
  | takeOver kind => rcases kind with kind | kind <;> cases kind

theorem exec_overseer {i : Instruction} (h : i.exec rt clock s = .ok s')
    (haccept : ∀ b, i = .acceptComplianceAuthority b → b.mint ≠ M)
    (hinit : ∀ b p, i = .initializeStablecoin b p → b.mint.key ≠ M) :
    s'.overseer M = s.overseer M := by
  cases hc : s.configs (.stablecoinConfig M) with
  | some c =>
    obtain ⟨c', hc', hnext⟩ := (Instruction.exec_step h).config_next hc
    rw [State.overseer, State.overseer, hc, hc', Option.map_some, Option.map_some]
    rcases hnext with hoffice | hgoverned
    · exact congrArg some (congrArg Office.complianceAuthority hoffice)
    · obtain ⟨_, j, hcall, hgoverns⟩ := hgoverned.of_mint
      cases hcall
      by_cases hsame : c'.complianceAuthority = c.complianceAuthority
      · rw [hsame]
      · obtain ⟨b, rfl, -⟩ := hgoverns.compliance hsame
        exact absurd hgoverns.accepts_mint (haccept _ rfl)
  | none =>
    have hc' : s'.configs (.stablecoinConfig M) = none := by
      by_cases hi : ∃ b p, i = .initializeStablecoin b p
      · obtain ⟨b, p, rfl⟩ := hi
        have hne : Pubkey.stablecoinConfig M ≠ .stablecoinConfig b.mint.key := by
          intro heq
          cases heq
          exact hinit b p rfl rfl
        rw [(initializeHandler_fresh h).2.1, put_of_ne _ _ hne, hc]
      · exact Instruction.config_none (fun b p heq => hi ⟨b, p, heq⟩) h hc
    rw [State.overseer, State.overseer, hc, hc']

/-- The one who accepts becomes the compliance authority. -/
theorem acceptComplianceAuthority_overseer {b : AcceptRole}
    (h : acceptComplianceAuthorityHandler s b = .ok s') :
    s'.overseer b.mint = some b.pending.key := by
  simp [acceptComplianceAuthorityHandler] at h
  obtain ⟨c, -, -, hsigned, -, -, rfl⟩ := h
  simp [State.overseer, hsigned]

theorem initializeExtraAccountMetaList_lister {b : AuthorityAndMint}
    (h : initializeExtraAccountMetaListHandler s b = .ok s') :
    s'.lister b.mint = some b.authority.key ∧ s'.configs = s.configs := by
  simp [initializeExtraAccountMetaListHandler] at h
  obtain ⟨-, -, rfl⟩ := h
  exact ⟨by simp [State.lister], rfl⟩

theorem exec_copiesStep (h : a.exec rt s = .ok s') : CopiesStep M s a s' := by
  cases a with
  | world o =>
    obtain ⟨t, p, q, d, rfl⟩ := World.exec_outside h
    exact .same rfl rfl id
  | call clock i =>
    change i.exec rt clock s = .ok s' at h
    by_cases haccept : ∃ b, i = .acceptComplianceAuthority b ∧ b.mint = M
    · obtain ⟨b, rfl, rfl⟩ := haccept
      exact .overseer (exec_lister h (fun _ heq => nomatch heq))
        (acceptComplianceAuthority_overseer h) (and_iff_right rfl)
    by_cases hinit : ∃ b p, i = .initializeStablecoin b p ∧ b.mint.key = M
    · obtain ⟨b, p, rfl, rfl⟩ := hinit
      have hfresh : s'.overseer b.mint.key = some b.payer.key := by
        rw [State.overseer, (initializeHandler_fresh h).2.1, put_self]
        rfl
      exact .overseer (exec_lister h (fun _ heq => nomatch heq)) hfresh (and_iff_right rfl)
    by_cases hlist : ∃ b, i = .initializeExtraAccountMetaList b ∧ b.mint = M
    · obtain ⟨b, rfl, rfl⟩ := hlist
      obtain ⟨hlister, hconfigs⟩ := initializeExtraAccountMetaList_lister h
      have hoverseer : s'.overseer b.mint = s.overseer b.mint := by
        rw [State.overseer, hconfigs, State.overseer]
      exact .lister hlister hoverseer (and_iff_right rfl) b.authority.canSign
    refine .same (exec_lister h fun b heq hb => hlist ⟨b, heq, hb⟩)
      (exec_overseer h (fun b heq hb => haccept ⟨b, heq, hb⟩)
        fun b p heq hb => hinit ⟨b, p, heq, hb⟩) fun hsplits => ?_
    cases i
    case acceptComplianceAuthority b => exact haccept ⟨b, rfl, hsplits.1⟩
    case initializeStablecoin b p => exact hinit ⟨b, p, rfl, hsplits.1⟩
    case initializeExtraAccountMetaList b => exact hlist ⟨b, rfl, hsplits.1⟩
    all_goals exact hsplits

/-! ## Runs -/

/-- The list is written by a key that can sign. -/
def State.ListerSigns (s : State) (M : Pubkey) : Prop := ∀ k ∈ s.lister M, k.canSign = true

theorem CopiesStep.listerSigns (h : CopiesStep M s a s') (hs : s.ListerSigns M) :
    s'.ListerSigns M := by
  cases h with
  | same hl => rwa [State.ListerSigns, hl]
  | overseer hl => rwa [State.ListerSigns, hl]
  | lister hl _ _ hsigns =>
    rw [State.ListerSigns, hl]
    intro k hk
    cases hk
    exact hsigns

/-- Where there is a list and a config, the compliance authority of the config controls the list. -/
def State.FollowsCompliance (rt : Runtime) (M : Pubkey) (s : State) : Prop :=
  ∀ clock c bl, s.configs (.stablecoinConfig M) = some c →
    s.blacklistStates (.hook .blacklistState M) = some bl →
      Controls rt clock s M bl c.complianceAuthority

theorem followsCompliance_iff (hs : s.ListerSigns M) :
    s.FollowsCompliance rt M ↔ s.Agreed M := by
  constructor
  · intro h k hk k' hk'
    obtain ⟨bl, hbl, rfl⟩ := Option.map_eq_some_iff.mp hk
    obtain ⟨c, hc, rfl⟩ := Option.map_eq_some_iff.mp hk'
    exact (controls_iff hbl (hs _ hk)).mp
      (h { slot := 0, epoch := 0, unixTimestamp := 0 } c bl hc hbl)
  · intro h clock c bl hc hbl
    have hlister : s.lister M = some bl.authority := by rw [State.lister, hbl, Option.map_some]
    have hoverseer : s.overseer M = some c.complianceAuthority := by
      rw [State.overseer, hc, Option.map_some]
    exact (controls_iff hbl (hs _ hlister)).mpr (h _ hlister _ hoverseer)

/-- Along a run that begins without a list, the current compliance authority controls the list at
every moment exactly if no step splits the two copies. -/
theorem compliance_control (rt : Runtime) (M : Pubkey) {s : State}
    (hs : s.blacklistStates (.hook .blacklistState M) = none) (as : List Action) :
    (∀ init tail, as = init ++ tail → (run rt s init).FollowsCompliance rt M) ↔
      Along (Action.exec rt) (fun s a => (a.exec rt s).isOk → ¬ Splits M s a) s as := by
  have hnone {k : Pubkey} (hk : k ∈ s.lister M) : False := by
    rw [State.lister, hs] at hk
    cases hk
  have hsigns : s.ListerSigns M := fun k hk => (hnone hk).elim
  have hfollows : s.FollowsCompliance rt M :=
    (followsCompliance_iff hsigns).mpr fun k hk => (hnone hk).elim
  refine forall_prefix_iff_along (J := fun s => s.ListerSigns M) (fun hsigns hexec =>
    (exec_copiesStep hexec).listerSigns hsigns) (fun hsigns hfollows hexec => ?_) hsigns hfollows as
  have hstep := exec_copiesStep (M := M) hexec
  rw [followsCompliance_iff (hstep.listerSigns hsigns)]
  exact hstep.agreed_iff ((followsCompliance_iff hsigns).mp hfollows)

namespace Market

/-- The authority, which made the list, hands compliance over to the user. -/
def handedOver : List Action :=
  compliant 0 ++
    [ .call (day 1) (.proposeTimelockedOp asAuthority adminOpTransferComplianceAuthority 0
        user.key),
      .call (day 3) (.executeTimelockedOp asAuthority),
      .call (day 3) (.acceptComplianceAuthority { pending := user, mint := mint.key }) ]

/-- Compliance is handed over before there is a list. The new compliance authority makes it, and
another user who is to follow does not accept. -/
def united : List Action :=
  (compliant 0).take 1 ++
    [ .call (day 1) (.proposeTimelockedOp asAuthority adminOpTransferComplianceAuthority 0
        user.key),
      .call (day 3) (.executeTimelockedOp asAuthority),
      .call (day 3) (.acceptComplianceAuthority { pending := user, mint := mint.key }),
      .call (day 3) (.initializeExtraAccountMetaList { authority := user, mint := mint.key }),
      .call (day 4) (.proposeTimelockedOp asAuthority adminOpTransferComplianceAuthority 0
        other.key),
      .call (day 6) (.executeTimelockedOp asAuthority) ]

end Market

open Market in
theorem compliance_control_united :
    Genesis genesis ∧
    (run localRuntime genesis united).overseer mint.key = some user.key ∧
    (run localRuntime genesis united).lister mint.key = some user.key ∧
    ∀ init tail, united = init ++ tail →
      (run localRuntime genesis init).FollowsCompliance localRuntime mint.key := by
  have hlister : (run localRuntime genesis (united.take 3)).lister mint.key = none := by
    decide +kernel
  have hoverseer : (run localRuntime genesis (united.take 4)).overseer mint.key =
      some user.key := by decide +kernel
  refine ⟨genesis_genesis, by decide +kernel, by decide +kernel,
    (compliance_control localRuntime mint.key rfl united).mpr
      ⟨fun _ h => ?_, fun _ => id, fun _ => id, fun _ h => ?_, fun _ h => ?_, fun _ => id,
        fun _ => id, trivial⟩⟩
  · obtain ⟨-, k, hk, -⟩ := h
    cases hk
  · obtain ⟨-, k, hk, -⟩ := h
    cases hlister.symm.trans hk
  · obtain ⟨-, k, hk, hne⟩ := h
    cases hoverseer.symm.trans hk
    exact hne rfl

open Market in
/-- The list stays with the old compliance authority, and the new one may not write it. -/
theorem compliance_left_behind :
    Genesis genesis ∧
    ¬ (∀ init tail, handedOver = init ++ tail →
      (run localRuntime genesis init).FollowsCompliance localRuntime mint.key) ∧
    (run localRuntime genesis handedOver).overseer mint.key = some user.key ∧
    (blacklistRemoveHandler (run localRuntime genesis handedOver) asAuthority other.key).isOk =
      true ∧
    (blacklistAddHandler (run localRuntime genesis handedOver)
      { authority := user, mint := mint.key } other.key).isOk = false ∧
    (blacklistAddAndFreezeHandler localRuntime (run localRuntime genesis handedOver)
      { complianceAuthority := user, mint := mint.key, targetTokenAccount := otherStable.key }
      (.hook .blacklistState mint.key) .transferHookProgram).isOk = false := by
  have hoverseer : (run localRuntime genesis handedOver).overseer mint.key = some user.key := by
    decide +kernel
  have hold : (blacklistRemoveHandler (run localRuntime genesis handedOver) asAuthority
      other.key).isOk = true := by decide +kernel
  refine ⟨genesis_genesis, fun h => ?_, hoverseer, hold, by decide +kernel, by decide +kernel⟩
  obtain ⟨c, hc, hcompliance⟩ := Option.map_eq_some_iff.mp hoverseer
  have hlist : ((run localRuntime genesis handedOver).blacklistStates
      (.hook .blacklistState mint.key)).isSome = true := by decide +kernel
  obtain ⟨bl, hbl⟩ := Option.isSome_iff_exists.mp hlist
  have hcontrols := h handedOver [] (List.append_nil _).symm (day 3) c bl hc hbl
  have hsame : authority.key = c.complianceAuthority :=
    hcontrols.only (.blacklistRemove asAuthority other.key) _ ⟨rfl, rfl⟩ hold
  rw [hcompliance] at hsame
  exact absurd hsame (by decide)

end SolanaStablecoin
