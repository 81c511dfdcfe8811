import SolanaStablecoin.Base.Ballot
import SolanaStablecoin.Program.Token2022
import SolanaStablecoin.Verify.Standing

/-! The guardians of a stablecoin: whose votes a pause takes, and whose its lift. -/

namespace SolanaStablecoin

open Transition

variable {rt : Runtime} {clock : Clock} {s s' : State} {a : Action} {i : Instruction}
  {c c' : StablecoinConfig} {M g : Pubkey} {gc gc' : GuardianConfig} {p : PauseProposal}
  {id : UInt64}

/-- The guardians of a stablecoin. -/
def State.guardians (s : State) (M : Pubkey) : Option GuardianConfig :=
  s.guardianConfigs (.guardianConfig (.stablecoinConfig M))

/-- A proposal of theirs. -/
def State.pauseProposal (s : State) (M : Pubkey) (id : UInt64) : Option PauseProposal :=
  s.pauseProposals (.pauseProposal (.stablecoinConfig M) id)

/-- A pause takes the votes of as many guardians as the threshold says. -/
def GuardianConfig.rules (gc : GuardianConfig) : Ballot.Rules Pubkey UInt8 :=
  { member := (· ∈ gc.guardians), charter := (· = gc.threshold), quorum := UInt8.toNat }

def PauseProposal.motion (p : PauseProposal) : Ballot.Motion Pubkey UInt8 :=
  { terms := p.threshold, votes := p.votes, passed := p.executed }

/-- What is seen of guardians: what happens to their proposals, and the votes to lift a pause,
until all of them lift it. -/
inductive GuardianEvent where
  | ballot (id : UInt64) (e : Ballot.Event Pubkey UInt8)
  | liftVoted (g : Pubkey)
  | lifted
deriving DecidableEq

/-- What a pause of the guardians sets, and their lift of it clears. -/
structure PauseStatus where
  paused : Bool
  guardianPauseActive : Bool
  guardianPauseUnlocksAt : Int64
deriving DecidableEq

def GuardianConfig.pauseStatus (gc : GuardianConfig) (c : StablecoinConfig) : PauseStatus :=
  { paused := c.paused
    guardianPauseActive := gc.guardianPauseActive
    guardianPauseUnlocksAt := gc.guardianPauseUnlocksAt }

/-- Whether a stablecoin that has guardians is paused, and whether by them. -/
def State.pauseStatus (s : State) (M : Pubkey) : Option PauseStatus :=
  match s.configs (.stablecoinConfig M), s.guardians M with
  | some c, some gc => some (gc.pauseStatus c)
  | _, _ => none

/-- The guardians' own pause is on. -/
def State.guardianPauseActive (s : State) (M : Pubkey) : Bool :=
  (s.guardians M).any (·.guardianPauseActive)

/-- A call for a proposal pauses: the stablecoin shows another status than before, or the proposal
counts as executed now. -/
def passes (M : Pubkey) (id : UInt64) (s s' : State) : List GuardianEvent :=
  if s'.pauseStatus M ≠ s.pauseStatus M ∨
      (s'.pauseProposal M id).any (·.executed) ≠ (s.pauseProposal M id).any (·.executed) then
    [.ballot id (.passed ((s'.pauseProposal M id).elim 0 (·.threshold)))]
  else []

/-- What is seen of the guardians of `M` when an instruction takes one state to the next. -/
def Instruction.guardianEvents (M : Pubkey) (s s' : State) : Instruction → List GuardianEvent
  | guardianProposePause a _ =>
    match s.guardians M with
    | some gc =>
      if a.mint = M then
        .ballot gc.nextProposalId (.moved gc.threshold) ::
          .ballot gc.nextProposalId (.voted a.caller.key) :: passes M gc.nextProposalId s s'
      else []
    | none => []
  | guardianVotePause a id =>
    if a.mint = M then .ballot id (.voted a.caller.key) :: passes M id s s' else []
  | guardianLiftPause a =>
    match s.guardians M, s'.guardians M with
    | some gc, some gc' =>
      if a.mint = M ∧ a.caller.key ∈ gc.guardians then
        .liftVoted a.caller.key ::
          if s'.pauseStatus M ≠ s.pauseStatus M ∨ gc'.pendingLiftVotes = [] then [.lifted] else []
      else []
    | _, _ => []
  | _ => []

def guardianEvents (rt : Runtime) (M : Pubkey) (s : State) (a : Action) : List GuardianEvent :=
  match a with
  | .call _ i => i.guardianEvents M s (next (Action.exec rt) s a)
  | .world _ => []

/-! ## Steps -/

/-- The vote that meets the threshold begins a pause, for which nobody has voted to lift it. -/
structure Renews (gc gc' : GuardianConfig) (reached : Bool) : Prop where
  guardians : gc'.guardians = gc.guardians
  threshold : gc'.threshold = gc.threshold
  pendingLiftVotes : gc'.pendingLiftVotes = if reached then [] else gc.pendingLiftVotes

/-- The vote that meets the threshold pauses the stablecoin; any other leaves its status. -/
inductive Pauses (M : Pubkey) (s s' : State) (gc gc' : GuardianConfig) : Bool → Prop where
  | begun (active : gc'.guardianPauseActive = true)
    (status : s'.pauseStatus M = some
      { paused := true
        guardianPauseActive := true
        guardianPauseUnlocksAt := gc'.guardianPauseUnlocksAt }) : Pauses M s s' gc gc' true
  | waits (active : gc'.guardianPauseActive = gc.guardianPauseActive)
    (status : s'.pauseStatus M = s.pauseStatus M) : Pauses M s s' gc gc' false

/-- The pause is over. -/
structure Ends (M : Pubkey) (s' : State) (gc' : GuardianConfig) : Prop where
  active : gc'.guardianPauseActive = false
  status : s'.pauseStatus M = some
    { paused := false, guardianPauseActive := false, guardianPauseUnlocksAt := 0 }

/-- What a successful transaction does to the guardians of `M`, and what is seen of it. -/
inductive GuardianStep (M : Pubkey) (s s' : State) : List GuardianEvent → Prop where
  | other (guardians : s'.guardians M = s.guardians M)
    (proposals : s'.pauseProposal M = s.pauseProposal M) : GuardianStep M s s' []
  | founded {gc : GuardianConfig} (free : s.guardians M = none)
    (registered : s'.guardians M = some gc)
    (clear : gc.pendingLiftVotes = []) (active : gc.guardianPauseActive = false)
    (proposals : s'.pauseProposal M = s.pauseProposal M) : GuardianStep M s s' []
  | proposed {gc gc' : GuardianConfig} {p : PauseProposal} {id : UInt64} {g : Pubkey}
    (stored : s.guardians M = some gc) (registered : s'.guardians M = some gc')
    (member : g ∈ gc.guardians) (free : s.pauseProposal M id = none)
    (proposals : s'.pauseProposal M = Function.update (s.pauseProposal M) id (some p))
    (threshold : p.threshold = gc.threshold) (votes : p.votes = [g])
    (reached : p.executed = decide (gc.threshold = 1)) (renews : Renews gc gc' p.executed)
    (pauses : Pauses M s s' gc gc' p.executed) :
    GuardianStep M s s' (.ballot id (.moved p.threshold) :: .ballot id (.voted g) ::
      if p.executed then [.ballot id (.passed p.threshold)] else [])
  | voted {gc gc' : GuardianConfig} {p p' : PauseProposal} {id : UInt64} {g : Pubkey}
    (stored : s.guardians M = some gc) (registered : s'.guardians M = some gc')
    (member : g ∈ gc.guardians) (proposal : s.pauseProposal M id = some p)
    (live : p.executed = false) (fresh : g ∉ p.votes)
    (proposals : s'.pauseProposal M = Function.update (s.pauseProposal M) id (some p'))
    (threshold : p'.threshold = p.threshold) (votes : p'.votes = p.votes ++ [g])
    (reached : p'.executed = decide (gc.threshold ≤ UInt8.ofNat p'.votes.length))
    (renews : Renews gc gc' p'.executed) (pauses : Pauses M s s' gc gc' p'.executed) :
    GuardianStep M s s' (.ballot id (.voted g) ::
      if p'.executed then [.ballot id (.passed p'.threshold)] else [])
  | liftVoted {gc : GuardianConfig} {g : Pubkey} (stored : s.guardians M = some gc)
    (member : g ∈ gc.guardians) (fresh : g ∉ gc.pendingLiftVotes)
    (registered : s'.guardians M =
      some { gc with pendingLiftVotes := gc.pendingLiftVotes ++ [g] })
    (proposals : s'.pauseProposal M = s.pauseProposal M) : GuardianStep M s s' [.liftVoted g]
  | lifted {gc gc' : GuardianConfig} {g : Pubkey} (stored : s.guardians M = some gc)
    (member : g ∈ gc.guardians) (fresh : g ∉ gc.pendingLiftVotes)
    (full : gc.guardians.length ≤ (gc.pendingLiftVotes ++ [g]).length)
    (registered : s'.guardians M = some gc') (renews : Renews gc gc' true)
    (ends : Ends M s' gc') (proposals : s'.pauseProposal M = s.pauseProposal M) :
    GuardianStep M s s' [.liftVoted g, .lifted]
  | overridden {gc gc' : GuardianConfig} (stored : s.guardians M = some gc)
    (registered : s'.guardians M = some gc') (renews : Renews gc gc' true)
    (active : gc'.guardianPauseActive = false)
    (proposals : s'.pauseProposal M = s.pauseProposal M) : GuardianStep M s s' []

theorem State.guardians_put {mint : Pubkey}
    (h : s'.guardianConfigs = put s.guardianConfigs (.guardianConfig (.stablecoinConfig mint)) gc) :
    s'.guardians M = if mint = M then some gc else s.guardians M := by
  rw [State.guardians, State.guardians, h]
  refine put_eq_ite _ _ ⟨fun heq => ?_, fun hM => by rw [hM]⟩
  cases heq
  rfl

theorem State.pauseProposal_put
    (h : s'.pauseProposals = put s.pauseProposals (.pauseProposal (.stablecoinConfig M) id) p) :
    s'.pauseProposal M = Function.update (s.pauseProposal M) id (some p) := by
  funext j
  rw [State.pauseProposal, h]
  by_cases hj : j = id
  · rw [hj, put_self, Function.update_self]
  · rw [Function.update_of_ne hj, put_of_ne]
    · rfl
    intro heq
    cases heq
    exact hj rfl

theorem State.pauseProposal_put_of_ne {mint : Pubkey} (hM : mint ≠ M)
    (h : s'.pauseProposals = put s.pauseProposals (.pauseProposal (.stablecoinConfig mint) id) p) :
    s'.pauseProposal M = s.pauseProposal M := by
  funext j
  rw [State.pauseProposal, h, put_of_ne]
  · rfl
  intro heq
  cases heq
  exact hM rfl

theorem State.pauseStatus_eq (hc : s.configs (.stablecoinConfig M) = some c)
    (hgc : s.guardians M = some gc) : s.pauseStatus M = some (gc.pauseStatus c) := by
  rw [State.pauseStatus, hc, hgc]

theorem State.guardianPauseActive_eq (hgc : s.guardians M = some gc) :
    s.guardianPauseActive M = gc.guardianPauseActive := by
  rw [State.guardianPauseActive, hgc]
  rfl

theorem passes_eq (h' : s'.pauseProposal M id = some p)
    (h : (s.pauseProposal M id).any (·.executed) = false)
    (hpauses : Pauses M s s' gc gc' p.executed) :
    passes M id s s' = if p.executed then [.ballot id (.passed p.threshold)] else [] := by
  have hexecuted : (s'.pauseProposal M id).any (·.executed) = p.executed := by rw [h']; rfl
  have hthreshold : (s'.pauseProposal M id).elim 0 (·.threshold) = p.threshold := by rw [h']; rfl
  rw [passes, hthreshold, hexecuted, h]
  generalize p.executed = executed at hpauses
  cases hpauses with
  | begun => rw [if_pos (.inr Bool.true_eq_false_eq_False), if_pos rfl]
  | waits _ status => rw [if_neg (by simp [status]), if_neg Bool.false_ne_true]

theorem Pauses.of_status {reached : Bool} (hc : s.configs (.stablecoinConfig M) = some c)
    (hgc : s.guardians M = some gc) (hc' : s'.configs (.stablecoinConfig M) = some c')
    (hgc' : s'.guardians M = some gc')
    (h : gc'.pauseStatus c' =
      if reached then { gc'.pauseStatus c' with paused := true, guardianPauseActive := true }
      else gc.pauseStatus c) :
    Pauses M s s' gc gc' reached := by
  cases reached with
  | true =>
    rw [if_pos rfl] at h
    exact .begun (congrArg PauseStatus.guardianPauseActive h)
      ((State.pauseStatus_eq hc' hgc').trans (congrArg some h))
  | false =>
    rw [if_neg Bool.false_ne_true] at h
    refine .waits (congrArg PauseStatus.guardianPauseActive h) ?_
    rw [State.pauseStatus_eq hc' hgc', State.pauseStatus_eq hc hgc, h]

/-- What is recorded with a vote. -/
theorem CallerAndMint.recordVote_renews {a : CallerAndMint} {reached : Bool}
    (hc : s.configs a.config = some c) (h : a.recordVote clock s c gc p reached = .ok s') :
    ∃ c' gc', s'.configs a.config = some c' ∧
      s'.guardianConfigs = put s.guardianConfigs (.guardianConfig a.config) gc' ∧
      s'.pauseProposals = put s.pauseProposals (.pauseProposal a.config p.proposalId)
        { p with executed := reached || p.executed } ∧ Renews gc gc' reached ∧
      gc'.pauseStatus c' =
        if reached then { gc'.pauseStatus c' with paused := true, guardianPauseActive := true }
        else gc.pauseStatus c := by
  cases reached with
  | true =>
    simp only [recordVote, GuardianConfig.beginPause, if_true, bind_eq_ok, pure_eq_ok] at h
    obtain ⟨_, ⟨x, -, rfl⟩, rfl⟩ := h
    exact ⟨_, _, put_self .., rfl, rfl, ⟨rfl, rfl, rfl⟩, rfl⟩
  | false =>
    simp only [recordVote, Bool.false_eq_true, if_false, pure_eq_ok] at h
    subst h
    exact ⟨c, gc, hc, rfl, rfl, ⟨rfl, rfl, rfl⟩, rfl⟩

theorem guardianProposePauseHandler_step {a : CallerAndMint} {reason : BitVec 256}
    (h : guardianProposePauseHandler clock s a reason = .ok s') :
    GuardianStep M s s' ((Instruction.guardianProposePause a reason).guardianEvents M s s') := by
  simp only [guardianProposePauseHandler, bind_eq_ok, CallerAndMint.loadGuardians_eq_ok,
    loadConfigOfMint_eq_ok, requireFree_eq_ok, require_eq_ok] at h
  obtain ⟨⟨c, gc⟩, ⟨⟨hc, -⟩, hgc⟩, -, hfree, -, hmember, x, -, h⟩ := h
  obtain ⟨c', gc', hc', hput, hproposals, hrenews, hstatus⟩ :=
    CallerAndMint.recordVote_renews hc h
  rw [Bool.or_false] at hproposals
  by_cases hM : a.mint = M
  · subst hM
    have hstored : s.guardians a.mint = some gc := hgc
    have hupdate := State.pauseProposal_put hproposals
    have hnew := congrFun hupdate gc.nextProposalId
    rw [Function.update_self] at hnew
    have hnone : s.pauseProposal a.mint gc.nextProposalId = none := hfree
    have hstored' := (State.guardians_put hput).trans (if_pos rfl)
    have hpauses : Pauses a.mint s s' gc gc' (decide (gc.threshold = 1)) :=
      .of_status hc hstored hc' hstored' hstatus
    rw [Instruction.guardianEvents, hstored]
    dsimp only
    rw [if_pos rfl, passes_eq hnew (by rw [hnone]; rfl) hpauses]
    exact .proposed hstored hstored' hmember hnone hupdate rfl rfl rfl
      ⟨hrenews.guardians, hrenews.threshold, hrenews.pendingLiftVotes⟩ hpauses
  · have hevents : (Instruction.guardianProposePause a reason).guardianEvents M s s' = [] := by
      rw [Instruction.guardianEvents]
      cases s.guardians M with
      | none => rfl
      | some gc => exact if_neg hM
    rw [hevents]
    exact .other ((State.guardians_put hput).trans (if_neg hM))
      (State.pauseProposal_put_of_ne hM hproposals)

theorem guardianVotePauseHandler_step {a : CallerAndMint}
    (h : guardianVotePauseHandler clock s a id = .ok s') :
    GuardianStep M s s' ((Instruction.guardianVotePause a id).guardianEvents M s s') := by
  simp only [guardianVotePauseHandler, bind_eq_ok, CallerAndMint.loadGuardians_eq_ok,
    loadConfigOfMint_eq_ok, load_eq_ok, require_eq_ok] at h
  obtain ⟨⟨c, gc⟩, ⟨⟨hc, -⟩, hgc⟩, p, hp, -, hlive, -, hmember, -, hid, -, hfresh, h⟩ := h
  obtain ⟨c', gc', hc', hput, hproposals, hrenews, hstatus⟩ :=
    CallerAndMint.recordVote_renews hc h
  rw [hlive, Bool.or_false, hid] at hproposals
  by_cases hM : a.mint = M
  · subst hM
    have hupdate := State.pauseProposal_put hproposals
    have hnew := congrFun hupdate id
    rw [Function.update_self] at hnew
    have hold : s.pauseProposal a.mint id = some p := hp
    have hstored' := (State.guardians_put hput).trans (if_pos rfl)
    have hpauses := Pauses.of_status hc hgc hc' hstored' hstatus
    rw [Instruction.guardianEvents, if_pos rfl,
      passes_eq hnew (by rw [hold]; exact hlive) hpauses]
    exact .voted hgc hstored' hmember hold hlive hfresh hupdate rfl rfl rfl hrenews hpauses
  · rw [Instruction.guardianEvents, if_neg hM]
    exact .other ((State.guardians_put hput).trans (if_neg hM))
      (State.pauseProposal_put_of_ne hM hproposals)

/-- How a call moves towards lifting a pause: a guardian's vote counts, all guardians lift it, or
the authority does, who has to wait while the guardians' own pause is on. -/
inductive LiftsPause (clock : Clock) (s : State) (a : CallerAndMint) (c : StablecoinConfig)
    (gc : GuardianConfig) : GuardianConfig → State → Prop where
  | vote {s' : State} (member : a.caller.key ∈ gc.guardians)
    (fresh : a.caller.key ∉ gc.pendingLiftVotes) (configs : s'.configs = s.configs) :
    LiftsPause clock s a c gc
      { gc with pendingLiftVotes := gc.pendingLiftVotes ++ [a.caller.key] } s'
  | all {gc' : GuardianConfig} {s' : State} (member : a.caller.key ∈ gc.guardians)
    (fresh : a.caller.key ∉ gc.pendingLiftVotes)
    (full : gc.guardians.length ≤ (gc.pendingLiftVotes ++ [a.caller.key]).length)
    (renews : Renews gc gc' true)
    (cleared : gc'.guardianPauseActive = false ∧ gc'.guardianPauseUnlocksAt = 0)
    (configs : s'.configs = put s.configs a.config { c with paused := false }) :
    LiftsPause clock s a c gc gc' s'
  | authority {gc' : GuardianConfig} {s' : State} (member : a.caller.key ∉ gc.guardians)
    (signed : c.authority = a.caller.key)
    (unlocked : gc.guardianPauseActive = true → gc.guardianPauseUnlocksAt ≤ clock.unixTimestamp)
    (renews : Renews gc gc' true) (cleared : gc'.guardianPauseActive = false)
    (configs : s'.configs = put s.configs a.config { c with paused := false }) :
    LiftsPause clock s a c gc gc' s'

theorem guardianLiftPauseHandler_lifts {a : CallerAndMint}
    (h : guardianLiftPauseHandler clock s a = .ok s') :
    ∃ c gc gc', s.configs a.config = some c ∧
      s.guardianConfigs (.guardianConfig a.config) = some gc ∧
      s'.guardianConfigs = put s.guardianConfigs (.guardianConfig a.config) gc' ∧
      s'.pauseProposals = s.pauseProposals ∧ LiftsPause clock s a c gc gc' s' := by
  simp only [guardianLiftPauseHandler, bind_eq_ok, CallerAndMint.loadGuardians_eq_ok,
    loadConfigOfMint_eq_ok] at h
  obtain ⟨⟨c, gc⟩, ⟨⟨hc, -⟩, hgc⟩, h⟩ := h
  refine ite_ok_cases (fun hmember h => ?_) (fun hmember h => ?_) h
  · rw [bind_eq_ok] at h
    obtain ⟨_, hfresh, h⟩ := h
    have hfresh := require_eq_ok.mp hfresh
    refine ite_ok_cases (fun hfull h => ?_) (fun _ h => ?_) h
    · obtain rfl := pure_eq_ok.mp h
      exact ⟨c, gc, _, hc, hgc, rfl, rfl,
        .all hmember hfresh hfull ⟨rfl, rfl, rfl⟩ ⟨rfl, rfl⟩ rfl⟩
    · obtain rfl := pure_eq_ok.mp h
      exact ⟨c, gc, _, hc, hgc, rfl, rfl, .vote hmember hfresh rfl⟩
  · simp only [bind_eq_ok, require_eq_ok, requireWhen_eq_ok, pure_eq_ok] at h
    obtain ⟨-, hsigned, -, -, -, hunlocked, rfl⟩ := h
    exact ⟨c, gc, _, hc, hgc, rfl, rfl,
      .authority hmember hsigned hunlocked ⟨rfl, rfl, rfl⟩ rfl rfl⟩

theorem guardianLiftPauseHandler_step {a : CallerAndMint}
    (h : guardianLiftPauseHandler clock s a = .ok s') :
    GuardianStep M s s' ((Instruction.guardianLiftPause a).guardianEvents M s s') := by
  obtain ⟨c, gc, gc', hc, hgc, hput, hproposals, hlifts⟩ := guardianLiftPauseHandler_lifts h
  have hproposals : s'.pauseProposal M = s.pauseProposal M := by
    unfold State.pauseProposal
    rw [hproposals]
  by_cases hM : a.mint = M
  · subst hM
    have hnew := (State.guardians_put hput).trans (if_pos rfl)
    have hstored : s.guardians a.mint = some gc := hgc
    rw [Instruction.guardianEvents, hstored, hnew]
    dsimp only
    cases hlifts with
    | vote member fresh configs =>
      have hstatus : s'.pauseStatus a.mint = s.pauseStatus a.mint := by
        rw [State.pauseStatus_eq ((congrFun configs _).trans hc) hnew,
          State.pauseStatus_eq hc hstored]
        rfl
      rw [if_pos ⟨rfl, member⟩, if_neg (by simp [hstatus])]
      exact .liftVoted hstored member fresh hnew hproposals
    | all member fresh full renews cleared configs =>
      have hclear : gc'.pendingLiftVotes = [] := renews.pendingLiftVotes
      have hends : Ends a.mint s' gc' := by
        have hconfig := (congrFun configs (.stablecoinConfig a.mint)).trans (put_self ..)
        refine ⟨cleared.1, (State.pauseStatus_eq hconfig hnew).trans ?_⟩
        rw [GuardianConfig.pauseStatus, cleared.1, cleared.2]
      rw [if_pos ⟨rfl, member⟩, if_pos (.inr hclear)]
      exact .lifted hstored member fresh full hnew renews hends hproposals
    | authority member _ _ renews cleared _ =>
      rw [if_neg fun h => member h.2]
      exact .overridden hstored hnew renews cleared hproposals
  · have hsame := (State.guardians_put hput).trans (if_neg hM)
    have hevents : (Instruction.guardianLiftPause a).guardianEvents M s s' = [] := by
      rw [Instruction.guardianEvents, hsame]
      cases s.guardians M with
      | none => rfl
      | some gc => exact if_neg fun h => hM h.1
    rw [hevents]
    exact .other hsame hproposals

theorem initGuardianConfigHandler_step {a : AuthorityAndMint} {guardians : List Pubkey}
    {threshold : UInt8} (h : initGuardianConfigHandler s a guardians threshold = .ok s') :
    GuardianStep M s s' [] := by
  simp only [initGuardianConfigHandler, bind_eq_ok, requireFree_eq_ok, require_eq_ok,
    pure_eq_ok] at h
  obtain ⟨c, -, _, hfree, -, -, -, -, -, -, -, -, -, -, -, -, rfl⟩ := h
  by_cases hM : a.mint = M
  · subst hM
    exact .founded hfree ((State.guardians_put rfl).trans (if_pos rfl)) rfl rfl rfl
  · exact .other ((State.guardians_put rfl).trans (if_neg hM)) rfl

theorem GuardianStep.of_councils (hg : s'.guardianConfigs = s.guardianConfigs)
    (hp : s'.pauseProposals = s.pauseProposals) : GuardianStep M s s' [] := by
  refine .other ?_ ?_
  · rw [State.guardians, hg, State.guardians]
  · unfold State.pauseProposal
    rw [hp]

theorem Instruction.guardianEvents_eq_nil (hi : i.guards = false) :
    i.guardianEvents M s s' = [] := by
  cases i with
  | guardianProposePause | guardianVotePause | guardianLiftPause => cases hi
  | _ => rfl

theorem Instruction.exec_guardianStep (h : i.exec rt clock s = .ok s') :
    GuardianStep M s s' (i.guardianEvents M s s') := by
  cases hi : i.guards with
  | true =>
    cases i with
    | initGuardianConfig => exact initGuardianConfigHandler_step h
    | guardianProposePause => exact guardianProposePauseHandler_step h
    | guardianVotePause => exact guardianVotePauseHandler_step h
    | guardianLiftPause => exact guardianLiftPauseHandler_step h
    | _ => cases hi
  | false =>
    rw [Instruction.guardianEvents_eq_nil hi]
    cases Instruction.exec_councils h with
    | guarded kind =>
      rw [hi] at kind
      cases kind
    | same h =>
      exact .of_councils (congrArg Councils.guardianConfigs h) (congrArg Councils.pauseProposals h)
    | deliberated _ h | rotated _ h | licensed _ h =>
      exact .of_councils (congrArg Councils.guardianConfigs h) (congrArg Councils.pauseProposals h)

theorem exec_guardianStep (h : a.exec rt s = .ok s') :
    GuardianStep M s s' (guardianEvents rt M s a) := by
  cases a with
  | world w =>
    have hc := (World.exec_settled h).councils
    exact .of_councils (congrArg Councils.guardianConfigs hc) (congrArg Councils.pauseProposals hc)
  | call clock i =>
    rw [guardianEvents, next_of_ok h]
    exact Instruction.exec_guardianStep h

/-- What is seen of a pause and of its lift is what the stablecoin shows, and the guardians' own
pause never begins unseen. -/
structure Announced (M : Pubkey) (s s' : State) (es : List GuardianEvent) : Prop where
  passed : ∀ id t, .ballot id (.passed t) ∈ es → ∃ u, s'.pauseStatus M = some
    { paused := true, guardianPauseActive := true, guardianPauseUnlocksAt := u }
  lifted : .lifted ∈ es → s'.pauseStatus M = some
    { paused := false, guardianPauseActive := false, guardianPauseUnlocksAt := 0 }
  begun : s.guardianPauseActive M = false → s'.guardianPauseActive M = true →
    ∃ id t, .ballot id (.passed t) ∈ es

theorem Announced.silent {es : List GuardianEvent}
    (hactive : s'.guardianPauseActive M = true → s.guardianPauseActive M = true)
    (hpassed : ∀ id t, .ballot id (.passed t) ∉ es) (hlifted : .lifted ∉ es) :
    Announced M s s' es where
  passed id t h := absurd h (hpassed id t)
  lifted h := absurd h hlifted
  begun hs hs' := by
    rw [hactive hs'] at hs
    cases hs

/-- The calls for a proposal: what is seen before it passes says nothing of a pause. -/
theorem Pauses.announced {reached : Bool} {t : UInt8} (es : List GuardianEvent)
    (h : Pauses M s s' gc gc' reached) (stored : s.guardians M = some gc)
    (registered : s'.guardians M = some gc') (hpassed : ∀ id t, .ballot id (.passed t) ∉ es)
    (hlifted : .lifted ∉ es) :
    Announced M s s' (es ++ if reached then [.ballot id (.passed t)] else []) := by
  cases h with
  | begun active status =>
    exact
      { passed := fun _ _ _ => ⟨_, status⟩
        lifted := fun hmem => by simp [hlifted] at hmem
        begun := fun _ _ => ⟨id, t, List.mem_append_right _ List.mem_cons_self⟩ }
  | waits active _ =>
    rw [if_neg Bool.false_ne_true, List.append_nil]
    refine .silent (fun hs' => ?_) hpassed hlifted
    rwa [State.guardianPauseActive_eq stored, ← active,
      ← State.guardianPauseActive_eq registered]

theorem GuardianStep.announced {es : List GuardianEvent} (h : GuardianStep M s s' es) :
    Announced M s s' es := by
  cases h with
  | other guardians =>
    refine .silent (fun hs' => ?_) (fun _ _ => List.not_mem_nil) List.not_mem_nil
    rwa [State.guardianPauseActive, ← guardians]
  | founded _ registered _ active | overridden _ registered _ active =>
    refine .silent (fun hs' => ?_) (fun _ _ => List.not_mem_nil) List.not_mem_nil
    rw [State.guardianPauseActive_eq registered, active] at hs'
    cases hs'
  | proposed stored registered _ _ _ _ _ _ _ pauses =>
    exact pauses.announced [_, _] stored registered (by simp) (by simp)
  | voted stored registered _ _ _ _ _ _ _ _ _ pauses =>
    exact pauses.announced [_] stored registered (by simp) (by simp)
  | liftVoted stored _ _ registered =>
    refine .silent (fun hs' => ?_) (by simp) (by simp)
    rwa [State.guardianPauseActive_eq registered, ← State.guardianPauseActive_eq stored] at hs'
  | lifted _ _ _ _ registered _ ends =>
    exact
      { passed := fun id t hmem => by simp at hmem
        lifted := fun _ => ends.status
        begun := fun _ hs' => by
          rw [State.guardianPauseActive_eq registered, ends.active] at hs'
          cases hs' }

/-! ## Runs -/

/-- What is seen of one proposal. -/
def GuardianEvent.about (id : UInt64) : GuardianEvent → Option (Ballot.Event Pubkey UInt8)
  | .ballot j e => if j = id then some e else none
  | .liftVoted _ | .lifted => none

/-- What is seen of one proposal in a history. -/
def about (id : UInt64) (es : List GuardianEvent) : List (Ballot.Event Pubkey UInt8) :=
  es.filterMap (·.about id)

/-- All guardians have voted since the last pause to lift it. -/
def Unanimous (gc : GuardianConfig) (es : List GuardianEvent) : Prop :=
  ∃ before since, es = before ++ since ∧ (∀ id t, .ballot id (.passed t) ∉ since) ∧
    ∀ g ∈ gc.guardians, .liftVoted g ∈ since

/-- Those who want to lift the pause are guardians, and have voted for it since the last one. -/
structure Pending (gc : GuardianConfig) (es : List GuardianEvent) : Prop where
  nodup : gc.pendingLiftVotes.Nodup
  cast : ∃ before since, es = before ++ since ∧ (∀ id t, .ballot id (.passed t) ∉ since) ∧
    ∀ g ∈ gc.pendingLiftVotes, g ∈ gc.guardians ∧ .liftVoted g ∈ since

/-- What a history of the guardians of `M` comes to. -/
structure Presided (M : Pubkey) (gc : GuardianConfig) (s : State) (es : List GuardianEvent) :
    Prop where
  record : ∀ id, Ballot.Record gc.rules ((s.pauseProposal M id).map (·.motion)) (about id es)
  pending : Pending gc es
  lifted : ∀ earlier later, es = earlier ++ .lifted :: later → Unanimous gc earlier

/-- Before there are guardians, nothing is seen of them. -/
def Guardianship (M : Pubkey) (s : State) (es : List GuardianEvent) : Prop :=
  match s.guardians M with
  | some gc => Presided M gc s es
  | none => (∀ id, s.pauseProposal M id = none) ∧ es = []

section Presided

variable {es new : List GuardianEvent}

theorem Pending.clear (h : gc.pendingLiftVotes = []) : Pending gc es where
  nodup := h ▸ List.nodup_nil
  cast := ⟨es, [], (List.append_nil es).symm, fun _ _ => List.not_mem_nil, fun g hg => by
    rw [h] at hg
    cases hg⟩

theorem Pending.append (h : Pending gc es) (hg : gc'.guardians = gc.guardians)
    (hp : gc'.pendingLiftVotes = gc.pendingLiftVotes)
    (hnew : ∀ id t, .ballot id (.passed t) ∉ new) : Pending gc' (es ++ new) := by
  obtain ⟨before, since, rfl, hpass, hcast⟩ := h.cast
  refine ⟨hp ▸ h.nodup, before, since ++ new, List.append_assoc .., fun id t ht => ?_,
    fun g hv => ?_⟩
  · rcases List.mem_append.mp ht with ht | ht
    · exact hpass id t ht
    · exact hnew id t ht
  · rw [hp] at hv
    rw [hg]
    exact ⟨(hcast g hv).1, List.mem_append_left _ (hcast g hv).2⟩

theorem Pending.vote (h : Pending gc es) (member : g ∈ gc.guardians)
    (fresh : g ∉ gc.pendingLiftVotes) :
    Pending { gc with pendingLiftVotes := gc.pendingLiftVotes ++ [g] }
      (es ++ [.liftVoted g]) := by
  obtain ⟨before, since, rfl, hpass, hcast⟩ := h.cast
  refine ⟨List.nodup_append.mpr ⟨h.nodup, List.nodup_singleton g, fun a ha b hb => ?_⟩, before,
    since ++ [.liftVoted g], List.append_assoc .., fun id t ht => ?_, fun v hv => ?_⟩
  · rintro rfl
    exact fresh (List.mem_singleton.mp hb ▸ ha)
  · rcases List.mem_append.mp ht with ht | ht
    · exact hpass id t ht
    · cases List.mem_singleton.mp ht
  · rcases List.mem_append.mp hv with hv | hv
    · exact ⟨(hcast v hv).1, List.mem_append_left _ (hcast v hv).2⟩
    · obtain rfl := List.mem_singleton.mp hv
      exact ⟨member, List.mem_append_right _ (List.mem_singleton.mpr rfl)⟩

/-- As many different guardians as there are guardians are all of them. -/
theorem Pending.covers (h : Pending gc es)
    (full : gc.guardians.length ≤ gc.pendingLiftVotes.length) :
    ∀ g ∈ gc.guardians, g ∈ gc.pendingLiftVotes := by
  obtain ⟨before, since, -, -, hcast⟩ := h.cast
  have hsub : List.Subperm gc.pendingLiftVotes gc.guardians :=
    List.subperm_of_subset h.nodup fun v hv => (hcast v hv).1
  exact fun g hg => (hsub.perm_of_length_le full).mem_iff.mpr hg

theorem Pending.unanimous (h : Pending gc es)
    (full : gc.guardians.length ≤ gc.pendingLiftVotes.length) : Unanimous gc es := by
  have hall := h.covers full
  obtain ⟨before, since, hes, hpass, hcast⟩ := h.cast
  exact ⟨before, since, hes, hpass, fun g hg => (hcast g (hall g hg)).2⟩

theorem GuardianConfig.rules_congr (hg : gc'.guardians = gc.guardians)
    (ht : gc'.threshold = gc.threshold) : gc'.rules = gc.rules := by
  rw [rules, rules, hg, ht]

theorem Unanimous.congr (h : Unanimous gc es) (hg : gc'.guardians = gc.guardians) :
    Unanimous gc' es := by
  rw [Unanimous, hg]
  exact h

theorem about_append : about id (es ++ new) = about id es ++ about id new :=
  List.filterMap_append

/-- What is seen of a proposal that another one's events leave alone. -/
theorem Presided.elsewhere (h : Presided M gc s es) (hrules : gc'.rules = gc.rules)
    (hp : s'.pauseProposal M id = s.pauseProposal M id) (hnew : about id new = []) :
    Ballot.Record gc'.rules ((s'.pauseProposal M id).map (·.motion)) (about id (es ++ new)) := by
  rw [hp, hrules, about_append, hnew, List.append_nil]
  exact h.record id

/-- Nothing is lifted. -/
theorem Presided.append (h : Presided M gc s es) (hg : gc'.guardians = gc.guardians)
    (hrecord : ∀ id, Ballot.Record gc'.rules ((s'.pauseProposal M id).map (·.motion))
      (about id (es ++ new)))
    (hpending : Pending gc' (es ++ new)) (hnew : .lifted ∉ new) :
    Presided M gc' s' (es ++ new) where
  record := hrecord
  pending := hpending
  lifted earlier later hes := by
    rcases Ballot.append_split hes with ⟨rest, hes⟩ | ⟨mid, -, hlast⟩
    · exact (h.lifted _ _ hes).congr hg
    · refine absurd ?_ hnew
      rw [hlast]
      exact List.mem_append_right _ List.mem_cons_self

/-- All guardians lift the pause. -/
theorem Presided.lift (h : Presided M gc s es) (member : g ∈ gc.guardians)
    (fresh : g ∉ gc.pendingLiftVotes)
    (full : gc.guardians.length ≤ (gc.pendingLiftVotes ++ [g]).length) (hr : Renews gc gc' true)
    (hp : s'.pauseProposal M = s.pauseProposal M) :
    Presided M gc' s' (es ++ [.liftVoted g, .lifted]) where
  record id :=
    h.elsewhere (GuardianConfig.rules_congr hr.guardians hr.threshold) (congrFun hp id) rfl
  pending := .clear hr.pendingLiftVotes
  lifted earlier later hes := by
    rcases Ballot.append_split hes with ⟨rest, hes⟩ | ⟨mid, rfl, hlast⟩
    · exact (h.lifted _ _ hes).congr hr.guardians
    · -- the lift is the last event, and the vote for it the one before
      have hmid : mid = [.liftVoted g] := by
        cases mid with
        | nil => cases hlast
        | cons e mid =>
          obtain ⟨rfl, hlast⟩ := List.cons.inj hlast
          cases mid with
          | nil => rfl
          | cons e mid =>
            obtain ⟨-, hlast⟩ := List.cons.inj hlast
            cases mid <;> cases hlast
      rw [hmid]
      exact ((h.pending.vote member fresh).unanimous full).congr hr.guardians

theorem about_self (e : Ballot.Event Pubkey UInt8) : about id [.ballot id e] = [e] := by
  simp [about, GuardianEvent.about]

theorem about_of_ne {j : UInt64} (hj : id ≠ j) (e : Ballot.Event Pubkey UInt8)
    (es : List GuardianEvent) : about j (.ballot id e :: es) = about j es := by
  simp [about, GuardianEvent.about, hj]

theorem about_cons (e : Ballot.Event Pubkey UInt8) (es : List GuardianEvent) :
    about id (.ballot id e :: es) = e :: about id es := by
  simp [about, GuardianEvent.about]

theorem Renews.pending {reached : Bool} (hr : Renews gc gc' reached) (h : Pending gc es)
    (hnew : reached = false → ∀ id t, .ballot id (.passed t) ∉ new) : Pending gc' (es ++ new) := by
  cases reached with
  | true => exact .clear hr.pendingLiftVotes
  | false => exact h.append hr.guardians hr.pendingLiftVotes (hnew rfl)

/-- A proposal is moved with the vote of its proposer, and passes at once if that is enough. -/
theorem Presided.propose (h : Presided M gc s es) (member : g ∈ gc.guardians)
    (free : s.pauseProposal M id = none)
    (proposals : s'.pauseProposal M = Function.update (s.pauseProposal M) id (some p))
    (threshold : p.threshold = gc.threshold) (votes : p.votes = [g])
    (reached : p.executed = decide (gc.threshold = 1)) (renews : Renews gc gc' p.executed) :
    Presided M gc' s' (es ++ .ballot id (.moved p.threshold) :: .ballot id (.voted g) ::
      if p.executed then [.ballot id (.passed p.threshold)] else []) := by
  have hrules := GuardianConfig.rules_congr renews.guardians renews.threshold
  refine h.append renews.guardians (fun j => ?_) (renews.pending h.pending fun hno j t ht => ?_) ?_
  · by_cases hj : id = j
    · subst hj
      rw [proposals, Function.update_self, hrules, about_append, about_cons, about_cons]
      have hnone := h.record id
      rw [free] at hnone
      have hvoted := hnone.append (.move threshold) (.vote rfl member List.not_mem_nil)
      cases hexecuted : p.executed with
      | false =>
        have hmotion : p.motion = { terms := p.threshold, votes := [g] } := by
          rw [PauseProposal.motion, votes, hexecuted]
        rw [Option.map_some, hmotion]
        exact hvoted
      | true =>
        have hone : gc.threshold = 1 := by
          rw [reached] at hexecuted
          exact of_decide_eq_true hexecuted
        have hmotion : p.motion = { terms := p.threshold, votes := [g], passed := true } := by
          rw [PauseProposal.motion, votes, hexecuted]
        rw [Option.map_some, hmotion, if_pos rfl, about_self]
        have hpassed := hvoted.snoc (.pass rfl (by rw [threshold, hone]; exact le_rfl))
        rwa [List.append_assoc] at hpassed
    · refine h.elsewhere hrules (by rw [proposals, Function.update_of_ne (Ne.symm hj)]) ?_
      rw [about_of_ne hj, about_of_ne hj]
      split
      · rw [about_of_ne hj]
        rfl
      · rfl
  · rw [hno] at ht
    simp at ht
  · split <;> simp

theorem Presided.vote {p' : PauseProposal} (h : Presided M gc s es) (member : g ∈ gc.guardians)
    (proposal : s.pauseProposal M id = some p) (live : p.executed = false) (fresh : g ∉ p.votes)
    (proposals : s'.pauseProposal M = Function.update (s.pauseProposal M) id (some p'))
    (threshold : p'.threshold = p.threshold) (votes : p'.votes = p.votes ++ [g])
    (reached : p'.executed = decide (gc.threshold ≤ UInt8.ofNat p'.votes.length))
    (renews : Renews gc gc' p'.executed) :
    Presided M gc' s' (es ++ .ballot id (.voted g) ::
      if p'.executed then [.ballot id (.passed p'.threshold)] else []) := by
  have hrules := GuardianConfig.rules_congr renews.guardians renews.threshold
  refine h.append renews.guardians (fun j => ?_) (renews.pending h.pending fun hno j t ht => ?_) ?_
  · by_cases hj : id = j
    · subst hj
      rw [proposals, Function.update_self, hrules, about_append, about_cons]
      have hold := h.record id
      rw [proposal, Option.map_some] at hold
      have hcharter : p.threshold = gc.threshold := hold.minutes.charter
      have hvote : Ballot.Step gc.rules (some p.motion) (.voted g)
          (some { p.motion with votes := p.votes ++ [g] }) := .vote live member fresh
      cases hexecuted : p'.executed with
      | false =>
        have hmotion : p'.motion = { p.motion with votes := p.votes ++ [g] } := by
          rw [PauseProposal.motion, PauseProposal.motion, threshold, votes, hexecuted, live]
        rw [Option.map_some, hmotion]
        exact hold.snoc hvote
      | true =>
        have hmotion : p'.motion =
            { p.motion with votes := p.votes ++ [g], passed := true } := by
          rw [PauseProposal.motion, PauseProposal.motion, threshold, votes, hexecuted]
        have hquorum : p.threshold.toNat ≤ (p.votes ++ [g]).length := by
          rw [reached, votes, hcharter.symm] at hexecuted
          have hle := UInt8.le_iff_toNat_le.mp (of_decide_eq_true hexecuted)
          rw [UInt8.toNat_ofNat'] at hle
          exact hle.trans (Nat.mod_le _ _)
        rw [Option.map_some, hmotion, if_pos rfl, about_self, threshold]
        exact hold.append hvote (.pass live hquorum)
    · refine h.elsewhere hrules (by rw [proposals, Function.update_of_ne (Ne.symm hj)]) ?_
      rw [about_of_ne hj]
      split
      · rw [about_of_ne hj]
        rfl
      · rfl
  · rw [hno] at ht
    simp at ht
  · split <;> simp

theorem Guardianship.step (h : Guardianship M s es) (hstep : GuardianStep M s s' new) :
    Guardianship M s' (es ++ new) := by
  cases hstep with
  | other guardians proposals =>
    rw [Guardianship] at h ⊢
    rw [guardians, List.append_nil]
    cases hgc : s.guardians M with
    | none =>
      rw [hgc] at h
      exact ⟨fun id => by rw [proposals, h.1 id], h.2⟩
    | some gc =>
      rw [hgc] at h
      exact { h with record := fun id => by rw [proposals]; exact h.record id }
  | founded free registered clear _ proposals =>
    rw [Guardianship, free] at h
    obtain ⟨hnone, rfl⟩ := h
    rw [Guardianship, registered]
    exact
      { record := fun id => by
          rw [proposals, hnone]
          exact .blank
        pending := .clear clear
        lifted := fun earlier later hes => by cases earlier <;> cases hes }
  | proposed stored registered member free proposals threshold votes reached renews _ =>
    rw [Guardianship, stored] at h
    rw [Guardianship, registered]
    exact h.propose member free proposals threshold votes reached renews
  | voted stored registered member proposal live fresh proposals threshold votes reached renews _ =>
    rw [Guardianship, stored] at h
    rw [Guardianship, registered]
    exact h.vote member proposal live fresh proposals threshold votes reached renews
  | liftVoted stored member fresh registered proposals =>
    rw [Guardianship, stored] at h
    rw [Guardianship, registered]
    exact h.append rfl (fun id => h.elsewhere rfl (congrFun proposals id) rfl)
      (h.pending.vote member fresh) (by simp)
  | lifted stored member fresh full registered renews _ proposals =>
    rw [Guardianship, stored] at h
    rw [Guardianship, registered]
    exact h.lift member fresh full renews proposals
  | overridden stored registered renews _ proposals =>
    rw [Guardianship, stored] at h
    rw [Guardianship, registered]
    exact h.append renews.guardians (fun id => h.elsewhere
      (GuardianConfig.rules_congr renews.guardians renews.threshold) (congrFun proposals id) rfl)
      (.clear renews.pendingLiftVotes) List.not_mem_nil

theorem about_split {t : UInt8} {earlier later : List GuardianEvent}
    (h : es = earlier ++ .ballot id (.passed t) :: later) :
    about id es = about id earlier ++ .passed t :: about id later := by
  rw [h, about_append, about_cons]

theorem of_mem_about {e : Ballot.Event Pubkey UInt8} (h : e ∈ about id es) :
    .ballot id e ∈ es := by
  obtain ⟨x, hx, he⟩ := List.mem_filterMap.mp h
  cases x with
  | ballot j e' =>
    rw [GuardianEvent.about] at he
    by_cases hj : j = id
    · rw [if_pos hj] at he
      cases he
      rw [hj] at hx
      exact hx
    · rw [if_neg hj] at he
      cases he
  | liftVoted | lifted => cases he

theorem mem_about {e : Ballot.Event Pubkey UInt8} (h : .ballot id e ∈ es) : e ∈ about id es :=
  List.mem_filterMap.mpr ⟨_, h, if_pos rfl⟩

end Presided

theorem run_guardianship (as : List Action) (hs : s.guardians M = none)
    (hp : ∀ id, s.pauseProposal M id = none) :
    Guardianship M (run rt s as) (history (Action.exec rt) (guardianEvents rt M) s as) := by
  refine invariant_history (P := fun _ _ => True) (h := []) (fun hi _ hexec =>
    hi.step (exec_guardianStep hexec)) ?_ (along_of_forall fun _ _ _ => trivial)
  rw [Guardianship, hs]
  exact ⟨hp, rfl⟩

/-- In every run from before there are guardians: a proposal of theirs pauses the stablecoin at
most once, and when it does, at least as many guardians as the threshold says have voted for it;
and when the guardians lift a pause, all of them have voted for it since the last one. The
stablecoin is paused and unpaused when this is seen, and their own pause never begins unseen. -/
theorem guardian_quorum {as : List Action} (hs : s.guardians M = none)
    (hp : ∀ id, s.pauseProposal M id = none) :
    (∀ before a after s', as = before ++ a :: after → a.exec rt (run rt s before) = .ok s' →
      Announced M (run rt s before) s' (guardianEvents rt M (run rt s before) a)) ∧
    (∀ id t earlier later,
      history (Action.exec rt) (guardianEvents rt M) s as =
        earlier ++ .ballot id (.passed t) :: later →
      (∀ t', .ballot id (.passed t') ∉ earlier) ∧
        ∃ (gc : GuardianConfig) (voters : List Pubkey), (run rt s as).guardians M = some gc ∧
          gc.threshold.toNat ≤ voters.length ∧ voters.Nodup ∧
          ∀ g ∈ voters, g ∈ gc.guardians ∧ .ballot id (.voted g) ∈ earlier) ∧
    ∀ earlier later,
      history (Action.exec rt) (guardianEvents rt M) s as = earlier ++ .lifted :: later →
      ∃ gc, (run rt s as).guardians M = some gc ∧ Unanimous gc earlier := by
  refine ⟨fun before a after s' _ h => (exec_guardianStep h).announced, ?_⟩
  have hall : Guardianship M (run rt s as) _ := run_guardianship as hs hp
  rw [Guardianship] at hall
  cases hgc : (run rt s as).guardians M with
  | none =>
    rw [hgc] at hall
    refine ⟨fun id t earlier later hes => ?_, fun earlier later hes => ?_⟩
    · rw [hall.2] at hes
      cases earlier <;> cases hes
    · rw [hall.2] at hes
      cases earlier <;> cases hes
  | some gc =>
    rw [hgc] at hall
    refine ⟨fun id t earlier later hes => ?_, fun earlier later hes =>
      ⟨gc, rfl, hall.lifted _ _ hes⟩⟩
    have hcarried := (hall.record id).carried (about_split hes)
    obtain ⟨voters, hquorum, hnodup, hcast⟩ := hcarried.voters
    have hcharter : t = gc.threshold := hcarried.charter
    refine ⟨fun t' ht => hcarried.once t' (mem_about ht), gc, voters, rfl, ?_, hnodup,
      fun g hg => ⟨(hcast g hg).1, of_mem_about (hcast g hg).2⟩⟩
    rw [← hcharter]
    exact hquorum

namespace Market

def asUser : CallerAndMint := { caller := user, mint := mint.key }
def asOther : CallerAndMint := { caller := other, mint := mint.key }

/-- Two guardians, of whom it takes both. -/
def guarded : List Action :=
  funded 1000 ++ [.call (day 1) (.initGuardianConfig asAuthority [user.key, other.key] 2)]

/-- They pause the stablecoin. -/
def emergency : List Action :=
  guarded ++
    [ .call (day 1) (.guardianProposePause asUser 0),
      .call (day 1) (.guardianVotePause asOther 0) ]

/-- They lift the pause again. -/
def recovered : List Action :=
  emergency ++
    [.call (day 1) (.guardianLiftPause asUser), .call (day 1) (.guardianLiftPause asOther)]

def pauseVotes : List GuardianEvent :=
  [.ballot 0 (.moved 2), .ballot 0 (.voted user.key), .ballot 0 (.voted other.key)]

def liftVotes : List GuardianEvent := [.liftVoted user.key, .liftVoted other.key]

end Market

open Market in
theorem guardian_quorum_recovered :
    (∃ (gc : GuardianConfig) (voters : List Pubkey),
      (run localRuntime genesis recovered).guardians mint.key = some gc ∧
        gc.threshold.toNat ≤ voters.length ∧ voters.Nodup ∧
        ∀ g ∈ voters, g ∈ gc.guardians ∧ .ballot 0 (.voted g) ∈ pauseVotes) ∧
      ∃ gc, (run localRuntime genesis recovered).guardians mint.key = some gc ∧
        Unanimous gc (pauseVotes ++ .ballot 0 (.passed 2) :: liftVotes) := by
  obtain ⟨-, hpass, hlift⟩ := guardian_quorum (M := mint.key) (s := genesis) rfl fun _ => rfl
  have hes : history (Action.exec localRuntime) (guardianEvents localRuntime mint.key) genesis
      recovered = pauseVotes ++ .ballot 0 (.passed 2) :: (liftVotes ++ [.lifted]) := by
    decide +kernel
  exact ⟨(hpass _ _ _ _ hes).2, hlift _ [] (by rw [hes, List.append_assoc]; rfl)⟩

end SolanaStablecoin
