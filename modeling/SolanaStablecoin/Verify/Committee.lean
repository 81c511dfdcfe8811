import SolanaStablecoin.Verify.PauseBit

/-! The DAO committee: a proposal is carried by the votes of its members, and what is executed is
what has been proposed. -/

namespace SolanaStablecoin

open Transition

variable {rt : Runtime} {clock : Clock} {s s' : State} {a : Action} {i : Instruction}
  {M : Pubkey} {d : DaoCommitteeConfig} {p : ProposalPda} {id n : UInt64}

/-- The committee of a stablecoin. -/
def State.committee (s : State) (M : Pubkey) : Option DaoCommitteeConfig :=
  s.daoCommittees (.daoCommittee (.stablecoinConfig M))

/-- A proposal for it. -/
def State.proposal (s : State) (M : Pubkey) (id : UInt64) : Option ProposalPda :=
  s.proposals (.daoProposal (.stablecoinConfig M) id)

/-- What is proposed, and how many votes it takes. -/
structure Resolution where
  action : ProposalAction
  param : UInt64
  target : Pubkey
  quorum : UInt8
deriving DecidableEq

def ProposalPda.resolution (p : ProposalPda) : Resolution :=
  { action := p.action, param := p.param, target := p.target, quorum := p.quorum }

def ProposalPda.motion (p : ProposalPda) : Ballot.Motion Pubkey Resolution :=
  { terms := p.resolution, votes := p.votes, passed := p.executed }

def State.motion (s : State) (M : Pubkey) (id : UInt64) :
    Option (Ballot.Motion Pubkey Resolution) :=
  (s.proposal M id).map (·.motion)

/-- The members vote, and a proposal takes as many votes as the committee's quorum says. -/
def DaoCommitteeConfig.rules (d : DaoCommitteeConfig) : Ballot.Rules Pubkey Resolution :=
  { member := (· ∈ d.members), charter := (·.quorum = d.quorum), quorum := (·.quorum.toNat) }

/-- What an instruction shows of a proposal: what it asks to propose, who votes for it, and what is
stored of it when it is executed. -/
def Instruction.ballots (M : Pubkey) (id : UInt64) (s : State) :
    Instruction → List (Ballot.Event Pubkey Resolution)
  | proposeAction a action param target =>
    match s.committee M with
    | some d =>
      if a.mint = M ∧ d.nextProposalId = id then
        [.moved { action, param, target, quorum := d.quorum }]
      else []
    | none => []
  | voteAction a n => if a.mint = M ∧ n = id then [.voted a.caller.key] else []
  | executeAction a n =>
    if a.mint = M ∧ n = id then
      match s.proposal M id with
      | some p => [.passed p.resolution]
      | none => []
    else []
  | _ => []

def ballots (M : Pubkey) (id : UInt64) (s : State) (a : Action) :
    List (Ballot.Event Pubkey Resolution) :=
  match a with
  | .call _ i => i.ballots M id s
  | .world _ => []

/-! ## Steps -/

/-- What a successful transaction does to a proposal for the committee of `M`, and what is seen of
it. -/
inductive CommitteeStep (M : Pubkey) (id : UInt64) (s s' : State) :
    List (Ballot.Event Pubkey Resolution) → Prop where
  | other (rules : (s'.committee M).map (·.rules) = (s.committee M).map (·.rules))
    (motion : s'.motion M id = s.motion M id) : CommitteeStep M id s s' []
  | founded (free : s.committee M = none) (motion : s'.motion M id = s.motion M id) :
    CommitteeStep M id s s' []
  | proceeded {d : DaoCommitteeConfig} {e : Ballot.Event Pubkey Resolution}
    (stored : s.committee M = some d)
    (rules : (s'.committee M).map (·.rules) = (s.committee M).map (·.rules))
    (step : Ballot.Step d.rules (s.motion M id) e (s'.motion M id)) : CommitteeStep M id s s' [e]

theorem State.committee_put {mint : Pubkey}
    (h : s'.daoCommittees = put s.daoCommittees (.daoCommittee (.stablecoinConfig mint)) d) :
    s'.committee M = if mint = M then some d else s.committee M := by
  rw [State.committee, State.committee, h]
  by_cases hM : mint = M
  · rw [hM, put_self, if_pos rfl]
  · rw [if_neg hM, put_of_ne]
    intro heq
    cases heq
    exact hM rfl

/-- Where a committee is written back, its rules stay. -/
theorem State.committee_rules {mint : Pubkey} {d' : DaoCommitteeConfig}
    (hd : s.committee mint = some d)
    (h : s'.daoCommittees = put s.daoCommittees (.daoCommittee (.stablecoinConfig mint)) d')
    (hrules : d'.rules = d.rules) :
    (s'.committee M).map (·.rules) = (s.committee M).map (·.rules) := by
  rw [State.committee_put h]
  split
  next hM => rw [← hM, hd, Option.map_some, Option.map_some, hrules]
  next => rfl

theorem State.committee_eq (h : s'.daoCommittees = s.daoCommittees) :
    s'.committee M = s.committee M := by
  rw [State.committee, State.committee, h]

theorem State.motion_eq (h : s'.proposals = s.proposals) : s'.motion M id = s.motion M id := by
  rw [State.motion, State.motion, State.proposal, State.proposal, h]

theorem State.motion_put {mint : Pubkey}
    (h : s'.proposals = put s.proposals (.daoProposal (.stablecoinConfig mint) n) p) :
    s'.motion M id = if mint = M ∧ n = id then some p.motion else s.motion M id := by
  rw [State.motion, State.motion, State.proposal, State.proposal, h]
  by_cases hid : mint = M ∧ n = id
  · rw [if_pos hid, hid.1, hid.2, put_self, Option.map_some]
  · rw [if_neg hid, put_of_ne]
    intro heq
    cases heq
    exact hid ⟨rfl, rfl⟩

theorem initDaoCommitteeHandler_step {a : AuthorityAndMint} {members : List Pubkey}
    {quorum : UInt8} (h : initDaoCommitteeHandler s a members quorum = .ok s') :
    CommitteeStep M id s s' [] := by
  simp only [initDaoCommitteeHandler, bind_eq_ok, requireFree_eq_ok, pure_eq_ok] at h
  obtain ⟨c, -, _, hfree, -, -, -, -, -, -, -, -, -, -, rfl⟩ := h
  by_cases hM : a.mint = M
  · subst hM
    exact .founded hfree rfl
  · exact .other (congrArg _ ((State.committee_put rfl).trans (if_neg hM))) rfl

theorem proposeActionHandler_step {a : CallerAndMint} {action : ProposalAction} {param : UInt64}
    {target : Pubkey} (h : proposeActionHandler s a action param target = .ok s') :
    CommitteeStep M id s s' ((Instruction.proposeAction a action param target).ballots M id s) := by
  simp only [proposeActionHandler, bind_eq_ok, CallerAndMint.loadCommittee_eq_ok,
    requireFree_eq_ok, pure_eq_ok] at h
  obtain ⟨⟨c, d⟩, ⟨-, hd⟩, -, hfree, -, -, -, -, -, -, next, -, rfl⟩ := h
  have hstored : s.committee a.mint = some d := hd
  by_cases hid : a.mint = M ∧ d.nextProposalId = id
  · obtain ⟨rfl, rfl⟩ := hid
    have hnone : s.motion a.mint d.nextProposalId = none := congrArg (Option.map _) hfree
    rw [Instruction.ballots, hstored]
    dsimp only
    rw [if_pos ⟨rfl, rfl⟩]
    refine .proceeded hstored (State.committee_rules hstored rfl rfl) ?_
    rw [hnone, State.motion_put rfl, if_pos ⟨rfl, rfl⟩]
    exact .move rfl
  · have hevents : (Instruction.proposeAction a action param target).ballots M id s = [] := by
      rw [Instruction.ballots]
      cases hM : s.committee M with
      | none => rfl
      | some d₀ =>
        refine if_neg fun h => hid ⟨h.1, ?_⟩
        rw [h.1, hM] at hstored
        cases hstored
        exact h.2
    rw [hevents]
    exact .other (State.committee_rules hstored rfl rfl)
      ((State.motion_put rfl).trans (if_neg hid))

theorem voteActionHandler_step {a : CallerAndMint} (h : voteActionHandler s a n = .ok s') :
    CommitteeStep M id s s' ((Instruction.voteAction a n).ballots M id s) := by
  simp only [voteActionHandler, bind_eq_ok, CallerAndMint.loadCommittee_eq_ok, load_eq_ok,
    require_eq_ok, pure_eq_ok] at h
  obtain ⟨⟨c, d⟩, ⟨-, hd⟩, p, hp, -, hmember, -, hlive, -, -, -, hfresh, rfl⟩ := h
  rw [Instruction.ballots]
  by_cases hid : a.mint = M ∧ n = id
  · rw [if_pos hid]
    obtain ⟨rfl, rfl⟩ := hid
    have hold : s.motion a.mint n = some p.motion := congrArg (Option.map _) hp
    refine .proceeded hd rfl ?_
    rw [hold, State.motion_put rfl, if_pos ⟨rfl, rfl⟩]
    exact .vote hlive hmember hfresh
  · rw [if_neg hid]
    exact .other rfl ((State.motion_put rfl).trans (if_neg hid))

theorem executeActionHandler_step {a : CallerAndMint} (h : executeActionHandler s a n = .ok s') :
    CommitteeStep M id s s' ((Instruction.executeAction a n).ballots M id s) := by
  simp only [executeActionHandler, bind_eq_ok, CallerAndMint.loadCommittee_eq_ok, load_eq_ok,
    require_eq_ok, pure_eq_ok] at h
  obtain ⟨⟨c, d⟩, ⟨-, hd⟩, p, hp, -, hlive, -, -, -, hquorum, c', -, rfl⟩ := h
  rw [Instruction.ballots]
  by_cases hid : a.mint = M ∧ n = id
  · rw [if_pos hid]
    obtain ⟨rfl, rfl⟩ := hid
    have hstored : s.proposal a.mint n = some p := hp
    have hold : s.motion a.mint n = some p.motion := congrArg (Option.map _) hp
    rw [hstored]
    refine .proceeded hd rfl ?_
    rw [hold, State.motion_put rfl, if_pos ⟨rfl, rfl⟩]
    exact .pass hlive hquorum
  · rw [if_neg hid]
    exact .other rfl ((State.motion_put rfl).trans (if_neg hid))

/-- A draw uses a proposal up, and does not change what it says. -/
theorem ProposalPda.consume_motion {p' : ProposalPda} {k authority : Pubkey} {amount : UInt64}
    (h : p.consume k authority amount = .ok p') : p'.motion = p.motion := by
  simp only [consume, bind_eq_ok, pure_eq_ok] at h
  obtain ⟨-, -, -, -, -, -, -, -, -, -, _, -, -, -, rfl⟩ := h
  rfl

theorem loadOptional_some {α : Type} {m : Pubkey → Option α} {k : Pubkey} {x : α}
    (h : loadOptional m (some k) = .ok (some x)) : m k = some x := by
  simp only [loadOptional, bind_eq_ok, load_eq_ok, pure_eq_ok, Option.some.injEq] at h
  obtain ⟨_, hk, rfl⟩ := h
  exact hk

theorem DrawInsurance.authorise_motion {a : DrawInsurance} {c : StablecoinConfig}
    {x : Option ProposalPda} {amount : UInt64} {ps : Pubkey → Option ProposalPda}
    (hx : loadOptional s.proposals a.daoProposal = .ok x)
    (h : a.authorise s c x amount = .ok ps) :
    (ps (.daoProposal (.stablecoinConfig M) id)).map (·.motion) = s.motion M id := by
  refine ite_ok_cases (fun _ h => ?_) (fun _ h => ?_) h
  · simp only [bind_eq_ok, Option.okOr_eq_ok, pure_eq_ok] at h
    obtain ⟨key, hkey, p, rfl, p', hconsume, rfl⟩ := h
    rw [hkey] at hx
    rw [State.motion, State.proposal]
    by_cases hk : Pubkey.daoProposal (.stablecoinConfig M) id = key
    · rw [hk, put_self, loadOptional_some hx, Option.map_some, Option.map_some,
        ProposalPda.consume_motion hconsume]
    · rw [put_of_ne _ _ hk]
  · simp only [bind_eq_ok, pure_eq_ok] at h
    obtain ⟨-, -, rfl⟩ := h
    rfl

theorem drawInsuranceHandler_step {a : DrawInsurance} {amount : UInt64}
    (h : drawInsuranceHandler rt s a amount = .ok s') : CommitteeStep M id s s' [] := by
  simp only [drawInsuranceHandler, bind_eq_ok, pure_eq_ok] at h
  obtain ⟨⟨c, v⟩, -, -, -, _, -, -, -, x, hx, -, -, ps, hps, -, -, t, -, b, -, n, -, rfl⟩ := h
  exact .other rfl (DrawInsurance.authorise_motion hx hps)

theorem CommitteeStep.of_councils (hd : s'.daoCommittees = s.daoCommittees)
    (hp : s'.proposals = s.proposals) : CommitteeStep M id s s' [] :=
  .other (congrArg _ (State.committee_eq hd)) (State.motion_eq hp)

theorem Instruction.ballots_eq_nil (hi : i.deliberates = false) : i.ballots M id s = [] := by
  cases i with
  | proposeAction | voteAction | executeAction => cases hi
  | _ => rfl

theorem Instruction.exec_committeeStep (h : i.exec rt clock s = .ok s') :
    CommitteeStep M id s s' (i.ballots M id s) := by
  cases hi : i.deliberates with
  | true =>
    cases i with
    | initDaoCommittee => exact initDaoCommitteeHandler_step h
    | proposeAction => exact proposeActionHandler_step h
    | voteAction => exact voteActionHandler_step h
    | executeAction => exact executeActionHandler_step h
    | drawInsurance => exact drawInsuranceHandler_step h
    | _ => cases hi
  | false =>
    rw [Instruction.ballots_eq_nil hi]
    cases Instruction.exec_councils h with
    | deliberated kind =>
      rw [hi] at kind
      cases kind
    | same h =>
      exact .of_councils (congrArg Councils.daoCommittees h) (congrArg Councils.proposals h)
    | guarded _ h | rotated _ h | licensed _ h =>
      exact .of_councils (congrArg Councils.daoCommittees h) (congrArg Councils.proposals h)

theorem exec_committeeStep (h : a.exec rt s = .ok s') :
    CommitteeStep M id s s' (ballots M id s a) := by
  cases a with
  | world w =>
    have hc := (World.exec_settled h).councils
    exact .of_councils (congrArg Councils.daoCommittees hc) (congrArg Councils.proposals hc)
  | call clock i => exact Instruction.exec_committeeStep h

/-! ## Runs -/

/-- A committee's proposals have records. Before there is a committee nothing is proposed. -/
def Deliberation (M : Pubkey) (id : UInt64) (s : State)
    (es : List (Ballot.Event Pubkey Resolution)) : Prop :=
  match s.committee M with
  | some d => Ballot.Record d.rules (s.motion M id) es
  | none => s.motion M id = none ∧ es = []

section Deliberation

variable {es new : List (Ballot.Event Pubkey Resolution)}

theorem Deliberation.step (h : Deliberation M id s es) (hstep : CommitteeStep M id s s' new) :
    Deliberation M id s' (es ++ new) := by
  rw [Deliberation] at h ⊢
  cases hstep with
  | other rules motion =>
    rw [List.append_nil, motion]
    cases hd : s.committee M with
    | none =>
      rw [hd] at h rules
      rw [Option.map_eq_none_iff.mp rules]
      exact h
    | some d =>
      rw [hd] at h rules
      obtain ⟨d', hd', hrules⟩ := Option.map_eq_some_iff.mp rules
      rw [hd']
      dsimp only
      rw [hrules]
      exact h
  | founded free motion =>
    rw [free] at h
    obtain ⟨hnone, rfl⟩ := h
    rw [List.nil_append, motion, hnone]
    cases s'.committee M with
    | none => exact ⟨rfl, rfl⟩
    | some d' => exact .blank
  | proceeded stored rules step =>
    rw [stored] at h rules
    obtain ⟨d', hd', hrules⟩ := Option.map_eq_some_iff.mp rules
    rw [hd']
    dsimp only
    rw [hrules]
    exact h.snoc step

end Deliberation

theorem run_deliberation (as : List Action) (hs : s.committee M = none)
    (hp : s.proposal M id = none) :
    Deliberation M id (run rt s as) (history (Action.exec rt) (ballots M id) s as) := by
  refine invariant_history (P := fun _ _ => True) (h := []) (fun hi _ hexec =>
    hi.step (exec_committeeStep hexec)) ?_ (along_of_forall fun _ _ _ => trivial)
  rw [Deliberation, hs]
  exact ⟨congrArg (Option.map _) hp, rfl⟩

/-- In every run from before there is a committee: a proposal that is executed has not been executed
before, was proposed as it is stored, and as many members as the committee's quorum says have voted
for it; and what it says is what is done to the config. -/
theorem committee_carries {init : List Action} {b : CallerAndMint}
    (hs : s.committee b.mint = none) (hp : s.proposal b.mint id = none)
    (h : (Instruction.executeAction b id).exec rt clock (run rt s init) = .ok s') :
    ∃ d c c' r, (run rt s init).committee b.mint = some d ∧
      Ballot.Carried d.rules r
        (history (Action.exec rt) (ballots b.mint id) s init) ∧
      (run rt s init).configs b.config = some c ∧
      StablecoinConfig.enact c r.param r.action = .ok c' ∧
      s'.configs = put (run rt s init).configs b.config c' ∧
      (s'.proposal b.mint id).map (fun p => (p.resolution, p.executed)) = some (r, true) := by
  have hall : Deliberation b.mint id (run rt s init) _ := run_deliberation init hs hp
  have hstep : CommitteeStep b.mint id (run rt s init) s' _ := Instruction.exec_committeeStep h
  obtain ⟨c, p, c', hc, hproposal, -, henact, hconfigs, hproposals⟩ :=
    executeActionHandler_enacts h
  have hstored : (run rt s init).proposal b.mint id = some p := hproposal
  rw [Instruction.ballots, if_pos ⟨rfl, rfl⟩, hstored] at hstep
  cases hstep with
  | proceeded stored _ step =>
    rw [Deliberation, stored] at hall
    have hcarried : Ballot.Carried _ p.resolution _ := (hall.snoc step).carried rfl
    refine ⟨_, c, c', p.resolution, stored, hcarried, hc, henact, hconfigs, ?_⟩
    rw [State.proposal, hproposals]
    exact congrArg (Option.map _) (put_self ..)

namespace Market

/-- A committee of two decides to pause the stablecoin. -/
def approved : List Action :=
  funded 1000 ++
    [ .call (day 1) (.initDaoCommittee asAuthority [user.key, other.key] 2),
      .call (day 1) (.proposeAction { caller := authority, mint := mint.key } .pause 0 .default),
      .call (day 1) (.voteAction asUser 0),
      .call (day 1) (.voteAction asOther 0) ]

def resolution : Resolution :=
  { action := .pause, param := 0, target := .default, quorum := 2 }

end Market

open Market in
theorem committee_carries_approved : ∃ s' d r,
    (Instruction.executeAction asUser 0).exec localRuntime (day 2)
      (run localRuntime genesis approved) = .ok s' ∧
    (run localRuntime genesis approved).committee mint.key = some d ∧
    Ballot.Carried d.rules r [.moved resolution, .voted user.key, .voted other.key] ∧
    (s'.proposal mint.key 0).map (fun p => (p.resolution, p.executed)) = some (r, true) := by
  obtain ⟨s', h⟩ : ∃ s', (Instruction.executeAction asUser 0).exec localRuntime (day 2)
      (run localRuntime genesis approved) = .ok s' := isOk_iff.mp (by decide +kernel)
  obtain ⟨d, c, c', r, hd, hcarried, -, -, -, hexecuted⟩ := committee_carries rfl rfl h
  have hes : history (Action.exec localRuntime) (ballots mint.key 0) genesis approved =
      [.moved resolution, .voted user.key, .voted other.key] := by
    decide +kernel
  have hcarried : Ballot.Carried d.rules r (history (Action.exec localRuntime)
    (ballots mint.key 0) genesis approved) := hcarried
  rw [hes] at hcarried
  exact ⟨s', d, r, h, hd, hcarried, hexecuted⟩

end SolanaStablecoin
