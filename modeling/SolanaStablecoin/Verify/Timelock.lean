import SolanaStablecoin.Program.Token2022
import SolanaStablecoin.Verify.Step

/-! The timelock over whole runs: what an executed operation, a new compliance authority and the
delay itself go back to. -/

namespace SolanaStablecoin

open Transition

variable {rt : Runtime} {clock : Clock} {s s' : State} {a : Action} {c c' : StablecoinConfig}
  {M : Pubkey}

/-! ## The pending operation -/

structure TimelockedOp where
  kind : UInt8
  param : UInt64
  target : Pubkey
  matureSlot : UInt64

/-- The operation that waits, if any does. -/
def Office.waiting (o : Office) : Option TimelockedOp :=
  if o.adminOpKind = adminOpNone then none
  else some
    { kind := o.adminOpKind, param := o.adminOpParam, target := o.adminOpTarget
      matureSlot := o.adminOpMatureSlot }

def State.waiting (s : State) (M : Pubkey) : Option TimelockedOp :=
  (s.configs (.stablecoinConfig M)).bind fun c => c.office.waiting

/-- The instruction writes the pending operation of `M`. -/
def Action.timelocks (M : Pubkey) : Action → Prop
  | .call _ (.proposeTimelockedOp a _ _ _) => a.mint = M
  | .call _ (.executeTimelockedOp a) => a.mint = M
  | .call _ (.cancelTimelockedOp a) => a.mint = M
  | _ => False

theorem StablecoinConfig.waiting_of_ne (h : c.adminOpKind ≠ adminOpNone) :
    c.office.waiting = some
      { kind := c.adminOpKind, param := c.adminOpParam, target := c.adminOpTarget
        matureSlot := c.adminOpMatureSlot } := if_neg h

theorem StablecoinConfig.Fresh.waiting (h : c.Fresh) : c.office.waiting = none :=
  if_pos h.adminOpKind

theorem StablecoinConfig.clearTimelockedOp_waiting (c : StablecoinConfig) :
    c.clearTimelockedOp.office.waiting = none := if_pos rfl

theorem Governs.waiting {i : Instruction} (h : Governs clock c i M c')
    (hno : ¬ (Action.call clock i).timelocks M) : c'.office.waiting = c.office.waiting := by
  cases h with
  | propose | execute | cancel => exact absurd rfl hno
  | updateRoles | acceptAuthority | acceptComplianceAuthority | takeOver | initSquads => rfl

theorem GovernedAt.of_mint (h : GovernedAt a (.stablecoinConfig M) c c') :
    ∃ clock i, a = .call clock i ∧ Governs clock c i M c' := by
  obtain ⟨clock, i, mint, rfl, hk, h⟩ := h
  cases hk
  exact ⟨clock, i, rfl, h⟩

/-- A config that is there afterwards was there before, or is fresh and was not. -/
theorem Step.config_cases {k : Pubkey} (h : Step rt s a s') (hc' : s'.configs k = some c') :
    (∃ c, s.configs k = some c ∧ (c'.office = c.office ∨ GovernedAt a k c c')) ∨
      s.configs k = none ∧ c'.Fresh := by
  cases hc : s.configs k with
  | some c =>
    obtain ⟨c₁, hc₁, hnext⟩ := h.config_next hc
    rw [hc'] at hc₁
    cases hc₁
    exact .inl ⟨c, rfl, hnext⟩
  | none =>
    rcases h.config_origin hc' with ⟨c, hc₁, -⟩ | hfresh
    · rw [hc] at hc₁
      cases hc₁
    · exact .inr ⟨rfl, hfresh⟩

/-- What is read of the config of `M` and is `none` for fresh ones changes only where the config
is governed. -/
theorem Step.read_eq {α : Type} (f : Office → Option α) (h : Step rt s a s')
    (hfresh : ∀ c : StablecoinConfig, c.Fresh → f c.office = none)
    (hgoverned : ∀ c c', s.configs (.stablecoinConfig M) = some c →
      GovernedAt a (.stablecoinConfig M) c c' → f c'.office = f c.office) :
    (s'.configs (.stablecoinConfig M)).bind (fun c => f c.office) =
      (s.configs (.stablecoinConfig M)).bind fun c => f c.office := by
  cases hc : s.configs (.stablecoinConfig M) with
  | some c =>
    obtain ⟨c', hc', hnext⟩ := h.config_next hc
    rw [hc', Option.bind_some, Option.bind_some]
    rcases hnext with hoffice | hgov
    · rw [hoffice]
    · exact hgoverned c c' hc hgov
  | none =>
    cases hc' : s'.configs (.stablecoinConfig M) with
    | none => rfl
    | some c' =>
      rcases h.config_cases hc' with ⟨c, hc₁, -⟩ | ⟨-, hf⟩
      · rw [hc] at hc₁
        cases hc₁
      · exact hfresh c' hf

theorem exec_waiting (h : Action.exec rt s a = .ok s') (hno : ¬ a.timelocks M) :
    s'.waiting M = s.waiting M := by
  apply (exec_step h).read_eq Office.waiting fun c hc => hc.waiting
  intro c c' _ hgov
  obtain ⟨clock, i, rfl, hgoverns⟩ := hgov.of_mint
  exact hgoverns.waiting hno

/-! ## What was executed had been proposed -/

/-- A proposal in a run, with what came before and after it. -/
structure Proposal where
  before : List Action
  clock : Clock
  accounts : AuthorityAndMint
  kind : UInt8
  param : UInt64
  target : Pubkey
  after : List Action

def Proposal.action (p : Proposal) : Action :=
  .call p.clock (.proposeTimelockedOp p.accounts p.kind p.param p.target)

/-- The proposal succeeded under the config `c₀`, and since then nothing was proposed, executed or
cancelled for the mint. -/
structure Proposal.Stands (rt : Runtime) (M : Pubkey) (s : State) (as : List Action) (p : Proposal)
    (c₀ : StablecoinConfig) : Prop where
  mint : p.accounts.mint = M
  config : (run rt s p.before).configs (.stablecoinConfig M) = some c₀
  last : ∃ s', Last (Action.exec rt) (fun _ a _ => a.timelocks M) s as p.before p.action s' p.after

/-- An executed operation is the one that stands, after its delay. -/
structure Executed (rt : Runtime) (M : Pubkey) (s : State) (as : List Action) (clock : Clock)
    (s' : State) (p : Proposal) (c₀ : StablecoinConfig) : Prop where
  stands : p.Stands rt M s as c₀
  applied : ∃ c c', (run rt s as).configs (.stablecoinConfig M) = some c ∧
    c.adminOpKind = p.kind ∧ c.adminOpParam = p.param ∧ c.adminOpTarget = p.target ∧
    c.applyTimelockedOp = .ok c' ∧
    s'.configs (.stablecoinConfig M) = some c'.clearTimelockedOp
  mature : p.clock.slot.toNat + (c₀.effectiveDelay p.kind).toNat ≤ clock.slot.toNat

theorem Genesis.waiting (h : Genesis s) : s.waiting M = none := by
  rw [State.waiting, h.configs, Option.bind_none]

theorem Governed.waiting {i : Instruction} (h : Governed clock s i s' M c c') :
    s.waiting M = c.office.waiting ∧ s'.waiting M = c'.office.waiting := by
  rw [State.waiting, State.waiting, h.config, h.configs, put_self, Option.bind_some,
    Option.bind_some]
  exact ⟨rfl, rfl⟩

/-- After an instruction of the timelock either nothing waits, or what was just proposed. -/
theorem exec_timelocks {op : TimelockedOp} (h : Action.exec rt s a = .ok s')
    (ha : a.timelocks M) (hop : s'.waiting M = some op) :
    ∃ clock b c₀, a = .call clock (.proposeTimelockedOp b op.kind op.param op.target) ∧
      b.mint = M ∧ s.configs (.stablecoinConfig M) = some c₀ ∧
      op.matureSlot.toNat = clock.slot.toNat + (c₀.effectiveDelay op.kind).toNat := by
  have nothing : s'.waiting M ≠ none := by simp [hop]
  cases a with
  | world w => cases ha
  | call clock i =>
    cases i with
    | proposeTimelockedOp b =>
      cases ha
      obtain ⟨mint, c, c', hgov⟩ := proposeTimelockedOpHandler_ok h
      have hwaits := hgov
      cases hgov.governs with
      | propose known mature =>
        rw [hwaits.waiting.2, StablecoinConfig.waiting_of_ne known] at hop
        cases hop
        exact ⟨clock, b, c, rfl, rfl, hwaits.config, mature⟩
      | takeOver kind => rcases kind with kind | kind <;> cases kind
    | executeTimelockedOp b =>
      cases ha
      obtain ⟨mint, c, c', hgov⟩ := executeTimelockedOpHandler_ok h
      have hwaits := hgov
      cases hgov.governs with
      | execute =>
        exact absurd (hwaits.waiting.2.trans (StablecoinConfig.clearTimelockedOp_waiting _)) nothing
      | takeOver kind => rcases kind with kind | kind <;> cases kind
    | cancelTimelockedOp b =>
      cases ha
      obtain ⟨mint, c, c', hgov⟩ := @cancelTimelockedOpHandler_ok clock _ _ _ h
      have hwaits := hgov
      cases hgov.governs with
      | cancel =>
        exact absurd (hwaits.waiting.2.trans (StablecoinConfig.clearTimelockedOp_waiting _)) nothing
      | takeOver kind => rcases kind with kind | kind <;> cases kind
    | _ => cases ha

/-- An operation that waits was proposed and still stands. -/
theorem waiting_stands {as : List Action} {op : TimelockedOp} (hs : Genesis s)
    (h : (run rt s as).waiting M = some op) :
    ∃ p c₀, Proposal.Stands rt M s as p c₀ ∧ op.kind = p.kind ∧ op.param = p.param ∧
      op.target = p.target ∧
      op.matureSlot.toNat = p.clock.slot.toNat + (c₀.effectiveDelay p.kind).toNat := by
  have stays : ∀ {s as}, Never (Action.exec rt) (fun _ a _ => a.timelocks M) s as →
      (run rt s as).waiting M = s.waiting M := by
    intro s as hnever
    exact invariant_never (I := fun s' => s'.waiting M = s.waiting M)
      (fun hw hexec hno => (exec_waiting hexec hno).trans hw) rfl hnever
  rcases @never_or_last _ _ _ (Action.exec rt) (fun _ a _ => a.timelocks M) s as with
    hnever | ⟨init, a, s', tail, hlast⟩
  · rw [stays hnever, hs.waiting] at h
    cases h
  · have hw : s'.waiting M = some op := by
      rw [← stays hlast.never, ← h, run, run, hlast.run_eq]
    obtain ⟨clock, b, c₀, rfl, hb, hc₀, hmature⟩ := exec_timelocks hlast.succeeds hlast.event hw
    exact ⟨⟨init, clock, b, op.kind, op.param, op.target, tail⟩, c₀, ⟨hb, hc₀, s', hlast⟩, rfl, rfl,
      rfl, hmature⟩

/-- Every execution goes back to a proposal that stands. -/
theorem execute_executed {as : List Action} {b : AuthorityAndMint} (hs : Genesis s)
    (hb : b.mint = M)
    (h : Action.exec rt (run rt s as) (.call clock (.executeTimelockedOp b)) = .ok s') :
    ∃ p c₀, Executed rt M s as clock s' p c₀ := by
  subst hb
  obtain ⟨mint, c, c', hgov⟩ := executeTimelockedOpHandler_ok h
  have hwaits := hgov
  cases hgov.governs with
  | @execute _ c' pending mature happly =>
    have hop := hwaits.waiting.1
    rw [StablecoinConfig.waiting_of_ne pending] at hop
    obtain ⟨p, c₀, hstands, hkind, hparam, htarget, hslot⟩ := waiting_stands hs hop
    refine ⟨p, c₀, hstands, ⟨c, c', hwaits.config, hkind, hparam, htarget, happly, ?_⟩, ?_⟩
    · rw [hwaits.configs, put_self]
    · rw [← hslot]
      exact UInt64.le_iff_toNat_le.mp mature
  | takeOver kind => rcases kind with kind | kind <;> cases kind

/-! ## A new compliance authority -/

/-- The compliance authority that is to take over, if one is. -/
def Office.successor (o : Office) : Option Pubkey :=
  if o.pendingComplianceAuthority = .default then none else some o.pendingComplianceAuthority

def State.successor (s : State) (M : Pubkey) : Option Pubkey :=
  (s.configs (.stablecoinConfig M)).bind fun c => c.office.successor

theorem StablecoinConfig.Fresh.successor (h : c.Fresh) : c.office.successor = none :=
  if_pos h.pendingComplianceAuthority

/-- What an operation does to the compliance authority, and to the delay. -/
structure Applied (c c' : StablecoinConfig) : Prop where
  compliance : c'.complianceAuthority = c.complianceAuthority
  pending : c'.pendingComplianceAuthority = c.pendingComplianceAuthority ∨
    c.adminOpKind = adminOpTransferComplianceAuthority ∧
      c'.pendingComplianceAuthority = c.adminOpTarget
  delay : c'.adminTimelockDelay = c.adminTimelockDelay ∨ 216000 ≤ c'.adminTimelockDelay

theorem StablecoinConfig.applyTimelockedOp_applied (h : c.applyTimelockedOp = .ok c') :
    Applied c c' := by
  cases applyTimelockedOp_operates h with
  | transferComplianceAuthority kind => exact ⟨rfl, .inr ⟨kind, rfl⟩, .inl rfl⟩
  | setTimelockDelay _ bound => exact ⟨rfl, .inl rfl, .inr bound⟩
  | _ => exact ⟨rfl, .inl rfl, .inl rfl⟩

/-- Only the one who was to take over takes over. -/
theorem Governs.compliance {i : Instruction} (h : Governs clock c i M c')
    (hne : c'.complianceAuthority ≠ c.complianceAuthority) :
    ∃ b, i = .acceptComplianceAuthority b ∧ c.office.successor = some c'.complianceAuthority := by
  cases h with
  | execute _ _ happly =>
    exact absurd (StablecoinConfig.applyTimelockedOp_applied happly).compliance hne
  | acceptComplianceAuthority pending =>
    refine ⟨_, rfl, ?_⟩
    exact if_neg pending
  | propose | cancel | updateRoles | acceptAuthority | takeOver | initSquads => exact absurd rfl hne

theorem Governs.successor {i : Instruction} {k : Pubkey} (h : Governs clock c i M c')
    (hk : c'.office.successor = some k) :
    c.office.successor = some k ∨ ∃ b, i = .executeTimelockedOp b ∧ b.mint = M ∧
      c.adminOpKind = adminOpTransferComplianceAuthority ∧ c.adminOpTarget = k := by
  cases h with
  | @execute b c₁ _ _ happly =>
    rcases (StablecoinConfig.applyTimelockedOp_applied happly).pending with
      hsame | ⟨hkind, hpending⟩
    · refine .inl ?_
      rw [← hk]
      change (if c.pendingComplianceAuthority = _ then _ else some c.pendingComplianceAuthority) =
        if c₁.pendingComplianceAuthority = _ then _ else some c₁.pendingComplianceAuthority
      rw [hsame]
    · refine .inr ⟨b, rfl, rfl, hkind, ?_⟩
      change (if c₁.pendingComplianceAuthority = _ then _
        else some c₁.pendingComplianceAuthority) = _ at hk
      rw [hpending] at hk
      split at hk
      · cases hk
      · exact Option.some.inj hk
  | acceptComplianceAuthority => cases hk
  | propose | cancel | updateRoles | acceptAuthority | takeOver | initSquads => exact .inl hk

/-- A successor comes in with an executed operation. -/
theorem exec_successor {k : Pubkey} (h : Action.exec rt s a = .ok s')
    (hk : s'.successor M = some k) :
    s.successor M = some k ∨ ∃ clock b c, a = .call clock (.executeTimelockedOp b) ∧ b.mint = M ∧
      s.configs (.stablecoinConfig M) = some c ∧
      c.adminOpKind = adminOpTransferComplianceAuthority ∧ c.adminOpTarget = k := by
  obtain ⟨c', hc', hk'⟩ := Option.bind_eq_some_iff.mp hk
  rcases (exec_step h).config_cases hc' with ⟨c, hc, hoffice | hgov⟩ | ⟨-, hfresh⟩
  · refine .inl ?_
    rw [State.successor, hc, Option.bind_some, ← hoffice, hk']
  · obtain ⟨clock, i, rfl, hgoverns⟩ := hgov.of_mint
    rcases hgoverns.successor hk' with hsame | ⟨b, rfl, hb, hkind, htarget⟩
    · refine .inl ?_
      rw [State.successor, hc, Option.bind_some, hsame]
    · exact .inr ⟨clock, b, c, rfl, hb, hc, hkind, htarget⟩
  · rw [hfresh.successor] at hk'
    cases hk'

def Action.slot? : Action → Option Nat
  | .call clock _ => some clock.slot.toNat
  | .world _ => none

/-- The clock does not go back. -/
def Chronological (as : List Action) : Prop := (as.filterMap Action.slot?).Pairwise (· ≤ ·)

theorem Chronological.le {init tail : List Action} {clock₁ clock₂ : Clock} {i j : Instruction}
    (h : Chronological (init ++ .call clock₁ i :: tail ++ [.call clock₂ j])) :
    clock₁.slot.toNat ≤ clock₂.slot.toNat := by
  rw [Chronological, List.filterMap_append, List.pairwise_append] at h
  refine h.2.2 _ ?_ _ ?_
  · refine List.mem_filterMap.mpr ⟨.call clock₁ i, ?_, rfl⟩
    exact List.mem_append_right init List.mem_cons_self
  · exact List.mem_filterMap.mpr ⟨.call clock₂ j, List.mem_singleton_self _, rfl⟩

/-- How `k` came to be the compliance authority at the end of a run: proposed, executed when the
proposal had matured, and accepted. -/
structure HandedOver (rt : Runtime) (M : Pubkey) (s : State) (as : List Action) (k : Pubkey)
    (p : Proposal) : Prop where
  executed : ∃ init clock₁ b tail s₁ c₀,
    as = init ++ .call clock₁ (.executeTimelockedOp b) :: tail ∧
    Executed rt M s init clock₁ s₁ p c₀ ∧ p.clock.slot.toNat + 432000 ≤ clock₁.slot.toNat
  kind : p.kind = adminOpTransferComplianceAuthority
  target : p.target = k

theorem HandedOver.delayed {as : List Action} {b : AcceptRole} {k : Pubkey} {p : Proposal}
    (h : HandedOver rt M s as k p)
    (has : Chronological (as ++ [.call clock (.acceptComplianceAuthority b)])) :
    p.clock.slot.toNat + 432000 ≤ clock.slot.toNat := by
  obtain ⟨init, clock₁, b₁, tail, s₁, c₀, rfl, -, hslot⟩ := h.executed
  exact hslot.trans has.le

theorem StablecoinConfig.effectiveDelay_compliance (c : StablecoinConfig) :
    432000 ≤ (c.effectiveDelay adminOpTransferComplianceAuthority).toNat := by
  rw [effectiveDelay, if_pos rfl, UInt64.max_def]
  split
  · exact Nat.le_refl _
  next h =>
    exact Nat.le_of_lt (Nat.lt_of_not_le fun hle => h (UInt64.le_iff_toNat_le.mpr hle))

/-- Whoever is to take over was proposed long ago. -/
theorem successor_handedOver {as : List Action} {k : Pubkey} (hs : Genesis s)
    (hk : (run rt s as).successor M = some k) : ∃ p, HandedOver rt M s as k p := by
  have stays : ∀ {s as},
      Never (Action.exec rt) (fun s _ s' => s.successor M ≠ s'.successor M) s as →
      (run rt s as).successor M = s.successor M := by
    intro s as hnever
    exact invariant_never (I := fun s' => s'.successor M = s.successor M)
      (fun hw _ hno => (Classical.not_not.mp hno).symm.trans hw) rfl hnever
  rcases @never_or_last _ _ _ (Action.exec rt) (fun s _ s' => s.successor M ≠ s'.successor M) s as
    with hnever | ⟨init, a, s₁, tail, hlast⟩
  · rw [stays hnever, State.successor, hs.configs] at hk
    cases hk
  · have hk₁ : s₁.successor M = some k := by
      rw [← stays hlast.never, ← hk, run, run, hlast.run_eq]
    rcases exec_successor hlast.succeeds hk₁ with hsame | ⟨clock, b, c, rfl, hb, hc, hkind, htarget⟩
    · exact absurd (hsame.trans hk₁.symm) hlast.event
    · obtain ⟨p, c₀, hexec⟩ := execute_executed hs hb hlast.succeeds
      obtain ⟨c₁, c', hc₁, hkind₁, -, htarget₁, -⟩ := hexec.applied
      rw [run, hc] at hc₁
      cases hc₁
      have hp : p.kind = adminOpTransferComplianceAuthority := hkind₁.symm.trans hkind
      refine ⟨p, ⟨init, clock, b, tail, s₁, c₀, hlast.split, hexec, ?_⟩, hp,
        htarget₁.symm.trans htarget⟩
      have hmature := hexec.mature
      have hdelay := c₀.effectiveDelay_compliance
      rw [hp] at hmature
      omega

/-- A new compliance authority accepted what had been staged for it. -/
theorem compliance_handedOver {as : List Action} (hs : Genesis s)
    (h : Action.exec rt (run rt s as) a = .ok s')
    (hc : (run rt s as).configs (.stablecoinConfig M) = some c)
    (hc' : s'.configs (.stablecoinConfig M) = some c')
    (hne : c'.complianceAuthority ≠ c.complianceAuthority) :
    ∃ clock b p, a = .call clock (.acceptComplianceAuthority b) ∧
      HandedOver rt M s as c'.complianceAuthority p := by
  obtain ⟨c₁, hc₁, hnext⟩ := (exec_step h).config_next hc
  rw [hc'] at hc₁
  cases hc₁
  rcases hnext with hoffice | hgov
  · exact absurd (congrArg Office.complianceAuthority hoffice) hne
  · obtain ⟨clock, i, rfl, hgoverns⟩ := hgov.of_mint
    obtain ⟨b, rfl, hsucc⟩ := hgoverns.compliance hne
    have hk : (run rt s as).successor M = some c'.complianceAuthority := by
      rw [State.successor, hc, Option.bind_some, hsucc]
    obtain ⟨p, hp⟩ := successor_handedOver hs hk
    exact ⟨clock, b, p, rfl, hp⟩

/-! ## The delay -/

/-- The delay of `M` is one epoch at least. -/
def LongDelay (M : Pubkey) (s : State) : Prop :=
  ∃ c, s.configs (.stablecoinConfig M) = some c ∧ 216000 ≤ c.adminTimelockDelay

theorem Governs.delay {i : Instruction} (h : Governs clock c i M c')
    (hd : 216000 ≤ c.adminTimelockDelay) : 216000 ≤ c'.adminTimelockDelay := by
  cases h with
  | execute _ _ happly =>
    rcases (StablecoinConfig.applyTimelockedOp_applied happly).delay with hsame | hlong
    · exact hsame.symm ▸ hd
    · exact hlong
  | propose | cancel | updateRoles | acceptAuthority | acceptComplianceAuthority | takeOver
  | initSquads => exact hd

theorem LongDelay.step (hl : LongDelay M s) (h : Action.exec rt s a = .ok s') : LongDelay M s' := by
  obtain ⟨c, hc, hd⟩ := hl
  obtain ⟨c', hc', hnext⟩ := (exec_step h).config_next hc
  refine ⟨c', hc', ?_⟩
  rcases hnext with hoffice | hgov
  · have hsame : c'.adminTimelockDelay = c.adminTimelockDelay :=
      congrArg Office.adminTimelockDelay hoffice
    rwa [hsame]
  · obtain ⟨clock, i, rfl, hgoverns⟩ := hgov.of_mint
    exact hgoverns.delay hd

/-- Along every run of all instructions: an operation is executed as it was last proposed, once,
not after a cancellation and not before its delay is over; a compliance authority takes over no
sooner than 432000 slots after it was proposed; and a delay of an epoch never gets shorter than
that. -/
theorem timelock_soundness (rt : Runtime) (M : Pubkey) (hs : Genesis s) (as : List Action) :
    (∀ clock b s', b.mint = M →
      Action.exec rt (run rt s as) (.call clock (.executeTimelockedOp b)) = .ok s' →
      ∃ p c₀, Executed rt M s as clock s' p c₀) ∧
    (∀ a s' c c', Action.exec rt (run rt s as) a = .ok s' →
      (run rt s as).configs (.stablecoinConfig M) = some c →
      s'.configs (.stablecoinConfig M) = some c' → c'.complianceAuthority ≠ c.complianceAuthority →
      ∃ clock b p, a = .call clock (.acceptComplianceAuthority b) ∧
        HandedOver rt M s as c'.complianceAuthority p ∧
        (Chronological (as ++ [a]) → p.clock.slot.toNat + 432000 ≤ clock.slot.toNat)) ∧
    ∀ bs, LongDelay M (run rt s as) → LongDelay M (run rt s (as ++ bs)) := by
  refine ⟨fun clock b s' hb h => execute_executed hs hb h, ?_, fun bs hl => ?_⟩
  · intro a s' c c' h hc hc' hne
    obtain ⟨clock, b, p, rfl, hp⟩ := compliance_handedOver hs h hc hc' hne
    exact ⟨clock, b, p, rfl, hp, hp.delayed⟩
  · rw [run, run_append]
    exact invariant_run_of_forall (fun hl h => LongDelay.step hl h) bs hl

namespace Market

/-- A flag is proposed on day 1, after another one that is given up. -/
def proposed : List Action :=
  opening 1000 ++
    [ .call (day 0) (.proposeTimelockedOp asAuthority adminOpPause 0 .default),
      .call (day 0) (.cancelTimelockedOp asAuthority),
      .call (day 1) (.proposeTimelockedOp asAuthority adminOpSetFeatureFlag
        flagCircuitBreaker .default) ]

end Market

open Market in
/-- It is executed on day 2. -/
theorem timelock_soundness_flag :
    ∃ s' p c₀, Action.exec localRuntime (run localRuntime genesis proposed)
        (.call (day 2) (.executeTimelockedOp asAuthority)) = .ok s' ∧
      Executed localRuntime mint.key genesis proposed (day 2) s' p c₀ := by
  obtain ⟨s', h⟩ : ∃ s', Action.exec localRuntime (run localRuntime genesis proposed)
      (.call (day 2) (.executeTimelockedOp asAuthority)) = .ok s' :=
    isOk_iff.mp (by decide +kernel)
  obtain ⟨p, c₀, hexec⟩ :=
    (timelock_soundness localRuntime mint.key genesis_genesis proposed).1 (day 2) asAuthority s'
      rfl h
  exact ⟨s', p, c₀, h, hexec⟩

end SolanaStablecoin
