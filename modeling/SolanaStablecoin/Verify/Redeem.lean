import SolanaStablecoin.Verify.Effects

/-! What the exchanges of stablecoins for collateral do when they succeed. -/

namespace SolanaStablecoin

variable {rt : Runtime} {clock : Clock} {s s' : State} {c : StablecoinConfig} {n : UInt64}

/-! ## deposit_collateral, redeem and psm_dynamic_swap -/

theorem depositCollateralHandler_ok {a : DepositCollateral}
    (h : depositCollateralHandler rt s a n = .ok s') : Quiet s s' := by
  simp [depositCollateralHandler] at h
  obtain ⟨c, ⟨hc, -⟩, -, -, -, -, _, -, -, -, -, -, t, ht, x, -, rfl⟩ := h
  exact
    { vaults := rfl
      positions := rfl
      tokens := .of_transfer a.depositor.isCustodian ht
      records := rfl
      terms := .of_put hc rfl rfl
      offices := .of_put hc rfl rfl }

theorem Redeem.load_ok {a : Redeem} {vault : TokenAccount} (h : a.load s = .ok (c, vault)) :
    s.configs (.stablecoinConfig a.sssMint) = some c ∧ a.sssMint = c.mint ∧ c.paused = false := by
  simp [Redeem.load] at h
  obtain ⟨⟨hc, -, -, hm⟩, hrun, -⟩ := h
  exact ⟨hc, hm, hrun⟩

theorem Redeem.settle_ok {a : Redeem} {out : UInt64} {e : SssError}
    (hc : s.configs (.stablecoinConfig a.sssMint) = some c) (hm : a.sssMint = c.mint)
    (h : a.settle rt s c n out e = .ok s') : Retired s c a.sssMint n s' ∧ Frame s s' := by
  simp [Redeem.settle] at h
  obtain ⟨t, hburn, t', htransfer, x, hx, y, -, rfl⟩ := h
  refine ⟨?_, rfl, rfl, rfl⟩
  exact { Posted.of_addBurned hc hm hx rfl with
    tokens := .of_burn_moves a.redeemer.isCustodian hburn (.of_transfer rfl htransfer) }

theorem redeemHandler_ok {a : Redeem} (h : redeemHandler rt s a n = .ok s') :
    ∃ c, Retired s c a.sssMint n s' ∧ c.paused = false ∧
      c.featureFlags &&& flagCircuitBreaker = 0 ∧ Frame s s' := by
  simp [redeemHandler] at h
  obtain ⟨c, vault, hload, -, -, hcb, -, out, -, h⟩ := h
  obtain ⟨hc, hm, hrun⟩ := Redeem.load_ok hload
  obtain ⟨hret, hframe⟩ := Redeem.settle_ok hc hm h
  exact ⟨c, hret, hrun, hcb, hframe⟩

theorem psmDynamicSwapHandler_ok {a : Redeem} (h : psmDynamicSwapHandler rt s a n = .ok s') :
    ∃ c, Retired s c a.sssMint n s' ∧ c.paused = false ∧ Frame s s' := by
  simp [psmDynamicSwapHandler] at h
  obtain ⟨c, vault, hload, -, _, -, -, -, -, -, h⟩ := h
  obtain ⟨hc, hm, hrun⟩ := Redeem.load_ok hload
  obtain ⟨hret, hframe⟩ := Redeem.settle_ok hc hm h
  exact ⟨c, hret, hrun, hframe⟩

/-! ## The redemption pool -/

theorem seedRedemptionPoolHandler_ok {a : SeedRedemptionPool} {max : UInt64} {fee : UInt16}
    (h : seedRedemptionPoolHandler rt s a n max fee = .ok s') : Quiet s s' := by
  simp [seedRedemptionPoolHandler] at h
  obtain ⟨c, -, _, -, -, -, -, -, -, -, -, -, t, ht, rfl⟩ := h
  exact
    { vaults := rfl
      positions := rfl
      tokens := .of_transfer a.authority.isCustodian ht
      records := rfl
      terms := .of_eq rfl
      offices := .of_eq rfl }

theorem replenishRedemptionPoolHandler_ok {a : ReplenishRedemptionPool}
    (h : replenishRedemptionPoolHandler rt s a n = .ok s') : Quiet s s' := by
  simp [replenishRedemptionPoolHandler] at h
  obtain ⟨c, -, pool, -, -, -, -, -, -, t, ht, rfl⟩ := h
  exact
    { vaults := rfl
      positions := rfl
      tokens := .of_transfer a.replenisher.isCustodian ht
      records := rfl
      terms := .of_eq rfl
      offices := .of_eq rfl }

theorem drainRedemptionPoolHandler_ok {a : DrainRedemptionPool}
    (h : drainRedemptionPoolHandler rt s a = .ok s') : Quiet s s' := by
  simp [drainRedemptionPoolHandler] at h
  obtain ⟨c, -, pool, -, -, -, -, -, -, t, ht, rfl⟩ := h
  exact
    { vaults := rfl
      positions := rfl
      tokens := .of_transfer rfl ht
      records := rfl
      terms := .of_eq rfl
      offices := .of_eq rfl }

/-- The stablecoins are burned, and nothing records it. -/
theorem instantRedemptionHandler_ok {a : InstantRedemption}
    (h : instantRedemptionHandler rt s a n = .ok s') :
    ∃ c, s.configs a.config = some c ∧ a.config = .stablecoinConfig c.mint ∧ c.paused = false ∧
      s.tokens.Retires c.mint n s'.tokens ∧ s'.configs = s.configs ∧ Frame s s' := by
  simp [instantRedemptionHandler] at h
  obtain ⟨c, ⟨hc, hk⟩, hrun, pool, -, _, -, -, -, -, -, -, -, -, -, t, hburn, t', htransfer,
    rfl⟩ := h
  refine ⟨c, hc, hk, hrun, ?_, rfl, rfl, rfl, rfl⟩
  exact .of_burn_moves a.user.isCustodian hburn (.of_transfer rfl htransfer)

/-! ## The redemption queue -/

/-- A new escrow is thawed, and the user's tokens go there. -/
structure Enqueued (rt : Runtime) (s : State) (a : EnqueueRedemption) (n : UInt64) (s' : State)
    (c : StablecoinConfig) (rq : RedemptionQueue) : Prop extends Loose s s' where
  config : s.configs a.config = some c
  key : a.config = .stablecoinConfig c.mint
  queue : s.redemptionQueues (.redemptionQueue c.mint) = some rq
  free : s.redemptionEntries (.redemptionEntry c.mint rq.queueTail) = none
  source : ∃ acc, s.tokens.accounts a.userStableAta = some acc ∧ acc.owner = a.user.key
  escrowed : ∃ t₁ t₂, s.tokens.InitializesAccount (.queueEscrow c.mint rq.queueTail) a.stableMint
      (.redemptionQueue c.mint) t₁ ∧
    t₁.Thaws (.queueEscrow c.mint rq.queueTail) a.stableMint a.config t₂ ∧
    t₂.Transfers a.userStableAta a.stableMint (.queueEscrow c.mint rq.queueTail) a.user.key n
      (rt.token.transferFee t₂ a.stableMint n) s'.tokens
  configs : s'.configs = s.configs
  queues : s'.redemptionQueues = put s.redemptionQueues (.redemptionQueue c.mint)
    { rq with queueTail := rq.queueTail.saturatingAdd 1 }
  entries : ∃ re : RedemptionEntry,
    s'.redemptionEntries = put s.redemptionEntries (.redemptionEntry c.mint rq.queueTail) re ∧
      re.queueIndex = rq.queueTail ∧ re.owner = a.user.key ∧ re.amount = n ∧
      re.fulfilled = false ∧ re.cancelled = false
  files : s'.files = s.files

theorem enqueueRedemptionHandler_ok {a : EnqueueRedemption}
    (h : enqueueRedemptionHandler rt clock s a n = .ok s') : ∃ c rq, Enqueued rt s a n s' c rq := by
  simp [enqueueRedemptionHandler] at h
  obtain ⟨c, ⟨hc, hk⟩, -, rq, ⟨hrq, -⟩, ⟨acc, hacc, -, hacco⟩, t₁, hinit, hfree, -, -, t₂, hthaw,
    t₃, htransfer, rfl⟩ := h
  have hinit := rt.token.initializeAccount_ok hinit
  have hthaw := rt.token.thawAccount_ok hthaw
  have h₁ : s.tokens.Shifts t₁ := .single (.move (.initializeAccount hinit))
  have h₂ : t₁.Shifts t₂ := .single (.thaw hthaw)
  have h₃ : t₂.Shifts t₃ := Tokens.Moves.shifts (.of_transfer a.user.isCustodian htransfer)
  refine ⟨c, rq, ?_⟩
  exact
    { vaults := rfl
      positions := rfl
      tokens := (h₁.trans h₂).trans h₃
      terms := .of_eq rfl
      config := hc
      key := hk
      queue := hrq
      free := hfree
      source := ⟨acc, hacc, hacco⟩
      escrowed := ⟨t₁, t₂, hinit, hthaw, rt.token.transferChecked_ok htransfer⟩
      configs := rfl
      queues := rfl
      entries := ⟨_, rfl, rfl, rfl, rfl, rfl, rfl⟩
      files := rfl }

/-- The escrow of the head entry is burned, in whatever mint the caller names, and the entry is
fulfilled. -/
structure Processed (rt : Runtime) (s : State) (a : ProcessRedemption) (s' : State)
    (c : StablecoinConfig) (rq : RedemptionQueue) (re : RedemptionEntry) : Prop
    extends Posted s c c.mint 0 re.amount.toNat s' where
  vaults : s'.collateralVaults = s.collateralVaults
  positions : s'.cdpPositions = s.cdpPositions
  key : a.config = .stablecoinConfig c.mint
  queue : s.redemptionQueues (.redemptionQueue c.mint) = some rq
  entry : s.redemptionEntries (.redemptionEntry c.mint rq.queueHead) = some re
  waiting : re.fulfilled = false ∧ re.cancelled = false
  settled : ∃ t vault, s.tokens.Burns a.stableMint (.queueEscrow c.mint rq.queueHead)
      (.redemptionQueue c.mint) re.amount t ∧
    s.tokens.accounts a.reserveVault = some vault ∧
    vault.owner = a.reserveVaultAuthority.key ∧
    t.Transfers a.reserveVault a.collateralMint a.userCollateralAta a.reserveVaultAuthority.key
      re.amount (rt.token.transferFee t a.collateralMint re.amount) s'.tokens
  queues : ∃ rq', s'.redemptionQueues = put s.redemptionQueues (.redemptionQueue c.mint) rq' ∧
    rq'.queueHead = rq.queueHead.saturatingAdd 1 ∧ rq'.queueTail = rq.queueTail
  entries : s'.redemptionEntries =
    put s.redemptionEntries (.redemptionEntry c.mint rq.queueHead) { re with fulfilled := true }
  files : s'.files = s.files

/-- Starting a new slot moves neither end of the queue. -/
theorem RedemptionQueue.rollSlot_ends (rq : RedemptionQueue) (slot : UInt64) :
    (rq.rollSlot slot).queueHead = rq.queueHead ∧ (rq.rollSlot slot).queueTail = rq.queueTail := by
  unfold rollSlot
  split
  · exact ⟨rfl, rfl⟩
  · exact ⟨rfl, rfl⟩

theorem processRedemptionHandler_ok {a : ProcessRedemption} {i : UInt64}
    (h : processRedemptionHandler rt clock s a i = .ok s') :
    ∃ c rq re, i = rq.queueHead ∧ Processed rt s a s' c rq re := by
  simp [processRedemptionHandler] at h
  obtain ⟨c, ⟨hc, hk⟩, -, rq, ⟨hrq, -⟩, re, ⟨hre, hful, hcan⟩, -, vault, hvault, hvo, m,
    -, -, hi, -, -, t, hburn, t', htransfer, x, hx, y, -, rfl⟩ := h
  obtain ⟨hhead, htail⟩ := rq.rollSlot_ends clock.slot
  subst hi
  rw [hk] at hc
  refine ⟨c, rq, re, rfl, ?_⟩
  exact { Posted.of_addBurned hc rfl hx (by rw [hk]) with
    vaults := rfl
    positions := rfl
    key := hk
    queue := hrq
    entry := hre
    waiting := ⟨hful, hcan⟩
    settled := ⟨t, vault, rt.token.burn_ok hburn, hvault, hvo,
      rt.token.transferChecked_ok htransfer⟩
    queues := ⟨_, rfl, by simp only [hhead], htail⟩
    entries := rfl
    files := rfl }

theorem Processed.tokens {a : ProcessRedemption} {rq : RedemptionQueue} {re : RedemptionEntry}
    (h : Processed rt s a s' c rq re) : s.tokens.Settles a.stableMint
      (.queueEscrow c.mint rq.queueHead) (.redemptionQueue c.mint) re.amount s'.tokens := by
  obtain ⟨t, vault, hburn, -, -, htransfer⟩ := h.settled
  exact ⟨t, hburn, .single
    (.transfer a.reserveVaultAuthority.isCustodian rt.token.transferFee_le htransfer)⟩

/-- What the entry holds goes back to its owner. -/
structure Refunded (rt : Runtime) (s : State) (a : CancelRedemption) (i : UInt64) (s' : State)
    (c : StablecoinConfig) (rq : RedemptionQueue) (re : RedemptionEntry) : Prop
    extends Loose s s' where
  config : s.configs a.config = some c
  key : a.config = .stablecoinConfig c.mint
  queue : s.redemptionQueues (.redemptionQueue c.mint) = some rq
  entry : s.redemptionEntries (.redemptionEntry c.mint i) = some re
  waiting : re.fulfilled = false ∧ re.cancelled = false
  owner : re.owner = a.owner.key
  refund : s.tokens.Transfers (.queueEscrow c.mint i) a.stableMint a.userStableAta
    (.redemptionQueue c.mint) re.amount (rt.token.transferFee s.tokens a.stableMint re.amount)
    s'.tokens
  destination : ∃ acc, s.tokens.accounts a.userStableAta = some acc ∧ acc.owner = a.owner.key
  configs : s'.configs = s.configs
  queues : s'.redemptionQueues = put s.redemptionQueues (.redemptionQueue c.mint)
    { rq with
      queueHead := if i = rq.queueHead then rq.queueHead.saturatingAdd 1 else rq.queueHead }
  entries : s'.redemptionEntries =
    put s.redemptionEntries (.redemptionEntry c.mint i) { re with cancelled := true }
  files : s'.files = s.files

theorem cancelRedemptionHandler_ok {a : CancelRedemption} {i : UInt64}
    (h : cancelRedemptionHandler rt s a i = .ok s') : ∃ c rq re, Refunded rt s a i s' c rq re := by
  simp [cancelRedemptionHandler] at h
  obtain ⟨c, ⟨hc, hk⟩, rq, ⟨hrq, -⟩, re, ⟨hre, hful, hcan⟩, howner, -, ⟨acc, hacc, -, hacco⟩, t, ht,
    rfl⟩ := h
  have htransfer := rt.token.transferChecked_ok ht
  refine ⟨c, rq, re, ?_⟩
  exact
    { vaults := rfl
      positions := rfl
      tokens := .single (.pay rfl rt.token.transferFee_le htransfer)
      terms := .of_eq rfl
      config := hc
      key := hk
      queue := hrq
      entry := hre
      waiting := ⟨hful, hcan⟩
      owner := howner
      refund := htransfer
      destination := ⟨acc, hacc, hacco⟩
      configs := rfl
      queues := rfl
      entries := rfl
      files := rfl }

/-- The instructions that write the queue alone. -/
inductive Requeues (s : State) (c : StablecoinConfig) : Instruction → RedemptionQueue → Prop where
  | init {a : AuthorityAndConfig} {rq : RedemptionQueue}
    (free : s.redemptionQueues (.redemptionQueue c.mint) = none) (head : rq.queueHead = 0)
    (tail : rq.queueTail = 0) : Requeues s c (.initRedemptionQueue a) rq
  | update {a : AuthorityAndConfig} {delay depth reward : Option UInt64} {bps : Option UInt16}
    {rq rq' : RedemptionQueue} (queue : s.redemptionQueues (.redemptionQueue c.mint) = some rq)
    (head : rq'.queueHead = rq.queueHead) (tail : rq'.queueTail = rq.queueTail) :
    Requeues s c (.updateRedemptionQueue a delay depth bps reward) rq'
  | compact {config : Pubkey} {i : UInt64} {rq : RedemptionQueue} {re : RedemptionEntry}
    (queue : s.redemptionQueues (.redemptionQueue c.mint) = some rq)
    (entry : s.redemptionEntries (.redemptionEntry c.mint rq.queueHead) = some re)
    (done : re.cancelled = true ∨ re.fulfilled = true) :
    Requeues s c (.compactRedemptionHead config i)
      { rq with queueHead := rq.queueHead.saturatingAdd 1 }

/-- The queue is all that changes. -/
structure SetsQueue (s : State) (i : Instruction) (s' : State) (c : StablecoinConfig)
    (rq : RedemptionQueue) : Prop extends Loose s s' where
  requeues : Requeues s c i rq
  configs : s'.configs = s.configs
  tokens_eq : s'.tokens = s.tokens
  queues : s'.redemptionQueues = put s.redemptionQueues (.redemptionQueue c.mint) rq
  entries : s'.redemptionEntries = s.redemptionEntries
  files : s'.files = s.files

theorem SetsQueue.mk' {i : Instruction} {rq : RedemptionQueue} (h : Requeues s c i rq) :
    SetsQueue s i
      { s with redemptionQueues := put s.redemptionQueues (.redemptionQueue c.mint) rq } c rq where
  vaults := rfl
  positions := rfl
  tokens := .refl
  terms := .of_eq rfl
  requeues := h
  configs := rfl
  tokens_eq := rfl
  queues := rfl
  entries := rfl
  files := rfl

theorem initRedemptionQueueHandler_ok {a : AuthorityAndConfig}
    (h : initRedemptionQueueHandler s a = .ok s') :
    ∃ c rq, SetsQueue s (.initRedemptionQueue a) s' c rq := by
  simp [initRedemptionQueueHandler] at h
  obtain ⟨c, -, -, hfree, rfl⟩ := h
  exact ⟨c, _, .mk' (.init hfree rfl rfl)⟩

theorem updateRedemptionQueueHandler_ok {a : AuthorityAndConfig} {delay depth : Option UInt64}
    {bps : Option UInt16} {reward : Option UInt64}
    (h : updateRedemptionQueueHandler s a delay depth bps reward = .ok s') :
    ∃ c rq, SetsQueue s (.updateRedemptionQueue a delay depth bps reward) s' c rq := by
  simp [updateRedemptionQueueHandler] at h
  obtain ⟨c, -, rq, ⟨hrq, -⟩, -, -, rfl⟩ := h
  refine ⟨c, _, .mk' ?_⟩
  exact .update hrq rfl rfl

theorem compactRedemptionHeadHandler_ok {config : Pubkey} {i : UInt64}
    (h : compactRedemptionHeadHandler s config i = .ok s') :
    ∃ c rq, SetsQueue s (.compactRedemptionHead config i) s' c rq := by
  simp [compactRedemptionHeadHandler] at h
  obtain ⟨c, -, -, rq, ⟨hrq, -⟩, entry, hentry, hdone, hi, rfl⟩ := h
  subst hi
  exact ⟨c, _, .mk' (.compact hrq hentry hdone)⟩

/-! ## The redemption guarantee -/

theorem requestRedemptionHandler_ok {a : RequestRedemption}
    (h : requestRedemptionHandler rt clock s a n = .ok s') : Quiet s s' := by
  simp [requestRedemptionHandler] at h
  obtain ⟨c, -, rg, -, -, -, -, -, -, -, t, ht, rfl⟩ := h
  exact
    { vaults := rfl
      positions := rfl
      tokens := .of_transfer a.user.isCustodian ht
      records := rfl
      terms := .of_eq rfl
      offices := .of_eq rfl }

theorem loadRequest_eq_ok {c : StablecoinConfig} {k : Pubkey} {rr : RedemptionRequest} :
    loadRequest s c k = .ok rr ↔ s.redemptionRequests k = some rr ∧
      k = .redemptionRequest c.mint rr.user ∧ rr.fulfilled = false ∧ rr.slaBreached = false := by
  simp only [loadRequest, bind_eq_ok, load_eq_ok, require_eq_ok, pure_eq_ok]
  constructor
  · rintro ⟨_, hrr, _, hkey, _, hful, _, hsla, rfl⟩
    exact ⟨hrr, hkey, hful, hsla⟩
  · rintro ⟨hrr, hkey, hful, hsla⟩
    exact ⟨rr, hrr, (), hkey, (), hful, (), hsla, rfl⟩

/-- The escrow holds the stablecoin, so no other mint can be burned from it. -/
theorem fulfillRedemptionHandler_ok {a : FulfillRedemption}
    (h : fulfillRedemptionHandler rt clock s a = .ok s') :
    ∃ c rr, a.config = .stablecoinConfig c.mint ∧
      s.redemptionRequests a.redemptionRequest = some rr ∧ Retired s c c.mint rr.amount s' ∧
      Frame s s' := by
  simp [fulfillRedemptionHandler] at h
  obtain ⟨c, ⟨hc, hk⟩, rg, -, rr, hrr, ⟨acc, hacc, hmint, -⟩, -, -, _, -, -, -, -, -, t, hburn, t',
    htransfer, x, hx, rfl⟩ := h
  have hstable : a.stableMint = c.mint := by
    obtain ⟨m, acc', -, hacc', hmint', -⟩ := rt.token.burn_ok hburn
    rw [hacc] at hacc'
    cases hacc'
    rw [← hmint', hmint]
  rw [hstable] at hburn
  rw [hk] at hc
  refine ⟨c, rr, hk, (loadRequest_eq_ok.mp hrr).1, ?_, rfl, rfl, rfl⟩
  exact { Posted.of_addBurned hc rfl hx (by rw [hk]) with
    tokens := .of_burn_moves rfl hburn (.of_transfer a.fulfiller.isCustodian htransfer) }

theorem claimExpiredRedemptionHandler_ok {a : ClaimExpiredRedemption}
    (h : claimExpiredRedemptionHandler rt clock s a = .ok s') : Quiet s s' := by
  simp [claimExpiredRedemptionHandler] at h
  obtain ⟨c, ⟨-, hk⟩, -, rr, -, -, -, -, fund, -, -, -, -, -, -, t, ht, t', hpenalty, rfl⟩ := h
  have hconfig : a.config.isCustodian = false := by rw [hk]; rfl
  have hmoves : t.Moves t' := by
    rcases hpenalty with ⟨-, h⟩ | ⟨-, rfl⟩
    · exact .of_transfer hconfig h
    · exact .refl
  exact
    { vaults := rfl
      positions := rfl
      tokens := (Tokens.Moves.of_transfer rfl ht).trans hmoves
      records := rfl
      terms := .of_eq rfl
      offices := .of_eq rfl }

end SolanaStablecoin
