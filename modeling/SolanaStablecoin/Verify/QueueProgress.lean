import SolanaStablecoin.Base.Ensures
import SolanaStablecoin.Base.Window
import SolanaStablecoin.Verify.Queue

/-! Progress of the redemption queue. What is enqueued may be any amount, and what is processed has
to fit under the cap per slot, so the head goes on exactly if its amount does. -/

namespace SolanaStablecoin

open Transition

variable {rt : Runtime} {clock : Clock} {s s' : State} {a : Action} {i : UInt64} {M : Pubkey}
  {b : ProcessRedemption} {rq : RedemptionQueue} {re : RedemptionEntry} {supply now slot : UInt64}

/-! ## The checks of the queue -/

/-- The errors of the checks that the queue itself makes. -/
def ProgramError.ofQueue : ProgramError → Bool
  | .sss .redemptionQueueOutOfOrder | .sss .redemptionNotReady
  | .sss .redemptionSlotCapExceeded => true
  | _ => false

/-- How much may be redeemed in one slot. -/
def RedemptionQueue.slotCap (rq : RedemptionQueue) (supply : UInt64) : UInt64 :=
  max (supply.saturatingMul rq.maxRedemptionPerSlotBps.toUInt64 / 10000) 1

/-- The delay and the cap let the entry through in that slot. -/
structure RedemptionQueue.Admits (rq : RedemptionQueue) (re : RedemptionEntry)
    (supply slot : UInt64) : Prop where
  ready : re.enqueueSlot.saturatingAdd rq.minDelaySlots ≤ slot
  within : (rq.rollSlot slot).slotRedemptionTotal.saturatingAdd re.amount ≤ rq.slotCap supply

/-- A call for the live entry at the head, with accounts that are in order. -/
structure ProcessReady (s : State) (b : ProcessRedemption) (M : Pubkey) (rq : RedemptionQueue)
    (re : RedemptionEntry) (supply : UInt64) : Prop where
  config : ∃ c ∈ s.configs b.config, c.mint = M ∧ c.featureFlags &&& flagRedemptionQueue ≠ 0
  key : b.config = .stablecoinConfig M
  queue : s.redemptionQueues (.redemptionQueue M) = some rq
  own : rq.sssMint = M
  entry : s.redemptionEntries (.redemptionEntry M rq.queueHead) = some re
  waiting : re.fulfilled = false ∧ re.cancelled = false
  escrow : ∃ acc ∈ s.tokens.accounts (.queueEscrow M rq.queueHead),
    acc.mint = b.stableMint ∧ acc.owner = .redemptionQueue M
  vault : ∃ acc ∈ s.tokens.accounts b.reserveVault, acc.owner = b.reserveVaultAuthority.key
  stable : ∃ m ∈ s.tokens.mints b.stableMint, m.supply = supply
  collateral : ∃ m, s.tokens.mints b.collateralMint = some m

theorem RedemptionQueue.rollSlot_bps (rq : RedemptionQueue) (slot : UInt64) :
    (rq.rollSlot slot).maxRedemptionPerSlotBps = rq.maxRedemptionPerSlotBps := by
  unfold rollSlot
  split <;> rfl

/-- With the accounts in order, only the delay and the cap are left, and after them no check of the
queue. -/
theorem ProcessReady.checks (h : ProcessReady s b M rq re supply) (rt : Runtime) (clock : Clock) :
    ∃ rest : Result State, FailsOnly rest (fun e => e.ofQueue = false) ∧
      processRedemptionHandler rt clock s b rq.queueHead = (do
        require (clock.slot ≥ re.enqueueSlot.saturatingAdd rq.minDelaySlots)
          (.sss .redemptionNotReady)
        require ((rq.rollSlot clock.slot).slotRedemptionTotal.saturatingAdd re.amount ≤
          rq.slotCap supply) (.sss .redemptionSlotCapExceeded)
        rest) := by
  obtain ⟨c, hc, rfl, hflag⟩ := h.config
  obtain ⟨vault, hvault, howner⟩ := h.vault
  obtain ⟨m, hm, rfl⟩ := h.stable
  obtain ⟨cm, hcm⟩ := h.collateral
  have hconfig : loadOwnConfig s b.config = .ok c := loadOwnConfig_eq_ok.mpr ⟨hc, h.key⟩
  have hqueue : loadQueue s c = .ok rq := loadQueue_eq_ok.mpr ⟨h.queue, h.own⟩
  have hentry : loadEntry s c rq.queueHead = .ok re :=
    loadEntry_eq_ok.mpr ⟨h.entry, h.waiting.1, h.waiting.2⟩
  have hescrow : requireTokenOf s (.queueEscrow c.mint rq.queueHead) b.stableMint
      (.redemptionQueue c.mint) = .ok () := requireTokenOf_eq_ok.mpr h.escrow
  have hload : load s.tokens.accounts b.reserveVault = .ok vault := load_eq_ok.mpr hvault
  have hstable : load s.tokens.mints b.stableMint = .ok m := load_eq_ok.mpr hm
  have hcollateral : load s.tokens.mints b.collateralMint = .ok cm := load_eq_ok.mpr hcm
  rw [processRedemptionHandler, hconfig, ok_bind, StablecoinConfig.requireQueueFlag,
    require_pos hflag, ok_bind]
  simp only [hqueue, hentry, hescrow, hload, hstable, hcollateral, ok_bind, require_pos howner,
    require_pos trivial, rq.rollSlot_bps]
  refine ⟨_, ?_, rfl⟩
  refine .bind (.okOr rfl) fun _ => .bind (.okOr rfl) fun _ => .bind ?_ fun _ =>
    .bind (.okOr rfl) fun _ => .pure
  exact .bind (.okOr rfl) fun _ => .pure

theorem processRedemptionHandler_failsOnly_iff (h : ProcessReady s b M rq re supply) :
    FailsOnly (processRedemptionHandler rt clock s b rq.queueHead) (fun e => e.ofQueue = false) ↔
      rq.Admits re supply clock.slot := by
  obtain ⟨rest, hrest, heq⟩ := h.checks rt clock
  rw [heq]
  by_cases hready : re.enqueueSlot.saturatingAdd rq.minDelaySlots ≤ clock.slot
  · rw [require_pos hready, ok_bind]
    by_cases hwithin : (rq.rollSlot clock.slot).slotRedemptionTotal.saturatingAdd re.amount ≤
        rq.slotCap supply
    · rw [require_pos hwithin, ok_bind]
      exact iff_of_true hrest ⟨hready, hwithin⟩
    · rw [require_neg hwithin]
      exact iff_of_false (fun h => Bool.noConfusion (h _ rfl)) fun h => hwithin h.within
  · rw [require_neg hready]
    exact iff_of_false (fun h => Bool.noConfusion (h _ rfl)) fun h => hready h.ready

/-- What is processed was admitted. -/
theorem ProcessReady.admits (h : ProcessReady s b M rq re supply) {b' : ProcessRedemption}
    (hb' : b'.config = .stablecoinConfig M)
    (hexec : processRedemptionHandler rt clock s b' i = .ok s') :
    rq.Admits re supply clock.slot := by
  simp only [processRedemptionHandler, bind_eq_ok, loadOwnConfig_eq_ok, loadQueue_eq_ok,
    loadEntry_eq_ok, requireTokenOf_eq_ok, load_eq_ok, require_eq_ok] at hexec
  obtain ⟨c, ⟨-, hkey⟩, _, -, rq', ⟨hrq', -⟩, re', ⟨hre', -, -⟩, _, ⟨acc, hacc, hmint, -⟩, _, -, _,
    -, m, hm, _, -, _, hhead, _, hready, _, hwithin, -⟩ := hexec
  cases Pubkey.stablecoinConfig.inj (hb'.symm.trans hkey)
  cases h.queue.symm.trans hrq'
  subst hhead
  cases h.entry.symm.trans hre'
  obtain ⟨acc', hacc', hmint', -⟩ := h.escrow
  obtain ⟨m', hm', rfl⟩ := h.stable
  cases hacc.symm.trans hacc'
  rw [← hmint, hmint', hm'] at hm
  cases hm
  rw [rq.rollSlot_bps] at hwithin
  exact ⟨hready, hwithin⟩

theorem RedemptionQueue.Admits.le_slotCap (h : rq.Admits re supply slot) :
    re.amount ≤ rq.slotCap supply := by
  have hle := UInt64.le_iff_toNat_le.mp h.within
  rw [UInt64.toNat_saturatingAdd] at hle
  rw [UInt64.le_iff_toNat_le]
  have hlt := re.amount.toNat_lt
  omega

/-- In a new slot nothing has been redeemed yet. -/
theorem RedemptionQueue.exists_admits (hnow : now.toNat < 2 ^ 64 - 1)
    (hlast : rq.lastSlotProcessed ≤ now) (hle : re.amount ≤ rq.slotCap supply) :
    ∃ slot, now < slot ∧ rq.Admits re supply slot := by
  have hnext : now < now.saturatingAdd 1 := by
    rw [UInt64.lt_iff_toNat_lt, UInt64.toNat_saturatingAdd]
    change now.toNat < min (now.toNat + 1) _
    omega
  obtain ⟨slot, hslot, hready⟩ : ∃ slot, now < slot ∧
      re.enqueueSlot.saturatingAdd rq.minDelaySlots ≤ slot := by
    rcases UInt64.le_total (re.enqueueSlot.saturatingAdd rq.minDelaySlots) (now.saturatingAdd 1)
      with hle | hle
    · exact ⟨_, hnext, hle⟩
    · exact ⟨_, UInt64.lt_of_lt_of_le hnext hle, UInt64.le_refl _⟩
  have hne : slot ≠ rq.lastSlotProcessed := by
    rintro rfl
    exact UInt64.not_lt.mpr hlast hslot
  refine ⟨slot, hslot, hready, ?_⟩
  rw [rollSlot, if_pos hne, UInt64.le_iff_toNat_le, UInt64.toNat_saturatingAdd]
  rw [UInt64.le_iff_toNat_le] at hle
  change min (0 + re.amount.toNat) _ ≤ _
  omega

/-! ## The counters per slot -/

/-- The last slot in which the queue of `M` was processed, and what was redeemed in it. -/
def State.queueCounters (s : State) (M : Pubkey) : Option (UInt64 × UInt64) :=
  (s.redemptionQueues (.redemptionQueue M)).map
    fun rq => (rq.lastSlotProcessed, rq.slotRedemptionTotal)

/-- What the entry asks for, nothing if there is none. -/
def State.entryAmount (s : State) (M : Pubkey) (i : UInt64) : Nat :=
  ((s.redemptionEntries (.redemptionEntry M i)).map (·.amount.toNat)).getD 0

/-- What a successful transaction redeems through the queue of `M`. -/
def redemptions (M : Pubkey) (s : State) : Action → List Window.Mark
  | .call clock (.processRedemption b i) =>
    if b.config = .stablecoinConfig M then [.spent clock.slot.toNat (s.entryAmount M i)] else []
  | _ => []

/-- What a successful transaction does to the counters of the queue of `M`. -/
inductive CountersStep (M : Pubkey) (s : State) : Action → State → Prop where
  | kept {a : Action} {s' : State} (idle : redemptions M s a = [])
    (counters : s'.queueCounters M = s.queueCounters M) : CountersStep M s a s'
  | opened {a : Action} {s' : State} (idle : redemptions M s a = [])
    (free : s.redemptionQueues (.redemptionQueue M) = none)
    (counters : s'.queueCounters M = some (0, 0)) : CountersStep M s a s'
  | redeemed {clock : Clock} {b : ProcessRedemption} {i : UInt64} {s' : State}
    {rq : RedemptionQueue} {re : RedemptionEntry} {m : Mint}
    (config : b.config = .stablecoinConfig M)
    (queue : s.redemptionQueues (.redemptionQueue M) = some rq)
    (entry : s.redemptionEntries (.redemptionEntry M i) = some re)
    (stable : s.tokens.mints b.stableMint = some m)
    (within : (rq.rollSlot clock.slot).slotRedemptionTotal.saturatingAdd re.amount ≤
      rq.slotCap m.supply)
    (counters : s'.queueCounters M = some (clock.slot,
      (rq.rollSlot clock.slot).slotRedemptionTotal.saturatingAdd re.amount)) :
    CountersStep M s (.call clock (.processRedemption b i)) s'

theorem RedemptionQueue.rollSlot_last (rq : RedemptionQueue) (slot : UInt64) :
    (rq.rollSlot slot).lastSlotProcessed = slot := by
  unfold rollSlot
  split
  next => rfl
  next h => exact (Classical.not_not.mp h).symm

theorem State.queueCounters_put {N : Pubkey}
    (h : s'.redemptionQueues = put s.redemptionQueues (.redemptionQueue N) rq) :
    s'.queueCounters M =
      if N = M then some (rq.lastSlotProcessed, rq.slotRedemptionTotal) else s.queueCounters M := by
  have hkey : Pubkey.redemptionQueue M = .redemptionQueue N ↔ N = M :=
    ⟨fun heq => (Pubkey.redemptionQueue.inj heq).symm, fun hN => congrArg _ hN.symm⟩
  rw [queueCounters, h, put_eq_ite _ _ hkey, apply_ite (Option.map _), Option.map_some,
    queueCounters]

/-- The queue is written with the counters that it had. -/
theorem CountersStep.of_same {N : Pubkey} {rq' : RedemptionQueue} (idle : redemptions M s a = [])
    (hrq : s.redemptionQueues (.redemptionQueue N) = some rq)
    (hput : s'.redemptionQueues = put s.redemptionQueues (.redemptionQueue N) rq')
    (hlast : rq'.lastSlotProcessed = rq.lastSlotProcessed)
    (htotal : rq'.slotRedemptionTotal = rq.slotRedemptionTotal) : CountersStep M s a s' := by
  refine .kept idle ?_
  rw [State.queueCounters_put hput]
  split
  next hN => rw [State.queueCounters, ← hN, hrq, Option.map_some, hlast, htotal]
  next => rfl

theorem redemptions_of_not_isQueue (h : a.isQueue = false) : redemptions M s a = [] := by
  cases a with
  | world w => rfl
  | call clock i =>
    cases i with
    | processRedemption => cases h
    | _ => rfl

theorem processRedemptionHandler_counters
    (h : processRedemptionHandler rt clock s b i = .ok s') :
    CountersStep M s (.call clock (.processRedemption b i)) s' := by
  simp only [processRedemptionHandler, bind_eq_ok, loadOwnConfig_eq_ok, loadQueue_eq_ok,
    loadEntry_eq_ok, load_eq_ok, require_eq_ok, pure_eq_ok] at h
  obtain ⟨c, ⟨-, hkey⟩, _, -, rq, ⟨hrq, -⟩, re, ⟨hre, -, -⟩, _, -, _, -, _, -, m, hm, _, -, _, -,
    _, -, _, hwithin, _, -, _, -, _, -, _, -, rfl⟩ := h
  rw [rq.rollSlot_bps] at hwithin
  by_cases hc : c.mint = M
  · subst hc
    refine .redeemed hkey hrq hre hm hwithin ?_
    rw [State.queueCounters_put rfl, if_pos rfl, rq.rollSlot_last]
  · refine .kept (if_neg fun hconfig => hc ?_) ?_
    · exact Pubkey.stablecoinConfig.inj (hkey.symm.trans hconfig)
    · rw [State.queueCounters_put rfl, if_neg hc]

theorem exec_counters (h : a.exec rt s = .ok s') : CountersStep M s a s' := by
  by_cases hkind : a.isQueue = false
  · obtain ⟨hqueues, -⟩ := (exec_step h).queues hkind
    refine .kept (redemptions_of_not_isQueue hkind) ?_
    rw [State.queueCounters, hqueues, State.queueCounters]
  · cases a with
    | world w => exact absurd rfl hkind
    | call clock j =>
      cases j with
      | initRedemptionQueue b =>
        change initRedemptionQueueHandler s b = .ok s' at h
        simp only [initRedemptionQueueHandler, bind_eq_ok, requireFree_eq_ok, pure_eq_ok] at h
        obtain ⟨c, -, _, -, _, hfree, rfl⟩ := h
        by_cases hc : c.mint = M
        · refine .opened rfl (hc ▸ hfree) ?_
          rw [State.queueCounters_put rfl, if_pos hc]
        · refine .kept rfl ?_
          rw [State.queueCounters_put rfl, if_neg hc]
      | updateRedemptionQueue b delay depth bps reward =>
        change updateRedemptionQueueHandler s b delay depth bps reward = .ok s' at h
        simp only [updateRedemptionQueueHandler, bind_eq_ok, loadQueue_eq_ok, pure_eq_ok] at h
        obtain ⟨c, -, rq, ⟨hrq, -⟩, _, -, _, -, rfl⟩ := h
        exact .of_same rfl hrq rfl rfl rfl
      | enqueueRedemption b n =>
        change enqueueRedemptionHandler rt clock s b n = .ok s' at h
        simp only [enqueueRedemptionHandler, bind_eq_ok, loadQueue_eq_ok, pure_eq_ok] at h
        obtain ⟨c, -, _, -, rq, ⟨hrq, -⟩, _, -, _, -, _, -, _, -, _, -, _, -, _, -, rfl⟩ := h
        exact .of_same rfl hrq rfl rfl rfl
      | processRedemption b i => exact processRedemptionHandler_counters h
      | cancelRedemption b i =>
        change cancelRedemptionHandler rt s b i = .ok s' at h
        simp only [cancelRedemptionHandler, bind_eq_ok, loadQueue_eq_ok, pure_eq_ok] at h
        obtain ⟨c, -, rq, ⟨hrq, -⟩, _, -, _, -, _, -, _, -, _, -, rfl⟩ := h
        exact .of_same rfl hrq rfl rfl rfl
      | compactRedemptionHead k i =>
        change compactRedemptionHeadHandler s k i = .ok s' at h
        simp only [compactRedemptionHeadHandler, bind_eq_ok, loadQueue_eq_ok, pure_eq_ok] at h
        obtain ⟨c, -, _, -, rq, ⟨hrq, -⟩, _, -, _, -, _, -, rfl⟩ := h
        exact .of_same rfl hrq rfl rfl rfl
      | _ => exact absurd rfl hkind

/-! ## The slots of a run -/

/-- No slot of the future has been processed. -/
def State.QueuePast (s : State) (M : Pubkey) (now : UInt64) : Prop :=
  ∀ rq, s.redemptionQueues (.redemptionQueue M) = some rq → rq.lastSlotProcessed ≤ now

/-- No call of the run comes from after `now`. -/
def Action.past (now : UInt64) : Action → Prop
  | .call clock _ => clock.slot ≤ now
  | .world _ => True

instance Action.past.decidable : ∀ a : Action, Decidable (a.past now)
  | .call clock _ => inferInstanceAs (Decidable (clock.slot ≤ now))
  | .world _ => isTrue trivial

theorem State.queuePast_iff :
    s.QueuePast M now ↔ ∀ x, s.queueCounters M = some x → x.1 ≤ now := by
  rw [QueuePast, queueCounters]
  cases s.redemptionQueues (.redemptionQueue M) with
  | none => exact iff_of_true (fun _ h => by cases h) fun _ h => by cases h
  | some rq => simp

theorem Action.exec_queuePast (hs : s.QueuePast M now) (hpast : a.past now)
    (h : a.exec rt s = .ok s') : s'.QueuePast M now := by
  rw [State.queuePast_iff] at hs ⊢
  intro x hx
  cases exec_counters (M := M) h with
  | kept _ counters => exact hs x (counters ▸ hx)
  | opened _ _ counters =>
    cases counters.symm.trans hx
    exact UInt64.zero_le
  | redeemed _ _ _ _ _ counters =>
    cases counters.symm.trans hx
    exact hpast

theorem run_queuePast {as : List Action}
    (hs : s.redemptionQueues (.redemptionQueue M) = none) (hpast : ∀ a ∈ as, a.past slot) :
    (run rt s as).QueuePast M slot := by
  have hnone : s.QueuePast M slot := by
    intro rq hrq
    rw [hs] at hrq
    cases hrq
  exact invariant_run (I := fun s => s.QueuePast M slot)
    (fun hi hp hexec => Action.exec_queuePast hi hp hexec) hnone
    (along_of_forall fun a ha _ => hpast a ha)

/-- In every state of a queue, some call in a later slot gets the head past the checks of the queue
exactly if its amount fits under the cap per slot; if it does not, nothing is processed at all. -/
theorem queue_progress {as : List Action} (hs : s.redemptionQueues (.redemptionQueue M) = none)
    (hpast : ∀ a ∈ as, a.past now) (hnow : now.toNat < 2 ^ 64 - 1)
    (h : ProcessReady (run rt s as) b M rq re supply) :
    ((∃ clock : Clock, now < clock.slot ∧
        FailsOnly (processRedemptionHandler rt clock (run rt s as) b rq.queueHead)
          (fun e => e.ofQueue = false)) ↔ re.amount ≤ rq.slotCap supply) ∧
      (rq.slotCap supply < re.amount → ∀ clock b' i, b'.config = .stablecoinConfig M →
        (processRedemptionHandler rt clock (run rt s as) b' i).isOk = false) := by
  refine ⟨⟨?_, fun hle => ?_⟩, fun hlt clock b' i hb' => ?_⟩
  · rintro ⟨clock, -, hpasses⟩
    exact ((processRedemptionHandler_failsOnly_iff h).mp hpasses).le_slotCap
  · have hlast : rq.lastSlotProcessed ≤ now := run_queuePast hs hpast rq h.queue
    obtain ⟨slot, hslot, hadmits⟩ := RedemptionQueue.exists_admits hnow hlast hle
    exact ⟨{ slot, epoch := 0, unixTimestamp := 0 }, hslot,
      (processRedemptionHandler_failsOnly_iff h).mpr hadmits⟩
  · rw [← Bool.not_eq_true]
    intro hok
    obtain ⟨s', hs'⟩ := isOk_iff.mp hok
    exact UInt64.not_le.mpr hlt (h.admits hb' hs').le_slotCap

namespace Market

/-- The queue is opened, where a hundredth of the supply of 100 may be redeemed in a slot, and the
user enqueues these amounts. -/
def enqueued (amounts : List UInt64) : List Action :=
  funded 1000 ++ reserves ++ timelocked adminOpSetFeatureFlag flagRedemptionQueue 1 ++
    .call (day 2) (.initRedemptionQueue { authority, config }) ::
      amounts.map fun n => .call (day 2) (.enqueueRedemption
        { user, config, userStableAta := userStable.key, stableMint := mint.key } n)

def queueAt (tail : UInt64) : RedemptionQueue :=
  { sssMint := mint.key, queueTail := tail, minDelaySlots := 750, maxQueueDepth := 1000
    maxRedemptionPerSlotBps := 100, keeperRewardLamports := 1000000 }

def entryOf (i n : UInt64) : RedemptionEntry :=
  { queueIndex := i, owner := user.key, amount := n, enqueueSlot := (day 2).slot }

def keeperCall : ProcessRedemption :=
  { keeper := other, config, reserveVault := userGold.key, reserveVaultAuthority := user
    userCollateralAta := goldAccount.key, stableMint := mint.key, collateralMint := gold.key }

theorem enqueued_ready : ProcessReady (run localRuntime genesis (enqueued [1])) keeperCall mint.key
    (queueAt 1) (entryOf 0 1) 100 where
  config := by decide +kernel
  key := rfl
  queue := by decide +kernel
  own := rfl
  entry := by decide +kernel
  waiting := ⟨rfl, rfl⟩
  escrow := by decide +kernel
  vault := by decide +kernel
  stable := by decide +kernel
  collateral := Option.isSome_iff_exists.mp (by decide +kernel)

/-- The user's 2 are twice what fits, and the next entry is behind them. -/
theorem enqueued_blocked : ProcessReady (run localRuntime genesis (enqueued [2, 1])) keeperCall
    mint.key (queueAt 2) (entryOf 0 2) 100 where
  config := by decide +kernel
  key := rfl
  queue := by decide +kernel
  own := rfl
  entry := by decide +kernel
  waiting := ⟨rfl, rfl⟩
  escrow := by decide +kernel
  vault := by decide +kernel
  stable := by decide +kernel
  collateral := Option.isSome_iff_exists.mp (by decide +kernel)

end Market

open Market in
theorem queue_progress_enqueued : ∃ clock : Clock, (day 2).slot < clock.slot ∧
    FailsOnly (processRedemptionHandler localRuntime clock (run localRuntime genesis (enqueued [1]))
      keeperCall 0) (fun e => e.ofQueue = false) :=
  (queue_progress rfl (by decide +kernel) (by decide) enqueued_ready).1.mpr (by decide)

open Market in
/-- Nobody's call goes through in any slot. -/
theorem queue_head_blocks :
    Genesis genesis ∧
      ProcessReady (run localRuntime genesis (enqueued [2, 1])) keeperCall mint.key (queueAt 2)
        (entryOf 0 2) 100 ∧
      ¬ ∃ clock : Clock, FailsOnly
        (processRedemptionHandler localRuntime clock (run localRuntime genesis (enqueued [2, 1]))
          keeperCall 0) (fun e => e.ofQueue = false) := by
  refine ⟨genesis_genesis, enqueued_blocked, ?_⟩
  rintro ⟨clock, hpasses⟩
  have hadmits := (processRedemptionHandler_failsOnly_iff enqueued_blocked).mp hpasses
  exact absurd hadmits.le_slotCap (by decide)

end SolanaStablecoin
