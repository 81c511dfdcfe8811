import SolanaStablecoin.Verify.QueueProgress
import SolanaStablecoin.Verify.Timelock

/-! The cap of the redemption queue per slot, against the share of the supply that it stands for.
What is redeemed in a slot never exceeds the share. But the product that gives it stops at the
largest number, so that a large supply has too small a cap; and a share of nothing, which is to mean
no cap, is the smallest cap there is. -/

namespace SolanaStablecoin

open Transition Window

variable {rt : Runtime} {clock : Clock} {s s' : State} {a : Action} {i supply : UInt64}
  {M : Pubkey} {b : ProcessRedemption} {rq : RedemptionQueue} {re : RedemptionEntry} {m : Mint}
  {h : List Mark}

/-! ## The cap -/

/-- The share of the supply, over unbounded numbers, and at least one unit. -/
def RedemptionQueue.share (rq : RedemptionQueue) (supply : UInt64) : Nat :=
  max 1 (supply.toNat * rq.maxRedemptionPerSlotBps.toNat / 10000)

/-- The cap treats a total of `n` as the share does, and without a share as no cap would. -/
def RedemptionQueue.Exact (rq : RedemptionQueue) (supply : UInt64) (n : Nat) : Prop :=
  if rq.maxRedemptionPerSlotBps = 0 then n ≤ 1
  else supply.toNat * rq.maxRedemptionPerSlotBps.toNat < 2 ^ 64 ∨ n ≤ (2 ^ 64 - 1) / 10000 ∨
    rq.share supply < n

namespace RedemptionQueue

theorem toNat_slotCap (rq : RedemptionQueue) (supply : UInt64) : (rq.slotCap supply).toNat =
    max 1 (min (supply.toNat * rq.maxRedemptionPerSlotBps.toNat) (2 ^ 64 - 1) / 10000) := by
  rw [slotCap, UInt64.max_def]
  have hdiv : (supply.saturatingMul rq.maxRedemptionPerSlotBps.toUInt64 / 10000).toNat =
      min (supply.toNat * rq.maxRedemptionPerSlotBps.toNat) (2 ^ 64 - 1) / 10000 := by
    rw [UInt64.toNat_div, UInt64.toNat_saturatingMul]
    rfl
  split
  next hle =>
    rw [UInt64.le_iff_toNat_le, hdiv] at hle
    exact (max_eq_left hle).symm
  next hlt =>
    rw [UInt64.le_iff_toNat_le, hdiv] at hlt
    rw [hdiv]
    exact (max_eq_right (Nat.le_of_not_le hlt)).symm

theorem slotCap_le_share (rq : RedemptionQueue) (supply : UInt64) :
    (rq.slotCap supply).toNat ≤ rq.share supply := by
  rw [toNat_slotCap, share]
  exact max_le_max_left 1 (Nat.div_le_div_right (min_le_left _ _))

theorem slotCap_lt (rq : RedemptionQueue) (supply : UInt64) :
    (rq.slotCap supply).toNat < 2 ^ 64 - 1 := by
  rw [toNat_slotCap]
  omega

/-- The saturating total is the total where it is compared. -/
theorem saturatingAdd_le_slotCap {x y : UInt64} :
    x.saturatingAdd y ≤ rq.slotCap supply ↔ x.toNat + y.toNat ≤ (rq.slotCap supply).toNat := by
  have hlt := rq.slotCap_lt supply
  rw [UInt64.le_iff_toNat_le, UInt64.toNat_saturatingAdd]
  omega

theorem exact_iff {n : Nat} : rq.Exact supply n ↔
    (rq.maxRedemptionPerSlotBps = 0 → n ≤ (rq.slotCap supply).toNat) ∧
      (rq.maxRedemptionPerSlotBps ≠ 0 → n ≤ rq.share supply → n ≤ (rq.slotCap supply).toNat) := by
  rw [toNat_slotCap, Exact]
  split
  next hzero =>
    have hcap : max 1 (min (supply.toNat * rq.maxRedemptionPerSlotBps.toNat) (2 ^ 64 - 1) / 10000) =
        1 := by
      rw [hzero, UInt16.toNat_zero, Nat.mul_zero, Nat.zero_min, Nat.zero_div]
      rfl
    rw [hcap]
    exact ⟨fun h => ⟨fun _ => h, fun hne => absurd hzero hne⟩, fun h => h.1 hzero⟩
  next hne =>
    rw [share]
    generalize supply.toNat * rq.maxRedemptionPerSlotBps.toNat = x
    constructor
    · intro h
      refine ⟨fun hzero => absurd hzero hne, fun _ hshare => ?_⟩
      omega
    · intro h
      have hcap := h.2 hne
      omega

end RedemptionQueue

/-! ## A call that is refused for the limit -/

/-- The call comes to the cap: its accounts are in order, it is for the head, and the head has
waited. -/
structure ReachesCap (s : State) (clock : Clock) (b : ProcessRedemption) (i : UInt64) (M : Pubkey)
    (rq : RedemptionQueue) (re : RedemptionEntry) (supply : UInt64) : Prop where
  accounts : ProcessReady s b M rq re supply
  head : i = rq.queueHead
  ready : re.enqueueSlot.saturatingAdd rq.minDelaySlots ≤ clock.slot

def capExceeded : ProgramError := .sss .redemptionSlotCapExceeded

theorem ReachesCap.refused_iff (h : ReachesCap s clock b i M rq re supply) :
    processRedemptionHandler rt clock s b i = .error capExceeded ↔
      ¬ (rq.rollSlot clock.slot).slotRedemptionTotal.saturatingAdd re.amount ≤
        rq.slotCap supply := by
  obtain ⟨rest, hrest, heq⟩ := h.accounts.checks rt clock
  rw [h.head, heq, require_pos h.ready, ok_bind]
  by_cases hwithin : (rq.rollSlot clock.slot).slotRedemptionTotal.saturatingAdd re.amount ≤
      rq.slotCap supply
  · rw [require_pos hwithin, ok_bind]
    refine iff_of_false (fun herror => ?_) (not_not_intro hwithin)
    exact Bool.noConfusion (hrest _ herror)
  · rw [require_neg hwithin]
    exact iff_of_true rfl hwithin

/-- Only a call that comes to the cap is refused for it. -/
theorem reachesCap_of_refused (hb : b.config = .stablecoinConfig M)
    (h : processRedemptionHandler rt clock s b i = .error capExceeded) :
    ∃ rq re supply, ReachesCap s clock b i M rq re supply := by
  have hanchor (e : AnchorError) : ProgramError.anchor e ≠ capExceeded := ProgramError.noConfusion
  rw [processRedemptionHandler] at h
  obtain ⟨c, hc, h⟩ := FailsOnly.of_bind (loadOwnConfig_failsOnly hanchor) h
  obtain ⟨_, hflag, h⟩ := FailsOnly.of_bind (.guard (by decide)) h
  obtain ⟨rq, hrq, h⟩ := FailsOnly.of_bind
    (.bind (load_failsOnly hanchor) fun _ => .bind (.guard (by decide)) fun _ => .pure) h
  obtain ⟨re, hre, h⟩ := FailsOnly.of_bind
    (.bind (load_failsOnly hanchor) fun _ => .bind (.guard (by decide)) fun _ =>
      .bind (.guard (by decide)) fun _ => .pure) h
  obtain ⟨_, hescrow, h⟩ := FailsOnly.of_bind (requireTokenOf_failsOnly hanchor) h
  obtain ⟨vault, hvault, h⟩ := FailsOnly.of_bind (load_failsOnly hanchor) h
  obtain ⟨_, howner, h⟩ := FailsOnly.of_bind (.guard (hanchor _)) h
  obtain ⟨m, hm, h⟩ := FailsOnly.of_bind (load_failsOnly hanchor) h
  obtain ⟨cm, hcm, h⟩ := FailsOnly.of_bind (load_failsOnly hanchor) h
  obtain ⟨_, hhead, h⟩ := FailsOnly.of_bind (.guard (by decide)) h
  obtain ⟨_, hready, h⟩ := FailsOnly.of_bind (.guard (by decide)) h
  obtain ⟨hconfig, hkey⟩ := loadOwnConfig_eq_ok.mp hc
  cases Pubkey.stablecoinConfig.inj (hb.symm.trans hkey)
  obtain ⟨hqueue, hown⟩ := loadQueue_eq_ok.mp hrq
  obtain ⟨hentry, hwaiting⟩ := loadEntry_eq_ok.mp hre
  have hindex : i = rq.queueHead := require_eq_ok.mp hhead
  subst hindex
  refine ⟨rq, re, m.supply, ?_, rfl, require_eq_ok.mp hready⟩
  exact
    { config := ⟨c, hconfig, rfl, StablecoinConfig.requireQueueFlag_eq_ok.mp hflag⟩
      key := hkey
      queue := hqueue
      own := hown
      entry := hentry
      waiting := hwaiting
      escrow := requireTokenOf_eq_ok.mp hescrow
      vault := ⟨vault, load_eq_ok.mp hvault, require_eq_ok.mp howner⟩
      stable := ⟨m, load_eq_ok.mp hm, rfl⟩
      collateral := ⟨cm, load_eq_ok.mp hcm⟩ }

/-! ## The slots of a run -/

theorem Chronological.past {init tail : List Action} {j : Instruction}
    (h : Chronological (init ++ .call clock j :: tail)) : ∀ a ∈ init, a.past clock.slot := by
  intro a ha
  rw [Chronological, List.filterMap_append, List.pairwise_append] at h
  cases a with
  | world w => trivial
  | call clock' j' =>
    refine UInt64.le_iff_toNat_le.mpr (h.2.2 _ ?_ _ ?_)
    · exact List.mem_filterMap.mpr ⟨_, ha, rfl⟩
    · exact List.mem_filterMap.mpr ⟨_, List.mem_cons_self, rfl⟩

/-- The counters of the queue of `M` tell what `h` shows of its last slot, and nothing is later. -/
structure State.Tallies (s : State) (M : Pubkey) (h : List Mark) : Prop where
  unopened : s.queueCounters M = none → h = []
  past : ∀ x, s.queueCounters M = some x → ∀ t n, .spent t n ∈ h → t ≤ x.1.toNat
  total : ∀ x, s.queueCounters M = some x → spentWhen (· = x.1.toNat) h = x.2.toNat

theorem State.queueCounters_of_some (hrq : s.redemptionQueues (.redemptionQueue M) = some rq) :
    s.queueCounters M = some (rq.lastSlotProcessed, rq.slotRedemptionTotal) := by
  rw [queueCounters, hrq, Option.map_some]

theorem State.entryAmount_of_some (hre : s.redemptionEntries (.redemptionEntry M i) = some re) :
    s.entryAmount M i = re.amount.toNat := by
  rw [entryAmount, hre, Option.map_some, Option.getD_some]

namespace State.Tallies

theorem counts {x : UInt64 × UInt64} (H : s.Tallies M h) (hx : s.queueCounters M = some x) :
    Window.Counts x.1.toNat x.2.toNat h := ⟨H.past x hx, H.total x hx⟩

theorem of_counts {x : UInt64 × UInt64} (hx : s.queueCounters M = some x)
    (H : Window.Counts x.1.toNat x.2.toNat h) : s.Tallies M h := by
  refine ⟨fun hnone => ?_, fun y hy => ?_, fun y hy => ?_⟩
  · cases hx.symm.trans hnone
  · cases hx.symm.trans hy
    exact H.past
  · cases hx.symm.trans hy
    exact H.total

/-- What has been redeemed in a slot that is not over. -/
theorem spent_eq {slot : UInt64} (H : s.Tallies M h)
    (hrq : s.redemptionQueues (.redemptionQueue M) = some rq)
    (hslot : rq.lastSlotProcessed ≤ slot) :
    spentWhen (· = slot.toNat) h = (rq.rollSlot slot).slotRedemptionTotal.toNat := by
  rw [(H.counts (State.queueCounters_of_some hrq)).spent_eq (UInt64.le_iff_toNat_le.mp hslot),
    RedemptionQueue.rollSlot]
  split <;> split
  · rfl
  next hnew hsame => exact absurd (congrArg UInt64.toNat (Classical.not_not.mp hsame)) hnew
  next hsame hnew => exact absurd (UInt64.toNat_inj.mp (Classical.not_not.mp hsame)) hnew
  · rfl

theorem step (H : s.Tallies M h) (hpast : ∀ clock j, a = .call clock j → s.QueuePast M clock.slot)
    (hstep : CountersStep M s a s') : s'.Tallies M (h ++ redemptions M s a) := by
  cases hstep with
  | kept idle counters =>
    rw [idle, List.append_nil]
    exact ⟨counters ▸ H.unopened, counters ▸ H.past, counters ▸ H.total⟩
  | opened idle free counters =>
    have hnone : s.queueCounters M = none := by rw [State.queueCounters, free, Option.map_none]
    rw [idle, List.append_nil, H.unopened hnone]
    refine ⟨fun _ => rfl, fun x _ t n ht => absurd ht List.not_mem_nil, fun x hx => ?_⟩
    cases counters.symm.trans hx
    rfl
  | @redeemed clock b i s' rq re m config queue entry _ within counters =>
    have hlast : rq.lastSlotProcessed ≤ clock.slot := hpast clock _ rfl rq queue
    have hlast' := UInt64.le_iff_toNat_le.mp hlast
    have hcounts :=
      (H.counts (State.queueCounters_of_some queue)).spend (n := re.amount.toNat) hlast'
    rw [RedemptionQueue.saturatingAdd_le_slotCap] at within
    have hlt := rq.slotCap_lt m.supply
    have htotal : ((rq.rollSlot clock.slot).slotRedemptionTotal.saturatingAdd re.amount).toNat =
        (rq.rollSlot clock.slot).slotRedemptionTotal.toNat + re.amount.toNat := by
      rw [UInt64.toNat_saturatingAdd]
      omega
    rw [redemptions, if_pos config, State.entryAmount_of_some entry]
    refine of_counts counters ?_
    rw [← (H.counts (State.queueCounters_of_some queue)).spent_eq hlast', H.spent_eq queue hlast,
      ← htotal] at hcounts
    exact hcounts

end State.Tallies

theorem run_tallies {as : List Action} (hs : s.redemptionQueues (.redemptionQueue M) = none)
    (has : Chronological as) :
    (run rt s as).Tallies M (history (Action.exec rt) (redemptions M) s as) := by
  have hnone : s.Tallies M [] := by
    have hcounters : s.queueCounters M = none := by rw [State.queueCounters, hs, Option.map_none]
    refine ⟨fun _ => rfl, fun x hx => ?_, fun x hx => ?_⟩
    · cases hcounters.symm.trans hx
    · cases hcounters.symm.trans hx
  refine invariant_prefix (I := fun (s : State) h => s.Tallies M h) hnone ?_
    (List.append_nil as).symm
  intro init a tail s' heq hexec H
  refine H.step (fun clock j ha => ?_) (exec_counters hexec)
  subst ha heq
  exact run_queuePast hs has.past

/-! ## The share of the supply -/

/-- What is asked of a call for the entry `i` of `M` in a slot in which `redeemed` has gone out. -/
structure SlotCapKept (rt : Runtime) (clock : Clock) (s : State) (b : ProcessRedemption)
    (i : UInt64) (M : Pubkey) (redeemed : Nat) : Prop where
  /-- A call that is accepted stays within the share of the supply. -/
  within : ∀ rq m, s.redemptionQueues (.redemptionQueue M) = some rq →
    s.tokens.mints b.stableMint = some m → rq.maxRedemptionPerSlotBps ≠ 0 →
    (processRedemptionHandler rt clock s b i).isOk = true →
    redeemed + s.entryAmount M i ≤ rq.share m.supply
  /-- A call that would stay within it is not refused for the limit. -/
  admitted : ∀ rq m, s.redemptionQueues (.redemptionQueue M) = some rq →
    s.tokens.mints b.stableMint = some m → rq.maxRedemptionPerSlotBps ≠ 0 →
    redeemed + s.entryAmount M i ≤ rq.share m.supply →
    processRedemptionHandler rt clock s b i ≠ .error capExceeded
  /-- Without a share there is no cap. -/
  uncapped : ∀ rq, s.redemptionQueues (.redemptionQueue M) = some rq →
    rq.maxRedemptionPerSlotBps = 0 → processRedemptionHandler rt clock s b i ≠ .error capExceeded

theorem slotCapKept_iff {redeemed : Nat} (hb : b.config = .stablecoinConfig M)
    (hredeemed : ∀ rq, s.redemptionQueues (.redemptionQueue M) = some rq →
      redeemed = (rq.rollSlot clock.slot).slotRedemptionTotal.toNat) :
    SlotCapKept rt clock s b i M redeemed ↔
      ∀ rq re supply, ReachesCap s clock b i M rq re supply →
        rq.Exact supply (redeemed + re.amount.toNat) := by
  have hrefused {rq : RedemptionQueue} {re : RedemptionEntry} {supply : UInt64}
      (h : ReachesCap s clock b i M rq re supply) :
      processRedemptionHandler rt clock s b i = .error capExceeded ↔
        ¬ redeemed + re.amount.toNat ≤ (rq.slotCap supply).toNat := by
    rw [h.refused_iff, RedemptionQueue.saturatingAdd_le_slotCap, hredeemed rq h.accounts.queue]
  constructor
  · intro H rq re supply h
    have hamount : s.entryAmount M i = re.amount.toNat :=
      State.entryAmount_of_some (h.head ▸ h.accounts.entry)
    obtain ⟨m, hm, rfl⟩ := h.accounts.stable
    rw [RedemptionQueue.exact_iff, ← Classical.not_not (a := _ ≤ (rq.slotCap m.supply).toNat),
      ← hrefused h]
    refine ⟨H.uncapped rq h.accounts.queue, fun hne hle => ?_⟩
    exact H.admitted rq m h.accounts.queue hm hne (hamount ▸ hle)
  · intro H
    refine ⟨fun rq m hrq hm hne hok => ?_, fun rq m hrq hm hne hle herror => ?_,
      fun rq hrq hzero herror => ?_⟩
    · obtain ⟨s', hs'⟩ := isOk_iff.mp hok
      cases processRedemptionHandler_counters (M := M) hs' with
      | kept idle | opened idle =>
        rw [redemptions, if_pos hb] at idle
        cases idle
      | redeemed _ queue entry stable hwithin =>
        cases hrq.symm.trans queue
        cases hm.symm.trans stable
        rw [RedemptionQueue.saturatingAdd_le_slotCap, ← hredeemed rq hrq] at hwithin
        rw [State.entryAmount_of_some entry]
        exact hwithin.trans (rq.slotCap_le_share m.supply)
    · obtain ⟨rq', re, supply, h⟩ := reachesCap_of_refused hb herror
      cases hrq.symm.trans h.accounts.queue
      obtain ⟨m', hm', rfl⟩ := h.accounts.stable
      cases hm.symm.trans hm'
      rw [State.entryAmount_of_some (h.head ▸ h.accounts.entry)] at hle
      exact (hrefused h).mp herror ((RedemptionQueue.exact_iff.mp (H _ _ _ h)).2 hne hle)
    · obtain ⟨rq', re, supply, h⟩ := reachesCap_of_refused hb herror
      cases hrq.symm.trans h.accounts.queue
      exact (hrefused h).mp herror ((RedemptionQueue.exact_iff.mp (H _ _ _ h)).1 hzero)

/-- After every run the next call treats the limit as it should exactly if, where it comes to the
cap, the cap is the share of the supply as far as the total of the slot goes, and the total is one
unit at most if there is no share. -/
theorem slot_cap {as : List Action} (hs : s.redemptionQueues (.redemptionQueue M) = none)
    (hb : b.config = .stablecoinConfig M)
    (has : Chronological (as ++ [.call clock (.processRedemption b i)])) :
    SlotCapKept rt clock (run rt s as) b i M (spentWhen (· = clock.slot.toNat)
        (history (Action.exec rt) (redemptions M) s as)) ↔
      ∀ rq re supply, ReachesCap (run rt s as) clock b i M rq re supply →
        rq.Exact supply (spentWhen (· = clock.slot.toNat)
          (history (Action.exec rt) (redemptions M) s as) + re.amount.toNat) := by
  have htallies : (run rt s as).Tallies M (history (Action.exec rt) (redemptions M) s as) := by
    rw [Chronological, List.filterMap_append, List.pairwise_append] at has
    exact run_tallies hs has.1
  exact slotCapKept_iff hb fun rq hrq =>
    htallies.spent_eq hrq (run_queuePast hs has.past rq hrq)

namespace Market

/-- The share of the supply is set, once these amounts have been enqueued. -/
def shared (bps : UInt16) (amounts : List UInt64) : List Action :=
  enqueued amounts ++ [ .call (day 2) (.updateRedemptionQueue { authority, config } none none
    (some bps) none) ]

def processed (i : UInt64) : Action := .call (day 3) (.processRedemption keeperCall i)

/-- Two units, of a supply of 100, without a share. -/
theorem uncapped_reaches : ReachesCap (run localRuntime genesis (shared 0 [2])) (day 3) keeperCall 0
    mint.key { queueAt 1 with maxRedemptionPerSlotBps := 0 } (entryOf 0 2) 100 where
  accounts :=
    { config := by decide +kernel
      key := rfl
      queue := by decide +kernel
      own := rfl
      entry := by decide +kernel
      waiting := ⟨rfl, rfl⟩
      escrow := by decide +kernel
      vault := by decide +kernel
      stable := by decide +kernel
      collateral := Option.isSome_iff_exists.mp (by decide +kernel) }
  head := rfl
  ready := by decide +kernel

end Market

open Market in
/-- The first of two calls in a slot takes the last of the share of two hundredths. -/
theorem slot_cap_shared :
    (history (Action.exec localRuntime) (redemptions mint.key) genesis
        (shared 200 [1, 1] ++ [processed 0])) = [.spent (day 3).slot.toNat 1] ∧
      SlotCapKept localRuntime (day 3)
        (run localRuntime genesis (shared 200 [1, 1] ++ [processed 0])) keeperCall 1 mint.key
        (spentWhen (· = (day 3).slot.toNat) (history (Action.exec localRuntime)
          (redemptions mint.key) genesis (shared 200 [1, 1] ++ [processed 0]))) := by
  have hbps : ((run localRuntime genesis (shared 200 [1, 1] ++ [processed 0])).redemptionQueues
      (.redemptionQueue mint.key)).map (·.maxRedemptionPerSlotBps) = some 200 := by decide +kernel
  have hsupply : ((run localRuntime genesis (shared 200 [1, 1] ++ [processed 0])).tokens.mints
      keeperCall.stableMint).map (·.supply) = some 99 := by decide +kernel
  have hslots : Chronological (shared 200 [1, 1] ++ [processed 0] ++ [processed 1]) := by
    unfold Chronological
    decide +kernel
  refine ⟨by decide +kernel, (slot_cap rfl rfl hslots).mpr ?_⟩
  intro rq re supply h
  obtain ⟨m, hm, rfl⟩ := h.accounts.stable
  rw [h.accounts.queue] at hbps
  rw [Option.mem_def.mp hm] at hsupply
  have hrq : rq.maxRedemptionPerSlotBps = 200 := Option.some.inj hbps
  have hm' : m.supply = 99 := Option.some.inj hsupply
  rw [RedemptionQueue.Exact, hrq, hm', if_neg (by decide)]
  exact .inl (by decide)

open Market in
/-- Two of a hundred units are refused for the limit although there is to be no cap. -/
theorem slot_cap_uncapped :
    Genesis genesis ∧ Chronological (shared 0 [2] ++ [processed 0]) ∧
      ¬ SlotCapKept localRuntime (day 3) (run localRuntime genesis (shared 0 [2])) keeperCall 0
        mint.key (spentWhen (· = (day 3).slot.toNat) (history (Action.exec localRuntime)
          (redemptions mint.key) genesis (shared 0 [2]))) := by
  have hslots : Chronological (shared 0 [2] ++ [processed 0]) := by
    unfold Chronological
    decide +kernel
  refine ⟨genesis_genesis, hslots, fun H => ?_⟩
  refine H.uncapped _ uncapped_reaches.accounts.queue rfl ?_
  exact uncapped_reaches.refused_iff.mpr (by decide)

end SolanaStablecoin
