import SolanaStablecoin.Base.Window
import SolanaStablecoin.Verify.Guarantee
import SolanaStablecoin.Verify.Signers
import SolanaStablecoin.Verify.SlotCap

/-! The daily limit of the redemption guarantee. Its window is reset by the first request after it
is over, so that a day meets two windows at most. The counter saturates, and so is exact unless the
limit is the largest number. A request needs an escrow account at an address where none is ever
opened. -/

namespace SolanaStablecoin

open Transition Window

variable {rt : Runtime} {clock : Clock} {s s' : State} {a : Action} {M : Pubkey} {L n slot : UInt64}
  {b : RequestRedemption} {rg : RedemptionGuarantee} {h : List Mark}

/-! ## The window -/

def State.guarantee (s : State) (M : Pubkey) : Option RedemptionGuarantee :=
  s.redemptionGuarantees (.redemptionGuarantee M)

/-- The window of the guarantee is over. -/
def State.DayOver (s : State) (M : Pubkey) (slot : UInt64) : Prop :=
  ∃ rg ∈ s.guarantee M, slot.saturatingSub rg.dayStartSlot ≥ slotsPerDay

instance State.DayOver.decidable : Decidable (s.DayOver M slot) :=
  inferInstanceAs (Decidable (∃ rg ∈ s.guarantee M, _))

/-- A request starts a new window when the last one is over. -/
def State.newDay (s : State) (M : Pubkey) (slot : UInt64) : List Mark :=
  if s.DayOver M slot then [.reset] else []

/-- What a successful transaction shows of the limit of `M`. -/
def requestMarks (M : Pubkey) (s : State) : Action → List Mark
  | .call clock (.requestRedemption b n) =>
    if b.config = .stablecoinConfig M then
      s.newDay M clock.slot ++ [.spent clock.slot.toNat n.toNat]
    else []
  | _ => []

def Action.Registers (M : Pubkey) : Action → Prop
  | .call _ (.registerRedemptionPool b _ _) => b.config = .stablecoinConfig M
  | _ => False

theorem over_iff : slot.saturatingSub rg.dayStartSlot ≥ slotsPerDay ↔
    rg.dayStartSlot.toNat + slotsPerDay.toNat ≤ slot.toNat := by
  rw [ge_iff_le, UInt64.le_iff_toNat_le, UInt64.toNat_saturatingSub]
  have hpos : 0 < slotsPerDay.toNat := by decide
  omega

theorem State.dayOver_iff (hrg : s.guarantee M = some rg) :
    s.DayOver M slot ↔ rg.dayStartSlot.toNat + slotsPerDay.toNat ≤ slot.toNat := by
  rw [DayOver, hrg, ← over_iff]
  simp

theorem RedemptionGuarantee.rollDay_max (rg : RedemptionGuarantee) (slot : UInt64) :
    (rg.rollDay slot).maxDailyRedemption = rg.maxDailyRedemption := by
  unfold rollDay
  split <;> rfl

/-! ## What is written -/

/-- What a successful transaction does to the guarantee of `M`. -/
inductive GuaranteeStep (M : Pubkey) (s : State) : Action → State → Prop where
  | kept {a : Action} {s' : State} (idle : requestMarks M s a = [])
    (guarantee : s'.guarantee M = s.guarantee M) : GuaranteeStep M s a s'
  | registered {a : Action} {s' : State} (h : a.Registers M) : GuaranteeStep M s a s'
  | requested {clock : Clock} {b : RequestRedemption} {n : UInt64} {s' : State}
    {rg : RedemptionGuarantee} (config : b.config = .stablecoinConfig M)
    (stored : s.guarantee M = some rg)
    (escrowed : ∃ acc, s.tokens.accounts (.redemptionEscrow M b.user.key) = some acc)
    (within : (rg.rollDay clock.slot).dailyRedeemed.saturatingAdd n ≤ rg.maxDailyRedemption)
    (guarantee : s'.guarantee M = some { rg.rollDay clock.slot with
      dailyRedeemed := (rg.rollDay clock.slot).dailyRedeemed.saturatingAdd n }) :
    GuaranteeStep M s (.call clock (.requestRedemption b n)) s'

theorem loadGuarantee_eq_ok {c : StablecoinConfig} :
    loadGuarantee s c = .ok rg ↔ s.guarantee c.mint = some rg ∧ rg.sssMint = c.mint := by
  rw [loadGuarantee, checked_eq_ok, load_eq_ok, State.guarantee]

theorem State.guarantee_put {N : Pubkey}
    (h : s'.redemptionGuarantees = put s.redemptionGuarantees (.redemptionGuarantee N) rg) :
    s'.guarantee M = if N = M then some rg else s.guarantee M := by
  rw [guarantee, h]
  exact put_eq_ite _ _
    ⟨fun heq => (Pubkey.redemptionGuarantee.inj heq).symm, fun hN => congrArg _ hN.symm⟩

theorem requestRedemptionHandler_guarantee (h : requestRedemptionHandler rt clock s b n = .ok s') :
    GuaranteeStep M s (.call clock (.requestRedemption b n)) s' := by
  simp only [requestRedemptionHandler, bind_eq_ok, loadOwnConfig_eq_ok, loadGuarantee_eq_ok,
    requireTokenOf_eq_ok, require_eq_ok, pure_eq_ok] at h
  obtain ⟨c, ⟨-, hkey⟩, rg, ⟨hrg, -⟩, _, -, _, ⟨acc, hescrow, -⟩, _, -, _, -, _, -, _, hwithin, _,
    -, rfl⟩ := h
  rw [rg.rollDay_max] at hwithin
  by_cases hc : c.mint = M
  · subst hc
    refine .requested hkey hrg ⟨acc, hescrow⟩ hwithin ?_
    rw [State.guarantee_put rfl, if_pos rfl]
  · refine .kept (if_neg fun hconfig => hc ?_) ?_
    · exact Pubkey.stablecoinConfig.inj (hkey.symm.trans hconfig)
    · rw [State.guarantee_put rfl, if_neg hc]

theorem requestMarks_of_idle {i : Instruction} (hi : i.guarantees = false) :
    requestMarks M s (.call clock i) = [] := by
  cases i with
  | requestRedemption => cases hi
  | _ => rfl

theorem exec_guarantee (h : a.exec rt s = .ok s') : GuaranteeStep M s a s' := by
  cases a with
  | world w =>
    obtain ⟨t, p, q, d, rfl⟩ := World.exec_outside h
    exact .kept rfl rfl
  | call clock i =>
    cases hi : i.guarantees with
    | false =>
      refine .kept (requestMarks_of_idle hi) ?_
      cases exec_funds h with
      | same h | insured _ h | pooled _ h =>
        exact congrFun (congrArg Funds.redemptionGuarantees h) _
      | guaranteed kind =>
        rw [hi] at kind
        cases kind
    | true =>
      cases i with
      | registerRedemptionPool b vault limit =>
        change registerRedemptionPoolHandler rt clock s b vault limit = .ok s' at h
        simp only [registerRedemptionPoolHandler, bind_eq_ok,
          AuthorityAndConfig.loadConfig_eq_ok, pure_eq_ok] at h
        obtain ⟨c, ⟨-, hkey, -⟩, _, -, _, -, rfl⟩ := h
        by_cases hc : c.mint = M
        · subst hc
          exact .registered hkey
        · refine .kept rfl ?_
          rw [State.guarantee_put rfl, if_neg hc]
      | requestRedemption => exact requestRedemptionHandler_guarantee h
      | fulfillRedemption b =>
        change fulfillRedemptionHandler rt clock s b = .ok s' at h
        simp only [fulfillRedemptionHandler, bind_eq_ok, pure_eq_ok] at h
        obtain ⟨c, -, _, -, _, -, _, -, _, -, _, -, _, -, _, -, _, -, _, -, _, -, _, -, _, -, _, -,
          rfl⟩ := h
        exact .kept rfl rfl
      | claimExpiredRedemption b =>
        change claimExpiredRedemptionHandler rt clock s b = .ok s' at h
        simp only [claimExpiredRedemptionHandler, bind_eq_ok, pure_eq_ok] at h
        obtain ⟨c, -, _, -, _, -, _, -, _, -, _, -, _, -, _, -, _, -, _, -, _, -, _, -, _, -, _, -,
          rfl⟩ := h
        exact .kept rfl rfl
      | _ => cases hi

/-! ## The counter -/

/-- The counter of the guarantee, whose limit is `L`, tells what its window has spent. -/
def State.Metered (s : State) (M : Pubkey) (L : UInt64) (h : List Mark) : Prop :=
  ∃ rg, s.guarantee M = some rg ∧ rg.maxDailyRedemption = L ∧
    rg.dailyRedeemed.toNat = min (total (current h)) (2 ^ 64 - 1)

/-- The window that a request falls into. -/
def State.dayMarks (s : State) (M : Pubkey) (slot : UInt64) (h : List Mark) : List Mark :=
  current (h ++ s.newDay M slot)

theorem State.dayMarks_of_over (ho : s.DayOver M slot) : s.dayMarks M slot h = [] := by
  rw [dayMarks, newDay, if_pos ho, current_reset]

theorem State.dayMarks_of_not_over (ho : ¬ s.DayOver M slot) : s.dayMarks M slot h = current h := by
  rw [dayMarks, newDay, if_neg ho, List.append_nil]

theorem rollDay_redeemed (hrg : s.guarantee M = some rg)
    (hcount : rg.dailyRedeemed.toNat = min (total (current h)) (2 ^ 64 - 1)) (slot : UInt64) :
    (rg.rollDay slot).dailyRedeemed.toNat = min (total (s.dayMarks M slot h)) (2 ^ 64 - 1) := by
  rw [RedemptionGuarantee.rollDay]
  split
  next hover =>
    rw [State.dayMarks_of_over ⟨rg, hrg, hover⟩]
    rfl
  next hopen =>
    rwa [State.dayMarks_of_not_over]
    rw [State.dayOver_iff hrg, ← over_iff]
    exact hopen

theorem current_requestMarks (hb : b.config = .stablecoinConfig M) :
    current (h ++ requestMarks M s (.call clock (.requestRedemption b n))) =
      s.dayMarks M clock.slot h ++ [.spent clock.slot.toNat n.toNat] := by
  rw [requestMarks, if_pos hb, ← List.append_assoc, current_spent, State.dayMarks]

theorem State.Metered.step (H : s.Metered M L h) (hreg : ¬ a.Registers M)
    (hstep : GuaranteeStep M s a s') : s'.Metered M L (h ++ requestMarks M s a) := by
  obtain ⟨rg, hrg, hmax, hcount⟩ := H
  cases hstep with
  | kept idle guarantee =>
    rw [idle, List.append_nil]
    exact ⟨rg, guarantee ▸ hrg, hmax, hcount⟩
  | registered hkind => exact absurd hkind hreg
  | @requested clock b n s' rg' config stored _ within guarantee =>
    cases hrg.symm.trans stored
    refine ⟨_, guarantee, (rg.rollDay_max _).trans hmax, ?_⟩
    rw [current_requestMarks config, total_spent, UInt64.toNat_saturatingAdd,
      rollDay_redeemed hrg hcount]
    omega

/-- A window that is within the limit stays so, unless the counter cannot tell any more. -/
theorem State.Metered.within (H : s.Metered M L h) (hL : L.toNat < 2 ^ 64 - 1)
    (hle : total (current h) ≤ L.toNat) (hreg : ¬ a.Registers M) (hstep : GuaranteeStep M s a s') :
    total (current (h ++ requestMarks M s a)) ≤ L.toNat := by
  obtain ⟨rg, hrg, hmax, hcount⟩ := H
  cases hstep with
  | kept idle => rwa [idle, List.append_nil]
  | registered hkind => exact absurd hkind hreg
  | @requested clock b n s' rg' config stored _ within guarantee =>
    cases hrg.symm.trans stored
    have hroll := rollDay_redeemed hrg hcount clock.slot
    have hfits : total (s.dayMarks M clock.slot h) ≤ L.toNat := by
      by_cases ho : s.DayOver M clock.slot
      · rw [State.dayMarks_of_over ho]
        exact Nat.zero_le _
      · rwa [State.dayMarks_of_not_over ho]
    rw [hmax, UInt64.le_iff_toNat_le, UInt64.toNat_saturatingAdd] at within
    rw [current_requestMarks config, total_spent]
    omega

/-! ## A request that is refused for the limit -/

def limitExceeded : ProgramError := .sss .redemptionDailyLimitExceeded

/-- Such a request has an escrow, and the limit has no room for it. -/
theorem refused_over_limit (hb : b.config = .stablecoinConfig M)
    (h : requestRedemptionHandler rt clock s b n = .error limitExceeded) :
    (∃ acc, s.tokens.accounts (.redemptionEscrow M b.user.key) = some acc) ∧
      ∀ rg, s.guarantee M = some rg →
        ¬ (rg.rollDay clock.slot).dailyRedeemed.saturatingAdd n ≤ rg.maxDailyRedemption := by
  have hanchor (e : AnchorError) : ProgramError.anchor e ≠ limitExceeded :=
    ProgramError.noConfusion
  rw [requestRedemptionHandler] at h
  obtain ⟨c, hc, h⟩ := FailsOnly.of_bind (loadOwnConfig_failsOnly hanchor) h
  obtain ⟨rg', hrg', h⟩ := FailsOnly.of_bind
    (.bind (load_failsOnly hanchor) fun _ => .bind (.guard (by decide)) fun _ => .pure) h
  obtain ⟨_, -, h⟩ := FailsOnly.of_bind (requireTokenOf_failsOnly hanchor) h
  obtain ⟨_, hescrow, h⟩ := FailsOnly.of_bind (requireTokenOf_failsOnly hanchor) h
  obtain ⟨_, -, h⟩ := FailsOnly.of_bind (requireFree_failsOnly hanchor) h
  obtain ⟨m, -, h⟩ := FailsOnly.of_bind (load_failsOnly hanchor) h
  obtain ⟨_, -, h⟩ := FailsOnly.of_bind (.guard (by decide)) h
  obtain ⟨-, hkey⟩ := loadOwnConfig_eq_ok.mp hc
  cases Pubkey.stablecoinConfig.inj (hb.symm.trans hkey)
  obtain ⟨acc, hacc, -⟩ := requireTokenOf_eq_ok.mp hescrow
  refine ⟨⟨acc, hacc⟩, fun rg hrg hwithin => ?_⟩
  cases hrg.symm.trans (loadGuarantee_eq_ok.mp hrg').1
  rw [← rg'.rollDay_max clock.slot] at hwithin
  dsimp only at h
  rw [require_pos hwithin, ok_bind] at h
  -- what follows the limit fails for the tokens only
  obtain ⟨_, -, h⟩ := FailsOnly.of_bind (.okOr (by decide)) h
  cases h

theorem State.Metered.refused (H : s.Metered M L h) (hb : b.config = .stablecoinConfig M)
    (herror : requestRedemptionHandler rt clock s b n = .error limitExceeded) :
    L.toNat < total (s.dayMarks M clock.slot h) + n.toNat := by
  obtain ⟨rg, hrg, hmax, hcount⟩ := H
  have hover := (refused_over_limit hb herror).2 rg hrg
  rw [hmax, UInt64.le_iff_toNat_le, UInt64.toNat_saturatingAdd, rollDay_redeemed hrg hcount]
    at hover
  omega

/-! ## Windows over a run -/

/-- The window of the guarantee did not begin in the future. -/
def State.DayPast (s : State) (M : Pubkey) (now : UInt64) : Prop :=
  ∀ rg, s.guarantee M = some rg → rg.dayStartSlot ≤ now

theorem Action.exec_dayPast (hs : s.DayPast M slot) (ha : a.past slot ∧ ¬ a.Registers M)
    (h : a.exec rt s = .ok s') : s'.DayPast M slot := by
  intro rg' hrg'
  cases exec_guarantee (M := M) h with
  | kept _ guarantee => exact hs rg' (guarantee ▸ hrg')
  | registered hkind => exact absurd hkind ha.2
  | @requested clock b n s' rg _ stored _ _ guarantee =>
    cases guarantee.symm.trans hrg'
    change (rg.rollDay clock.slot).dayStartSlot ≤ slot
    rw [RedemptionGuarantee.rollDay]
    split
    · exact ha.1
    · exact hs rg stored

/-- The windows of the run do not overlap, and none has spent more than the limit. -/
def State.Daily (s : State) (M : Pubkey) (L : UInt64) (h : List Mark) : Prop :=
  ∃ rg, s.guarantee M = some rg ∧
    Tumbles slotsPerDay.toNat L.toNat rg.dayStartSlot.toNat h

theorem State.Daily.newDay (H : s.Daily M L h) (hpast : s.DayPast M slot)
    (hrg : s.guarantee M = some rg) :
    Tumbles slotsPerDay.toNat L.toNat (rg.rollDay slot).dayStartSlot.toNat (h ++ s.newDay M slot) ∧
      (rg.rollDay slot).dayStartSlot.toNat ≤ slot.toNat ∧
      slot.toNat < (rg.rollDay slot).dayStartSlot.toNat + slotsPerDay.toNat := by
  obtain ⟨rg', hrg', htumbles⟩ := H
  cases hrg.symm.trans hrg'
  have hdecide : s.DayOver M slot ↔ rg.dayStartSlot.toNat + slotsPerDay.toNat ≤ slot.toNat :=
    State.dayOver_iff hrg
  rw [RedemptionGuarantee.rollDay, State.newDay]
  by_cases ho : s.DayOver M slot
  · rw [if_pos ho, if_pos (over_iff.mpr (hdecide.mp ho))]
    exact ⟨htumbles.reset (hdecide.mp ho), Nat.le_refl _, Nat.lt_add_of_pos_right (by decide)⟩
  · rw [if_neg ho, if_neg fun hover => ho (hdecide.mpr (over_iff.mp hover)), List.append_nil]
    exact ⟨htumbles, UInt64.le_iff_toNat_le.mp (hpast rg hrg),
      Nat.lt_of_not_le fun hover => ho (hdecide.mpr hover)⟩

theorem State.Daily.step (H : s.Daily M L h) (hM : s.Metered M L h) (hreg : ¬ a.Registers M)
    (hpast : ∀ clock j, a = .call clock j → s.DayPast M clock.slot) (hL : L.toNat < 2 ^ 64 - 1)
    (hstep : GuaranteeStep M s a s') : s'.Daily M L (h ++ requestMarks M s a) := by
  have hle : total (current (h ++ requestMarks M s a)) ≤ L.toNat := by
    obtain ⟨rg, -, htumbles⟩ := H
    exact hM.within hL htumbles.within hreg hstep
  cases hstep with
  | kept idle guarantee =>
    rw [idle, List.append_nil]
    obtain ⟨rg, hrg, htumbles⟩ := H
    exact ⟨rg, guarantee ▸ hrg, htumbles⟩
  | registered hkind => exact absurd hkind hreg
  | @requested clock b n s' rg config stored _ _ guarantee =>
    obtain ⟨htumbles, hstart, hlt⟩ := H.newDay (hpast clock _ rfl) stored
    rw [current_requestMarks config, total_spent, State.dayMarks] at hle
    rw [requestMarks, if_pos config, ← List.append_assoc]
    exact ⟨_, guarantee, htumbles.spend hstart hlt hle⟩

/-! ## The daily limit -/

/-- The limit over a run: no window spends more, no span of a day more than twice as much, and no
request is refused for the limit that would fit into its window. -/
structure DailyLimitKept (rt : Runtime) (M : Pubkey) (L : UInt64) (s : State) (as : List Action) :
    Prop where
  windows : ∀ init tail, as = init ++ tail →
    total (current (history (Action.exec rt) (requestMarks M) s init)) ≤ L.toNat
  spans : ∀ init tail, as = init ++ tail → ∀ t,
    spentIn t slotsPerDay.toNat (history (Action.exec rt) (requestMarks M) s init) ≤ 2 * L.toNat
  refusals : ∀ init clock b n tail, as = init ++ .call clock (.requestRedemption b n) :: tail →
    b.config = .stablecoinConfig M →
    requestRedemptionHandler rt clock (run rt s init) b n = .error limitExceeded →
    L.toNat < total ((run rt s init).dayMarks M clock.slot
      (history (Action.exec rt) (requestMarks M) s init)) + n.toNat

/-- The guarantee has just been registered with that limit. -/
structure NewGuarantee (s : State) (M : Pubkey) (L : UInt64) (rg : RedemptionGuarantee)
    (slot : UInt64) : Prop where
  stored : s.guarantee M = some rg
  limit : rg.maxDailyRedemption = L
  redeemed : rg.dailyRedeemed = 0
  start : rg.dayStartSlot = slot

theorem registerRedemptionPoolHandler_registered {b : AuthorityAndConfig} {vault : Pubkey}
    (hb : b.config = .stablecoinConfig M)
    (h : registerRedemptionPoolHandler rt clock s b vault L = .ok s') :
    ∃ rg, NewGuarantee s' M L rg clock.slot := by
  simp only [registerRedemptionPoolHandler, bind_eq_ok, AuthorityAndConfig.loadConfig_eq_ok,
    pure_eq_ok] at h
  obtain ⟨c, ⟨-, hkey, -⟩, _, -, _, -, rfl⟩ := h
  cases Pubkey.stablecoinConfig.inj (hb.symm.trans hkey)
  exact ⟨_, (State.guarantee_put rfl).trans (if_pos rfl), rfl, rfl, rfl⟩

section Runs

variable {as : List Action} {clock₀ : Clock}

theorem NewGuarantee.metered (H : NewGuarantee s M L rg slot) : s.Metered M L [] := by
  refine ⟨rg, H.stored, H.limit, ?_⟩
  rw [H.redeemed]
  rfl

theorem NewGuarantee.run_metered (H : NewGuarantee s M L rg slot)
    (has : ∀ a ∈ as, ¬ a.Registers M) :
    (run rt s as).Metered M L (history (Action.exec rt) (requestMarks M) s as) := by
  have hall : Along (Action.exec rt) (fun _ a => ¬ a.Registers M) s as :=
    along_of_forall fun a ha _ => has a ha
  have hrun := invariant_history (I := fun (s : State) h => s.Metered M L h) (h := [])
    (fun hi hreg hexec => hi.step hreg (exec_guarantee hexec)) H.metered hall
  rwa [List.nil_append] at hrun

theorem NewGuarantee.run_dayPast {init tail : List Action} {j : Instruction}
    (H : NewGuarantee s M L rg slot) (hslot : slot ≤ clock.slot)
    (hslots : Chronological (init ++ .call clock j :: tail))
    (has : ∀ a ∈ init, ¬ a.Registers M) : (run rt s init).DayPast M clock.slot := by
  have hstart : s.DayPast M clock.slot := by
    intro rg' hrg'
    cases H.stored.symm.trans hrg'
    rwa [H.start]
  exact invariant_run (I := fun s => s.DayPast M clock.slot)
    (fun hi hp hexec => Action.exec_dayPast hi hp hexec) hstart
    (along_of_forall fun a ha _ => ⟨hslots.past a ha, has a ha⟩)

variable (rt) in
theorem NewGuarantee.run_daily (H : NewGuarantee s M L rg slot) (hL : L.toNat < 2 ^ 64 - 1)
    (hslots : Chronological as) (hlater : ∀ clock j, .call clock j ∈ as → slot ≤ clock.slot)
    (has : ∀ a ∈ as, ¬ a.Registers M) {init tail : List Action} (heq : as = init ++ tail) :
    (run rt s init).Daily M L (history (Action.exec rt) (requestMarks M) s init) := by
  refine invariant_prefix (I := fun (s : State) h => s.Daily M L h) ⟨rg, H.stored, .nil⟩ ?_ heq
  intro init a tail s' heq hexec hdaily
  subst heq
  have hnot : ∀ a ∈ init, ¬ a.Registers M := fun a ha => has a (List.mem_append_left _ ha)
  have hmem : a ∈ init ++ a :: tail := List.mem_append_right _ List.mem_cons_self
  refine hdaily.step (H.run_metered hnot) (has a hmem) (fun clock j ha => ?_) hL
    (exec_guarantee hexec)
  subst ha
  exact H.run_dayPast (hlater clock j hmem) hslots hnot

theorem NewGuarantee.kept (H : NewGuarantee s M L rg slot) (hL : L.toNat < 2 ^ 64 - 1)
    (hslots : Chronological as) (hlater : ∀ clock j, .call clock j ∈ as → slot ≤ clock.slot)
    (has : ∀ a ∈ as, ¬ a.Registers M) : DailyLimitKept rt M L s as where
  windows init tail heq := by
    obtain ⟨_, -, htumbles⟩ := H.run_daily rt hL hslots hlater has heq
    exact htumbles.within
  spans init tail heq t := by
    obtain ⟨_, -, htumbles⟩ := H.run_daily rt hL hslots hlater has heq
    exact htumbles.spentIn_le t
  refusals init clock b n tail heq hb herror := by
    have hmetered : (run rt s init).Metered M L
        (history (Action.exec rt) (requestMarks M) s init) :=
      H.run_metered fun a ha => has a (heq ▸ List.mem_append_left _ ha)
    exact hmetered.refused hb herror

end Runs

/-! ## Without an escrow -/

/-- No user of the guarantee has an escrow account. -/
def State.Unescrowed (s : State) (M : Pubkey) : Prop :=
  ∀ u, s.tokens.accounts (.redemptionEscrow M u) = none

theorem Pubkey.not_opens_redemptionEscrow {u : Pubkey} : ¬ (redemptionEscrow M u).Opens := by
  rintro (h | ⟨N, i, h⟩)
  · cases h
  · cases h

theorem exec_unescrowed (H : s.Unescrowed M) (h : a.exec rt s = .ok s') : s'.Unescrowed M :=
  fun u => (exec_signed h).vacant Pubkey.not_opens_redemptionEscrow (H u)

theorem run_unescrowed {as : List Action} (H : s.Unescrowed M) : (run rt s as).Unescrowed M :=
  invariant_run_of_forall (I := fun s : State => s.Unescrowed M) exec_unescrowed as H

theorem State.Unescrowed.idle (H : s.Unescrowed M) (hreg : ¬ a.Registers M)
    (h : a.exec rt s = .ok s') : requestMarks M s a = [] := by
  cases exec_guarantee (M := M) h with
  | kept idle => exact idle
  | registered hkind => exact absurd hkind hreg
  | @requested clock b _ _ _ _ _ escrowed =>
    obtain ⟨acc, hacc⟩ := escrowed
    rw [H b.user.key] at hacc
    cases hacc

theorem State.Unescrowed.history_eq {as : List Action} (H : s.Unescrowed M)
    (has : ∀ a ∈ as, ¬ a.Registers M) :
    history (Action.exec rt) (requestMarks M) s as = [] := by
  have hall : Along (Action.exec rt) (fun _ a => ¬ a.Registers M) s as :=
    along_of_forall fun a ha _ => has a ha
  have hstep {s₁ s₂ : State} {a : Action} {h : List Mark} (hi : s₁.Unescrowed M ∧ h = [])
      (hreg : ¬ a.Registers M) (hexec : a.exec rt s₁ = .ok s₂) :
      s₂.Unescrowed M ∧ h ++ requestMarks M s₁ a = [] := by
    refine ⟨exec_unescrowed hi.1 hexec, ?_⟩
    rw [hi.2, hi.1.idle hreg hexec, List.append_nil]
  have hrun := invariant_history (I := fun (s : State) h => s.Unescrowed M ∧ h = []) hstep ⟨H, rfl⟩
    hall
  rw [List.nil_append] at hrun
  exact hrun.2

/-- No request gets as far as the limit. -/
theorem State.Unescrowed.kept {as : List Action} (H : s.Unescrowed M)
    (has : ∀ a ∈ as, ¬ a.Registers M) : DailyLimitKept rt M L s as where
  windows init tail heq := by
    rw [H.history_eq fun a ha => has a (heq ▸ List.mem_append_left _ ha)]
    exact Nat.zero_le _
  spans init tail heq t := by
    rw [H.history_eq fun a ha => has a (heq ▸ List.mem_append_left _ ha)]
    exact Nat.zero_le _
  refusals init clock b n tail _ hb herror := by
    have hnone : (run rt s init).Unescrowed M := run_unescrowed H
    obtain ⟨acc, hacc⟩ := (refused_over_limit hb herror).1
    rw [hnone b.user.key] at hacc
    cases hacc

/-! ## The limit along a run -/

/-- The limit of a registration is kept until the next one. The counter is exact below the largest
number; where every account was opened by an instruction, no request comes so far. -/
theorem daily_limit {clock₀ : Clock} {b : AuthorityAndConfig} {vault : Pubkey} {s₀ : State}
    {as : List Action}
    (hs : L.toNat < 2 ^ 64 - 1 ∨ ∃ g init, g.Unescrowed M ∧ s₀ = run rt g init)
    (hreg : registerRedemptionPoolHandler rt clock₀ s₀ b vault L = .ok s)
    (hb : b.config = .stablecoinConfig M)
    (hslots : Chronological (.call clock₀ (.registerRedemptionPool b vault L) :: as))
    (has : ∀ a ∈ as, ¬ a.Registers M) : DailyLimitKept rt M L s as := by
  rcases hs with hL | ⟨g, init, hg, rfl⟩
  · obtain ⟨rg, hnew⟩ := registerRedemptionPoolHandler_registered hb hreg
    refine hnew.kept hL (List.Pairwise.of_cons hslots) (fun clock j hmem => ?_) has
    exact UInt64.le_iff_toNat_le.mpr
      (List.rel_of_pairwise_cons hslots (List.mem_filterMap.mpr ⟨_, hmem, rfl⟩))
  · have hnone : (run rt g init).Unescrowed M := run_unescrowed hg
    have hexec : Action.exec rt (run rt g init)
      (.call clock₀ (.registerRedemptionPool b vault L)) = .ok s := hreg
    exact (exec_unescrowed hnone hexec).kept has

namespace Market

/-- An account of the stablecoin. -/
def stableOf (owner : Pubkey) (amount : UInt64) : TokenAccount :=
  { mint := mint.key, owner, amount, delegate := none, delegatedAmount := 0, frozen := false }

/-- The user holds two thirds of a large supply, and the other user the rest. They have escrow
accounts, which no instruction opens. -/
def hoarded : State :=
  let s := run localRuntime genesis (opening 1000)
  { s with
    tokens :=
      { mints := fun k => (s.tokens.mints k).map ({ · with supply := 2 ^ 63 + 2 ^ 62 })
        accounts := fun
          | .redemptionEscrow M _ => some (stableOf (.redemptionGuarantee M) 0)
          | k =>
            if k = userStable.key then some (stableOf user.key (2 ^ 63))
            else if k = otherStable.key then some (stableOf other.key (2 ^ 62))
            else none } }

def request (clock : Clock) (user : Signer) (account : Pubkey) (n : UInt64) : Action :=
  .call clock (.requestRedemption { user, config, userStableAta := account, stableMint := mint.key }
    n)

/-- A day apart the users request the whole limit and half of it. -/
def hoard : List Action :=
  [request (day 1) user userStable.key (2 ^ 63), request (day 2) other otherStable.key (2 ^ 62)]

theorem hoard_chronological (L : UInt64) : Chronological
    (.call (day 1) (.registerRedemptionPool { authority, config } userStable.key L) :: hoard) := by
  change List.Pairwise (· ≤ ·) [(day 1).slot.toNat, (day 1).slot.toNat, (day 2).slot.toNat]
  decide +kernel

theorem hoard_registers : ∀ a ∈ hoard, ¬ a.Registers mint.key := by
  simp [hoard, request, Action.Registers]

end Market

open Market in
/-- Where there are escrows, two windows are counted; at launch there are none, and the largest
limit is not met. -/
theorem daily_limit_hoarded :
    (∃ s, registerRedemptionPoolHandler localRuntime (day 1) hoarded { authority, config }
        userStable.key (2 ^ 63) = .ok s ∧
      history (Action.exec localRuntime) (requestMarks mint.key) s hoard =
        [.spent 216000 (2 ^ 63), .reset, .spent 432000 (2 ^ 62)] ∧
      DailyLimitKept localRuntime mint.key (2 ^ 63) s hoard) ∧
    ∃ s, registerRedemptionPoolHandler localRuntime (day 1)
        (run localRuntime genesis (opening 1000)) { authority, config } userStable.key
        (2 ^ 64 - 1) = .ok s ∧
      DailyLimitKept localRuntime mint.key (2 ^ 64 - 1) s hoard := by
  constructor
  · have hok : (registerRedemptionPoolHandler localRuntime (day 1) hoarded { authority, config }
        userStable.key (2 ^ 63)).toOption.map (fun s => history (Action.exec localRuntime)
          (requestMarks mint.key) s hoard) =
        some [.spent 216000 (2 ^ 63), .reset, .spent 432000 (2 ^ 62)] := by decide +kernel
    obtain ⟨s, hs, hhistory⟩ := Option.map_eq_some_iff.mp hok
    have hreg := toOption_eq_some.mp hs
    have hL : (2 ^ 63 : UInt64).toNat < 2 ^ 64 - 1 := by decide +kernel
    refine ⟨s, hreg, hhistory, ?_⟩
    exact daily_limit (.inl hL) hreg rfl (hoard_chronological _) hoard_registers
  · obtain ⟨s, hs⟩ := isOk_iff.mp (show (registerRedemptionPoolHandler localRuntime (day 1)
      (run localRuntime genesis (opening 1000)) { authority, config } userStable.key
      (2 ^ 64 - 1)).isOk = true by decide +kernel)
    have hg : ∃ g init, g.Unescrowed mint.key ∧
        run localRuntime genesis (opening 1000) = run localRuntime g init :=
      ⟨genesis, opening 1000, fun _ => rfl, rfl⟩
    exact ⟨s, hs, daily_limit (.inr hg) hs rfl (hoard_chronological _) hoard_registers⟩

end SolanaStablecoin
