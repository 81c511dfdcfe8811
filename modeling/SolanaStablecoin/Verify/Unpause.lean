import SolanaStablecoin.Verify.Breaker
import SolanaStablecoin.Verify.Monitors
import SolanaStablecoin.Verify.PauseBit

/-! The way back from the keeper's breaker. The slot from which a price is within the threshold is
recorded by a call that goes on to ask whether it lies long enough in the past: the call that
records it fails, and what it recorded is rolled back with it. -/

namespace SolanaStablecoin

open Transition

variable {rt : Runtime} {clock : Clock} {s s' : State} {M : Pubkey} {a : Crank} {x : Action}

/-! ## The recovery clock -/

/-- There is a recovery window, and its clock has not been started. -/
structure KeeperConfig.Unstarted (kc : KeeperConfig) : Prop where
  window : 0 < kc.sustainedRecoverySlots
  notStarted : kc.lastWithinThresholdSlot = 0

def State.Unstarted (s : State) : Prop := ∀ k kc, s.keeperConfigs k = some kc → kc.Unstarted

theorem State.Unstarted.put {k : Pubkey} {kc : KeeperConfig} (hs : s.Unstarted)
    (hkc : kc.Unstarted) (h : s'.keeperConfigs = put s.keeperConfigs k kc) : s'.Unstarted := by
  intro k' kc' hk'
  rw [h] at hk'
  rcases put_eq_some.mp hk' with ⟨-, rfl⟩ | ⟨-, hk'⟩
  · exact hkc
  · exact hs k' kc' hk'

theorem initKeeperConfigHandler_unstarted {b : AuthorityAndConfig} {p : InitKeeperConfigParams}
    (hs : s.Unstarted) (h : initKeeperConfigHandler s b p = .ok s') : s'.Unstarted := by
  simp only [initKeeperConfigHandler, bind_eq_ok, InitKeeperConfigParams.check, require_eq_ok,
    pure_eq_ok] at h
  obtain ⟨c, -, -, -, -, -, _, ⟨-, -, -, -, -, -, -, hwindow, -⟩, rfl⟩ := h
  exact hs.put ⟨hwindow, rfl⟩ rfl

theorem crankCircuitBreakerHandler_unstarted (hs : s.Unstarted)
    (h : crankCircuitBreakerHandler rt clock s a = .ok s') : s'.Unstarted := by
  simp only [crankCircuitBreakerHandler, bind_eq_ok, Crank.loadAccounts_eq_ok, pure_eq_ok] at h
  obtain ⟨⟨c, kc⟩, ⟨-, hkc, -⟩, -, -, -, -, -, -, _, -, _, -, -, -, rfl⟩ := h
  refine State.Unstarted.put hs ?_ rfl
  exact ⟨(hs _ _ hkc).window, rfl⟩

/-- The clock would be started in this slot, and no slot has passed since. -/
theorem KeeperConfig.Unstarted.not_elapsed {kc : KeeperConfig} (h : kc.Unstarted) (slot : UInt64) :
    ¬ slot.saturatingSub (if kc.lastWithinThresholdSlot = 0 then slot
      else kc.lastWithinThresholdSlot) ≥ kc.sustainedRecoverySlots := by
  rw [if_pos h.notStarted, ge_iff_le, UInt64.not_le, UInt64.lt_iff_toNat_lt,
    UInt64.toNat_saturatingSub, Nat.sub_self]
  exact UInt64.lt_iff_toNat_lt.mp h.window

theorem State.Unstarted.crankUnpause_ne_ok (hs : s.Unstarted) :
    crankUnpauseHandler rt clock s a ≠ .ok s' := by
  intro h
  simp only [crankUnpauseHandler, bind_eq_ok, Crank.loadAccounts_eq_ok, require_eq_ok] at h
  obtain ⟨⟨c, kc⟩, ⟨-, hkc, -⟩, -, -, _, -, _, -, -, -, -, helapsed, -⟩ := h
  exact (hs _ _ hkc).not_elapsed clock.slot helapsed

theorem State.Unstarted.step (hs : s.Unstarted) (h : x.exec rt s = .ok s') : s'.Unstarted := by
  have of_same (hsame : s'.keeperConfigs = s.keeperConfigs) : s'.Unstarted := by
    intro k kc hk
    exact hs k kc (hsame ▸ hk)
  cases exec_monitors h with
  | same hsame => exact of_same (congrArg Monitors.keeperConfigs hsame)
  | agreed _ hsame => exact of_same (congrArg Monitors.keeperConfigs hsame)
  | metered _ hsame => exact of_same (congrArg Monitors.keeperConfigs hsame)
  | @cranked clock i _ hkind _ =>
    cases i with
    | initKeeperConfig => exact initKeeperConfigHandler_unstarted hs h
    | crankCircuitBreaker => exact crankCircuitBreakerHandler_unstarted hs h
    | crankUnpause => exact absurd h hs.crankUnpause_ne_ok
    | _ => cases hkind

/-- Where there was no keeper at first, no keeper's clock is ever started. -/
theorem unstarted_run (hk : ∀ k, s.keeperConfigs k = none) (as : List Action) :
    (run rt s as).Unstarted := by
  refine invariant_run_of_forall State.Unstarted.step as fun k kc hkc => ?_
  rw [hk] at hkc
  cases hkc

/-! ## Recoveries -/

/-- The crank reads a price within the threshold. -/
def Crank.WithinThreshold (rt : Runtime) (clock : Clock) (s : State) (a : Crank) : Prop :=
  ∃ c kc p d, a.loadAccounts s = .ok (c, kc) ∧ getOraclePrice rt clock s a.oracleFeed c = .ok p ∧
    kc.deviationBps p.price = .ok d ∧ d < kc.deviationThresholdBps.toUInt64

instance Crank.WithinThreshold.decidable : Decidable (a.WithinThreshold rt clock s) :=
  decidable_of_iff ((do
    let x ← a.loadAccounts s
    let p ← getOraclePrice rt clock s a.oracleFeed x.1
    let d ← x.2.deviationBps p.price
    require (d < x.2.deviationThresholdBps.toUInt64) .panic : Result Unit).isOk = true) (by
      simp only [isOk_iff, bind_eq_ok, require_eq_ok, Prod.exists]
      constructor
      · intro h
        obtain ⟨_, c, kc, hload, p, hp, d, hd, hlt⟩ := h
        exact ⟨c, kc, p, d, hload, hp, hd, hlt⟩
      · intro h
        obtain ⟨c, kc, p, d, hload, hp, hd, hlt⟩ := h
        exact ⟨(), c, kc, hload, p, hp, d, hd, hlt⟩)

/-- A crank on `M`, or a new price. -/
inductive Action.Turns (M : Pubkey) : Action → Prop where
  | trip {clock : Clock} {a : Crank} (config : a.config = .stablecoinConfig M) :
    Turns M (.call clock (.crankCircuitBreaker a))
  | unpause {clock : Clock} {a : Crank} (config : a.config = .stablecoinConfig M) :
    Turns M (.call clock (.crankUnpause a))
  | publish {feed : Pubkey} {p : Price} : Turns M (.world (.publishPythPrice feed p))
  | update {clock : Clock} {b : AuthorityAndMint} {price : Int64} {expo : Int32} {conf : UInt64} :
    Turns M (.call clock (.updateCustomPrice b price expo conf))

/-- What an action reads lies within the threshold. -/
def Action.ReadsWithin (rt : Runtime) (s : State) : Action → Prop
  | .call clock (.crankCircuitBreaker a) | .call clock (.crankUnpause a) =>
    a.WithinThreshold rt clock s
  | _ => True

instance Action.ReadsWithin.decidable : Decidable (x.ReadsWithin rt s) := by
  unfold ReadsWithin
  split <;> infer_instance

/-- From a call of `crank_unpause` in one slot to another as many slots later as the recovery
window asks for, nothing but cranks and new prices, and every price that is read is within the
threshold. -/
structure Recovery (rt : Runtime) (M : Pubkey) (s : State) (first : Clock) (a : Crank)
    (between : List Action) (last : Clock) (b : Crank) : Prop where
  turns : ∀ x ∈ between, x.Turns M
  begins : a.config = .stablecoinConfig M
  ends : b.config = .stablecoinConfig M
  within : Along (Action.exec rt) (fun s x => x.ReadsWithin rt s) s
    (.call first (.crankUnpause a) :: between ++ [.call last (.crankUnpause b)])
  sustained : ∀ kc, s.keeperConfigs (.keeperConfig M) = some kc →
    first.slot.toNat + kc.sustainedRecoverySlots.toNat ≤ last.slot.toNat

/-- Nothing that turns on `M` clears its pause. -/
theorem Action.Turns.step (ht : x.Turns M) (hs : s.Unstarted) (hp : s.paused M = some true)
    (h : x.exec rt s = .ok s') : s'.paused M = some true := by
  cases ht with
  | @trip _ b =>
    have hstep : PauseStep _ M s s' (.crankCircuitBreaker b) := crankCircuitBreakerHandler_paused h
    cases hstep with
    | same hsame => rw [hsame, hp]
    | initialized hnone =>
      rw [hp] at hnone
      cases hnone
    | tripped _ htrue => exact htrue
  | unpause => exact absurd h hs.crankUnpause_ne_ok
  | publish =>
    cases h
    exact hp
  | @update clock b price expo conf =>
    change (Instruction.updateCustomPrice b price expo conf).exec rt clock s = .ok s' at h
    rw [(Instruction.exec_sameStanding rfl h).paused, hp]

theorem paused_of_turns (rt : Runtime) {as : List Action} (hs : s.Unstarted)
    (hp : s.paused M = some true) (h : ∀ x ∈ as, x.Turns M) :
    (run rt s as).Unstarted ∧ (run rt s as).paused M = some true := by
  refine invariant_run (P := fun _ x => x.Turns M)
    (I := fun s : State => s.Unstarted ∧ s.paused M = some true) (fun hi ht hexec => ?_) ⟨hs, hp⟩
    (along_of_forall fun x hx _ => h x hx)
  exact ⟨hi.1.step hexec, ht.step hi.1 hi.2 hexec⟩

/-- A crank that finds everything as it should be after a recovery still misses the window. -/
theorem Crank.WithinThreshold.crankUnpause (h : a.WithinThreshold rt clock s) (hs : s.Unstarted)
    (ha : a.config = .stablecoinConfig M) (hp : s.paused M = some true) :
    crankUnpauseHandler rt clock s a = .error (.sss .keeperRecoveryWindowNotMet) := by
  obtain ⟨c, kc, p, d, hload, hprice, hd, hwithin⟩ := h
  obtain ⟨hc, hkc, -⟩ := Crank.loadAccounts_eq_ok.mp hload
  have hpaused : c.paused = true := by
    rw [State.paused, ← ha, hc] at hp
    exact Option.some.inj hp
  rw [crankUnpauseHandler, hload, ok_bind]
  dsimp only
  rw [require_pos hpaused, ok_bind, hprice, ok_bind, hd, ok_bind, require_pos hwithin, ok_bind,
    require_neg ((hs _ _ hkc).not_elapsed clock.slot)]
  rfl

theorem crankCircuitBreakerHandler_sets (h : crankCircuitBreakerHandler rt clock s a = .ok s')
    (ha : a.config = .stablecoinConfig M) : s'.paused M = some true := by
  simp only [crankCircuitBreakerHandler, bind_eq_ok, pure_eq_ok] at h
  obtain ⟨⟨c, kc⟩, -, -, -, -, -, -, -, _, -, _, -, -, -, rfl⟩ := h
  exact (State.paused_put rfl).trans (if_pos ha)

/-- A pause that the crank imposed is never lifted by the other one. After every recovery the last
call misses the window, whatever was called before, and the stablecoin stays paused; and no call of
`crank_unpause` goes through in any run. -/
theorem auto_unpause_never (rt : Runtime) (hk : ∀ k, s.keeperConfigs k = none)
    (as : List Action) :
    (∀ clock a s', crankUnpauseHandler rt clock (run rt s as) a ≠ .ok s') ∧
      ∀ now breaker s₁ turned first a between last b, breaker.config = .stablecoinConfig M →
        crankCircuitBreakerHandler rt now (run rt s as) breaker = .ok s₁ →
        (∀ x ∈ turned, x.Turns M) →
        Recovery rt M (run rt s₁ turned) first a between last b →
        let s₂ := run rt s₁ (turned ++ .call first (.crankUnpause a) :: between)
        crankUnpauseHandler rt last s₂ b = .error (.sss .keeperRecoveryWindowNotMet) ∧
          s₂.paused M = some true := by
  have hrun : (run rt s as).Unstarted := unstarted_run hk as
  refine ⟨fun clock a s' => hrun.crankUnpause_ne_ok, ?_⟩
  intro now breaker s₁ turned first a between last b hconfig htrip hturned hrecovery s₂
  have hs₁ : s₁.Unstarted := crankCircuitBreakerHandler_unstarted hrun htrip
  have hp₁ : s₁.paused M = some true := crankCircuitBreakerHandler_sets htrip hconfig
  have hturns : ∀ x ∈ turned ++ .call first (.crankUnpause a) :: between, x.Turns M := by
    intro x hx
    rcases List.mem_append.mp hx with hx | hx
    · exact hturned x hx
    · rcases List.mem_cons.mp hx with rfl | hx
      · exact .unpause hrecovery.begins
      · exact hrecovery.turns x hx
  obtain ⟨hs₂, hp₂⟩ := paused_of_turns rt hs₁ hp₁ hturns
  have hlast : b.WithinThreshold rt last s₂ := by
    have hrun₂ : s₂ = run rt (run rt s₁ turned) (.call first (.crankUnpause a) :: between) :=
      run_append ..
    rw [hrun₂]
    exact (along_append.mp hrecovery.within).2.1
  exact ⟨hlast.crankUnpause hs₂ hrecovery.ends hp₂, hp₂⟩

namespace Market

/-- A keeper watches for a price of one with the breaker armed, and the price is two on day 2. -/
def watched : List Action :=
  opening 1000 ++
    [ .call (day 0) (.initKeeperConfig { authority, config }
        { deviationThresholdBps := 100, keeperRewardLamports := 0, minCooldownSlots := 10
          sustainedRecoverySlots := 1, targetPrice := 1 }) ] ++
    timelocked adminOpSetFeatureFlag flagCircuitBreaker 1 ++ [publish 2 2]

def tripNow : Action := .call (day 2) (.crankCircuitBreaker anyKeeper)

/-- The breaker has tripped, and on day 3 the price is one again. -/
def recovering : List Action := watched ++ [tripNow, publish 1 3]

/-- `crank_unpause` is called on day 3 and on day 4, and the price stays at one in between. -/
theorem recovery : Recovery localRuntime mint.key (run localRuntime genesis recovering) (day 3)
    anyKeeper [publish 1 4] (day 4) anyKeeper where
  turns x hx := by
    rw [List.mem_singleton.mp hx]
    exact .publish
  begins := rfl
  ends := rfl
  within := by decide +kernel
  sustained := by decide +kernel

def repegged : State :=
  run localRuntime genesis
    (recovering ++ [.call (day 3) (.crankUnpause anyKeeper), publish 1 4])

end Market

open Market in
theorem auto_unpause_never_watched :
    crankUnpauseHandler localRuntime (day 4) repegged anyKeeper =
        .error (.sss .keeperRecoveryWindowNotMet) ∧
      repegged.paused mint.key = some true := by
  have htrip : (tripNow.exec localRuntime (run localRuntime genesis watched)).isOk = true := by
    decide +kernel
  obtain ⟨s₁, hs₁⟩ := isOk_iff.mp htrip
  have hrun : ∀ as, run localRuntime genesis (watched ++ tripNow :: as) =
      run localRuntime s₁ as := by
    intro as
    exact (run_append ..).trans (congrArg (run localRuntime · as) (next_of_ok hs₁))
  have hrecovery := recovery
  rw [recovering, hrun] at hrecovery
  obtain ⟨-, hnever⟩ :=
    auto_unpause_never (M := mint.key) localRuntime (s := genesis) (fun _ => rfl) watched
  have hlast := hnever (day 2) anyKeeper s₁ [publish 1 3] (day 3) anyKeeper [publish 1 4]
    (day 4) anyKeeper rfl hs₁ (fun x hx => List.mem_singleton.mp hx ▸ .publish) hrecovery
  have hend : repegged = run localRuntime s₁
      ([publish 1 3] ++ .call (day 3) (.crankUnpause anyKeeper) :: [publish 1 4]) := hrun _
  rw [hend]
  exact hlast

open Market in
/-- The price has been back for a day when the recovery window is one slot, and the second call
fails like the first. -/
theorem repegged_stays_paused :
    Genesis genesis ∧ (tripNow.exec localRuntime (run localRuntime genesis watched)).isOk = true ∧
      Recovery localRuntime mint.key (run localRuntime genesis recovering) (day 3) anyKeeper
        [publish 1 4] (day 4) anyKeeper ∧
      (crankUnpauseHandler localRuntime (day 4) repegged anyKeeper).isOk = false ∧
      repegged.paused mint.key = some true :=
  ⟨genesis_genesis, by decide +kernel, recovery, by decide +kernel, by decide +kernel⟩

end SolanaStablecoin
