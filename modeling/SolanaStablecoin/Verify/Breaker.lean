import SolanaStablecoin.Verify.Interface
import SolanaStablecoin.Verify.Keeper

/-! The keeper's breaker and the minting that it is to stop. The crank asks for
`FLAG_CIRCUIT_BREAKER` as an armed feature; everything that mints takes the same flag for a breaker
that has tripped. -/

namespace SolanaStablecoin

variable {rt : Runtime} {clock : Clock} {s : State} {M : Pubkey} {a : Crank}

/-- Some call to mint would go through. -/
def State.Mintable (rt : Runtime) (s : State) (M : Pubkey) : Prop :=
  ∃ clock a n, a.mint = M ∧ (mintHandler rt clock s a n).isOk

/-- What a keeper is there for: its config is initialised and rested, and the accepted price is
too far from the target. -/
structure PegBroken (rt : Runtime) (clock : Clock) (s : State) (M : Pubkey) (a : Crank)
    (c : StablecoinConfig) (kc : KeeperConfig) (p : OraclePrice) (d : UInt64) : Prop where
  config : a.config = .stablecoinConfig M
  accounts : a.loadAccounts s = .ok (c, kc)
  rested : kc.lastTriggerSlot.toNat = 0 ∨
    kc.lastTriggerSlot.toNat + kc.minCooldownSlots.toNat ≤ clock.slot.toNat
  price : getOraclePrice rt clock s a.oracleFeed c = .ok p
  deviation : kc.deviationBps p.price = .ok d
  deviates : kc.deviationThresholdBps.toUInt64 ≤ d

/-- The crank goes through, and nothing is minted from then on. -/
def Fires (rt : Runtime) (clock : Clock) (s : State) (M : Pubkey) (a : Crank) : Prop :=
  ∃ s', crankCircuitBreakerHandler rt clock s a = .ok s' ∧ ∀ clock b n, b.mint = M →
    (mintHandler rt clock s' b n).isOk = false ∧
      ∀ v, (cpiMintHandler rt clock s' b n v).isOk = false

theorem State.Mintable.unset (h : s.Mintable rt M) : ∃ c,
    s.configs (.stablecoinConfig M) = some c ∧ c.featureFlags &&& flagCircuitBreaker = 0 := by
  obtain ⟨clock, b, n, rfl, hok⟩ := h
  obtain ⟨s', hs'⟩ := isOk_iff.mp hok
  obtain ⟨c, hissued, -⟩ := mintHandler_ok hs'
  exact ⟨c, hissued.config, hissued.breaker⟩

/-- Where anything can be minted, the crank does not get past the flag. -/
theorem State.Mintable.crank_error {c : StablecoinConfig} {kc : KeeperConfig}
    (h : s.Mintable rt M) (ha : a.config = .stablecoinConfig M)
    (hload : a.loadAccounts s = .ok (c, kc)) :
    crankCircuitBreakerHandler rt clock s a = .error (.sss .circuitBreakerNotArmed) := by
  obtain ⟨c', hc', hunset⟩ := h.unset
  obtain ⟨hc, -⟩ := Crank.loadAccounts_eq_ok.mp hload
  rw [ha, hc'] at hc
  have hneg : ¬ c.featureFlags &&& flagCircuitBreaker ≠ 0 := by
    cases hc
    exact not_not.mpr hunset
  rw [crankCircuitBreakerHandler, hload, ok_bind]
  dsimp only
  rw [require_neg hneg]
  rfl

/-- The breaker never fires when it is needed. -/
theorem breaker_never_fires {c : StablecoinConfig} {kc : KeeperConfig} {p : OraclePrice}
    {d : UInt64} (hmint : s.Mintable rt M) (hbroken : PegBroken rt clock s M a c kc p d) :
    crankCircuitBreakerHandler rt clock s a = .error (.sss .circuitBreakerNotArmed) ∧
      ¬ Fires rt clock s M a := by
  have herror : crankCircuitBreakerHandler rt clock s a =
      .error (.sss .circuitBreakerNotArmed) := hmint.crank_error hbroken.config hbroken.accounts
  refine ⟨herror, ?_⟩
  rintro ⟨s', hs', -⟩
  rw [herror] at hs'
  cases hs'

namespace Market

/-- The authority may mint, a keeper watches for a price of one, and the price is two. -/
def depegged : List Action :=
  opening 1000 ++
    [ .call (day 0) (.updateMinter { asAuthority with minter := authority.key } 1000),
      .call (day 0) (.initKeeperConfig { authority, config }
        { deviationThresholdBps := 100, keeperRewardLamports := 0, minCooldownSlots := 10
          sustainedRecoverySlots := 1, targetPrice := 1 }),
      publish 2 1 ]

def anyKeeper : Crank := { caller := other, config, oracleFeed := feed }

theorem depegged_mintable : (run localRuntime genesis depegged).Mintable localRuntime mint.key :=
  ⟨day 1, issue, 10, rfl, by decide +kernel⟩

theorem depegged_pegBroken : ∃ c kc p d,
    PegBroken localRuntime (day 1) (run localRuntime genesis depegged) mint.key anyKeeper c kc p
      d := by
  have hobserved : (do
      let x ← anyKeeper.loadAccounts (run localRuntime genesis depegged)
      let p ← getOraclePrice localRuntime (day 1) (run localRuntime genesis depegged)
        anyKeeper.oracleFeed x.1
      let d ← x.2.deviationBps p.price
      require (x.2.lastTriggerSlot.toNat = 0) .panic
      require (x.2.deviationThresholdBps.toUInt64 ≤ d) .panic : Result Unit).isOk = true := by
    decide +kernel
  obtain ⟨_, h⟩ := isOk_iff.mp hobserved
  simp only [bind_eq_ok, require_eq_ok] at h
  obtain ⟨⟨c, kc⟩, hload, p, hprice, d, hd, -, hrested, hdeviates⟩ := h
  exact ⟨c, kc, p, d, rfl, hload, .inl hrested, hprice, hd, hdeviates⟩

end Market

open Market in
theorem breaker_never_fires_depegged :
    crankCircuitBreakerHandler localRuntime (day 1) (run localRuntime genesis depegged)
        anyKeeper = .error (.sss .circuitBreakerNotArmed) ∧
      ¬ Fires localRuntime (day 1) (run localRuntime genesis depegged) mint.key anyKeeper := by
  obtain ⟨_, _, _, _, hbroken⟩ := depegged_pegBroken
  exact breaker_never_fires depegged_mintable hbroken

open Market in
/-- The breaker is needed in a state that transactions lead to, and does not fire there. -/
theorem breaker_not_armed : Genesis genesis ∧
    (run localRuntime genesis depegged).Mintable localRuntime mint.key ∧
    (∃ c kc p d, PegBroken localRuntime (day 1) (run localRuntime genesis depegged) mint.key
      anyKeeper c kc p d) ∧
    ¬ Fires localRuntime (day 1) (run localRuntime genesis depegged) mint.key anyKeeper := by
  refine ⟨genesis_genesis, depegged_mintable, depegged_pegBroken, ?_⟩
  obtain ⟨_, _, _, _, hbroken⟩ := depegged_pegBroken
  rintro ⟨s', hs', -⟩
  rw [depegged_mintable.crank_error rfl hbroken.accounts] at hs'
  cases hs'

end SolanaStablecoin
