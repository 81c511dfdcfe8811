import SolanaStablecoin.Verify.Supply

/-! Stopping the program in an emergency: which entry points the circuit breaker and the pause bit
stop, and which they miss. -/

namespace SolanaStablecoin

open Transition

variable {rt : Runtime} {clock : Clock} {s s' : State} {c : StablecoinConfig} {k : Pubkey}

/-! ## Entry points -/

/-- The instructions that mint, burn or redeem for a user, those that reduce debt, and the
rest. -/
inductive Entry where
  | mint | cpiMint | burn | cpiBurn | mmMint | mmBurn | bridgeIn | bridgeOut | cdpBorrowStable
  | redeem | psmDynamicSwap | instantRedemption | processRedemption | fulfillRedemption
  | debtReducing | rest
deriving DecidableEq

namespace Entry

/-- What the circuit breaker is to stop. -/
def forUsers : Entry → Bool
  | fulfillRedemption | debtReducing | rest => false
  | _ => true

/-- What the pause bit is to stop: issuing, and exchanging for reserve collateral. -/
def issuesOrExchanges : Entry → Bool
  | mint | cpiMint | mmMint | bridgeIn | cdpBorrowStable => true
  | redeem | psmDynamicSwap | instantRedemption | processRedemption | fulfillRedemption => true
  | _ => false

/-- Where the circuit breaker is not looked at. -/
def skipsBreaker : Entry → Bool
  | psmDynamicSwap | instantRedemption | processRedemption => true
  | _ => false

/-- Where `paused` is not looked at. -/
def skipsPause : Entry → Bool
  | processRedemption | fulfillRedemption => true
  | _ => false

end Entry

def Instruction.entry : Instruction → Entry
  | mint .. => .mint
  | cpiMint .. => .cpiMint
  | burn .. => .burn
  | cpiBurn .. => .cpiBurn
  | mmMint .. => .mmMint
  | mmBurn .. => .mmBurn
  | bridgeIn .. => .bridgeIn
  | bridgeOut .. => .bridgeOut
  | cdpBorrowStable .. => .cdpBorrowStable
  | redeem .. => .redeem
  | psmDynamicSwap .. => .psmDynamicSwap
  | instantRedemption .. => .instantRedemption
  | processRedemption .. => .processRedemption
  | fulfillRedemption .. => .fulfillRedemption
  | cdpRepayStable .. | cdpLiquidate .. | cdpLiquidateV2 .. | collectStabilityFee .. =>
    .debtReducing
  | _ => .rest

/-- The config that an entry point works on. -/
def Instruction.config : Instruction → Option Pubkey
  | mint a _ | cpiMint a _ _ => some (.stablecoinConfig a.mint)
  | burn a _ | cpiBurn a _ _ => some (.stablecoinConfig a.mint)
  | mmMint a _ | mmBurn a _ => some (.stablecoinConfig a.mint)
  | bridgeIn a _ _ _ _ => some (.stablecoinConfig a.mint)
  | bridgeOut a _ => some (.stablecoinConfig a.mint)
  | cdpBorrowStable a _ => some (.stablecoinConfig a.sssMint)
  | redeem a _ | psmDynamicSwap a _ => some (.stablecoinConfig a.sssMint)
  | instantRedemption a _ => some a.config
  | processRedemption a _ => some a.config
  | fulfillRedemption a => some a.config
  | _ => none

/-! ## The circuit breaker -/

/-- Every call of the entry point is refused while the circuit breaker of its config is set. -/
def BreakerStops (e : Entry) : Prop :=
  e.forUsers = true → ∀ rt clock s i k c, i.entry = e → i.config = some k →
    s.configs k = some c → c.checkFeatureFlag flagCircuitBreaker = true →
    Refused rt clock s i

theorem breaker_of_flag (h : c.checkFeatureFlag flagCircuitBreaker = true) :
    c.featureFlags &&& flagCircuitBreaker ≠ 0 := by
  simpa [StablecoinConfig.checkFeatureFlag] using h

theorem Issued.unset {mint dst : Pubkey} {n : UInt64} (h : ∃ c, Issued s c mint dst n s' ∧
    c.FitsCap n ∧ Frame s s') (hc : s.configs (.stablecoinConfig mint) = some c) :
    c.paused = false ∧ c.featureFlags &&& flagCircuitBreaker = 0 := by
  obtain ⟨c', h, -⟩ := h
  rw [h.config] at hc
  cases hc
  exact ⟨h.running, h.breaker⟩

theorem Retired.unset {mint : Pubkey} {n : UInt64} (h : ∃ c, Retired s c mint n s' ∧
    c.paused = false ∧ c.featureFlags &&& flagCircuitBreaker = 0 ∧ Frame s s')
    (hc : s.configs (.stablecoinConfig mint) = some c) :
    c.paused = false ∧ c.featureFlags &&& flagCircuitBreaker = 0 := by
  obtain ⟨c', h, hrun, hcb, -⟩ := h
  rw [h.config] at hc
  cases hc
  exact ⟨hrun, hcb⟩

/-- An entry point that looks at the circuit breaker succeeds only while it is not set. -/
theorem Instruction.breaker_unset {i : Instruction} (huser : i.entry.forUsers = true)
    (hskip : i.entry.skipsBreaker = false) (hk : i.config = some k) (hc : s.configs k = some c)
    (h : i.exec rt clock s = .ok s') : c.featureFlags &&& flagCircuitBreaker = 0 := by
  cases i with
  | mint => cases hk; exact (Issued.unset (mintHandler_ok h) hc).2
  | cpiMint => cases hk; exact (Issued.unset (mintHandler_ok (cpiMintHandler_ok h)) hc).2
  | burn => cases hk; exact (Retired.unset (burnHandler_ok h) hc).2
  | cpiBurn => cases hk; exact (Retired.unset (burnHandler_ok (cpiBurnHandler_ok h)) hc).2
  | mmMint => cases hk; exact (Issued.unset (mmMintHandler_ok h) hc).2
  | mmBurn => cases hk; exact (Retired.unset (mmBurnHandler_ok h) hc).2
  | bridgeIn => cases hk; exact (Issued.unset (bridgeInHandler_ok h) hc).2
  | bridgeOut =>
    cases hk
    obtain ⟨c', bc, -, h⟩ := bridgeOutHandler_ok h
    exact (Retired.unset ⟨c', h⟩ hc).2
  | cdpBorrowStable =>
    cases hk
    obtain ⟨c', v, price, m, m', h, -⟩ := cdpBorrowStableHandler_ok h
    rw [h.config] at hc
    cases hc
    exact h.breaker
  | redeem => cases hk; exact (Retired.unset (redeemHandler_ok h) hc).2
  | psmDynamicSwap | instantRedemption | processRedemption => cases hskip
  | _ => cases huser

open Market in
/-- The circuit breaker stops exactly the entry points that look at it. -/
theorem circuit_breaker (e : Entry) : BreakerStops e ↔ e.skipsBreaker = false := by
  constructor
  · intro h
    have hset : ((tripped.configs config).map
        (·.checkFeatureFlag flagCircuitBreaker)) = some true := by decide +kernel
    obtain ⟨c, hc, hflag⟩ := Option.map_eq_some_iff.mp hset
    cases e with
    | psmDynamicSwap =>
      have hstop := h rfl localRuntime (day 3) tripped (swap 10) config c rfl rfl hc hflag
      apply absurd hstop.isOk
      decide +kernel
    | instantRedemption =>
      have hstop := h rfl localRuntime (day 3) tripped (redeemPool 10) config c rfl rfl hc hflag
      apply absurd hstop.isOk
      decide +kernel
    | processRedemption =>
      have hstop := h rfl localRuntime (day 3) tripped processHead config c rfl rfl hc hflag
      apply absurd hstop.isOk
      decide +kernel
    | _ => rfl
  · rintro hskip huser rt clock s i k c rfl hk hc hflag
    refine refused_of_not_ok fun s' hok => breaker_of_flag hflag ?_
    exact i.breaker_unset huser hskip hk hc hok

/-- The circuit breaker is set, and the reserve is exchanged all the same. -/
theorem swap_despite_breaker : ∃ s c, s.configs Market.config = some c ∧
    c.checkFeatureFlag flagCircuitBreaker = true ∧
    ((Market.swap 10).exec localRuntime (Market.day 3) s).isOk = true := by
  have hset : ((Market.tripped.configs Market.config).map
      (·.checkFeatureFlag flagCircuitBreaker)) = some true := by decide +kernel
  obtain ⟨c, hc, hflag⟩ := Option.map_eq_some_iff.mp hset
  exact ⟨Market.tripped, c, hc, hflag, by decide +kernel⟩

/-! ## Pause -/

/-- While the config of a mint is paused, every call of the entry point that issues or exchanges
on it is refused, and unless it reduces debt it leaves the mint as it is. -/
def PauseStops (e : Entry) : Prop :=
  ∀ rt clock s i M c, i.entry = e → s.configs (.stablecoinConfig M) = some c →
    c.paused = true →
    (e.issuesOrExchanges = true → i.config = some (.stablecoinConfig M) →
      Refused rt clock s i) ∧
    (e ≠ .debtReducing →
      (next (Action.exec rt) s (.call clock i)).tokens.mints M = s.tokens.mints M)

/-- An entry point that looks at `paused` issues or exchanges only while it is not set. -/
theorem Instruction.running {i : Instruction} (hissue : i.entry.issuesOrExchanges = true)
    (hskip : i.entry.skipsPause = false) (hk : i.config = some k) (hc : s.configs k = some c)
    (h : i.exec rt clock s = .ok s') : c.paused = false := by
  cases i with
  | mint => cases hk; exact (Issued.unset (mintHandler_ok h) hc).1
  | cpiMint => cases hk; exact (Issued.unset (mintHandler_ok (cpiMintHandler_ok h)) hc).1
  | mmMint => cases hk; exact (Issued.unset (mmMintHandler_ok h) hc).1
  | bridgeIn => cases hk; exact (Issued.unset (bridgeInHandler_ok h) hc).1
  | cdpBorrowStable =>
    cases hk
    obtain ⟨c', v, price, m, m', h, -⟩ := cdpBorrowStableHandler_ok h
    rw [h.config] at hc
    cases hc
    exact h.running
  | redeem => cases hk; exact (Retired.unset (redeemHandler_ok h) hc).1
  | psmDynamicSwap =>
    cases hk
    obtain ⟨c', h, hrun, -⟩ := psmDynamicSwapHandler_ok h
    rw [h.config] at hc
    cases hc
    exact hrun
  | instantRedemption =>
    cases hk
    obtain ⟨c', hc', -, hrun, -⟩ := instantRedemptionHandler_ok h
    rw [hc'] at hc
    cases hc
    exact hrun
  | processRedemption | fulfillRedemption => cases hskip
  | _ => cases hissue

/-- While the config of a mint is paused, a step on the mint is not one that looks at `paused`. -/
theorem Step.mints_eq {i : Instruction} {M : Pubkey} (h : Step rt s (.call clock i) s')
    (hc : s.configs (.stablecoinConfig M) = some c) (hpaused : c.paused = true)
    (hdebt : i.entry ≠ .debtReducing) (hskip : i.entry.skipsPause = false) :
    s'.tokens.mints M = s.tokens.mints M := by
  have running : ∀ {c'}, s.configs (.stablecoinConfig M) = some c' → c'.paused ≠ false := by
    intro c' hc'
    rw [hc] at hc'
    cases hc'
    simp [hpaused]
  cases h with
  | quiet h => rw [h.tokens.mints]
  | aside h => rw [h.loose.tokens.mints]
  | @initializeStablecoin _ b _ _ h =>
    obtain ⟨m, -, -, -, hm⟩ := h.created
    have hne : M ≠ b.mint.key := by
      rintro rfl
      rw [h.free] at hc
      cases hc
    obtain ⟨-, -, hm⟩ := hm
    rw [hm]
    exact put_of_ne _ _ hne
  | @issue _ c' mint _ _ _ h =>
    have hne : M ≠ mint := by
      rintro rfl
      exact running h.config h.running
    obtain ⟨m, -, -, -, hmints⟩ := h.tokens.mints
    rw [hmints, put_of_ne _ _ hne]
  | @retire _ c' mint _ _ h _ hrun =>
    have hne : M ≠ mint := by
      rintro rfl
      rcases hrun with hrun | ⟨_, b, heq⟩
      · exact running h.config hrun
      · cases heq
        cases hskip
    obtain ⟨m, -, -, hmints⟩ := h.tokens.reduces.mints
    rw [hmints, put_of_ne _ _ hne]
  | @redeemInstantly _ _ _ _ c' hconfig hkey hrun htokens =>
    have hne : M ≠ c'.mint := by
      rintro rfl
      rw [hkey] at hconfig
      exact running hconfig hrun
    obtain ⟨m, -, -, hmints⟩ := htokens.reduces.mints
    rw [hmints, put_of_ne _ _ hne]
  | process => cases hskip
  | deposit h => rw [h.tokens.mints]
  | @borrow _ b _ _ c' _ h =>
    have hne : M ≠ b.sssMint := by
      rintro rfl
      exact running h.config h.running
    obtain ⟨m, -, -, -, hmints⟩ := h.tokens.mints
    rw [hmints, put_of_ne _ _ hne]
  | repay | collect => exact absurd rfl hdebt
  | liquidate hkind =>
    obtain ⟨x, y, rfl | rfl⟩ := hkind
    · exact absurd rfl hdebt
    · exact absurd rfl hdebt

open Market in
/-- A pause stops exactly the entry points that look at it. -/
theorem pause_freezes (e : Entry) : PauseStops e ↔ e.skipsPause = false := by
  constructor
  · intro h
    cases e with
    | processRedemption =>
      have hset : (halted.configs (.stablecoinConfig mint.key)).map (·.paused) = some true := by
        decide +kernel
      obtain ⟨c, hc, hpaused⟩ := Option.map_eq_some_iff.mp hset
      have hstop := h localRuntime (day 4) halted processHead mint.key c rfl hc hpaused
      apply absurd (hstop.1 rfl rfl).isOk
      decide +kernel
    | fulfillRedemption =>
      have hset : (requested.configs (.stablecoinConfig mint.key)).map (·.paused) = some true := by
        decide +kernel
      obtain ⟨c, hc, hpaused⟩ := Option.map_eq_some_iff.mp hset
      have hstop := h localRuntime (day 4) requested fulfill mint.key c rfl hc hpaused
      apply absurd (hstop.1 rfl rfl).isOk
      decide +kernel
    | _ => rfl
  · rintro hskip rt clock s i M c rfl hc hpaused
    constructor
    · intro hissue hk
      apply refused_of_not_ok
      intro s' hok
      rw [i.running hissue hskip hk hc hok] at hpaused
      cases hpaused
    · intro hdebt
      cases hexec : i.exec rt clock s with
      | error e => rw [next_of_error (a := Action.call clock i) hexec]
      | ok s' =>
        rw [next_of_ok (a := Action.call clock i) hexec]
        exact (Instruction.exec_step hexec).mints_eq hc hpaused hdebt hskip

/-- The config is paused, and the head of the redemption queue is paid out all the same. -/
theorem process_despite_pause : ∃ s c, s.configs Market.config = some c ∧ c.paused = true ∧
    (Market.processHead.exec localRuntime (Market.day 4) s).isOk = true := by
  have hset : (Market.halted.configs Market.config).map (·.paused) = some true := by
    decide +kernel
  obtain ⟨c, hc, hpaused⟩ := Option.map_eq_some_iff.mp hset
  exact ⟨Market.halted, c, hc, hpaused, by decide +kernel⟩

/-! ## Proof of reserves -/

/-- What has been minted and not burned, nothing if there is no such mint. -/
def Tokens.supply (t : Tokens) (M : Pubkey) : Nat := ((t.mints M).map (·.supply.toNat)).getD 0

/-- The attested ratio is below what the config asks for, and is to halt minting. -/
structure Breached (s : State) (M : Pubkey) (c : StablecoinConfig) (por : ProofOfReserves) :
    Prop where
  config : s.configs (.stablecoinConfig M) = some c
  flag : c.checkFeatureFlag flagPorHaltOnBreach = true
  attested : s.proofsOfReserves (.proofOfReserves M) = some por
  below : por.lastVerifiedRatioBps < c.minReserveRatioBps.toUInt64

/-- No call of the entry point raises the supply of a mint whose reserves are in breach. -/
def ReserveStops (e : Entry) : Prop :=
  ∀ rt clock s (i : Instruction) M c por s', i.entry = e → Breached s M c por →
    i.exec rt clock s = .ok s' → s'.tokens.supply M ≤ s.tokens.supply M

/-- Where the attestation is not looked at. -/
def Entry.skipsReserve : Entry → Bool
  | mmMint | bridgeIn | cdpBorrowStable => true
  | _ => false

section Supply

variable {t t' : Tokens} {M mint : Pubkey} {m : Mint} {n : UInt64}

theorem Tokens.supply_of_eq (h : t'.mints = t.mints) : t'.supply M ≤ t.supply M := by
  rw [supply, h, supply]

theorem Tokens.supply_of_ne (hne : M ≠ mint) (h : t'.mints = put t.mints mint m) :
    t'.supply M ≤ t.supply M := by
  rw [supply, h, put_of_ne _ _ hne, supply]

theorem Tokens.supply_of_put (hm : t.mints mint = some m) (hn : n ≤ m.supply)
    (h : t'.mints = put t.mints mint { m with supply := m.supply - n }) :
    t'.supply M ≤ t.supply M := by
  by_cases hM : M = mint
  · subst hM
    rw [supply, h, put_self, supply, hm, Option.map_some, Option.map_some, Option.getD_some,
      Option.getD_some, toNat_sub_of_le hn]
    exact Nat.sub_le _ _
  · exact supply_of_ne hM h

theorem Tokens.Burns.supply_le {src authority : Pubkey} (h : t.Burns mint src authority n t') :
    t'.supply M ≤ t.supply M := by
  obtain ⟨m, hm, hn, hmints⟩ := h.mints
  exact supply_of_put hm hn hmints

theorem Tokens.Reduces.supply_le (h : t.Reduces mint n t') : t'.supply M ≤ t.supply M := by
  obtain ⟨m, hm, hn, hmints⟩ := h.mints
  exact supply_of_put hm hn hmints

end Supply

/-- Only the instructions that mint it raise the supply of a stablecoin. -/
theorem Step.supply_le {i : Instruction} {M : Pubkey} (h : Step rt s (.call clock i) s')
    (hc : s.configs (.stablecoinConfig M) = some c) (hno : ¬ (Action.call clock i).issues M) :
    s'.tokens.supply M ≤ s.tokens.supply M := by
  cases h with
  | quiet h => exact Tokens.supply_of_eq h.tokens.mints
  | aside h => exact Tokens.supply_of_eq h.loose.tokens.mints
  | @initializeStablecoin _ b _ _ h =>
    obtain ⟨m, -, -, -, -, -, hm⟩ := h.created
    rw [hm]
    apply Tokens.supply_of_ne _ rfl
    rintro rfl
    rw [h.free] at hc
    cases hc
  | issue h _ _ hissues =>
    obtain ⟨m, -, -, -, hmints⟩ := h.tokens.mints
    apply Tokens.supply_of_ne _ hmints
    rintro rfl
    exact hno hissues
  | retire h => exact h.tokens.reduces.supply_le
  | redeemInstantly _ _ _ h => exact h.reduces.supply_le
  | process _ h => exact (h.tokens.reduces rfl).supply_le
  | deposit h => exact Tokens.supply_of_eq h.tokens.mints
  | borrow h =>
    obtain ⟨m, -, -, -, hmints⟩ := h.tokens.mints
    apply Tokens.supply_of_ne _ hmints
    rintro rfl
    exact hno rfl
  | repay h =>
    obtain ⟨total, t, -, -, hburn, ⟨-, htransfer⟩ | ⟨-, htokens⟩⟩ := h.burned
    · exact (Tokens.supply_of_eq htransfer.mints).trans hburn.supply_le
    · rw [htokens]
      exact hburn.supply_le
  | liquidate _ h =>
    obtain ⟨t, hburn, htransfer⟩ := h.tokens
    exact (Tokens.supply_of_eq htransfer.mints).trans hburn.supply_le
  | collect _ _ _ h =>
    rcases h with ⟨ht, -⟩ | ⟨n, h⟩
    · rw [ht]
    · exact h.tokens.reduces.supply_le

/-- `mint` looks at the attestation. -/
theorem mintHandler_attested {a : MintTokens} {n : UInt64} {por : ProofOfReserves}
    (h : mintHandler rt clock s a n = .ok s') : ¬ Breached s a.mint c por := by
  intro hb
  simp [mintHandler, checkPorBreach] at h
  obtain ⟨c', ⟨hc', -, hmint⟩, -, -, -, -, -, -, -, -, -, hpor, -⟩ := h
  rw [hb.config] at hc'
  cases hc'
  rw [← hmint] at hpor
  have hflag : ¬ c.featureFlags &&& flagPorHaltOnBreach = 0 := by
    simpa [StablecoinConfig.checkFeatureFlag] using hb.flag
  obtain ⟨-, por', hpor', -, hmin⟩ := hpor hflag
  rw [hb.attested] at hpor'
  cases hpor'
  have hbelow := UInt64.lt_iff_toNat_lt.mp hb.below
  rcases hmin with hzero | hle
  · rw [hzero] at hbelow
    exact Nat.not_lt_zero _ hbelow
  · exact Nat.not_le_of_lt hbelow (UInt64.le_iff_toNat_le.mp hle)

namespace Market

/-- The reserves are attested at 50% and have to be at 100%; a market maker and a bridge relayer
are registered. -/
def breached : State :=
  run localRuntime genesis (funded 1000 ++
    timelocked adminOpSetFeatureFlag
      (flagPorHaltOnBreach ||| flagMarketMakerHooks ||| flagBridgeEnabled) 1 ++
    timelocked adminOpSetMinReserveRatio 10000 2 ++
    [ .call (day 3) (.initMarketMakerConfig asAuthority 1000 1000 100),
      .call (day 3) (.registerMarketMaker asAuthority user.key),
      .call (day 3) (.initBridgeConfig asAuthority 0 (.key 70) 1000 0 userStable.key),
      .call (day 3) (.initProofOfReserves
        { payer := authority, authority, mint := mint.key } user.key),
      .call (day 3) (.attestProofOfReserves { attester := user, mint := mint.key } 5000),
      publish 1 4 ])

def makerMint : Instruction :=
  .mmMint { marketMaker := user, mint := mint.key, mmTokenAccount := userStable.key
            oracleFeed := feed } 10

def relayIn : Instruction :=
  .bridgeIn { relayer := authority, mint := mint.key, recipientTokenAccount := userStable.key }
    (List.replicate 32 0) 10 user.key 7

theorem breached_breached : ∃ c por, Breached breached mint.key c por := by
  have hc : (breached.configs (.stablecoinConfig mint.key)).map (fun c =>
      (c.checkFeatureFlag flagPorHaltOnBreach, c.minReserveRatioBps)) = some (true, 10000) := by
    decide +kernel
  have hpor : (breached.proofsOfReserves (.proofOfReserves mint.key)).map
      (·.lastVerifiedRatioBps) = some 5000 := by
    decide +kernel
  obtain ⟨c, hc, heq⟩ := Option.map_eq_some_iff.mp hc
  obtain ⟨por, hpor, hratio⟩ := Option.map_eq_some_iff.mp hpor
  simp only [Prod.mk.injEq] at heq
  refine ⟨c, por, ⟨hc, heq.1, hpor, ?_⟩⟩
  rw [hratio, heq.2]
  decide

/-- The supply after a call in that state, if it goes through. -/
def supplyAfter (i : Instruction) : Option Nat :=
  (i.exec localRuntime (day 4) breached).toOption.map (·.tokens.supply mint.key)

theorem not_reserveStops {i : Instruction}
    (h : supplyAfter i = some (breached.tokens.supply mint.key + 10)) :
    ¬ ReserveStops i.entry := by
  intro hstop
  obtain ⟨c, por, hb⟩ := breached_breached
  unfold supplyAfter at h
  cases hexec : i.exec localRuntime (day 4) breached with
  | error e =>
    rw [hexec] at h
    cases h
  | ok s' =>
    have hle := hstop _ _ _ i _ c por s' rfl hb hexec
    rw [hexec] at h
    have heq : s'.tokens.supply mint.key = breached.tokens.supply mint.key + 10 :=
      Option.some.inj h
    omega

end Market

open Market in
/-- A breach of the reserves stops exactly the entry points that look at the attestation. -/
theorem reserve_halt (e : Entry) : ReserveStops e ↔ e.skipsReserve = false := by
  constructor
  · intro h
    cases e with
    | mmMint => exact absurd h (not_reserveStops (i := makerMint) (by decide +kernel))
    | bridgeIn => exact absurd h (not_reserveStops (i := relayIn) (by decide +kernel))
    | cdpBorrowStable =>
      exact absurd h (not_reserveStops (i := .cdpBorrowStable borrower 10) (by decide +kernel))
    | _ => rfl
  · intro hskip rt clock s i M c por s' hi hb h
    by_cases hissues : (Action.call clock i).issues M
    · cases i with
      | mint =>
        cases hissues
        exact absurd hb (mintHandler_attested h)
      | cpiMint =>
        cases hissues
        exact absurd hb (mintHandler_attested (cpiMintHandler_ok h))
      | mmMint | bridgeIn | cdpBorrowStable =>
        subst hi
        cases hskip
      | _ => cases hissues
    · exact (Instruction.exec_step h).supply_le hb.config hissues

open Market in
/-- The reserves are in breach, and somebody borrows all the same. -/
theorem borrow_despite_breach : ∃ c por, Breached breached mint.key c por ∧
    supplyAfter (.cdpBorrowStable borrower 10) =
      some (breached.tokens.supply mint.key + 10) := by
  obtain ⟨c, por, hb⟩ := breached_breached
  exact ⟨c, por, hb, by decide +kernel⟩

end SolanaStablecoin
