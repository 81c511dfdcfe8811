import Mathlib.Tactic.Linarith
import SolanaStablecoin.Verify.CollateralTotals
import SolanaStablecoin.Verify.Health

/-! The parameters of a registered collateral against the calls that should respect them: which of
them bind a caller who may pass the config or omit it. -/

namespace SolanaStablecoin

open Transition Ratio

section Parameters

variable {rt : Runtime} {clock : Clock} {s s' : State} {p : CollateralParams}
  {cc : CollateralConfig} {n : UInt64}

def CollateralConfig.params (cc : CollateralConfig) : CollateralParams :=
  { whitelisted := cc.whitelisted, maxLtvBps := cc.maxLtvBps
    liquidationThresholdBps := cc.liquidationThresholdBps
    liquidationBonusBps := cc.liquidationBonusBps, maxDepositCap := cc.maxDepositCap }

/-- What registration and updates check. -/
def CollateralParams.Valid (p : CollateralParams) : Prop :=
  CollateralConfig.validate p.maxLtvBps p.liquidationThresholdBps p.liquidationBonusBps = .ok ()

/-- A collateral is registered with these parameters. -/
def RegisteredWith (s : State) (mint collateral : Pubkey) (p : CollateralParams) : Prop :=
  ∃ cc, s.collateralConfigs (.collateralConfig mint collateral) = some cc ∧ cc.params = p

/-! ## What it is to respect them -/

/-- Deposits come in only if the collateral is whitelisted and stays below its cap. -/
def DepositBinds (p : CollateralParams) (passed : Bool) : Prop :=
  ∀ (rt : Runtime) (s s' : State) (a : CdpDepositCollateral) (n : UInt64) (cc : CollateralConfig),
    s.collateralConfigs (.collateralConfig a.sssMint a.collateralMint) = some cc →
    cc.params = p → a.collateralConfig = passed →
    cdpDepositCollateralHandler rt s a n = .ok s' →
    cc.whitelisted = true ∧
      (0 < cc.maxDepositCap → cc.totalDeposited.toNat + n.toNat ≤ cc.maxDepositCap.toNat)

/-- A borrow leaves a debt, in dollars, of at most the part `max_ltv_bps` of its collateral. -/
def BorrowBinds (p : CollateralParams) : Prop :=
  ∀ (rt : Runtime) (clock : Clock) (s s' : State) (a : CdpBorrowStable) (n : UInt64),
    RegisteredWith s a.sssMint a.collateralMint p → cdpBorrowStableHandler rt clock s a n = .ok s' →
    ∃ price q deposited sssDecimals collateralDecimals, a.readPrice rt clock s = .ok price ∧
      Left s' a.sssMint a.user.key a.collateralMint q deposited sssDecimals collateralDecimals ∧
      q.usd sssDecimals * 10000 ≤ price.usd deposited collateralDecimals * p.maxLtvBps.toNat

/-- A liquidation that goes through was of a position in the relation `R` to the threshold. -/
def LiquidateBinds (R : Nat → Nat → Nat → Nat → Prop) (p : CollateralParams) (passed : Bool) :
    Prop :=
  ∀ (rt : Runtime) (clock : Clock) (s s' : State) (a : CdpLiquidate) (min repay : UInt64),
    RegisteredWith s a.sssMint a.collateralMint p → a.collateralConfig = passed →
    cdpLiquidateHandler rt clock s a min repay = .ok s' →
    ∃ l price, a.load s = .ok l ∧ a.readPrice rt clock s = .ok price ∧
      R 10000 p.liquidationThresholdBps.toNat (l.value price) l.debtValue

/-! ## Where they are respected -/

/-- The sum is taken with saturation, but one that saturates is not stored. -/
theorem checkDeposit_bound {mint collateral : Pubkey}
    (h : cc.checkDeposit mint collateral n = .ok ())
    (hfits : cc.totalDeposited.toNat + n.toNat < 2 ^ 64) : cc.whitelisted = true ∧
      (0 < cc.maxDepositCap → cc.totalDeposited.toNat + n.toNat ≤ cc.maxDepositCap.toNat) := by
  simp only [CollateralConfig.checkDeposit, bind_eq_ok, require_eq_ok, requireWhen_eq_ok] at h
  obtain ⟨-, -, -, hwhite, hcap⟩ := h
  refine ⟨hwhite, fun hpos => ?_⟩
  have hle := UInt64.le_iff_toNat_le.mp (hcap hpos)
  rw [UInt64.toNat_saturatingAdd] at hle
  omega

theorem depositBinds_passed : DepositBinds p true := by
  intro rt s s' a n cc hcc hp hpassed h
  have hdeposited := cdpDepositCollateralHandler_ok h
  obtain ⟨cc', hcc', hcheck⟩ := hdeposited.admitted hpassed
  rw [hcc] at hcc'
  cases hcc'
  refine checkDeposit_bound hcheck ?_
  have htally := hdeposited.tallied
  rw [hpassed] at htally
  cases htally with
  | @counted cc' total stored total_eq =>
    rw [hcc] at stored
    cases stored
    have := total.toNat_lt
    omega

theorem depositBinds_open (hwhite : p.whitelisted = true) (hcap : p.maxDepositCap = 0)
    (passed : Bool) : DepositBinds p passed := by
  rintro rt s s' a n cc - rfl - -
  refine ⟨hwhite, fun hpos => ?_⟩
  rw [show cc.maxDepositCap = 0 from hcap] at hpos
  exact absurd hpos (by decide)

/-- A borrow keeps to 150% whatever the parameters. -/
theorem borrowBinds_of_le (hltv : 10000 * 10000 ≤ 15000 * p.maxLtvBps.toNat) : BorrowBinds p := by
  intro rt clock s s' a n hreg h
  obtain ⟨price, q, deposited, d, d', hprice, -, hleft, hcover, -⟩ := borrow_safety h
  refine ⟨price, q, deposited, d, d', hprice, hleft, ?_⟩
  have hexact := hcover.exact
  have hdebt : 0 ≤ q.usd d := by
    unfold CdpPosition.usd
    positivity
  have hltv : (10000 * 10000 : ℚ) ≤ 15000 * p.maxLtvBps.toNat := by exact_mod_cast hltv
  simp only [CdpPosition.minCollateralRatioBps, Nat.cast_ofNat] at hexact
  calc q.usd d * 10000 = q.usd d * (15000 / 10000) * (10000 * 10000) / 15000 := by ring
    _ ≤ q.usd d * (15000 / 10000) * (15000 * p.maxLtvBps.toNat) / 15000 := by gcongr
    _ = q.usd d * (15000 / 10000) * p.maxLtvBps.toNat := by ring
    _ ≤ price.usd deposited d' * p.maxLtvBps.toNat := by gcongr

theorem CollateralParams.Valid.threshold_le (hp : p.Valid) :
    p.liquidationThresholdBps.toNat ≤ 10000 :=
  CollateralConfig.threshold_le hp

/-- What the liquidation compares the position with. -/
theorem under_of_cdpLiquidate {a : CdpLiquidate} {min repay : UInt64}
    (h : cdpLiquidateHandler rt clock s a min repay = .ok s')
    (hreg : RegisteredWith s a.sssMint a.collateralMint p) :
    ∃ l price, a.load s = .ok l ∧ a.readPrice rt clock s = .ok price ∧
      Under 10000 (if a.collateralConfig then p.liquidationThresholdBps.toNat
        else CdpPosition.liquidationThresholdBps) (l.value price) l.debtValue := by
  obtain ⟨l, cc, oc, price, debt, p', burned, seized, hl, hcc, hoc, hprice, hdebt, -⟩ :=
    cdpLiquidateHandler_settles h
  refine ⟨l, price, hl, ?_, ?_⟩
  · simp only [CdpLiquidate.readPrice, bind_eq_ok, load_eq_ok]
    exact ⟨_, (CdpLiquidate.load_ok hl).config, oc, hoc, hprice⟩
  obtain ⟨-, -, hunder⟩ := checkLiquidatable_isOk.mp (isOk_iff.mpr ⟨debt, hdebt⟩)
  rcases loadCollateralConfig_eq_ok (CdpLiquidate.loadsCollateralConfig hcc) with
    ⟨homitted, rfl⟩ | ⟨hpassed, c, rfl, hc⟩
  · rw [homitted]
    exact hunder
  · obtain ⟨c', hc', rfl⟩ := hreg
    rw [hc] at hc'
    cases hc'
    rw [hpassed]
    exact hunder

/-- Read as debt to value. -/
theorem liquidateBinds_over {passed : Bool} (hp : p.Valid)
    (h : passed = true ∨ p.liquidationThresholdBps.toNat * 12000 ≤ 10000 * 10000) :
    LiquidateBinds Over p passed := by
  rintro rt clock s s' a min repay hreg rfl hok
  obtain ⟨l, price, hl, hprice, hunder⟩ := under_of_cdpLiquidate hok hreg
  refine ⟨l, price, hl, hprice, hunder.over ?_ (by decide)⟩
  split
  · exact Nat.mul_le_mul hp.threshold_le hp.threshold_le
  next homitted =>
    rcases h with hpassed | hle
    · exact absurd hpassed homitted
    · exact hle

/-- Read as value to debt, as the liquidation does with the config. -/
theorem liquidateBinds_under : LiquidateBinds Under p true := by
  intro rt clock s s' a min repay hreg hpassed hok
  obtain ⟨l, price, hl, hprice, hunder⟩ := under_of_cdpLiquidate hok hreg
  rw [hpassed] at hunder
  exact ⟨l, price, hl, hprice, hunder⟩

/-! ## Stored parameters are valid -/

section Stored

variable {a : Action} {M C : Pubkey} {x y : Nat} {passed : Bool}

theorem ValidConfig.of_eq (hv : ValidConfig s M C)
    (h : s'.collateralConfigs = s.collateralConfigs) : ValidConfig s' M C := by
  unfold ValidConfig
  rw [h]
  exact hv

theorem ValidConfig.put {mint collateral : Pubkey} (hv : ValidConfig s M C)
    (h : s'.collateralConfigs = put s.collateralConfigs (.collateralConfig mint collateral) cc)
    (hcc : mint = M → collateral = C → cc.params.Valid) : ValidConfig s' M C := by
  intro c hc
  by_cases hk : mint = M ∧ collateral = C
  · obtain ⟨rfl, rfl⟩ := hk
    rw [h, put_self] at hc
    cases hc
    exact hcc rfl rfl
  · rw [h, put_of_ne] at hc
    · exact hv c hc
    · intro heq
      cases heq
      exact hk ⟨rfl, rfl⟩

theorem Tallied.validConfig {mint collateral : Pubkey} (h : Tallied s mint collateral x y s' passed)
    (hv : ValidConfig s M C) : ValidConfig s' M C := by
  cases h with
  | omitted same => exact hv.of_eq same
  | counted stored _ put_eq =>
    refine hv.put put_eq ?_
    rintro rfl rfl
    exact hv _ stored

theorem CollateralAdmin.check_valid {b : CollateralAdmin} {u : Unit} (h : b.check s p = .ok u) :
    p.Valid := by
  simp only [CollateralAdmin.check, bind_eq_ok] at h
  obtain ⟨-, -, -, -, -, -, -, -, -, -, -, -, -, -, h⟩ := h
  exact h

theorem registerCollateralHandler_valid {b : CollateralAdmin}
    (h : registerCollateralHandler s b p = .ok s') (hv : ValidConfig s M C) :
    ValidConfig s' M C := by
  simp only [registerCollateralHandler, bind_eq_ok, pure_eq_ok] at h
  obtain ⟨-, -, _, hcheck, rfl⟩ := h
  exact hv.put rfl fun _ _ => CollateralAdmin.check_valid hcheck

theorem updateCollateralConfigHandler_valid {b : CollateralAdmin}
    (h : updateCollateralConfigHandler s b p = .ok s') (hv : ValidConfig s M C) :
    ValidConfig s' M C := by
  simp only [updateCollateralConfigHandler, bind_eq_ok, pure_eq_ok] at h
  obtain ⟨-, -, -, -, _, hcheck, rfl⟩ := h
  exact hv.put rfl fun _ _ => CollateralAdmin.check_valid hcheck

theorem exec_validConfig (h : Action.exec rt s a = .ok s') (hv : ValidConfig s M C) :
    ValidConfig s' M C := by
  cases a with
  | world w =>
    obtain ⟨t, p, q, d, rfl⟩ := World.exec_outside h
    exact hv.of_eq rfl
  | call clock i =>
    change i.exec rt clock s = .ok s' at h
    cases i with
    | cdpDepositCollateral => exact (cdpDepositCollateralHandler_ok h).tallied.validConfig hv
    | cdpRepayStable =>
      obtain ⟨c, p, v, released, h⟩ := cdpRepayStableHandler_ok h
      exact h.tallied.validConfig hv
    | cdpLiquidate =>
      obtain ⟨_, _, _, _, _, _, _, _, -, -, -, -, -, -, -, htally⟩ := cdpLiquidateHandler_settles h
      exact htally.validConfig hv
    | cdpLiquidateV2 =>
      obtain ⟨_, _, _, _, _, _, _, -, -, -, -, -, -, -, htally⟩ := cdpLiquidateV2Handler_settles h
      exact htally.validConfig hv
    | registerCollateral => exact registerCollateralHandler_valid h hv
    | updateCollateralConfig => exact updateCollateralConfigHandler_valid h hv
    | _ => exact hv.of_eq (Instruction.exec_same State.collateralConfigs (fun _ => rfl) h)

/-- In every state of a run that starts before the collateral is registered. -/
theorem validConfig_run (as : List Action)
    (hfree : s.collateralConfigs (.collateralConfig M C) = none) :
    ValidConfig (run rt s as) M C :=
  invariant_run_of_forall (fun hv h => exec_validConfig h hv) as fun cc hcc => by
    rw [hfree] at hcc
    cases hcc

end Stored

end Parameters

/-! ## Where they are not -/

namespace Market

/-- Gold is registered with the parameters `p` and a total. -/
def registeredGold (s : State) (p : CollateralParams) (total : UInt64) : State :=
  s.recount mint.key gold.key
    { sssMint := mint.key, collateralMint := gold.key, whitelisted := p.whitelisted
      maxLtvBps := p.maxLtvBps, liquidationThresholdBps := p.liquidationThresholdBps
      liquidationBonusBps := p.liquidationBonusBps, maxDepositCap := p.maxDepositCap } total

theorem registeredGold_registers (s : State) (p : CollateralParams) (total : UInt64) :
    RegisteredWith (registeredGold s p total) mint.key gold.key p :=
  ⟨_, rfl, rfl⟩

/-- The user has a vault for gold. -/
def unpledged : State :=
  run localRuntime genesis
    (opening 1000 ++ [.world (.createAccount goldAccount gold.key goldVault)])

/-- 300 of gold are in the vault, at one dollar. -/
def pledged300 : State := run localRuntime unpledged [depositGold 300 goldAccount, publish 1 0]

/-- 100000 are owed against 119999 of gold, at one dollar; they were two when it was borrowed. -/
def sunken : State :=
  run localRuntime genesis (opening 1000000 ++
    [ .world (.mintTo authority gold.key userGold.key 200000),
      .world (.createAccount goldAccount gold.key goldVault), depositGold 119999 goldAccount,
      publish 2 0, borrow 100000 0, publish 1 0 ])

/-- A deposit without the config. -/
def depositPlain : CdpDepositCollateral :=
  { user, sssMint := mint.key, collateralMint := gold.key, vaultTokenAccount := goldAccount.key
    userCollateralAccount := userGold.key }

def liquidateUser (collateralConfig : Bool) : CdpLiquidate :=
  { liquidator := user, sssMint := mint.key, liquidatorSssAccount := userStable.key
    cdpOwner := user.key, collateralMint := gold.key, vaultTokenAccount := goldAccount.key
    liquidatorCollateralAccount := userGold.key, pythPriceFeed := feed, collateralConfig }

end Market

open Market

section Converse

variable {p : CollateralParams}

theorem depositBinds_iff {passed : Bool} :
    DepositBinds p passed ↔ passed = true ∨ p.whitelisted = true ∧ p.maxDepositCap = 0 := by
  constructor
  · intro h
    cases passed with
    | true => exact .inl rfl
    | false =>
      -- the total has reached the cap, and one more comes in
      obtain ⟨s', hs'⟩ := isOk_iff.mp (show (cdpDepositCollateralHandler localRuntime
        (registeredGold unpledged p p.maxDepositCap) depositPlain 1).isOk = true from rfl)
      obtain ⟨hwhite, hcap⟩ := h localRuntime _ s' _ 1 _ rfl rfl rfl hs'
      refine .inr ⟨hwhite, ?_⟩
      by_contra hne
      have hle := hcap (UInt64.pos_iff_ne_zero.mpr hne)
      exact absurd hle (Nat.not_succ_le_self _)
  · rintro (rfl | ⟨hwhite, hcap⟩)
    · exact depositBinds_passed
    · exact depositBinds_open hwhite hcap passed

/-- What a successful call is computed to leave. -/
theorem eq_some_of_ok {α : Type} {x : Result State} {s : State} (hs : x = .ok s)
    (f : State → Option α) {a : α} (h : x.toOption.bind f = some a) : f s = some a := by
  rwa [hs] at h

/-- A debt of 200 against 300 is two thirds of it. -/
theorem borrowBinds_iff : BorrowBinds p ↔ 10000 * 10000 ≤ 15000 * p.maxLtvBps.toNat := by
  refine ⟨fun h => ?_, borrowBinds_of_le⟩
  obtain ⟨s', hs'⟩ := isOk_iff.mp (show (cdpBorrowStableHandler localRuntime (day 0)
    (registeredGold pledged300 p 0) borrower 200).isOk = true from rfl)
  obtain ⟨price, q, deposited, d, d', hprice, hleft, hle⟩ :=
    h localRuntime (day 0) _ s' borrower 200 (registeredGold_registers _ p 0) hs'
  have hread : borrower.readPrice localRuntime (day 0) (registeredGold pledged300 p 0) =
      .ok samplePrice := rfl
  have hposition : (s'.cdpPositions (.cdpPosition mint.key user.key)).map
      (fun q => (q.debtAmount, q.accruedFees)) = some (200, 0) :=
    eq_some_of_ok hs' (fun s => (s.cdpPositions (.cdpPosition mint.key user.key)).map
      fun q => (q.debtAmount, q.accruedFees)) rfl
  have hdeposited : (s'.collateralVaults goldVault).map (·.depositedAmount) = some 300 :=
    eq_some_of_ok hs' (fun s => (s.collateralVaults goldVault).map (·.depositedAmount)) rfl
  have hsss : (s'.tokens.mints mint.key).map (·.decimals) = some 6 :=
    eq_some_of_ok hs' (fun s => (s.tokens.mints mint.key).map (·.decimals)) rfl
  have hgold : (s'.tokens.mints gold.key).map (·.decimals) = some 6 :=
    eq_some_of_ok hs' (fun s => (s.tokens.mints gold.key).map (·.decimals)) rfl
  cases hread.symm.trans hprice
  cases hdeposited.symm.trans hleft.deposited
  cases hsss.symm.trans hleft.sssDecimals
  cases hgold.symm.trans hleft.collateralDecimals
  obtain ⟨q', hq', heq⟩ := Option.map_eq_some_iff.mp hposition
  cases hq'.symm.trans hleft.position
  obtain ⟨hdebt, hfees⟩ := Prod.mk.inj heq
  rw [CdpPosition.usd, OraclePrice.usd, hdebt, hfees] at hle
  norm_num [samplePrice, show UInt64.toNat 200 = 200 from rfl, show UInt64.toNat 300 = 300 from rfl,
    show UInt8.toNat 6 = 6 from rfl, show Int64.toInt 1 = 1 from rfl,
    show Int32.toInt 0 = 0 from rfl] at hle
  have hltv : (20000 : ℚ) ≤ 3 * p.maxLtvBps.toNat := by linarith only [hle]
  have hltv : 20000 ≤ 3 * p.maxLtvBps.toNat := by exact_mod_cast hltv
  omega

/-- The collateral is worth just less than 120% of the debt. -/
theorem liquidate_sunken {R : Nat → Nat → Nat → Nat → Prop} (h : LiquidateBinds R p false) :
    R 10000 p.liquidationThresholdBps.toNat 119999 100000 := by
  obtain ⟨s', hs'⟩ := isOk_iff.mp (show (cdpLiquidateHandler localRuntime (day 0)
    (registeredGold sunken p 0) (liquidateUser false) 0 0).isOk = true from rfl)
  obtain ⟨l, price, hl, hprice, hR⟩ :=
    h localRuntime (day 0) _ s' _ 0 0 (registeredGold_registers _ p 0) rfl hs'
  cases hprice
  cases hl
  exact hR

theorem liquidateBinds_over_iff {passed : Bool} (hp : p.Valid) : LiquidateBinds Over p passed ↔
    passed = true ∨ p.liquidationThresholdBps.toNat * 12000 ≤ 10000 * 10000 := by
  refine ⟨fun h => ?_, liquidateBinds_over hp⟩
  cases passed with
  | true => exact .inl rfl
  | false =>
    have hover := liquidate_sunken h
    unfold Over at hover
    exact .inr (by omega)

theorem liquidateBinds_under_iff {passed : Bool} (hp : p.Valid) :
    LiquidateBinds Under p passed ↔ passed = true := by
  constructor
  · intro h
    cases passed with
    | true => rfl
    | false =>
      have hunder := liquidate_sunken h
      have hle := hp.threshold_le
      unfold Under at hunder
      omega
  · rintro rfl
    exact liquidateBinds_under

/-- For valid parameters, and for a caller who passes the config or omits it: when they bind
deposits, borrows, and liquidations by either reading of the threshold. -/
theorem collateral_parameters (hp : p.Valid) (passed : Bool) :
    (DepositBinds p passed ↔ passed = true ∨ p.whitelisted = true ∧ p.maxDepositCap = 0) ∧
    (BorrowBinds p ↔ 10000 * 10000 ≤ 15000 * p.maxLtvBps.toNat) ∧
    (LiquidateBinds Over p passed ↔
      passed = true ∨ p.liquidationThresholdBps.toNat * 12000 ≤ 10000 * 10000) ∧
    (LiquidateBinds Under p passed ↔ passed = true) :=
  ⟨depositBinds_iff, borrowBinds_iff, liquidateBinds_over_iff hp, liquidateBinds_under_iff hp⟩

end Converse

/-- Not whitelisted, a loan of half the value at most, and liquidation at 90%. -/
def strictParams : CollateralParams :=
  { whitelisted := false, maxLtvBps := 5000, liquidationThresholdBps := 9000
    liquidationBonusBps := 500, maxDepositCap := 0 }

/-- Borrows are not bound by these parameters, whoever passes what. -/
theorem collateral_parameters_strict : ¬BorrowBinds strictParams := by
  intro h
  have hle := (collateral_parameters (p := strictParams) rfl true).2.1.mp h
  exact absurd hle (by decide)

namespace Market

/-- Gold is registered with strict parameters. -/
def listedStrictly : List Action :=
  opening 1000000 ++
    [ .world (.mintTo authority gold.key userGold.key 200000),
      .call (day 0) (.registerCollateral
        { authority, sssMint := mint.key, collateralMint := gold.key } strictParams),
      .world (.createAccount goldAccount gold.key goldVault) ]

/-- 119999 of gold at two dollars. -/
def pledgedStrictly : List Action := listedStrictly ++ [depositGold 119999 goldAccount, publish 2 0]

/-- 150000 are borrowed, and the price falls to one and a half. -/
def sunkenStrictly : List Action :=
  pledgedStrictly ++
    [ borrow 150000 0,
      .world (.publishPythPrice feed
        { price := 15, conf := 0, expo := -1, publishTime := (day 0).unixTimestamp }) ]

end Market

/-- Along one run gold is deposited though it is not whitelisted, 62% of its value are borrowed
where 50% are allowed, and the position is liquidated at 83% where 90% are. -/
theorem parameters_ignored :
    (Genesis genesis ∧ strictParams.Valid) ∧
    (RegisteredWith (run localRuntime genesis listedStrictly) mint.key gold.key strictParams ∧
      strictParams.whitelisted = false ∧
      (cdpDepositCollateralHandler localRuntime (run localRuntime genesis listedStrictly)
        depositPlain 119999).isOk = true) ∧
    (RegisteredWith (run localRuntime genesis pledgedStrictly) mint.key gold.key strictParams ∧
      ((cdpBorrowStableHandler localRuntime (day 0) (run localRuntime genesis pledgedStrictly)
        borrower 150000).toOption.bind fun s' =>
          (s'.cdpPositions (.cdpPosition mint.key user.key)).map (·.debtAmount)) = some 150000 ∧
      Over 10000 strictParams.maxLtvBps.toNat (valueE6 119999 ⟨2, 0, 0⟩ 6) (debtE6 150000 6)) ∧
    (RegisteredWith (run localRuntime genesis sunkenStrictly) mint.key gold.key strictParams ∧
      (cdpLiquidateHandler localRuntime (day 0) (run localRuntime genesis sunkenStrictly)
        (liquidateUser false) 0 0).isOk = true ∧
      (((liquidateUser false).load (run localRuntime genesis sunkenStrictly)).toOption.map
        fun l => (l.value ⟨15, 0, -1⟩, l.debtValue)) = some (179998, 150000) ∧
      ¬Over 10000 strictParams.liquidationThresholdBps.toNat 179998 150000) :=
  ⟨⟨genesis_genesis, rfl⟩, ⟨⟨_, rfl, rfl⟩, rfl, by decide +kernel⟩,
    ⟨⟨_, rfl, rfl⟩, by decide +kernel, by decide +kernel⟩,
    ⟨⟨_, rfl, rfl⟩, by decide +kernel, by decide +kernel, by decide⟩⟩

end SolanaStablecoin
