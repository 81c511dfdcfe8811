import SolanaStablecoin.Base.Conservation
import SolanaStablecoin.Verify.Bridge

/-! The total that a registered collateral records, against what the vaults record as deposited. -/

namespace SolanaStablecoin

open Transition Conservation

section Totals

variable {rt : Runtime} {clock : Clock} {s s' : State} {a : Action} {M C user : Pubkey}
  {cc : CollateralConfig} {n : UInt64} {x y : Nat} {passed : Bool}

/-- What the vault of a user records. -/
def State.deposits (s : State) (mint collateral user : Pubkey) : Nat :=
  (s.collateralVaults (.collateralVault mint user collateral)).elim 0 (·.depositedAmount.toNat)

/-- The total of a collateral, once it is registered. -/
def State.totalDeposited (s : State) (mint collateral : Pubkey) : Option UInt64 :=
  (s.collateralConfigs (.collateralConfig mint collateral)).map (·.totalDeposited)

theorem State.deposits_of {v : CollateralVault}
    (h : s.collateralVaults (.collateralVault M user C) = some v) :
    s.deposits M C user = v.depositedAmount.toNat := by
  rw [State.deposits, h]
  rfl

theorem State.deposits_eq (h : s'.collateralVaults = s.collateralVaults) :
    s'.deposits M C = s.deposits M C := by
  unfold State.deposits
  rw [h]

theorem State.totalDeposited_eq (h : s'.collateralConfigs = s.collateralConfigs) :
    s'.totalDeposited M C = s.totalDeposited M C := by
  rw [State.totalDeposited, State.totalDeposited, h]

/-! ## What a transaction does to the total -/

/-- `x` goes into the vault of `user` and `y` comes out, and the total follows if the config is
`passed`. -/
structure Counts (s : State) (M C user : Pubkey) (x y : Nat) (passed : Bool) (s' : State) :
    Prop where
  deposits : ∃ z, z + y = s.deposits M C user + x ∧
    s'.deposits M C = Function.update (s.deposits M C) user z
  counted : passed = true → ∃ t t', s.totalDeposited M C = some t ∧
    s'.totalDeposited M C = some t' ∧ t.toNat + x = t'.toNat + y
  omitted : passed = false → s'.totalDeposited M C = s.totalDeposited M C

/-- A partial liquidation that comes to no collateral at all, at the parameters that hold where the
config is omitted. -/
def CdpLiquidate.SeizesNothing (rt : Runtime) (clock : Clock) (s : State) (b : CdpLiquidate)
    (repay : UInt64) : Prop :=
  ∀ l oc price, b.load s = .ok l → loadOracleConsensus s b.oracleConsensus b.sssMint = .ok oc →
    getEffectiveOraclePrice rt clock s b.pythPriceFeed l.config oc = .ok price →
    0 < repay ∧ repay < l.position.debtAmount ∧ ∀ burned seized,
      seizePartial l price repay CdpPosition.liquidationThresholdBps defaultLiquidationBonusBps =
        .ok (burned, seized) → seized = 0

/-- What a successful transaction does to the vaults of a collateral and to its total. -/
inductive TotalsStep (rt : Runtime) (s : State) (M C : Pubkey) : Action → State → Prop where
  | other {a : Action} {s' : State} (deposits : s'.deposits M C = s.deposits M C)
    (total : s'.totalDeposited M C = s.totalDeposited M C) : TotalsStep rt s M C a s'
  | registered {clock : Clock} {b : CollateralAdmin} {p : CollateralParams} {s' : State}
    (mint_eq : b.sssMint = M) (collateral_eq : b.collateralMint = C)
    (deposits : s'.deposits M C = s.deposits M C) (total : s'.totalDeposited M C = some 0) :
    TotalsStep rt s M C (.call clock (.registerCollateral b p)) s'
  | deposited {clock : Clock} {b : CdpDepositCollateral} {n : UInt64} {s' : State}
    (mint_eq : b.sssMint = M) (collateral_eq : b.collateralMint = C)
    (h : Counts s M C b.user.key n.toNat 0 b.collateralConfig s') :
    TotalsStep rt s M C (.call clock (.cdpDepositCollateral b n)) s'
  | repaid {clock : Clock} {b : CdpRepayStable} {n : UInt64} {s' : State} {p : CdpPosition}
    (mint_eq : b.sssMint = M) (collateral_eq : b.collateralMint = C)
    (position : s.cdpPositions (.cdpPosition M b.user.key) = some p)
    (h : Counts s M C b.user.key 0 (s.deposits M C b.user.key * n.toNat / p.debtAmount.toNat)
      b.collateralConfig s') :
    TotalsStep rt s M C (.call clock (.cdpRepayStable b n)) s'
  | liquidated {clock : Clock} {b : CdpLiquidate} {i : Instruction} {s' : State} {seized : UInt64}
    {passed : Bool} (mint_eq : b.sssMint = M) (collateral_eq : b.collateralMint = C)
    (h : Counts s M C b.cdpOwner 0 seized.toNat passed s')
    (kind : passed = true ∨ ∃ min repay, i = .cdpLiquidate b min repay ∧
      b.collateralConfig = false ∧ (b.SeizesNothing rt clock s repay → seized = 0)) :
    TotalsStep rt s M C (.call clock i) s'

/-! ## Every transaction is a step -/

theorem State.totalDeposited_put {mint collateral : Pubkey}
    (h : s'.collateralConfigs =
      put s.collateralConfigs (.collateralConfig mint collateral) cc) :
    s'.totalDeposited mint collateral = some cc.totalDeposited := by
  rw [State.totalDeposited, h, put_self, Option.map_some]

theorem State.totalDeposited_put_of_ne {mint collateral : Pubkey}
    (h : s'.collateralConfigs = put s.collateralConfigs (.collateralConfig mint collateral) cc)
    (hne : ¬(mint = M ∧ collateral = C)) : s'.totalDeposited M C = s.totalDeposited M C := by
  rw [State.totalDeposited, h, put_of_ne, State.totalDeposited]
  intro heq
  cases heq
  exact hne ⟨rfl, rfl⟩

theorem Tallied.total_moves {mint collateral : Pubkey}
    (h : Tallied s mint collateral x y s' true) :
    ∃ t t', s.totalDeposited mint collateral = some t ∧
      s'.totalDeposited mint collateral = some t' ∧ t.toNat + x = t'.toNat + y := by
  cases h with
  | @counted cc total stored total_eq put_eq =>
    refine ⟨cc.totalDeposited, total, ?_, State.totalDeposited_put put_eq, total_eq⟩
    rw [State.totalDeposited, stored, Option.map_some]

theorem Tallied.total_stays {mint collateral : Pubkey}
    (h : Tallied s mint collateral x y s' false) :
    s'.totalDeposited M C = s.totalDeposited M C := by
  cases h with
  | omitted same => exact State.totalDeposited_eq same

/-- A call for one collateral leaves the totals of the others alone. -/
theorem Tallied.total_elsewhere {mint collateral : Pubkey}
    (h : Tallied s mint collateral x y s' passed) (hne : ¬(mint = M ∧ collateral = C)) :
    s'.totalDeposited M C = s.totalDeposited M C := by
  cases h with
  | omitted same => exact State.totalDeposited_eq same
  | counted _ _ put_eq => exact State.totalDeposited_put_of_ne put_eq hne

theorem State.deposits_put {mint collateral owner : Pubkey} {v : CollateralVault}
    (h : s'.collateralVaults =
      put s.collateralVaults (.collateralVault mint owner collateral) v) :
    s'.deposits mint collateral =
      Function.update (s.deposits mint collateral) owner v.depositedAmount.toNat := by
  funext k
  by_cases hk : k = owner
  · rw [hk, Function.update_self, State.deposits_of (h ▸ put_self ..)]
  · rw [Function.update_of_ne hk, State.deposits, h, put_of_ne, State.deposits]
    intro heq
    cases heq
    exact hk rfl

theorem State.deposits_put_of_ne {mint collateral owner : Pubkey} {v : CollateralVault}
    (h : s'.collateralVaults =
      put s.collateralVaults (.collateralVault mint owner collateral) v)
    (hne : ¬(mint = M ∧ collateral = C)) : s'.deposits M C = s.deposits M C := by
  funext k
  rw [State.deposits, h, put_of_ne, State.deposits]
  intro heq
  cases heq
  exact hne ⟨rfl, rfl⟩

namespace TotalsStep

/-- A call that moves collateral is a step of its own mints, and leaves the others alone. -/
theorem of_tallied {mint collateral owner : Pubkey} {v : CollateralVault} {z : Nat}
    (hz : v.depositedAmount.toNat = z) (hx : z + y = s.deposits mint collateral owner + x)
    (hput : s'.collateralVaults =
      put s.collateralVaults (.collateralVault mint owner collateral) v)
    (htally : Tallied s mint collateral x y s' passed)
    (h : mint = M → collateral = C → Counts s M C owner x y passed s' →
      TotalsStep rt s M C a s') : TotalsStep rt s M C a s' := by
  by_cases hk : mint = M ∧ collateral = C
  · obtain ⟨rfl, rfl⟩ := hk
    refine h rfl rfl ⟨⟨z, hx, hz ▸ State.deposits_put hput⟩, ?_, ?_⟩
    · rintro rfl
      exact htally.total_moves
    · rintro rfl
      exact htally.total_stays
  · exact .other (State.deposits_put_of_ne hput hk) (htally.total_elsewhere hk)

theorem of_deposited {b : CdpDepositCollateral} (h : Deposited rt s b n s') :
    TotalsStep rt s M C (.call clock (.cdpDepositCollateral b n)) s' := by
  obtain ⟨v, z, hv, hz, hput⟩ := h.vaults
  refine of_tallied rfl ?_ hput h.tallied fun hmint hcollateral hcounts =>
    .deposited hmint hcollateral hcounts
  rw [Nat.add_zero, hz, hv, State.deposits]
  congr 1
  unfold CollateralVault.initialise
  cases s.collateralVaults (.collateralVault b.sssMint b.user.key b.collateralMint) with
  | none => rfl
  | some w => split <;> rfl

theorem of_repaid {b : CdpRepayStable} {c : StablecoinConfig} {p : CdpPosition}
    {v : CollateralVault} {released : UInt64} (h : Repaid rt s b n s' c p v released) :
    TotalsStep rt s M C (.call clock (.cdpRepayStable b n)) s' := by
  obtain ⟨z, hz, hput⟩ := h.vaults
  refine of_tallied rfl ?_ hput h.tallied ?_
  · rw [State.deposits_of h.vault]
    exact hz.symm
  · rintro rfl rfl hcounts
    rw [h.released_eq, ← State.deposits_of h.vault] at hcounts
    exact .repaid rfl rfl h.position hcounts

/-- `passed` says whether the config was. -/
theorem of_liquidated {b : CdpLiquidate} {i : Instruction} {c : StablecoinConfig}
    {p p' : CdpPosition} {v : CollateralVault} {burned seized : UInt64}
    (h : Liquidated rt s b s' c p p' v burned seized)
    (htally : Tallied s b.sssMint b.collateralMint 0 seized.toNat s' passed)
    (kind : passed = true ∨ ∃ min repay, i = .cdpLiquidate b min repay ∧
      b.collateralConfig = false ∧ (b.SeizesNothing rt clock s repay → seized = 0)) :
    TotalsStep rt s M C (.call clock i) s' := by
  refine of_tallied (UInt64.toNat_saturatingSub ..) ?_ h.vaults htally
    fun hmint hcollateral hcounts => .liquidated hmint hcollateral hcounts kind
  have hle := UInt64.le_iff_toNat_le.mp h.seized_le
  rw [State.deposits_of h.vault]
  omega

end TotalsStep

/-- Without the config nothing is seized where the partial amount comes to nothing. -/
theorem Settles.seizes_nothing {b : CdpLiquidate} {l : LiquidationAccounts}
    {oc : Option OracleConsensus} {price : OraclePrice} {debt repay burned seized : UInt64}
    (hnothing : b.SeizesNothing rt clock s repay) (hl : b.load s = .ok l)
    (hoc : loadOracleConsensus s b.oracleConsensus b.sssMint = .ok oc)
    (hprice : getEffectiveOraclePrice rt clock s b.pythPriceFeed l.config oc = .ok price)
    (h : Settles l none price debt repay burned seized) : seized = 0 := by
  obtain ⟨hpos, hless, hzero⟩ := hnothing l oc price hl hoc hprice
  rcases h with ⟨-, hpartial⟩ | ⟨hfull, -⟩
  · exact hzero burned seized hpartial
  · exact absurd ⟨hpos, hless⟩ hfull

theorem TotalsStep.of_cdpLiquidate {b : CdpLiquidate} {min repay : UInt64}
    (h : cdpLiquidateHandler rt clock s b min repay = .ok s') :
    TotalsStep rt s M C (.call clock (.cdpLiquidate b min repay)) s' := by
  obtain ⟨l, cc, oc, price, debt, p', burned, seized, hl, hcc, hoc, hprice, -, hsettles, h,
    htally⟩ := cdpLiquidateHandler_settles h
  refine .of_liquidated h htally ?_
  rcases loadCollateralConfig_eq_ok (CdpLiquidate.loadsCollateralConfig hcc) with
    ⟨homitted, rfl⟩ | ⟨hpassed, -⟩
  · exact .inr ⟨min, repay, rfl, homitted, fun hnothing =>
      hsettles.seizes_nothing hnothing hl hoc hprice⟩
  · exact .inl hpassed

theorem TotalsStep.of_cdpLiquidateV2 {b : CdpLiquidate} {repay min : UInt64}
    (h : cdpLiquidateV2Handler rt clock s b repay min = .ok s') :
    TotalsStep rt s M C (.call clock (.cdpLiquidateV2 b repay min)) s' := by
  obtain ⟨l, cc, price, debt, p', burned, seized, -, -, -, -, -, -, h, htally⟩ :=
    cdpLiquidateV2Handler_settles h
  exact .of_liquidated h htally (.inl rfl)

/-- The transaction is one of the four that write vaults. -/
def Action.writesVault : Action → Bool
  | .call _ (.cdpDepositCollateral ..) | .call _ (.cdpRepayStable ..) | .call _ (.cdpLiquidate ..)
  | .call _ (.cdpLiquidateV2 ..) => true
  | _ => false

theorem Step.vaults_eq (h : Step rt s a s') (hother : a.writesVault = false) :
    s'.collateralVaults = s.collateralVaults := by
  cases h with
  | quiet h => exact h.vaults
  | aside h => exact h.loose.vaults
  | process _ h => exact h.vaults
  | createMint _ _ frame | mintElsewhere _ _ frame | issue _ _ frame | retire _ frame
  | redeemInstantly _ _ _ _ _ frame => exact frame.vaults
  | initializeStablecoin h => exact h.vaults
  | borrow h => exact h.vaults
  | collect _ _ accrued => exact accrued.vaults
  | deposit | repay => cases hother
  | liquidate kind =>
    obtain ⟨x, y, rfl | rfl⟩ := kind
    · cases hother
    · cases hother

theorem registerCollateralHandler_put {b : CollateralAdmin} {p : CollateralParams}
    (h : registerCollateralHandler s b p = .ok s') :
    s'.collateralVaults = s.collateralVaults ∧ ∃ cc, cc.totalDeposited = 0 ∧
      s'.collateralConfigs =
        put s.collateralConfigs (.collateralConfig b.sssMint b.collateralMint) cc := by
  simp only [registerCollateralHandler, bind_eq_ok, pure_eq_ok] at h
  obtain ⟨-, -, -, -, rfl⟩ := h
  exact ⟨rfl, _, rfl, rfl⟩

/-- New parameters do not touch the total. -/
theorem updateCollateralConfigHandler_put {b : CollateralAdmin} {p : CollateralParams}
    (h : updateCollateralConfigHandler s b p = .ok s') :
    ∃ cc cc', s.collateralConfigs (.collateralConfig b.sssMint b.collateralMint) = some cc ∧
      cc'.totalDeposited = cc.totalDeposited ∧ s'.collateralConfigs =
        put s.collateralConfigs (.collateralConfig b.sssMint b.collateralMint) cc' := by
  simp only [updateCollateralConfigHandler, bind_eq_ok, load_eq_ok, pure_eq_ok] at h
  obtain ⟨cc, hcc, -, -, -, -, rfl⟩ := h
  refine ⟨cc, _, hcc, ?_, rfl⟩
  rfl

theorem TotalsStep.of_register {b : CollateralAdmin} {p : CollateralParams}
    (h : registerCollateralHandler s b p = .ok s') :
    TotalsStep rt s M C (.call clock (.registerCollateral b p)) s' := by
  obtain ⟨hvaults, cc, hzero, hput⟩ := registerCollateralHandler_put h
  by_cases hk : b.sssMint = M ∧ b.collateralMint = C
  · obtain ⟨rfl, rfl⟩ := hk
    exact .registered rfl rfl (State.deposits_eq hvaults)
      (hzero ▸ State.totalDeposited_put hput)
  · exact .other (State.deposits_eq hvaults) (State.totalDeposited_put_of_ne hput hk)

theorem updateCollateralConfigHandler_total {b : CollateralAdmin} {p : CollateralParams}
    (h : updateCollateralConfigHandler s b p = .ok s') :
    s'.totalDeposited M C = s.totalDeposited M C := by
  obtain ⟨cc, cc', hcc, hsame, hput⟩ := updateCollateralConfigHandler_put h
  by_cases hk : b.sssMint = M ∧ b.collateralMint = C
  · obtain ⟨rfl, rfl⟩ := hk
    rw [State.totalDeposited_put hput, hsame, State.totalDeposited, hcc, Option.map_some]
  · exact State.totalDeposited_put_of_ne hput hk

theorem exec_totals (h : Action.exec rt s a = .ok s') : TotalsStep rt s M C a s' := by
  have untouched (hvaults : a.writesVault = false)
      (hcollateral : s'.collateralConfigs = s.collateralConfigs) : TotalsStep rt s M C a s' :=
    .other (State.deposits_eq ((exec_step h).vaults_eq hvaults))
      (State.totalDeposited_eq hcollateral)
  have hstep := exec_step h
  cases a with
  | world w =>
    obtain ⟨t, p, q, d, rfl⟩ := World.exec_outside h
    exact untouched rfl rfl
  | call clock i =>
    change i.exec rt clock s = .ok s' at h
    cases i with
    | cdpDepositCollateral => exact .of_deposited (cdpDepositCollateralHandler_ok h)
    | cdpRepayStable =>
      obtain ⟨c, p, v, released, h⟩ := cdpRepayStableHandler_ok h
      exact .of_repaid h
    | cdpLiquidate => exact .of_cdpLiquidate h
    | cdpLiquidateV2 => exact .of_cdpLiquidateV2 h
    | registerCollateral => exact .of_register h
    | updateCollateralConfig =>
      exact .other (State.deposits_eq (hstep.vaults_eq rfl))
        (updateCollateralConfigHandler_total h)
    | _ => exact untouched rfl (Instruction.exec_same State.collateralConfigs (fun _ => rfl) h)

/-! ## Totals that stand -/

/-- Once the collateral is registered, its total is the sum over the vaults. -/
def Totalled (M C : Pubkey) (s : State) : Prop :=
  ∀ t, s.totalDeposited M C = some t → SumsTo (s.deposits M C) t.toNat

/-- The call moves registered collateral and omits the config, or it registers collateral of which
something is deposited. -/
inductive Uncounted (rt : Runtime) (M C : Pubkey) (s : State) : Action → Prop where
  | deposit {clock : Clock} {b : CdpDepositCollateral} {n : UInt64} (mint_eq : b.sssMint = M)
    (collateral_eq : b.collateralMint = C) (registered : (s.totalDeposited M C).isSome = true)
    (omitted : b.collateralConfig = false) :
    Uncounted rt M C s (.call clock (.cdpDepositCollateral b n))
  | repay {clock : Clock} {b : CdpRepayStable} {n : UInt64} {p : CdpPosition}
    (mint_eq : b.sssMint = M) (collateral_eq : b.collateralMint = C)
    (registered : (s.totalDeposited M C).isSome = true) (omitted : b.collateralConfig = false)
    (position : s.cdpPositions (.cdpPosition M b.user.key) = some p)
    (releases : s.deposits M C b.user.key * n.toNat / p.debtAmount.toNat ≠ 0) :
    Uncounted rt M C s (.call clock (.cdpRepayStable b n))
  | liquidate {clock : Clock} {b : CdpLiquidate} {min repay : UInt64} (mint_eq : b.sssMint = M)
    (collateral_eq : b.collateralMint = C) (registered : (s.totalDeposited M C).isSome = true)
    (omitted : b.collateralConfig = false) (seizes : ¬b.SeizesNothing rt clock s repay) :
    Uncounted rt M C s (.call clock (.cdpLiquidate b min repay))
  | register {clock : Clock} {b : CollateralAdmin} {p : CollateralParams} {user : Pubkey}
    (mint_eq : b.sssMint = M) (collateral_eq : b.collateralMint = C)
    (deposited : s.deposits M C user ≠ 0) :
    Uncounted rt M C s (.call clock (.registerCollateral b p))

theorem Counts.totalled (h : Counts s M C user x y passed s') (ht : Totalled M C s)
    (hsame : passed = false → (s.totalDeposited M C).isSome = true → x = y) :
    Totalled M C s' := by
  intro t' ht'
  obtain ⟨z, hz, hdeposits⟩ := h.deposits
  rw [hdeposits]
  cases passed with
  | true =>
    obtain ⟨t, t'', hs, hs', hmoves⟩ := h.counted rfl
    rw [ht'] at hs'
    cases hs'
    exact (ht t hs).update user (by omega)
  | false =>
    rw [h.omitted rfl] at ht'
    have hxy := hsame rfl (by rw [ht', Option.isSome_some])
    exact (ht t' ht').update user (by omega)

theorem TotalsStep.totalled (h : TotalsStep rt s M C a s') (hnot : ¬Uncounted rt M C s a)
    (ht : Totalled M C s) : Totalled M C s' := by
  cases h with
  | other deposits total =>
    intro t hs
    rw [deposits]
    exact ht t (total ▸ hs)
  | registered hmint hcollateral deposits total =>
    intro t hs
    rw [total] at hs
    cases hs
    rw [deposits]
    refine sumsTo_zero fun user => ?_
    by_contra hne
    exact hnot (.register hmint hcollateral hne)
  | deposited hmint hcollateral h =>
    exact h.totalled ht fun homitted hreg =>
      absurd (.deposit hmint hcollateral hreg homitted) hnot
  | repaid hmint hcollateral hp h =>
    refine h.totalled ht fun homitted hreg => ?_
    by_contra hne
    exact hnot (.repay hmint hcollateral hreg homitted hp (Ne.symm hne))
  | liquidated hmint hcollateral h kind =>
    refine h.totalled ht fun hpassed hreg => ?_
    rcases kind with htrue | ⟨min, repay, rfl, homitted, hzero⟩
    · rw [hpassed] at htrue
      cases htrue
    · rw [hzero (by_contra fun hseizes =>
        hnot (.liquidate hmint hcollateral hreg homitted hseizes))]
      rfl

/-! ## The subtraction -/

/-- The same state, where the collateral has another total. -/
def State.recount (s : State) (mint collateral : Pubkey) (cc : CollateralConfig)
    (total : UInt64) : State :=
  { s with
    collateralConfigs := put s.collateralConfigs (.collateralConfig mint collateral)
      { cc with totalDeposited := total } }

/-- The instruction takes collateral out of a vault. -/
def Instruction.withdraws (mint collateral : Pubkey) : Instruction → Bool
  | .cdpRepayStable b _ => b.sssMint = mint ∧ b.collateralMint = collateral
  | .cdpLiquidate b _ _ => b.sssMint = mint ∧ b.collateralMint = collateral
  | .cdpLiquidateV2 b _ _ => b.sssMint = mint ∧ b.collateralMint = collateral
  | _ => false

/-- A later step succeeds where the earlier one does, if its first part does. -/
theorem isOk_bind {ε α α' β : Type} {p : Except ε α} {q : Except ε α'} {f : α → Except ε β}
    {g : α' → Except ε β}
    (h : ∀ v, p = .ok v → ∃ w, q = .ok w ∧ ((f v).isOk = true → (g w).isOk = true)) :
    (p >>= f).isOk = true → (q >>= g).isOk = true := by
  intro hok
  obtain ⟨r, hr⟩ := isOk_iff.mp hok
  obtain ⟨v, hv, hf⟩ := bind_eq_ok.mp hr
  obtain ⟨w, hw, hg⟩ := h v hv
  obtain ⟨r', hr'⟩ := isOk_iff.mp (hg (isOk_iff.mpr ⟨r, hf⟩))
  exact isOk_iff.mpr ⟨r', bind_eq_ok.mpr ⟨w, hw, hr'⟩⟩

/-- The total covers what is in any vault. -/
theorem CollateralConfig.subDeposited_of_le (h : n ≤ cc.totalDeposited) :
    ∃ cc', CollateralConfig.subDeposited n (some cc) = .ok cc' := by
  have hsub : cc.totalDeposited.checkedSub n = some (cc.totalDeposited - n) := by
    rw [UInt64.checkedSub_eq_some, UInt64.toNat_sub_of_le _ _ h]
    have := UInt64.le_iff_toNat_le.mp h
    omega
  refine ⟨some { cc with totalDeposited := cc.totalDeposited - n }, ?_⟩
  simp only [CollateralConfig.subDeposited, hsub]
  rfl

/-- The same config up to its total, which is the one of `cc`; or none. -/
inductive Recounted (cc : CollateralConfig) :
    Option CollateralConfig → Option CollateralConfig → Prop where
  | none : Recounted cc none none
  | some {total : UInt64} :
    Recounted cc (some { cc with totalDeposited := total }) (some cc)

theorem Recounted.subDeposited {cc' cc₀ : Option CollateralConfig} (h : Recounted cc cc' cc₀)
    (hle : n ≤ cc.totalDeposited) : ∃ cc'', CollateralConfig.subDeposited n cc₀ = .ok cc'' := by
  cases h with
  | none => exact ⟨.none, rfl⟩
  | some => exact CollateralConfig.subDeposited_of_le hle

theorem Recounted.params {cc' cc₀ : Option CollateralConfig} (h : Recounted cc cc' cc₀) :
    liquidationParams cc₀ = liquidationParams cc' := by
  cases h <;> rfl

/-- Both states load the config, or neither. -/
theorem loadCollateralConfig_recount {total : UInt64} {cc' : Option CollateralConfig}
    (hcc : s.collateralConfigs (.collateralConfig M C) = some cc)
    (h : loadCollateralConfig (s.recount M C cc total) passed M C = .ok cc') :
    ∃ cc₀, loadCollateralConfig s passed M C = .ok cc₀ ∧ Recounted cc cc' cc₀ := by
  cases passed with
  | false =>
    cases h
    exact ⟨.none, rfl, .none⟩
  | true =>
    rcases loadCollateralConfig_eq_ok h with ⟨hfalse, -⟩ | ⟨-, c, rfl, hc⟩
    · cases hfalse
    · simp only [State.recount, put_self, Option.some.injEq] at hc
      subst hc
      refine ⟨some cc, ?_, .some⟩
      change (load s.collateralConfigs (.collateralConfig M C) >>= fun c => pure (some c)) = _
      rw [load, hcc]
      rfl

theorem CdpLiquidate.loadCollateralConfig_recount {b : CdpLiquidate} {e : SssError}
    {total : UInt64} {cc' : Option CollateralConfig}
    (hcc : s.collateralConfigs (.collateralConfig b.sssMint b.collateralMint) = some cc)
    (h : b.loadCollateralConfig (s.recount b.sssMint b.collateralMint cc total) passed e =
      .ok cc') :
    ∃ cc₀, b.loadCollateralConfig s passed e = .ok cc₀ ∧ Recounted cc cc' cc₀ := by
  simp only [CdpLiquidate.loadCollateralConfig, bind_eq_ok, pure_eq_ok] at h
  obtain ⟨_, hload, u, hcheck, rfl⟩ := h
  obtain ⟨cc₀, hload₀, hrecounted⟩ := SolanaStablecoin.loadCollateralConfig_recount hcc hload
  refine ⟨cc₀, ?_, hrecounted⟩
  simp only [CdpLiquidate.loadCollateralConfig, bind_eq_ok, pure_eq_ok]
  refine ⟨cc₀, hload₀, u, ?_, rfl⟩
  cases hrecounted with
  | none => exact hcheck
  | some => exact hcheck

/-- The amount comes out of a vault, so the total covers it. -/
theorem le_totalDeposited {v : CollateralVault}
    (hv : s.collateralVaults (.collateralVault M user C) = some v)
    (hle : ∀ user, s.deposits M C user ≤ cc.totalDeposited.toNat) (hn : n ≤ v.depositedAmount) :
    n ≤ cc.totalDeposited := by
  have hvault := hle user
  rw [State.deposits_of hv, ← UInt64.le_iff_toNat_le] at hvault
  exact UInt64.le_trans hn hvault

theorem cdpRepayStableHandler_recount {b : CdpRepayStable} {total : UInt64}
    (hcc : s.collateralConfigs (.collateralConfig b.sssMint b.collateralMint) = some cc)
    (hle : ∀ user, s.deposits b.sssMint b.collateralMint user ≤ cc.totalDeposited.toNat) :
    (cdpRepayStableHandler rt (s.recount b.sssMint b.collateralMint cc total) b n).isOk = true →
      (cdpRepayStableHandler rt s b n).isOk = true := by
  unfold cdpRepayStableHandler
  refine isOk_bind fun (c, m) hc => ⟨(c, m), hc, ?_⟩
  refine isOk_bind fun _ h => ⟨_, h, ?_⟩
  refine isOk_bind fun p hp => ⟨p, hp, ?_⟩
  refine isOk_bind fun v hv => ⟨v, hv, ?_⟩
  refine isOk_bind fun _ h => ⟨_, h, ?_⟩
  refine isOk_bind fun _ h => ⟨_, h, ?_⟩
  refine isOk_bind fun _ h => ⟨_, h, ?_⟩
  refine isOk_bind fun cc' hload => ?_
  obtain ⟨cc₀, hload₀, hrecounted⟩ := loadCollateralConfig_recount hcc hload
  refine ⟨cc₀, hload₀, ?_⟩
  refine isOk_bind fun _ hpos => ⟨_, hpos, ?_⟩
  refine isOk_bind fun _ h => ⟨_, h, ?_⟩
  refine isOk_bind fun _ hdebt => ⟨_, hdebt, ?_⟩
  refine isOk_bind fun released hreleased => ⟨released, hreleased, ?_⟩
  refine isOk_bind fun _ h => ⟨_, h, ?_⟩
  refine isOk_bind fun _ h => ⟨_, h, ?_⟩
  refine isOk_bind fun _ h => ⟨_, h, ?_⟩
  refine isOk_bind fun _ h => ⟨_, h, ?_⟩
  refine isOk_bind fun _ h => ⟨_, h, ?_⟩
  -- the subtraction
  refine isOk_bind fun _ _ => ?_
  have hle' := le_totalDeposited (loadVault_eq_ok.mp hv).1 hle
    (collateralToRelease_le hreleased (requireAmount_eq_ok.mp hpos) (require_eq_ok.mp hdebt))
  obtain ⟨cc'', hsub⟩ := hrecounted.subDeposited hle'
  have hwhen : ∃ cc'', onlyWhen (released > 0) cc₀
      (CollateralConfig.subDeposited released cc₀) = .ok cc'' := by
    by_cases hrel : released > 0
    · exact ⟨cc'', by rw [onlyWhen, if_pos hrel, hsub]⟩
    · exact ⟨cc₀, by rw [onlyWhen, if_neg hrel]⟩
  obtain ⟨cc'', hwhen⟩ := hwhen
  refine ⟨cc'', hwhen, ?_⟩
  exact isOk_bind fun _ h => ⟨_, h, fun _ => rfl⟩

theorem cdpLiquidateHandler_recount {b : CdpLiquidate} {min repay total : UInt64}
    (hcc : s.collateralConfigs (.collateralConfig b.sssMint b.collateralMint) = some cc)
    (hle : ∀ user, s.deposits b.sssMint b.collateralMint user ≤ cc.totalDeposited.toNat) :
    (cdpLiquidateHandler rt clock (s.recount b.sssMint b.collateralMint cc total) b min
      repay).isOk = true → (cdpLiquidateHandler rt clock s b min repay).isOk = true := by
  unfold cdpLiquidateHandler
  refine isOk_bind fun l hl => ⟨l, hl, ?_⟩
  refine isOk_bind fun cc' hload => ?_
  obtain ⟨cc₀, hload₀, hrecounted⟩ := CdpLiquidate.loadCollateralConfig_recount hcc hload
  refine ⟨cc₀, hload₀, ?_⟩
  rw [hrecounted.params]
  refine isOk_bind fun oc h => ⟨oc, h, ?_⟩
  refine isOk_bind fun _ h => ⟨_, h, ?_⟩
  refine isOk_bind fun _ h => ⟨_, h, ?_⟩
  refine isOk_bind fun _ h => ⟨_, h, ?_⟩
  refine isOk_bind fun _ h => ⟨_, h, ?_⟩
  refine isOk_bind fun price h => ⟨price, h, ?_⟩
  refine isOk_bind fun debt h => ⟨debt, h, ?_⟩
  refine isOk_bind fun (burned, seized) hamount => ⟨(burned, seized), hamount, ?_⟩
  refine isOk_bind fun _ h => ⟨_, h, ?_⟩
  refine isOk_bind fun _ h => ⟨_, h, ?_⟩
  -- the subtraction
  refine isOk_bind fun _ _ => ?_
  have hseized : seized ≤ l.vault.depositedAmount := by
    simp only [onlyWhen_eq_ok, Prod.mk.injEq] at hamount
    exact Settles.seized_le hamount
  obtain ⟨cc'', hsub⟩ := hrecounted.subDeposited
    (le_totalDeposited (CdpLiquidate.load_ok hl).vault hle hseized)
  refine ⟨cc'', hsub, ?_⟩
  exact isOk_bind fun _ h => ⟨_, h, fun _ => rfl⟩

theorem cdpLiquidateV2Handler_recount {b : CdpLiquidate} {repay min total : UInt64}
    (hcc : s.collateralConfigs (.collateralConfig b.sssMint b.collateralMint) = some cc)
    (hle : ∀ user, s.deposits b.sssMint b.collateralMint user ≤ cc.totalDeposited.toNat) :
    (cdpLiquidateV2Handler rt clock (s.recount b.sssMint b.collateralMint cc total) b repay
      min).isOk = true → (cdpLiquidateV2Handler rt clock s b repay min).isOk = true := by
  unfold cdpLiquidateV2Handler
  refine isOk_bind fun l hl => ⟨l, hl, ?_⟩
  refine isOk_bind fun cc' hload => ?_
  obtain ⟨cc₀, hload₀, hrecounted⟩ := CdpLiquidate.loadCollateralConfig_recount hcc hload
  refine ⟨cc₀, hload₀, ?_⟩
  refine isOk_bind fun cc₁ hsome => ?_
  cases hrecounted with
  | none => cases hsome
  | some =>
    cases hsome
    refine ⟨cc, rfl, ?_⟩
    refine isOk_bind fun _ h => ⟨_, h, ?_⟩
    refine isOk_bind fun _ h => ⟨_, h, ?_⟩
    refine isOk_bind fun price h => ⟨price, h, ?_⟩
    refine isOk_bind fun _ h => ⟨_, h, ?_⟩
    refine isOk_bind fun debt h => ⟨debt, h, ?_⟩
    refine isOk_bind fun seized hseize => ⟨seized, hseize, ?_⟩
    refine isOk_bind fun _ h => ⟨_, h, ?_⟩
    refine isOk_bind fun _ h => ⟨_, h, ?_⟩
    refine isOk_bind fun _ h => ⟨_, h, ?_⟩
    -- the subtraction
    refine isOk_bind fun _ _ => ?_
    obtain ⟨cc'', hsub⟩ := CollateralConfig.subDeposited_of_le
      (le_totalDeposited (CdpLiquidate.load_ok hl).vault hle (seizeV2_le hseize))
    refine ⟨cc'', hsub, ?_⟩
    exact isOk_bind fun _ h => ⟨_, h, fun _ => rfl⟩

/-- Where the total is the sum, no repayment and no liquidation fails for the sake of it. -/
theorem Totalled.exec_recount {i : Instruction} {total : UInt64} (ht : Totalled M C s)
    (hcc : s.collateralConfigs (.collateralConfig M C) = some cc)
    (hi : i.withdraws M C = true)
    (hok : (i.exec rt clock (s.recount M C cc total)).isOk = true) :
    (i.exec rt clock s).isOk = true := by
  have hle (user : Pubkey) : s.deposits M C user ≤ cc.totalDeposited.toNat :=
    (ht cc.totalDeposited (by rw [State.totalDeposited, hcc, Option.map_some])).le user
  cases i with
  | cdpRepayStable b n =>
    obtain ⟨rfl, rfl⟩ := of_decide_eq_true hi
    exact cdpRepayStableHandler_recount hcc hle hok
  | cdpLiquidate b min repay =>
    obtain ⟨rfl, rfl⟩ := of_decide_eq_true hi
    exact cdpLiquidateHandler_recount hcc hle hok
  | cdpLiquidateV2 b repay min =>
    obtain ⟨rfl, rfl⟩ := of_decide_eq_true hi
    exact cdpLiquidateV2Handler_recount hcc hle hok
  | _ => cases hi

/-- In every run in which nobody moves a registered collateral without its config, nor registers
one of which something is deposited, the total of the collateral is the sum over its vaults, and
no repayment or liquidation would succeed with another total and fails with this one. -/
theorem collateral_totals {as : List Action} (hfree : s.totalDeposited M C = none)
    (H : Along (Action.exec rt) (fun s a => ∀ s', Action.exec rt s a = .ok s' →
      ¬Uncounted rt M C s a) s as)
    (hcc : (run rt s as).collateralConfigs (.collateralConfig M C) = some cc) :
    SumsTo ((run rt s as).deposits M C) cc.totalDeposited.toNat ∧
      ∀ clock i total, Instruction.withdraws M C i = true →
        (i.exec rt clock ((run rt s as).recount M C cc total)).isOk = true →
        (i.exec rt clock (run rt s as)).isOk = true := by
  have hinit : Totalled M C s := by
    intro t ht
    rw [hfree] at ht
    cases ht
  have ht : Totalled M C (run rt s as) :=
    invariant_run (fun ht hnot h => (exec_totals h).totalled (hnot _ h) ht) hinit H
  refine ⟨ht _ ?_, fun clock i total hi hok => ht.exec_recount hcc hi hok⟩
  rw [State.totalDeposited, hcc, Option.map_some]

end Totals

/-- The transaction moves no collateral past the total and registers none. -/
def Action.keepsTotals : Action → Bool
  | .call _ (.registerCollateral ..) => false
  | .call _ (.cdpDepositCollateral b _) => b.collateralConfig
  | .call _ (.cdpRepayStable b _) => b.collateralConfig
  | .call _ (.cdpLiquidate b ..) => b.collateralConfig
  | _ => true

theorem Action.keepsTotals_counted {rt : Runtime} {s : State} {a : Action} {M C : Pubkey}
    (ha : a.keepsTotals = true) : ¬Uncounted rt M C s a := by
  intro h
  cases h with
  | register => cases ha
  | deposit _ _ _ homitted | repay _ _ _ homitted | liquidate _ _ _ homitted =>
    exact absurd (homitted.symm.trans ha) Bool.false_ne_true

namespace Market

/-- Gold is registered, with a loan of at most 75% of its value. -/
def registerGold : Action :=
  .call (day 0) (.registerCollateral
    { authority, sssMint := mint.key, collateralMint := gold.key }
    { whitelisted := true, maxLtvBps := 7500, liquidationThresholdBps := 8000
      liquidationBonusBps := 500, maxDepositCap := 0 })

/-- The user deposits 500 of gold, with or without the config. -/
def depositRegistered (collateralConfig : Bool) : Action :=
  .call (day 0) (.cdpDepositCollateral
    { user, sssMint := mint.key, collateralMint := gold.key, vaultTokenAccount := goldAccount.key
      userCollateralAccount := userGold.key, collateralConfig } 500)

/-- A loan of 100 against registered gold. -/
def pledged (collateralConfig : Bool) : List Action :=
  opening 1000 ++ [registerGold] ++
    [ .world (.createAccount goldAccount gold.key goldVault), depositRegistered collateralConfig,
      publish 1 0, borrow 100 0 ]

/-- 40 of the loan are repaid, with the config. -/
def repayRegistered : Instruction :=
  .cdpRepayStable
    { user, sssMint := mint.key, userSssAccount := userStable.key, collateralMint := gold.key
      vaultTokenAccount := goldAccount.key, userCollateralAccount := userGold.key
      collateralConfig := true } 40

end Market

open Market in
/-- 500 are deposited and 200 of them released, all counted. -/
theorem collateral_totals_repaid :
    ∃ cc, (run localRuntime genesis
        (pledged true ++ [.call (day 0) repayRegistered])).collateralConfigs
          (.collateralConfig mint.key gold.key) = some cc ∧ cc.totalDeposited = 300 ∧
      SumsTo ((run localRuntime genesis
        (pledged true ++ [.call (day 0) repayRegistered])).deposits mint.key gold.key) 300 := by
  obtain ⟨cc, hcc, htotal⟩ := Option.map_eq_some_iff.mp (show
    ((run localRuntime genesis (pledged true ++ [.call (day 0) repayRegistered])).collateralConfigs
      (.collateralConfig mint.key gold.key)).map (·.totalDeposited) = some 300 by decide +kernel)
  have hsum := (collateral_totals rfl ?_ hcc).1
  · rw [htotal] at hsum
    exact ⟨cc, hcc, htotal, hsum⟩
  rw [pledged, List.append_assoc, List.append_assoc]
  refine along_append.mpr ⟨along_of_forall fun a ha s s' _ => ?_, fun s' _ hcounted => ?_,
    along_of_forall fun a ha s s' _ => ?_⟩
  · have hkeeps : ∀ a ∈ opening 1000, a.keepsTotals = true := by decide
    exact Action.keepsTotals_counted (hkeeps a ha)
  · -- nothing is deposited when gold is registered
    cases hcounted with
    | register _ _ hdeposited => exact hdeposited rfl
  · exact Action.keepsTotals_counted ((show ∀ a ∈ _, a.keepsTotals = true by decide) a ha)

open Market in
/-- A deposit that omits the config is not counted, and the repayment that passes it fails, though
it succeeds where 500 are counted. -/
theorem uncounted_deposit_blocks :
    ∃ cc, Genesis genesis ∧
      (run localRuntime genesis (pledged false)).collateralConfigs
        (.collateralConfig mint.key gold.key) = some cc ∧
      ¬SumsTo ((run localRuntime genesis (pledged false)).deposits mint.key gold.key)
        cc.totalDeposited.toNat ∧
      (repayRegistered.exec localRuntime (day 0)
        (run localRuntime genesis (pledged false))).isOk = false ∧
      (repayRegistered.exec localRuntime (day 0) ((run localRuntime genesis
        (pledged false)).recount mint.key gold.key cc 500)).isOk = true := by
  refine ⟨_, genesis_genesis, rfl, fun hsum => ?_, by decide +kernel, by decide +kernel⟩
  have hle := hsum.le user.key
  exact absurd hle (by decide +kernel)

end SolanaStablecoin
