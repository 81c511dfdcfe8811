import SolanaStablecoin.Verify.Footprint
import SolanaStablecoin.Verify.LiquidationBonus

/-! What a transaction issues and retires of a stablecoin, read off its arguments and the accounts
it finds: the two counters of the config move by just that much. -/

namespace SolanaStablecoin

open Transition

variable {rt : Runtime} {clock : Clock} {s s' : State} {a : Action} {i : Instruction} {M : Pubkey}
  {c c' : StablecoinConfig} {n : UInt64}

/-- What the instructions that mint are asked to mint. -/
def Action.issued (M : Pubkey) : Action → List UInt64
  | .call _ (.mint b amount) | .call _ (.cpiMint b amount _) => if b.mint = M then [amount] else []
  | .call _ (.mmMint b amount) => if b.mint = M then [amount] else []
  | .call _ (.bridgeIn b _ amount _ _) => if b.mint = M then [amount] else []
  | .call _ (.cdpBorrowStable b amount) => if b.sssMint = M then [amount] else []
  | _ => []

/-! ## What is retired -/

/-- `cdp_liquidate` burns the part of the principal it is asked for, or all that is owed. -/
def CdpPosition.liquidated (p : CdpPosition) (repay : UInt64) : Nat :=
  if 0 < repay ∧ repay < p.debtAmount then repay.toNat
  else p.debtAmount.toNat + p.accruedFees.toNat

/-- `cdp_liquidate_v2` burns what it is asked for, up to all that is owed. -/
def CdpPosition.liquidatedV2 (p : CdpPosition) (repay : UInt64) : Nat :=
  if repay = 0 then p.debtAmount.toNat + p.accruedFees.toNat
  else min repay.toNat (p.debtAmount.toNat + p.accruedFees.toNat)

/-- `collect_stability_fee` burns the stored fees with those of the time that passed, if there is a
fee and time has passed. -/
def CdpPosition.collected (p : CdpPosition) (feeBps : UInt16) (now : Int64) : Nat :=
  if feeBps = 0 ∨ p.elapsedSecs now = 0 then 0
  else p.accruedFees.toNat +
    min (p.debtAmount.toNat * feeBps.toNat * p.elapsedSecs now / (10000 * secsPerYear))
      (2 ^ 64 - 1)

/-- What an instruction records as burned of `M`. -/
def Instruction.retired (clock : Clock) (s : State) (M : Pubkey) : Instruction → Nat
  | .burn b amount | .cpiBurn b amount _ => if b.mint = M then amount.toNat else 0
  | .mmBurn b amount => if b.mint = M then amount.toNat else 0
  | .bridgeOut b amount =>
    if b.mint = M then
      (s.bridgeConfigs (.bridgeConfig M)).elim 0 fun bc =>
        (amount - feeOf amount bc.bridgeFeeBps).toNat
    else 0
  | .redeem b amount | .psmDynamicSwap b amount => if b.sssMint = M then amount.toNat else 0
  | .processRedemption b index =>
    if b.config = .stablecoinConfig M then
      (s.redemptionEntries (.redemptionEntry M index)).elim 0 (·.amount.toNat)
    else 0
  | .fulfillRedemption b =>
    if b.config = .stablecoinConfig M then
      (s.redemptionRequests b.redemptionRequest).elim 0 (·.amount.toNat)
    else 0
  | .cdpRepayStable b amount =>
    if b.sssMint = M then
      (s.cdpPositions (.cdpPosition M b.user.key)).elim 0 fun p =>
        amount.toNat + p.accruedFees.toNat
    else 0
  | .cdpLiquidate b _ repay =>
    if b.sssMint = M then (s.cdpPositions (.cdpPosition M b.cdpOwner)).elim 0 (·.liquidated repay)
    else 0
  | .cdpLiquidateV2 b repay _ =>
    if b.sssMint = M then
      (s.cdpPositions (.cdpPosition M b.cdpOwner)).elim 0 (·.liquidatedV2 repay)
    else 0
  | .collectStabilityFee b =>
    if b.sssMint = M then
      match s.configs (.stablecoinConfig M), s.cdpPositions (.cdpPosition M b.debtor) with
      | some c, some p => p.collected c.stabilityFeeBps clock.unixTimestamp
      | _, _ => 0
    else 0
  | _ => 0

def Action.retired (s : State) (M : Pubkey) : Action → Nat
  | .call clock i => i.retired clock s M
  | .world _ => 0

theorem Settles.burned_eq {l : LiquidationAccounts} {cc : Option CollateralConfig}
    {price : OraclePrice} {debt repay burned seized : UInt64}
    (h : Settles l cc price debt repay burned seized) (hdebt : debt.toNat = l.debt) :
    burned.toNat = l.position.liquidated repay := by
  rcases h with ⟨hpart, hseize⟩ | ⟨hall, rfl, -⟩
  · simp only [seizePartial, bind_eq_ok, pure_eq_ok, Prod.mk.injEq] at hseize
    obtain ⟨-, -, -, -, -, -, -, -, -, -, -, -, -, -, -, -, -, -, rfl, -⟩ := hseize
    exact (if_pos hpart).symm
  · rw [hdebt, CdpPosition.liquidated, if_neg hall]
    rfl

theorem SettlesV2.burned_eq {l : LiquidationAccounts} {cc : CollateralConfig}
    {price : OraclePrice} {debt repay burned seized : UInt64}
    (h : SettlesV2 l cc price debt repay burned seized) (hdebt : debt.toNat = l.debt) :
    burned.toNat = l.position.liquidatedV2 repay := by
  obtain ⟨rfl, -⟩ := h
  have hall : l.debt = l.position.debtAmount.toNat + l.position.accruedFees.toNat := rfl
  rw [CdpPosition.liquidatedV2, ← hall, ← hdebt]
  by_cases hzero : repay = 0
  · rw [if_pos (.inl hzero), if_pos hzero]
  · rw [if_neg hzero]
    split
    next hle => exact (min_eq_right (UInt64.le_iff_toNat_le.mp (hle.resolve_left hzero))).symm
    next hlt =>
      have hlt : ¬ debt ≤ repay := fun hle => hlt (.inr hle)
      exact (min_eq_left (UInt64.le_iff_toNat_le.mp (UInt64.le_of_lt (UInt64.not_le.mp hlt)))).symm

theorem CdpPosition.newFee_toNat {p : CdpPosition} {feeBps : UInt16} {now : Int64} {fee : UInt64}
    (h : p.newFee feeBps now = .ok fee) :
    fee.toNat = min (p.debtAmount.toNat * feeBps.toNat * p.elapsedSecs now / (10000 * secsPerYear))
      (2 ^ 64 - 1) := by
  simp only [CdpPosition.newFee, bind_eq_ok, Option.okOr_eq_ok, U128.checkedMul_eq_some,
    pure_eq_ok] at h
  obtain ⟨_, ⟨rfl, -⟩, _, ⟨rfl, -⟩, rfl⟩ := h
  exact UInt64.toNat_ofNat_of_lt' ((min_le_right _ _).trans_lt (by decide))

/-! ## What moves the supply -/

/-- The counters of the config of `M` after a transaction. -/
structure Moved (M : Pubkey) (s : State) (c : StablecoinConfig) (i r : Nat) (s' : State)
    (c' : StablecoinConfig) : Prop where
  old : s.configs (.stablecoinConfig M) = some c
  stored : s'.configs (.stablecoinConfig M) = some c'
  minted : c'.totalMinted.toNat = c.totalMinted.toNat + i
  burned : c'.totalBurned.toNat = c.totalBurned.toNat + r

namespace Moved

variable {x r : Nat}

theorem of_posted (h : Posted s c M x r s') : ∃ c', Moved M s c x r s' c' := by
  obtain ⟨c', hput, -, -, -, hminted, hburned⟩ := h.configs
  exact ⟨c', h.config, by rw [hput, put_self], hminted, hburned⟩

theorem toNat_netSupply (h : Moved M s c x r s' c') :
    c'.netSupply.toNat = c.totalMinted.toNat + x - (c.totalBurned.toNat + r) := by
  rw [StablecoinConfig.toNat_netSupply, h.minted, h.burned]

theorem netSupply_le_of_issued (h : Moved M s c x 0 s' c') : c.netSupply ≤ c'.netSupply := by
  rw [UInt64.le_iff_toNat_le, h.toNat_netSupply, StablecoinConfig.toNat_netSupply]
  omega

theorem netSupply_le_of_retired (h : Moved M s c 0 r s' c') : c'.netSupply ≤ c.netSupply := by
  rw [UInt64.le_iff_toNat_le, h.toNat_netSupply, StablecoinConfig.toNat_netSupply]
  omega

end Moved

/-- Only those that may burn move the counter of what is burned. -/
theorem Instruction.exec_totalBurned (h : i.exec rt clock s = .ok s')
    (hi : i.fields.contains .totalBurned = false)
    (hinit : ∀ a p, i ≠ .initializeStablecoin a p) : SameConfigs (·.totalBurned) s s' :=
  (exec_fields hinit s' h).of_without fun c => by
    change ConfigField.hide i.fields .totalBurned c.totalBurned = c.totalBurned
    rw [ConfigField.hide, hi, cond_false]

/-- What a successful transaction does to the supply of `M`. -/
inductive SupplyChange (M : Pubkey) (s : State) (a : Action) (s' : State) : Prop where
  | kept (quiet : a.issued M = []) (idle : a.retired s M = 0)
    (h : (s'.configs (.stablecoinConfig M)).map (·.terms) =
      (s.configs (.stablecoinConfig M)).map (·.terms))
  | issued {c c' : StablecoinConfig} {n : UInt64} (amount : a.issued M = [n])
    (idle : a.retired s M = 0) (moved : Moved M s c n.toNat 0 s' c')
  | retired {c c' : StablecoinConfig} (quiet : a.issued M = [])
    (moved : Moved M s c 0 (a.retired s M) s' c')
  | created (quiet : a.issued M = []) (idle : a.retired s M = 0)
    (free : s.configs (.stablecoinConfig M) = none)

theorem Posted.config_of_ne {mint : Pubkey} {x r : Nat} (h : Posted s c mint x r s')
    (hM : mint ≠ M) : s'.configs (.stablecoinConfig M) = s.configs (.stablecoinConfig M) := by
  obtain ⟨c', hput, -⟩ := h.configs
  rw [hput, put_of_ne]
  intro heq
  exact hM (Pubkey.stablecoinConfig.inj heq).symm

namespace SupplyChange

variable {mint : Pubkey} {r : Nat}

theorem of_terms (hquiet : a.issued M = []) (hidle : a.retired s M = 0) (h : SameTerms s s') :
    SupplyChange M s a s' :=
  .kept hquiet hidle (h _)

theorem of_issued (hamount : a.issued M = if mint = M then [n] else [])
    (hidle : a.retired s M = 0) (h : Posted s c mint n.toNat 0 s') : SupplyChange M s a s' := by
  by_cases hM : mint = M
  · subst hM
    obtain ⟨c', hmoved⟩ := Moved.of_posted h
    exact .issued (hamount.trans (if_pos rfl)) hidle hmoved
  · exact .kept (hamount.trans (if_neg hM)) hidle (congrArg _ (h.config_of_ne hM))

theorem of_retired (hquiet : a.issued M = []) (hr : a.retired s M = if mint = M then r else 0)
    (h : Posted s c mint 0 r s') : SupplyChange M s a s' := by
  by_cases hM : mint = M
  · subst hM
    rw [if_pos rfl] at hr
    rw [← hr] at h
    obtain ⟨c', hmoved⟩ := Moved.of_posted h
    exact .retired hquiet hmoved
  · exact .kept hquiet (hr.trans (if_neg hM)) (congrArg _ (h.config_of_ne hM))

theorem of_initialized (hquiet : a.issued M = []) (hidle : a.retired s M = 0)
    (h : Initialized s mint s') : SupplyChange M s a s' := by
  by_cases hM : mint = M
  · exact .created hquiet hidle (hM ▸ h.free)
  · obtain ⟨c, hput, -⟩ := h.config
    refine .kept hquiet hidle ?_
    rw [hput, put_of_ne]
    intro heq
    exact hM (Pubkey.stablecoinConfig.inj heq).symm

end SupplyChange

/-- What mints nothing of any stablecoin of the program, and burns none. -/
theorem Step.supplyChange (h : Step rt s a s') (hnone : ∀ M, ¬ a.issues M)
    (hquiet : a.issued M = []) (hidle : a.retired s M = 0)
    (hburned : SameConfigs (·.totalBurned) s s') : SupplyChange M s a s' := by
  have of_posted {c : StablecoinConfig} {mint : Pubkey} {r : Nat} (h : Posted s c mint 0 r s') :
      SupplyChange M s a s' := by
    refine .of_retired hquiet ?_ h
    split
    next hM =>
      obtain ⟨c', hmoved⟩ := Moved.of_posted h
      have hsame := hburned (.stablecoinConfig mint)
      rw [hmoved.old, hmoved.stored, Option.map_some, Option.map_some] at hsame
      have heq : c'.totalBurned = c.totalBurned := Option.some.inj hsame
      have hr := hmoved.burned
      rw [heq] at hr
      omega
    next => exact hidle
  cases h with
  | quiet h => exact .of_terms hquiet hidle h.terms
  | aside h => exact .of_terms hquiet hidle h.loose.terms
  | createMint _ h | mintElsewhere _ h => exact .of_terms hquiet hidle (.of_eq h)
  | initializeStablecoin h => exact .of_initialized hquiet hidle h
  | issue _ _ _ issues => exact absurd issues (hnone _)
  | retire h => exact of_posted h.toPosted
  | redeemInstantly _ _ _ _ h => exact .of_terms hquiet hidle (.of_eq h)
  | process _ h => exact of_posted h.toPosted
  | deposit h => exact .of_terms hquiet hidle (.of_eq h.configs)
  | borrow h => exact absurd rfl (hnone _)
  | repay h =>
    obtain ⟨total, t, -, hposted, -⟩ := h.burned
    exact of_posted hposted
  | liquidate _ h => exact of_posted h.toPosted
  | collect _ _ _ h =>
    rcases h with ⟨-, h⟩ | ⟨n, h⟩
    · exact .of_terms hquiet hidle (.of_eq h)
    · exact of_posted h.toPosted

namespace SupplyChange

theorem of_bridgeOut {b : BridgeTokensOut} (h : bridgeOutHandler rt s b n = .ok s') :
    SupplyChange M s (.call clock (.bridgeOut b n)) s' := by
  obtain ⟨c, bc, hbc, hretired, -⟩ := bridgeOutHandler_ok h
  refine .of_retired rfl ?_ hretired.toPosted
  change (if b.mint = M then _ else _) = _
  split
  next hM =>
    rw [← hM, hbc]
    rfl
  next => rfl

theorem of_process {b : ProcessRedemption} {index : UInt64}
    (h : processRedemptionHandler rt clock s b index = .ok s') :
    SupplyChange M s (.call clock (.processRedemption b index)) s' := by
  obtain ⟨c, rq, re, hhead, hprocessed⟩ := processRedemptionHandler_ok h
  refine .of_retired rfl ?_ hprocessed.toPosted
  change (if b.config = .stablecoinConfig M then _ else _) = _
  rw [hprocessed.key]
  by_cases hM : c.mint = M
  · rw [if_pos (by rw [hM]), if_pos hM, ← hM, hhead, hprocessed.entry]
    rfl
  · rw [if_neg fun heq => hM (Pubkey.stablecoinConfig.inj heq), if_neg hM]

theorem of_fulfil {b : FulfillRedemption} (h : fulfillRedemptionHandler rt clock s b = .ok s') :
    SupplyChange M s (.call clock (.fulfillRedemption b)) s' := by
  obtain ⟨c, rr, hkey, hrr, hretired, -⟩ := fulfillRedemptionHandler_ok h
  refine .of_retired rfl ?_ hretired.toPosted
  change (if b.config = .stablecoinConfig M then _ else _) = _
  rw [hkey]
  by_cases hM : c.mint = M
  · rw [if_pos (by rw [hM]), if_pos hM, hrr]
    rfl
  · rw [if_neg fun heq => hM (Pubkey.stablecoinConfig.inj heq), if_neg hM]

theorem of_repay {b : CdpRepayStable} (h : cdpRepayStableHandler rt s b n = .ok s') :
    SupplyChange M s (.call clock (.cdpRepayStable b n)) s' := by
  obtain ⟨c, p, v, released, hrepaid⟩ := cdpRepayStableHandler_ok h
  obtain ⟨total, t, htotal, hposted, -⟩ := hrepaid.burned
  refine .of_retired rfl ?_ hposted
  change (if b.sssMint = M then _ else _) = _
  split
  next hM =>
    rw [← hM, hrepaid.position]
    exact htotal.symm
  next => rfl

theorem of_liquidate {b : CdpLiquidate} {least repay : UInt64}
    (h : cdpLiquidateHandler rt clock s b least repay = .ok s') :
    SupplyChange M s (.call clock (.cdpLiquidate b least repay)) s' := by
  obtain ⟨l, cc, oc, price, debt, p', burned, seized, -, -, -, -, hdebt, hsettles, hliq, -⟩ :=
    cdpLiquidateHandler_settles h
  refine .of_retired rfl ?_ hliq.toPosted
  change (if b.sssMint = M then _ else _) = _
  split
  next hM =>
    rw [← hM, hliq.position]
    exact (hsettles.burned_eq (checkLiquidatable_debt hdebt)).symm
  next => rfl

theorem of_liquidateV2 {b : CdpLiquidate} {repay least : UInt64}
    (h : cdpLiquidateV2Handler rt clock s b repay least = .ok s') :
    SupplyChange M s (.call clock (.cdpLiquidateV2 b repay least)) s' := by
  obtain ⟨l, cc, price, debt, p', burned, seized, -, -, -, -, hdebt, hsettles, hliq, -⟩ :=
    cdpLiquidateV2Handler_settles h
  refine .of_retired rfl ?_ hliq.toPosted
  change (if b.sssMint = M then _ else _) = _
  split
  next hM =>
    rw [← hM, hliq.position]
    exact (hsettles.burned_eq (checkLiquidatable_debt hdebt)).symm
  next => rfl

theorem of_collect {b : CollectStabilityFee}
    (h : collectStabilityFeeHandler rt clock s b = .ok s') :
    SupplyChange M s (.call clock (.collectStabilityFee b)) s' := by
  simp only [collectStabilityFeeHandler, bind_eq_ok, loadSss3OfMint_eq_ok, Prod.exists,
    StablecoinConfig.requireNotPaused_eq_ok, load_eq_ok] at h
  obtain ⟨c, m, ⟨hc, -, -, hm⟩, -, -, p, hp, -, -, -, -, -, -, -, -, h⟩ := h
  have hretired : (Action.call clock (.collectStabilityFee b)).retired s M =
      if b.sssMint = M then p.collected c.stabilityFeeBps clock.unixTimestamp else 0 := by
    change (if b.sssMint = M then _ else _) = _
    split
    next hM =>
      rw [← hM, hc, hp]
    next => rfl
  have of_idle (hzero : p.collected c.stabilityFeeBps clock.unixTimestamp = 0)
      (hsame : s'.configs = s.configs) :
      SupplyChange M s (.call clock (.collectStabilityFee b)) s' :=
    .of_terms rfl (by rw [hretired, hzero, ite_self]) (.of_eq hsame)
  refine ite_ok_cases (fun hfee h => ?_) (fun hfee h => ?_) h
  · cases h
    exact of_idle (if_pos (.inl hfee)) rfl
  refine ite_ok_cases (fun helapsed h => ?_) (fun helapsed h => ?_) h
  · cases h
    exact of_idle (if_pos (.inr helapsed)) rfl
  simp only [bind_eq_ok, Option.okOr_eq_ok] at h
  obtain ⟨fee, hnew, total, htotal, h⟩ := h
  have hcollected : p.collected c.stabilityFeeBps clock.unixTimestamp = total.toNat := by
    rw [CdpPosition.collected, if_neg (not_or.mpr ⟨hfee, helapsed⟩),
      ← CdpPosition.newFee_toNat hnew, UInt64.checkedAdd_eq_some.mp htotal]
  refine ite_ok_cases (fun hzero h => ?_) (fun _ h => ?_) h
  · cases h
    exact of_idle (by rw [hcollected, hzero]; rfl) rfl
  · simp only [bind_eq_ok, Option.okOr_eq_ok, StablecoinConfig.addBurned_eq_ok, pure_eq_ok] at h
    obtain ⟨t, -, _, ⟨x, hx, rfl⟩, rfl⟩ := h
    exact .of_retired rfl (by rw [hretired, hcollected]) (Posted.of_addBurned hc hm hx rfl)

end SupplyChange

/-- The counters move by what is issued and retired. -/
theorem exec_supplyChange (h : a.exec rt s = .ok s') : SupplyChange M s a s' := by
  cases a with
  | world w =>
    exact (World.exec_step h).supplyChange (fun _ h => h) rfl rfl (.of_eq (World.exec_configs h))
  | call clock i =>
    change i.exec rt clock s = .ok s' at h
    cases i with
    | initializeStablecoin b p => exact .of_initialized rfl rfl (initializeHandler_ok h)
    | mint b n =>
      obtain ⟨c, hissued, -⟩ := mintHandler_ok h
      exact .of_issued rfl rfl hissued.toPosted
    | cpiMint b n v =>
      obtain ⟨c, hissued, -⟩ := mintHandler_ok (cpiMintHandler_ok h)
      exact .of_issued rfl rfl hissued.toPosted
    | mmMint b n =>
      obtain ⟨c, hissued, -⟩ := mmMintHandler_ok h
      exact .of_issued rfl rfl hissued.toPosted
    | bridgeIn b proof n recipient id =>
      obtain ⟨c, hissued, -⟩ := bridgeInHandler_ok h
      exact .of_issued rfl rfl hissued.toPosted
    | cdpBorrowStable b n =>
      obtain ⟨c, v, price, m, m', hborrowed, -⟩ := cdpBorrowStableHandler_ok h
      exact .of_issued rfl rfl hborrowed.toPosted
    | burn b n =>
      obtain ⟨c, hretired, -⟩ := burnHandler_ok h
      exact .of_retired rfl rfl hretired.toPosted
    | cpiBurn b n v =>
      obtain ⟨c, hretired, -⟩ := burnHandler_ok (cpiBurnHandler_ok h)
      exact .of_retired rfl rfl hretired.toPosted
    | mmBurn b n =>
      obtain ⟨c, hretired, -⟩ := mmBurnHandler_ok h
      exact .of_retired rfl rfl hretired.toPosted
    | redeem b n =>
      obtain ⟨c, hretired, -⟩ := redeemHandler_ok h
      exact .of_retired rfl rfl hretired.toPosted
    | psmDynamicSwap b n =>
      obtain ⟨c, hretired, -⟩ := psmDynamicSwapHandler_ok h
      exact .of_retired rfl rfl hretired.toPosted
    | bridgeOut => exact .of_bridgeOut h
    | processRedemption => exact .of_process h
    | fulfillRedemption => exact .of_fulfil h
    | cdpRepayStable => exact .of_repay h
    | cdpLiquidate => exact .of_liquidate h
    | cdpLiquidateV2 => exact .of_liquidateV2 h
    | collectStabilityFee => exact .of_collect h
    | _ =>
      exact (Instruction.exec_step h).supplyChange (fun _ h => h) rfl rfl
        (Instruction.exec_totalBurned h rfl (fun _ _ h => nomatch h))

end SolanaStablecoin
