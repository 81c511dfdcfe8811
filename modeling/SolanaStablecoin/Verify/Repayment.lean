import SolanaStablecoin.Base.Pledge
import SolanaStablecoin.Verify.Accrual
import SolanaStablecoin.Verify.CollateralTotals

/-! Repayments of a position. The vault and the debt of a position are a pledge, of which each
repayment releases its part. -/

namespace SolanaStablecoin

open Transition

section Positions

variable {rt : Runtime} {clock : Clock} {s s' : State} {a : Action} {M user C : Pubkey} {n : UInt64}
  {p : CdpPosition} {q : Pledge}

/-! ## One repayment -/

/-- Principal and stored fees. -/
def State.owed (s : State) (mint user : Pubkey) : Nat :=
  (s.position mint user).debtAmount.toNat + (s.position mint user).accruedFees.toNat

/-- The collateral per unit of what is owed does not fall, principal and fees are burned, the fees
are settled, and no more than the proportional share is released. -/
structure CdpRepayStable.InProportion (rt : Runtime) (s : State) (a : CdpRepayStable) (n : UInt64)
    (s' : State) : Prop where
  ratio : s.deposits a.sssMint a.collateralMint a.user.key * s'.owed a.sssMint a.user.key ≤
    s'.deposits a.sssMint a.collateralMint a.user.key * s.owed a.sssMint a.user.key
  debt : (s'.position a.sssMint a.user.key).debtAmount.toNat + n.toNat =
    (s.position a.sssMint a.user.key).debtAmount.toNat
  fees : (s'.position a.sssMint a.user.key).accruedFees = 0
  moved : ∃ total released t,
    total.toNat = n.toNat + (s.position a.sssMint a.user.key).accruedFees.toNat ∧
    s.tokens.Burns a.sssMint a.userSssAccount a.user.key total t ∧
    (released ≠ 0 ∧ t.Transfers a.vaultTokenAccount a.collateralMint a.userCollateralAccount
        (.collateralVault a.sssMint a.user.key a.collateralMint) released
        (rt.token.transferFee t a.collateralMint released) s'.tokens ∨
      released = 0 ∧ s'.tokens = t) ∧
    s'.deposits a.sssMint a.collateralMint a.user.key + released.toNat =
      s.deposits a.sssMint a.collateralMint a.user.key ∧
    (released.toNat : ℚ) ≤ s.deposits a.sssMint a.collateralMint a.user.key * n.toNat /
      (s.position a.sssMint a.user.key).debtAmount.toNat

theorem Repaid.inProportion {b : CdpRepayStable} {c : StablecoinConfig} {v : CollateralVault}
    {released : UInt64} (h : Repaid rt s b n s' c p v released) : b.InProportion rt s n s' := by
  obtain ⟨x, hx, hpositions⟩ := h.positions
  obtain ⟨y, hy, hvaults⟩ := h.vaults
  obtain ⟨total, t, htotal, -, hburns, hmoved⟩ := h.burned
  have hp := State.position_of h.position
  have hp' : s'.position b.sssMint b.user.key = { p with debtAmount := x, accruedFees := 0 } :=
    State.position_of (by rw [hpositions, put_self])
  have hd := State.deposits_of h.vault
  have hd' : s'.deposits b.sssMint b.collateralMint b.user.key = y.toNat := by
    rw [State.deposits_of (v := { v with depositedAmount := y })]
    rw [hvaults, put_self]
  have hreleased : released.toNat =
      Pledge.release ⟨v.depositedAmount.toNat, p.debtAmount.toNat⟩ n.toNat := h.released_eq
  refine ⟨?_, ?_, ?_, total, released, t, ?_, hburns, hmoved, ?_, ?_⟩
  · rw [State.owed, State.owed, hp, hp', hd, hd']
    have hratio := Pledge.repay_ratio_add ⟨v.depositedAmount.toNat, p.debtAmount.toNat⟩ n.toNat
      p.accruedFees.toNat
    simp only [Pledge.repay, ← hreleased] at hratio
    have hleft : v.depositedAmount.toNat - released.toNat = y.toNat := by omega
    have hrest : p.debtAmount.toNat - n.toNat = x.toNat := by omega
    rw [hleft, hrest] at hratio
    exact hratio
  · rw [hp, hp']
    exact hx.symm
  · rw [hp']
  · rw [hp]
    exact htotal
  · rw [hd, hd']
    exact hy.symm
  · rw [hreleased, hd, hp]
    exact Pledge.release_le_part ..

/-! ## A run of them -/

/-- What the user's repayments through the vault of `C` release. -/
def releases (M user C : Pubkey) (s : State) : Action → List Nat
  | .call _ (.cdpRepayStable b n) =>
    if b.sssMint = M ∧ b.user.key = user ∧ b.collateralMint = C then
      [s.deposits M C user * n.toNat / (s.debt M user).toNat]
    else []
  | _ => []

/-- The transaction is no deposit into the vault and no liquidation of the position, and a repayment
of the position goes through this vault. -/
structure LeavesPledge (M user C : Pubkey) (a : Action) : Prop where
  deposit : ∀ clock b n, a = .call clock (.cdpDepositCollateral b n) →
    ¬(b.sssMint = M ∧ b.user.key = user ∧ b.collateralMint = C)
  liquidate : ∀ collateral, ¬a.Liquidates M user collateral
  repay : ∀ collateral n, a.Repays M user collateral n → collateral = C

/-- The position is locked to `C`, and the vault and the debt are the pledge `q`. -/
def Pledged (M user C : Pubkey) (s : State) (q : Pledge) : Prop :=
  ∃ p, s.cdpPositions (.cdpPosition M user) = some p ∧ p.collateralMint = C ∧
    q = { deposit := s.deposits M C user, debt := p.debtAmount.toNat }

theorem Pledged.stays (h : Pledged M user C s q)
    (hp : s'.cdpPositions (.cdpPosition M user) = s.cdpPositions (.cdpPosition M user))
    (hd : s'.deposits M C user = s.deposits M C user) : Pledged M user C s' q := by
  obtain ⟨p, hposition, hlock, rfl⟩ := h
  exact ⟨p, hp.trans hposition, hlock, by rw [hd]⟩

theorem State.deposits_elsewhere {mint owner collateral : Pubkey} {v : CollateralVault}
    (h : s'.collateralVaults = put s.collateralVaults (.collateralVault mint owner collateral) v)
    (hne : ¬(mint = M ∧ owner = user ∧ collateral = C)) :
    s'.deposits M C user = s.deposits M C user := by
  rw [State.deposits, h, put_of_ne, State.deposits]
  intro heq
  cases heq
  exact hne ⟨rfl, rfl, rfl⟩

theorem cdpPositions_elsewhere {mint owner : Pubkey}
    (h : s'.cdpPositions = put s.cdpPositions (.cdpPosition mint owner) p)
    (hne : ¬(mint = M ∧ owner = user)) :
    s'.cdpPositions (.cdpPosition M user) = s.cdpPositions (.cdpPosition M user) := by
  rw [h, put_of_ne]
  intro heq
  cases heq
  exact hne ⟨rfl, rfl⟩

theorem Borrowed.pledged {b : CdpBorrowStable} {c : StablecoinConfig} {v : CollateralVault}
    (ho : Owned s) (h : Borrowed clock s b n s' c v) (hq : Pledged M user C s q) :
    ∃ q', q.Step [] q' ∧ Pledged M user C s' q' := by
  obtain ⟨q', x, htouch, hx, hput⟩ := h.positions
  by_cases hk : b.sssMint = M ∧ b.user.key = user
  · obtain ⟨rfl, rfl⟩ := hk
    obtain ⟨p, hp, hlock, rfl⟩ := hq
    have hposition : b.position s = p := by rw [CdpBorrowStable.position, hp, Option.getD_some]
    rw [hposition] at htouch
    obtain ⟨-, hdebt, hsame, -⟩ := CdpPosition.touch_ok htouch
    have hdeposits : s'.deposits b.sssMint C = s.deposits b.sssMint C := State.deposits_eq h.vaults
    have hp' : s'.cdpPositions (.cdpPosition b.sssMint b.user.key) =
        some { q' with debtAmount := x } := by rw [hput, put_self]
    refine ⟨_, .borrow (UInt64.lt_iff_toNat_lt.mp h.positive), _, hp',
      (hsame (ho _ _ hp)).collateralMint.trans hlock, ?_⟩
    rw [hdeposits, hx, hdebt]
  · exact ⟨q, .stay, hq.stays (cdpPositions_elsewhere hput hk)
      (congrFun (State.deposits_eq h.vaults) user)⟩

theorem Repaid.pledged {b : CdpRepayStable} {c : StablecoinConfig} {v : CollateralVault}
    {released : UInt64} (h : Repaid rt s b n s' c p v released)
    (hleaves : LeavesPledge M user C (.call clock (.cdpRepayStable b n)))
    (hq : Pledged M user C s q) :
    ∃ q', q.Step (releases M user C s (.call clock (.cdpRepayStable b n))) q' ∧
      Pledged M user C s' q' := by
  obtain ⟨x, hx, hpositions⟩ := h.positions
  obtain ⟨y, hy, hvaults⟩ := h.vaults
  by_cases hk : b.sssMint = M ∧ b.user.key = user
  · obtain ⟨rfl, rfl⟩ := hk
    obtain rfl := hleaves.repay _ _ ⟨clock, b, rfl, rfl, rfl, rfl⟩
    obtain ⟨p', hp, hlock, rfl⟩ := hq
    cases h.position.symm.trans hp
    have hd := State.deposits_of h.vault
    have hd' : s'.deposits b.sssMint b.collateralMint b.user.key = y.toNat := by
      rw [State.deposits_of (v := { v with depositedAmount := y })]
      rw [hvaults, put_self]
    have hreleased : released.toNat =
        Pledge.release ⟨v.depositedAmount.toNat, p.debtAmount.toNat⟩ n.toNat := h.released_eq
    rw [releases, if_pos ⟨rfl, rfl, rfl⟩, State.debt_of hp, hd]
    have hp' : s'.cdpPositions (.cdpPosition b.sssMint b.user.key) =
        some { p with debtAmount := x, accruedFees := 0 } := by rw [hpositions, put_self]
    refine ⟨_, .repay (UInt64.lt_iff_toNat_lt.mp h.positive) (UInt64.le_iff_toNat_le.mp h.le_debt),
      _, hp', hlock, ?_⟩
    rw [hd', Pledge.repay, ← hreleased]
    congr 1
    · exact Nat.sub_eq_of_eq_add hy
    · exact Nat.sub_eq_of_eq_add hx
  · have hnone : ¬(b.sssMint = M ∧ b.user.key = user ∧ b.collateralMint = C) :=
      fun h => hk ⟨h.1, h.2.1⟩
    rw [releases, if_neg hnone]
    exact ⟨q, .stay, hq.stays (cdpPositions_elsewhere hpositions hk)
      (State.deposits_elsewhere hvaults hnone)⟩

theorem Liquidated.pledged {b : CdpLiquidate} {i : Instruction} {c : StablecoinConfig}
    {p' : CdpPosition} {v : CollateralVault} {burned seized x y : UInt64}
    (kind : i = .cdpLiquidate b x y ∨ i = .cdpLiquidateV2 b x y)
    (h : Liquidated rt s b s' c p p' v burned seized)
    (hleaves : LeavesPledge M user C (.call clock i)) (hq : Pledged M user C s q) :
    Pledged M user C s' q := by
  have hk : ¬(b.sssMint = M ∧ b.cdpOwner = user) := fun hk =>
    hleaves.liquidate b.collateralMint ⟨clock, b, x, y, hk.1, hk.2, rfl,
      kind.imp (congrArg (Action.call clock)) (congrArg (Action.call clock))⟩
  exact hq.stays (cdpPositions_elsewhere h.positions hk)
    (State.deposits_elsewhere h.vaults fun h => hk ⟨h.1, h.2.1⟩)

theorem Accrued.pledged {mint debtor : Pubkey} (h : Accrued s s' mint debtor)
    (hq : Pledged M user C s q) : Pledged M user C s' q := by
  have hd : s'.deposits M C user = s.deposits M C user := congrFun (State.deposits_eq h.vaults) user
  rcases h.positions with hsame | ⟨p, p', hp, hlock, hdebt, hput⟩
  · exact hq.stays (congrFun hsame _) hd
  by_cases hk : mint = M ∧ debtor = user
  · obtain ⟨rfl, rfl⟩ := hk
    obtain ⟨p'', hp'', hmint, rfl⟩ := hq
    cases hp.symm.trans hp''
    exact ⟨p', by rw [hput, put_self], hlock.collateralMint.trans hmint, by rw [hd, hdebt]⟩
  · exact hq.stays (cdpPositions_elsewhere hput hk) hd

/-- Every transaction that leaves the pledge is a step of it. -/
theorem exec_pledge (ho : Owned s) (hleaves : LeavesPledge M user C a) (hq : Pledged M user C s q)
    (h : Action.exec rt s a = .ok s') :
    ∃ q', q.Step (releases M user C s a) q' ∧ Pledged M user C s' q' := by
  have hstep := exec_step h
  have untouched (hv : a.writesVault = false) (hp : a.writesPosition = false) :
      Pledged M user C s' q :=
    hq.stays (congrFun (hstep.positions_eq hp) _)
      (congrFun (State.deposits_eq (hstep.vaults_eq hv)) user)
  cases a with
  | world w => exact ⟨q, .stay, untouched rfl rfl⟩
  | call clock i =>
    change i.exec rt clock s = .ok s' at h
    cases i with
    | cdpDepositCollateral b n =>
      have hdeposited := cdpDepositCollateralHandler_ok h
      obtain ⟨v, x, -, -, hput⟩ := hdeposited.vaults
      exact ⟨q, .stay, hq.stays (congrFun hdeposited.positions _)
        (State.deposits_elsewhere hput (hleaves.deposit clock b n rfl))⟩
    | cdpBorrowStable =>
      obtain ⟨c, v, price, m, m', hborrowed, -⟩ := cdpBorrowStableHandler_ok h
      exact hborrowed.pledged ho hq
    | cdpRepayStable =>
      obtain ⟨c, p, v, released, hrepaid⟩ := cdpRepayStableHandler_ok h
      exact hrepaid.pledged hleaves hq
    | cdpLiquidate =>
      obtain ⟨l, cc, oc, price, debt, p', burned, seized, -, -, -, -, -, hliquidated⟩ :=
        cdpLiquidateHandler_ok h
      exact ⟨q, .stay, hliquidated.pledged (.inl rfl) hleaves hq⟩
    | cdpLiquidateV2 =>
      obtain ⟨l, cc, price, debt, p', burned, seized, -, -, -, -, -, hliquidated⟩ :=
        cdpLiquidateV2Handler_ok h
      exact ⟨q, .stay, hliquidated.pledged (.inr rfl) hleaves hq⟩
    | collectStabilityFee =>
      obtain ⟨c, -, -, haccrued, -⟩ := collectStabilityFeeHandler_ok h
      exact ⟨q, .stay, haccrued.pledged hq⟩
    | _ => exact ⟨q, .stay, untouched rfl rfl⟩

/-- Since `d` was in the vault, all that left it was released. -/
def PledgeCovers (M user C : Pubkey) (d : Nat) (s : State) (rs : List Nat) : Prop :=
  Owned s ∧ ∃ q, Pledged M user C s q ∧ q.Covers d rs

theorem PledgeCovers.exec {d : Nat} {rs : List Nat} (h : PledgeCovers M user C d s rs)
    (hleaves : LeavesPledge M user C a) (hok : Action.exec rt s a = .ok s') :
    PledgeCovers M user C d s' (rs ++ releases M user C s a) := by
  obtain ⟨ho, q, hq, hcovers⟩ := h
  obtain ⟨q', hstep, hq'⟩ := exec_pledge ho hleaves hq hok
  exact ⟨ho.step (exec_step hok), q', hq', hcovers.step hstep⟩

/-- In every reachable state, each repayment that goes through is in proportion; and in every run
that settles the debt of a position, without a deposit into its vault or a liquidation, the
repayments release together what the vault held at the start. -/
theorem repayment (hs : Genesis s) (before : List Action) :
    (∀ b n s', cdpRepayStableHandler rt (run rt s before) b n = .ok s' →
      b.InProportion rt (run rt s before) n s') ∧
    ∀ M user p as, (run rt s before).cdpPositions (.cdpPosition M user) = some p →
      p.debtAmount ≠ 0 →
      Along (Action.exec rt) (fun _ a => LeavesPledge M user p.collateralMint a)
        (run rt s before) as →
      (run rt (run rt s before) as).debt M user = 0 →
      (history (Action.exec rt) (releases M user p.collateralMint) (run rt s before) as).sum =
          (run rt s before).deposits M p.collateralMint user ∧
        (run rt (run rt s before) as).deposits M p.collateralMint user = 0 := by
  constructor
  · intro b n s' h
    obtain ⟨c, p, v, released, hrepaid⟩ := cdpRepayStableHandler_ok h
    exact hrepaid.inProportion
  · intro M user p as hp hdebt H hzero
    have ho : Owned (run rt s before) :=
      invariant_run_of_forall (fun h hok => h.step (exec_step hok)) before hs.owned
    have hinit : PledgeCovers M user p.collateralMint
        ((run rt s before).deposits M p.collateralMint user) (run rt s before) [] := by
      have hsome : p.debtAmount.toNat ≠ 0 := fun hzero => hdebt (UInt64.toNat.inj hzero)
      exact ⟨ho, _, ⟨p, hp, rfl, rfl⟩,
        Pledge.covers_init (p := { deposit := _, debt := p.debtAmount.toNat }) hsome⟩
    have hrun : PledgeCovers M user p.collateralMint
        ((run rt s before).deposits M p.collateralMint user) (run rt (run rt s before) as)
        ([] ++ history (Action.exec rt) (releases M user p.collateralMint) (run rt s before) as) :=
      invariant_history (fun h hleaves hok => h.exec hleaves hok) hinit H
    obtain ⟨-, q, ⟨p', hp', -, rfl⟩, hcovers⟩ := hrun
    rw [State.debt_of hp'] at hzero
    have hsettled : p'.debtAmount.toNat = 0 := by rw [hzero, UInt64.toNat_zero]
    exact ⟨hcovers.sum_of_settled hsettled, hcovers.settled hsettled⟩

end Positions

namespace Market

/-- A third of the debt, rounded down, is repaid twice, and then the rest. -/
def repaidInThirds : List Action :=
  [ repay 33 gold.key goldAccount.key userGold.key, repay 33 gold.key goldAccount.key userGold.key,
    repay 34 gold.key goldAccount.key userGold.key ]

theorem repay_leaves {M : Pubkey} (amount : UInt64) (C vault account : Pubkey) :
    LeavesPledge M user.key C (repay amount C vault account) := by
  refine ⟨?_, ?_, ?_⟩
  · rintro clock b n h
    cases h
  · rintro collateral ⟨clock, b, x, y, -, -, -, h | h⟩
    · cases h
    · cases h
  · rintro collateral n ⟨clock, b, -, -, rfl, h⟩
    cases h
    rfl

end Market

open Market in
/-- The 500 come back in three parts. -/
theorem repayment_thirds : Genesis genesis ∧
    (history (Action.exec localRuntime) (releases mint.key user.key gold.key)
      (run localRuntime genesis (funded 1000)) repaidInThirds).sum = 500 := by
  obtain ⟨p, hp, heq⟩ := Option.map_eq_some_iff.mp (show
    ((run localRuntime genesis (funded 1000)).cdpPositions (.cdpPosition mint.key user.key)).map
      (fun p => (p.debtAmount, p.collateralMint)) = some (100, gold.key) by decide +kernel)
  simp only [Prod.mk.injEq] at heq
  obtain ⟨hdebt, hlock⟩ := heq
  have hleaves : Along (Action.exec localRuntime)
      (fun _ a => LeavesPledge mint.key user.key p.collateralMint a)
      (run localRuntime genesis (funded 1000)) repaidInThirds := by
    rw [hlock]
    exact ⟨repay_leaves .., repay_leaves .., repay_leaves .., trivial⟩
  have hheld : (run localRuntime genesis (funded 1000)).deposits mint.key gold.key user.key =
      500 := by decide +kernel
  have hall := ((repayment genesis_genesis (funded 1000)).2 mint.key user.key p repaidInThirds hp
    (by rw [hdebt]; decide) hleaves (by decide +kernel)).1
  rw [hlock, hheld] at hall
  exact ⟨genesis_genesis, hall⟩

end SolanaStablecoin
