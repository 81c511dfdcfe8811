import SolanaStablecoin.Program.Token2022
import SolanaStablecoin.Verify.Step

/-! One vault per position. A position is locked to one collateral mint, only the vault of that
mint is borrowed against, and collateral leaves a vault only on account of the position that is
locked to it. -/

namespace SolanaStablecoin

open Transition

variable {rt : Runtime} {s s' : State} {a : Action} {n : UInt64}

/-- A liquidation of the user's position against the vault of `collateral`. -/
def Action.Liquidates (a : Action) (mint user collateral : Pubkey) : Prop :=
  ∃ clock b x y, b.sssMint = mint ∧ b.cdpOwner = user ∧ b.collateralMint = collateral ∧
    (a = .call clock (.cdpLiquidate b x y) ∨ a = .call clock (.cdpLiquidateV2 b x y))

/-- A repayment of `n` by the user, in which the vault of `collateral` releases. -/
def Action.Repays (a : Action) (mint user collateral : Pubkey) (n : UInt64) : Prop :=
  ∃ clock b, b.sssMint = mint ∧ b.user.key = user ∧ b.collateralMint = collateral ∧
    a = .call clock (.cdpRepayStable b n)

/-- A loan to the user against the vault of `collateral`. -/
def Action.Borrows (a : Action) (mint user collateral : Pubkey) : Prop :=
  ∃ clock b n, b.sssMint = mint ∧ b.user.key = user ∧ b.collateralMint = collateral ∧
    a = .call clock (.cdpBorrowStable b n)

def State.debt (s : State) (mint user : Pubkey) : UInt64 :=
  ((s.cdpPositions (.cdpPosition mint user)).map CdpPosition.debtAmount).getD 0

/-- The share of the collateral that is released is the share of the debt that is repaid. -/
def Proportional (v v' : CollateralVault) (debt debt' n : UInt64) : Prop :=
  debt.toNat = debt'.toNat + n.toNat ∧
    v.depositedAmount.toNat =
      v'.depositedAmount.toNat + v.depositedAmount.toNat * n.toNat / debt.toNat

/-- What one transaction does under the rule. -/
structure OneVault (s : State) (a : Action) (s' : State) : Prop where
  /-- A position stays, and stays locked to its collateral. -/
  lock : ∀ mint user p, s.cdpPositions (.cdpPosition mint user) = some p →
    ∃ p', s'.cdpPositions (.cdpPosition mint user) = some p' ∧
      p'.collateralMint = p.collateralMint
  /-- Debt grows only by a loan against the vault that the position is locked to. -/
  debt : ∀ mint user p', s'.cdpPositions (.cdpPosition mint user) = some p' →
    s.debt mint user < p'.debtAmount → a.Borrows mint user p'.collateralMint
  /-- A vault stays. -/
  vault : ∀ k v, s.collateralVaults k = some v → ∃ v', s'.collateralVaults k = some v'
  /-- A vault loses collateral only when the position locked to it is liquidated, or when its
  debt is repaid, and then in proportion. -/
  loss : ∀ mint user collateral v v',
    s.collateralVaults (.collateralVault mint user collateral) = some v →
    s'.collateralVaults (.collateralVault mint user collateral) = some v' →
    v'.depositedAmount < v.depositedAmount →
    ∃ p, s.cdpPositions (.cdpPosition mint user) = some p ∧ p.collateralMint = collateral ∧
      (a.Liquidates mint user collateral ∨
        ∃ n, a.Repays mint user collateral n ∧
          Proportional v v' p.debtAmount (s'.debt mint user) n)

/-! ## The parts of the rule -/

theorem State.debt_of {mint user : Pubkey} {p : CdpPosition}
    (h : s.cdpPositions (.cdpPosition mint user) = some p) : s.debt mint user = p.debtAmount := by
  rw [State.debt, h, Option.map_some, Option.getD_some]

/-- Transactions that leave vaults and positions alone. -/
theorem OneVault.of_eq (hv : s'.collateralVaults = s.collateralVaults)
    (hp : s'.cdpPositions = s.cdpPositions) : OneVault s a s' where
  lock mint user p h := ⟨p, by rw [hp, h], rfl⟩
  debt mint user p' hp' hlt := by
    rw [hp] at hp'
    rw [State.debt_of hp'] at hlt
    exact absurd hlt (UInt64.lt_irrefl _)
  vault k v h := ⟨v, by rw [hv, h]⟩
  loss mint user collateral v v' h h' hlt := by
    rw [hv, h] at h'
    cases h'
    exact absurd hlt (UInt64.lt_irrefl _)

/-- One position is rewritten without more debt, and no vault. -/
theorem OneVault.of_position {k : Pubkey} {p p' : CdpPosition}
    (hvaults : s'.collateralVaults = s.collateralVaults) (hp : s.cdpPositions k = some p)
    (hput : s'.cdpPositions = put s.cdpPositions k p') (hlock : p.SameLock p')
    (hdebt : p'.debtAmount = p.debtAmount) : OneVault s a s' where
  lock mint user q hq := by
    rw [hput]
    by_cases hk : .cdpPosition mint user = k
    · rw [hk] at hq ⊢
      rw [hp] at hq
      cases hq
      exact ⟨p', put_self .., hlock.collateralMint⟩
    · exact ⟨q, by rw [put_of_ne _ _ hk, hq], rfl⟩
  debt mint user q hq hlt := by
    rw [hput] at hq
    rcases put_eq_some.mp hq with ⟨hk, rfl⟩ | ⟨-, hq⟩
    · rw [← hk] at hp
      rw [State.debt_of hp, hdebt] at hlt
      exact absurd hlt (UInt64.lt_irrefl _)
    · rw [State.debt_of hq] at hlt
      exact absurd hlt (UInt64.lt_irrefl _)
  vault k v hv := ⟨v, by rw [hvaults, hv]⟩
  loss mint user collateral v v' hv hv' hlt := by
    rw [hvaults, hv] at hv'
    cases hv'
    exact absurd hlt (UInt64.lt_irrefl _)

/-- A deposit only adds. -/
theorem Deposited.oneVault {b : CdpDepositCollateral} (h : Deposited rt s b n s') :
    OneVault s a s' := by
  obtain ⟨w, x, hw, hx, hput⟩ := h.vaults
  refine
    { lock := fun mint user p hp => ⟨p, by rw [h.positions, hp], rfl⟩
      debt := fun mint user p' hp' hlt => ?_
      vault := fun k v hv => ?_
      loss := fun mint user collateral v v' hv hv' hlt => ?_ }
  · rw [h.positions] at hp'
    rw [State.debt_of hp'] at hlt
    exact absurd hlt (UInt64.lt_irrefl _)
  · rw [hput]
    by_cases hk : k = .collateralVault b.sssMint b.user.key b.collateralMint
    · exact ⟨_, by rw [hk, put_self]⟩
    · exact ⟨v, by rw [put_of_ne _ _ hk, hv]⟩
  · rw [hput] at hv'
    rcases put_eq_some.mp hv' with ⟨hk, rfl⟩ | ⟨-, hv'⟩
    · have hamount : w.depositedAmount = v.depositedAmount := by
        rw [hw, ← hk, hv, Option.getD_some]
        unfold CollateralVault.initialise
        split <;> rfl
      rw [UInt64.lt_iff_toNat_lt] at hlt
      rw [hamount] at hx
      change x.toNat < v.depositedAmount.toNat at hlt
      omega
    · rw [hv] at hv'
      cases hv'
      exact absurd hlt (UInt64.lt_irrefl _)

/-- Every stored position has an owner. -/
def Owned (s : State) : Prop := ∀ k p, s.cdpPositions k = some p → p.owner ≠ .default

theorem Borrowed.oneVault {clock clock' : Clock} {b : CdpBorrowStable} {c : StablecoinConfig}
    {v : CollateralVault} (h : Borrowed clock s b n s' c v) (ho : Owned s) :
    OneVault s (.call clock' (.cdpBorrowStable b n)) s' := by
  obtain ⟨q, x, htouch, hx, hput⟩ := h.positions
  obtain ⟨hlock, hdebt, hsame, -⟩ := CdpPosition.touch_ok htouch
  refine
    { lock := fun mint user p hp => ?_
      debt := fun mint user p' hp' hlt => ?_
      vault := fun k v hv => ⟨v, by rw [h.vaults, hv]⟩
      loss := fun mint user collateral v v' hv hv' hlt => ?_ }
  · rw [hput]
    by_cases hk : .cdpPosition mint user = Pubkey.cdpPosition b.sssMint b.user.key
    · rw [hk] at hp ⊢
      refine ⟨_, put_self .., ?_⟩
      have hp' : b.position s = p := by rw [CdpBorrowStable.position, hp, Option.getD_some]
      rw [hp'] at hsame
      exact (hsame (ho _ _ hp)).collateralMint
    · exact ⟨p, by rw [put_of_ne _ _ hk, hp], rfl⟩
  · rw [hput] at hp'
    rcases put_eq_some.mp hp' with ⟨hk, rfl⟩ | ⟨-, hp'⟩
    · cases hk
      exact ⟨clock', b, n, rfl, rfl, hlock.symm, rfl⟩
    · rw [State.debt_of hp'] at hlt
      exact absurd hlt (UInt64.lt_irrefl _)
  · rw [h.vaults, hv] at hv'
    cases hv'
    exact absurd hlt (UInt64.lt_irrefl _)

/-- A transaction that rewrites one position, with no more debt, and one vault of its owner. -/
theorem OneVault.of_payout {mint user collateral : Pubkey} {p p' : CdpPosition}
    {v v' : CollateralVault} (hp : s.cdpPositions (.cdpPosition mint user) = some p)
    (hput : s'.cdpPositions = put s.cdpPositions (.cdpPosition mint user) p')
    (hlock : p.SameLock p') (hdebt : p'.debtAmount ≤ p.debtAmount)
    (hv : s.collateralVaults (.collateralVault mint user collateral) = some v)
    (hvput : s'.collateralVaults =
      put s.collateralVaults (.collateralVault mint user collateral) v')
    (hloss : v'.depositedAmount < v.depositedAmount → p.collateralMint = collateral ∧
      (a.Liquidates mint user collateral ∨
        ∃ n, a.Repays mint user collateral n ∧ Proportional v v' p.debtAmount p'.debtAmount n)) :
    OneVault s a s' where
  lock mint' user' q hq := by
    rw [hput]
    by_cases hk : .cdpPosition mint' user' = Pubkey.cdpPosition mint user
    · rw [hk] at hq ⊢
      rw [hp] at hq
      cases hq
      exact ⟨p', put_self .., hlock.collateralMint⟩
    · exact ⟨q, by rw [put_of_ne _ _ hk, hq], rfl⟩
  debt mint' user' q hq hlt := by
    rw [hput] at hq
    rcases put_eq_some.mp hq with ⟨hk, rfl⟩ | ⟨-, hq⟩
    · rw [← hk] at hp
      rw [State.debt_of hp] at hlt
      exact absurd (UInt64.lt_of_lt_of_le hlt hdebt) (UInt64.lt_irrefl _)
    · rw [State.debt_of hq] at hlt
      exact absurd hlt (UInt64.lt_irrefl _)
  vault k w hw := by
    rw [hvput]
    by_cases hk : k = .collateralVault mint user collateral
    · exact ⟨v', by rw [hk, put_self]⟩
    · exact ⟨w, by rw [put_of_ne _ _ hk, hw]⟩
  loss mint' user' collateral' w w' hw hw' hlt := by
    rw [hvput] at hw'
    rcases put_eq_some.mp hw' with ⟨hk, rfl⟩ | ⟨-, hw'⟩
    · cases hk
      rw [hv] at hw
      cases hw
      have hp' : s'.cdpPositions (.cdpPosition mint user) = some p' := by rw [hput, put_self]
      rw [State.debt_of hp']
      exact ⟨p, hp, hloss hlt⟩
    · rw [hw] at hw'
      cases hw'
      exact absurd hlt (UInt64.lt_irrefl _)

/-! ## Transactions -/

/-- The transaction fails, or a repayment in it names the collateral that the position is locked
to. -/
def RepaysLocked (rt : Runtime) (s : State) (a : Action) : Prop :=
  ∀ clock b n s' p, a = .call clock (.cdpRepayStable b n) → Action.exec rt s a = .ok s' →
    s.cdpPositions (.cdpPosition b.sssMint b.user.key) = some p →
    p.collateralMint = b.collateralMint

theorem Step.oneVault (h : Step rt s a s') (hok : Action.exec rt s a = .ok s') (ho : Owned s)
    (hrep : RepaysLocked rt s a) : OneVault s a s' := by
  cases h with
  | quiet h => exact .of_eq h.vaults h.positions
  | aside h => exact .of_eq h.loose.vaults h.loose.positions
  | createMint _ _ frame | mintElsewhere _ _ frame | issue _ _ frame | retire _ frame
  | redeemInstantly _ _ _ _ _ frame => exact .of_eq frame.vaults frame.positions
  | initializeStablecoin h => exact .of_eq h.vaults h.positions
  | process _ h => exact .of_eq h.vaults h.positions
  | deposit h => exact h.oneVault
  | borrow h => exact h.oneVault ho
  | @repay clock b n _ _ p v released h =>
    obtain ⟨x, hx, hput⟩ := h.positions
    obtain ⟨y, hy, hvput⟩ := h.vaults
    refine .of_payout h.position hput ⟨rfl, rfl, rfl⟩ ?_ h.vault hvput fun _ => ?_
    · rw [UInt64.le_iff_toNat_le]
      show x.toNat ≤ p.debtAmount.toNat
      omega
    · refine ⟨hrep _ _ _ _ _ rfl hok h.position, .inr ⟨n, ?_, hx, ?_⟩⟩
      · exact ⟨clock, b, rfl, rfl, rfl, rfl⟩
      · rw [← h.released_eq]
        exact hy
  | @liquidate clock b i _ _ p p' v burned seized kind h =>
    obtain ⟨x, y, hkind⟩ := kind
    refine .of_payout h.position h.positions h.sameLock h.debt_le h.vault h.vaults fun _ => ?_
    refine ⟨h.locked, .inl ⟨clock, b, x, y, rfl, rfl, rfl, ?_⟩⟩
    rcases hkind with rfl | rfl
    · exact .inl rfl
    · exact .inr rfl
  | collect _ _ accrued =>
    rcases accrued.positions with hsame | ⟨p, p', hp, hlock, hdebt, hput⟩
    · exact .of_eq accrued.vaults hsame
    · exact .of_position accrued.vaults hp hput hlock hdebt

/-! ## Runs -/

theorem Owned.of_put {k : Pubkey} {p : CdpPosition} (h : Owned s) (hp : p.owner ≠ .default)
    (hput : s'.cdpPositions = put s.cdpPositions k p) : Owned s' := by
  intro k' p' hp'
  rw [hput] at hp'
  rcases put_eq_some.mp hp' with ⟨-, rfl⟩ | ⟨-, hp'⟩
  · exact hp
  · exact h k' p' hp'

theorem Owned.of_eq (h : Owned s) (hp : s'.cdpPositions = s.cdpPositions) : Owned s' :=
  fun k p hk => h k p (by rwa [← hp])

theorem Owned.step (ho : Owned s) (h : Step rt s a s') : Owned s' := by
  cases h.positions with
  | same hsame => exact ho.of_eq hsame
  | rewritten hp hlock hput =>
    refine ho.of_put ?_ hput
    rw [hlock.owner]
    exact ho _ _ hp
  | @borrowed b _ _ _ _ howner hput =>
    refine ho.of_put ?_ hput
    rw [howner]
    split
    · exact b.user.ne_default
    next hne => exact hne

/-- In every run whose repayments name the collateral that the position is locked to, every
transaction follows the rule of one vault per position. -/
theorem one_vault_per_position {as : List Action} (hs : Genesis s)
    (H : Along (Action.exec rt) (RepaysLocked rt) s as) :
    Along (Action.exec rt) (fun s a => OneVault s a (next (Action.exec rt) s a)) s as := by
  have ho : Owned s := fun k p hp => by
    rw [hs.cdpPositions] at hp
    cases hp
  refine along_of_invariant (fun ho h => ho.step (exec_step h)) (fun ho hrep => ?_) ho H
  rename_i s a
  rcases @next_cases _ _ _ (Action.exec rt) s a with hnext | hok
  · rw [hnext]
    exact .of_eq rfl rfl
  · exact (exec_step hok).oneVault hok ho hrep

namespace Market

/-- A loan of 100 against gold, and 400 of silver deposited besides. -/
def goldAndSilver : List Action :=
  funded 1000 ++
    [ .world (.createAccount userSilver silver.key user.key),
      .world (.mintTo authority silver.key userSilver.key 400),
      .world (.createAccount silverAccount silver.key silverVault),
      .call (day 0) (.cdpDepositCollateral
        { user, sssMint := mint.key, collateralMint := silver.key
          vaultTokenAccount := silverAccount.key, userCollateralAccount := userSilver.key } 400) ]

/-- Silver is named in repaying half of the debt. -/
def repaidSilver : List Action :=
  goldAndSilver ++ [repay 50 silver.key silverAccount.key userSilver.key]

end Market

open Market in
/-- The user borrows against gold and repays against gold. -/
theorem one_vault_per_position_repay :
    Along (Action.exec localRuntime)
      (fun s a => OneVault s a (next (Action.exec localRuntime) s a)) genesis repaid := by
  apply one_vault_per_position genesis_genesis
  refine along_append.mpr ⟨along_of_forall fun a ha s => ?_, ?_, trivial⟩
  · simp only [funded, deposited, opening, List.mem_append, List.mem_cons, List.not_mem_nil,
      or_false] at ha
    rcases ha with ((rfl | rfl | rfl | rfl | rfl | rfl | rfl) | rfl | rfl | rfl) | rfl
    all_goals
      intro clock b n s' p hcall
      cases hcall
  · intro clock b n s' p hcall _ hp
    cases hcall
    cases hp
    rfl

open Market in
/-- The position is locked to gold, and repaying half of its debt releases half of the silver. -/
theorem repay_releases_other_vault :
    ∃ p v v', Genesis genesis ∧
      (run localRuntime genesis goldAndSilver).cdpPositions (.cdpPosition mint.key user.key) =
        some p ∧ p.collateralMint = gold.key ∧ p.debtAmount = 100 ∧
      (run localRuntime genesis goldAndSilver).collateralVaults silverVault = some v ∧
      (run localRuntime genesis repaidSilver).collateralVaults silverVault = some v' ∧
      v.depositedAmount = 400 ∧ v'.depositedAmount = 200 ∧ silver.key ≠ gold.key :=
  ⟨_, _, _, genesis_genesis, rfl, rfl, rfl, rfl, rfl, rfl, rfl, by decide⟩

end SolanaStablecoin
