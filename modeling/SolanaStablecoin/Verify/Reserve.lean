import SolanaStablecoin.Verify.Parameters
import SolanaStablecoin.Verify.Payout
import SolanaStablecoin.Verify.Standing

/-! What a config counts as collateral, against what its reserve vault holds. -/

namespace SolanaStablecoin

open Transition

variable {rt : Runtime} {clock : Clock} {s s' : State} {a : Action} {i : Instruction}
  {c : StablecoinConfig} {M : Pubkey} {n : UInt64}

/-- The reserve as a config records it. -/
structure Reserve where
  collateralMint : Pubkey
  reserveVault : Pubkey
  totalCollateral : UInt64

def StablecoinConfig.reserve (c : StablecoinConfig) : Reserve :=
  { collateralMint := c.collateralMint, reserveVault := c.reserveVault
    totalCollateral := c.totalCollateral }

abbrev SameReserves : State → State → Prop := SameConfigs StablecoinConfig.reserve

theorem SameStanding.sameReserves (h : SameStanding s s') : SameReserves s s' := by
  intro k
  have hmap := congrArg (Option.map fun x : Standing =>
    (⟨x.collateralMint, x.reserveVault, x.totalCollateral⟩ : Reserve)) (h k)
  rwa [Option.map_map, Option.map_map] at hmap

/-- The vault of a config, which is an account of one mint. -/
def StablecoinConfig.vault (c : StablecoinConfig) : Pubkey × Pubkey :=
  (c.collateralMint, c.reserveVault)

/-- What the vault of a config holds. -/
def StablecoinConfig.held (c : StablecoinConfig) (s : State) : Nat :=
  s.tokens.balance c.collateralMint c.reserveVault

theorem StablecoinConfig.held_congr {c' : StablecoinConfig} (h : c'.vault = c.vault) (s : State) :
    c'.held s = c.held s := by
  rw [held, held, (Prod.mk.inj h).1, (Prod.mk.inj h).2]

/-- The vault of a stablecoin holds what its config counts. -/
def Reserved (M : Pubkey) (s : State) : Prop :=
  ∀ c, s.configs (.stablecoinConfig M) = some c → c.totalCollateral.toNat ≤ c.held s

/-- The counter of a stablecoin and its vault move by the same amount. -/
def Booked (M : Pubkey) (s s' : State) : Prop :=
  ∀ c, s.configs (.stablecoinConfig M) = some c →
    ∃ c', s'.configs (.stablecoinConfig M) = some c' ∧ c'.vault = c.vault ∧
      c'.totalCollateral.toNat + c.held s = c.totalCollateral.toNat + c.held s'

theorem Booked.reserved (h : Booked M s s') (hc : s.configs (.stablecoinConfig M) = some c)
    (hr : Reserved M s) : Reserved M s' := by
  intro c₂ hc₂
  obtain ⟨c', hc', hvault, heq⟩ := h c hc
  rw [hc'] at hc₂
  cases hc₂
  have hle := hr c hc
  rw [StablecoinConfig.held_congr hvault]
  omega

/-! ## What the four instructions do -/

/-- What an instruction does with tokens: it may burn in one account, and it sends from one to
another, into the reserve of a stablecoin or out of it. -/
structure Exchange where
  sssMint : Pubkey
  burned : Option (Pubkey × Pubkey) := none
  mint : Pubkey
  src : Pubkey
  dst : Pubkey
  /-- The amount, if it is sent into the reserve. -/
  paidIn : Option UInt64 := none

def DepositCollateral.exchange (a : DepositCollateral) (n : UInt64) : Exchange :=
  { sssMint := a.sssMint, mint := a.collateralMint, src := a.depositorCollateral
    dst := a.reserveVault, paidIn := some n }

def Redeem.exchange (a : Redeem) : Exchange :=
  { sssMint := a.sssMint, burned := some (a.sssMint, a.redeemerSssAccount)
    mint := a.collateralMint, src := a.reserveVault, dst := a.redeemerCollateral }

def ProcessRedemption.exchange (a : ProcessRedemption) (mint : Pubkey) (j : UInt64) : Exchange :=
  { sssMint := mint, burned := some (a.stableMint, .queueEscrow mint j)
    mint := a.collateralMint, src := a.reserveVault, dst := a.userCollateralAta }

def Instruction.exchange (s : State) : Instruction → Option Exchange
  | depositCollateral a n => some (a.exchange n)
  | redeem a _ | psmDynamicSwap a _ => some a.exchange
  | processRedemption a j => (s.configs a.config).map (a.exchange ·.mint j)
  | _ => none

def Action.exchange (s : State) : Action → Option Exchange
  | call _ i => i.exchange s
  | world _ => none

/-- What is burned and sent, and how the counter of the config follows. -/
structure Exchanged (rt : Runtime) (s : State) (x : Exchange) (n : UInt64)
    (c c' : StablecoinConfig) (s' : State) : Prop where
  config : s.configs (.stablecoinConfig x.sssMint) = some c
  configs : s'.configs = put s.configs (.stablecoinConfig x.sssMint) c'
  vault : c'.vault = c.vault
  tokens : ∃ t authority, (x.burned = none ∧ t = s.tokens ∨
      ∃ mint account authority' m, x.burned = some (mint, account) ∧
        s.tokens.Burns mint account authority' m t) ∧
    t.Transfers x.src x.mint x.dst authority n (rt.token.transferFee t x.mint n) s'.tokens
  received : ∀ k, x.paidIn = some k → k = n ∧ (x.mint, x.dst) = c.vault ∧
    c'.totalCollateral.toNat = c.totalCollateral.toNat + n.toNat
  released : x.paidIn = none → c.totalCollateral.toNat = c'.totalCollateral.toNat + n.toNat

theorem Redeem.settle_exchanged {a : Redeem} {out : UInt64} {e : SssError}
    (hc : s.configs (.stablecoinConfig a.sssMint) = some c)
    (h : a.settle rt s c n out e = .ok s') : ∃ c', Exchanged rt s a.exchange out c c' s' := by
  simp only [Redeem.settle, bind_eq_ok, Option.okOr_eq_ok, UInt64.checkedSub_eq_some,
    StablecoinConfig.addBurned_eq_ok, pure_eq_ok] at h
  obtain ⟨t, hburn, t', htransfer, _, ⟨x, -, rfl⟩, y, hy, rfl⟩ := h
  refine ⟨_, hc, rfl, rfl, ⟨t, _, .inr ⟨_, _, _, n, rfl, rt.token.burn_ok hburn⟩,
    rt.token.transferChecked_ok htransfer⟩, fun k hk => ?_, fun _ => hy⟩
  cases hk

theorem depositCollateralHandler_exchanged {a : DepositCollateral}
    (h : depositCollateralHandler rt s a n = .ok s') :
    ∃ x c c', (Instruction.depositCollateral a n).exchange s = some x ∧
      Exchanged rt s x n c c' s' := by
  simp only [depositCollateralHandler, bind_eq_ok, loadSss3_eq_ok, Option.okOr_eq_ok,
    require_eq_ok, UInt64.checkedAdd_eq_some, pure_eq_ok] at h
  obtain ⟨c, ⟨hc, -⟩, _, -, _, -, -, hmint, -, -, vault, -, -, hvault, -, -, -, -, -, -, t,
    htransfer, y, hy, rfl⟩ := h
  refine ⟨a.exchange n, c, _, rfl, hc, rfl, rfl,
    ⟨s.tokens, _, .inl ⟨rfl, rfl⟩, rt.token.transferChecked_ok htransfer⟩, fun k hk => ?_,
    fun hk => ?_⟩
  · cases hk
    exact ⟨rfl, Prod.ext hmint hvault, hy⟩
  · cases hk

/-- The flat fee of the config is kept back. -/
theorem redeemHandler_pays {a : Redeem} (h : redeemHandler rt s a n = .ok s') :
    ∃ c c' out, n.toNat = out.toNat + (feeOf n c.redemptionFeeBps).toNat ∧
      Exchanged rt s a.exchange out c c' s' := by
  simp only [redeemHandler, bind_eq_ok, Option.okOr_eq_ok, UInt64.checkedSub_eq_some] at h
  obtain ⟨⟨c, vault⟩, hload, -, -, -, -, -, -, -, -, out, hout, h⟩ := h
  obtain ⟨c', h⟩ := Redeem.settle_exchanged (Redeem.load_ok hload).1 h
  exact ⟨c, c', out, hout, h⟩

theorem Redeem.load_vault {a : Redeem} {vault : TokenAccount} (h : a.load s = .ok (c, vault)) :
    s.tokens.accounts a.reserveVault = some vault := by
  simp only [Redeem.load, bind_eq_ok, load_eq_ok, pure_eq_ok, Prod.mk.injEq] at h
  obtain ⟨_, -, -, -, -, -, -, -, -, -, _, hvault, -, -, -, -, -, -, -, rfl⟩ := h
  exact hvault

/-- The fee of the curve is kept back, for what the vault holds. -/
theorem psmDynamicSwapHandler_pays {a : Redeem} (h : psmDynamicSwapHandler rt s a n = .ok s') :
    ∃ c c' psm vault out, s.psmCurveConfigs (.psmCurveConfig a.sssMint) = some psm ∧
      s.tokens.accounts a.reserveVault = some vault ∧
      n.toNat = out.toNat + (feeOf n (psm.computeFee vault.amount c.totalCollateral)).toNat ∧
      Exchanged rt s a.exchange out c c' s' := by
  simp only [psmDynamicSwapHandler, bind_eq_ok, load_eq_ok, require_eq_ok] at h
  obtain ⟨⟨c, vault⟩, hload, -, -, psm, hpsm, -, -, -, -, -, -, -, hpos, h⟩ := h
  obtain ⟨c', h⟩ := Redeem.settle_exchanged (Redeem.load_ok hload).1 h
  refine ⟨c, c', psm, vault, _, hpsm, Redeem.load_vault hload, ?_, h⟩
  cases hout : n.checkedSub (feeOf n (psm.computeFee vault.amount c.totalCollateral)) with
  | some out => exact UInt64.checkedSub_eq_some.mp hout
  | none =>
    rw [hout] at hpos
    exact absurd hpos (by decide)

/-- The entry is paid in full. -/
theorem processRedemptionHandler_pays {a : ProcessRedemption} {j : UInt64}
    (h : processRedemptionHandler rt clock s a j = .ok s') :
    ∃ c c' re, s.configs a.config = some c ∧
      s.redemptionEntries (.redemptionEntry c.mint j) = some re ∧
      Exchanged rt s (a.exchange c.mint j) re.amount c c' s' := by
  simp only [processRedemptionHandler, bind_eq_ok, loadOwnConfig_eq_ok, Option.okOr_eq_ok,
    loadEntry_eq_ok, StablecoinConfig.addBurned_eq_ok, UInt64.checkedSub_eq_some, pure_eq_ok] at h
  obtain ⟨c, ⟨hc, hk⟩, -, -, rq, -, re, ⟨hre, -⟩, -, -, vault, -, -, -, m, -, _, -, -, -, -, -, -,
    -, t, hburn, t', htransfer, _, ⟨x, -, rfl⟩, y, hy, rfl⟩ := h
  have hown : s.configs (.stablecoinConfig c.mint) = some c := by rwa [hk] at hc
  refine ⟨c, { c with totalBurned := x, totalCollateral := y }, re, hc, hre, hown, ?_, rfl,
    ⟨t, _, .inr ⟨_, _, _, re.amount, rfl, rt.token.burn_ok hburn⟩,
      rt.token.transferChecked_ok htransfer⟩, fun k hk => ?_, fun _ => hy⟩
  · rw [hk]
    rfl
  · cases hk

/-- An exchange that succeeds did what it is for. -/
theorem Instruction.exec_exchanged {x : Exchange} (hx : i.exchange s = some x)
    (h : i.exec rt clock s = .ok s') : ∃ m c c', Exchanged rt s x m c c' s' := by
  have of {x' : Exchange} {m : UInt64} {c c' : StablecoinConfig} (hx' : i.exchange s = some x')
      (h : Exchanged rt s x' m c c' s') : ∃ m c c', Exchanged rt s x m c c' s' := by
    rw [hx] at hx'
    cases hx'
    exact ⟨m, c, c', h⟩
  cases i with
  | depositCollateral =>
    obtain ⟨x', c, c', hx', h⟩ := depositCollateralHandler_exchanged h
    exact of hx' h
  | redeem =>
    obtain ⟨c, c', out, -, h⟩ := redeemHandler_pays h
    exact of rfl h
  | psmDynamicSwap =>
    obtain ⟨c, c', -, -, out, -, -, -, h⟩ := psmDynamicSwapHandler_pays h
    exact of rfl h
  | processRedemption a j =>
    obtain ⟨c, c', re, hc, -, h⟩ := processRedemptionHandler_pays h
    exact of (by rw [Instruction.exchange, hc, Option.map_some]) h
  | _ => cases hx

/-! ## When the counter follows the vault -/

/-- What is withheld of the amount that is sent into the reserve. -/
def Exchange.withheld (x : Exchange) (rt : Runtime) (s : State) : UInt64 :=
  x.paidIn.elim 0 (rt.token.transferFee s.tokens x.mint)

/-- The exchange leaves the vault of a stablecoin to its counter. One of the same stablecoin sends
from the vault, or into it with nothing withheld, and elsewhere; one of another stays out. -/
def Exchange.Tallies (x : Exchange) (rt : Runtime) (s : State) (M : Pubkey)
    (vault : Pubkey × Pubkey) : Prop :=
  x.burned ≠ some vault ∧
    if x.sssMint = M then
      x.src ≠ x.dst ∧ x.withheld rt s = 0 ∧ (x.paidIn.isNone = true → (x.mint, x.src) = vault)
    else (x.mint, x.src) ≠ vault
deriving Decidable

theorem Tokens.Burns.balance_elsewhere {t t' : Tokens} {mint account authority : Pubkey}
    {vault : Pubkey × Pubkey} (h : t.Burns mint account authority n t')
    (hne : (mint, account) ≠ vault) :
    t'.balance vault.1 vault.2 = t.balance vault.1 vault.2 := by
  rw [h.balance.2, if_neg, Nat.sub_zero]
  rintro ⟨rfl, rfl⟩
  exact hne rfl

/-- What is burned elsewhere leaves the transfer alone with the vault. -/
theorem Exchanged.transfers {x : Exchange} {c c' : StablecoinConfig} {vault : Pubkey × Pubkey}
    (h : Exchanged rt s x n c c' s') (hburned : x.burned ≠ some vault) :
    ∃ t authority, t.balance vault.1 vault.2 = s.tokens.balance vault.1 vault.2 ∧
      (x.burned = none → t = s.tokens) ∧
      t.Transfers x.src x.mint x.dst authority n (rt.token.transferFee t x.mint n) s'.tokens := by
  obtain ⟨t, authority, ⟨-, rfl⟩ | ⟨mint, account, authority', m, hx, hburn⟩, htransfer⟩ := h.tokens
  · exact ⟨s.tokens, authority, rfl, fun _ => rfl, htransfer⟩
  · refine ⟨t, authority, hburn.balance_elsewhere fun heq => hburned ?_, fun hnone => ?_, htransfer⟩
    · rw [hx, heq]
    · rw [hnone] at hx
      cases hx

theorem Exchanged.booked {x : Exchange} {c c' : StablecoinConfig}
    (h : Exchanged rt s x n c c' s') (hnone : ∀ k, x.paidIn = some k → x.burned = none)
    (ht : x.Tallies rt s x.sssMint c.vault) : Booked x.sssMint s s' := by
  intro c₀ hc₀
  rw [h.config] at hc₀
  cases hc₀
  refine ⟨c', by rw [h.configs, put_self], h.vault, ?_⟩
  obtain ⟨hburned, hown⟩ := ht
  rw [if_pos rfl] at hown
  obtain ⟨hne, hwithheld, hvault⟩ := hown
  obtain ⟨t, authority, hbal, hsame, htransfer⟩ := h.transfers hburned
  obtain ⟨hle, hmoves⟩ := htransfer.balance rt.token.transferFee_le hne
  have hheld : c.held s = t.balance c.vault.1 c.vault.2 := hbal.symm
  have hheld' : c.held s' = s'.tokens.balance c.vault.1 c.vault.2 := rfl
  cases hx : x.paidIn with
  | some k =>
    -- the vault receives the whole amount
    obtain ⟨rfl, hdst, htotal⟩ := h.received k hx
    obtain rfl := hsame (hnone k hx)
    have hfee : (rt.token.transferFee s.tokens x.mint k).toNat = 0 := by
      rw [Exchange.withheld, hx, Option.elim_some] at hwithheld
      rw [hwithheld]
      rfl
    rw [hheld', hheld, ← hdst, hmoves, if_pos ⟨rfl, rfl⟩, if_neg fun h => hne h.2.symm, hfee]
    omega
  | none =>
    -- the amount leaves the vault
    have htotal := h.released hx
    rw [hheld', hheld, ← hvault (by rw [hx, Option.isNone_none]), hmoves,
      if_neg fun h => hne h.2, if_pos ⟨rfl, rfl⟩, Nat.add_zero]
    have hle' : n.toNat ≤ t.balance (x.mint, x.src).1 (x.mint, x.src).2 := hle
    omega

/-- An exchange of another stablecoin takes nothing out of the vault. -/
theorem Exchanged.held_le {x : Exchange} {c c' : StablecoinConfig} {vault : Pubkey × Pubkey}
    (h : Exchanged rt s x n c c' s') (hM : x.sssMint ≠ M) (ht : x.Tallies rt s M vault) :
    s.tokens.balance vault.1 vault.2 ≤ s'.tokens.balance vault.1 vault.2 := by
  obtain ⟨hburned, hother⟩ := ht
  rw [if_neg hM] at hother
  obtain ⟨t, authority, hbal, -, htransfer⟩ := h.transfers hburned
  rw [← hbal]
  by_cases hne : x.src = x.dst
  · obtain ⟨_, _, _, _, _, _, _, _, _, _, _, _, _, htokens⟩ := htransfer
    rw [htokens, if_pos hne]
  · rw [(htransfer.balance rt.token.transferFee_le hne).2, if_neg (c := _ ∧ vault.2 = x.src),
      Nat.sub_zero]
    · exact Nat.le_add_right ..
    · rintro ⟨hmint, hsrc⟩
      exact hother (Prod.ext hmint.symm hsrc.symm)

/-! ## Runs -/

theorem executeTimelockedOpHandler_sameReserves {a : AuthorityAndMint} :
    Ensures (executeTimelockedOpHandler clock s a) (SameReserves s) := by
  refine Ensures.bind_reads fun c hc => .bind fun _ _ => .bind fun _ _ => .bind fun _ _ => ?_
  refine .bind fun c' hc' => .pure (.of_put hc rfl ?_)
  cases StablecoinConfig.applyTimelockedOp_operates hc' <;> rfl

theorem StablecoinConfig.enact_reserve {param : UInt64} {action : ProposalAction}
    {c' : StablecoinConfig} (h : c.enact param action = .ok c') : c'.reserve = c.reserve := by
  cases action with
  | clearFeatureFlag =>
    simp only [enact, bind_eq_ok, pure_eq_ok] at h
    obtain ⟨-, -, -, -, rfl⟩ := h
    rfl
  | _ =>
    cases h
    rfl

theorem executeActionHandler_sameReserves {a : CallerAndMint} {j : UInt64} :
    Ensures (executeActionHandler s a j) (SameReserves s) := by
  refine Ensures.bind_reads_pair fun c d hc => Ensures.bind fun p _ => .bind fun _ _ => ?_
  refine .bind fun _ _ => .bind fun _ _ => .bind fun c' hc' => .pure ?_
  exact .of_put hc rfl (StablecoinConfig.enact_reserve hc')

/-- Nothing else moves the counter of a reserve. -/
theorem Instruction.sameReserves (hx : i.exchange s = none) (hi : i.restands = true)
    (hnew : ∀ b p, i ≠ .initializeStablecoin b p) :
    Ensures (i.exec rt clock s) (SameReserves s) := by
  cases i
  case initializeStablecoin b p => exact absurd rfl (hnew b p)
  case triggerBackstop => exact fun _ h => absurd h triggerBackstopHandler_ne_ok
  case executeTimelockedOp => exact executeTimelockedOpHandler_sameReserves
  case executeAction => exact executeActionHandler_sameReserves
  case processRedemption b j =>
    intro s' h
    obtain ⟨c, -, -, hc, -, -⟩ := processRedemptionHandler_pays h
    rw [Instruction.exchange, hc] at hx
    cases hx
  all_goals try (cases hi; done)
  all_goals try (cases hx; done)
  all_goals change Ensures (_ >>= _) _
  all_goals repeat' first
    | with_reducible refine Ensures.bind_reads_pair fun _ _ _ => ?_
    | with_reducible refine Ensures.bind_reads fun _ _ => ?_
    | with_reducible refine .bind fun _ _ => ?_
    | with_reducible refine .ite (fun _ => ?_) fun _ => ?_
    | (with_reducible apply Ensures.pure; apply SameConfigs.of_eq; rfl)
    | ((with_reducible apply Ensures.pure; apply SameConfigs.of_put; assumption; rfl); rfl)
    | rw [CallerAndMint.recordVote]

theorem Action.exec_sameReserves (hx : a.exchange s = none) (h : a.exec rt s = .ok s') :
    SameReserves s s' ∨ ∃ clock b p, a = .call clock (.initializeStablecoin b p) := by
  cases a with
  | world w => exact .inl (World.exec_settled h).standing.sameReserves
  | call clock i =>
    cases hstand : i.restands with
    | false => exact .inl (Instruction.exec_sameStanding hstand h).sameReserves
    | true =>
      by_cases hnew : ∃ b p, i = .initializeStablecoin b p
      · obtain ⟨b, p, rfl⟩ := hnew
        exact .inr ⟨clock, b, p, rfl⟩
      · refine .inl (Instruction.sameReserves hx hstand (fun b p hi => ?_) s' h)
        exact hnew ⟨b, p, hi⟩

theorem Instruction.burned_of_paidIn {x : Exchange} (hx : i.exchange s = some x) (k : UInt64)
    (hk : x.paidIn = some k) : x.burned = none := by
  cases i with
  | depositCollateral =>
    cases hx
    rfl
  | redeem | psmDynamicSwap =>
    cases hx
    cases hk
  | processRedemption =>
    obtain ⟨c, -, rfl⟩ := Option.map_eq_some_iff.mp hx
    cases hk
  | _ => cases hx

/-- Nothing is taken out of the vault. -/
def TopsUp (rt : Runtime) (M : Pubkey) (s : State) (a : Action) : Prop :=
  ∀ c ∈ s.configs (.stablecoinConfig M), c.held s ≤ c.held (next (Action.exec rt) s a)
deriving Decidable

/-- Exchanges tally, and nothing else takes anything out of the vault. -/
def KeepsReserve (rt : Runtime) (M : Pubkey) (s : State) (a : Action) : Prop :=
  (∀ x ∈ a.exchange s, ∀ c ∈ s.configs (.stablecoinConfig M), x.Tallies rt s M c.vault) ∧
    ((a.exchange s).isNone = true → TopsUp rt M s a)
deriving Decidable

theorem Reserved.step (hr : Reserved M s) (hk : KeepsReserve rt M s a)
    (h : a.exec rt s = .ok s') : Reserved M s' := by
  obtain ⟨htally, htop⟩ := hk
  cases hx : a.exchange s with
  | some x =>
    cases a with
    | world => cases hx
    | call clock i =>
      obtain ⟨n, c, c', hex⟩ := Instruction.exec_exchanged hx h
      by_cases hM : x.sssMint = M
      · subst hM
        refine Booked.reserved ?_ hex.config hr
        exact hex.booked (Instruction.burned_of_paidIn hx) (htally x hx c hex.config)
      · intro c₂ hc₂
        rw [hex.configs, put_of_ne _ _ fun heq => hM (Pubkey.stablecoinConfig.inj heq).symm] at hc₂
        exact (hr c₂ hc₂).trans (hex.held_le hM (htally x hx c₂ hc₂))
  | none =>
    have kept c (hc : s.configs (.stablecoinConfig M) = some c) : c.held s ≤ c.held s' := by
      have hle := htop (by rw [hx, Option.isNone_none]) c hc
      rwa [next_of_ok h] at hle
    intro c' hc'
    rcases Action.exec_sameReserves hx h with hsame | ⟨clock, b, p, rfl⟩
    · obtain ⟨c, hc, heq⟩ := hsame.config hc'
      obtain ⟨hmint, hvault, htotal⟩ := Reserve.mk.inj heq
      rw [StablecoinConfig.held_congr (Prod.ext hmint hvault), htotal]
      exact (hr c hc).trans (kept c hc)
    · -- a new config counts nothing
      obtain ⟨hfree, hconfigs, -⟩ := initializeHandler_fresh h
      rw [hconfigs] at hc'
      rcases put_eq_some.mp hc' with ⟨-, rfl⟩ | ⟨-, hc⟩
      · exact Nat.zero_le _
      · exact (hr c' hc).trans (kept c' hc)

/-- Along a run that keeps the reserve, every exchange moves the counter by what it moves in the
vault, and the vault holds what is counted. -/
theorem reserve_ledger {as : List Action} (hs : Genesis s)
    (h : Along (Action.exec rt) (KeepsReserve rt M) s as) :
    Reserved M (run rt s as) ∧
      ∀ init a tail s' x, as = init ++ a :: tail → a.exec rt (run rt s init) = .ok s' →
        a.exchange (run rt s init) = some x → x.sssMint = M → Booked M (run rt s init) s' := by
  constructor
  · refine invariant_run (I := Reserved M) (fun hr hk h => hr.step hk h) (fun c hc => ?_) h
    rw [hs.configs] at hc
    cases hc
  · rintro init a tail s' x rfl hexec hx rfl
    obtain ⟨hk, -⟩ := (along_append.mp h).2
    cases a with
    | world => cases hx
    | call clock i =>
      obtain ⟨n, c, c', hex⟩ := Instruction.exec_exchanged hx hexec
      exact hex.booked (Instruction.burned_of_paidIn hx) (hk.1 x hx c hex.config)

namespace Market

/-- The queue has an entry, and 200 of gold are in the reserve. -/
def queued : List Action :=
  funded 1000 ++ timelocked adminOpSetFeatureFlag flagRedemptionQueue 1 ++ queue ++ reserves

end Market

open Market in
/-- A swap of 10. -/
theorem reserve_ledger_swap :
    Reserved mint.key (run localRuntime genesis (queued ++ [.call (day 3) (swap 10)])) ∧
      ∃ s', (swap 10).exec localRuntime (day 3) (run localRuntime genesis queued) = .ok s' ∧
        Booked mint.key (run localRuntime genesis queued) s' := by
  have hkeeps : Along (Action.exec localRuntime) (KeepsReserve localRuntime mint.key) genesis
      (queued ++ [.call (day 3) (swap 10)]) := by decide +kernel
  obtain ⟨hr, hb⟩ := reserve_ledger genesis_genesis hkeeps
  obtain ⟨s', h⟩ : ∃ s', (swap 10).exec localRuntime (day 3) (run localRuntime genesis queued) =
    .ok s' := isOk_iff.mp (by decide +kernel)
  exact ⟨hr, s', h, hb queued _ [] s' _ rfl h rfl rfl⟩

open Market in
/-- The keeper pays the head of the queue from another account than the reserve vault: the counter
falls by 1, and the vault still holds 200. -/
theorem redemption_beside_vault :
    Along (Action.exec localRuntime) (fun s a => (a.exchange s).isNone = true →
        TopsUp localRuntime mint.key s a) genesis (queued ++ [.call (day 3) processHead]) ∧
      ∃ s', processHead.exec localRuntime (day 3) (run localRuntime genesis queued) = .ok s' ∧
        ¬ Booked mint.key (run localRuntime genesis queued) s' := by
  refine ⟨by decide +kernel, ?_⟩
  have hbefore : ((run localRuntime genesis queued).configs (.stablecoinConfig mint.key)).map
      (fun c => (c.totalCollateral.toNat, c.held (run localRuntime genesis queued))) =
        some (200, 200) := by decide +kernel
  have hafter : (processHead.exec localRuntime (day 3)
      (run localRuntime genesis queued)).toOption.bind (fun s' =>
        (s'.configs (.stablecoinConfig mint.key)).map fun c =>
          (c.totalCollateral.toNat, c.held s')) = some (199, 200) := by decide +kernel
  obtain ⟨c, hc, hcounts⟩ := Option.map_eq_some_iff.mp hbefore
  obtain ⟨s', h⟩ : ∃ s', processHead.exec localRuntime (day 3) (run localRuntime genesis queued) =
    .ok s' := isOk_iff.mp (by decide +kernel)
  refine ⟨s', h, fun hb => ?_⟩
  obtain ⟨c', hc', hvault, heq⟩ := hb c hc
  rw [h] at hafter
  change (s'.configs (.stablecoinConfig mint.key)).map _ = _ at hafter
  rw [hc', Option.map_some, Option.some.injEq, Prod.mk.injEq,
    StablecoinConfig.held_congr hvault] at hafter
  rw [Prod.mk.injEq] at hcounts
  omega

end SolanaStablecoin
