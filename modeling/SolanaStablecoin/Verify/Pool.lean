import Mathlib.Algebra.GroupWithZero.Nat
import SolanaStablecoin.Verify.Funds
import SolanaStablecoin.Verify.Queue

/-! The redemption pool of a stablecoin: what is paid into it and out of it, against its liquidity
and against what its vault holds. The two agree as far as each call moves the vault by what it
enters in the ledger. -/

namespace SolanaStablecoin

open Transition

variable {rt : Runtime} {clock : Clock} {s s' : State} {a : Action} {i : Instruction}
  {M V k : Pubkey} {n fee : UInt64} {t t' : Tokens}

/-! ## What an account holds -/

namespace Tokens

variable {src dst mint authority : Pubkey}

theorem held_of_some {acc : TokenAccount} (h : t.accounts k = some acc) :
    t.held k = acc.amount.toNat := by
  rw [held, h, Option.map_some, Option.getD_some]

theorem held_lt (t : Tokens) (k : Pubkey) : t.held k < 2 ^ 64 := by
  rw [held]
  cases t.accounts k with
  | none => exact Nat.two_pow_pos 64
  | some acc => exact acc.amount.toNat_lt

theorem Burns.held (h : t.Burns mint src authority n t') (k : Pubkey) :
    t'.held k + (if src = k then n.toNat else 0) = t.held k := by
  obtain ⟨m, acc, -, hacc, -, -, -, hle, -, rfl⟩ := h
  have hn : n.toNat ≤ acc.amount.toNat := UInt64.le_iff_toNat_le.mp hle
  by_cases hk : src = k
  · subst hk
    rw [if_pos rfl, held_of_some (put_self ..), held_of_some hacc, TokenAccount.debit_amount,
      toNat_sub_of_le hle]
    omega
  · rw [if_neg hk, Nat.add_zero, Tokens.held, setAccount_accounts, put_of_ne _ _ (Ne.symm hk)]
    rfl

theorem Transfers.held_source (h : t.Transfers src mint dst authority n fee t') :
    t'.held src + (if dst = src then 0 else n.toNat) = t.held src := by
  obtain ⟨m, acc, b, -, hacc, -, -, -, -, -, -, hle, -, rfl⟩ := h
  have hn : n.toNat ≤ acc.amount.toNat := UInt64.le_iff_toNat_le.mp hle
  by_cases hk : src = dst
  · rw [if_pos hk, if_pos hk.symm, Nat.add_zero]
  · rw [if_neg hk, if_neg (Ne.symm hk), held_of_some hacc,
      held_of_some ((put_of_ne _ _ hk).trans (put_self ..)), TokenAccount.debit_amount,
      toNat_sub_of_le hle]
    omega

theorem Transfers.held_destination (h : t.Transfers src mint dst authority n fee t')
    (hfee : fee ≤ n) :
    t'.held dst = t.held dst + (if src = dst then 0 else n.toNat - fee.toNat) := by
  by_cases hk : src = dst
  · obtain ⟨m, acc, b, -, -, -, -, -, -, -, -, -, -, rfl⟩ := h
    rw [if_pos hk, if_pos hk, Nat.add_zero]
  · obtain ⟨b, b', hb, hb', -, -, hamount⟩ := h.destination hfee hk
    have hle : fee.toNat ≤ n.toNat := UInt64.le_iff_toNat_le.mp hfee
    rw [if_neg hk, held_of_some hb, held_of_some hb']
    omega

end Tokens

/-! ## The calls on a pool -/

def State.redemptionPool (s : State) (M : Pubkey) : Option RedemptionPool :=
  s.redemptionPools (.redemptionPool M)

/-- The liquidity of the pool, nothing if there is none. -/
def State.poolLiquidity (s : State) (M : Pubkey) : Nat :=
  ((s.redemptionPool M).map (·.currentLiquidity.toNat)).getD 0

/-- What a call on a pool enters in the ledger, and the accounts that it names. -/
structure PoolFlow where
  vault : Pubkey
  /-- The account at the other end of the collateral's transfer. -/
  other : Pubkey
  /-- The account that the redeemed stablecoins are burned from. -/
  burned : Option Pubkey := none
  seeded : Nat := 0
  replenished : Nat := 0
  redeemed : Nat := 0
  drained : Nat := 0
  /-- What the pool keeps of a redemption. -/
  fee : Nat := 0
  /-- What the collateral's mint withholds of what is paid in. -/
  withheld : Nat := 0

namespace PoolFlow

def paidIn (f : PoolFlow) : Nat := f.seeded + f.replenished
def paidOut (f : PoolFlow) : Nat := f.redeemed + f.drained

/-- The call moves the vault by what it enters: the mint withholds nothing, and the other end is not
the vault itself. A redemption may also burn from the vault what it pays back to the vault. -/
def Faithful (f : PoolFlow) : Prop :=
  f.withheld = 0 ∧
    if f.burned = some f.vault then f.other = f.vault ∧ f.fee = 0 else f.other ≠ f.vault

instance Faithful.decidable {f : PoolFlow} : Decidable f.Faithful :=
  inferInstanceAs (Decidable (_ ∧ ite (f.burned = some f.vault) _ _))

/-- What has been entered under `amount` so far. -/
def total (amount : PoolFlow → Nat) (fs : List PoolFlow) : Nat := (fs.map amount).sum

@[simp] theorem total_nil (amount : PoolFlow → Nat) : total amount [] = 0 := rfl

@[simp] theorem total_concat (amount : PoolFlow → Nat) (fs : List PoolFlow) (f : PoolFlow) :
    total amount (fs ++ [f]) = total amount fs + amount f := by
  simp [total]

end PoolFlow

/-- The transfer fee of the collateral's mint. -/
def State.withheld (rt : Runtime) (s : State) (M : Pubkey) (n : UInt64) : Nat :=
  ((s.configs (.stablecoinConfig M)).map
    fun c => (rt.token.transferFee s.tokens c.collateralMint n).toNat).getD 0

/-- The fee of the pool. -/
def State.poolFee (s : State) (M : Pubkey) (n : UInt64) : Nat :=
  ((s.redemptionPool M).map fun p => (feeOf n p.instantRedemptionFeeBps).toNat).getD 0

def Instruction.poolFlow (rt : Runtime) (M : Pubkey) (s : State) : Instruction → List PoolFlow
  | seedRedemptionPool b n _ _ =>
    if b.config = .stablecoinConfig M then
      [{ vault := b.reserveVault, other := b.reserveSource, seeded := n.toNat
         withheld := s.withheld rt M n }]
    else []
  | replenishRedemptionPool b n =>
    if b.config = .stablecoinConfig M then
      [{ vault := b.reserveVault, other := b.replenisherSource, replenished := n.toNat
         withheld := s.withheld rt M n }]
    else []
  | instantRedemption b n =>
    if b.config = .stablecoinConfig M then
      [{ vault := b.reserveVault, other := b.userReserveAccount, burned := some b.userTokenAccount
         redeemed := n.toNat, fee := s.poolFee M n }]
    else []
  | drainRedemptionPool b =>
    if b.config = .stablecoinConfig M then
      [{ vault := b.reserveVault, other := b.drainDestination, drained := s.poolLiquidity M }]
    else []
  | _ => []

def poolFlow (rt : Runtime) (M : Pubkey) (s : State) : Action → List PoolFlow
  | .call _ i => i.poolFlow rt M s
  | .world _ => []

/-- A transaction other than the calls on the pool of `M` leaves what the account `V` holds. -/
def VaultKept (rt : Runtime) (M V : Pubkey) (s : State) (a : Action) : Prop :=
  poolFlow rt M s a = [] → (next (Action.exec rt) s a).tokens.held V = s.tokens.held V

instance VaultKept.decidable : Decidable (VaultKept rt M V s a) :=
  inferInstanceAs (Decidable (poolFlow rt M s a = [] → _ = _))

/-! ## What the handlers do -/

theorem loadPool_eq_ok {c : StablecoinConfig} {p : RedemptionPool} :
    loadPool s c = .ok p ↔
      s.redemptionPools (.redemptionPool c.mint) = some p ∧ p.sssMint = c.mint := by
  rw [loadPool, checked_eq_ok, load_eq_ok]

theorem requirePoolVault_eq_ok {p : RedemptionPool} {u : Unit} :
    requirePoolVault s p k = .ok u ↔
      (∃ acc, s.tokens.accounts k = some acc) ∧ k = p.reserveVault := by
  simp [requirePoolVault]

/-- The liquidity is at most `max_pool_size` when that is positive. -/
def RedemptionPool.Within (p : RedemptionPool) : Prop :=
  0 < p.maxPoolSize → p.currentLiquidity ≤ p.maxPoolSize

/-- What a call on the pool of `M` does to the pool, which is `p` afterwards, and to its vault. -/
structure PoolCall (M : Pubkey) (s : State) (f : PoolFlow) (p : RedemptionPool) (s' : State) :
    Prop where
  vault : p.reserveVault = f.vault
  opened : s.redemptionPool M = none → p.bump ≠ 0
  kept : ∀ q ∈ s.redemptionPool M, q.bump ≠ 0 → p.bump = q.bump ∧ q.reserveVault = f.vault
  within : (∀ q ∈ s.redemptionPool M, q.Within) → p.Within
  enough : f.paidOut ≤ s.poolLiquidity M
  liquidity : p.currentLiquidity.toNat =
    min (s.poolLiquidity M + f.paidIn) (2 ^ 64 - 1) - f.paidOut
  balance : s'.tokens.held f.vault + (if f.burned = some f.vault then f.paidOut else 0) +
      (if f.other = f.vault then 0 else f.paidOut - f.fee) =
    s.tokens.held f.vault + (if f.other = f.vault then 0 else f.paidIn - f.withheld)
  oneWay : f.paidOut = 0 ∧ f.fee = 0 ∧ f.burned = none ∨ f.paidIn = 0 ∧ f.withheld = 0
  moves : f.fee < f.paidIn + f.paidOut
  withheld : f.withheld ≤ f.paidIn

theorem State.poolLiquidity_of_some {p : RedemptionPool} (h : s.redemptionPool M = some p) :
    s.poolLiquidity M = p.currentLiquidity.toNat := by
  rw [poolLiquidity, h, Option.map_some, Option.getD_some]

theorem State.poolLiquidity_of_none (h : s.redemptionPool M = none) : s.poolLiquidity M = 0 := by
  rw [poolLiquidity, h, Option.map_none, Option.getD_none]

theorem State.poolLiquidity_lt (s : State) (M : Pubkey) : s.poolLiquidity M < 2 ^ 64 := by
  cases h : s.redemptionPool M with
  | none =>
    rw [poolLiquidity_of_none h]
    exact Nat.two_pow_pos 64
  | some p =>
    rw [poolLiquidity_of_some h]
    exact p.currentLiquidity.toNat_lt

theorem State.withheld_eq {c : StablecoinConfig} (h : s.configs (.stablecoinConfig M) = some c) :
    s.withheld rt M n = (rt.token.transferFee s.tokens c.collateralMint n).toNat := by
  rw [withheld, h, Option.map_some, Option.getD_some]

/-- A call that pays `n` from the other end into the vault, of which `fee` is withheld. -/
theorem PoolCall.of_paidIn {f : PoolFlow} {p : RedemptionPool} {mint authority : Pubkey}
    (ht : s.tokens.Transfers f.other mint f.vault authority n fee s'.tokens) (hfee : fee ≤ n)
    (hn : 0 < n) (hin : f.paidIn = n.toNat) (hwithheld : f.withheld = fee.toNat)
    (hout : f.paidOut = 0) (hnone : f.fee = 0 ∧ f.burned = none) (hvault : p.reserveVault = f.vault)
    (hopened : s.redemptionPool M = none → p.bump ≠ 0)
    (hkept : ∀ q ∈ s.redemptionPool M, q.bump ≠ 0 → p.bump = q.bump ∧ q.reserveVault = f.vault)
    (hwithin : p.Within)
    (hliquidity : p.currentLiquidity.toNat = min (s.poolLiquidity M + n.toNat) (2 ^ 64 - 1)) :
    PoolCall M s f p s' where
  vault := hvault
  opened := hopened
  kept := hkept
  within _ := hwithin
  enough := by
    rw [hout]
    exact Nat.zero_le _
  liquidity := by rw [hliquidity, hin, hout, Nat.sub_zero]
  balance := by
    rw [ht.held_destination hfee, hin, hwithheld, hout, hnone.1, hnone.2, ite_self, ite_self]
    rfl
  oneWay := .inl ⟨hout, hnone⟩
  moves := by
    have hpos : 0 < n.toNat := UInt64.lt_iff_toNat_lt.mp hn
    rw [hnone.1, hin]
    omega
  withheld := by
    rw [hin, hwithheld]
    exact UInt64.le_iff_toNat_le.mp hfee

/-- A call that pays `n` out of the vault to the other end, once `t` is reached. -/
theorem PoolCall.of_paidOut {f : PoolFlow} {p q : RedemptionPool} {mint authority : Pubkey}
    (hq : s.redemptionPool M = some q) (hvault : f.vault = q.reserveVault)
    (hburned : t.held f.vault + (if f.burned = some f.vault then f.paidOut else 0) =
      s.tokens.held f.vault)
    (ht : t.Transfers f.vault mint f.other authority n fee s'.tokens)
    (hn : n.toNat = f.paidOut - f.fee) (hmoves : f.fee < f.paidOut) (hin : f.paidIn = 0)
    (hwithheld : f.withheld = 0) (henough : f.paidOut ≤ q.currentLiquidity.toNat)
    (hliquidity : p.currentLiquidity.toNat = q.currentLiquidity.toNat - f.paidOut)
    (hkept : p.reserveVault = q.reserveVault ∧ p.bump = q.bump ∧ p.maxPoolSize = q.maxPoolSize) :
    PoolCall M s f p s' where
  vault := hkept.1.trans hvault.symm
  opened hnone := by
    rw [hq] at hnone
    cases hnone
  kept q' hq' _ := by
    cases hq.symm.trans hq'
    exact ⟨hkept.2.1, hvault.symm⟩
  within hold hsize := by
    rw [hkept.2.2] at hsize ⊢
    refine UInt64.le_trans ?_ (hold q hq hsize)
    rw [UInt64.le_iff_toNat_le, hliquidity]
    exact Nat.sub_le _ _
  enough := by rwa [State.poolLiquidity_of_some hq]
  liquidity := by
    have hlt := q.currentLiquidity.toNat_lt
    rw [hliquidity, State.poolLiquidity_of_some hq, hin]
    omega
  balance := by
    have hsource := ht.held_source
    rw [hn] at hsource
    rw [hin, hwithheld, ite_self]
    omega
  oneWay := .inr ⟨hin, hwithheld⟩
  moves := by rwa [hin, Nat.zero_add]
  withheld := by rw [hwithheld]; exact Nat.zero_le _

theorem RedemptionPool.initialise_of_ne {p : RedemptionPool} {bump : UInt8} {mint vault : Pubkey}
    (h : p.bump ≠ 0) : p.initialise bump mint vault = p := if_neg h

theorem RedemptionPool.initialise_currentLiquidity (p : RedemptionPool) (bump : UInt8)
    (mint vault : Pubkey) :
    (p.initialise bump mint vault).currentLiquidity = p.currentLiquidity := by
  rw [initialise]
  split
  · rfl
  · rfl

theorem seedRedemptionPoolHandler_call {b : SeedRedemptionPool} {size : UInt64} {bps : UInt16}
    (h : seedRedemptionPoolHandler rt s b n size bps = .ok s') : ∃ mint p,
    b.config = .stablecoinConfig mint ∧
      s'.redemptionPools = put s.redemptionPools (.redemptionPool mint) p ∧
      (rt.bump (.redemptionPool mint) ≠ 0 → PoolCall mint s
        { vault := b.reserveVault, other := b.reserveSource, seeded := n.toNat
          withheld := s.withheld rt mint n } p s') := by
  simp only [seedRedemptionPoolHandler, bind_eq_ok, AuthorityAndConfig.loadConfig_eq_ok,
    require_eq_ok, requireWhen_eq_ok, Option.okOr_eq_ok, pure_eq_ok] at h
  obtain ⟨c, ⟨hc, hk, -⟩, _, -, -, -, -, -, -, -, -, -, -, hn, -, -, -, hvault, -, hsize, t, ht,
    rfl⟩ := h
  refine ⟨c.mint, _, hk, rfl, fun hbump => ?_⟩
  rw [hk] at hc
  refine .of_paidIn (rt.token.transferChecked_ok ht) rt.token.transferFee_le hn rfl
    (State.withheld_eq hc) rfl ⟨rfl, rfl⟩ hvault (fun hnone => ?_) (fun q hq hq' => ?_) hsize ?_
  · rw [State.redemptionPool] at hnone
    rw [hnone, Option.getD_none, RedemptionPool.initialise, if_pos rfl]
    exact hbump
  · rw [Option.mem_def, State.redemptionPool] at hq
    rw [hq, Option.getD_some, RedemptionPool.initialise_of_ne hq'] at hvault ⊢
    exact ⟨rfl, hvault⟩
  · rw [UInt64.toNat_saturatingAdd, RedemptionPool.initialise_currentLiquidity]
    cases hq : s.redemptionPools (.redemptionPool c.mint) with
    | none => rw [State.poolLiquidity_of_none hq, Option.getD_none]; rfl
    | some q => rw [State.poolLiquidity_of_some hq, Option.getD_some]

theorem replenishRedemptionPoolHandler_call {b : ReplenishRedemptionPool}
    (h : replenishRedemptionPoolHandler rt s b n = .ok s') : ∃ mint p,
    b.config = .stablecoinConfig mint ∧
      s'.redemptionPools = put s.redemptionPools (.redemptionPool mint) p ∧
      PoolCall mint s
        { vault := b.reserveVault, other := b.replenisherSource, replenished := n.toNat
          withheld := s.withheld rt mint n } p s' := by
  simp only [replenishRedemptionPoolHandler, bind_eq_ok, loadOwnConfig_eq_ok, loadPool_eq_ok,
    requirePoolVault_eq_ok, require_eq_ok, requireWhen_eq_ok, Option.okOr_eq_ok, pure_eq_ok] at h
  obtain ⟨c, ⟨hc, hk⟩, q, ⟨hq, -⟩, -, ⟨-, hvault⟩, -, -, -, -, -, hn, -, hsize, t, ht, rfl⟩ := h
  refine ⟨c.mint, _, hk, rfl, ?_⟩
  rw [hk] at hc
  refine .of_paidIn (rt.token.transferChecked_ok ht) rt.token.transferFee_le hn
    (Nat.zero_add _) (State.withheld_eq hc) rfl ⟨rfl, rfl⟩ hvault.symm (fun hnone => ?_)
    (fun q' hq' _ => ?_) hsize ?_
  · cases hq.symm.trans hnone
  · cases hq.symm.trans hq'
    exact ⟨rfl, hvault.symm⟩
  · rw [State.poolLiquidity_of_some hq, UInt64.toNat_saturatingAdd]

theorem instantRedemptionHandler_call {b : InstantRedemption}
    (h : instantRedemptionHandler rt s b n = .ok s') : ∃ mint p,
    b.config = .stablecoinConfig mint ∧
      s'.redemptionPools = put s.redemptionPools (.redemptionPool mint) p ∧
      PoolCall mint s
        { vault := b.reserveVault, other := b.userReserveAccount
          burned := some b.userTokenAccount, redeemed := n.toNat
          fee := s.poolFee mint n } p s' := by
  simp only [instantRedemptionHandler, bind_eq_ok, loadOwnConfig_eq_ok, loadPool_eq_ok,
    requirePoolVault_eq_ok, require_eq_ok, Option.okOr_eq_ok, pure_eq_ok] at h
  obtain ⟨c, ⟨hc, hk⟩, -, -, q, ⟨hq, -⟩, _, -, -, -, -, -, -, ⟨-, hvault⟩, -, -, -, -, -, hn, -,
    hle, -, hpayout, t, hburn, t', ht, rfl⟩ := h
  have hfee : (feeOf n q.instantRedemptionFeeBps).toNat = s.poolFee c.mint n := by
    rw [State.poolFee, State.redemptionPool, hq, Option.map_some, Option.getD_some]
  have hpay : (n.saturatingSub (feeOf n q.instantRedemptionFeeBps)).toNat =
      n.toNat - s.poolFee c.mint n := by
    rw [UInt64.toNat_saturatingSub, hfee]
  have hpos := UInt64.lt_iff_toNat_lt.mp hpayout
  rw [hpay] at hpos
  refine ⟨c.mint, _, hk, rfl, .of_paidOut hq hvault ?_ (rt.token.transferChecked_ok ht) hpay
    (Nat.lt_of_sub_pos hpos) rfl rfl (UInt64.le_iff_toNat_le.mp hle) ?_ ⟨rfl, rfl, rfl⟩⟩
  · have hburned := (rt.token.burn_ok hburn).held b.reserveVault
    simpa only [Option.some_inj, PoolFlow.paidOut, Nat.add_zero] using hburned
  · rw [RedemptionPool.redeem, UInt64.toNat_saturatingSub]
    rfl

theorem drainRedemptionPoolHandler_call {b : DrainRedemptionPool}
    (h : drainRedemptionPoolHandler rt s b = .ok s') : ∃ mint p,
    b.config = .stablecoinConfig mint ∧
      s'.redemptionPools = put s.redemptionPools (.redemptionPool mint) p ∧
      PoolCall mint s
        { vault := b.reserveVault, other := b.drainDestination
          drained := s.poolLiquidity mint } p s' := by
  simp only [drainRedemptionPoolHandler, bind_eq_ok, AuthorityAndConfig.loadConfig_eq_ok,
    loadPool_eq_ok, requirePoolVault_eq_ok, require_eq_ok, Option.okOr_eq_ok, pure_eq_ok] at h
  obtain ⟨c, ⟨hc, hk, -⟩, q, ⟨hq, -⟩, -, ⟨-, hvault⟩, -, -, -, -, -, -, -, hpos, t, ht, rfl⟩ := h
  have hdrained : q.currentLiquidity.toNat = s.poolLiquidity c.mint :=
    (State.poolLiquidity_of_some hq).symm
  refine ⟨c.mint, _, hk, rfl, .of_paidOut hq hvault ?_ (rt.token.transferChecked_ok ht)
    ?_ ?_ rfl rfl ?_ ?_ ⟨rfl, rfl, rfl⟩⟩
  · rfl
  · simpa [PoolFlow.paidOut] using hdrained
  · simpa [PoolFlow.paidOut, ← hdrained] using UInt64.lt_iff_toNat_lt.mp hpos
  · simp [PoolFlow.paidOut, hdrained]
  · simp [PoolFlow.paidOut, hdrained]

/-! ## The ledger of a pool -/

/-- What a successful transaction does to the pool of `M`, and what flows. -/
inductive PoolStep (M : Pubkey) (s s' : State) : List PoolFlow → Prop where
  | kept (h : s'.redemptionPool M = s.redemptionPool M) : PoolStep M s s' []
  | called {f : PoolFlow} {p : RedemptionPool} (stored : s'.redemptionPool M = some p)
    (call : PoolCall M s f p s') : PoolStep M s s' [f]

theorem PoolStep.of_put {mint config : Pubkey} {f : PoolFlow} {p : RedemptionPool}
    (hk : config = .stablecoinConfig mint)
    (hput : s'.redemptionPools = put s.redemptionPools (.redemptionPool mint) p)
    (hcall : mint = M → PoolCall M s f p s') :
    PoolStep M s s' (if config = .stablecoinConfig M then [f] else []) := by
  by_cases hM : mint = M
  · rw [if_pos (hM ▸ hk)]
    refine .called ?_ (hcall hM)
    rw [State.redemptionPool, hput, hM, put_self]
  · rw [if_neg fun h => hM (Pubkey.stablecoinConfig.inj (hk.symm.trans h))]
    refine .kept ?_
    rw [State.redemptionPool, hput, put_of_ne]
    · rfl
    · exact fun h => hM (Pubkey.redemptionPool.inj h).symm

theorem Instruction.poolFlow_eq_nil (hi : i.pools = false) : i.poolFlow rt M s = [] := by
  cases i with
  | seedRedemptionPool | instantRedemption | replenishRedemptionPool | drainRedemptionPool =>
    cases hi
  | _ => rfl

theorem FundsChange.redemptionPools (h : FundsChange s (.call clock i) s')
    (hi : i.pools = false) : s'.redemptionPools = s.redemptionPools := by
  cases h with
  | same h | insured _ h | guaranteed _ h => exact congrArg Funds.redemptionPools h
  | pooled kind =>
    rw [hi] at kind
    cases kind

theorem Instruction.exec_poolStep (hbump : rt.bump (.redemptionPool M) ≠ 0)
    (h : i.exec rt clock s = .ok s') : PoolStep M s s' (i.poolFlow rt M s) := by
  cases hi : i.pools with
  | false =>
    rw [Instruction.poolFlow_eq_nil hi]
    refine .kept ?_
    rw [State.redemptionPool, (Instruction.exec_funds h).redemptionPools hi]
    rfl
  | true =>
    cases i with
    | seedRedemptionPool =>
      obtain ⟨mint, p, hk, hput, hcall⟩ := seedRedemptionPoolHandler_call h
      refine .of_put hk hput fun hM => ?_
      subst hM
      exact hcall hbump
    | replenishRedemptionPool =>
      obtain ⟨mint, p, hk, hput, hcall⟩ := replenishRedemptionPoolHandler_call h
      exact .of_put hk hput fun hM => hM ▸ hcall
    | instantRedemption =>
      obtain ⟨mint, p, hk, hput, hcall⟩ := instantRedemptionHandler_call h
      exact .of_put hk hput fun hM => hM ▸ hcall
    | drainRedemptionPool =>
      obtain ⟨mint, p, hk, hput, hcall⟩ := drainRedemptionPoolHandler_call h
      exact .of_put hk hput fun hM => hM ▸ hcall
    | _ => cases hi

theorem exec_poolStep (hbump : rt.bump (.redemptionPool M) ≠ 0) (h : a.exec rt s = .ok s') :
    PoolStep M s s' (poolFlow rt M s a) := by
  cases a with
  | call clock i => exact Instruction.exec_poolStep hbump h
  | world w =>
    obtain ⟨t, p, q, d, rfl⟩ := World.exec_outside h
    exact .kept rfl

/-- The books of a pool `p`, whose vault held `b₀` before it was opened and holds `b` now: the
liquidity is what was paid in less what was paid out, it is within the size of the pool, and what
the vault holds beyond it is the fees. -/
structure PoolBooks (b₀ b : Nat) (p : RedemptionPool) (fs : List PoolFlow) : Prop where
  ledger : p.currentLiquidity.toNat + PoolFlow.total (·.redeemed) fs +
      PoolFlow.total (·.drained) fs =
    PoolFlow.total (·.seeded) fs + PoolFlow.total (·.replenished) fs
  within : p.Within
  vault : b = b₀ + p.currentLiquidity.toNat + PoolFlow.total (·.fee) fs

/-- The books hold for the pool of `M`, if `V` is its vault. -/
def State.BooksAt (M V : Pubkey) (b₀ : Nat) (s : State) (fs : List PoolFlow) : Prop :=
  ∀ p ∈ s.redemptionPool M, p.reserveVault = V → PoolBooks b₀ (s.tokens.held V) p fs

/-- Before there is a pool nothing has flowed, and a pool has its bump. -/
structure PoolOpened (M V : Pubkey) (b₀ : Nat) (s : State) (fs : List PoolFlow) : Prop where
  absent : s.redemptionPool M = none → fs = [] ∧ s.tokens.held V = b₀
  bump : ∀ p ∈ s.redemptionPool M, p.bump ≠ 0

variable {b₀ : Nat} {f : PoolFlow} {fs : List PoolFlow} {p : RedemptionPool}

theorem PoolOpened.step (hbump : rt.bump (.redemptionPool M) ≠ 0) (h : PoolOpened M V b₀ s fs)
    (hV : VaultKept rt M V s a) (hexec : a.exec rt s = .ok s') :
    PoolOpened M V b₀ s' (fs ++ poolFlow rt M s a) := by
  have hstep : PoolStep M s s' (poolFlow rt M s a) := exec_poolStep hbump hexec
  rw [VaultKept, next_of_ok hexec] at hV
  generalize poolFlow rt M s a = new at hstep hV
  cases hstep with
  | kept hpool =>
    rw [List.append_nil]
    exact ⟨fun hnone => (hV rfl).symm ▸ h.absent (hpool ▸ hnone), hpool.symm ▸ h.bump⟩
  | @called f p stored call =>
    refine ⟨fun hnone => ?_, fun p' hp' => ?_⟩
    · cases stored.symm.trans hnone
    · cases stored.symm.trans hp'
      cases hq : s.redemptionPool M with
      | none => exact call.opened hq
      | some q =>
        rw [(call.kept q hq (h.bump q hq)).1]
        exact h.bump q hq

/-- The books before a call on a pool, whether or not there is a pool yet. -/
theorem PoolOpened.books (h : PoolOpened M V b₀ s fs) (hs : s.BooksAt M V b₀ fs)
    (hcall : PoolCall M s f p s') (hV : f.vault = V) :
    s.poolLiquidity M + PoolFlow.total (·.redeemed) fs + PoolFlow.total (·.drained) fs =
        PoolFlow.total (·.seeded) fs + PoolFlow.total (·.replenished) fs ∧
      s.tokens.held V = b₀ + s.poolLiquidity M + PoolFlow.total (·.fee) fs ∧ p.Within := by
  cases hq : s.redemptionPool M with
  | none =>
    obtain ⟨rfl, hheld⟩ := h.absent hq
    rw [State.poolLiquidity_of_none hq]
    refine ⟨rfl, hheld, hcall.within fun q hq' => ?_⟩
    cases hq.symm.trans hq'
  | some q =>
    have hbooks := hs q hq ((hcall.kept q hq (h.bump q hq)).2.trans hV)
    rw [State.poolLiquidity_of_some hq]
    refine ⟨hbooks.ledger, hbooks.vault, hcall.within fun q' hq' => ?_⟩
    cases hq.symm.trans hq'
    exact hbooks.within

/-- A call keeps the books exactly if it moves the vault by what it enters. -/
theorem PoolCall.books_iff (h : PoolOpened M V b₀ s fs) (hs : s.BooksAt M V b₀ fs)
    (hcall : PoolCall M s f p s') (hV : f.vault = V) :
    PoolBooks b₀ (s'.tokens.held V) p (fs ++ [f]) ↔ f.Faithful := by
  obtain ⟨hledger, hvault, hwithin⟩ := h.books hs hcall hV
  have henough := hcall.enough
  have hliquidity := hcall.liquidity
  have hbalance := hcall.balance
  have hmoves := hcall.moves
  have hwithheld := hcall.withheld
  have hlt : s'.tokens.held V < 2 ^ 64 := Tokens.held_lt _ _
  have hlt₀ := s.poolLiquidity_lt M
  have honeWay : f.paidOut = 0 ∧ f.fee = 0 ∨ f.paidIn = 0 ∧ f.withheld = 0 :=
    hcall.oneWay.imp_left fun hout => ⟨hout.1, hout.2.1⟩
  have hburns (hburned : f.burned = some V) : f.paidIn = 0 ∧ f.withheld = 0 := by
    rcases hcall.oneWay with ⟨-, -, hnone⟩ | hin
    · rw [hnone] at hburned
      cases hburned
    · exact hin
  rw [hV] at hbalance
  rw [PoolFlow.Faithful, hV]
  rw [PoolFlow.paidIn, PoolFlow.paidOut] at *
  constructor
  · rintro ⟨hledger', -, hvault'⟩
    rw [PoolFlow.total_concat, PoolFlow.total_concat, PoolFlow.total_concat,
      PoolFlow.total_concat] at hledger'
    rw [PoolFlow.total_concat] at hvault'
    by_cases hburned : f.burned = some V
    · obtain ⟨hin, hzero⟩ := hburns hburned
      rw [if_pos hburned] at hbalance ⊢
      by_cases hother : f.other = V
      · rw [if_pos hother, if_pos hother] at hbalance
        exact ⟨hzero, hother, by omega⟩
      · rw [if_neg hother, if_neg hother] at hbalance
        omega
    · rw [if_neg hburned] at hbalance ⊢
      by_cases hother : f.other = V
      · rw [if_pos hother, if_pos hother] at hbalance
        omega
      · rw [if_neg hother, if_neg hother] at hbalance
        exact ⟨by omega, hother⟩
  · rintro ⟨hnone, hends⟩
    have hflow : s'.tokens.held V + (f.redeemed + f.drained) =
        s.tokens.held V + (f.seeded + f.replenished) + f.fee := by
      by_cases hburned : f.burned = some V
      · obtain ⟨hin, -⟩ := hburns hburned
        rw [if_pos hburned] at hbalance hends
        rw [if_pos hends.1, if_pos hends.1] at hbalance
        omega
      · rw [if_neg hburned] at hbalance hends
        rw [if_neg hends, if_neg hends] at hbalance
        omega
    clear hbalance hends
    refine ⟨?_, hwithin, ?_⟩
    · rw [PoolFlow.total_concat, PoolFlow.total_concat, PoolFlow.total_concat,
        PoolFlow.total_concat]
      omega
    · rw [PoolFlow.total_concat]
      omega

theorem State.BooksAt.step_iff (hbump : rt.bump (.redemptionPool M) ≠ 0)
    (h : PoolOpened M V b₀ s fs) (hs : s.BooksAt M V b₀ fs) (hV : VaultKept rt M V s a)
    (hexec : a.exec rt s = .ok s') :
    s'.BooksAt M V b₀ (fs ++ poolFlow rt M s a) ↔
      ∀ f ∈ poolFlow rt M s a, f.vault = V → f.Faithful := by
  have hstep : PoolStep M s s' (poolFlow rt M s a) := exec_poolStep hbump hexec
  rw [VaultKept, next_of_ok hexec] at hV
  generalize poolFlow rt M s a = new at hstep hV
  cases hstep with
  | kept hpool =>
    refine iff_of_true ?_ fun f hf => absurd hf List.not_mem_nil
    rw [State.BooksAt, hpool, hV rfl, List.append_nil]
    exact hs
  | @called f p stored call =>
    rw [List.forall_mem_singleton, State.BooksAt, stored]
    constructor
    · intro hbooks hvault
      exact (call.books_iff h hs hvault).mp (hbooks p rfl (call.vault.trans hvault))
    · intro hfaithful p' hp' hvault
      cases hp'
      have hf : f.vault = V := call.vault.symm.trans hvault
      exact (call.books_iff h hs hf).mpr (hfaithful hf)

/-! ## Runs -/

/-- The liquidity never exceeds the size of the pool. -/
theorem redemption_pool_within (hbump : rt.bump (.redemptionPool M) ≠ 0) (as : List Action)
    (hs : s.redemptionPool M = none) :
    ∀ p ∈ (run rt s as).redemptionPool M, p.Within := by
  refine invariant_run_of_forall (I := fun s : State => ∀ p ∈ s.redemptionPool M, p.Within)
    (fun hwithin hexec => ?_) as fun p hp => ?_
  · have hstep := exec_poolStep hbump hexec
    generalize poolFlow rt M _ _ = new at hstep
    cases hstep with
    | kept hpool => rwa [hpool]
    | called stored call =>
      intro p hp
      cases stored.symm.trans hp
      exact call.within hwithin
  · cases hs.symm.trans hp

/-- The books of a pool hold all along a run in which nothing else moves its vault, exactly if each
call that goes through moves the vault by what it enters. The bump that is found for a derived
address is never zero. -/
theorem redemption_pool_ledger (as : List Action) (hs : s.redemptionPool M = none)
    (hbump : rt.bump (.redemptionPool M) ≠ 0)
    (hV : Along (Action.exec rt) (VaultKept rt M V) s as) :
    (∀ init tail, as = init ++ tail → ∀ p ∈ (run rt s init).redemptionPool M,
      p.reserveVault = V →
        PoolBooks (s.tokens.held V) ((run rt s init).tokens.held V) p
          (history (Action.exec rt) (poolFlow rt M) s init)) ↔
      Along (Action.exec rt) (fun s a => (a.exec rt s).isOk →
        ∀ f ∈ poolFlow rt M s a, f.vault = V → f.Faithful) s as := by
  have hnone {q : RedemptionPool} (hq : q ∈ s.redemptionPool M) : False := by
    cases hs.symm.trans hq
  have hopened : PoolOpened M V (s.tokens.held V) s [] :=
    ⟨fun _ => ⟨rfl, rfl⟩, fun q hq => (hnone hq).elim⟩
  have hbooks : s.BooksAt M V (s.tokens.held V) [] := fun q hq => (hnone hq).elim
  exact prefix_iff_along (I := State.BooksAt M V (s.tokens.held V))
    (fun h hV hexec => PoolOpened.step hbump h hV hexec)
    (fun h hs hV hexec => State.BooksAt.step_iff hbump h hs hV hexec) hopened hbooks hV

namespace Market

/-- Of what is 500 at first the user redeems 100 for a fee of one, 50 are added and the rest is
drained. -/
def pooled : List Action :=
  funded 1000 ++
    [ .world (.createAccount poolVault gold.key (.vaultAuthority mint.key)),
      .world (.createAccount reserveSource gold.key authority.key),
      .world (.mintTo authority gold.key reserveSource.key 1000),
      .call (day 0) (.seedRedemptionPool
        { authority, config, reserveVault := poolVault.key, reserveSource := reserveSource.key }
        500 800 100),
      .call (day 0) (redeemPool 100),
      .call (day 0) (.replenishRedemptionPool
        { replenisher := authority, config, reserveVault := poolVault.key
          replenisherSource := reserveSource.key } 50),
      .call (day 0) (.drainRedemptionPool
        { authority, config, reserveVault := poolVault.key
          drainDestination := reserveSource.key }) ]

/-- The authority's own account becomes the vault, and then it is replenished from itself. -/
def pooledTwice : List Action :=
  funded 1000 ++
    [ .world (.createAccount poolVault gold.key authority.key),
      .world (.createAccount reserveSource gold.key authority.key),
      .world (.mintTo authority gold.key reserveSource.key 1000),
      .call (day 0) (.seedRedemptionPool
        { authority, config, reserveVault := poolVault.key, reserveSource := reserveSource.key }
        500 0 0),
      .call (day 0) (.replenishRedemptionPool
        { replenisher := authority, config, reserveVault := poolVault.key
          replenisherSource := poolVault.key } 500) ]

end Market

open Market in
theorem redemption_pool_ledger_drained :
    ∃ p ∈ (run localRuntime genesis pooled).redemptionPool mint.key, p.currentLiquidity = 0 ∧
      PoolBooks 0 1 p (history (Action.exec localRuntime) (poolFlow localRuntime mint.key) genesis
        pooled) := by
  have hpool : ((run localRuntime genesis pooled).redemptionPool mint.key).map
      (fun p => (p.reserveVault, p.currentLiquidity)) = some (poolVault.key, 0) := by decide +kernel
  have hheld : (run localRuntime genesis pooled).tokens.held poolVault.key = 1 := by decide +kernel
  obtain ⟨p, hp, heq⟩ := Option.map_eq_some_iff.mp hpool
  obtain ⟨hvault, hliquidity⟩ := Prod.mk.inj heq
  have hbooks := (redemption_pool_ledger (V := poolVault.key) pooled rfl (by decide)
    (by decide +kernel)).mpr (by decide +kernel) pooled [] (List.append_nil _).symm p hp hvault
  rw [hheld] at hbooks
  exact ⟨p, hp, hliquidity, hbooks⟩

open Market in
/-- The liquidity is 1000, and the vault holds 500. -/
theorem redemption_pool_pooled_twice :
    Along (Action.exec localRuntime) (VaultKept localRuntime mint.key poolVault.key) genesis
        pooledTwice ∧
      genesis.tokens.held poolVault.key = 0 ∧
      ∃ p ∈ (run localRuntime genesis pooledTwice).redemptionPool mint.key,
        p.reserveVault = poolVault.key ∧ p.currentLiquidity = 1000 ∧
          (run localRuntime genesis pooledTwice).tokens.held poolVault.key = 500 := by
  have hpool : ((run localRuntime genesis pooledTwice).redemptionPool mint.key).map
      (fun p => (p.reserveVault, p.currentLiquidity)) = some (poolVault.key, 1000) := by
    decide +kernel
  obtain ⟨p, hp, heq⟩ := Option.map_eq_some_iff.mp hpool
  obtain ⟨hvault, hliquidity⟩ := Prod.mk.inj heq
  exact ⟨by decide +kernel, rfl, p, hp, hvault, hliquidity, by decide +kernel⟩

end SolanaStablecoin
