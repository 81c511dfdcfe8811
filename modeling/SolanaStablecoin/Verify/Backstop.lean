import Mathlib.Algebra.GroupWithZero.Nat
import SolanaStablecoin.Base.Ensures
import SolanaStablecoin.Program.Token2022
import SolanaStablecoin.Verify.Parameters

/-! The backstop for bad debt. It waits for the signature of the config, which no call of the
program supplies; and given that signature, it draws again for what it has covered before. -/

namespace SolanaStablecoin

open Transition

variable {rt : Runtime} {clock : Clock} {s s' : State} {M u : Pubkey}

/-! ## Nobody triggers it -/

/-- In the transactions `as` the backstop runs for the position of `u`. -/
def Backstopped (rt : Runtime) (s : State) (as : List Action) (M u : Pubkey) : Prop :=
  ∃ init clock b tail, as = init ++ .call clock (.triggerBackstop b) :: tail ∧ b.sssMint = M ∧
    b.cdpOwner = u ∧ ((Instruction.triggerBackstop b).exec rt clock (run rt s init)).isOk

theorem not_backstopped {as : List Action} : ¬ Backstopped rt s as M u := by
  rintro ⟨init, clock, b, tail, -, -, -, hok⟩
  obtain ⟨s', hs'⟩ := isOk_iff.mp hok
  exact triggerBackstopHandler_ne_ok hs'

/-- Whatever the state, there are no transactions in which the backstop runs. -/
theorem backstop_never_runs (rt : Runtime) (s : State) (M u : Pubkey) :
    ¬ ∃ as, Backstopped rt s as M u := by
  rintro ⟨as, h⟩
  exact not_backstopped h

/-! ## Draws up to one cap -/

section Draws

variable {m : Nat} {bs : List Nat}

theorem sum_min_of_lt (h : (bs.map (min m)).sum < m) : (bs.map (min m)).sum = bs.sum := by
  induction bs with
  | nil => rfl
  | cons b bs ih =>
    rw [List.map_cons, List.sum_cons] at h ⊢
    rw [List.sum_cons, ih (by omega)]
    omega

theorem sum_min_pos (hm : 0 < m) (hbs : ∀ b ∈ bs, 0 < b) (hne : bs ≠ []) :
    0 < (bs.map (min m)).sum := by
  cases bs with
  | nil => exact absurd rfl hne
  | cons b bs =>
    have hb : 0 < b := hbs b List.mem_cons_self
    rw [List.map_cons, List.sum_cons]
    omega

theorem sum_min_le_sum : (bs.map (min m)).sum ≤ bs.sum := by
  induction bs with
  | nil => exact Nat.le_refl 0
  | cons b bs ih =>
    rw [List.map_cons, List.sum_cons, List.sum_cons]
    omega

theorem sum_min_le_mul : (bs.map (min m)).sum ≤ bs.length * m := by
  induction bs with
  | nil => exact Nat.zero_le _
  | cons b bs ih =>
    rw [List.map_cons, List.sum_cons, List.length_cons, Nat.succ_mul]
    omega

/-- Draws that take what is there, up to the same cap each, stay together within that cap only if
there is no second one or they never find more than that. -/
theorem sum_min_le_iff (hbs : ∀ b ∈ bs, 0 < b) :
    (bs.map (min m)).sum ≤ m ↔ bs.length ≤ 1 ∨ m = 0 ∨ bs.sum ≤ m := by
  constructor
  · intro h
    match bs with
    | [] | [_] => exact .inl (by simp)
    | b :: c :: bs =>
      rcases Nat.eq_zero_or_pos m with hm | hm
      · exact .inr (.inl hm)
      · have hrest : 0 < ((c :: bs).map (min m)).sum :=
          sum_min_pos hm (fun x hx => hbs x (List.mem_cons_of_mem b hx)) (List.cons_ne_nil c bs)
        have hb : 0 < b := hbs b List.mem_cons_self
        rw [List.map_cons, List.sum_cons] at h
        have heq : ((c :: bs).map (min m)).sum = (c :: bs).sum := sum_min_of_lt (by omega)
        rw [List.sum_cons]
        exact .inr (.inr (by omega))
  · rintro (h | rfl | h)
    · exact sum_min_le_mul.trans ((Nat.mul_le_mul_right m h).trans_eq (Nat.one_mul m))
    · exact sum_min_le_mul
    · exact sum_min_le_sum.trans h

end Draws

/-! ## What it draws when the config signs -/

/-- A call of the backstop with both of its signatures, or any transaction. -/
inductive BackstopAction where
  | trigger (clock : Clock) (a : BackstopAccounts)
      (liquidationAuthority insuranceFundAuthority : Pubkey)
  | other (a : Action)

def BackstopAction.exec (rt : Runtime) (s : State) : BackstopAction → Result State
  | trigger clock a liquidationAuthority insuranceFundAuthority =>
    triggerBackstopHandler rt clock s a liquidationAuthority insuranceFundAuthority
  | other a => a.exec rt s

/-- One draw: what was in the fund, and what was taken. -/
structure BackstopDraw where
  balance : Nat
  amount : Nat

/-- What a call draws for the position, if it goes through. -/
def BackstopAction.draws (rt : Runtime) (M u : Pubkey) (s : State) :
    BackstopAction → List BackstopDraw
  | trigger clock a liquidationAuthority _ =>
    if a.sssMint = M ∧ a.cdpOwner = u then
      match a.load rt clock s liquidationAuthority with
      | .ok (config, reading, balance) =>
        match reading.shortfall with
        | .ok shortfall =>
          [{ balance := balance.toNat
             amount := (min (config.maxBackstop shortfall) balance).toNat }]
        | .error _ => []
      | .error _ => []
    else []
  | other _ => []

/-- A call on the position finds the debt, the collateral and the price of `r`, and the supply and
the cap of `c`. -/
def BackstopAction.Finds (rt : Runtime) (M u : Pubkey) (c : StablecoinConfig)
    (r : BackstopReading) (s : State) : BackstopAction → Prop
  | trigger clock a liquidationAuthority _ =>
    a.sssMint = M → a.cdpOwner = u → Ensures (a.load rt clock s liquidationAuthority)
      fun x => x.2.1 = r ∧ x.1.netSupply = c.netSupply ∧ x.1.maxBackstopBps = c.maxBackstopBps
  | other _ => True

instance BackstopAction.Finds.decidable {c : StablecoinConfig} {r : BackstopReading}
    {a : BackstopAction} : Decidable (a.Finds rt M u c r s) := by
  cases a <;> unfold Finds <;> infer_instance

/-- What a run draws for the position. -/
def backstopDraws (rt : Runtime) (M u : Pubkey) (s : State) (as : List BackstopAction) :
    List BackstopDraw :=
  history (BackstopAction.exec rt) (BackstopAction.draws rt M u) s as

variable {c : StablecoinConfig} {r : BackstopReading} {S : UInt64} {as : List BackstopAction}

theorem maxBackstop_congr {c' : StablecoinConfig} (hsupply : c'.netSupply = c.netSupply)
    (hbps : c'.maxBackstopBps = c.maxBackstopBps) : c'.maxBackstop S = c.maxBackstop S := by
  rw [StablecoinConfig.maxBackstop, StablecoinConfig.maxBackstop, hsupply, hbps]

/-- A draw takes what is in the fund, up to the cap of one call. -/
structure BackstopDraw.Capped (c : StablecoinConfig) (S : UInt64) (d : BackstopDraw) : Prop where
  pos : 0 < d.balance
  amount : d.amount = min (c.maxBackstop S).toNat d.balance

/-- The step lemma. -/
theorem draws_capped {a : BackstopAction} (hfinds : a.Finds rt M u c r s)
    (hS : r.shortfall = .ok S) (h : a.exec rt s = .ok s') :
    ∀ d ∈ a.draws rt M u s, d.Capped c S := by
  intro d hd
  cases a with
  | other => cases hd
  | trigger clock b liquidationAuthority insuranceFundAuthority =>
    rw [BackstopAction.draws] at hd
    split at hd
    case isFalse => cases hd
    case isTrue hself =>
      simp only [BackstopAction.exec, triggerBackstopHandler, bind_eq_ok, require_eq_ok] at h
      obtain ⟨⟨config, reading, balance⟩, hload, x, hx, -, hpos, -⟩ := h
      rw [hload] at hd
      obtain ⟨rfl, hsupply, hbps⟩ := hfinds hself.1 hself.2 _ hload
      cases hS.symm.trans hx
      dsimp only at hd
      rw [hS] at hd
      cases List.mem_singleton.mp hd
      refine ⟨UInt64.lt_iff_toNat_lt.mp hpos, ?_⟩
      rw [UInt64.toNat_min, maxBackstop_congr hsupply hbps]

/-- The run lemma. -/
theorem backstopDraws_capped (hS : r.shortfall = .ok S)
    (H : Along (BackstopAction.exec rt) (fun s a => a.Finds rt M u c r s) s as) :
    ∀ d ∈ backstopDraws rt M u s as, d.Capped c S :=
  forall_mem_history (fun hfinds hexec => draws_capped hfinds hS hexec) H

def drawn (ds : List BackstopDraw) : Nat := (ds.map (·.amount)).sum

def found (ds : List BackstopDraw) : Nat := (ds.map (·.balance)).sum

/-- Nothing is drawn; or the cap is not lifted, and there is one draw, or the cap is below one
unit, or the fund never held more than the cap in all. -/
def DrawnOnce (c : StablecoinConfig) (S : UInt64) (ds : List BackstopDraw) : Prop :=
  ds = [] ∨ c.maxBackstopBps ≠ 0 ∧
    (ds.length ≤ 1 ∨ c.maxBackstop S = 0 ∨ found ds ≤ (c.maxBackstop S).toNat)

theorem drawn_of_capped {ds : List BackstopDraw} (h : ∀ d ∈ ds, d.Capped c S) :
    drawn ds = ((ds.map (·.balance)).map (min (c.maxBackstop S).toNat)).sum := by
  rw [drawn, List.map_map]
  exact congrArg List.sum (List.map_congr_left fun d hd => (h d hd).amount)

theorem maxBackstop_le : (c.maxBackstop S).toNat ≤ S.toNat := by
  rw [StablecoinConfig.maxBackstop]
  split
  · exact Nat.le_refl _
  · rw [UInt64.toNat_min]
    exact Nat.min_le_right _ _

theorem maxBackstop_le_cap (h : c.maxBackstopBps ≠ 0) :
    (c.maxBackstop S).toNat * 10000 ≤ c.netSupply.toNat * c.maxBackstopBps.toNat := by
  rw [StablecoinConfig.maxBackstop, if_neg h, UInt64.toNat_min, UInt64.toNat_ofNat']
  calc min (c.netSupply.toNat * c.maxBackstopBps.toNat / 10000 % 2 ^ 64) S.toNat * 10000
    _ ≤ c.netSupply.toNat * c.maxBackstopBps.toNat / 10000 % 2 ^ 64 * 10000 :=
      Nat.mul_le_mul_right _ (Nat.min_le_left _ _)
    _ ≤ c.netSupply.toNat * c.maxBackstopBps.toNat / 10000 * 10000 :=
      Nat.mul_le_mul_right _ (Nat.mod_le _ _)
    _ ≤ c.netSupply.toNat * c.maxBackstopBps.toNat := Nat.div_mul_le_self _ _

/-- A cap of at most the whole supply is not truncated. -/
theorem toNat_maxBackstop (h : c.maxBackstopBps ≠ 0) (hle : c.maxBackstopBps ≤ 10000) :
    (c.maxBackstop S).toNat =
      min (c.netSupply.toNat * c.maxBackstopBps.toNat / 10000) S.toNat := by
  rw [StablecoinConfig.maxBackstop, if_neg h, UInt64.toNat_min, UInt64.toNat_ofNat',
    Nat.mod_eq_of_lt]
  have hbps : c.maxBackstopBps.toNat ≤ 10000 := UInt16.le_iff_toNat_le.mp hle
  have hcap : c.netSupply.toNat * c.maxBackstopBps.toNat ≤ c.netSupply.toNat * 10000 :=
    Nat.mul_le_mul_left _ hbps
  have hsupply := c.netSupply.toNat_lt
  omega

theorem BackstopReading.shortfall_pos (hS : r.shortfall = .ok S) : 0 < S.toNat := by
  simp only [BackstopReading.shortfall, bind_eq_ok, require_eq_ok, pure_eq_ok] at hS
  obtain ⟨debt, -, value, -, -, hlt, rfl⟩ := hS
  rw [UInt64.toNat_ofNat']
  have hdebt := debt.toNat_lt
  omega

theorem drawn_le_maxBackstop {ds : List BackstopDraw} (hds : ∀ d ∈ ds, d.Capped c S) :
    drawn ds ≤ (c.maxBackstop S).toNat ↔
      ds.length ≤ 1 ∨ c.maxBackstop S = 0 ∨ found ds ≤ (c.maxBackstop S).toNat := by
  have hpos : ∀ b ∈ ds.map (·.balance), 0 < b := by
    intro b hb
    obtain ⟨d, hd, rfl⟩ := List.mem_map.mp hb
    exact (hds d hd).pos
  have hzero : c.maxBackstop S = 0 ↔ (c.maxBackstop S).toNat = 0 := UInt64.toNat_inj.symm
  rw [drawn_of_capped hds, sum_min_le_iff hpos, List.length_map, found]
  exact or_congr_right (or_congr_left hzero.symm)

/-- While debt, collateral, price and supply stay the same, the draws for a position stay within
the shortfall and within the cap as long as there is one of them, or they find no more than that;
and only then. -/
theorem backstop_draws_bounded (hS : r.shortfall = .ok S)
    (H : Along (BackstopAction.exec rt) (fun s a => a.Finds rt M u c r s) s as) :
    (DrawnOnce c S (backstopDraws rt M u s as) →
      drawn (backstopDraws rt M u s as) ≤ S.toNat ∧
        drawn (backstopDraws rt M u s as) * 10000 ≤
          c.netSupply.toNat * c.maxBackstopBps.toNat) ∧
    (c.maxBackstopBps ≤ 10000 → drawn (backstopDraws rt M u s as) ≤ S.toNat →
      drawn (backstopDraws rt M u s as) * 10000 ≤ c.netSupply.toNat * c.maxBackstopBps.toNat →
      DrawnOnce c S (backstopDraws rt M u s as)) := by
  have hds := backstopDraws_capped hS H
  generalize backstopDraws rt M u s as = ds at hds
  constructor
  · rintro (rfl | ⟨hbps, h⟩)
    · exact ⟨Nat.zero_le _, Nat.zero_le _⟩
    · have hle := (drawn_le_maxBackstop hds).mpr h
      exact ⟨hle.trans maxBackstop_le,
        (Nat.mul_le_mul_right 10000 hle).trans (maxBackstop_le_cap hbps)⟩
  · intro hle hshortfall hcap
    by_cases hnil : ds = []
    · exact .inl hnil
    have hbps : c.maxBackstopBps ≠ 0 := by
      intro hzero
      have hmax : c.maxBackstop S = S := by rw [StablecoinConfig.maxBackstop, if_pos hzero]
      have hpos : 0 < drawn ds := by
        rw [drawn_of_capped hds, hmax]
        refine sum_min_pos (BackstopReading.shortfall_pos hS) (fun b hb => ?_) (by simpa using hnil)
        obtain ⟨d, hd, rfl⟩ := List.mem_map.mp hb
        exact (hds d hd).pos
      rw [hzero, UInt16.toNat_zero, Nat.mul_zero] at hcap
      omega
    refine .inr ⟨hbps, (drawn_le_maxBackstop hds).mp ?_⟩
    rw [toNat_maxBackstop hbps hle]
    omega

namespace Market

/-- The insurance fund, held by the authority. -/
def fund : Signer := ⟨.key 53, rfl⟩

/-- A loan of 100 against 500 of gold that are worth 50; the fund holds 300, and a draw may take
half of the supply. -/
def uncovered : List Action :=
  funded 1000 ++
    [ .world (.createAccount reserve gold.key config),
      .world (.createAccount fund gold.key authority.key),
      .world (.mintTo authority gold.key fund.key 300),
      .call (day 1) (.proposeTimelockedOp asAuthority adminOpSetBackstopParams 5000 fund.key),
      .call (day 2) (.executeTimelockedOp asAuthority),
      .world (.publishPythPrice feed
        { price := 1, conf := 0, expo := -1, publishTime := (day 3).unixTimestamp }) ]

def backstop : BackstopAccounts :=
  { sssMint := mint.key, cdpOwner := user.key, collateralMint := gold.key
    oraclePriceFeed := feed, insuranceFund := fund.key, reserveVault := reserve.key }

end Market

open Market in
/-- A shortfall that the fund could cover, with every signature but the config's, which there are no
transactions to bring. -/
theorem backstop_unsigned :
    Genesis genesis ∧
      ((run localRuntime genesis uncovered).configs config).map (·.preset) = some 3 ∧
      ((run localRuntime genesis uncovered).tokens.accounts fund.key).map
        (fun a => (a.owner, a.amount)) = some (authority.key, 300) ∧
      (triggerBackstopHandler localRuntime (day 3) (run localRuntime genesis uncovered) backstop
        config authority.key).isOk ∧
      ¬ ∃ as, Backstopped localRuntime (run localRuntime genesis uncovered) as mint.key
        user.key := by
  refine ⟨genesis_genesis, by decide +kernel, by decide +kernel, by decide +kernel, ?_⟩
  rintro ⟨as, h⟩
  exact not_backstopped h

namespace Market

def uncoveredReading : BackstopReading :=
  { deposited := 500, debt := 100, accruedFees := 0
    oraclePrice := { price := 1, conf := 0, expo := -1 }, collateralDecimals := 6
    sssDecimals := 6 }

def uncoveredConfig : StablecoinConfig := { totalMinted := 100, maxBackstopBps := 5000 }

def signedBackstop : BackstopAction := .trigger (day 3) backstop config authority.key

end Market

open Market in
theorem backstop_draws_bounded_uncovered :
    drawn (backstopDraws localRuntime mint.key user.key (run localRuntime genesis uncovered)
        [signedBackstop]) ≤ 50 ∧
      drawn (backstopDraws localRuntime mint.key user.key (run localRuntime genesis uncovered)
        [signedBackstop]) * 10000 ≤ 100 * 5000 :=
  (backstop_draws_bounded (c := uncoveredConfig) (r := uncoveredReading) (S := 50)
    (by decide +kernel) (by decide +kernel)).1 (.inr ⟨by decide, .inl (by decide +kernel)⟩)

open Market in
/-- A second call finds the same shortfall and draws it again. -/
theorem backstop_draws_again :
    uncoveredReading.shortfall = .ok 50 ∧
      Along (BackstopAction.exec localRuntime)
        (fun s a => a.Finds localRuntime mint.key user.key uncoveredConfig uncoveredReading s)
        (run localRuntime genesis uncovered) [signedBackstop, signedBackstop] ∧
      ¬ drawn (backstopDraws localRuntime mint.key user.key
          (run localRuntime genesis uncovered) [signedBackstop, signedBackstop]) ≤ 50 ∧
      ¬ drawn (backstopDraws localRuntime mint.key user.key
          (run localRuntime genesis uncovered) [signedBackstop, signedBackstop]) * 10000 ≤
        uncoveredConfig.netSupply.toNat * uncoveredConfig.maxBackstopBps.toNat := by
  decide +kernel

end SolanaStablecoin
