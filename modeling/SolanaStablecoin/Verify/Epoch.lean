import Mathlib.Algebra.GroupWithZero.Nat
import SolanaStablecoin.Verify.Interface
import SolanaStablecoin.Verify.Suspension

/-! What a minter mints in one epoch. The counter of the epoch is reset lazily, at the first call
of a later one; a record that was last reset in epoch 0 counts as never reset, so in that epoch
every call resets it. -/

namespace SolanaStablecoin

open Transition

variable {rt : Runtime} {clock : Clock} {s s' : State} {a : Action} {i : Instruction}
  {M u : Pubkey} {e L n : UInt64} {as : List Action}

/-! ## Limits and totals -/

/-- The minter may mint at most `L` per epoch. -/
def State.MintLimited (s : State) (M u : Pubkey) (L : UInt64) : Prop :=
  ∃ m, s.minterInfos (.minterInfo (.stablecoinConfig M) u) = some m ∧ m.maxMintPerEpoch = L

instance State.MintLimited.decidable : Decidable (s.MintLimited M u L) :=
  decidable_of_iff ((s.minterInfos (.minterInfo (.stablecoinConfig M) u)).any
    fun m => decide (m.maxMintPerEpoch = L)) (by
      simp only [Option.any_eq_true, decide_eq_true_eq]
      rfl)

/-- What the minter asks for, through either entry point. -/
def Instruction.mintedBy (M u : Pubkey) : Instruction → List UInt64
  | mint a amount | cpiMint a amount _ =>
    if a.mint = M ∧ a.minter.key = u then [amount] else []
  | _ => []

def Action.mintedBy (M u : Pubkey) (e : UInt64) : Action → List Nat
  | call clock i => if clock.epoch = e then (i.mintedBy M u).map UInt64.toNat else []
  | world _ => []

/-- What the minter has minted in epoch `e` of a run. -/
def mintedIn (rt : Runtime) (M u : Pubkey) (e : UInt64) (s : State) (as : List Action) : Nat :=
  (history (Action.exec rt) (fun _ a => a.mintedBy M u e) s as).sum

def Action.epochs : Action → List UInt64
  | call clock _ => [clock.epoch]
  | world _ => []

/-- No epoch comes after a later one. -/
def InEpochOrder (as : List Action) : Prop :=
  as.Pairwise fun a b => ∀ x ∈ a.epochs, ∀ y ∈ b.epochs, x ≤ y

instance InEpochOrder.decidable : Decidable (InEpochOrder as) :=
  -- epochs are finitely many, but too many to go through
  have _ {P : UInt64 → Prop} [DecidablePred P] (a : Action) : Decidable (∀ x ∈ a.epochs, P x) :=
    List.decidableBAll ..
  inferInstanceAs (Decidable (as.Pairwise fun a b => ∀ x ∈ a.epochs, ∀ y ∈ b.epochs, x ≤ y))

/-- How many calls of a run ask for something in epoch `e`. -/
def mintCalls (M u : Pubkey) (e : UInt64) (as : List Action) : Nat :=
  as.countP fun a => !(a.mintedBy M u e).isEmpty

/-! ## One step -/

/-- Two records of a minter agree on its epoch. -/
structure MinterInfo.SameEpoch (m m' : MinterInfo) : Prop where
  minted : m'.mintedThisEpoch = m.mintedThisEpoch
  reset : m'.lastEpochReset = m.lastEpochReset

/-- After `m` mints `n` at `epoch`, it is `m'`. -/
structure MinterInfo.Counts (m : MinterInfo) (epoch n : UInt64) (m' : MinterInfo) : Prop where
  minted : m'.mintedThisEpoch.toNat = (m.rollEpoch epoch).mintedThisEpoch.toNat + n.toNat
  reset : m'.lastEpochReset = epoch
  limit : 0 < m.maxMintPerEpoch → m'.mintedThisEpoch ≤ m.maxMintPerEpoch

theorem MinterInfo.rollEpoch_reset (m : MinterInfo) (epoch : UInt64) :
    (m.rollEpoch epoch).lastEpochReset = epoch := by
  rw [rollEpoch]
  split
  · rfl
  · next h => exact (not_not.mp fun hne => h (.inr hne)).symm

theorem MinterInfo.rollEpoch_limit (m : MinterInfo) (epoch : UInt64) :
    (m.rollEpoch epoch).maxMintPerEpoch = m.maxMintPerEpoch := by
  rw [rollEpoch]
  split <;> rfl

/-- Within an epoch other than 0 the counter is kept. -/
theorem MinterInfo.rollEpoch_self {m : MinterInfo} (h : m.lastEpochReset ≠ 0) :
    m.rollEpoch m.lastEpochReset = m := by
  rw [rollEpoch, if_neg]
  rintro (hzero | hne)
  · exact h hzero
  · exact hne rfl

theorem MinterInfo.counts_of_ok {m m' : MinterInfo} {u : Unit}
    (hlimits : (m.rollEpoch e).checkLimits n = .ok u)
    (h : (m.rollEpoch e).addMinted n = .ok m') : m.Counts e n m' := by
  simp only [checkLimits, addMinted, bind_eq_ok, requireWhen_eq_ok, Option.okOr_eq_ok,
    require_eq_ok, UInt64.checkedAdd_eq_some, pure_eq_ok, exists_const] at hlimits h
  obtain ⟨_, -, x, hx, rfl⟩ := h
  refine ⟨hx, m.rollEpoch_reset e, fun hpos => ?_⟩
  obtain ⟨hepoch, -⟩ := hlimits
  rw [m.rollEpoch_limit] at hepoch
  obtain ⟨y, hy, hle⟩ := hepoch hpos
  rwa [UInt64.toNat_inj.mp (hx.trans hy.symm)]

/-- A minter's own record is the only one that a call to mint writes. -/
theorem mintHandler_counts {b : MintTokens} (h : mintHandler rt clock s b n = .ok s') :
    ∃ m m', s.minterInfos (.minterInfo (.stablecoinConfig b.mint) b.minter.key) = some m ∧
      m.Counts clock.epoch n m' ∧
      s'.minterInfos = put s.minterInfos
        (.minterInfo (.stablecoinConfig b.mint) b.minter.key) m' := by
  simp only [mintHandler, bind_eq_ok, pure_eq_ok] at h
  obtain ⟨_, -, m, hm, -, -, -, -, -, -, -, -, -, -, -, -, -, -, _, hlimits, -, -, _, -, _, -,
    m', hm', rfl⟩ := h
  exact ⟨m, m', loadMinterInfo_ok hm, MinterInfo.counts_of_ok hlimits hm', rfl⟩

theorem Action.mintedBy_eq_nil (h : i.mintedBy M u = []) :
    (Action.call clock i).mintedBy M u e = [] := by
  rw [Action.mintedBy, h, List.map_nil, ite_self]

theorem Instruction.mintedBy_direct : i.direct.mintedBy M u = i.mintedBy M u := by
  cases i <;> rfl

/-- What a successful transaction does to the epoch of a minter that has the record `m`. -/
inductive EpochStep (M u : Pubkey) (m : MinterInfo) (s' : State) : Action → Prop where
  | minted {clock : Clock} {i : Instruction} {n : UInt64} {m' : MinterInfo}
    (amount : i.mintedBy M u = [n]) (counts : m.Counts clock.epoch n m')
    (written : s'.minterInfos (.minterInfo (.stablecoinConfig M) u) = some m') :
    EpochStep M u m s' (.call clock i)
  | kept {a : Action} (none : ∀ e, a.mintedBy M u e = [])
    (same : ∀ m', s'.minterInfos (.minterInfo (.stablecoinConfig M) u) = some m' →
      m.SameEpoch m') : EpochStep M u m s' a

variable {m : MinterInfo}

theorem EpochStep.of_eq (hm : s.minterInfos (.minterInfo (.stablecoinConfig M) u) = some m)
    (h : s'.minterInfos = s.minterInfos) (hnone : ∀ e, a.mintedBy M u e = []) :
    EpochStep M u m s' a := by
  refine .kept hnone fun m' hm' => ?_
  rw [h, hm] at hm'
  cases hm'
  exact ⟨rfl, rfl⟩

theorem EpochStep.of_update {k : Pubkey} {x : Option MinterInfo}
    (hm : s.minterInfos (.minterInfo (.stablecoinConfig M) u) = some m)
    (h : s'.minterInfos = Function.update s.minterInfos k x)
    (hx : k = .minterInfo (.stablecoinConfig M) u → ∀ m' ∈ x, m.SameEpoch m')
    (hnone : ∀ e, a.mintedBy M u e = []) : EpochStep M u m s' a := by
  refine .kept hnone fun m' hm' => ?_
  rw [h] at hm'
  by_cases hk : k = .minterInfo (.stablecoinConfig M) u
  · rw [← hk, Function.update_self] at hm'
    exact hx hk m' hm'
  · rw [Function.update_of_ne (Ne.symm hk), hm] at hm'
    cases hm'
    exact ⟨rfl, rfl⟩

theorem EpochStep.of_mint {b : MintTokens}
    (hm : s.minterInfos (.minterInfo (.stablecoinConfig M) u) = some m)
    (hi : i.direct = .mint b n) (h : mintHandler rt clock s b n = .ok s') :
    EpochStep M u m s' (.call clock i) := by
  obtain ⟨m₀, m', hm₀, hcounts, hs'⟩ := mintHandler_counts h
  have hamount : i.mintedBy M u = if b.mint = M ∧ b.minter.key = u then [n] else [] := by
    rw [← Instruction.mintedBy_direct, hi]
    rfl
  by_cases hself : b.mint = M ∧ b.minter.key = u
  · rw [if_pos hself] at hamount
    obtain ⟨rfl, rfl⟩ := hself
    cases hm.symm.trans hm₀
    exact .minted hamount hcounts (by rw [hs', put_self])
  · rw [if_neg hself] at hamount
    refine .of_update hm hs' (fun hk => absurd ?_ hself) fun _ => Action.mintedBy_eq_nil hamount
    obtain ⟨hconfig, hminter⟩ := Pubkey.minterInfo.inj hk
    exact ⟨Pubkey.stablecoinConfig.inj hconfig, hminter⟩

theorem exec_epoch (hm : s.minterInfos (.minterInfo (.stablecoinConfig M) u) = some m)
    (h : a.exec rt s = .ok s') : EpochStep M u m s' a := by
  cases a with
  | world w =>
    exact .of_eq hm (congrArg Councils.minterInfos (World.exec_settled h).councils) fun _ => rfl
  | call clock i =>
    have hsame : i.licenses = false → s'.minterInfos = s.minterInfos :=
      fun hi => Instruction.exec_sameMinterInfos hi h
    cases i with
    | mint b n => exact .of_mint hm rfl h
    | cpiMint b n v => exact .of_mint hm rfl (cpiMintHandler_ok h)
    | updateMinter b cap =>
      change updateMinterHandler s b cap = .ok s' at h
      simp only [updateMinterHandler, bind_eq_ok, pure_eq_ok] at h
      obtain ⟨_, -, -, -, -, -, rfl⟩ := h
      refine .of_update hm rfl (fun hk m' hm' => ?_) fun _ => Action.mintedBy_eq_nil rfl
      change some _ = some m' at hm'
      rw [hk, hm] at hm'
      cases hm'
      exact ⟨rfl, rfl⟩
    | revokeMinter b =>
      change revokeMinterHandler s b = .ok s' at h
      simp only [revokeMinterHandler, bind_eq_ok, pure_eq_ok] at h
      obtain ⟨_, -, _, -, -, -, -, -, rfl⟩ := h
      refine .of_update hm rfl (fun _ m' hm' => ?_) fun _ => Action.mintedBy_eq_nil rfl
      cases hm'
    | setMintVelocityLimit b L =>
      change setMintVelocityLimitHandler s b L = .ok s' at h
      simp only [setMintVelocityLimitHandler, bind_eq_ok, load_eq_ok, pure_eq_ok] at h
      obtain ⟨_, -, m₀, hm₀, -, -, -, -, -, -, rfl⟩ := h
      refine .of_update hm rfl (fun hk m' hm' => ?_) fun _ => Action.mintedBy_eq_nil rfl
      rw [hk, hm] at hm₀
      cases hm₀
      cases hm'
      exact ⟨rfl, rfl⟩
    | _ => exact .of_eq hm (hsame rfl) fun _ => Action.mintedBy_eq_nil rfl

/-! ## A run -/

/-- What is known when the minter has minted `t` in epoch `e` and the transactions `as` are still
to come. -/
inductive Metered (M u : Pubkey) (e : UInt64) (s : State) (as : List Action) : Nat → Prop where
  | fresh : Metered M u e s as 0
  | counted {t : Nat} (pos : e ≠ 0)
    (counter : ∀ m, s.minterInfos (.minterInfo (.stablecoinConfig M) u) = some m →
      m.lastEpochReset = e ∧ t ≤ m.mintedThisEpoch.toNat)
    (later : ∀ a ∈ as, ∀ x ∈ a.epochs, e ≤ x) : Metered M u e s as t
  | past {t : Nat} (none : ∀ a ∈ as, a.mintedBy M u e = []) : Metered M u e s as t

theorem Metered.tail {t : Nat} (h : Metered M u e s (a :: as) t) : Metered M u e s as t := by
  cases h with
  | fresh => exact .fresh
  | counted pos counter later =>
    exact .counted pos counter fun b hb => later b (List.mem_cons_of_mem a hb)
  | past none => exact .past fun b hb => none b (List.mem_cons_of_mem a hb)

theorem Metered.kept {t : Nat} (h : Metered M u e s (a :: as) t)
    (hm : s.minterInfos (.minterInfo (.stablecoinConfig M) u) = some m)
    (hsame : ∀ m', s'.minterInfos (.minterInfo (.stablecoinConfig M) u) = some m' →
      m.SameEpoch m') : Metered M u e s' as t := by
  cases h.tail with
  | fresh => exact .fresh
  | counted pos counter later =>
    refine .counted pos (fun m' hm' => ?_) later
    obtain ⟨hreset, hle⟩ := counter m hm
    rw [(hsame m' hm').reset, (hsame m' hm').minted]
    exact ⟨hreset, hle⟩
  | past none => exact .past none

/-- After a call in an epoch other than `e`, epoch `e` is over if anything was minted in it. -/
theorem Metered.elsewhere {t : Nat} (h : Metered M u e s (.call clock i :: as) t)
    (horder : InEpochOrder (.call clock i :: as)) (he : clock.epoch ≠ e) :
    Metered M u e s' as t := by
  cases h with
  | fresh => exact .fresh
  | past none => exact .past fun b hb => none b (List.mem_cons_of_mem _ hb)
  | counted pos counter later =>
    have hlt : e < clock.epoch := by
      have hle := later _ List.mem_cons_self clock.epoch List.mem_cons_self
      exact UInt64.lt_of_le_of_ne hle (Ne.symm he)
    refine .past fun b hb => ?_
    have hafter := (List.pairwise_cons.mp horder).1 b hb clock.epoch List.mem_cons_self
    cases b with
    | world w => rfl
    | call clock' i' =>
      have hle : clock.epoch ≤ clock'.epoch := hafter _ List.mem_cons_self
      rw [Action.mintedBy, if_neg]
      rintro rfl
      exact UInt64.not_le.mpr hlt hle

/-- What a call in epoch `e` adds stays within the counter that it writes. -/
theorem Metered.le_counter {t : Nat} {m' : MinterInfo}
    (h : Metered M u e s (.call clock i :: as) t) (he : clock.epoch = e)
    (hm : s.minterInfos (.minterInfo (.stablecoinConfig M) u) = some m)
    (hamount : i.mintedBy M u = [n]) (hcounts : m.Counts clock.epoch n m') :
    t + n.toNat ≤ m'.mintedThisEpoch.toNat := by
  rw [hcounts.minted]
  cases h with
  | fresh => omega
  | counted pos counter later =>
    obtain ⟨rfl, hle⟩ := counter m hm
    rw [he, MinterInfo.rollEpoch_self pos]
    omega
  | past none =>
    have hnil := none _ List.mem_cons_self
    rw [Action.mintedBy, if_pos he, hamount] at hnil
    cases hnil

/-- After a call in epoch `e` the counter tells what was minted in it, or it was the only one. -/
theorem Metered.of_counts {t : Nat} {m' : MinterInfo} (he : clock.epoch = e)
    (hamount : i.mintedBy M u = [n]) (hcounts : m.Counts clock.epoch n m')
    (hle : t ≤ m'.mintedThisEpoch.toNat)
    (hwritten : s'.minterInfos (.minterInfo (.stablecoinConfig M) u) = some m')
    (horder : InEpochOrder (.call clock i :: as))
    (hzero : e = 0 → mintCalls M u e (.call clock i :: as) ≤ 1) : Metered M u e s' as t := by
  by_cases hpos : e = 0
  · refine .past fun b hb => ?_
    have hcalls := hzero hpos
    rw [mintCalls, List.countP_cons_of_pos] at hcalls
    · have hnone := List.countP_eq_zero.mp (Nat.le_zero.mp (Nat.le_of_succ_le_succ hcalls)) b hb
      simpa using hnone
    · rw [Action.mintedBy, if_pos he, hamount]
      rfl
  · refine .counted hpos (fun m₁ hm₁ => ?_) fun b hb x hx => ?_
    · cases hwritten.symm.trans hm₁
      exact ⟨hcounts.reset.trans he, hle⟩
    · exact he ▸ (List.pairwise_cons.mp horder).1 b hb clock.epoch List.mem_cons_self x hx

/-- The step lemma. -/
theorem Metered.step {t : Nat} (h : Metered M u e s (a :: as) t)
    (horder : InEpochOrder (a :: as)) (hzero : e = 0 → mintCalls M u e (a :: as) ≤ 1)
    (hlimit : s.MintLimited M u L) (hpos : 0 < L) (ht : t ≤ L.toNat)
    (hexec : a.exec rt s = .ok s') :
    Metered M u e s' as (t + (a.mintedBy M u e).sum) ∧
      t + (a.mintedBy M u e).sum ≤ L.toNat := by
  obtain ⟨m, hm, rfl⟩ := hlimit
  cases exec_epoch hm hexec with
  | kept none same =>
    rw [none e, List.sum_nil, Nat.add_zero]
    exact ⟨h.kept hm same, ht⟩
  | @minted clock i n m' amount counts written =>
    by_cases he : clock.epoch = e
    · rw [Action.mintedBy, if_pos he, amount, List.map_singleton, List.sum_singleton]
      have hle := h.le_counter he hm amount counts
      refine ⟨.of_counts he amount counts hle written horder hzero, hle.trans ?_⟩
      exact UInt64.le_iff_toNat_le.mp (counts.limit hpos)
    · rw [Action.mintedBy, if_neg he, List.sum_nil, Nat.add_zero]
      exact ⟨h.elsewhere horder he, ht⟩

theorem mintCalls_tail : mintCalls M u e as ≤ mintCalls M u e (a :: as) := by
  rw [mintCalls, mintCalls, List.countP_cons]
  exact Nat.le_add_right _ _

/-- The run lemma. -/
theorem Metered.run_le {t : Nat} (h : Metered M u e s as t) (horder : InEpochOrder as)
    (hzero : e = 0 → mintCalls M u e as ≤ 1)
    (hlimit : Along (Action.exec rt) (fun s _ => s.MintLimited M u L) s as) (hpos : 0 < L)
    (ht : t ≤ L.toNat) : t + mintedIn rt M u e s as ≤ L.toNat := by
  induction as generalizing s t with
  | nil => exact ht
  | cons a as ih =>
    have htail : InEpochOrder as := (List.pairwise_cons.mp horder).2
    have hcalls : e = 0 → mintCalls M u e as ≤ 1 := fun he => mintCalls_tail.trans (hzero he)
    cases hexec : a.exec rt s with
    | ok s' =>
      obtain ⟨hnext, hle⟩ := h.step horder hzero hlimit.1 hpos ht hexec
      rw [mintedIn, history_of_ok hexec, List.sum_append, ← Nat.add_assoc]
      exact ih hnext htail hcalls (next_of_ok hexec ▸ hlimit.2) hle
    | error e' =>
      rw [mintedIn, history_of_error hexec]
      exact ih h.tail htail hcalls (next_of_error hexec ▸ hlimit.2) ht

/-- While a minter is held to `L` per epoch, it mints at most that in every epoch, if it is asked
at most once in epoch 0. -/
theorem epoch_limit {as : List Action} (horder : InEpochOrder as) (hpos : 0 < L)
    (hlimit : Along (Action.exec rt) (fun s _ => s.MintLimited M u L) s as)
    (hzero : e = 0 → mintCalls M u e as ≤ 1) : mintedIn rt M u e s as ≤ L.toNat := by
  have h := Metered.run_le .fresh horder hzero hlimit hpos (Nat.zero_le _)
  rwa [Nat.zero_add] at h

namespace Market

/-- The authority is held to 5 per epoch. -/
def metered : List Action :=
  interfaced ++
    [.call (day 0) (.setMintVelocityLimit { asAuthority with minter := authority.key } 5)]

def issueTwice (epoch : UInt64) : List Action :=
  [ .call { day 1 with epoch } (.mint issue 5),
    .call { day 1 with epoch } (.cpiMint issue 5 1) ]

end Market

open Market in
theorem epoch_limit_metered :
    mintedIn localRuntime mint.key authority.key 1 (run localRuntime genesis metered)
      (issueTwice 1) ≤ 5 :=
  epoch_limit (L := 5) (by decide +kernel) (by decide) (by decide +kernel)
    fun h => absurd h (by decide)

open Market in
/-- In epoch 0 the second call resets the counter again. -/
theorem epoch_zero_limit_exceeded :
    Genesis genesis ∧ InEpochOrder (metered ++ issueTwice 0) ∧
      Along (Action.exec localRuntime) (fun s _ => s.MintLimited mint.key authority.key 5)
        (run localRuntime genesis metered) (issueTwice 0) ∧
      ¬ mintedIn localRuntime mint.key authority.key 0 (run localRuntime genesis metered)
        (issueTwice 0) ≤ 5 :=
  ⟨genesis_genesis, by decide +kernel, by decide +kernel, by decide +kernel⟩

end SolanaStablecoin
