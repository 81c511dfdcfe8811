import SolanaStablecoin.Verify.Epoch

/-! What a minter mints over all its lives. Its counter is in the record that a revocation closes,
and a registration starts another at zero. -/

namespace SolanaStablecoin

open Transition

variable {rt : Runtime} {clock : Clock} {s s' : State} {a : Action} {i : Instruction}
  {M u : Pubkey} {C n : UInt64} {as : List Action} {m m' : MinterInfo}

/-! ## Totals and registrations -/

def Action.mintedEver (M u : Pubkey) : Action → List Nat
  | call _ i => (i.mintedBy M u).map UInt64.toNat
  | world _ => []

/-- What the minter has ever minted in a run. -/
def mintedEver (rt : Runtime) (M u : Pubkey) (s : State) (as : List Action) : Nat :=
  (history (Action.exec rt) (fun _ a => a.mintedEver M u) s as).sum

/-- The caps that an action gives to the minter. -/
def Action.capsGiven (M u : Pubkey) : Action → List UInt64
  | call _ (.updateMinter b cap) => if b.mint = M ∧ b.minter = u then [cap] else []
  | _ => []

/-- The caps that a run gives to it. -/
def capsGiven (rt : Runtime) (M u : Pubkey) (s : State) (as : List Action) : List UInt64 :=
  history (Action.exec rt) (fun _ a => a.capsGiven M u) s as

/-- The minter is registered where there is no record of it. -/
def RegistersMinter (rt : Runtime) (M u : Pubkey) (s : State) (a : Action) : Prop :=
  (a.exec rt s).isOk = true ∧ a.capsGiven M u ≠ [] ∧
    s.minterInfos (.minterInfo (.stablecoinConfig M) u) = none

/-! ## One step -/

/-- After `m` mints `n`, it is `m'`. -/
structure MinterInfo.Spends (m : MinterInfo) (n : UInt64) (m' : MinterInfo) : Prop where
  minted : m'.minted.toNat = m.minted.toNat + n.toNat
  cap : m'.cap = m.cap
  limit : 0 < m.cap → m'.minted ≤ m.cap

/-- The record of the minter before and after a successful transaction. -/
inductive CapStep (M u : Pubkey) : Action → Option MinterInfo → Option MinterInfo → Prop where
  | minted {a : Action} {n : UInt64} {m m' : MinterInfo} (amount : a.mintedEver M u = [n.toNat])
    (spends : m.Spends n m') : CapStep M u a (some m) (some m')
  | capped {a : Action} {x : Option MinterInfo} {m' : MinterInfo}
    (amount : a.mintedEver M u = []) (cap : a.capsGiven M u = [m'.cap])
    (counter : m'.minted = (x.getD {}).minted) : CapStep M u a x (some m')
  | revoked {a : Action} {x : Option MinterInfo} (amount : a.mintedEver M u = []) :
    CapStep M u a x none
  | kept {a : Action} {x y : Option MinterInfo} (amount : a.mintedEver M u = [])
    (same : y.map (fun m => (m.cap, m.minted)) = x.map fun m => (m.cap, m.minted)) :
    CapStep M u a x y

theorem MinterInfo.rollEpoch_minted (m : MinterInfo) (e : UInt64) :
    (m.rollEpoch e).minted = m.minted := by
  rw [rollEpoch]
  split <;> rfl

theorem MinterInfo.spends_of_ok {e : UInt64} {x : Unit}
    (hlimits : (m.rollEpoch e).checkLimits n = .ok x)
    (h : (m.rollEpoch e).addMinted n = .ok m') : m.Spends n m' := by
  simp only [checkLimits, addMinted, bind_eq_ok, requireWhen_eq_ok, Option.okOr_eq_ok,
    require_eq_ok, UInt64.checkedAdd_eq_some, pure_eq_ok, exists_const, m.rollEpoch_minted,
    m.rollEpoch_cap] at hlimits h
  obtain ⟨y, hy, _, -, rfl⟩ := h
  refine ⟨hy, rfl, fun hpos => ?_⟩
  obtain ⟨z, hz, hle⟩ := hlimits.2 hpos
  rwa [UInt64.toNat_inj.mp (hy.trans hz.symm)]

theorem mintHandler_spends {b : MintTokens} (h : mintHandler rt clock s b n = .ok s') :
    ∃ m m', s.minterInfos (.minterInfo (.stablecoinConfig b.mint) b.minter.key) = some m ∧
      m.Spends n m' ∧
      s'.minterInfos = put s.minterInfos
        (.minterInfo (.stablecoinConfig b.mint) b.minter.key) m' := by
  simp only [mintHandler, bind_eq_ok, pure_eq_ok] at h
  obtain ⟨_, -, m, hm, -, -, -, -, -, -, -, -, -, -, -, -, -, -, _, hlimits, -, -, _, -, _, -,
    m', hm', rfl⟩ := h
  exact ⟨m, m', loadMinterInfo_ok hm, MinterInfo.spends_of_ok hlimits hm', rfl⟩

theorem minterKey_inj {mint minter : Pubkey}
    (hk : Pubkey.minterInfo (.stablecoinConfig mint) minter =
      .minterInfo (.stablecoinConfig M) u) : mint = M ∧ minter = u := by
  obtain ⟨hconfig, hminter⟩ := Pubkey.minterInfo.inj hk
  exact ⟨Pubkey.stablecoinConfig.inj hconfig, hminter⟩

/-- The record that is written is this minter's, or it does not matter. -/
theorem CapStep.of_update {k : Pubkey} {x : Option MinterInfo}
    (h : s'.minterInfos = Function.update s.minterInfos k x) (hnone : a.mintedEver M u = [])
    (hself : k = .minterInfo (.stablecoinConfig M) u → CapStep M u a (s.minterInfos k) x) :
    CapStep M u a (s.minterInfos (.minterInfo (.stablecoinConfig M) u))
      (s'.minterInfos (.minterInfo (.stablecoinConfig M) u)) := by
  rw [h]
  by_cases hk : k = .minterInfo (.stablecoinConfig M) u
  · rw [← hk, Function.update_self]
    exact hself hk
  · rw [Function.update_of_ne (Ne.symm hk)]
    exact .kept hnone rfl

theorem CapStep.of_mint {b : MintTokens} (hi : i.direct = .mint b n)
    (h : mintHandler rt clock s b n = .ok s') :
    CapStep M u (.call clock i) (s.minterInfos (.minterInfo (.stablecoinConfig M) u))
      (s'.minterInfos (.minterInfo (.stablecoinConfig M) u)) := by
  obtain ⟨m, m', hm, hspends, hs'⟩ := mintHandler_spends h
  have hamount : i.mintedBy M u = if b.mint = M ∧ b.minter.key = u then [n] else [] := by
    rw [← Instruction.mintedBy_direct, hi]
    rfl
  by_cases hself : b.mint = M ∧ b.minter.key = u
  · rw [if_pos hself] at hamount
    obtain ⟨rfl, rfl⟩ := hself
    rw [hs', put_self, hm]
    refine .minted ?_ hspends
    rw [Action.mintedEver, hamount, List.map_singleton]
  · rw [if_neg hself] at hamount
    refine .of_update hs' ?_ fun hk => absurd (minterKey_inj hk) hself
    rw [Action.mintedEver, hamount, List.map_nil]

theorem CapStep.of_eq (hnone : a.mintedEver M u = []) (h : s'.minterInfos = s.minterInfos) :
    CapStep M u a (s.minterInfos (.minterInfo (.stablecoinConfig M) u))
      (s'.minterInfos (.minterInfo (.stablecoinConfig M) u)) := by
  rw [h]
  exact .kept hnone rfl

theorem exec_cap (h : a.exec rt s = .ok s') :
    CapStep M u a (s.minterInfos (.minterInfo (.stablecoinConfig M) u))
      (s'.minterInfos (.minterInfo (.stablecoinConfig M) u)) := by
  cases a with
  | world w => exact .of_eq rfl (congrArg Councils.minterInfos (World.exec_settled h).councils)
  | call clock i =>
    have hsame : i.licenses = false → s'.minterInfos = s.minterInfos :=
      fun hi => Instruction.exec_sameMinterInfos hi h
    cases i with
    | mint b n => exact .of_mint rfl h
    | cpiMint b n v => exact .of_mint rfl (cpiMintHandler_ok h)
    | updateMinter b cap =>
      change updateMinterHandler s b cap = .ok s' at h
      simp only [updateMinterHandler, bind_eq_ok, pure_eq_ok] at h
      obtain ⟨_, -, -, -, -, -, rfl⟩ := h
      exact .of_update rfl rfl fun hk => .capped rfl (if_pos (minterKey_inj hk)) rfl
    | revokeMinter b =>
      change revokeMinterHandler s b = .ok s' at h
      simp only [revokeMinterHandler, bind_eq_ok, pure_eq_ok] at h
      obtain ⟨_, -, _, -, -, -, -, -, rfl⟩ := h
      exact .of_update rfl rfl fun _ => .revoked rfl
    | setMintVelocityLimit b L =>
      change setMintVelocityLimitHandler s b L = .ok s' at h
      simp only [setMintVelocityLimitHandler, bind_eq_ok, load_eq_ok, pure_eq_ok] at h
      obtain ⟨_, -, m, hm, -, -, -, -, -, -, rfl⟩ := h
      refine .of_update rfl rfl fun _ => ?_
      rw [hm]
      exact .kept rfl rfl
    | _ => exact .of_eq rfl (hsame rfl)

/-! ## A run -/

/-- What is known of a minter with the cap `C` that has minted `t`. -/
inductive Lifetime (C : UInt64) (t : Nat) : Option MinterInfo → Prop where
  | registered {m : MinterInfo} (cap : m.cap = C) (counted : m.minted.toNat = t)
    (le : t ≤ C.toNat) : Lifetime C t (some m)
  | closed (le : t ≤ C.toNat) : Lifetime C t none

theorem Lifetime.le {t : Nat} {x : Option MinterInfo} (h : Lifetime C t x) : t ≤ C.toNat := by
  cases h <;> assumption

/-- The step lemma. -/
theorem Lifetime.step {t : Nat} {x y : Option MinterInfo} (h : Lifetime C t x)
    (hstep : CapStep M u a x y) (hpos : 0 < C) (hcap : ∀ cap ∈ a.capsGiven M u, cap = C)
    (hfirst : a.capsGiven M u ≠ [] → x = none → t = 0) :
    Lifetime C (t + (a.mintedEver M u).sum) y := by
  cases hstep with
  | @minted n m m' amount spends =>
    rw [amount, List.sum_singleton]
    cases h with
    | registered cap counted le =>
      subst cap
      have hsum : m'.minted.toNat = t + n.toNat := by rw [spends.minted, counted]
      refine .registered spends.cap hsum (hsum ▸ ?_)
      exact UInt64.le_iff_toNat_le.mp (spends.limit hpos)
  | capped amount cap counter =>
    rw [amount, List.sum_nil, Nat.add_zero]
    rw [cap] at hcap hfirst
    have hcap := hcap _ (List.mem_singleton_self _)
    cases h with
    | registered _ counted le =>
      exact .registered hcap ((congrArg UInt64.toNat counter).trans counted) le
    | closed le =>
      rw [hfirst (List.cons_ne_nil _ _) rfl]
      exact .registered hcap (congrArg UInt64.toNat counter) (Nat.zero_le _)
  | revoked amount =>
    rw [amount, List.sum_nil, Nat.add_zero]
    exact .closed h.le
  | kept amount same =>
    rw [amount, List.sum_nil, Nat.add_zero]
    cases h with
    | registered cap counted le =>
      obtain ⟨m', rfl, heq⟩ := Option.map_eq_some_iff.mp same
      obtain ⟨hcap, hminted⟩ := Prod.mk.inj heq
      exact .registered (hcap.trans cap) (hminted ▸ counted) le
    | closed le =>
      rw [Option.map_none, Option.map_eq_none_iff] at same
      rw [same]
      exact .closed le

/-- A minter whose cap is always `C`, and that is not registered again once it has minted, has at
no point of a run minted more than `C`. -/
theorem lifetime_cap (hs : s.minterInfos (.minterInfo (.stablecoinConfig M) u) = none)
    (hpos : 0 < C) (hcap : ∀ cap ∈ capsGiven rt M u s as, cap = C)
    (honce : ∀ init a tail, as = init ++ a :: tail → RegistersMinter rt M u (run rt s init) a →
      mintedEver rt M u s init = 0)
    {init tail : List Action} (h : as = init ++ tail) : mintedEver rt M u s init ≤ C.toNat := by
  have hlife : Lifetime C (mintedEver rt M u s init)
      ((run rt s init).minterInfos (.minterInfo (.stablecoinConfig M) u)) := by
    refine invariant_prefix (I := fun (s : State) h => Lifetime C h.sum
      (s.minterInfos (.minterInfo (.stablecoinConfig M) u))) ?_ ?_ h
    · rw [hs]
      exact .closed (Nat.zero_le _)
    · intro init a tail s' has hexec hlife
      rw [List.sum_append]
      refine hlife.step (exec_cap hexec) hpos (fun cap hmem => hcap cap ?_) fun hgiven hnone => ?_
      · rw [capsGiven, has, history_append, history_of_ok hexec]
        exact List.mem_append_right _ (List.mem_append_left _ hmem)
      · exact honce init a tail has ⟨isOk_iff.mpr ⟨s', hexec⟩, hgiven, hnone⟩
  exact hlife.le

/-- A minter that is given its cap at the start and no other later is registered once. -/
theorem registered_once (h : ∀ b ∈ as, b.capsGiven M u = []) (init : List Action) (b : Action)
    (tail : List Action) (heq : a :: as = init ++ b :: tail)
    (hb : RegistersMinter rt M u (run rt s init) b) : mintedEver rt M u s init = 0 := by
  cases init with
  | nil => rfl
  | cons c init =>
    have htail : as = init ++ b :: tail := (List.cons_eq_cons.mp heq).2
    have hmem : b ∈ as := htail ▸ List.mem_append_right _ List.mem_cons_self
    exact absurd (h b hmem) hb.2.1

namespace Market

def registerMinter (cap : UInt64) (n : Nat) : Action :=
  .call (day n) (.updateMinter { asAuthority with minter := authority.key } cap)

def revokeMinter (n : Nat) : Action :=
  .call (day n) (.revokeMinter { asAuthority with minter := authority.key })

/-- The minter of cap 5 mints 3 and 2. -/
def mintAll : List Action := [.call (day 1) (.mint issue 3), .call (day 1) (.mint issue 2)]

/-- It is revoked, and registered again with the same cap. -/
def renew : List Action := [revokeMinter 2, registerMinter 5 2]

end Market

open Market in
theorem lifetime_cap_once :
    mintedEver localRuntime mint.key authority.key (run localRuntime genesis (opening 1000))
      (registerMinter 5 1 :: mintAll) ≤ 5 := by
  have hnone : ∀ b ∈ mintAll, b.capsGiven mint.key authority.key = [] := by
    simp only [mintAll, List.forall_mem_cons]
    exact ⟨rfl, rfl, fun b hb => nomatch hb⟩
  have hgiven : capsGiven localRuntime mint.key authority.key
      (run localRuntime genesis (opening 1000)) (registerMinter 5 1 :: mintAll) = [5] := by
    decide +kernel
  refine lifetime_cap (C := 5) rfl (by decide) (fun cap hcap => ?_) (registered_once hnone)
    (List.append_nil _).symm
  rw [hgiven] at hcap
  exact List.mem_singleton.mp hcap

open Market in
/-- After the renewal the minter may mint another 5. -/
theorem lifetime_cap_renewed :
    Genesis genesis ∧ (run localRuntime genesis (opening 1000)).minterInfos
      (.minterInfo (.stablecoinConfig mint.key) authority.key) = none ∧
    (∀ cap ∈ capsGiven localRuntime mint.key authority.key (run localRuntime genesis (opening 1000))
      (registerMinter 5 1 :: mintAll ++ renew ++ mintAll), cap = 5) ∧
    mintedEver localRuntime mint.key authority.key (run localRuntime genesis (opening 1000))
      (registerMinter 5 1 :: mintAll ++ renew ++ mintAll) = 10 := by
  have hgiven : capsGiven localRuntime mint.key authority.key
      (run localRuntime genesis (opening 1000))
      (registerMinter 5 1 :: mintAll ++ renew ++ mintAll) = [5, 5] := by decide +kernel
  refine ⟨genesis_genesis, rfl, fun cap hcap => ?_, by decide +kernel⟩
  rw [hgiven] at hcap
  simpa using hcap

end SolanaStablecoin
