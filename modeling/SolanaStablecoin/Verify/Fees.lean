import SolanaStablecoin.Program.Token2022
import SolanaStablecoin.Verify.Supply

/-! Collecting stability fees: when the config's signature is enough to burn what a position
owes. -/

namespace SolanaStablecoin

open Transition Conservation

variable {rt : Runtime} {clock : Clock} {s s' : State} {a : Action} {c : StablecoinConfig}
  {p : CdpPosition} {b : TokenAccount} {m : Mint}

/-! ## Positions along a run -/

/-- The preset whose configs carry a multisig from the start. -/
structure StablecoinConfig.IsSss3 (c : StablecoinConfig) : Prop where
  preset : c.preset = 3
  multisig : c.squadsMultisig ≠ .default

theorem StablecoinConfig.IsSss3.of_office {c' : StablecoinConfig} (h : c.IsSss3)
    (ho : c'.office = c.office) : c'.IsSss3 where
  preset := (congrArg Office.preset ho).trans h.preset
  multisig := by
    rw [show c'.squadsMultisig = c.squadsMultisig from congrArg Office.squadsMultisig ho]
    exact h.multisig

/-- Only a config without a multisig changes its preset. -/
theorem Governs.isSss3 {i : Instruction} {mint : Pubkey} {c' : StablecoinConfig}
    (h : Governs clock c i mint c') (hc : c.IsSss3) : c'.IsSss3 := by
  cases h with
  | execute _ _ happly =>
    obtain ⟨hpreset, hsquads⟩ := StablecoinConfig.applyTimelockedOp_preset happly
    exact ⟨hpreset.trans hc.preset, hsquads ▸ hc.multisig⟩
  | initSquads unset => exact absurd unset hc.multisig
  | propose | cancel | updateRoles | acceptAuthority | acceptComplianceAuthority | takeOver =>
    exact ⟨hc.preset, hc.multisig⟩

/-- Every config under the SSS-3 preset has its multisig. -/
def Multisigned (s : State) : Prop :=
  ∀ k c, s.configs k = some c → c.preset = 3 → c.IsSss3

/-- Somebody who can sign may have a position here, under an SSS-3 config. -/
def MayOpen (s : State) (mint owner : Pubkey) : Prop :=
  owner.canSign = true ∧ ∃ c, s.configs (.stablecoinConfig mint) = some c ∧ c.IsSss3

theorem Multisigned.step (hm : Multisigned s) (h : Step rt s a s') : Multisigned s' := by
  intro k c' hc' hpreset
  rcases h.config_origin hc' with ⟨c, hc, hoffice | ⟨clock, i, mint, -, -, hgov⟩⟩ | hfresh
  · exact (hm k c hc ((congrArg Office.preset hoffice).symm.trans hpreset)).of_office hoffice
  · exact hgov.isSss3 (hm k c hc (hgov.preset hpreset))
  · exact ⟨hpreset, hfresh.multisig hpreset⟩

theorem MayOpen.step {mint owner : Pubkey} (h : MayOpen s mint owner) (hstep : Step rt s a s') :
    MayOpen s' mint owner := by
  obtain ⟨hsign, c, hc, hsss3⟩ := h
  obtain ⟨c', hc', hoffice | ⟨clock, i, mint, -, -, hgov⟩⟩ := hstep.config_next hc
  · exact ⟨hsign, c', hc', hsss3.of_office hoffice⟩
  · exact ⟨hsign, c', hc', hgov.isSss3 hsss3⟩

/-- Every position was opened where one may be. -/
def Opened (s : State) : Prop :=
  ∀ mint owner p, s.cdpPositions (.cdpPosition mint owner) = some p → MayOpen s mint owner

/-- Only a borrow opens a position. -/
theorem Opened.step (ho : Opened s) (hm : Multisigned s) (h : Step rt s a s') : Opened s' := by
  intro mint owner p hp
  refine MayOpen.step ?_ h
  cases h.positions with
  | same hsame => exact ho mint owner p (by rwa [← hsame])
  | rewritten hq hlock hput =>
    rw [hput] at hp
    rcases put_eq_some.mp hp with ⟨rfl, -⟩ | ⟨-, hp⟩
    · exact ho mint owner _ hq
    · exact ho mint owner p hp
  | @borrowed b _ _ hconfig hpreset _ hput =>
    rw [hput] at hp
    rcases put_eq_some.mp hp with ⟨heq, -⟩ | ⟨-, hp⟩
    · cases heq
      exact ⟨b.user.canSign, _, hconfig, hm _ _ hconfig hpreset⟩
    · exact ho mint owner p hp

/-- What holds in every state that a run reaches. -/
structure Kept (s : State) : Prop where
  wellFormed : WellFormed s
  sound : s.tokens.Sound
  multisigned : Multisigned s
  opened : Opened s

theorem Kept.exec (h : Kept s) (hok : Action.exec rt s a = .ok s') : Kept s' :=
  have hstep := exec_step hok
  ⟨h.wellFormed.step hstep, hstep.changes.sound h.sound, h.multisigned.step hstep,
    h.opened.step h.multisigned hstep⟩

theorem Genesis.kept (h : Genesis s) (hsound : s.tokens.Sound) : Kept s where
  wellFormed := h.wellFormed
  sound := hsound
  multisigned k c hc := by
    rw [h.configs] at hc
    cases hc
  opened mint owner p hp := by
    rw [h.cdpPositions] at hp
    cases hp

theorem Kept.run (h : Kept s) (as : List Action) : Kept (run rt s as) :=
  invariant_run_of_forall (fun h hok => h.exec hok) as h

/-! ## What is due -/

/-- The stored fees and the fee of the time that passed. -/
def CdpPosition.due (p : CdpPosition) (feeBps : UInt16) (now : Int64) : Nat :=
  p.accruedFees.toNat +
    p.debtAmount.toNat * feeBps.toNat * p.elapsedSecs now / (10000 * secsPerYear)

/-- What somebody can hold is in range, so none of the checked operations on the way fails. -/
theorem CdpPosition.total_of_due {p : CdpPosition} {feeBps : UInt16} {now : Int64}
    (h : p.due feeBps now < 2 ^ 64) :
    ∃ fee total, p.newFee feeBps now = .ok fee ∧ p.accruedFees.checkedAdd fee = some total ∧
      total.toNat = p.due feeBps now := by
  have hdue : p.due feeBps now = p.accruedFees.toNat +
      p.debtAmount.toNat * feeBps.toNat * p.elapsedSecs now / (10000 * secsPerYear) := rfl
  have hdebt : p.debtAmount.toNat * feeBps.toNat < 2 ^ 128 :=
    calc p.debtAmount.toNat * feeBps.toNat
        ≤ 2 ^ 64 * 2 ^ 16 := Nat.mul_le_mul p.debtAmount.toNat_lt.le feeBps.toNat_lt.le
      _ < 2 ^ 128 := by decide
  have hquot : p.debtAmount.toNat * feeBps.toNat * p.elapsedSecs now / (10000 * secsPerYear) <
      2 ^ 64 := by omega
  have hprod : p.debtAmount.toNat * feeBps.toNat * p.elapsedSecs now < 2 ^ 128 :=
    calc p.debtAmount.toNat * feeBps.toNat * p.elapsedSecs now
        < 2 ^ 64 * (10000 * secsPerYear) := (Nat.div_lt_iff_lt_mul (by decide)).mp hquot
      _ ≤ 2 ^ 128 := by decide
  generalize hq : p.debtAmount.toNat * feeBps.toNat * p.elapsedSecs now / (10000 * secsPerYear) = q
    at hdue hquot
  have hfee : (UInt64.ofNat (min q (2 ^ 64 - 1))).toNat = q := by
    rw [UInt64.toNat_ofNat_of_lt' ((min_le_right _ _).trans_lt (by decide))]
    omega
  have hsum : (UInt64.ofNat (p.due feeBps now)).toNat = p.due feeBps now :=
    UInt64.toNat_ofNat_of_lt' h
  refine ⟨.ofNat (min q (2 ^ 64 - 1)), .ofNat (p.due feeBps now), ?_, ?_, hsum⟩
  · simp only [CdpPosition.newFee, bind_eq_ok, Option.okOr_eq_ok, U128.checkedMul_eq_some,
      pure_eq_ok]
    exact ⟨_, ⟨rfl, hdebt⟩, _, ⟨rfl, hprod⟩, by rw [hq]⟩
  · rw [UInt64.checkedAdd_eq_some, hsum, hfee, hdue]

/-! ## Collecting it -/

/-- A position with a fee, an account of its owner that holds what is due, and a caller who may
collect it. -/
structure Payable (clock : Clock) (s : State) (a : CollectStabilityFee) (c : StablecoinConfig)
    (p : CdpPosition) (b : TokenAccount) : Prop where
  config : s.configs (.stablecoinConfig a.sssMint) = some c
  fee : c.stabilityFeeBps ≠ 0
  caller : c.mayCollect a.caller.key = true
  position : s.cdpPositions (.cdpPosition a.sssMint a.debtor) = some p
  account : s.tokens.accounts a.debtorSssAccount = some b
  mint : b.mint = a.sssMint
  owner : b.owner = a.debtor
  held : p.due c.stabilityFeeBps clock.unixTimestamp ≤ b.amount.toNat

/-- The call succeeds and takes exactly `fee` out of the account and out of the supply. -/
def Collects (rt : Runtime) (clock : Clock) (s : State) (a : CollectStabilityFee) (fee : Nat) :
    Prop :=
  ∃ s' b b' m m', collectStabilityFeeHandler rt clock s a = .ok s' ∧
    s.tokens.accounts a.debtorSssAccount = some b ∧
    s'.tokens.accounts a.debtorSssAccount = some b' ∧ b.amount.toNat = b'.amount.toNat + fee ∧
    s.tokens.mints a.sssMint = some m ∧ s'.tokens.mints a.sssMint = some m' ∧
    m.supply.toNat = m'.supply.toNat + fee

/-- Time has passed, and the owner has made the config the delegate of the account for what is
due. -/
structure Delegated (clock : Clock) (a : CollectStabilityFee) (c : StablecoinConfig)
    (p : CdpPosition) (b : TokenAccount) : Prop where
  elapsed : 0 < p.elapsedSecs clock.unixTimestamp
  unfrozen : b.frozen = false
  delegate : b.delegate = some (.stablecoinConfig a.sssMint)
  allowance : p.due c.stabilityFeeBps clock.unixTimestamp ≤ b.delegatedAmount.toNat
  room : c.totalBurned.toNat + p.due c.stabilityFeeBps clock.unixTimestamp < 2 ^ 64

variable {a : CollectStabilityFee}

/-- The position after its fees are collected. -/
def CdpPosition.settled (p : CdpPosition) (now : Int64) : CdpPosition :=
  { p with
    accruedFees := 0
    lastFeeAccrual := now }

/-- What is left of the handler once the accounts are checked and `total` is known. -/
def CollectStabilityFee.charge (a : CollectStabilityFee) (rt : Runtime) (now : Int64) (s : State)
    (c : StablecoinConfig) (p : CdpPosition) (total : UInt64) : Result State := do
  c.requireNotPaused
  let cdpPositions := put s.cdpPositions (.cdpPosition a.sssMint a.debtor) (p.settled now)
  if p.elapsedSecs now = 0 then pure s
  else if total = 0 then pure { s with cdpPositions }
  else do
    let tokens ← (rt.token.burn s.tokens a.sssMint a.debtorSssAccount
      (.stablecoinConfig a.sssMint) total).okOr .token
    let config ← c.addBurned total
    pure { s with
      tokens, cdpPositions
      configs := put s.configs (.stablecoinConfig a.sssMint) config }

/-- When the accounts are as they should be, the handler charges what is due. -/
theorem Payable.collect_eq (rt : Runtime) (h : Payable clock s a c p b) (hk : Kept s) :
    ∃ total m, total.toNat = p.due c.stabilityFeeBps clock.unixTimestamp ∧
      s.tokens.mints a.sssMint = some m ∧ m.OwnedBy (.stablecoinConfig a.sssMint) ∧
      collectStabilityFeeHandler rt clock s a = a.charge rt clock.unixTimestamp s c p total := by
  obtain ⟨-, c', hc', hpreset⟩ := hk.opened _ _ _ h.position
  cases h.config.symm.trans hc'
  obtain ⟨hkey, m, hm, howned⟩ := hk.wellFormed _ _ h.config
  have hmint : a.sssMint = c.mint := Pubkey.stablecoinConfig.inj hkey
  rw [← hmint] at hm
  obtain ⟨fee, total, hfee, hadd, htotal⟩ :=
    CdpPosition.total_of_due (h.held.trans_lt b.amount.toNat_lt)
  have hload : loadSss3OfMint s a.sssMint = .ok (c, m) :=
    loadSss3OfMint_eq_ok.mpr ⟨h.config, hpreset.preset, hm, hmint⟩
  have hposition : load s.cdpPositions (.cdpPosition a.sssMint a.debtor) = .ok p :=
    load_eq_ok.mpr h.position
  have haccount : load s.tokens.accounts a.debtorSssAccount = .ok b := load_eq_ok.mpr h.account
  refine ⟨total, m, htotal, hm, howned, ?_⟩
  simp only [collectStabilityFeeHandler, hload, hposition, haccount, h.mint, h.owner, h.caller,
    require, h.fee, hfee, hadd, Option.okOr, if_true, if_false, bind, Except.bind]
  rfl

/-- Somebody who is neither the owner nor a permanent delegate needs an allowance. -/
theorem authorizes_iff {authority : Pubkey} {n : UInt64} (hm : m.permanentDelegate = none)
    (ho : b.owner ≠ authority) :
    b.authorizes m authority n = true ↔
      b.delegate = some authority ∧ n.toNat ≤ b.delegatedAmount.toNat := by
  rw [TokenAccount.authorizes, hm, ← UInt64.le_iff_toNat_le]
  by_cases hd : b.delegate = some authority
  · simp [hd]
  · simp [hd, ho]

/-- The debtor signs, and the config does not. -/
theorem Payable.owner_ne (h : Payable clock s a c p b) (hk : Kept s) :
    b.owner ≠ .stablecoinConfig a.sssMint := by
  obtain ⟨hsign, -⟩ := hk.opened _ _ _ h.position
  rw [h.owner]
  intro heq
  rw [heq] at hsign
  cases hsign

/-- A collection that takes what is due takes nothing, or was delegated. -/
theorem Payable.delegated_of_collects (h : Payable clock s a c p b) (hk : Kept s)
    (hcollects : Collects rt clock s a (p.due c.stabilityFeeBps clock.unixTimestamp)) :
    c.paused = false ∧ (p.due c.stabilityFeeBps clock.unixTimestamp = 0 ∨
      Delegated clock a c p b) := by
  obtain ⟨total, m, htotal, hm, howned, heq⟩ := h.collect_eq rt hk
  obtain ⟨s', b₁, b', m₁, m', hok, hb₁, hb', hamount, -⟩ := hcollects
  cases h.account.symm.trans hb₁
  simp only [heq, CollectStabilityFee.charge, bind_eq_ok,
    StablecoinConfig.requireNotPaused_eq_ok] at hok
  obtain ⟨-, hrun, hok⟩ := hok
  refine ⟨hrun, ?_⟩
  split at hok
  · -- no time has passed, and nothing is taken
    cases hok
    cases h.account.symm.trans hb'
    exact .inl (by omega)
  next helapsed =>
    split at hok
    next hzero =>
      rw [← htotal, hzero]
      exact .inl rfl
    · simp only [bind_eq_ok, Option.okOr_eq_ok, StablecoinConfig.addBurned_eq_ok] at hok
      obtain ⟨t, ht, -, ⟨x, hx, -⟩, -⟩ := hok
      obtain ⟨m₂, b₂, hm₂, hb₂, -, hfrozen, hauth, -⟩ := rt.token.burn_ok ht
      cases hm.symm.trans hm₂
      cases h.account.symm.trans hb₂
      obtain ⟨hdelegate, hle⟩ :=
        (authorizes_iff howned.permanentDelegate (h.owner_ne hk)).mp hauth
      have hlt := x.toNat_lt
      exact .inr
        { elapsed := Nat.pos_of_ne_zero helapsed
          unfrozen := hfrozen
          delegate := hdelegate
          allowance := htotal ▸ hle
          room := by omega }

/-- Nothing is due, and nothing is taken. -/
theorem Payable.collects_zero (h : Payable clock s a c p b) (hk : Kept s)
    (hrun : c.paused = false) (hdue : p.due c.stabilityFeeBps clock.unixTimestamp = 0) :
    Collects rt clock s a 0 := by
  obtain ⟨total, m, htotal, hm, -, heq⟩ := h.collect_eq rt hk
  have hzero : total = 0 := UInt64.toNat_inj.mp (htotal.trans hdue)
  have hok : ∃ s', a.charge rt clock.unixTimestamp s c p total = .ok s' ∧
      s'.tokens = s.tokens := by
    simp only [CollectStabilityFee.charge, bind_eq_ok, StablecoinConfig.requireNotPaused_eq_ok]
    by_cases helapsed : p.elapsedSecs clock.unixTimestamp = 0
    · refine ⟨s, ⟨(), hrun, ?_⟩, rfl⟩
      rw [if_pos helapsed]
      rfl
    · refine ⟨{ s with
        cdpPositions := put s.cdpPositions (.cdpPosition a.sssMint a.debtor)
          (p.settled clock.unixTimestamp) }, ⟨(), hrun, ?_⟩, rfl⟩
      rw [if_neg helapsed, if_pos hzero]
      rfl
  obtain ⟨s', hok, htokens⟩ := hok
  exact ⟨s', b, b, m, m, heq.trans hok, h.account, by rw [htokens, h.account], rfl, hm,
    by rw [htokens, hm], rfl⟩

/-- The delegate burns what is due. -/
theorem Payable.collects_of_delegated (h : Payable clock s a c p b) (hk : Kept s)
    (hrun : c.paused = false) (hd : Delegated clock a c p b) :
    Collects rt clock s a (p.due c.stabilityFeeBps clock.unixTimestamp) := by
  by_cases hdue : p.due c.stabilityFeeBps clock.unixTimestamp = 0
  · rw [hdue]
    exact h.collects_zero hk hrun hdue
  obtain ⟨total, m, htotal, hm, howned, heq⟩ := h.collect_eq rt hk
  have hnonzero : total ≠ 0 := fun hzero => hdue (by rw [← htotal, hzero]; rfl)
  have hamount : total ≤ b.amount := UInt64.le_iff_toNat_le.mpr (htotal ▸ h.held)
  have hsupply : total ≤ m.supply := by
    have hle := hk.sound.amount_le h.account (by rw [h.mint]; exact hm)
    exact UInt64.le_trans hamount (UInt64.le_iff_toNat_le.mpr hle)
  have hauth : b.authorizes m (.stablecoinConfig a.sssMint) total = true :=
    (authorizes_iff howned.permanentDelegate (h.owner_ne hk)).mpr
      ⟨hd.delegate, htotal ▸ hd.allowance⟩
  have hburn := rt.token.burn_plain hm howned.plain h.account (h.owner_ne hk)
    ⟨m, b, hm, h.account, h.mint, hd.unfrozen, hauth, hamount, hsupply, rfl⟩
  obtain ⟨x, hx⟩ : ∃ x : UInt64, x.toNat = c.totalBurned.toNat + total.toNat :=
    ⟨.ofNat (c.totalBurned.toNat + total.toNat),
      UInt64.toNat_ofNat_of_lt' (by rw [htotal]; exact hd.room)⟩
  have hok : ∃ s', a.charge rt clock.unixTimestamp s c p total = .ok s' ∧
      some s'.tokens = rt.token.burn s.tokens a.sssMint a.debtorSssAccount
        (.stablecoinConfig a.sssMint) total := by
    simp only [CollectStabilityFee.charge, bind_eq_ok, StablecoinConfig.requireNotPaused_eq_ok,
      if_neg hd.elapsed.ne', if_neg hnonzero, Option.okOr_eq_ok,
      StablecoinConfig.addBurned_eq_ok, pure_eq_ok]
    exact ⟨_, ⟨(), hrun, _, hburn, _, ⟨x, hx, rfl⟩, rfl⟩, hburn.symm⟩
  obtain ⟨s', hok, htokens⟩ := hok
  rw [hburn, Option.some.injEq] at htokens
  refine ⟨s', b, b.debit m (.stablecoinConfig a.sssMint) total, m,
    { m with supply := m.supply - total }, heq.trans hok, h.account, ?_, ?_, hm, ?_, ?_⟩
  · rw [htokens]
    exact put_self ..
  · rw [TokenAccount.debit_amount, toNat_sub_of_le hamount, ← htotal]
    have := UInt64.le_iff_toNat_le.mp hamount
    omega
  · rw [htokens]
    exact put_self ..
  · rw [toNat_sub_of_le hsupply, ← htotal]
    have := UInt64.le_iff_toNat_le.mp hsupply
    omega

/-- In every state that a run reaches, the fee of a position is collected from an account that
holds it exactly when the config is not paused and nothing is due or the owner has delegated the
account to the config. -/
theorem stability_fee_collection {s₀ : State} {as : List Action} (hs : Genesis s₀)
    (hsound : s₀.tokens.Sound) (h : Payable clock (run rt s₀ as) a c p b) :
    Collects rt clock (run rt s₀ as) a (p.due c.stabilityFeeBps clock.unixTimestamp) ↔
      c.paused = false ∧ (p.due c.stabilityFeeBps clock.unixTimestamp = 0 ∨
        Delegated clock a c p b) := by
  have hk : Kept (run rt s₀ as) := (hs.kept hsound).run as
  constructor
  · exact h.delegated_of_collects hk
  · rintro ⟨hrun, hdue | hd⟩
    · rw [hdue]
      exact h.collects_zero hk hrun hdue
    · exact h.collects_of_delegated hk hrun hd

namespace Market

/-- A loan of 100 at 20% a year. -/
def charged : List Action :=
  deposited 1000 ++ timelocked adminOpSetStabilityFee 2000 1 ++ [publish 1 3, borrow 100 3]

def collect : CollectStabilityFee :=
  { caller := authority, sssMint := mint.key, debtor := user.key
    debtorSssAccount := userStable.key }

theorem genesis_sound : genesis.tokens.Sound where
  mint _ _ h := nomatch h
  bounded _ _ h := nomatch h

/-- The user's 100, with what is delegated of them. -/
def loan (delegate : Option Pubkey) (delegatedAmount : UInt64) : TokenAccount :=
  { mint := mint.key, owner := user.key, amount := 100, delegate, delegatedAmount
    frozen := false }

/-- A year after the loan 20 are due, and the user still holds 100. -/
theorem collect_payable {s : State} (delegate : Option Pubkey) (allowance : UInt64)
    (hc : (s.configs config).map (fun c =>
      (c.stabilityFeeBps, c.mayCollect authority.key, c.paused, c.totalBurned)) =
        some (2000, true, false, 0))
    (hp : (s.cdpPositions (.cdpPosition mint.key user.key)).map (fun p =>
      (p.due 2000 (day 368).unixTimestamp, p.elapsedSecs (day 368).unixTimestamp)) =
        some (20, 31536000))
    (hb : s.tokens.accounts userStable.key = some (loan delegate allowance)) :
    ∃ c p, Payable (day 368) s collect c p (loan delegate allowance) ∧ c.paused = false ∧
      p.due c.stabilityFeeBps (day 368).unixTimestamp = 20 ∧
      (delegate = some config → 20 ≤ allowance.toNat →
        Delegated (day 368) collect c p (loan delegate allowance)) := by
  obtain ⟨c, hc, heq⟩ := Option.map_eq_some_iff.mp hc
  obtain ⟨p, hp, heq'⟩ := Option.map_eq_some_iff.mp hp
  simp only [Prod.mk.injEq] at heq heq'
  obtain ⟨hfee, hcaller, hrun, hburned⟩ := heq
  obtain ⟨hdue, helapsed⟩ := heq'
  rw [← hfee] at hdue
  refine ⟨c, p, ?_, hrun, hdue, ?_⟩
  · exact
      { config := hc
        fee := by rw [hfee]; decide
        caller := hcaller
        position := hp
        account := hb
        mint := rfl
        owner := rfl
        held := hdue.trans_le (show 20 ≤ (100 : UInt64).toNat by decide) }
  · rintro rfl hle
    exact
      { elapsed := by rw [helapsed]; decide
        unfrozen := rfl
        delegate := rfl
        allowance := by rwa [hdue]
        room := by rw [hburned, hdue]; decide }

end Market

open Market in
/-- The user approves the config for 20, and 20 are collected. -/
theorem stability_fee_collection_delegated :
    Collects localRuntime (day 368) (run localRuntime genesis
      (charged ++ [.world (.approve user userStable.key config 20)])) collect 20 := by
  obtain ⟨c, p, hpay, hrun, hdue, hd⟩ := collect_payable
    (s := run localRuntime genesis (charged ++ [.world (.approve user userStable.key config 20)]))
    (some config) 20 (by decide +kernel) (by decide +kernel) (by decide +kernel)
  have hiff := stability_fee_collection genesis_genesis genesis_sound hpay
  rw [hdue] at hiff
  exact hiff.mpr ⟨hrun, .inr (hd rfl (by decide))⟩

open Market in
/-- Nobody has approved the config: the fee is held and due, and not collected. -/
theorem stability_fee_uncollectible :
    ∃ c p b, Genesis genesis ∧ genesis.tokens.Sound ∧
      Payable (day 368) (run localRuntime genesis charged) collect c p b ∧ c.paused = false ∧
      p.due c.stabilityFeeBps (day 368).unixTimestamp = 20 ∧
      (collectStabilityFeeHandler localRuntime (day 368) (run localRuntime genesis charged)
        collect).isOk = false := by
  obtain ⟨c, p, hpay, hrun, hdue, -⟩ := collect_payable (s := run localRuntime genesis charged)
    none 0 (by decide +kernel) (by decide +kernel) (by decide +kernel)
  exact ⟨c, p, _, genesis_genesis, genesis_sound, hpay, hrun, hdue, by decide +kernel⟩

end SolanaStablecoin
