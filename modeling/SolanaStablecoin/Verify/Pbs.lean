import SolanaStablecoin.Base.Payout
import SolanaStablecoin.Verify.Policy
import SolanaStablecoin.Verify.Step

/-! Payments on proof over whole runs: a vault pays out what was committed, once, and to whom the
proof and the expiry entitle. -/

namespace SolanaStablecoin

open Transition

variable {rt : Runtime} {clock : Clock} {s s' : State} {a : Action} {k : Pubkey}
  {v v' : ProbabilisticVault}

/-! ## Payments -/

inductive Payee where
  | claimant
  | issuer
deriving DecidableEq

def ProbabilisticVault.keyOf (v : ProbabilisticVault) : Payee → Pubkey
  | .claimant => v.claimant
  | .issuer => v.issuer

/-- What is left in the vault. -/
def State.vaultRemaining (s : State) (k : Pubkey) : UInt64 :=
  (s.probabilisticVaults k).elim 0 (·.remaining)

/-- What a transaction pays out of the vault `k` when it succeeds. -/
def vaultPayments (k : Pubkey) (s : State) : Action → List (Payment Payee)
  | .call _ (.proveAndResolve b _) =>
    if b.vault = k then [⟨.claimant, s.vaultRemaining k⟩] else []
  | .call _ (.partialResolve b n _) =>
    if b.vault = k then [⟨.claimant, n⟩, ⟨.issuer, (s.vaultRemaining k).saturatingSub n⟩] else []
  | .call _ (.expireAndRefund b) =>
    if b.vault = k then [⟨.issuer, s.vaultRemaining k⟩] else []
  | _ => []

/-- The calls that pay out of a vault. -/
inductive VaultCall (rt : Runtime) (clock : Clock) (k : Pubkey) (v : ProbabilisticVault) :
    Instruction → List (Payment Payee) → Prop where
  | prove {b : Resolve} {proof : BitVec 256} (vault : b.vault = k)
    (claimant : b.claimant.key = v.claimant) (accepts : rt.blake3 proof = v.conditionHash) :
    VaultCall rt clock k v (.proveAndResolve b proof) [⟨.claimant, v.committedAmount⟩]
  | partly {b : Resolve} {proof : BitVec 256} {n rest : UInt64} (vault : b.vault = k)
    (claimant : b.claimant.key = v.claimant) (accepts : rt.blake3 proof = v.conditionHash)
    (split : n.toNat + rest.toNat = v.committedAmount.toNat) :
    VaultCall rt clock k v (.partialResolve b n proof) [⟨.claimant, n⟩, ⟨.issuer, rest⟩]
  | expire {b : ExpireAndRefund} (vault : b.vault = k) (expired : v.expirySlot ≤ clock.slot) :
    VaultCall rt clock k v (.expireAndRefund b) [⟨.issuer, v.committedAmount⟩]

/-- A vault as an account that is paid out once. -/
def pbs : Payout ProbabilisticVault ProbabilisticVault (Payment Payee) where
  closed v := v.isTerminal
  terms v := { v with resolvedAmount := 0, status := .pending }
  held v := v.committedAmount.toNat
  amount p := p.amount.toNat
  intact v := v.resolvedAmount = 0

theorem ProbabilisticVault.remaining_of_intact (h : v.resolvedAmount = 0) :
    v.remaining = v.committedAmount := by
  apply UInt64.toNat_inj.mp
  rw [remaining, h, UInt64.toNat_saturatingSub]
  exact Nat.sub_zero _

theorem VaultCall.total {i : Instruction} {ps : List (Payment Payee)}
    (h : VaultCall rt clock k v i ps) :
    pbs.total ps = v.committedAmount.toNat := by
  cases h with
  | prove | expire => exact Nat.add_zero _
  | partly _ _ _ hsplit => exact hsplit

/-! ## The calls -/

theorem OpenVault.vaultRemaining_eq {mint escrow : Pubkey} (h : OpenVault s k mint escrow v) :
    s.vaultRemaining k = v.remaining := by
  rw [State.vaultRemaining, h.vault]
  rfl

theorem OpenVault.vaultRemaining {mint escrow : Pubkey} (h : OpenVault s k mint escrow v)
    (hintact : v.resolvedAmount = 0) : s.vaultRemaining k = v.committedAmount :=
  h.vaultRemaining_eq.trans (ProbabilisticVault.remaining_of_intact hintact)

theorem OpenVault.source {mint escrow : Pubkey} (h : OpenVault s k mint escrow v) :
    s.Account escrow v.stableMint k := h.mint_eq ▸ h.escrow

/-- The successful instructions of the escrows leave a vault as it is, or pay it out. -/
inductive VaultEffect (rt : Runtime) (clock : Clock) (s : State) (k : Pubkey) (i : Instruction)
    (t : Tokens) (x : Option ProbabilisticVault) : Prop where
  | same (idle : vaultPayments k s (.call clock i) = []) (vault : x = s.probabilisticVaults k)
  | committed {v : ProbabilisticVault} (idle : vaultPayments k s (.call clock i) = [])
    (free : s.probabilisticVaults k = none) (vault : x = some v) (live : v.isTerminal = false)
    (intact : v.resolvedAmount = 0)
  | paid {v v' : ProbabilisticVault} (stored : s.probabilisticVaults k = some v)
    (vault : x = some v') (live : v.isTerminal = false) (closed : v'.isTerminal = true)
    (terms : pbs.terms v' = pbs.terms v)
    (call : v.resolvedAmount = 0 → VaultCall rt clock k v i (vaultPayments k s (.call clock i)))
    (moved : PaidOut rt s k v.stableMint v.keyOf s.tokens (vaultPayments k s (.call clock i)) t)

namespace VaultEffect

variable {i : Instruction} {t : Tokens} {x : Option ProbabilisticVault}

/-- A call that writes the vault `key` pays nothing out of another one. -/
theorem of_put {key : Pubkey} (hother : key ≠ k → vaultPayments k s (.call clock i) = [])
    (h : key = k → VaultEffect rt clock s k i t (some v')) :
    VaultEffect rt clock s k i t (put s.probabilisticVaults key v' k) := by
  by_cases hk : key = k
  · subst hk
    rw [put_self]
    exact h rfl
  · exact .same (hother hk) (put_of_ne _ _ (Ne.symm hk))

theorem step (h : VaultEffect rt clock s k i t x) :
    pbs.Step (s.probabilisticVaults k) (vaultPayments k s (.call clock i)) x := by
  cases h with
  | same idle vault =>
    rw [idle, vault]
    exact .refl _
  | committed idle free vault live intact =>
    rw [idle, free, vault]
    exact .opened live intact
  | paid stored vault live closed terms call =>
    rw [stored, vault]
    exact .paid live closed (fun hintact => (call hintact).total) terms

end VaultEffect

theorem EscrowCall.vaultEffect {i : Instruction} {t : Tokens} {e : Escrows}
    (h : EscrowCall rt clock s i t e) :
    VaultEffect rt clock s k i t (e.probabilisticVaults k) := by
  cases h with
  | submit | propose | dispute | openChannel | countersign | forceClose | resolve =>
    exact .same rfl rfl
  | commit free =>
    apply VaultEffect.of_put fun _ => rfl
    rintro rfl
    exact .committed rfl free rfl rfl rfl
  | @prove b proof v _ vault claimant accepts target _ paid =>
    refine .of_put (fun hne => if_neg hne) ?_
    rintro rfl
    have hpayments : vaultPayments b.vault s (.call clock (.proveAndResolve b proof)) =
      [⟨.claimant, s.vaultRemaining b.vault⟩] := if_pos rfl
    refine .paid vault.vault rfl vault.live rfl rfl ?_ ?_
    · intro hintact
      rw [hpayments, vault.vaultRemaining hintact]
      exact .prove rfl claimant.symm accepts
    · rw [hpayments, vault.vaultRemaining_eq]
      exact .cons vault.source (vault.mint_eq ▸ target) (vault.mint_eq ▸ paid) .nil
  | @partly b proof n resolved v t₁ t' vault claimant accepts target change amount within _ paid
      returned =>
    refine .of_put (fun hne => if_neg hne) ?_
    rintro rfl
    have hpayments : vaultPayments b.vault s (.call clock (.partialResolve b n proof)) =
      [⟨.claimant, n⟩, ⟨.issuer, (s.vaultRemaining b.vault).saturatingSub n⟩] := if_pos rfl
    refine .paid vault.vault rfl vault.live rfl rfl ?_ ?_
    · intro hintact
      rw [ProbabilisticVault.remaining_of_intact hintact] at within
      rw [hpayments, vault.vaultRemaining hintact]
      refine .partly rfl claimant.symm accepts ?_
      rw [UInt64.toNat_saturatingSub]
      exact Nat.add_sub_cancel' within
    · rw [hpayments, vault.vaultRemaining_eq]
      exact .cons vault.source (vault.mint_eq ▸ target) (vault.mint_eq ▸ paid) <|
        .cons vault.source (vault.mint_eq ▸ change) (vault.mint_eq ▸ returned) .nil
  | @expire b v _ vault expired target _ paid =>
    refine .of_put (fun hne => if_neg hne) ?_
    rintro rfl
    have hpayments : vaultPayments b.vault s (.call clock (.expireAndRefund b)) =
      [⟨.issuer, s.vaultRemaining b.vault⟩] := if_pos rfl
    refine .paid vault.vault rfl vault.live rfl rfl ?_ ?_
    · intro hintact
      rw [hpayments, vault.vaultRemaining hintact]
      exact .expire rfl expired
    · rw [hpayments, vault.vaultRemaining_eq]
      exact .cons vault.source (vault.mint_eq ▸ target) (vault.mint_eq ▸ paid) .nil

/-! ## Runs -/

/-- A transaction that succeeds and pays out of a vault is a call of one of the three
instructions; every transaction is a step of the vault. -/
theorem exec_vaultEffect (h : Action.exec rt s a = .ok s') :
    vaultPayments k s a = [] ∧ s'.probabilisticVaults k = s.probabilisticVaults k ∨
      ∃ clock i, a = .call clock i ∧
        VaultEffect rt clock s k i s'.tokens (s'.probabilisticVaults k) := by
  rcases (exec_step h).escrows with hsame | ⟨clock, i, rfl, hdisburses⟩
  · have hvault : s'.probabilisticVaults k = s.probabilisticVaults k :=
      congrFun (congrArg Escrows.probabilisticVaults hsame) k
    cases a with
    | world w => exact .inl ⟨rfl, hvault⟩
    | call clock i =>
      cases i with
      | proveAndResolve =>
        exact .inr ⟨clock, _, rfl, (proveAndResolveHandler_ok h).call.vaultEffect⟩
      | partialResolve =>
        exact .inr ⟨clock, _, rfl, (partialResolveHandler_ok h).call.vaultEffect⟩
      | expireAndRefund =>
        exact .inr ⟨clock, _, rfl, (expireAndRefundHandler_ok h).call.vaultEffect⟩
      | _ => exact .inl ⟨rfl, hvault⟩
  · exact .inr ⟨clock, i, rfl, hdisburses.call.vaultEffect⟩

theorem pbs_models (rt : Runtime) (k : Pubkey) :
    pbs.Models (Action.exec rt) (fun s => s.probabilisticVaults k) (vaultPayments k) := by
  intro s s' a h
  rcases exec_vaultEffect (k := k) h with ⟨hpayments, hvault⟩ | ⟨clock, i, rfl, heffect⟩
  · rw [hpayments]
    change pbs.Step (s.probabilisticVaults k) [] (s'.probabilisticVaults k)
    rw [hvault]
    exact .refl _
  · exact heffect.step

/-- The terms that a vault was committed with. -/
structure SameCommitment (v v' : ProbabilisticVault) : Prop where
  issuer : v'.issuer = v.issuer
  claimant : v'.claimant = v.claimant
  stableMint : v'.stableMint = v.stableMint
  committedAmount : v'.committedAmount = v.committedAmount
  conditionHash : v'.conditionHash = v.conditionHash
  expirySlot : v'.expirySlot = v.expirySlot

theorem sameCommitment_of_terms (h : pbs.terms v' = pbs.terms v) : SameCommitment v v' where
  issuer := (congrArg ProbabilisticVault.issuer h :)
  claimant := (congrArg ProbabilisticVault.claimant h :)
  stableMint := (congrArg ProbabilisticVault.stableMint h :)
  committedAmount := (congrArg ProbabilisticVault.committedAmount h :)
  conditionHash := (congrArg ProbabilisticVault.conditionHash h :)
  expirySlot := (congrArg ProbabilisticVault.expirySlot h :)

theorem SameCommitment.keyOf (h : SameCommitment v v') : v'.keyOf = v.keyOf := by
  funext p
  cases p with
  | claimant => exact h.claimant
  | issuer => exact h.issuer

theorem VaultCall.of_same {i : Instruction} {ps : List (Payment Payee)}
    (h : VaultCall rt clock k v i ps) (hsame : SameCommitment v v') :
    VaultCall rt clock k v' i ps := by
  cases h with
  | prove vault claimant accepts =>
    rw [← hsame.committedAmount]
    exact .prove vault (claimant.trans hsame.claimant.symm) (accepts.trans hsame.conditionHash.symm)
  | partly vault claimant accepts split =>
    rw [← hsame.committedAmount] at split
    exact .partly vault (claimant.trans hsame.claimant.symm)
      (accepts.trans hsame.conditionHash.symm) split
  | expire vault expired =>
    rw [← hsame.committedAmount]
    exact .expire vault (hsame.expirySlot ▸ expired)

/-- What a run has paid out of the vault `k`, which ends as `v`. -/
structure VaultAccounts (rt : Runtime) (s : State) (as : List Action) (k : Pubkey)
    (v : ProbabilisticVault) : Prop where
  within : pbs.total (history (Action.exec rt) (vaultPayments k) s as) ≤ v.committedAmount.toNat
  whole : v.isTerminal = true →
    pbs.total (history (Action.exec rt) (vaultPayments k) s as) = v.committedAmount.toNat
  settled : v.isTerminal = true → ∀ bs,
    (run rt s (as ++ bs)).probabilisticVaults k = some v ∧
      history (Action.exec rt) (vaultPayments k) s (as ++ bs) =
        history (Action.exec rt) (vaultPayments k) s as
  calls : ∀ init a tail s', as = init ++ a :: tail → Action.exec rt (run rt s init) a = .ok s' →
    vaultPayments k (run rt s init) a ≠ [] →
    ∃ clock i, a = .call clock i ∧
      VaultCall rt clock k v i (vaultPayments k (run rt s init) a) ∧
      PaidOut rt (run rt s init) k v.stableMint v.keyOf (run rt s init).tokens
        (vaultPayments k (run rt s init) a) s'.tokens

/-- A vault pays out what was committed, once: to the claimant who presents a proof, and what the
claimant then leaves to the issuer; or to the issuer after the expiry. -/
theorem pbs_conserved (as : List Action) (hs : s.probabilisticVaults k = none)
    (hv : (run rt s as).probabilisticVaults k = some v) : VaultAccounts rt s as k v := by
  have hbalanced := Payout.balanced_run (pbs_models rt k) as hs
  change pbs.Balanced ((run rt s as).probabilisticVaults k) _ at hbalanced
  rw [hv] at hbalanced
  refine ⟨hbalanced.total_le, hbalanced.total_eq, ?_, ?_⟩
  · intro hclosed bs
    obtain ⟨hrun, hhistory⟩ := Payout.closed_run (pbs_models rt k) bs hv hclosed
    rw [run, run_append, history_append]
    refine ⟨hrun, ?_⟩
    exact (congrArg _ hhistory).trans (List.append_nil _)
  · rintro init a tail s' rfl hexec hpays
    obtain ⟨v₀, hv₀, hintact, hterms⟩ := Payout.paid_along (pbs_models rt k) hs hexec hpays hv
    have hsame := sameCommitment_of_terms hterms
    rcases exec_vaultEffect (k := k) hexec with ⟨hnone, -⟩ | ⟨clock, i, rfl, heffect⟩
    · exact absurd hnone hpays
    · cases heffect with
      | same hnone | committed hnone => exact absurd hnone hpays
      | paid stored _ _ _ _ call moved =>
        cases hv₀.symm.trans stored
        rw [← hsame.stableMint, ← hsame.keyOf] at moved
        exact ⟨clock, i, rfl, (call hintact).of_same hsame, moved⟩

namespace Market

/-- The escrow of a vault. -/
def vaultEscrow : Signer := ⟨.key 81, rfl⟩

def vault : Pubkey := .pbsVault config 1

/-- The user commits 100 until day 3. -/
def committed : List Action :=
  featured flagProbabilisticMoney ++
    [ .world (.createAccount vaultEscrow mint.key vault),
      thaw vaultEscrow,
      .call (day 1) (.commitProbabilistic
        { issuer := user, stableMint := mint.key, escrowTokenAccount := vaultEscrow.key
          issuerTokenAccount := userStable.key }
        { amount := 100, conditionHash := blake3OfZeros, expirySlot := (day 3).slot
          commitmentId := 1, claimant := other.key }) ]

/-- The other user, who knows the secret, takes 40. -/
def takePart : Instruction :=
  .partialResolve
    { claimant := other, vault, stableMint := mint.key, escrowTokenAccount := vaultEscrow.key
      claimantTokenAccount := otherStable.key, issuerTokenAccount := userStable.key } 40 0

end Market

open Market in
/-- Before the expiry, the issuer gets what the claimant leaves. -/
theorem issuer_paid_before_expiry :
    ∃ v s', (run localRuntime genesis committed).probabilisticVaults vault = some v ∧
      Action.exec localRuntime (run localRuntime genesis committed) (.call (day 2) takePart) =
        .ok s' ∧
      (day 2).slot < v.expirySlot ∧
      ⟨.issuer, 60⟩ ∈
        vaultPayments vault (run localRuntime genesis committed) (.call (day 2) takePart) := by
  have hslot : ((run localRuntime genesis committed).probabilisticVaults vault).map
      (·.expirySlot) = some (day 3).slot := by
    decide +kernel
  obtain ⟨v, hv, hslot⟩ := Option.map_eq_some_iff.mp hslot
  obtain ⟨s', hs'⟩ := isOk_iff.mp (show (Action.exec localRuntime
    (run localRuntime genesis committed) (.call (day 2) takePart)).isOk = true by decide +kernel)
  refine ⟨v, s', hv, hs', ?_, ?_⟩
  · rw [hslot]
    decide
  · decide +kernel

open Market in
theorem taken_pbs_conserved :
    ∃ v, VaultAccounts localRuntime genesis (committed ++ [.call (day 2) takePart]) vault v := by
  have hv : ((run localRuntime genesis (committed ++ [.call (day 2) takePart])).probabilisticVaults
      vault).isSome := by
    decide +kernel
  obtain ⟨v, hv⟩ := Option.isSome_iff_exists.mp hv
  exact ⟨v, pbs_conserved _ rfl hv⟩

end SolanaStablecoin
