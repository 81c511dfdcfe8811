import SolanaStablecoin.Program.Token2022
import SolanaStablecoin.Verify.Footprint
import SolanaStablecoin.Verify.Holdings

/-! Who signs. The program passes on the signatures of its transactions and adds those of the
addresses that it derives, and nobody else's: whatever leaves a token account leaves it with the
signature of its owner. -/

namespace SolanaStablecoin

open Transition

def Presented.signers : Presented → List Pubkey
  | signed u => [u.key]
  | unsigned _ => []

/-- What is derived from the mint of a config. -/
def Pubkey.ofMint (config : Pubkey) (derive : Pubkey → Pubkey) : List Pubkey :=
  match config with
  | stablecoinConfig m => [derive m]
  | _ => []

theorem Pubkey.mem_ofMint {config m : Pubkey} {derive : Pubkey → Pubkey}
    (h : config = .stablecoinConfig m) : derive m ∈ config.ofMint derive := by
  rw [h]
  exact List.mem_cons_self

namespace Instruction

/-- The addresses that have signed the transaction. -/
def signers : Instruction → List Pubkey
  | initializeStablecoin a _ => [a.payer.key, a.mint.key]
  | updateMinter a _ | revokeMinter a | setMintVelocityLimit a _ => [a.authority.key]
  | pause a _ | setFeatureFlag a _ | clearFeatureFlag a _ | proposeTimelockedOp a _ _ _
  | executeTimelockedOp a | cancelTimelockedOp a | setPythFeed a _ | setOracleParams a _ _
  | setOracleConfig a _ _ | initCustomPriceFeed a | updateCustomPrice a _ _ _
  | initInterfaceVersion a | initMarketMakerConfig a _ _ _ | registerMarketMaker a _
  | initBridgeConfig a _ _ _ _ _ | updateRoles a _ | proposeAuthorityRotation a _ _
  | cancelAuthorityRotation a | initSquadsAuthority a _ | setWalletRateLimit a _
  | removeWalletRateLimit a _ | initializeExtraAccountMetaList a | migrateHookExtraAccounts a
  | blacklistAdd a _ | blacklistRemove a _ | setSpendLimit a _ | clearSpendLimit a
  | initZkCompliance a _ _ | closeVerificationRecord a _ | setPsmFee a _ | initYieldCollateral a _
  | addYieldCollateralMint a _ | initDaoCommittee a _ _ | initGuardianConfig a _ _
  | initOracleConsensus a _ _ _ | setOracleSource a _ _ _ | removeOracleSource a _ =>
    [a.authority.key]
  | freezeAccount a | thawAccount a | blacklistAddAndFreeze a _ _ => [a.complianceAuthority.key]
  | setStabilityFee a _ | addAuthorizedKeeper a _ | removeAuthorizedKeeper a _
  | initPsmCurveConfig a _ _ _ | updatePsmCurveConfig a _ _ _ | initRedemptionQueue a
  | updateRedemptionQueue a _ _ _ _ | registerRedemptionPool a _ _ | initCredentialRegistry a _
  | initKeeperConfig a _ | setTravelRuleThreshold a _ | setSanctionsOracle a _ _
  | clearSanctionsOracle a | registerLegalEntity a _ | updateLegalEntity a _ | initPidConfig a _
  | initLiquidationBonusConfig a _ | updateLiquidationBonusConfig a _
  | updateReserveComposition a _ | setUpgradeAuthorityGuard a _ => [a.authority.key]
  | mint a _ | cpiMint a _ _ => [a.minter.key]
  | burn a _ | cpiBurn a _ _ => [a.minter.key]
  | updateInterfaceVersion a _ _ => [a.authority.key]
  | mmMint a _ | mmBurn a _ => [a.marketMaker.key]
  | bridgeOut a _ => [a.sender.key]
  | bridgeIn a _ _ _ _ => [a.relayer.key]
  | registerCollateral a _ | updateCollateralConfig a _ => [a.authority.key]
  | cdpDepositCollateral a _ => [a.user.key]
  | cdpBorrowStable a _ => [a.user.key]
  | cdpRepayStable a _ => [a.user.key]
  | cdpLiquidate a _ _ | cdpLiquidateV2 a _ _ => [a.liquidator.key]
  | collectStabilityFee a => [a.caller.key]
  | depositCollateral a _ => [a.depositor.key]
  | redeem a _ | psmDynamicSwap a _ => [a.redeemer.key]
  | seedRedemptionPool a _ _ _ => [a.authority.key]
  | instantRedemption a _ => [a.user.key]
  | replenishRedemptionPool a _ => [a.replenisher.key]
  | drainRedemptionPool a => [a.authority.key]
  | enqueueRedemption a _ => [a.user.key]
  | processRedemption a _ => [a.keeper.key, a.reserveVaultAuthority.key]
  | cancelRedemption a _ => [a.owner.key]
  | compactRedemptionHead .. => []
  | requestRedemption a _ => [a.user.key]
  | fulfillRedemption a => [a.fulfiller.key]
  | claimExpiredRedemption a => [a.user.key]
  | acceptAuthority a | acceptComplianceAuthority a => [a.pending.key]
  | acceptAuthorityRotation a | emergencyRecoverAuthority a => [a.successor.key]
  | migrateConfig a => [a.authority.key]
  | rotateCredentialRoot a _ => [a.issuer.key]
  | verifyZkCredential a _ _ => [a.issuer.key, a.holder.key]
  | revokeCredential a => [a.issuer.key]
  | closeCredentialRecord a => [a.holder.key]
  | updateWalletRateLimit a _ _ => if a.isSigner then [a.caller] else []
  | crankCircuitBreaker a | crankUnpause a => [a.caller.key]
  | transferHook .. => []
  | submitTravelRuleRecord a _ _ _ _ => [a.originatorVaspSigner.key]
  | closeTravelRuleRecord a _ => [a.originatorVaspSigner.key]
  | updateSanctionsRecord a _ _ | closeSanctionsRecord a _ => [a.oracle.key]
  | submitZkProof a => a.user.key :: (a.verifier.map Signer.key).toList
  | attestLegalEntity a => [a.attestor.key]
  | updateStabilityFeePid a _ => [a.caller.key]
  | initProofOfReserves a _ => [a.payer.key, a.authority.key]
  | attestProofOfReserves a _ => [a.attester.key]
  | proposeAction a _ _ _ | voteAction a _ | executeAction a _ | guardianProposePause a _
  | guardianVotePause a _ | guardianLiftPause a => [a.caller.key]
  | setBackstopParams a _ _ | initInsuranceVault a _ _ _ => [a.authority.key]
  | triggerBackstop a => [a.liquidationAuthority.key, a.insuranceFundAuthority.key]
  | seedInsuranceVault a _ | replenishInsuranceVault a _ => [a.depositor.key]
  | drawInsurance a _ => [a.authority.key]
  | updateOracleConsensus a => [a.keeper.key]
  | commitProbabilistic a _ => [a.issuer.key]
  | proveAndResolve a _ | partialResolve a _ _ => [a.claimant.key]
  | expireAndRefund a => [a.caller.key]
  | openChannel a _ => [a.initiator.key]
  | submitWorkProof a _ _ | proposeSettle a _ | dispute a _ => [a.party.key]
  | countersignSettle a _ => [a.party.key]
  | forceClose a => [a.initiator.key]
  | resolveDispute a _ =>
    a.initiatorSigner.signers ++ a.counterpartySigner.signers ++ a.authority.signers

/-- The addresses that the program derives in the handler to sign with. -/
def derived : Instruction → List Pubkey
  | freezeAccount a | thawAccount a | blacklistAddAndFreeze a _ _ => [.stablecoinConfig a.mint]
  | mint a _ | cpiMint a _ _ => [.stablecoinConfig a.mint]
  | mmMint a _ => [.stablecoinConfig a.mint]
  | bridgeIn a _ _ _ _ => [.stablecoinConfig a.mint]
  | cdpBorrowStable a _ => [.stablecoinConfig a.sssMint]
  | cdpRepayStable a _ => [.collateralVault a.sssMint a.user.key a.collateralMint]
  | cdpLiquidate a _ _ | cdpLiquidateV2 a _ _ =>
    [.collateralVault a.sssMint a.cdpOwner a.collateralMint]
  | collectStabilityFee a => [.stablecoinConfig a.sssMint]
  | redeem a _ | psmDynamicSwap a _ => [.stablecoinConfig a.sssMint]
  | instantRedemption a _ => a.config.ofMint .vaultAuthority
  | drainRedemptionPool a => a.config.ofMint .vaultAuthority
  | enqueueRedemption a _ => [a.config]
  | processRedemption a _ => a.config.ofMint .redemptionQueue
  | cancelRedemption a _ => a.config.ofMint .redemptionQueue
  | requestRedemption a _ => [a.config]
  | fulfillRedemption a => a.config.ofMint .redemptionGuarantee
  | claimExpiredRedemption a => a.config :: a.config.ofMint .redemptionGuarantee
  | drawInsurance a _ => [.insuranceVault a.sssMint]
  | proveAndResolve a _ | partialResolve a _ _ => [a.vault]
  | expireAndRefund a => [a.vault]
  | countersignSettle a _ => [a.channel]
  | forceClose a => [a.channel]
  | resolveDispute a _ => [a.channel]
  | _ => []

/-- The address signs for what the instruction asks of the token program. -/
def May (i : Instruction) (k : Pubkey) : Prop := k ∈ i.signers ∨ k ∈ i.derived

end Instruction

instance Instruction.May.decidable (i : Instruction) (k : Pubkey) : Decidable (i.May k) :=
  inferInstanceAs (Decidable (_ ∨ _))

namespace World

def signers : World → List Pubkey
  | createMint u _ | createAccount u _ _ | mintTo u _ _ _ | transfer u _ _ _ _ | approve u _ _ _
  | setAccountOwner u _ _ | forgePriceFeed u _ | writeAccount u _ => [u.key]
  | publishPythPrice .. => []

end World

namespace Action

def signers : Action → List Pubkey
  | call _ i => i.signers
  | world w => w.signers

def May : Action → Pubkey → Prop
  | call _ i => i.May
  | world w => (· ∈ w.signers)

instance May.decidable : ∀ (a : Action) (k : Pubkey), Decidable (a.May k)
  | call _ i, k => inferInstanceAs (Decidable (i.May k))
  | world w, k => inferInstanceAs (Decidable (k ∈ w.signers))

end Action

/-! ## What a signature can do -/

/-- Where a token account can be opened: at the address of a key, or of an escrow of the queue. -/
def Pubkey.Opens (k : Pubkey) : Prop := k.canSign = true ∨ ∃ M i, k = queueEscrow M i

namespace Tokens

/-- An accepted instruction of the token program that needs the signature of somebody who may give
it, or needs none. -/
inductive SignedMove (may : Pubkey → Prop) (t t' : Tokens) : Prop where
  | mintTo {mint dst authority : Pubkey} {n : UInt64} (signed : may authority)
    (h : t.MintsTo mint dst authority n t')
  | burn {mint src authority : Pubkey} {n : UInt64} (signed : may authority)
    (h : t.Burns mint src authority n t')
  | transfer {src mint dst authority : Pubkey} {n fee : UInt64} (signed : may authority)
    (h : t.Transfers src mint dst authority n fee t')
  | thaw {account mint authority : Pubkey} (signed : may authority)
    (h : t.Thaws account mint authority t')
  | freeze {account mint authority : Pubkey} (signed : may authority)
    (h : t.Freezes account mint authority t')
  | approve {account delegate authority : Pubkey} {n : UInt64} (signed : may authority)
    (h : t.Approves account delegate authority n t')
  | setAccountOwner {account newOwner authority : Pubkey} (signed : may authority)
    (h : t.SetsAccountOwner account newOwner authority t')
  | initializeAccount {account mint owner : Pubkey} (opens : account.Opens)
    (h : t.InitializesAccount account mint owner t')
  | initializeMint {mint : Pubkey} {m : Mint} (h : t.InitializesMint mint m t')

abbrev SignedMoves (may : Pubkey → Prop) : Tokens → Tokens → Prop :=
  Relation.ReflTransGen (SignedMove may)

/-- The mint exists, and nobody signs for all accounts of it. -/
def Plain (t : Tokens) (M : Pubkey) : Prop :=
  ∃ m, t.mints M = some m ∧ m.permanentDelegate = none

variable {may : Pubkey → Prop} {t t' : Tokens} {k M o : Pubkey} {N : Nat}

theorem Plain.undelegated (h : t.Plain M) : t.Undelegated M := by
  obtain ⟨m, hm, hnone⟩ := h
  intro m' hm'
  rw [hm] at hm'
  cases hm'
  exact hnone

theorem Plain.of_keepsMints (h : t.Plain M) (hkeeps : t.KeepsMints t') : t'.Plain M := by
  obtain ⟨m, hm, hnone⟩ := h
  obtain ⟨n, hm'⟩ := hkeeps M m hm
  exact ⟨_, hm', hnone⟩

theorem SignedMove.keepsMints (h : t.SignedMove may t') : t.KeepsMints t' := by
  cases h with
  | mintTo _ h => exact h.keepsMints
  | burn _ h => exact h.keepsMints
  | transfer _ h => exact .of_eq h.mints
  | thaw _ h => obtain ⟨_, _, _, _, _, _, _, rfl⟩ := h; exact .of_eq rfl
  | freeze _ h => obtain ⟨_, _, _, _, _, _, _, rfl⟩ := h; exact .of_eq rfl
  | approve _ h => obtain ⟨_, _, _, _, rfl⟩ := h; exact .of_eq rfl
  | setAccountOwner _ h => obtain ⟨_, _, _, _, rfl⟩ := h; exact .of_eq rfl
  | initializeAccount _ h => obtain ⟨_, _, _, rfl⟩ := h; exact .of_eq rfl
  | initializeMint h => exact h.keepsMints

/-- An account whose owner does not sign is not the one that is written. -/
theorem Holds.setAccount_of_owner {a b : TokenAccount} {account : Pubkey} (h : t.Holds k M o N)
    (ha : t.accounts account = some a) (howner : a.owner ≠ o) :
    (t.setAccount account b).Holds k M o N := by
  obtain ⟨c, hc, hrest⟩ := h
  refine ⟨c, ?_, hrest⟩
  rw [setAccount_accounts, put_of_ne, hc]
  rintro rfl
  rw [ha] at hc
  cases hc
  exact howner hrest.2.1

/-- What an account holds stays while its owner signs nothing. -/
theorem SignedMove.holds (h : t.SignedMove may t') (ho : ¬ may o) (hM : t.Plain M)
    (hk : t.Holds k M o N) : t'.Holds k M o N := by
  have hne {authority : Pubkey} (signed : may authority) : authority ≠ o := by
    rintro rfl
    exact ho signed
  cases h with
  | mintTo _ h => exact h.holds hk
  | burn signed h => exact h.holds_of_ne hk (fun _ => hM.undelegated) (hne signed)
  | transfer signed h => exact h.holds_of_ne hk (fun _ => hM.undelegated) (hne signed)
  | thaw _ h => exact h.holds hk
  | freeze _ h =>
    obtain ⟨m, a, -, ha, -, -, -, rfl⟩ := h
    exact hk.setAccount ha rfl rfl id fun _ => id
  | approve signed h =>
    obtain ⟨a, ha, rfl, -, rfl⟩ := h
    exact hk.setAccount_of_owner ha (hne signed)
  | setAccountOwner signed h =>
    obtain ⟨a, ha, rfl, -, rfl⟩ := h
    exact hk.setAccount_of_owner ha (hne signed)
  | initializeAccount _ h => exact h.holds hk
  | initializeMint h =>
    obtain ⟨-, -, rfl⟩ := h
    exact hk.setMint _

theorem accounts_setAccount_of_none {a b : TokenAccount} {account : Pubkey}
    (ha : t.accounts account = some a) (hk : t.accounts k = none) :
    (t.setAccount account b).accounts k = none := by
  rw [setAccount_accounts, put_of_ne, hk]
  rintro rfl
  rw [hk] at ha
  cases ha

theorem SignedMove.vacant (h : t.SignedMove may t') (hk : ¬ k.Opens)
    (hnone : t.accounts k = none) : t'.accounts k = none := by
  cases h with
  | mintTo _ h =>
    obtain ⟨m, a, -, ha, -, -, -, -, -, rfl⟩ := h
    exact accounts_setAccount_of_none ha hnone
  | burn _ h =>
    obtain ⟨m, a, -, ha, -, -, -, -, -, rfl⟩ := h
    exact accounts_setAccount_of_none ha hnone
  | @transfer src mint dst authority n fee _ h =>
    obtain ⟨m, a, b, -, ha, hb, -, -, -, -, -, -, -, rfl⟩ := h
    split
    · exact hnone
    · next hne =>
      have hdst : (t.setAccount src (a.debit m authority n)).accounts dst = some b := by
        rw [setAccount_accounts, put_of_ne _ _ (Ne.symm hne), hb]
      exact accounts_setAccount_of_none hdst (accounts_setAccount_of_none ha hnone)
  | thaw _ h =>
    obtain ⟨m, a, -, ha, -, -, -, rfl⟩ := h
    exact accounts_setAccount_of_none ha hnone
  | freeze _ h =>
    obtain ⟨m, a, -, ha, -, -, -, rfl⟩ := h
    exact accounts_setAccount_of_none ha hnone
  | approve _ h =>
    obtain ⟨a, ha, -, -, rfl⟩ := h
    exact accounts_setAccount_of_none ha hnone
  | setAccountOwner _ h =>
    obtain ⟨a, ha, -, -, rfl⟩ := h
    exact accounts_setAccount_of_none ha hnone
  | initializeAccount opens h =>
    obtain ⟨m, -, -, rfl⟩ := h
    rw [setAccount_accounts, put_of_ne, hnone]
    rintro rfl
    exact hk opens
  | initializeMint h =>
    obtain ⟨-, -, rfl⟩ := h
    exact hnone

/-- Nothing opens an account at another address. -/
theorem SignedMoves.vacant (h : t.SignedMoves may t') (hk : ¬ k.Opens)
    (hnone : t.accounts k = none) : t'.accounts k = none := by
  induction h with
  | refl => exact hnone
  | tail _ step ih => exact step.vacant hk ih

theorem SignedMoves.holds (h : t.SignedMoves may t') (ho : ¬ may o) (hM : t.Plain M)
    (hk : t.Holds k M o N) : t'.Plain M ∧ t'.Holds k M o N := by
  induction h with
  | refl => exact ⟨hM, hk⟩
  | tail _ step ih =>
    obtain ⟨hM', hk'⟩ := ih
    exact ⟨hM'.of_keepsMints step.keepsMints, step.holds ho hM' hk'⟩

end Tokens

/-! ## What the handlers ask for -/

/-- The config that is read lies at its own address. -/
class OwnConfig {β : Type} (x : Result β) (k : outParam Pubkey)
    (π : outParam (β → StablecoinConfig)) : Prop where
  own : ∀ b, x = .ok b → k = .stablecoinConfig (π b).mint

namespace OwnConfig

variable {s : State} {k : Pubkey}

instance ownConfig : OwnConfig (loadOwnConfig s k) k fun c => c :=
  ⟨fun _ h => (loadOwnConfig_eq_ok.mp h).2⟩

instance authorityAndConfig {a : AuthorityAndConfig} :
    OwnConfig (a.loadConfig s) a.config fun c => c :=
  ⟨fun _ h => (AuthorityAndConfig.loadConfig_eq_ok.mp h).2.1⟩

end OwnConfig

variable {rt : Runtime} {clock : Clock} {s s' : State} {may : Pubkey → Prop} {t₀ t : Tokens}
  {mint src dst account authority escrow owner seeds first second : Pubkey} {n m : UInt64}
  {e : ProgramError}

namespace Ensures

theorem bind_own {α β : Type} {x : Result β} {k : Pubkey} {π : β → StablecoinConfig}
    [OwnConfig x k π] {f : β → Result α} {P : α → Prop}
    (h : ∀ b, k = .stablecoinConfig (π b).mint → Ensures (f b) P) : Ensures (x >>= f) P :=
  .bind fun b hb => h b (OwnConfig.own b hb)

/-- The handler goes on with the tokens that one instruction leaves. -/
theorem bind_tokens {x : Result Tokens} {f : Tokens → Result State}
    (hx : Ensures x (s.tokens.SignedMoves may))
    (h : ∀ t, s.tokens.SignedMoves may t →
      Ensures (f t) fun s' => s.tokens.SignedMoves may s'.tokens) :
    Ensures (x >>= f) fun s' => s.tokens.SignedMoves may s'.tokens :=
  .bind fun t ht => h t (hx t ht)

end Ensures

namespace Tokens.SignedMoves

theorem bind {x : Result Tokens} {f : Tokens → Result Tokens}
    (hx : Ensures x (t₀.SignedMoves may))
    (h : ∀ t, t₀.SignedMoves may t → Ensures (f t) (t₀.SignedMoves may)) :
    Ensures (x >>= f) (t₀.SignedMoves may) :=
  .bind fun t ht => h t (hx t ht)

theorem mintTo (h : t₀.SignedMoves may t) (signed : may authority) :
    Ensures ((rt.token.mintTo t mint dst authority n).okOr e) (t₀.SignedMoves may) :=
  fun _ ht => h.tail (.mintTo signed (rt.token.mintTo_ok (Option.okOr_eq_ok.mp ht)))

theorem burn (h : t₀.SignedMoves may t) (signed : may authority) :
    Ensures ((rt.token.burn t mint src authority n).okOr e) (t₀.SignedMoves may) :=
  fun _ ht => h.tail (.burn signed (rt.token.burn_ok (Option.okOr_eq_ok.mp ht)))

theorem transferChecked (h : t₀.SignedMoves may t) (signed : may authority) :
    Ensures ((rt.token.transferChecked t src mint dst authority n).okOr e)
      (t₀.SignedMoves may) :=
  fun _ ht => h.tail (.transfer signed (rt.token.transferChecked_ok (Option.okOr_eq_ok.mp ht)))

theorem thawAccount (h : t₀.SignedMoves may t) (signed : may authority) :
    Ensures ((rt.token.thawAccount t account mint authority).okOr e) (t₀.SignedMoves may) :=
  fun _ ht => h.tail (.thaw signed (rt.token.thawAccount_ok (Option.okOr_eq_ok.mp ht)))

theorem freezeAccount (h : t₀.SignedMoves may t) (signed : may authority) :
    Ensures ((rt.token.freezeAccount t account mint authority).okOr e) (t₀.SignedMoves may) :=
  fun _ ht => h.tail (.freeze signed (rt.token.freezeAccount_ok (Option.okOr_eq_ok.mp ht)))

theorem initializeAccount (h : t₀.SignedMoves may t) (opens : account.Opens) :
    Ensures ((rt.token.initializeAccount t account mint owner).okOr e) (t₀.SignedMoves may) :=
  fun _ ht =>
    h.tail (.initializeAccount opens (rt.token.initializeAccount_ok (Option.okOr_eq_ok.mp ht)))

theorem initializeMint {m : Mint} (h : t₀.SignedMoves may t) :
    Ensures ((rt.token.initializeMint t mint m).okOr e) (t₀.SignedMoves may) :=
  fun _ ht => h.tail (.initializeMint (rt.token.initializeMint_ok (Option.okOr_eq_ok.mp ht)))

/-- Only an address that the program derives signs for an escrow. -/
theorem payFrom (h : t₀.SignedMoves may t) (signed : seeds = owner → may owner) :
    Ensures (SolanaStablecoin.payFrom rt t escrow mint dst owner seeds n) (t₀.SignedMoves may) :=
  .bind fun _ hseeds => h.transferChecked (signed (require_eq_ok.mp hseeds))

theorem splitFrom (h : t₀.SignedMoves may t) (signed : seeds = owner → may owner) :
    Ensures (SolanaStablecoin.splitFrom rt t escrow mint first second owner seeds n m)
      (t₀.SignedMoves may) := by
  refine .bind fun t' ht' => ?_
  have h' : t₀.SignedMoves may t' :=
    Ensures.onlyWhen (fun _ => h) (fun _ => h.payFrom signed) t' ht'
  exact .onlyWhen (fun _ => h') fun _ => h'.payFrom signed

end Tokens.SignedMoves

theorem SettleAccounts.settle_signed {a : SettleAccounts} {key : Pubkey} {c : PaymentChannel}
    {amount : UInt64} (signed : c.seeds = key → may key) :
    Ensures (a.settle rt s key c amount) fun s' => s.tokens.SignedMoves may s'.tokens :=
  Ensures.bind_tokens (.splitFrom .refl signed) fun _ h => .pure h

/-- Whatever a handler asks of the token program is signed for. -/
theorem Instruction.exec_signed {i : Instruction} :
    Ensures (i.exec rt clock s) fun s' => s.tokens.SignedMoves i.May s'.tokens := by
  have hrefl : s.tokens.SignedMoves i.May s.tokens := .refl
  cases htokens : i.tables.contains .tokens with
  | false =>
    intro s' h
    have hsame : s'.tokens = s.tokens := exec_same State.tokens (fun t => by
      simp only [State.without, AccountKind.hide_eq htokens]) h
    rw [hsame]
  | true =>
    cases i
    case triggerBackstop => exact fun _ h => absurd h triggerBackstopHandler_ne_ok
    case countersignSettle a amount =>
      refine .bind fun c _ => .bind fun _ _ => .bind fun _ _ => .bind fun _ _ => .bind fun _ _ =>
        .bind fun _ _ => .bind fun s' hs' => .pure ?_
      exact a.settle_signed (fun _ => .inr List.mem_cons_self) s' hs'
    case blacklistAddAndFreeze a blacklistState hookProgram =>
      refine .bind fun c _ => .bind fun _ _ => .bind fun _ _ => .bind fun _ _ =>
        .bind fun target _ => .bind fun _ _ => .bind fun _ _ => .bind fun _ _ => .bind fun _ _ =>
        .bind fun s' hs' => ?_
      have hsame : s'.tokens = s.tokens := exec_same State.tokens (fun _ => rfl)
        (show (blacklistAdd { authority := a.complianceAuthority, mint := a.mint }
          target.owner).exec rt clock s = .ok s' from hs')
      have hrefl' : s.tokens.SignedMoves (May (blacklistAddAndFreeze a blacklistState hookProgram))
          s'.tokens := by rw [hsame]
      exact Ensures.bind_tokens (hrefl'.freezeAccount (.inr List.mem_cons_self)) fun _ h => .pure h
    all_goals try (cases htokens; done)
    all_goals change Ensures (_ >>= _) _
    all_goals try with_reducible refine Ensures.bind_own fun _ _ => ?_
    all_goals repeat' first
      | assumption
      | with_reducible refine Ensures.bind_tokens ?_ fun _ _ => ?_
      | with_reducible refine Tokens.SignedMoves.bind ?_ fun _ _ => ?_
      | with_reducible refine .bind fun _ _ => ?_
      | with_reducible refine .ite (fun _ => ?_) fun _ => ?_
      | with_reducible refine .onlyWhen (fun _ => ?_) fun _ => ?_
      | ((with_reducible apply Ensures.pure); assumption)
      | with_reducible apply Tokens.SignedMoves.burn
      | with_reducible apply Tokens.SignedMoves.mintTo
      | with_reducible apply Tokens.SignedMoves.transferChecked
      | with_reducible apply Tokens.SignedMoves.thawAccount
      | with_reducible apply Tokens.SignedMoves.freezeAccount
      | with_reducible apply Tokens.SignedMoves.initializeAccount
      | with_reducible apply Tokens.SignedMoves.initializeMint
      | with_reducible apply Tokens.SignedMoves.payFrom
      | with_reducible apply Tokens.SignedMoves.splitFrom
      | exact .inl List.mem_cons_self
      | exact .inr List.mem_cons_self
      | exact .inr ⟨_, _, rfl⟩
      | exact .inr (Pubkey.mem_ofMint ‹_›)
      | exact .inr (List.mem_cons_of_mem _ (Pubkey.mem_ofMint ‹_›))
      | exact .inl (List.mem_cons_of_mem _ List.mem_cons_self)
      | exact fun _ => .inr List.mem_cons_self
      | change Ensures (_ >>= _) _

theorem World.exec_signed {w : World} (h : w.exec rt s = .ok s') :
    s.tokens.SignedMoves (· ∈ w.signers) s'.tokens := by
  cases w with
  | createMint mint m =>
    simp only [World.exec, bind_eq_ok, Option.okOr_eq_ok] at h
    obtain ⟨t, ht, hpure⟩ := h
    cases hpure
    exact .single (.initializeMint (rt.token.initializeMint_ok ht))
  | createAccount account mint owner =>
    simp only [World.exec, bind_eq_ok, Option.okOr_eq_ok] at h
    obtain ⟨t, ht, hpure⟩ := h
    cases hpure
    exact .single (.initializeAccount (.inl account.canSign) (rt.token.initializeAccount_ok ht))
  | mintTo authority mint dst n =>
    simp only [World.exec, bind_eq_ok, Option.okOr_eq_ok] at h
    obtain ⟨t, ht, hpure⟩ := h
    cases hpure
    exact .single (.mintTo List.mem_cons_self (rt.token.mintTo_ok ht))
  | transfer owner src mint dst n =>
    simp [World.exec] at h
    obtain ⟨b, -, -, t, ht, rfl⟩ := h
    exact .single (.transfer List.mem_cons_self (rt.token.transferChecked_ok ht))
  | approve owner account delegate n =>
    simp [World.exec] at h
    obtain ⟨t, ht, rfl⟩ := h
    exact .single (.approve List.mem_cons_self (rt.token.approve_ok ht))
  | publishPythPrice | forgePriceFeed | writeAccount =>
    cases h
    exact .refl
  | setAccountOwner owner account newOwner =>
    simp [World.exec] at h
    obtain ⟨t, ht, rfl⟩ := h
    exact .single (.setAccountOwner List.mem_cons_self (rt.token.setAccountOwner_ok ht))

theorem exec_signed {a : Action} (h : Action.exec rt s a = .ok s') :
    s.tokens.SignedMoves a.May s'.tokens := by
  cases a with
  | call clock i => exact Instruction.exec_signed s' h
  | world w => exact World.exec_signed h

/-- Nobody takes a token out of an account, in any order of transactions, without a signature of
its owner: of the wallet, or by a handler that derives the address. -/
theorem nothing_taken {k M o : Pubkey} {N : Nat} {as : List Action} (ho : ∀ a ∈ as, ¬ a.May o)
    (hM : s.tokens.Plain M) (hk : s.tokens.Holds k M o N) :
    (run rt s as).tokens.Plain M ∧ (run rt s as).tokens.Holds k M o N :=
  invariant_run (I := fun s => s.tokens.Plain M ∧ s.tokens.Holds k M o N)
    (P := fun _ a => ¬ a.May o) (fun hI hmay h => (exec_signed h).holds hmay hI.1 hI.2) ⟨hM, hk⟩
    (along_of_forall fun a ha _ => ho a ha)

namespace Market

def solvent : State := run localRuntime genesis (deposited 1000)

/-- The authority reaches for the user's gold, and carries out an admin operation. -/
def attempts : List Action :=
  .world (.transfer Market.authority userGold.key gold.key goldAccount.key 100) :: timelocked 9 0 1

end Market

open Market in
theorem gold_not_taken :
    ∃ a, (run localRuntime solvent attempts).tokens.accounts userGold.key = some a ∧
      a.owner = user.key ∧ 500 ≤ a.amount.toNat := by
  have hM : solvent.tokens.Plain gold.key := by
    obtain ⟨m, hm, hnone⟩ := (Option.any_eq_true (fun m : Mint => m.permanentDelegate.isNone)
      (solvent.tokens.mints gold.key)).mp (by decide +kernel)
    exact ⟨m, hm, Option.isNone_iff_eq_none.mp hnone⟩
  have hk : solvent.tokens.Holds userGold.key gold.key user.key 500 := by
    obtain ⟨a, ha, hholds⟩ := (Option.any_eq_true
      (fun a : TokenAccount => a.mint = gold.key ∧ a.owner = user.key ∧ a.delegate = none ∧
        500 ≤ a.amount.toNat) (solvent.tokens.accounts userGold.key)).mp (by decide +kernel)
    exact ⟨a, ha, of_decide_eq_true hholds⟩
  have h : (run localRuntime solvent attempts).tokens.Plain gold.key ∧
      (run localRuntime solvent attempts).tokens.Holds userGold.key gold.key user.key 500 :=
    nothing_taken (by decide +kernel) hM hk
  obtain ⟨-, a, ha, -, howner, -, hle⟩ := h
  exact ⟨a, ha, howner, hle⟩

end SolanaStablecoin
