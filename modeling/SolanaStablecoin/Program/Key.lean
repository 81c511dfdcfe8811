import Mathlib.Logic.Function.Basic

/-! Account addresses. A program-derived address is its program and its list of seeds: derivation
is taken to be injective and to miss every address that has a private key. -/

namespace SolanaStablecoin

/-- The literals that the transfer hook derives addresses from. -/
inductive HookSeed where
  | extraAccountMetas
  | blacklistState
  | stablecoinConfig
  | zkVerification
deriving DecidableEq

inductive Pubkey where
  /-- An address that neither program derives: a wallet, a keypair, another program's PDA. -/
  | key (n : Nat)
  /-- `[b"stablecoin-config", mint]` -/
  | stablecoinConfig (mint : Pubkey)
  /-- `[b"minter-info", config, minter]` -/
  | minterInfo (config minter : Pubkey)
  /-- `[b"cdp-collateral-vault", sss_mint, user, collateral_mint]` -/
  | collateralVault (sssMint user collateralMint : Pubkey)
  /-- `[b"cdp-position", sss_mint, user]` -/
  | cdpPosition (sssMint user : Pubkey)
  /-- `[b"interface-version", sss_mint]` -/
  | interfaceVersion (mint : Pubkey)
  /-- `[b"collateral-config", sss_mint, collateral_mint]` -/
  | collateralConfig (sssMint collateralMint : Pubkey)
  /-- `[b"custom-price-feed", sss_mint]` -/
  | customPriceFeed (sssMint : Pubkey)
  /-- `[b"proof-of-reserves", sss_mint]` -/
  | proofOfReserves (sssMint : Pubkey)
  /-- `[b"oracle-consensus", sss_mint]` -/
  | oracleConsensus (sssMint : Pubkey)
  /-- `[b"sanctions-record", sss_mint, wallet]` -/
  | sanctionsRecord (sssMint wallet : Pubkey)
  /-- `[b"psm-curve-config", sss_mint]` -/
  | psmCurveConfig (sssMint : Pubkey)
  /-- `[b"redemption-pool", sss_mint]` -/
  | redemptionPool (sssMint : Pubkey)
  /-- `[b"vault-authority", sss_mint]` -/
  | vaultAuthority (sssMint : Pubkey)
  /-- `[b"redemption-queue", sss_mint]` -/
  | redemptionQueue (sssMint : Pubkey)
  /-- `[b"redemption-entry", sss_mint, queue_index]` -/
  | redemptionEntry (sssMint : Pubkey) (queueIndex : UInt64)
  /-- `[b"queue-escrow", sss_mint, queue_index]` -/
  | queueEscrow (sssMint : Pubkey) (queueIndex : UInt64)
  /-- `[b"redemption-guarantee", sss_mint]` -/
  | redemptionGuarantee (sssMint : Pubkey)
  /-- `[b"redemption-escrow", sss_mint, user]` -/
  | redemptionEscrow (sssMint user : Pubkey)
  /-- `[b"redemption-request", sss_mint, user]` -/
  | redemptionRequest (sssMint user : Pubkey)
  /-- `[b"market-maker-config", sss_mint]` -/
  | marketMakerConfig (sssMint : Pubkey)
  /-- `[b"bridge-config", sss_mint]` -/
  | bridgeConfig (sssMint : Pubkey)
  /-- `[b"consumed-message-id", sss_mint, message_id]` -/
  | consumedMessageId (sssMint : Pubkey) (messageId : BitVec 256)
  /-- `[b"authority-rotation", mint]` -/
  | authorityRotation (mint : Pubkey)
  /-- `[b"squads-multisig-config", mint]` -/
  | squadsMultisigConfig (mint : Pubkey)
  /-- `[b"keeper-config", sss_mint]` -/
  | keeperConfig (sssMint : Pubkey)
  /-- `[b"credential-registry", sss_mint]` -/
  | credentialRegistry (sssMint : Pubkey)
  /-- `[b"credential-record", sss_mint, holder]` -/
  | credentialRecord (sssMint holder : Pubkey)
  /-- `[b"zk-verification", sss_mint, user]` -/
  | zkVerification (sssMint user : Pubkey)
  /-- `[b"wallet-rate-limit", sss_mint, wallet]` -/
  | walletRateLimit (sssMint wallet : Pubkey)
  /-- `[b"delegate-consent", mint, wallet]` -/
  | delegateConsent (mint wallet : Pubkey)
  /-- `[b"yield-collateral", sss_mint]` -/
  | yieldCollateral (sssMint : Pubkey)
  /-- `[b"dao-committee", config]` -/
  | daoCommittee (config : Pubkey)
  /-- `[b"dao-proposal", config, proposal_id]` -/
  | daoProposal (config : Pubkey) (proposalId : UInt64)
  /-- `[b"zk-compliance-config", sss_mint]` -/
  | zkComplianceConfig (sssMint : Pubkey)
  /-- `[b"guardian-config", config]` -/
  | guardianConfig (config : Pubkey)
  /-- `[b"pause-proposal", config, proposal_id]` -/
  | pauseProposal (config : Pubkey) (proposalId : UInt64)
  /-- `[b"issuer_registry", config]` -/
  | issuerRegistry (config : Pubkey)
  /-- `[b"insurance-vault", sss_mint]` -/
  | insuranceVault (sssMint : Pubkey)
  /-- `[b"liquidation-bonus-config", sss_mint]` -/
  | liquidationBonusConfig (sssMint : Pubkey)
  /-- `[b"pid-config", sss_mint]` -/
  | pidConfig (sssMint : Pubkey)
  /-- `[b"reserve-composition", sss_mint]` -/
  | reserveComposition (sssMint : Pubkey)
  /-- `[b"travel-rule-record", sss_mint, nonce]` -/
  | travelRuleRecord (sssMint : Pubkey) (nonce : UInt64)
  /-- `[b"pbs-vault", config, commitment_id]` -/
  | pbsVault (config : Pubkey) (commitmentId : UInt64)
  /-- `[b"apc-channel", initiator, channel_id]` -/
  | apcChannel (initiator : Pubkey) (channelId : UInt64)
  /-- `[b"apc-settle", channel]` -/
  | apcSettle (channel : Pubkey)
  /-- `[literal, mint]`, derived by the transfer hook. -/
  | hook (literal : HookSeed) (mint : Pubkey)
  /-- `[literal, mint, wallet]`, derived by the transfer hook. -/
  | hookWallet (literal : HookSeed) (mint wallet : Pubkey)
deriving DecidableEq

namespace Pubkey

/-- `Pubkey::default()`, the address of the system program. -/
def default : Pubkey := key 0

instance : Inhabited Pubkey := ⟨default⟩

/-- The address of the `sss-token` program. -/
def sssTokenProgram : Pubkey := key 1

/-- The address of the `transfer-hook` program. -/
def transferHookProgram : Pubkey := key 2

/-- Nobody outside the programs signs for one of their derived addresses, and nobody at all for
the system program's. -/
def canSign : Pubkey → Bool
  | key n => n != 0
  | _ => false

/-- The addresses that sign for deposited collateral. -/
def isCollateralVault : Pubkey → Bool
  | collateralVault .. => true
  | _ => false

/-- The addresses that sign for what users have handed over: deposited collateral, stablecoins that
wait in the redemption queue, and those committed to a vault or to a payment channel. -/
def isCustodian : Pubkey → Bool
  | collateralVault .. | redemptionQueue .. | pbsVault .. | apcChannel .. => true
  | _ => false

theorem isCustodian_of_canSign {k : Pubkey} (h : k.canSign = true) : k.isCustodian = false := by
  cases k with
  | key n => rfl
  | _ => cases h

theorem isCollateralVault_of_not_isCustodian {k : Pubkey} (h : k.isCustodian = false) :
    k.isCollateralVault = false := by
  cases k with
  | collateralVault => cases h
  | _ => rfl

theorem isCollateralVault_of_canSign {k : Pubkey} (h : k.canSign = true) :
    k.isCollateralVault = false := by
  cases k with
  | key n => rfl
  | _ => cases h

end Pubkey

/-- An address that signed the transaction. -/
structure Signer where
  key : Pubkey
  canSign : key.canSign = true

namespace Signer

theorem ne_default (u : Signer) : u.key ≠ Pubkey.default := by
  intro h
  have := u.canSign
  simp [h, Pubkey.default, Pubkey.canSign] at this

theorem isCollateralVault (u : Signer) : u.key.isCollateralVault = false :=
  Pubkey.isCollateralVault_of_canSign u.canSign

theorem isCustodian (u : Signer) : u.key.isCustodian = false :=
  Pubkey.isCustodian_of_canSign u.canSign

theorem ne_stablecoinConfig (u : Signer) {m : Pubkey} : u.key ≠ .stablecoinConfig m := by
  intro h
  have := u.canSign
  simp [h, Pubkey.canSign] at this

end Signer

/-! ## Maps from addresses -/

/-- Write the account at `k`. -/
def put {α : Type} (m : Pubkey → Option α) (k : Pubkey) (a : α) : Pubkey → Option α :=
  Function.update m k (some a)

@[simp] theorem put_self {α : Type} (m : Pubkey → Option α) (k : Pubkey) (a : α) :
    put m k a k = some a := Function.update_self ..

theorem put_of_ne {α : Type} (m : Pubkey → Option α) {k k' : Pubkey} (a : α) (h : k' ≠ k) :
    put m k a k' = m k' := Function.update_of_ne h ..

/-- Writing at one of the addresses that are derived from what `p` tells apart. -/
theorem put_eq_ite {α : Type} (m : Pubkey → Option α) {k k' : Pubkey} (a : α) {p : Prop}
    [Decidable p] (h : k' = k ↔ p) : put m k a k' = if p then some a else m k' := by
  by_cases hp : p
  · rw [if_pos hp, h.mpr hp, put_self]
  · rw [if_neg hp, put_of_ne m a (mt h.mp hp)]

/-- Writing what is there. -/
theorem put_eq_self {α : Type} {m : Pubkey → Option α} {k : Pubkey} {a : α} (h : m k = some a) :
    put m k a = m := by
  rw [put, ← h, Function.update_eq_self]

theorem put_eq_some {α : Type} {m : Pubkey → Option α} {k k' : Pubkey} {a b : α} :
    put m k a k' = some b ↔ (k' = k ∧ a = b) ∨ (k' ≠ k ∧ m k' = some b) := by
  by_cases h : k' = k
  · subst h; simp
  · simp [put_of_ne _ _ h, h]

end SolanaStablecoin
