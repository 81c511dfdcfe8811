import SolanaStablecoin.Program.Redeem

/-! The read-only instructions of the program. They report by an event and write no account. -/

namespace SolanaStablecoin

variable (clock : Clock) (s : State)

/-! ## get_psm_quote -/

structure GetPsmQuote where
  caller : Signer
  sssMint : Pubkey
  reserveVault : Pubkey

structure PsmQuoteEvent where
  mint : Pubkey
  amountIn : UInt64
  expectedOut : UInt64
  expectedFee : UInt64
  feeBps : UInt16
  vaultAmount : UInt64

def getPsmQuoteHandler (a : GetPsmQuote) (amountIn : UInt64) : Result PsmQuoteEvent := do
  let config ← load s.configs (.stablecoinConfig a.sssMint)
  require (config.checkFeatureFlag flagPsmDynamicFees) (.sss .psmDynamicFeesNotEnabled)
  let psm ← load s.psmCurveConfigs (.psmCurveConfig a.sssMint)
  require (psm.sssMint = config.mint) (.sss .psmCurveConfigNotFound)
  let _ ← load s.tokens.mints a.sssMint
  require (a.sssMint = config.mint) (.anchor .constraintRaw)
  let vault ← load s.tokens.accounts a.reserveVault
  require (a.reserveVault = config.reserveVault) (.sss .invalidVault)
  requireAmount amountIn
  let feeBps := psm.computeFee vault.amount config.totalCollateral
  let expectedFee := UInt64.ofNat (U128.saturatingMul amountIn.toNat feeBps.toNat / 10000)
  pure {
    mint := config.mint, amountIn, expectedOut := amountIn.saturatingSub expectedFee
    expectedFee, feeBps, vaultAmount := vault.amount }

/-! ## get_mm_capacity -/

structure MmCapacity where
  mint : Pubkey
  mintRemaining : UInt64
  burnRemaining : UInt64
  slot : UInt64

def getMmCapacityHandler (mint : Pubkey) : Result MmCapacity := do
  let mmConfig ← load s.marketMakerConfigs (.marketMakerConfig mint)
  let _ ← load s.tokens.mints mint
  let minted := if clock.slot = mmConfig.lastMintSlot then mmConfig.mmMintedThisSlot else 0
  let burned := if clock.slot = mmConfig.lastBurnSlot then mmConfig.mmBurnedThisSlot else 0
  pure {
    mint, mintRemaining := mmConfig.mmMintLimitPerSlot.saturatingSub minted
    burnRemaining := mmConfig.mmBurnLimitPerSlot.saturatingSub burned, slot := clock.slot }

end SolanaStablecoin
