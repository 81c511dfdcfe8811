import Mathlib.Data.List.Sort
import SolanaStablecoin.Program.Issue
import SolanaStablecoin.Program.Raw

/-! The oracle consensus (`multi_oracle.rs`): the median of the fresh prices of up to eight
sources, without the outliers. -/

namespace SolanaStablecoin

variable (clock : Clock) (s : State)

/-! ## Configuration -/

def initOracleConsensusHandler (a : AuthorityAndMint) (minOracles : UInt8)
    (outlierThresholdBps : UInt16) (maxAgeSlots : UInt64) : Result State := do
  let config ← a.loadConfig s
  requireFree s.oracleConsensuses (.oracleConsensus a.mint)
  require (1 ≤ minOracles ∧ minOracles.toNat ≤ OracleConsensus.maxSources)
    (.sss .invalidOracleConsensusConfig)
  require (0 < outlierThresholdBps ∧ outlierThresholdBps ≤ 5000)
    (.sss .invalidOracleConsensusConfig)
  require (0 < maxAgeSlots) (.sss .invalidOracleConsensusConfig)
  pure { s with
    configs := put s.configs a.config
      { config with featureFlags := config.featureFlags ||| flagMultiOracleConsensus }
    oracleConsensuses := put s.oracleConsensuses (.oracleConsensus a.mint)
      { mint := a.mint, minOracles, outlierThresholdBps, maxAgeSlots
        sources := List.replicate OracleConsensus.maxSources {} } }

/-- The consensus account of a mint. -/
def loadConsensus (mint : Pubkey) : Result OracleConsensus := do
  let oc ← load s.oracleConsensuses (.oracleConsensus mint)
  require (oc.mint = mint) (.sss .oracleConsensusNotFound)
  pure oc

/-- Put a source into a slot, and count the slots that are in use. -/
def OracleConsensus.replaceSource (oc : OracleConsensus) (i : Nat) (src : OracleSource) :
    OracleConsensus :=
  let wasEmpty := (oc.sources.getD i {}).feed = .default
  { oc with
    sources := oc.sources.set i src
    sourceCount :=
      if wasEmpty ∧ src.feed ≠ .default then
        .ofNat (min (oc.sourceCount.toNat + 1) OracleConsensus.maxSources)
      else if ¬wasEmpty ∧ src.feed = .default then .ofNat (oc.sourceCount.toNat - 1)
      else oc.sourceCount }

def setOracleSourceHandler (a : AuthorityAndMint) (slotIndex oracleType : UInt8)
    (feedPubkey : Pubkey) : Result State := do
  let _ ← a.loadConfig s
  let oc ← loadConsensus s a.mint
  require (slotIndex.toNat < OracleConsensus.maxSources) (.sss .invalidOracleSourceIndex)
  require (oracleType = oraclePyth ∨ oracleType = oracleSwitchboard ∨ oracleType = oracleCustom)
    (.sss .invalidOracleType)
  pure { s with
    oracleConsensuses := put s.oracleConsensuses (.oracleConsensus a.mint)
      (oc.replaceSource slotIndex.toNat { oracleType, feed := feedPubkey }) }

def removeOracleSourceHandler (a : AuthorityAndMint) (slotIndex : UInt8) : Result State := do
  let _ ← a.loadConfig s
  let oc ← loadConsensus s a.mint
  require (slotIndex.toNat < OracleConsensus.maxSources) (.sss .invalidOracleSourceIndex)
  pure { s with
    oracleConsensuses := put s.oracleConsensuses (.oracleConsensus a.mint)
      (oc.replaceSource slotIndex.toNat {}) }

/-! ## The consensus price -/

/-- The price of one source and the slot it is from, when it is positive. -/
def readSourcePrice (oracleType : UInt8) (feed : Pubkey) : Result (Option (UInt64 × UInt64)) :=
  if oracleType = oraclePyth then do
    let price ← (s.pythPriceFeeds feed).okOr (.sss .invalidPriceFeed)
    pure (if price.price ≤ 0 then none else some (price.price.toUInt64, price.pubSlot))
  else if oracleType = oracleSwitchboard then pure none
  else if oracleType = oracleCustom then readCustomSource (s.data feed)
  else pure none

/-- The prices that are read and not too old. Each configured source must be given its feed. -/
def freshPrices (maxAge : UInt64) : List (OracleSource × Pubkey) → Result (List UInt64)
  | [] => pure []
  | (src, feed) :: rest =>
    if src.feed = .default then freshPrices maxAge rest
    else do
      require (feed = src.feed) (.sss .unexpectedPriceFeed)
      let prices ← freshPrices maxAge rest
      match readSourcePrice s src.oracleType feed with
      | .ok (some (price, lastSlot)) =>
        pure (if clock.slot.saturatingSub lastSlot > maxAge then prices else price :: prices)
      | _ => pure prices

/-- A write to a slice. The program panics where the index is out of bounds. -/
def writeSlice (slice : List UInt64) (i : Nat) (x : UInt64) : Option (List UInt64) :=
  if i < slice.length then some (slice.set i x) else none

/-- The inner loop of the sort: what is larger than the key moves up, and the key takes the place
that is left. -/
def insertKey (key : UInt64) (slice : List UInt64) : Nat → Option (List UInt64)
  | 0 => writeSlice slice 0 key
  | j + 1 => do
    let before ← slice[j]?
    if before > key then do
      let slice ← writeSlice slice (j + 1) before
      insertKey key slice j
    else writeSlice slice (j + 1) key

/-- Insertion sort in place. -/
def sortSlice (slice : List UInt64) : Option (List UInt64) :=
  (List.range' 1 (slice.length - 1)).foldlM (fun slice i => do
    let key ← slice[i]?
    insertKey key slice i) slice

/-- The middle of a sorted list; of the two middle ones, the mean rounded down. -/
def medianOf (sorted : List UInt64) : UInt64 :=
  let n := sorted.length
  if n = 0 then 0
  else if n % 2 = 1 then sorted.getD (n / 2) 0
  else
    let lo := sorted.getD (n / 2 - 1) 0
    let hi := sorted.getD (n / 2) 0
    lo / 2 + hi / 2 + (lo &&& hi &&& 1)

def median (prices : List UInt64) : UInt64 := medianOf (prices.insertionSort (· ≤ ·))

def absDiff (a b : UInt64) : UInt64 := if a ≥ b then a.saturatingSub b else b.saturatingSub a

/-- The deviation from the median in basis points. -/
def deviationOf (median p : UInt64) : UInt64 :=
  (absDiff p median).saturatingMul 10000 / max median 1

/-- The first price is taken as it is, and later ones with a weight of an eighth. -/
def OracleConsensus.updateTwap (oc : OracleConsensus) (newPrice slot : UInt64) :
    OracleConsensus :=
  { oc with
    twapPrice :=
      if oc.twapPrice = 0 then newPrice
      else
        let next :=
          U128.saturatingAdd (U128.saturatingMul oc.twapPrice.toNat 7) newPrice.toNat / 8
        .ofNat (min next (2 ^ 64 - 1))
    twapLastSlot := slot }

/-- The average stands in for the consensus while it is at most 1000 slots old. -/
def OracleConsensus.twap (oc : OracleConsensus) : Result UInt64 := do
  require (oc.twapPrice > 0) (.sss .insufficientOracles)
  require (clock.slot.saturatingSub oc.twapLastSlot ≤ 1000) (.sss .stalePriceFeed)
  pure oc.twapPrice

/-- The consensus price and the largest deviation of an accepted price from it. -/
def OracleConsensus.agree (oc : OracleConsensus) (fresh : List UInt64) :
    Result (UInt64 × UInt64) := do
  let accepted := fresh.filter fun p =>
    deviationOf (median fresh) p ≤ oc.outlierThresholdBps.toUInt64
  if accepted.length ≥ oc.minOracles.toNat then
    let price := median accepted
    pure (price, (accepted.map fun p => absDiff p price).foldl max 0)
  else do
    let price ← oc.twap clock
    pure (price, 0)

structure UpdateOracleConsensus where
  keeper : Signer
  mint : Pubkey
  remainingAccounts : List Pubkey

/-- Without a fresh price only the average is renewed. -/
def updateOracleConsensusHandler (a : UpdateOracleConsensus) : Result State := do
  let config ← loadConfigOfMint s a.mint
  let oc ← loadConsensus s a.mint
  require (config.featureFlags &&& flagMultiOracleConsensus ≠ 0) (.sss .multiOracleNotEnabled)
  require (a.remainingAccounts.length = OracleConsensus.maxSources)
    (.sss .oracleRemainingAccountsMismatch)
  require (oc.sourceCount > 0) (.sss .oracleNoSourcesConfigured)
  let fresh ← freshPrices clock s oc.maxAgeSlots (oc.sources.zip a.remainingAccounts)
  if fresh = [] then do
    let twap ← oc.twap clock
    pure { s with
      oracleConsensuses := put s.oracleConsensuses (.oracleConsensus a.mint)
        (oc.updateTwap twap clock.slot) }
  else do
    let (price, maxDev) ← oc.agree clock fresh
    require (price > 0) (.sss .invalidPrice)
    pure { s with
      oracleConsensuses := put s.oracleConsensuses (.oracleConsensus a.mint)
        { oc.updateTwap price clock.slot with
          lastConsensusPrice := price, lastConsensusConf := maxDev
          lastConsensusSlot := clock.slot } }

end SolanaStablecoin
