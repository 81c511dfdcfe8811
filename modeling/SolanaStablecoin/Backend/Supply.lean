import Mathlib.Data.List.Dedup
import Mathlib.Data.List.Sort
import SolanaStablecoin.Base.Checked
import SolanaStablecoin.Base.SignedSum

/-! The backend's supply ledger (`db.rs`, `routes/mint.rs`, `routes/burn.rs`) and its readers: the
monitor's check (`invariant_checker.rs`) and the reconciliation worker (`supply_verify.rs`). The
columns `id`, a fresh UUID, and `created_at`, the audit log and the webhooks are left out, and so is
the response, which repeats the request. -/

namespace SolanaStablecoin.Backend

inductive AppError where
  | database (e : String)
  | badRequest (e : String)
deriving DecidableEq

def AppError.toString : AppError → String
  | database e => "Database error: " ++ e
  | badRequest e => "Bad request: " ++ e

structure MintEvent where
  tokenMint : String
  /-- The column is a signed integer. -/
  amount : Int
  recipient : String
  txSignature : Option String
deriving DecidableEq

structure BurnEvent where
  tokenMint : String
  amount : Int
  source : String
  txSignature : Option String
deriving DecidableEq

structure MintRequest where
  tokenMint : String
  amount : UInt64
  recipient : String
  txSignature : Option String

structure BurnRequest where
  tokenMint : String
  amount : UInt64
  source : String
  txSignature : Option String

structure SupplyDb where
  mintEvents : List MintEvent
  burnEvents : List BurnEvent
  /-- The addresses on it. -/
  blacklist : List String

namespace SupplyDb

variable (db : SupplyDb)

def recordMint (tokenMint : String) (amount : UInt64) (recipient : String)
    (txSignature : Option String) : SupplyDb :=
  { db with
    mintEvents := db.mintEvents ++
      [{ tokenMint, amount := amount.toInt64.toInt, recipient, txSignature }] }

def recordBurn (tokenMint : String) (amount : UInt64) (source : String)
    (txSignature : Option String) : SupplyDb :=
  { db with
    burnEvents := db.burnEvents ++
      [{ tokenMint, amount := amount.toInt64.toInt, source, txSignature }] }

def isBlacklisted (address : String) : Bool := db.blacklist.contains address

/-- `SELECT COALESCE(SUM(amount), 0)` of the rows of a token, or of all. `SUM` adds in the order of
the rows and fails where it overflows on the way. -/
def sumAmounts (tokenMint : Option String) (rows : List (String × Int)) : Except AppError Int :=
  (SignedSum.accumulate (2 ^ 63) 0
    ((rows.filter fun row => tokenMint.all (· = row.1)).map Prod.snd)).okOr
    (.database "integer overflow")

/-- What is minted and what is burned. -/
def getSupply (tokenMint : Option String) : Except AppError (UInt64 × UInt64) := do
  let totalMinted ← sumAmounts tokenMint (db.mintEvents.map fun e => (e.tokenMint, e.amount))
  let totalBurned ← sumAmounts tokenMint (db.burnEvents.map fun e => (e.tokenMint, e.amount))
  pure (.ofInt totalMinted, .ofInt totalBurned)

def listTokenMints : List String :=
  (db.mintEvents.map MintEvent.tokenMint ++ db.burnEvents.map BurnEvent.tokenMint).dedup
    |>.insertionSort (· ≤ ·)

end SupplyDb

/-! ## The routes -/

/-- `verify_tx_signature` at the time of a request. -/
abbrev VerifyTxSignature := String → Except String Unit

/-- What both routes check of a request, `party` being its recipient or its source. -/
def checkEvent (verifyTxSignature : VerifyTxSignature) (tokenMint : String) (amount : UInt64)
    (party field : String) (txSignature : Option String) : Except AppError Unit := do
  require (tokenMint ≠ "") (.badRequest "token_mint is required")
  require (party ≠ "") (.badRequest (field ++ " is required"))
  require (amount ≠ 0) (.badRequest "amount must be greater than 0")
  match txSignature with
  | none => pure ()
  | some sig =>
    (verifyTxSignature sig).mapError fun e =>
      .badRequest ("tx_signature verification failed: " ++ e)

def mint (verifyTxSignature : VerifyTxSignature) (db : SupplyDb) (req : MintRequest) :
    Except AppError SupplyDb := do
  checkEvent verifyTxSignature req.tokenMint req.amount req.recipient "recipient" req.txSignature
  require (¬ db.isBlacklisted req.recipient)
    (.badRequest ("Recipient " ++ req.recipient ++ " is blacklisted"))
  pure (db.recordMint req.tokenMint req.amount req.recipient req.txSignature)

/-- Neither the blacklist nor the mints are looked at. -/
def burn (verifyTxSignature : VerifyTxSignature) (db : SupplyDb) (req : BurnRequest) :
    Except AppError SupplyDb := do
  checkEvent verifyTxSignature req.tokenMint req.amount req.source "source" req.txSignature
  pure (db.recordBurn req.tokenMint req.amount req.source req.txSignature)

/-- A request comes in, with the signatures that are verified by then. -/
inductive SupplyDb.Action where
  | mint (verifyTxSignature : VerifyTxSignature) (req : MintRequest)
  | burn (verifyTxSignature : VerifyTxSignature) (req : BurnRequest)

def SupplyDb.exec (db : SupplyDb) : SupplyDb.Action → Except AppError SupplyDb
  | .mint verifyTxSignature req => Backend.mint verifyTxSignature db req
  | .burn verifyTxSignature req => Backend.burn verifyTxSignature db req

/-! ## The readers -/

inductive InvariantStatus where
  | ok
  | violated (invariant detail : String)
deriving DecidableEq

namespace SupplyDb

variable (db : SupplyDb)

/-- "circulating = minted - burned; always ≥ 0 by construction", as the monitor has it. -/
def checkSupplyConsistency : InvariantStatus :=
  match db.getSupply none with
  | .ok (minted, burned) =>
    if minted < burned then
      .violated "supply_consistency" ("burned (" ++ toString burned ++ ") > minted (" ++
        toString minted ++ "): circulating supply would be negative")
    else .ok
  | .error e => .violated "supply_consistency" ("DB error: " ++ e.toString)

def dbSupply (tokenMint : String) : Except AppError UInt64 := do
  let (totalMinted, totalBurned) ← db.getSupply (some tokenMint)
  pure (totalMinted.saturatingSub totalBurned)

def absDiff (a b : UInt64) : UInt64 := if a < b then b - a else a - b

/-- One round of the reconciliation worker: the tokens it warns of. It passes over a token whose
supply it cannot read. -/
def reconcile (fetchTokenSupply : String → Option UInt64) (threshold : UInt64) : List String :=
  db.listTokenMints.filter fun mint =>
    match db.dbSupply mint, fetchTokenSupply mint with
    | .ok dbSupply, some onchain => threshold < absDiff dbSupply onchain
    | _, _ => false

end SupplyDb

end SolanaStablecoin.Backend
