import Mathlib.Data.List.DropRight
import Mathlib.Logic.Function.Basic
import SolanaStablecoin.Backend.EventLog

/-! The event indexer (`indexer.rs`). The chain is the list of its transactions, newest first, and
the RPC node answers from it, unless it fails. Broadcasts and the table of collateral
configurations are left out. -/

namespace SolanaStablecoin.Backend

inductive WatchedProgram where
  | sssToken | sssTransferHook
deriving DecidableEq

def WatchedProgram.id : WatchedProgram → String
  | sssToken => "ApQTVMKdtUUrGXgL6Hhzt9W2JFyLt6vGnHuimcdXe811"
  | sssTransferHook => "phAtzRyRUJGpMC3ftAtWzoaX7UkghRe9x5KTig8jPQp"

/-- How many signatures a poll asks for. -/
def sigBatch : Nat := 50

structure EventPattern where
  anchorName : String
  eventType : String

def eventPatterns : List EventPattern :=
  [⟨"CircuitBreakerToggled", "circuit_breaker_toggle"⟩,
    ⟨"CollateralDeposited", "cdp_deposit"⟩,
    ⟨"StablecoinsIssued", "cdp_borrow"⟩,
    ⟨"PositionLiquidated", "cdp_liquidate"⟩,
    ⟨"OracleParamsUpdated", "oracle_params_update"⟩,
    ⟨"StabilityFeeAccrued", "stability_fee_accrual"⟩,
    ⟨"CollateralRegistered", "collateral_registered"⟩,
    ⟨"CollateralConfigUpdated", "collateral_config_updated"⟩]

/-! ## Log lines -/

def stripPrefix (s start : String) : Option String :=
  if start.toList.isPrefixOf s.toList then some (String.ofList (s.toList.drop start.length))
  else none

/-- The Unicode property `White_Space`, as `str::trim` has it. -/
def isWhiteSpace (c : Char) : Bool :=
  (0x9 ≤ c.toNat && c.toNat ≤ 0xD) || (0x2000 ≤ c.toNat && c.toNat ≤ 0x200A) ||
    [0x20, 0x85, 0xA0, 0x1680, 0x2028, 0x2029, 0x202F, 0x205F, 0x3000].contains c.toNat

def trim (s : String) : String :=
  String.ofList ((s.toList.dropWhile isWhiteSpace).rdropWhile isWhiteSpace)

variable (json : SerdeJson)

def rawPayload (rest : String) : Value := .object [("raw", .string rest)]

/-- What follows the name of an event: JSON if it begins with a brace (`7b`), else text. -/
def payload (rest : String) : Value :=
  if (stripPrefix rest "\x7b").isSome then (json.fromStr rest).getD (rawPayload rest)
  else if rest = "" then .object []
  else rawPayload rest

def addressIn (data : Value) (keys : List String) (programId : String) : String :=
  ((data.getFirst keys).bind Value.asStr).getD programId

/-- The event type, the address and the data, where the line is of this pattern. -/
def matchPattern (logBody programId : String) (pattern : EventPattern) :
    Option (String × String × Value) :=
  match stripPrefix logBody pattern.anchorName with
  | some rest =>
    let data := payload json (trim rest)
    some (pattern.eventType,
      addressIn data ["address", "mint", "position", "authority"] programId, data)
  | none =>
    if (stripPrefix logBody "\x7b").isSome then
      match json.fromStr logBody with
      | some jsonVal =>
        if ((jsonVal.getFirst ["event", "name"]).bind Value.asStr).getD "" = pattern.anchorName then
          some (pattern.eventType, addressIn jsonVal ["address", "mint", "position"] programId,
            jsonVal)
        else none
      | none => none
    else none

def parseEventLog (line programId : String) : Option (String × String × Value) :=
  match (stripPrefix line "Program log: ").or (stripPrefix line "Program data: ") with
  | some logBody => eventPatterns.findSome? (matchPattern json logBody programId)
  | none => none

/-! ## Polling -/

structure Transaction where
  signature : String
  slot : Int
  /-- It failed. -/
  err : Bool
  accounts : List String
  logMessages : List String
deriving DecidableEq

inductive IndexerError where
  | getIndexerCursor | getSignaturesForAddress | getTransaction | insertEventLog | setIndexerCursor

/-- How `getTransaction` is answered. -/
inductive Reply where
  | failed | null | found
deriving DecidableEq

/-- What works during a poll. -/
structure Answers where
  readsCursor : Bool := true
  signatures : Bool := true
  /-- by signature -/
  transaction : String → Reply := fun _ => .found
  /-- by signature and number of the event in its transaction -/
  inserts : String → Nat → Bool := fun _ _ => true
  writesCursor : Bool := true

structure Indexer where
  /-- the chain -/
  ledger : List Transaction
  eventLog : List EventLogEntry
  /-- table `indexer_state` -/
  cursors : String → Option String

/-- The RPC method: the newest signatures after `last`, at most `limit` of them. -/
def getSignaturesForAddress (ledger : List Transaction) (address : String) (limit : Nat)
    (last : Option String) : List Transaction :=
  ((ledger.filter (address ∈ ·.accounts)).takeWhile (some ·.signature ≠ last)).take limit

/-- Failed transactions are skipped. -/
def fetchSignatures (ledger : List Transaction) (address : String) (limit : Nat)
    (last : Option String) : List (String × Int) :=
  ((getSignaturesForAddress ledger address limit last).filter (!·.err)).map
    fun t => (t.signature, t.slot)

/-- The loop over the log lines, of which `count` have been inserted so far. The first insert to
fail ends it, and what has been inserted stays. -/
def insertEvents (insert : Nat → Bool) (signature : String) (slot : Int) (programId : String) :
    Nat → List String → List EventLogEntry → Except IndexerError Nat × List EventLogEntry
  | count, [], log => (.ok count, log)
  | count, logLine :: logs, log =>
    match parseEventLog json logLine programId with
    | some (eventType, address, data) =>
      if insert count then
        insertEvents insert signature slot programId (count + 1) logs
          (insertEventLog json log eventType address data (some signature) (some slot))
      else (.error .insertEventLog, log)
    | none => insertEvents insert signature slot programId count logs log

def fetchAndIndexTx (ledger : List Transaction) (a : Answers) (signature : String) (slot : Int)
    (programId : String) (log : List EventLogEntry) :
    Except IndexerError Nat × List EventLogEntry :=
  match a.transaction signature with
  | .failed => (.error .getTransaction, log)
  | .null => (.ok 0, log)
  | .found =>
    match ledger.find? (·.signature = signature) with
    | none => (.ok 0, log)
    | some t => insertEvents json (a.inserts signature) signature slot programId 0 t.logMessages log

/-- The oldest comes first; an error with one transaction does not stop the poll, nor does it keep
the cursor from moving. -/
def pollProgram (s : Indexer) (program : WatchedProgram) (a : Answers) :
    Except IndexerError Unit × Indexer :=
  if !a.readsCursor then (.error .getIndexerCursor, s)
  else if !a.signatures then (.error .getSignaturesForAddress, s)
  else
    let sigs := fetchSignatures s.ledger program.id sigBatch (s.cursors program.id)
    match sigs with
    | [] => (.ok (), s)
    | (newest, _) :: _ =>
      let eventLog := sigs.reverse.foldl
        (fun log (sig, slot) => (fetchAndIndexTx json s.ledger a sig slot program.id log).2)
        s.eventLog
      if a.writesCursor then
        (.ok (), { s with eventLog, cursors := Function.update s.cursors program.id (some newest) })
      else (.error .setIndexerCursor, { s with eventLog })

/-- What the history is made of: the chain grows, the other tasks of the backend log their own
entries, which have no signature, and the indexer polls. -/
inductive Indexer.Action where
  | land (t : Transaction)
  | log (eventType address : String) (data : Value) (slot : Option Int)
  | poll (program : WatchedProgram) (a : Answers)

/-- No two transactions have one signature. -/
inductive DuplicateSignature where
  | duplicateSignature

def Indexer.exec (s : Indexer) : Indexer.Action → Except DuplicateSignature Indexer
  | .land t =>
    if t.signature ∈ s.ledger.map (·.signature) then .error .duplicateSignature
    else .ok { s with ledger := t :: s.ledger }
  | .log eventType address data slot =>
    .ok { s with eventLog := insertEventLog json s.eventLog eventType address data none slot }
  | .poll program a => .ok (pollProgram json s program a).2

end SolanaStablecoin.Backend
