import SolanaStablecoin.Backend.EventLog

/-! The liquidation history and its synchronisation with the event log (`db.rs`). The columns `id`,
a fresh UUID, so that `INSERT OR IGNORE` ignores nothing, and `created_at` are left out. -/

namespace SolanaStablecoin.Backend

structure LiquidationHistoryEntry where
  cdpAddress : String
  collateralMint : String
  collateralSeized : Int
  debtRepaid : Int
  liquidator : String
  slot : Option Int
  txSig : Option String
deriving DecidableEq

structure LiquidationDb where
  eventLog : List EventLogEntry
  liquidationHistory : List LiquidationHistoryEntry

/-- `lh.tx_sig = el.tx_signature AND lh.cdp_address = el.address`, where NULL equals nothing. -/
def LiquidationHistoryEntry.joins (lh : LiquidationHistoryEntry) (el : EventLogEntry) : Bool :=
  match lh.txSig, el.txSignature with
  | some sig, some signature => sig = signature && lh.cdpAddress = el.address
  | _, _ => false

/-- The rows of the query: events without a row of their key. -/
def LiquidationDb.unsynced (db : LiquidationDb) : List EventLogEntry :=
  db.eventLog.filter fun el =>
    el.eventType = "cdp_liquidate" && !db.liquidationHistory.any (·.joins el)

/-- The row of an event, unless its data does not parse or names no collateral mint. -/
def liquidationEntry (json : SerdeJson) (el : EventLogEntry) : Option LiquidationHistoryEntry :=
  match json.fromStr el.data with
  | none => none
  | some v =>
    let cdpAddress := ((v.get "cdp_address").bind Value.asStr).getD el.address
    match (v.get "collateral_mint").bind Value.asStr with
    | none => none
    | some collateralMint => some
      { cdpAddress, collateralMint
        collateralSeized := ((v.get "collateral_seized").bind Value.asI64).getD 0
        debtRepaid := ((v.get "debt_repaid").bind Value.asI64).getD 0
        liquidator := ((v.get "liquidator").bind Value.asStr).getD ""
        slot := el.slot
        txSig := el.txSignature }

/-- The query is evaluated once, before the inserts. -/
def syncLiquidationsFromEventLog (json : SerdeJson) (db : LiquidationDb) : LiquidationDb :=
  { db with
    liquidationHistory :=
      db.liquidationHistory ++ db.unsynced.filterMap (liquidationEntry json) }

/-- An event is logged, by whichever task, or a request syncs. -/
inductive LiquidationDb.Action where
  | log (el : EventLogEntry)
  | sync

def LiquidationDb.exec (json : SerdeJson) (db : LiquidationDb) :
    LiquidationDb.Action → Except Empty LiquidationDb
  | .log el => .ok { db with eventLog := db.eventLog ++ [el] }
  | .sync => .ok (syncLiquidationsFromEventLog json db)

end SolanaStablecoin.Backend
