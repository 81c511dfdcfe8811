import Mathlib.Algebra.Group.Int.Defs
import Mathlib.Data.Rat.Init

/-! The backend's event log (`db.rs`) and the JSON values it is made of. The columns `id`, a fresh
UUID, and `created_at` are left out. -/

namespace SolanaStablecoin.Backend

inductive Value where
  | null
  | bool (b : Bool)
  | integer (n : Int)
  | float (q : ℚ)
  | string (s : String)
  | array (vs : List Value)
  | object (fields : List (String × Value))

namespace Value

/-- A value that is no object has no fields. -/
def get : Value → String → Option Value
  | object fields, key => fields.lookup key
  | _, _ => none

/-- The first of the fields that is there. -/
def getFirst (v : Value) (keys : List String) : Option Value := keys.findSome? v.get

def asStr : Value → Option String
  | string s => some s
  | _ => none

def asI64 : Value → Option Int
  | integer n => if -2 ^ 63 ≤ n ∧ n < 2 ^ 63 then some n else none
  | _ => none

end Value

/-- The two functions of `serde_json` in use. -/
structure SerdeJson where
  fromStr : String → Option Value
  toString : Value → String

structure EventLogEntry where
  eventType : String
  address : String
  data : String
  txSignature : Option String
  slot : Option Int
deriving DecidableEq

def insertEventLog (json : SerdeJson) (log : List EventLogEntry) (eventType address : String)
    (data : Value) (txSignature : Option String) (slot : Option Int) : List EventLogEntry :=
  log ++ [{ eventType, address, data := json.toString data, txSignature, slot }]

end SolanaStablecoin.Backend
