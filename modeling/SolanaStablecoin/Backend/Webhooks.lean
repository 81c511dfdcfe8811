import Mathlib.Data.List.Sort
import Mathlib.Logic.Function.Basic
import SolanaStablecoin.Backend.EventLog
import SolanaStablecoin.Base.Checked
import SolanaStablecoin.Base.Table

/-! Webhook deliveries (`webhook_dispatch.rs`, `webhook_retry_worker.rs`, `db.rs`). An attempt is
cut where other tasks may come in between: at the claim of its row and at the end of its post, when
the result is written. Times are in nanoseconds. The address and the signature of a post, the alert
after the last attempt and the column `updated_at` are left out. -/

namespace SolanaStablecoin.Backend

inductive DeliveryStatus where
  | pending | inProgress | delivered | failed | permanentlyFailed
deriving DecidableEq

structure WebhookEntry where
  id : String
  events : List String

structure WebhookDeliveryLog where
  id : String
  webhookId : String
  payload : String
  status : DeliveryStatus
  attemptCount : Int
  nextRetryAt : Option Int
  createdAt : Int

/-! ## The table -/

variable (rows : List WebhookDeliveryLog)

def insertWebhookDelivery (id webhookId payload : String) (now : Int) : List WebhookDeliveryLog :=
  rows ++ [{ id, webhookId, payload, status := .pending, attemptCount := 0, nextRetryAt := none
             createdAt := now }]

/-- `UPDATE .. WHERE id = ?`. -/
def updateDelivery (id : String) (f : WebhookDeliveryLog → WebhookDeliveryLog) :
    List WebhookDeliveryLog :=
  Table.update WebhookDeliveryLog.id rows id f

def markWebhookDeliveryDelivered (id : String) : List WebhookDeliveryLog :=
  updateDelivery rows id fun d => { d with status := .delivered }

def markWebhookDeliveryFailed (id : String) (attemptCount : Int) (nextRetryAt : Option Int) :
    List WebhookDeliveryLog :=
  updateDelivery rows id fun d =>
    { d with
      status := if nextRetryAt.isSome then .failed else .permanentlyFailed
      attemptCount, nextRetryAt }

def DeliveryStatus.claimable : DeliveryStatus → Bool
  | pending | failed => true
  | _ => false

/-- Whether a row was claimed, and the rows. -/
def claimWebhookDelivery (id : String) : Bool × List WebhookDeliveryLog :=
  (rows.any fun d => d.id = id && d.status.claimable,
    updateDelivery rows id fun d =>
      if d.status.claimable then { d with status := .inProgress } else d)

/-- No time is after NULL, as SQL has it. -/
def WebhookDeliveryLog.due (d : WebhookDeliveryLog) (now : Int) : Bool :=
  match d.status, d.nextRetryAt with
  | .pending, _ => true
  | .failed, some t => t ≤ now
  | _, _ => false

def getPendingWebhookDeliveries (now : Int) : List WebhookDeliveryLog :=
  ((rows.filter (·.due now)).insertionSort (·.createdAt ≤ ·.createdAt)).take 100

/-! ## Attempts -/

def backoffSecs : List Int := [1, 5]

def maxAttempts : Int := 3

def nextRetryAfter (now attempt : Int) : Option Int :=
  if attempt ≥ maxAttempts then none
  else
    let secs := if attempt < 1 then 30 else backoffSecs.getD (attempt - 1).toNat 30
    some (now + secs * 1000000000)

/-- `execute_attempt`, before its post or during it. -/
structure Attempt where
  deliveryId : String
  attempt : Int
  posting : Bool

/-- The task that `dispatch` spawned for a delivery, or the retry worker. -/
inductive Actor where
  | dispatched (deliveryId : String) | worker
deriving DecidableEq

structure Deliverer where
  webhooks : List WebhookEntry
  deliveries : List WebhookDeliveryLog
  /-- what `Uuid::new_v4` has returned so far -/
  issued : List String
  attempts : Actor → Option Attempt
  /-- the rows of its pass that the worker has not come to -/
  pass : List WebhookDeliveryLog

/-- The status of the response, if there is one. Whatever it is, the post counts as done. -/
def postJson : Option Nat → Except Unit Unit
  | some _ => .ok ()
  | none => .error ()

inductive Unavailable where
  | unavailable

variable (json : SerdeJson) (s : Deliverer)

namespace Deliverer

/-- The body that is stored for the retries. -/
def dispatchBody (eventType : String) (payload : Value) (now : Int) : Value :=
  .object [("data", payload), ("delivered_at", .integer (now / 1000000000)),
    ("event", .string eventType)]

/-- `dispatch` for one of the webhooks it has listed. -/
def dispatch (wh : WebhookEntry) (eventType deliveryId : String) (payload : Value) (now : Int) :
    Except Unavailable Deliverer := do
  require (wh.id ∈ s.issued ∧ deliveryId ∉ s.issued) .unavailable
  if wh.events.any fun e => e = eventType || e = "*" then
    let body := json.toString (dispatchBody eventType payload now)
    pure { s with
      deliveries := insertWebhookDelivery s.deliveries deliveryId wh.id body now
      issued := deliveryId :: s.issued
      attempts := Function.update s.attempts (.dispatched deliveryId)
        (some { deliveryId, attempt := 1, posting := false }) }
  else pure s

/-- The first half of `execute_attempt`. -/
def claim (actor : Actor) (works : Bool) : Except Unavailable Deliverer :=
  match s.attempts actor with
  | some { deliveryId, attempt, posting := false } =>
    if works then
      let (claimed, rows) := claimWebhookDelivery s.deliveries deliveryId
      .ok { s with
        deliveries := rows
        attempts := Function.update s.attempts actor
          (if claimed then some { deliveryId, attempt, posting := true } else none) }
    else .ok { s with attempts := Function.update s.attempts actor none }
  | _ => .error .unavailable

/-- The second half of `execute_attempt`. -/
def finish (actor : Actor) (response : Option Nat) (writes : Bool) (now : Int) :
    Except Unavailable Deliverer :=
  match s.attempts actor with
  | some { deliveryId, attempt, posting := true } =>
    .ok { s with
      deliveries :=
        if writes then
          match postJson response with
          | .ok _ => markWebhookDeliveryDelivered s.deliveries deliveryId
          | .error _ =>
            markWebhookDeliveryFailed s.deliveries deliveryId attempt (nextRetryAfter now attempt)
        else s.deliveries
      attempts := Function.update s.attempts actor none }
  | _ => .error .unavailable

/-- The worker reads the rows of a pass. -/
def startPass (now : Int) : Except Unavailable Deliverer :=
  match s.attempts .worker, s.pass with
  | none, [] => .ok { s with pass := getPendingWebhookDeliveries s.deliveries now }
  | _, _ => .error .unavailable

/-- Whether the worker gives up on a row without an attempt. -/
def hopeless (d : WebhookDeliveryLog) : Bool :=
  s.webhooks.all (·.id ≠ d.webhookId) || (json.fromStr d.payload).isNone

/-- The worker comes to the next row of its pass. -/
def next (finds writes : Bool) : Except Unavailable Deliverer :=
  match s.attempts .worker, s.pass with
  | none, d :: rest =>
    if !finds then .ok { s with pass := rest }
    else if s.hopeless json d then
      .ok { s with
        deliveries := if writes then
          markWebhookDeliveryFailed s.deliveries d.id (d.attemptCount + 1) none else s.deliveries
        pass := rest }
    else
      .ok { s with
        attempts := Function.update s.attempts .worker
          (some { deliveryId := d.id, attempt := d.attemptCount + 1, posting := false })
        pass := rest }
  | _, _ => .error .unavailable

inductive Action where
  | register (wh : WebhookEntry)
  | delete (id : String)
  | dispatch (wh : WebhookEntry) (eventType deliveryId : String) (payload : Value) (now : Int)
  | claim (actor : Actor) (works : Bool)
  | finish (actor : Actor) (response : Option Nat) (writes : Bool) (now : Int)
  | startPass (now : Int)
  | next (finds writes : Bool)
  /-- The process stops, wherever its tasks are, and starts again. -/
  | restart

def exec : Action → Except Unavailable Deliverer
  | .register wh => do
    require (wh.id ∉ s.issued) .unavailable
    pure { s with webhooks := wh :: s.webhooks, issued := wh.id :: s.issued }
  | .delete id => .ok { s with webhooks := s.webhooks.filter (·.id ≠ id) }
  | .dispatch wh eventType deliveryId payload now =>
    s.dispatch json wh eventType deliveryId payload now
  | .claim actor works => s.claim actor works
  | .finish actor response writes now => s.finish actor response writes now
  | .startPass now => s.startPass now
  | .next finds writes => s.next json finds writes
  | .restart => .ok { s with attempts := fun _ => none, pass := [] }

end Deliverer

end SolanaStablecoin.Backend
