import SolanaStablecoin.Base.Transition
import SolanaStablecoin.Backend.Webhooks

/-! Runs of the webhook deliverer: what is posted and answered along them, what each action does,
and that the identifiers of deliveries and webhooks are used once. -/

namespace SolanaStablecoin.Backend

/-- A post of a delivery begins, or it ends with a response or with none. -/
inductive PostEvent where
  | posted (deliveryId : String)
  | answered (deliveryId : String) (response : Option Nat)
deriving DecidableEq

def PostEvent.deliveryId : PostEvent → String
  | posted id => id
  | answered id _ => id

namespace Deliverer

open PostEvent

/-- What an action shows if it succeeds. -/
def observe (s : Deliverer) : Action → List PostEvent
  | .claim actor works =>
    match s.attempts actor with
    | some a =>
      if works && (claimWebhookDelivery s.deliveries a.deliveryId).1 then [posted a.deliveryId]
      else []
    | none => []
  | .finish actor response _ _ =>
    match s.attempts actor with
    | some a => [answered a.deliveryId response]
    | none => []
  | _ => []

/-- The actor is posting the delivery. -/
def Posting (s : Deliverer) (actor : Actor) (id : String) : Prop :=
  ∃ a, s.attempts actor = some a ∧ a.posting = true ∧ a.deliveryId = id

/-- The webhook of the delivery has not been deleted. -/
def Registered (s : Deliverer) (d : WebhookDeliveryLog) : Prop :=
  ∃ wh ∈ s.webhooks, wh.id = d.webhookId

/-- Before the first delivery. -/
structure Start (s : Deliverer) : Prop where
  deliveries : s.deliveries = []
  attempts : ∀ actor, s.attempts actor = none
  pass : s.pass = []
  webhooks : ∀ wh ∈ s.webhooks, wh.id ∈ s.issued

variable {json : SerdeJson} {s s' : Deliverer} {actor : Actor} {works writes finds : Bool}
  {response : Option Nat} {now : Int} {wh : WebhookEntry} {eventType deliveryId : String}
  {payload : Value}

/-! ## What each action does -/

theorem claimWebhookDelivery_fst {rows : List WebhookDeliveryLog} {id : String} :
    (claimWebhookDelivery rows id).1 = true ↔
      ∃ d ∈ rows, d.id = id ∧ d.status.claimable = true := by
  simp [claimWebhookDelivery]

theorem claimWebhookDelivery_snd_of_false {rows : List WebhookDeliveryLog} {id : String}
    (h : (claimWebhookDelivery rows id).1 = false) : (claimWebhookDelivery rows id).2 = rows := by
  refine Table.update_eq_self fun d hd hid => if_neg fun hc => ?_
  exact Bool.eq_false_iff.mp h (claimWebhookDelivery_fst.mpr ⟨d, hd, hid, hc⟩)

/-- A delivery comes in, and a task for it. -/
def insert (s : Deliverer) (deliveryId webhookId body : String) (now : Int) : Deliverer :=
  { s with
    deliveries := insertWebhookDelivery s.deliveries deliveryId webhookId body now
    issued := deliveryId :: s.issued
    attempts := Function.update s.attempts (.dispatched deliveryId)
      (some ⟨deliveryId, 1, false⟩) }

theorem dispatch_cases (h : s.dispatch json wh eventType deliveryId payload now = .ok s') :
    wh.id ∈ s.issued ∧ deliveryId ∉ s.issued ∧
      (s' = s ∨ ∃ body, s' = s.insert deliveryId wh.id body now) := by
  simp only [dispatch, bind_eq_ok, require_eq_ok] at h
  obtain ⟨-, hids, h⟩ := h
  refine ⟨hids.1, hids.2, ?_⟩
  split at h
  · exact .inr ⟨_, (pure_eq_ok.mp h).symm⟩
  · exact .inl (pure_eq_ok.mp h).symm

/-- The attempt has its row and posts. -/
def take (s : Deliverer) (actor : Actor) (a : Attempt) : Deliverer :=
  { s with
    deliveries := (claimWebhookDelivery s.deliveries a.deliveryId).2
    attempts := Function.update s.attempts actor (some { a with posting := true }) }

/-- Either the attempt ends without a post, or it has its row and posts. -/
theorem claim_cases (h : s.claim actor works = .ok s') :
    ∃ a, s.attempts actor = some a ∧ a.posting = false ∧
      (observe s (.claim actor works) = [] ∧
          s' = { s with attempts := Function.update s.attempts actor none } ∨
        observe s (.claim actor works) = [posted a.deliveryId] ∧
          (∃ d ∈ s.deliveries, d.id = a.deliveryId ∧ d.status.claimable = true) ∧
          s' = s.take actor a) := by
  unfold claim at h
  split at h
  · rename_i id attempt heq
    refine ⟨_, heq, rfl, ?_⟩
    cases works with
    | false =>
      cases h
      exact .inl ⟨by simp [observe, heq], rfl⟩
    | true =>
      cases hclaimed : (claimWebhookDelivery s.deliveries id).1 with
      | false =>
        simp only [if_true, hclaimed, Bool.false_eq_true, if_false, Except.ok.injEq,
          claimWebhookDelivery_snd_of_false hclaimed] at h
        exact .inl ⟨by simp [observe, heq, hclaimed], h.symm⟩
      | true =>
        simp only [if_true, hclaimed, Except.ok.injEq] at h
        exact .inr ⟨by simp [observe, heq, hclaimed], claimWebhookDelivery_fst.mp hclaimed, h.symm⟩
  · cases h

/-- The rows after a post. -/
def recorded (s : Deliverer) (a : Attempt) (response : Option Nat) (writes : Bool) (now : Int) :
    List WebhookDeliveryLog :=
  if writes then
    match postJson response with
    | .ok _ => markWebhookDeliveryDelivered s.deliveries a.deliveryId
    | .error _ => markWebhookDeliveryFailed s.deliveries a.deliveryId a.attempt
        (nextRetryAfter now a.attempt)
  else s.deliveries

/-- The post has ended. -/
def settle (s : Deliverer) (actor : Actor) (a : Attempt) (response : Option Nat) (writes : Bool)
    (now : Int) : Deliverer :=
  { s with
    deliveries := s.recorded a response writes now
    attempts := Function.update s.attempts actor none }

theorem finish_cases (h : s.finish actor response writes now = .ok s') :
    ∃ a, s.attempts actor = some a ∧ a.posting = true ∧
      observe s (.finish actor response writes now) = [answered a.deliveryId response] ∧
      s' = s.settle actor a response writes now := by
  unfold finish at h
  split at h
  · rename_i id attempt heq
    cases h
    exact ⟨_, heq, rfl, by simp [observe, heq], rfl⟩
  · cases h

theorem startPass_cases (h : s.startPass now = .ok s') :
    s' = { s with pass := getPendingWebhookDeliveries s.deliveries now } := by
  unfold startPass at h
  split at h
  · cases h
    rfl
  · cases h

/-- The worker gives up on the row `p`. -/
def giveUp (s : Deliverer) (p : WebhookDeliveryLog) (rest : List WebhookDeliveryLog) : Deliverer :=
  { s with
    deliveries := markWebhookDeliveryFailed s.deliveries p.id (p.attemptCount + 1) none
    pass := rest }

/-- The worker skips a row, marks it as failed for good, or sets out to attempt it. -/
theorem next_cases (h : s.next json finds writes = .ok s') :
    s.attempts .worker = none ∧ ∃ p rest, s.pass = p :: rest ∧
      (s' = { s with pass := rest } ∨
        (finds = true ∧ writes = true ∧ s.hopeless json p = true ∧ s' = s.giveUp p rest) ∨
        s' = { s with
          attempts := Function.update s.attempts .worker
            (some ⟨p.id, p.attemptCount + 1, false⟩)
          pass := rest }) := by
  unfold next at h
  split at h
  · rename_i p rest hworker hpass
    refine ⟨hworker, p, rest, hpass, ?_⟩
    cases finds with
    | false =>
      cases h
      exact .inl rfl
    | true =>
      rw [if_neg (by decide)] at h
      split at h
      · cases h
        cases writes with
        | false => exact .inl rfl
        | true => exact .inr (.inl ⟨rfl, rfl, ‹_›, rfl⟩)
      · cases h
        exact .inr (.inr rfl)
  · cases h

/-- The worker reads rows of the table. -/
theorem mem_of_mem_pending {rows : List WebhookDeliveryLog} {d : WebhookDeliveryLog}
    (h : d ∈ getPendingWebhookDeliveries rows now) : d ∈ rows :=
  List.mem_of_mem_filter ((List.mem_insertionSort _).mp (List.mem_of_mem_take h))

/-! ## Identifiers -/

/-- All identifiers in use have been issued, and no two deliveries share one. -/
structure Known (s : Deliverer) (h : List PostEvent) : Prop where
  keyed : Table.Keyed WebhookDeliveryLog.id s.deliveries
  deliveries : ∀ d ∈ s.deliveries, d.id ∈ s.issued ∧ d.webhookId ∈ s.issued
  attempts : ∀ actor a, s.attempts actor = some a → a.deliveryId ∈ s.issued
  dispatched : ∀ id a, s.attempts (.dispatched id) = some a → a.deliveryId = id
  pass : ∀ d ∈ s.pass, d.id ∈ s.issued
  events : ∀ e ∈ h, e.deliveryId ∈ s.issued

namespace Known

variable {h : List PostEvent}

theorem start (hs : s.Start) : s.Known [] where
  keyed := hs.deliveries ▸ Table.Keyed.nil
  deliveries d hd := absurd (hs.deliveries ▸ hd) List.not_mem_nil
  attempts actor a ha := by
    rw [hs.attempts] at ha
    cases ha
  dispatched id a ha := by
    rw [hs.attempts] at ha
    cases ha
  pass d hd := absurd (hs.pass ▸ hd) List.not_mem_nil
  events e he := absurd he List.not_mem_nil

theorem issue (hk : s.Known h) (id : String) : { s with issued := id :: s.issued }.Known h where
  keyed := hk.keyed
  deliveries d hd := (hk.deliveries d hd).imp (List.mem_cons_of_mem _) (List.mem_cons_of_mem _)
  attempts actor a ha := List.mem_cons_of_mem _ (hk.attempts actor a ha)
  dispatched := hk.dispatched
  pass d hd := List.mem_cons_of_mem _ (hk.pass d hd)
  events e he := List.mem_cons_of_mem _ (hk.events e he)

theorem setAttempt (hk : s.Known h) (actor : Actor) {o : Option Attempt}
    (ho : ∀ a, o = some a → a.deliveryId ∈ s.issued)
    (hactor : ∀ id a, actor = .dispatched id → o = some a → a.deliveryId = id) :
    { s with attempts := Function.update s.attempts actor o }.Known h where
  __ := hk
  dispatched id a ha := by
    change Function.update s.attempts actor o (.dispatched id) = some a at ha
    rcases eq_or_ne (.dispatched id) actor with heq | hne
    · exact hactor id a heq.symm (by rwa [heq, Function.update_self] at ha)
    · exact hk.dispatched id a (by rwa [Function.update_of_ne hne] at ha)
  attempts x a ha := by
    change Function.update s.attempts actor o x = some a at ha
    rcases eq_or_ne x actor with rfl | hne
    · exact ho a (by rwa [Function.update_self] at ha)
    · exact hk.attempts x a (by rwa [Function.update_of_ne hne] at ha)

theorem endAttempt (hk : s.Known h) (actor : Actor) :
    { s with attempts := Function.update s.attempts actor none }.Known h :=
  hk.setAttempt actor nofun nofun

theorem setPass (hk : s.Known h) {rows : List WebhookDeliveryLog}
    (hrows : ∀ d ∈ rows, d.id ∈ s.issued) : { s with pass := rows }.Known h where
  __ := hk
  pass := hrows

theorem update (hk : s.Known h) (id : String) {f : WebhookDeliveryLog → WebhookDeliveryLog}
    (hid : ∀ d, (f d).id = d.id) (hwebhook : ∀ d, (f d).webhookId = d.webhookId) :
    { s with deliveries := updateDelivery s.deliveries id f }.Known h where
  __ := hk
  keyed := hk.keyed.update hid
  deliveries := Table.forall_mem_update (fun d hd _ => hk.deliveries d hd) fun d hd _ => by
    rw [hid, hwebhook]
    exact hk.deliveries d hd

theorem markFailed (hk : s.Known h) (id : String) (attemptCount : Int) (nextRetryAt : Option Int) :
    { s with deliveries := markWebhookDeliveryFailed s.deliveries id attemptCount nextRetryAt
      }.Known h := hk.update id (fun _ => rfl) fun _ => rfl

theorem recorded (hk : s.Known h) (a : Attempt) (response : Option Nat) (writes : Bool)
    (now : Int) : { s with deliveries := s.recorded a response writes now }.Known h := by
  unfold Deliverer.recorded
  split
  · split
    · exact hk.update a.deliveryId (fun _ => rfl) fun _ => rfl
    · exact hk.markFailed ..
  · exact hk

theorem observed (hk : s.Known h) {es : List PostEvent}
    (hes : ∀ e ∈ es, e.deliveryId ∈ s.issued) : s.Known (h ++ es) where
  __ := hk
  events e he := (List.mem_append.mp he).elim (hk.events e) (hes e)

theorem restart (hk : s.Known h) : { s with attempts := fun _ => none, pass := [] }.Known h where
  __ := hk
  attempts := nofun
  dispatched := nofun
  pass := nofun

theorem exec {b : Action} (hk : s.Known h) (hexec : s.exec json b = .ok s') :
    s'.Known (h ++ observe s b) := by
  cases b with
  | register wh =>
    simp only [Deliverer.exec, bind_eq_ok, require_eq_ok, pure_eq_ok] at hexec
    obtain ⟨-, -, rfl⟩ := hexec
    exact (List.append_nil h).symm ▸ { hk.issue wh.id with }
  | delete id =>
    cases hexec
    exact (List.append_nil h).symm ▸ { hk with }
  | dispatch wh eventType deliveryId payload now =>
    refine (List.append_nil h).symm ▸ ?_
    obtain ⟨hwh, hid, rfl | ⟨body, rfl⟩⟩ := dispatch_cases hexec
    · exact hk
    · have hissued := hk.issue deliveryId
      have hset := hissued.setAttempt (.dispatched deliveryId) (o := some ⟨deliveryId, 1, false⟩)
        (fun a ha => by cases ha; exact List.mem_cons_self)
        (fun id a hactor ha => by cases hactor; cases ha; rfl)
      refine { hset with keyed := ?_, deliveries := fun d hd => ?_ }
      · exact hk.keyed.append_singleton fun d hd heq => by
          change d.id = deliveryId at heq
          exact hid (heq ▸ (hk.deliveries d hd).1)
      · rcases List.mem_append.mp hd with hd | hd
        · exact hissued.deliveries d hd
        · rw [List.mem_singleton.mp hd]
          exact ⟨List.mem_cons_self, List.mem_cons_of_mem _ hwh⟩
  | claim actor works =>
    obtain ⟨a, ha, -, ⟨hobs, rfl⟩ | ⟨hobs, -, rfl⟩⟩ := claim_cases hexec
    · rw [hobs, List.append_nil]
      exact hk.endAttempt actor
    · have hid := hk.attempts actor a ha
      have hrows := hk.update a.deliveryId
        (f := fun d => if d.status.claimable then { d with status := .inProgress } else d)
        (fun d => by split <;> rfl) (fun d => by split <;> rfl)
      rw [hobs]
      refine (hrows.setAttempt actor (fun b hb => ?_) fun id b hactor hb => ?_).observed
        fun e he => ?_
      · cases hb
        exact hid
      · cases hb
        exact hk.dispatched id a (hactor ▸ ha)
      · rw [List.mem_singleton.mp he]
        exact hid
  | finish actor response writes now =>
    obtain ⟨a, ha, -, hobs, rfl⟩ := finish_cases hexec
    have hid := hk.attempts actor a ha
    rw [hobs]
    refine ((hk.recorded a response writes now).endAttempt actor).observed fun e he => ?_
    rw [List.mem_singleton.mp he]
    exact hid
  | startPass now =>
    rw [startPass_cases hexec]
    refine (List.append_nil h).symm ▸ ?_
    exact hk.setPass fun d hd => (hk.deliveries d (mem_of_mem_pending hd)).1
  | next finds writes =>
    refine (List.append_nil h).symm ▸ ?_
    obtain ⟨-, p, rest, hpass, hcases⟩ := next_cases hexec
    have hp : p.id ∈ s.issued := hk.pass p (hpass ▸ List.mem_cons_self)
    have hrest : ∀ d ∈ rest, d.id ∈ s.issued := fun d hd =>
      hk.pass d (hpass ▸ List.mem_cons_of_mem _ hd)
    rcases hcases with rfl | ⟨-, -, -, rfl⟩ | rfl
    · exact hk.setPass hrest
    · exact (hk.markFailed ..).setPass hrest
    · refine (hk.setAttempt .worker (fun a ha => ?_) fun _ _ hw => by cases hw).setPass hrest
      cases ha
      exact hp
  | restart =>
    cases hexec
    exact (List.append_nil h).symm ▸ hk.restart

end Known

/-! ## Rows and posters -/

theorem posting_setAttempt {x : Actor} {id : String} {o : Option Attempt}
    (ho : ∀ a, o = some a → a.posting = false)
    (hx : { s with attempts := Function.update s.attempts actor o }.Posting x id) :
    x ≠ actor ∧ s.Posting x id := by
  obtain ⟨a, ha, hposting, hid⟩ := hx
  change Function.update s.attempts actor o x = some a at ha
  rcases eq_or_ne x actor with rfl | hne
  · rw [Function.update_self] at ha
    rw [ho a ha] at hposting
    cases hposting
  · rw [Function.update_of_ne hne] at ha
    exact ⟨hne, a, ha, hposting, hid⟩

theorem posting_endAttempt {x : Actor} {id : String}
    (hx : { s with attempts := Function.update s.attempts actor none }.Posting x id) :
    x ≠ actor ∧ s.Posting x id := posting_setAttempt (o := none) nofun hx

theorem not_posting_of_idle {x : Actor} {id : String} (hidle : s.attempts x = none) :
    ¬ s.Posting x id := by
  rintro ⟨a, ha, -⟩
  rw [hidle] at ha
  cases ha

/-- What an action does to the rows and to who posts them, and what it shows. -/
inductive Effect (json : SerdeJson) (s : Deliverer) :
    Action → Deliverer → List PostEvent → Prop where
  /-- Nothing is written, and nobody starts to post. -/
  | quiet {b : Action} {s' : Deliverer} (hrows : s'.deliveries = s.deliveries)
      (hposting : ∀ x id, s'.Posting x id → s.Posting x id) : Effect json s b s' []
  | insert {wh : WebhookEntry} {eventType deliveryId body : String} {payload : Value} {now : Int}
      (hid : deliveryId ∉ s.issued) :
      Effect json s (.dispatch wh eventType deliveryId payload now)
        (s.insert deliveryId wh.id body now) []
  | take {actor : Actor} {a : Attempt} {works : Bool} (ha : s.attempts actor = some a)
      (hclaim : ∃ d ∈ s.deliveries, d.id = a.deliveryId ∧ d.status.claimable = true) :
      Effect json s (.claim actor works) (s.take actor a) [posted a.deliveryId]
  | settle {actor : Actor} {a : Attempt} {response : Option Nat} {writes : Bool} {now : Int}
      (ha : s.attempts actor = some a) (hposting : a.posting = true) :
      Effect json s (.finish actor response writes now) (s.settle actor a response writes now)
        [answered a.deliveryId response]
  | giveUp {p : WebhookDeliveryLog} {rest : List WebhookDeliveryLog}
      (hidle : s.attempts .worker = none) (hpass : s.pass = p :: rest)
      (hhopeless : s.hopeless json p = true) :
      Effect json s (.next true true) (s.giveUp p rest) []

theorem effect_of_exec {b : Action} (hexec : s.exec json b = .ok s') :
    Effect json s b s' (observe s b) := by
  cases b with
  | register wh =>
    simp only [exec, bind_eq_ok, require_eq_ok, pure_eq_ok] at hexec
    obtain ⟨-, -, rfl⟩ := hexec
    exact .quiet rfl fun _ _ hx => hx
  | delete id =>
    cases hexec
    exact .quiet rfl fun _ _ hx => hx
  | dispatch wh eventType deliveryId payload now =>
    obtain ⟨-, hid, rfl | ⟨body, rfl⟩⟩ := dispatch_cases hexec
    · exact .quiet rfl fun _ _ hx => hx
    · exact .insert hid
  | claim actor works =>
    obtain ⟨a, ha, -, ⟨hobs, rfl⟩ | ⟨hobs, hclaim, rfl⟩⟩ := claim_cases hexec
    · rw [hobs]
      exact .quiet rfl fun x id hx => (posting_endAttempt hx).2
    · rw [hobs]
      exact .take ha hclaim
  | finish actor response writes now =>
    obtain ⟨a, ha, hposting, hobs, rfl⟩ := finish_cases hexec
    rw [hobs]
    exact .settle ha hposting
  | startPass now =>
    rw [startPass_cases hexec]
    exact .quiet rfl fun _ _ hx => hx
  | next finds writes =>
    obtain ⟨hidle, p, rest, hpass, rfl | ⟨rfl, rfl, hhopeless, rfl⟩ | rfl⟩ := next_cases hexec
    · exact .quiet rfl fun _ _ hx => hx
    · exact .giveUp hidle hpass hhopeless
    · exact .quiet rfl fun x id hx =>
        (posting_setAttempt (s := { s with pass := rest }) (fun a ha => by cases ha; rfl) hx).2
  | restart =>
    cases hexec
    exact .quiet rfl fun x id hx => absurd hx (not_posting_of_idle rfl)

/-! ## One delivery -/

/-- The body of the delivery below, as text, -/
def mintBody : String := "\x7b\"data\":\x7b\x7d,\"delivered_at\":0,\"event\":\"mint\"\x7d"

/-- and all that the runs ask of `serde_json`. -/
def mintBodies : SerdeJson where
  fromStr text := if text = mintBody then some (dispatchBody "mint" (.object []) 0)
    else none
  toString _ := mintBody

def listener : WebhookEntry where
  id := "W"
  events := ["*"]

def subscribed : Deliverer where
  webhooks := [listener]
  deliveries := []
  issued := ["W"]
  attempts _ := none
  pass := []

theorem subscribed_start : subscribed.Start :=
  ⟨rfl, fun _ => rfl, rfl, by decide⟩

def notify : Action := .dispatch listener "mint" "D" (.object []) 0

/-- The task of the delivery posts, and the response comes. -/
def attempt (actor : Actor) (response : Option Nat) (now : Int) : List Action :=
  [.claim actor true, .finish actor response true now]

/-- A pass at some time, in which the row is posted. -/
def retry (response : Option Nat) (now : Int) : List Action :=
  [.startPass now, .next true true] ++ attempt .worker response now

end Deliverer

end SolanaStablecoin.Backend
