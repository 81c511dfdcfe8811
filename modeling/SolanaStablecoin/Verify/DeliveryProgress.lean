import SolanaStablecoin.Verify.Deliveries

/-! What becomes of a delivery in the end. A row that is in progress is out of reach of the worker,
so that it must not be left there, and a post counts as a success whatever the response to it. -/

namespace SolanaStablecoin.Backend

open PostEvent

/-- A status code of success. -/
abbrev Succeeded (code : Nat) : Prop := 200 ≤ code ∧ code < 300

namespace Deliverer

variable {json : SerdeJson} {s s' : Deliverer} {h : List PostEvent}

instance (d : WebhookDeliveryLog) : Decidable (s.Registered d) :=
  inferInstanceAs (Decidable (∃ wh ∈ s.webhooks, wh.id = d.webhookId))

/-- The delivery is over, somebody posts it, or the worker selects it from some time on. -/
def Kept (s : Deliverer) (d : WebhookDeliveryLog) : Prop :=
  d.status = .delivered ∨ d.status = .permanentlyFailed ∨ (∃ x, s.Posting x d.id) ∨
    ∃ t, ∀ now ≥ t, d.due now = true

/-- The delivery has been answered with success. -/
def Answered (h : List PostEvent) (d : WebhookDeliveryLog) : Prop :=
  ∃ code, Succeeded code ∧ answered d.id (some code) ∈ h

/-- The process does not stop during a post, unless the row is not in progress any more or its
webhook is gone; where neither holds, the result of the post is written, and no response is written
that is not a success. -/
def Careful : Deliverer → Action → Prop
  | s, .finish actor response writes _ => ∀ a ∈ s.attempts actor, a.posting = true →
    ∀ d ∈ s.deliveries, d.id = a.deliveryId →
      (d.status = .inProgress → s.Registered d → writes = true) ∧
        (writes = true → ∀ code ∈ response, Succeeded code)
  | s, .restart => ∀ d ∈ s.deliveries, d.status = .inProgress → ¬ s.Registered d
  | _, _ => True

instance : ∀ s b, Decidable (Careful s b)
  | s, .finish actor response writes _ => inferInstanceAs (Decidable
    (∀ a ∈ s.attempts actor, a.posting = true → ∀ d ∈ s.deliveries, d.id = a.deliveryId →
      (d.status = .inProgress → s.Registered d → writes = true) ∧
        (writes = true → ∀ code ∈ response, Succeeded code)))
  | s, .restart => inferInstanceAs (Decidable
    (∀ d ∈ s.deliveries, d.status = .inProgress → ¬ s.Registered d))
  | _, .register _ | _, .delete _ | _, .dispatch .. | _, .claim .. | _, .startPass _
  | _, .next .. => isTrue trivial

/-- A row that is all right. -/
structure WellKept (s : Deliverer) (h : List PostEvent) (d : WebhookDeliveryLog) : Prop where
  inProgress : d.status = .inProgress → s.Registered d → ∃ x, s.Posting x d.id
  failed : d.status = .failed → d.nextRetryAt.isSome = true
  delivered : d.status = .delivered → Answered h d

theorem WellKept.kept {d : WebhookDeliveryLog} (hd : s.WellKept h d) (hreg : s.Registered d) :
    s.Kept d := by
  cases hstatus : d.status with
  | pending => exact .inr (.inr (.inr ⟨0, fun now _ => by simp [WebhookDeliveryLog.due, hstatus]⟩))
  | inProgress => exact .inr (.inr (.inl (hd.inProgress hstatus hreg)))
  | delivered => exact .inl hstatus
  | failed =>
    obtain ⟨t, ht⟩ := Option.isSome_iff_exists.mp (hd.failed hstatus)
    exact .inr (.inr (.inr ⟨t, fun now hnow => by simpa [WebhookDeliveryLog.due, hstatus, ht]⟩))
  | permanentlyFailed => exact .inr (.inl hstatus)

variable {d : WebhookDeliveryLog}

/-- What a row needs is there still where its webhook is not registered anew and somebody posts
on. -/
theorem WellKept.mono (hd : s.WellKept h d) (hreg : s'.Registered d → s.Registered d)
    (hposting : ∀ x, s.Posting x d.id → ∃ y, s'.Posting y d.id) : s'.WellKept h d where
  inProgress hstatus hreg' :=
    (hd.inProgress hstatus (hreg hreg')).elim fun x hx => hposting x hx
  failed := hd.failed
  delivered := hd.delivered

theorem WellKept.same (hd : s.WellKept h d) (hreg : s'.webhooks = s.webhooks)
    (hattempts : s'.attempts = s.attempts) : s'.WellKept h d := by
  refine hd.mono (fun hr => ?_) fun x hx => ⟨x, ?_⟩
  · rwa [Registered, hreg] at hr
  · rwa [Posting, hattempts]

theorem WellKept.append (hd : s.WellKept h d) (es : List PostEvent) : s.WellKept (h ++ es) d where
  __ := hd
  delivered hstatus := (hd.delivered hstatus).imp fun _ ⟨hcode, he⟩ =>
    ⟨hcode, List.mem_append_left _ he⟩

/-- Nothing is asked of the other rows. -/
theorem WellKept.of_pending (hst : d.status = .pending) : s.WellKept h d := by
  constructor <;> simp [hst]

theorem WellKept.of_permanentlyFailed (hst : d.status = .permanentlyFailed) : s.WellKept h d := by
  constructor <;> simp [hst]

structure Accounted (s : Deliverer) (h : List PostEvent) : Prop where
  known : s.Known h
  rows : ∀ d ∈ s.deliveries, s.WellKept h d

theorem posting_of_ne {actor x : Actor} {id : String} {o : Option Attempt} (hne : x ≠ actor)
    (hx : s.Posting x id) :
    { s with attempts := Function.update s.attempts actor o }.Posting x id := by
  obtain ⟨a, ha, hposting, hid⟩ := hx
  exact ⟨a, (Function.update_of_ne hne ..).trans ha, hposting, hid⟩

/-- Who does not post can be set to something else. -/
theorem exists_posting_of_idle {actor x : Actor} {id : String} {o : Option Attempt}
    (hidle : ∀ a, s.attempts actor = some a → a.posting = false) (hx : s.Posting x id) :
    ∃ y, { s with attempts := Function.update s.attempts actor o }.Posting y id := by
  refine ⟨x, posting_of_ne (fun heq => ?_) hx⟩
  obtain ⟨a, ha, hposting, -⟩ := hx
  rw [hidle a (heq ▸ ha)] at hposting
  cases hposting

namespace Accounted

theorem start (hs : s.Start) : s.Accounted [] where
  known := .start hs
  rows _ hd := absurd (hs.deliveries ▸ hd) List.not_mem_nil

/-- A row that is claimed is posted by who claims it. -/
theorem claimed {actor : Actor} {a : Attempt} (ht : s.Accounted h)
    (ha : s.attempts actor = some a) (hidle : a.posting = false) :
    ∀ d ∈ (claimWebhookDelivery s.deliveries a.deliveryId).2, (s.take actor a).WellKept h d := by
  have hidle : ∀ b, s.attempts actor = some b → b.posting = false := fun b hb => by
    rw [ha] at hb
    cases hb
    exact hidle
  have hsame : ∀ d ∈ s.deliveries, (s.take actor a).WellKept h d := fun d hd =>
    (ht.rows d hd).mono (fun hreg => hreg) fun x hx => exists_posting_of_idle hidle hx
  refine Table.forall_mem_update (fun d hd _ => hsame d hd) fun d hd hid => ?_
  split
  · exact ⟨fun _ _ => ⟨actor, _, Function.update_self .., rfl, hid.symm⟩, nofun, nofun⟩
  · exact hsame d hd

/-- What a post leaves. -/
theorem finished {actor : Actor} {a : Attempt} {response : Option Nat} {writes : Bool} {now : Int}
    (ht : s.Accounted h) (ha : s.attempts actor = some a) (hposting : a.posting = true)
    (hb : Careful s (.finish actor response writes now)) :
    ∀ d ∈ s.recorded a response writes now,
      (s.settle actor a response writes now).WellKept
        (h ++ [answered a.deliveryId response]) d := by
  have hb := fun d hd hid => hb a ha hposting d hd hid
  have hreg : ∀ d, (s.settle actor a response writes now).Registered d → s.Registered d :=
    fun _ hd => hd
  have hother : ∀ d ∈ s.deliveries, d.id ≠ a.deliveryId →
      (s.settle actor a response writes now).WellKept
        (h ++ [answered a.deliveryId response]) d := fun d hd hne => by
    refine ((ht.rows d hd).mono (hreg d) fun x hx => ⟨x, posting_of_ne ?_ hx⟩).append _
    rintro rfl
    obtain ⟨b, hb, -, hid⟩ := hx
    rw [ha] at hb
    cases hb
    exact hne hid.symm
  unfold recorded
  split
  · rename_i hwrites
    split
    · refine Table.forall_mem_update hother fun d hd hid => ⟨nofun, nofun, fun _ => ?_⟩
      cases response with
      | none => contradiction
      | some code => exact ⟨code, (hb d hd hid).2 hwrites code rfl, by simp [hid]⟩
    · refine Table.forall_mem_update hother fun d hd hid => ?_
      cases nextRetryAfter now a.attempt with
      | none => exact .of_permanentlyFailed rfl
      | some t => exact ⟨nofun, fun _ => rfl, nofun⟩
  · rename_i hwrites
    intro d hd
    by_cases hid : d.id = a.deliveryId
    · obtain ⟨-, hfailed, hdelivered⟩ := (ht.rows d hd).append [answered a.deliveryId response]
      exact ⟨fun hst hd' => absurd ((hb d hd hid).1 hst (hreg d hd')) hwrites, hfailed, hdelivered⟩
    · exact hother d hd hid

theorem exec {b : Action} (ht : s.Accounted h) (hb : Careful s b)
    (hexec : s.exec json b = .ok s') : s'.Accounted (h ++ observe s b) := by
  refine ⟨ht.known.exec hexec, ?_⟩
  have happend : (∀ d ∈ s'.deliveries, s'.WellKept h d) →
      ∀ d ∈ s'.deliveries, s'.WellKept (h ++ observe s b) d := fun H d hd => (H d hd).append _
  cases b with
  | register wh =>
    simp only [Deliverer.exec, bind_eq_ok, require_eq_ok, pure_eq_ok] at hexec
    obtain ⟨-, hid, rfl⟩ := hexec
    refine happend fun d hd => (ht.rows d hd).mono ?_ fun x hx => ⟨x, hx⟩
    rintro ⟨wh', hmem, heq⟩
    rcases List.mem_cons.mp hmem with rfl | hmem
    · exact absurd (heq ▸ (ht.known.deliveries d hd).2) hid
    · exact ⟨wh', hmem, heq⟩
  | delete id =>
    cases hexec
    refine happend fun d hd => (ht.rows d hd).mono ?_ fun x hx => ⟨x, hx⟩
    rintro ⟨wh, hmem, heq⟩
    exact ⟨wh, List.mem_of_mem_filter hmem, heq⟩
  | dispatch wh eventType deliveryId payload now =>
    obtain ⟨-, hid, rfl | ⟨body, rfl⟩⟩ := dispatch_cases hexec
    · exact happend ht.rows
    · have hidle : ∀ a, s.attempts (.dispatched deliveryId) = some a → a.posting = false :=
        fun a ha => absurd (ht.known.dispatched _ a ha ▸ ht.known.attempts _ a ha) hid
      refine happend fun d hd => ?_
      rcases List.mem_append.mp hd with hd | hd
      · exact (ht.rows d hd).mono (fun hreg => hreg) fun x hx => exists_posting_of_idle hidle hx
      · rw [List.mem_singleton.mp hd]
        exact .of_pending rfl
  | claim actor works =>
    obtain ⟨a, ha, hidle, ⟨-, rfl⟩ | ⟨-, -, rfl⟩⟩ := claim_cases hexec
    · refine happend fun d hd => (ht.rows d hd).mono (fun hreg => hreg) fun x hx =>
        exists_posting_of_idle (fun b hb => ?_) hx
      rw [ha] at hb
      cases hb
      exact hidle
    · exact happend (ht.claimed ha hidle)
  | finish actor response writes now =>
    obtain ⟨a, ha, hposting, hobs, rfl⟩ := finish_cases hexec
    rw [hobs]
    exact ht.finished ha hposting hb
  | startPass now =>
    rw [startPass_cases hexec] at happend ⊢
    exact happend fun d hd => (ht.rows d hd).same rfl rfl
  | next finds writes =>
    obtain ⟨hidle, p, rest, -, rfl | ⟨-, -, -, rfl⟩ | rfl⟩ := next_cases hexec
    · exact happend fun d hd => (ht.rows d hd).same rfl rfl
    · exact happend <| Table.forall_mem_update (fun d hd _ => (ht.rows d hd).same rfl rfl)
        fun d _ _ => .of_permanentlyFailed rfl
    · exact happend fun d hd => (ht.rows d hd).mono (fun hreg => hreg) fun x hx =>
        exists_posting_of_idle (fun a ha => by rw [hidle] at ha; cases ha) hx
  | restart =>
    cases hexec
    refine happend fun d hd => ?_
    obtain ⟨-, hfailed, hdelivered⟩ := ht.rows d hd
    exact ⟨fun hst hreg => absurd hreg (hb d hd hst), hfailed, hdelivered⟩

end Accounted

end Deliverer

open Deliverer in
/-- In every careful run: a row whose webhook is registered is over, is being posted, or will be
selected, and a row is delivered only if a post of it has been answered with success. -/
theorem webhook_progress {json : SerdeJson} {s : Deliverer} (hs : s.Start)
    {as : List Deliverer.Action} (H : Transition.Along (exec json) Careful s as) :
    ∀ d ∈ (Transition.run (exec json) s as).deliveries,
      ((Transition.run (exec json) s as).Registered d → (Transition.run (exec json) s as).Kept d) ∧
      (d.status = .delivered → Answered (Transition.history (exec json) observe s as) d) := by
  have ht : (Transition.run (exec json) s as).Accounted
      ([] ++ Transition.history (exec json) observe s as) :=
    Transition.invariant_history (fun ht hb hexec => ht.exec hb hexec) (Accounted.start hs) H
  rw [List.nil_append] at ht
  exact fun d hd => ⟨(ht.rows d hd).kept, (ht.rows d hd).delivered⟩

open Deliverer in
/-- The process stops before the first attempt; the second fails and the third is answered. -/
theorem webhook_progress_restarted : subscribed.Start ∧
    ∀ d ∈ (Transition.run (exec mintBodies) subscribed (notify :: .restart ::
        retry none 60000000000 ++ retry (some 204) 120000000000)).deliveries,
      ((Transition.run (exec mintBodies) subscribed (notify :: .restart ::
          retry none 60000000000 ++ retry (some 204) 120000000000)).Registered d →
        (Transition.run (exec mintBodies) subscribed (notify :: .restart ::
          retry none 60000000000 ++ retry (some 204) 120000000000)).Kept d) ∧
      (d.status = .delivered → Answered (Transition.history (exec mintBodies) observe subscribed
        (notify :: .restart :: retry none 60000000000 ++ retry (some 204) 120000000000)) d) :=
  ⟨subscribed_start, webhook_progress subscribed_start (by decide +kernel)⟩

open Deliverer in
/-- If the process stops during the post, the row is in progress ever after, and a post that is
answered with an error of the server counts as delivered. -/
theorem webhook_progress_lost : subscribed.Start ∧
    (∃ d ∈ (Transition.run (exec mintBodies) subscribed
        [notify, .claim (.dispatched "D") true, .restart]).deliveries,
      (Transition.run (exec mintBodies) subscribed
        [notify, .claim (.dispatched "D") true, .restart]).Registered d ∧
      ¬ (Transition.run (exec mintBodies) subscribed
        [notify, .claim (.dispatched "D") true, .restart]).Kept d) ∧
    ∃ d ∈ (Transition.run (exec mintBodies) subscribed
        (notify :: attempt (.dispatched "D") (some 500) 0)).deliveries,
      d.status = .delivered ∧ ¬ Answered (Transition.history (exec mintBodies) observe subscribed
        (notify :: attempt (.dispatched "D") (some 500) 0)) d := by
  refine ⟨subscribed_start, ⟨_, List.mem_cons_self, ⟨listener, List.mem_cons_self, rfl⟩, ?_⟩,
    _, List.mem_cons_self, rfl, ?_⟩
  · rintro (hst | hst | ⟨x, a, ha, -⟩ | ⟨t, hdue⟩)
    · cases hst
    · cases hst
    · cases ha
    · cases hdue t (le_refl t)
  · rintro ⟨code, hcode, hmem⟩
    have hevents : Transition.history (exec mintBodies) observe subscribed
        (notify :: attempt (.dispatched "D") (some 500) 0) =
          [posted "D", answered "D" (some 500)] := rfl
    rw [hevents] at hmem
    simp only [List.mem_cons, List.not_mem_nil, reduceCtorEq, answered.injEq, Option.some.injEq,
      or_false, false_or] at hmem
    omega

end SolanaStablecoin.Backend
