import SolanaStablecoin.Verify.Deliveries

/-! How often a delivery is posted. A claim makes sure that nobody else posts the row, but the
number of an attempt comes from what its actor knew of the row earlier, and a row whose webhook is
gone is marked without a claim. The count is right as long as both still agree with the row. -/

namespace SolanaStablecoin.Backend

open PostEvent

/-! ## Counts -/

/-- How often the delivery has been posted, -/
def posts (h : List PostEvent) (id : String) : Nat := h.count (posted id)

/-- and how many of these posts have failed. -/
def failures (h : List PostEvent) (id : String) : Nat :=
  h.countP fun
    | posted _ => false
    | answered i response => i = id && !(postJson response).isOk

section
variable (h : List PostEvent) (i id : String) (response : Option Nat)

@[simp] theorem posts_posted :
    posts (h ++ [posted i]) id = posts h id + if i = id then 1 else 0 := by
  simp [posts, List.count_append, List.count_singleton]

@[simp] theorem posts_answered : posts (h ++ [answered i response]) id = posts h id := by
  simp [posts, List.count_append]

@[simp] theorem failures_posted : failures (h ++ [posted i]) id = failures h id := by
  simp [failures, List.countP_append]

@[simp] theorem failures_answered : failures (h ++ [answered i response]) id =
    failures h id + if i = id ∧ response = none then 1 else 0 := by
  cases response <;>
    simp [failures, List.countP_append, List.countP_cons, postJson, Except.isOk, Except.toBool]

variable {h id}

theorem posts_eq_zero (hid : ∀ e ∈ h, e.deliveryId ≠ id) : posts h id = 0 :=
  List.count_eq_zero.mpr fun hmem => hid _ hmem rfl

theorem failures_eq_zero (hid : ∀ e ∈ h, e.deliveryId ≠ id) : failures h id = 0 := by
  refine List.countP_eq_zero.mpr fun e he hfail => hid e he ?_
  cases e with
  | posted i => cases hfail
  | answered i response => exact of_decide_eq_true (Bool.and_eq_true_iff.mp hfail).1

end

/-! ## The invariant -/

def DeliveryStatus.final : DeliveryStatus → Bool
  | delivered | permanentlyFailed => true
  | _ => false

/-- A row whose count is right. While it can be claimed, all of its posts have failed. -/
structure WebhookDeliveryLog.Tally (d : WebhookDeliveryLog) (h : List PostEvent) : Prop where
  failures : (failures h d.id : Int) = d.attemptCount
  posts : (posts h d.id : Int) ≤ maxAttempts
  claimable : d.status.claimable = true →
    (Backend.posts h d.id : Int) = d.attemptCount ∧ d.attemptCount < maxAttempts

namespace Deliverer

variable {json : SerdeJson} {s s' : Deliverer} {h : List PostEvent} {x actor : Actor} {id : String}

/-- A row is posted by one actor at most, and cannot be claimed meanwhile. -/
structure Exclusive (s : Deliverer) (h : List PostEvent) : Prop where
  known : s.Known h
  status : ∀ x id, s.Posting x id → ∀ d ∈ s.deliveries, d.id = id →
    d.status = .inProgress ∨ d.status = .permanentlyFailed
  single : ∀ x y id, s.Posting x id → s.Posting y id → x = y

/-- A row that is being posted has one post that has not failed. -/
structure Tallied (s : Deliverer) (h : List PostEvent) : Prop where
  exclusive : s.Exclusive h
  rows : ∀ d ∈ s.deliveries, d.Tally h
  posting : ∀ x id, s.Posting x id → ∀ d ∈ s.deliveries, d.id = id →
    (posts h d.id : Int) = d.attemptCount + 1

/-- What is written is what the row is due. A failed post is written, under the number that comes
next, and one whose row has meanwhile been given up leaves it so; nor is such a row marked as
delivered. The worker gives up on a row without an attempt only if the row has had just one more
failure than the worker knows of and is not delivered. -/
def Disciplined (json : SerdeJson) : Deliverer → Action → Prop
  | s, .finish actor response writes now => ∀ a ∈ s.attempts actor, a.posting = true →
    ∀ d ∈ s.deliveries, d.id = a.deliveryId →
      match postJson response with
      | .ok _ => d.status = .permanentlyFailed → writes = false
      | .error _ => writes = true ∧ a.attempt = d.attemptCount + 1 ∧
          (d.status = .permanentlyFailed → nextRetryAfter now a.attempt = none)
  | s, .next finds writes => (s.attempts .worker).isNone = true → finds = true → writes = true →
    ∀ p ∈ s.pass.head?, s.hopeless json p = true → ∀ d ∈ s.deliveries, d.id = p.id →
      d.attemptCount = p.attemptCount + 1 ∧ d.status ≠ .delivered
  | _, _ => True

instance : ∀ s b, Decidable (Disciplined json s b)
  | s, .finish actor (some _) writes _ => inferInstanceAs (Decidable
    (∀ a ∈ s.attempts actor, a.posting = true → ∀ d ∈ s.deliveries, d.id = a.deliveryId →
      d.status = .permanentlyFailed → writes = false))
  | s, .finish actor none writes now => inferInstanceAs (Decidable
    (∀ a ∈ s.attempts actor, a.posting = true → ∀ d ∈ s.deliveries, d.id = a.deliveryId →
      writes = true ∧ a.attempt = d.attemptCount + 1 ∧
        (d.status = .permanentlyFailed → nextRetryAfter now a.attempt = none)))
  | s, .next finds writes => inferInstanceAs (Decidable
    ((s.attempts .worker).isNone = true → finds = true → writes = true →
      ∀ p ∈ s.pass.head?, s.hopeless json p = true → ∀ d ∈ s.deliveries, d.id = p.id →
        d.attemptCount = p.attemptCount + 1 ∧ d.status ≠ .delivered))
  | _, .register _ | _, .delete _ | _, .dispatch .. | _, .claim .. | _, .startPass _
  | _, .restart => isTrue trivial

theorem Start.not_posting (hs : s.Start) : ¬ s.Posting x id := not_posting_of_idle (hs.attempts x)

/-- Whoever posts after a claim has claimed or posted before. -/
theorem posting_take {a : Attempt} (hx : (s.take actor a).Posting x id) :
    x = actor ∧ id = a.deliveryId ∨ s.Posting x id := by
  obtain ⟨b, hb, hpost, hid⟩ := hx
  change Function.update s.attempts actor _ x = some b at hb
  rcases eq_or_ne x actor with rfl | hne
  · rw [Function.update_self] at hb
    cases hb
    exact .inl ⟨rfl, hid.symm⟩
  · rw [Function.update_of_ne hne] at hb
    exact .inr ⟨b, hb, hpost, hid⟩

theorem posting_insert {deliveryId webhookId body : String} {now : Int}
    (hx : (s.insert deliveryId webhookId body now).Posting x id) : s.Posting x id :=
  (posting_setAttempt (fun a ha => by cases ha; rfl) hx).2

namespace Exclusive

theorem start (hs : s.Start) : s.Exclusive [] where
  known := .start hs
  status _ _ hx := absurd hx hs.not_posting
  single _ _ _ hx := absurd hx hs.not_posting

/-- Nobody posts a delivery that comes in. -/
theorem ne_of_posting (he : s.Exclusive h) {deliveryId : String} (hid : deliveryId ∉ s.issued)
    (hx : s.Posting x id) : id ≠ deliveryId := by
  rintro rfl
  obtain ⟨a, ha, -, rfl⟩ := hx
  exact hid (he.known.attempts x a ha)

/-- All the rows of the delivery can be claimed if one can. -/
theorem claimable (he : s.Exclusive h)
    (hclaim : ∃ d ∈ s.deliveries, d.id = id ∧ d.status.claimable = true) :
    ∀ d ∈ s.deliveries, d.id = id → d.status.claimable = true := by
  obtain ⟨d₀, hd₀, hid₀, hclaimable⟩ := hclaim
  intro d hd hid
  rw [he.known.keyed d hd d₀ hd₀ (hid.trans hid₀.symm)]
  exact hclaimable

/-- Nobody posts a row that can be claimed. -/
theorem not_posting (he : s.Exclusive h)
    (hclaim : ∃ d ∈ s.deliveries, d.id = id ∧ d.status.claimable = true) : ¬ s.Posting x id := by
  obtain ⟨d, hd, hid, hclaimable⟩ := hclaim
  intro hx
  rcases he.status x id hx d hd hid with hstatus | hstatus <;>
    exact absurd hclaimable (by rw [hstatus]; decide)

/-- Whoever posts after the end of a post posts another row. -/
theorem posting_settle {a : Attempt} {response : Option Nat} {writes : Bool} {now : Int}
    (he : s.Exclusive h) (ha : s.attempts actor = some a) (hposting : a.posting = true)
    (hx : (s.settle actor a response writes now).Posting x id) :
    id ≠ a.deliveryId ∧ s.Posting x id := by
  obtain ⟨hne, hx⟩ := posting_endAttempt hx
  have hactor : s.Posting actor a.deliveryId := ⟨a, ha, hposting, rfl⟩
  exact ⟨fun heq => hne (he.single x actor id hx (heq ▸ hactor)), hx⟩

theorem exec {b : Action} (he : s.Exclusive h) (hexec : s.exec json b = .ok s') :
    s'.Exclusive (h ++ observe s b) := by
  have hk := he.known.exec hexec
  have heffect := effect_of_exec hexec
  generalize observe s b = es at hk heffect
  cases heffect with
  | quiet hrows hposting =>
    exact ⟨hk, fun x id hx => hrows ▸ he.status x id (hposting x id hx),
      fun x y id hx hy => he.single x y id (hposting x id hx) (hposting y id hy)⟩
  | insert hid =>
    refine ⟨hk, fun x id hx d hd hdid => ?_,
      fun x y id hx hy => he.single x y id (posting_insert hx) (posting_insert hy)⟩
    rcases List.mem_append.mp hd with hd | hd
    · exact he.status x id (posting_insert hx) d hd hdid
    · rw [List.mem_singleton.mp hd] at hdid
      exact absurd hdid.symm (he.ne_of_posting hid (posting_insert hx))
  | take ha hclaim =>
    refine ⟨hk, fun x id hx => ?_, fun x y id hx hy => ?_⟩
    · refine Table.forall_mem_update (fun d hd hne hid => ?_) fun d hd hdid _ => ?_
      · rcases posting_take hx with ⟨-, rfl⟩ | hx
        · exact absurd hid hne
        · exact he.status x id hx d hd hid
      · exact .inl (by rw [if_pos (he.claimable hclaim d hd hdid)])
    · rcases posting_take hx with ⟨hx', hid⟩ | hx' <;> rcases posting_take hy with ⟨hy', hid'⟩ | hy'
      · exact hx'.trans hy'.symm
      · exact absurd (hid ▸ hy') (he.not_posting hclaim)
      · exact absurd (hid' ▸ hx') (he.not_posting hclaim)
      · exact he.single x y id hx' hy'
  | settle ha hposting =>
    refine ⟨hk, fun x id hx => ?_, fun x y id hx hy => he.single x y id
      (he.posting_settle ha hposting hx).2 (he.posting_settle ha hposting hy).2⟩
    obtain ⟨hne, hx⟩ := he.posting_settle ha hposting hx
    unfold settle recorded
    split
    · split
      all_goals
        refine Table.forall_mem_update (fun d hd _ => he.status x id hx d hd)
          fun d hd hdid hid => ?_
        exact absurd (hid.symm.trans hdid) hne
    · exact he.status x id hx
  | giveUp hidle hpass hhopeless =>
    exact ⟨hk, fun x id hx => Table.forall_mem_update (fun d hd _ => he.status x id hx d hd)
      fun d hd _ _ => .inr rfl, he.single⟩

end Exclusive

/-- No two actors ever post a row at once. -/
theorem exclusive_run (hs : s.Start) (as : List Action) :
    (Transition.run (exec json) s as).Exclusive
      (Transition.history (exec json) observe s as) := by
  have hall : Transition.Along (exec json) (fun _ _ => True) s as :=
    Transition.along_of_forall fun _ _ _ => trivial
  have hrun : Exclusive _ ([] ++ Transition.history (exec json) observe s as) :=
    Transition.invariant_history (fun he _ hexec => he.exec hexec) (Exclusive.start hs) hall
  exact hrun

namespace Tallied

theorem start (hs : s.Start) : s.Tallied [] where
  exclusive := .start hs
  rows _ hd := absurd (hs.deliveries ▸ hd) List.not_mem_nil
  posting _ _ hx := absurd hx hs.not_posting

/-- The row of a post that ends. -/
theorem tally_recorded {a : Attempt} {response : Option Nat} {writes : Bool} {now : Int}
    (ht : s.Tallied h) (ha : s.attempts actor = some a) (hposting : a.posting = true)
    (hb : Disciplined json s (.finish actor response writes now)) :
    ∀ d ∈ s.recorded a response writes now, d.Tally (h ++ [answered a.deliveryId response]) := by
  have hother : ∀ d ∈ s.deliveries, d.id ≠ a.deliveryId →
      d.Tally (h ++ [answered a.deliveryId response]) := fun d hd hne => by
    obtain ⟨hfail, hposts, hcl⟩ := ht.rows d hd
    refine ⟨?_, by simpa using hposts, by simpa using hcl⟩
    rw [failures_answered, if_neg fun heq => hne heq.1.symm]
    exact hfail
  have hb := fun d hd hid => hb a ha hposting d hd hid
  unfold recorded
  cases response with
  | some code =>
    split
    · refine Table.forall_mem_update hother fun d hd _ => ?_
      obtain ⟨hfail, hposts, -⟩ := ht.rows d hd
      exact ⟨by simpa using hfail, by simpa using hposts, nofun⟩
    · intro d hd
      obtain ⟨hfail, hposts, hcl⟩ := ht.rows d hd
      exact ⟨by simpa using hfail, by simpa using hposts, by simpa using hcl⟩
  | none =>
    split
    · refine Table.forall_mem_update hother fun d hd hid => ?_
      obtain ⟨hfail, hposts, -⟩ := ht.rows d hd
      have hone := ht.posting actor _ ⟨a, ha, hposting, rfl⟩ d hd hid
      obtain ⟨-, hnumber, -⟩ := hb d hd hid
      have hfailures : (failures (h ++ [answered a.deliveryId none]) d.id : Int) = a.attempt := by
        rw [failures_answered, if_pos ⟨hid.symm, rfl⟩, hnumber, ← hfail]
        push_cast
        rfl
      refine ⟨hfailures, by simpa using hposts, fun hc => ?_⟩
      have hlt : a.attempt < maxAttempts := by
        by_contra hge
        rw [nextRetryAfter, if_pos (not_lt.mp hge)] at hc
        cases hc
      rw [posts_answered]
      exact ⟨hone.trans hnumber.symm, hlt⟩
    · rename_i hwrites
      intro d hd
      by_cases hid : d.id = a.deliveryId
      · exact absurd (hb d hd hid).1 hwrites
      · exact hother d hd hid

theorem exec {b : Action} (ht : s.Tallied h) (hb : Disciplined json s b)
    (hexec : s.exec json b = .ok s') : s'.Tallied (h ++ observe s b) := by
  have he := ht.exclusive.exec hexec
  have heffect := effect_of_exec hexec
  generalize observe s b = es at he heffect
  cases heffect with
  | quiet hrows hposting =>
    rw [List.append_nil] at he ⊢
    exact ⟨he, hrows ▸ ht.rows, fun x id hx => hrows ▸ ht.posting x id (hposting x id hx)⟩
  | @insert _ _ deliveryId _ _ _ hid =>
    rw [List.append_nil] at he ⊢
    have hevents : ∀ e ∈ h, e.deliveryId ≠ deliveryId := fun e hmem heq =>
      hid (heq ▸ ht.exclusive.known.events e hmem)
    refine ⟨he, fun d hd => ?_, fun x id hx d hd hdid => ?_⟩
    · rcases List.mem_append.mp hd with hd | hd
      · exact ht.rows d hd
      · rw [List.mem_singleton.mp hd]
        exact ⟨by simp [failures_eq_zero hevents], by simp [posts_eq_zero hevents, maxAttempts],
          fun _ => by simp [posts_eq_zero hevents, maxAttempts]⟩
    · rcases List.mem_append.mp hd with hd | hd
      · exact ht.posting x id (posting_insert hx) d hd hdid
      · rw [List.mem_singleton.mp hd] at hdid
        exact absurd hdid.symm (ht.exclusive.ne_of_posting hid (posting_insert hx))
  | take ha hclaim =>
    have hrow := ht.exclusive.claimable hclaim
    refine ⟨he, ?_, fun x id hx => ?_⟩
    · refine Table.forall_mem_update (fun d hd hne => ?_) fun d hd hid => ?_
      · obtain ⟨hfail, hposts, hcl⟩ := ht.rows d hd
        refine ⟨by simpa using hfail, ?_, ?_⟩
        all_goals
          rw [posts_posted, if_neg fun heq => hne heq.symm]
          assumption
      · obtain ⟨hfail, -, hcl⟩ := ht.rows d hd
        obtain ⟨hposts, hlt⟩ := hcl (hrow d hd hid)
        rw [if_pos (hrow d hd hid)]
        refine ⟨by simpa using hfail, ?_, nofun⟩
        rw [posts_posted, if_pos hid.symm]
        push_cast
        omega
    · refine Table.forall_mem_update (fun d hd hne hid => ?_) fun d hd hdid hid => ?_
      · rcases posting_take hx with ⟨-, rfl⟩ | hx
        · exact absurd hid hne
        · rw [posts_posted, if_neg fun heq => hne heq.symm]
          exact ht.posting x id hx d hd hid
      · rw [if_pos (hrow d hd hdid), posts_posted, if_pos hdid.symm]
        push_cast
        rw [((ht.rows d hd).claimable (hrow d hd hdid)).1]
  | @settle _ a response _ _ ha hposting =>
    refine ⟨he, tally_recorded ht ha hposting hb, fun x id hx => ?_⟩
    obtain ⟨hne, hx⟩ := ht.exclusive.posting_settle ha hposting hx
    have hsame : ∀ d ∈ s.deliveries, d.id = id →
        (posts (h ++ [answered a.deliveryId response]) d.id : Int) = d.attemptCount + 1 :=
      fun d hd hid => by simpa using ht.posting x id hx d hd hid
    unfold settle recorded
    split
    · split
      all_goals
        refine Table.forall_mem_update (fun d hd _ => hsame d hd) fun d hd hdid hid => ?_
        exact absurd (hid.symm.trans hdid) hne
    · exact hsame
  | @giveUp p _ hidle hpass hhopeless =>
    rw [List.append_nil] at he ⊢
    have hb : ∀ d ∈ s.deliveries, d.id = p.id →
        d.attemptCount = p.attemptCount + 1 ∧ d.status ≠ .delivered :=
      hb (by rw [hidle]; rfl) rfl rfl p (by rw [hpass]; rfl) hhopeless
    refine ⟨he, Table.forall_mem_update (fun d hd _ => ht.rows d hd) fun d hd hid => ?_,
      fun x id hx => Table.forall_mem_update (fun d hd _ => ht.posting x id hx d hd)
        fun d hd hdid hid => ?_⟩
    · obtain ⟨hfail, hposts, -⟩ := ht.rows d hd
      exact ⟨hfail.trans (hb d hd hid).1, hposts, nofun⟩
    · exact (hb d hd hdid).1 ▸ ht.posting x id hx d hd hid

/-- A row that is delivered or has failed for good keeps its status and is not posted. -/
theorem final {b : Action} {d : WebhookDeliveryLog} (ht : s.Tallied h)
    (hb : Disciplined json s b) (hexec : s.exec json b = .ok s') (hd : d ∈ s.deliveries)
    (hfinal : d.status.final = true) :
    posted d.id ∉ observe s b ∧
      ∃ d' ∈ s'.deliveries, d'.id = d.id ∧ d'.status = d.status := by
  have hsame : ∃ d' ∈ s.deliveries, d'.id = d.id ∧ d'.status = d.status := ⟨d, hd, rfl, rfl⟩
  have heffect := effect_of_exec hexec
  generalize observe s b = es at heffect
  cases heffect with
  | quiet hrows _ => exact ⟨List.not_mem_nil, hrows ▸ hsame⟩
  | insert _ => exact ⟨List.not_mem_nil, d, List.mem_append_left _ hd, rfl, rfl⟩
  | @take _ a _ ha hclaim =>
    have hne : d.id ≠ a.deliveryId := fun hid => by
      have hclaimable := ht.exclusive.claimable hclaim d hd hid
      cases hstatus : d.status <;> rw [hstatus] at hfinal hclaimable <;> contradiction
    exact ⟨fun hmem => hne (posted.inj (List.mem_singleton.mp hmem)), _, List.mem_map_of_mem hd,
      by rw [if_neg hne], by rw [if_neg hne]⟩
  | @settle actor a response _ _ ha hposting =>
    refine ⟨by simp, ?_⟩
    simp only [settle, recorded]
    by_cases hid : d.id = a.deliveryId
    · have hstatus : d.status = .permanentlyFailed := by
        rcases ht.exclusive.status actor _ ⟨a, ha, hposting, rfl⟩ d hd hid with hstatus | hstatus
        · rw [hstatus] at hfinal
          cases hfinal
        · exact hstatus
      have hb := hb a ha hposting d hd hid
      cases response with
      | some code => rwa [hb hstatus, if_neg Bool.false_ne_true]
      | none =>
        obtain ⟨hwrites, -, hlast⟩ := hb
        rw [hwrites, if_pos rfl]
        exact ⟨_, List.mem_map_of_mem hd, by rw [if_pos hid], by
          rw [if_pos hid, hlast hstatus]
          exact hstatus.symm⟩
    · split
      · split <;> exact ⟨_, List.mem_map_of_mem hd, by rw [if_neg hid], by rw [if_neg hid]⟩
      · exact hsame
  | @giveUp p _ hidle hpass hhopeless =>
    refine ⟨List.not_mem_nil, ?_⟩
    by_cases hid : d.id = p.id
    · have hne := (hb (by rw [hidle]; rfl) rfl rfl p (by rw [hpass]; rfl) hhopeless d hd hid).2
      refine ⟨_, List.mem_map_of_mem hd, by rw [if_pos hid], ?_⟩
      rw [if_pos hid]
      cases hstatus : d.status <;> rw [hstatus] at hfinal hne <;> first | rfl | contradiction
    · exact ⟨_, List.mem_map_of_mem hd, by rw [if_neg hid], by rw [if_neg hid]⟩

end Tallied

/-- What is delivered or has failed for good stays so along the run, and is posted no more. -/
theorem final_run {as : List Action} {d : WebhookDeliveryLog} (ht : s.Tallied h)
    (H : Transition.Along (exec json) (Disciplined json) s as) (hd : d ∈ s.deliveries)
    (hfinal : d.status.final = true) :
    (∃ d' ∈ (Transition.run (exec json) s as).deliveries, d'.id = d.id ∧ d'.status = d.status) ∧
      posts (h ++ Transition.history (exec json) observe s as) d.id = posts h d.id := by
  refine (Transition.invariant_history
    (I := fun s h' => s.Tallied h' ∧ (∃ d' ∈ s.deliveries, d'.id = d.id ∧ d'.status = d.status) ∧
      posts h' d.id = posts h d.id)
    (fun {s s' b h'} hi hb hexec => ?_) ⟨ht, ⟨d, hd, rfl, rfl⟩, rfl⟩ H).2
  obtain ⟨ht, ⟨d', hd', hid, hstatus⟩, hposts⟩ := hi
  obtain ⟨hnot, d'', hd'', hid', hstatus'⟩ := ht.final hb hexec hd' (hstatus ▸ hfinal)
  refine ⟨ht.exec hb hexec, ⟨d'', hd'', hid'.trans hid, hstatus'.trans hstatus⟩, ?_⟩
  have hnone : posted d.id ∉ observe s b := hid ▸ hnot
  rw [posts, List.count_append, List.count_eq_zero.mpr hnone]
  exact hposts

end Deliverer

open Deliverer in
/-- In every disciplined run: a row is posted at most three times and never by two at once, its
count is that of its failed posts, and once it is delivered or has failed for good it stays so and
is posted no more. -/
theorem webhook_delivery {json : SerdeJson} {s : Deliverer} (hs : s.Start)
    {init mid : List Deliverer.Action}
    (H : Transition.Along (exec json) (Disciplined json) s (init ++ mid)) :
    (∀ d ∈ (Transition.run (exec json) s init).deliveries,
      (posts (Transition.history (exec json) observe s init) d.id : Int) ≤ maxAttempts ∧
      d.attemptCount = failures (Transition.history (exec json) observe s init) d.id ∧
      (d.status.final = true →
        (∃ d' ∈ (Transition.run (exec json) s (init ++ mid)).deliveries,
          d'.id = d.id ∧ d'.status = d.status) ∧
        posts (Transition.history (exec json) observe s (init ++ mid)) d.id =
          posts (Transition.history (exec json) observe s init) d.id)) ∧
    ∀ x y id, (Transition.run (exec json) s init).Posting x id →
      (Transition.run (exec json) s init).Posting y id → x = y := by
  obtain ⟨hinit, hmid⟩ := Transition.along_append.mp H
  have ht : (Transition.run (exec json) s init).Tallied
      ([] ++ Transition.history (exec json) observe s init) :=
    Transition.invariant_history (fun ht hb hexec => ht.exec hb hexec) (Tallied.start hs) hinit
  rw [List.nil_append] at ht
  refine ⟨fun d hd => ?_, (exclusive_run hs init).single⟩
  obtain ⟨hfail, hposts, -⟩ := ht.rows d hd
  refine ⟨hposts, hfail.symm, fun hfinal => ?_⟩
  rw [Transition.run_append, Transition.history_append]
  exact final_run ht hmid hd hfinal

/-! ## Runs of one delivery -/

namespace Deliverer

/-- The first attempt fails and the second is answered. -/
def retried : List Action :=
  notify :: attempt (.dispatched "D") none 0 ++ retry (some 200) 60000000000

/-- Another pass, after the webhook is gone. -/
def afterwards : List Action := [.delete "W", .startPass 120000000000]

end Deliverer

open Deliverer in
theorem webhook_delivery_retried :
    (∀ d ∈ (Transition.run (exec mintBodies) subscribed retried).deliveries,
      (posts (Transition.history (exec mintBodies) observe subscribed retried) d.id : Int) ≤
        maxAttempts ∧
      d.attemptCount =
        failures (Transition.history (exec mintBodies) observe subscribed retried) d.id ∧
      (d.status.final = true →
        (∃ d' ∈ (Transition.run (exec mintBodies) subscribed (retried ++ afterwards)).deliveries,
          d'.id = d.id ∧ d'.status = d.status) ∧
        posts (Transition.history (exec mintBodies) observe subscribed (retried ++ afterwards))
            d.id =
          posts (Transition.history (exec mintBodies) observe subscribed retried) d.id)) ∧
    ∀ x y id, (Transition.run (exec mintBodies) subscribed retried).Posting x id →
      (Transition.run (exec mintBodies) subscribed retried).Posting y id → x = y :=
  webhook_delivery subscribed_start (by decide +kernel)

open Deliverer in
/-- If the worker reads the row before its first attempt and comes to it after that, the row is
posted four times; if the webhook is deleted in between, the row fails for good after its
delivery. -/
theorem webhook_delivery_stale :
    subscribed.Start ∧
    posts (Transition.history (exec mintBodies) observe subscribed
      (notify :: .startPass 0 :: attempt (.dispatched "D") none 0 ++ .next true true ::
        attempt .worker none 0 ++ retry none 60000000000 ++ retry none 120000000000)) "D" = 4 ∧
    (Transition.run (exec mintBodies) subscribed
      (notify :: .startPass 0 :: attempt (.dispatched "D") (some 200) 0)).deliveries.map
        (·.status) = [.delivered] ∧
    (Transition.run (exec mintBodies) subscribed
      (notify :: .startPass 0 :: attempt (.dispatched "D") (some 200) 0 ++
        [.delete "W", .next true true])).deliveries.map (·.status) = [.permanentlyFailed] :=
  ⟨subscribed_start, by decide +kernel⟩

end SolanaStablecoin.Backend
