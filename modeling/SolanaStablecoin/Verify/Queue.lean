import SolanaStablecoin.Base.Tickets
import SolanaStablecoin.Program.Token2022
import SolanaStablecoin.Verify.Fees
import SolanaStablecoin.Verify.Holdings
import SolanaStablecoin.Verify.Step

/-! The redemption queue of a mint: it shows a queue of tickets whatever else happens, and what
was escrowed for a ticket leaves when the ticket is served or withdrawn, and not before. -/

namespace SolanaStablecoin

open Transition

variable {rt : Runtime} {clock : Clock} {s s' : State} {a : Action} {c : StablecoinConfig}
  {M : Pubkey} {q : Tickets.Queue} {i : UInt64}

/-! ## The instructions of the queue -/

def Instruction.isQueue : Instruction → Bool
  | initRedemptionQueue .. | updateRedemptionQueue .. | enqueueRedemption ..
  | processRedemption .. | cancelRedemption .. | compactRedemptionHead .. => true
  | _ => false

def Action.isQueue : Action → Bool
  | call _ i => i.isQueue
  | world _ => false

/-- What a successful transaction does to queues: one of their instructions, or nothing. -/
inductive QueueStep (rt : Runtime) (s : State) : Action → State → Prop where
  | requeue {clock : Clock} {i : Instruction} {s' : State} {c : StablecoinConfig}
    {rq : RedemptionQueue} (h : SetsQueue s i s' c rq) : QueueStep rt s (.call clock i) s'
  | enqueue {clock : Clock} {b : EnqueueRedemption} {n : UInt64} {s' : State}
    {c : StablecoinConfig} {rq : RedemptionQueue} (h : Enqueued rt s b n s' c rq) :
    QueueStep rt s (.call clock (.enqueueRedemption b n)) s'
  | process {clock : Clock} {b : ProcessRedemption} {i : UInt64} {s' : State}
    {c : StablecoinConfig} {rq : RedemptionQueue} {re : RedemptionEntry} (head : i = rq.queueHead)
    (h : Processed rt s b s' c rq re) : QueueStep rt s (.call clock (.processRedemption b i)) s'
  | refund {clock : Clock} {b : CancelRedemption} {i : UInt64} {s' : State}
    {c : StablecoinConfig} {rq : RedemptionQueue} {re : RedemptionEntry}
    (h : Refunded rt s b i s' c rq re) :
    QueueStep rt s (.call clock (.cancelRedemption b i)) s'
  | other {a : Action} {s' : State} (kind : a.isQueue = false)
    (queues : s'.redemptionQueues = s.redemptionQueues)
    (entries : s'.redemptionEntries = s.redemptionEntries) (h : Step rt s a s') :
    QueueStep rt s a s'

theorem Requeues.isQueue {j : Instruction} {rq : RedemptionQueue} (h : Requeues s c j rq) :
    j.isQueue = true := by
  cases h with
  | init | update | compact => rfl

/-- Other instructions leave queues and entries alone. -/
theorem Step.queues (h : Step rt s a s') (hkind : a.isQueue = false) :
    s'.redemptionQueues = s.redemptionQueues ∧ s'.redemptionEntries = s.redemptionEntries := by
  have of_records : s'.records = s.records →
      s'.redemptionQueues = s.redemptionQueues ∧ s'.redemptionEntries = s.redemptionEntries :=
    fun h => ⟨congrArg Records.redemptionQueues h, congrArg Records.redemptionEntries h⟩
  cases h with
  | quiet h => exact of_records h.records
  | aside h =>
    cases h with
    | thaw => exact ⟨rfl, rfl⟩
    | govern h => exact of_records h.records
    | enqueue | refund => cases hkind
    | requeue h =>
      rw [Action.isQueue, h.requeues.isQueue] at hkind
      cases hkind
    | certify h => exact ⟨h.queues, h.entries⟩
    | list h => exact ⟨h.queues, h.entries⟩
    | escrow h =>
      exact ⟨congrArg Records.redemptionQueues h.records,
        congrArg Records.redemptionEntries h.records⟩
    | handOver => exact ⟨rfl, rfl⟩
  | createMint _ _ frame | mintElsewhere _ _ frame | issue _ _ frame | retire _ frame
  | redeemInstantly _ _ _ _ _ frame => exact of_records frame.records
  | initializeStablecoin h => exact of_records h.records
  | process => cases hkind
  | deposit h => exact of_records h.records
  | borrow h => exact of_records h.records
  | repay h => exact of_records h.records
  | liquidate _ h => exact of_records h.records
  | collect _ _ h => exact of_records h.records

theorem exec_queue (h : Action.exec rt s a = .ok s') : QueueStep rt s a s' := by
  by_cases hkind : a.isQueue = false
  · obtain ⟨hqueues, hentries⟩ := (exec_step h).queues hkind
    exact .other hkind hqueues hentries (exec_step h)
  · cases a with
    | world w => exact absurd rfl hkind
    | call clock i =>
      cases i with
      | initRedemptionQueue =>
        obtain ⟨c, rq, h⟩ := initRedemptionQueueHandler_ok h
        exact .requeue h
      | updateRedemptionQueue =>
        obtain ⟨c, rq, h⟩ := updateRedemptionQueueHandler_ok h
        exact .requeue h
      | compactRedemptionHead =>
        obtain ⟨c, rq, h⟩ := compactRedemptionHeadHandler_ok h
        exact .requeue h
      | enqueueRedemption =>
        obtain ⟨c, rq, h⟩ := enqueueRedemptionHandler_ok h
        exact .enqueue h
      | processRedemption =>
        obtain ⟨c, rq, re, hhead, h⟩ := processRedemptionHandler_ok h
        exact .process hhead h
      | cancelRedemption =>
        obtain ⟨c, rq, re, h⟩ := cancelRedemptionHandler_ok h
        exact .refund h
      | _ => exact absurd rfl hkind

/-! ## The tickets it shows -/

def RedemptionEntry.status (re : RedemptionEntry) : Tickets.Status :=
  if re.fulfilled then .served else if re.cancelled then .withdrawn else .waiting

theorem RedemptionEntry.status_waiting {re : RedemptionEntry}
    (h : re.fulfilled = false ∧ re.cancelled = false) : re.status = .waiting := by
  simp [status, h.1, h.2]

theorem RedemptionEntry.status_ne_waiting {re : RedemptionEntry}
    (h : re.cancelled = true ∨ re.fulfilled = true) : re.status ≠ .waiting := by
  unfold status
  rcases h with h | h
  · rw [h, if_pos rfl]
    split <;> exact Tickets.Status.noConfusion
  · rw [h, if_pos rfl]
    exact Tickets.Status.noConfusion

/-- The queue of `M` shows the tickets `q`. The counters of the program stop at the largest
number, and the tickets' go on. -/
structure Shows (M : Pubkey) (s : State) (q : Tickets.Queue) : Prop where
  unopened : s.redemptionQueues (.redemptionQueue M) = none → q = .empty
  ends : ∀ rq, s.redemptionQueues (.redemptionQueue M) = some rq →
    rq.queueHead.toNat = min q.head (2 ^ 64 - 1) ∧ rq.queueTail.toNat = min q.tail (2 ^ 64 - 1)
  status : ∀ i : UInt64, (s.redemptionEntries (.redemptionEntry M i)).map RedemptionEntry.status =
    q.status i.toNat
  tail_le : q.tail ≤ 2 ^ 64
  entries : ∀ i re, s.redemptionEntries (.redemptionEntry M i) = some re →
    re.queueIndex = i ∧ ¬ (re.fulfilled = true ∧ re.cancelled = true)

/-- The next number of the queue of `M`. -/
def State.nextTicket (s : State) (M : Pubkey) : Nat :=
  ((s.redemptionQueues (.redemptionQueue M)).map (·.queueTail.toNat)).getD 0

/-- What a successful transaction shows of the queue of `M`. -/
def queueEvents (M : Pubkey) (s : State) : Action → List Tickets.Event
  | .call _ (.enqueueRedemption a _) =>
    if a.config = .stablecoinConfig M then [.issued (s.nextTicket M)] else []
  | .call _ (.processRedemption a i) =>
    if a.config = .stablecoinConfig M then [.served i.toNat] else []
  | .call _ (.cancelRedemption a i) =>
    if a.config = .stablecoinConfig M then [.withdrawn i.toNat] else []
  | _ => []

theorem queueEvents_of_not_isQueue (h : a.isQueue = false) : queueEvents M s a = [] := by
  cases a with
  | world w => rfl
  | call clock i =>
    cases i with
    | enqueueRedemption | processRedemption | cancelRedemption => cases h
    | _ => rfl

/-- The tickets move on, or stay as they are. -/
def MovesOn (q : Tickets.Queue) (es : List Tickets.Event) (q' : Tickets.Queue) : Prop :=
  q.Step es q' ∨ es = [] ∧ q' = q

/-- The queue exists, and the counters agree. -/
theorem Shows.of_opened {rq : RedemptionQueue}
    (hqueue : s.redemptionQueues (.redemptionQueue M) = some rq)
    (hhead : rq.queueHead.toNat = min q.head (2 ^ 64 - 1))
    (htail : rq.queueTail.toNat = min q.tail (2 ^ 64 - 1))
    (hstatus : ∀ i : UInt64, (s.redemptionEntries (.redemptionEntry M i)).map
      RedemptionEntry.status = q.status i.toNat) (hle : q.tail ≤ 2 ^ 64)
    (hentries : ∀ i re, s.redemptionEntries (.redemptionEntry M i) = some re →
      re.queueIndex = i ∧ ¬ (re.fulfilled = true ∧ re.cancelled = true)) : Shows M s q where
  unopened h := by
    rw [hqueue] at h
    cases h
  ends rq' h := by
    rw [hqueue] at h
    cases h
    exact ⟨hhead, htail⟩
  status := hstatus
  tail_le := hle
  entries := hentries

theorem Shows.of_eq (h : Shows M s q)
    (hqueue : s'.redemptionQueues (.redemptionQueue M) = s.redemptionQueues (.redemptionQueue M))
    (hentries : ∀ i, s'.redemptionEntries (.redemptionEntry M i) =
      s.redemptionEntries (.redemptionEntry M i)) : Shows M s' q where
  unopened := by rw [hqueue]; exact h.unopened
  ends := by rw [hqueue]; exact h.ends
  status i := by rw [hentries]; exact h.status i
  tail_le := h.tail_le
  entries i := by rw [hentries]; exact h.entries i

/-- An entry of another mint is written. -/
theorem entries_of_ne {re : RedemptionEntry} {N : Pubkey} (hN : M ≠ N)
    (h : s'.redemptionEntries = put s.redemptionEntries (.redemptionEntry N i) re) (j : UInt64) :
    s'.redemptionEntries (.redemptionEntry M j) = s.redemptionEntries (.redemptionEntry M j) := by
  rw [h, put_of_ne]
  intro heq
  exact hN (Pubkey.redemptionEntry.inj heq).1

/-- An instruction on the queue of another mint. -/
theorem Shows.of_ne {rq : RedemptionQueue} {N : Pubkey} (h : Shows M s q) (hN : M ≠ N)
    (hqueues : s'.redemptionQueues = put s.redemptionQueues (.redemptionQueue N) rq)
    (hentries : ∀ j, s'.redemptionEntries (.redemptionEntry M j) =
      s.redemptionEntries (.redemptionEntry M j)) : Shows M s' q := by
  refine h.of_eq ?_ hentries
  rw [hqueues, put_of_ne]
  intro heq
  exact hN (Pubkey.redemptionQueue.inj heq)

/-- One entry is written: its ticket is marked. -/
theorem status_put {re : RedemptionEntry} {x : Tickets.Status}
    (h : ∀ j : UInt64, (s.redemptionEntries (.redemptionEntry M j)).map RedemptionEntry.status =
      q.status j.toNat) (hx : re.status = x)
    (hentries : s'.redemptionEntries = put s.redemptionEntries (.redemptionEntry M i) re)
    (j : UInt64) : (s'.redemptionEntries (.redemptionEntry M j)).map RedemptionEntry.status =
      q.mark i.toNat x j.toNat := by
  rw [hentries]
  by_cases hj : j = i
  · rw [hj, put_self, Tickets.Queue.mark_self, Option.map_some, hx]
  · have hne : j.toNat ≠ i.toNat := fun heq => hj (UInt64.toNat_inj.mp heq)
    rw [put_of_ne, Tickets.Queue.mark_of_ne _ _ hne, h j]
    intro heq
    exact hj (Pubkey.redemptionEntry.inj heq).2

theorem entries_put {re : RedemptionEntry}
    (h : ∀ j re, s.redemptionEntries (.redemptionEntry M j) = some re →
      re.queueIndex = j ∧ ¬ (re.fulfilled = true ∧ re.cancelled = true))
    (hentries : s'.redemptionEntries = put s.redemptionEntries (.redemptionEntry M i) re)
    (hi : re.queueIndex = i) (hre : ¬ (re.fulfilled = true ∧ re.cancelled = true))
    (j : UInt64) (re' : RedemptionEntry)
    (h' : s'.redemptionEntries (.redemptionEntry M j) = some re') :
    re'.queueIndex = j ∧ ¬ (re'.fulfilled = true ∧ re'.cancelled = true) := by
  rw [hentries] at h'
  rcases put_eq_some.mp h' with ⟨hj, rfl⟩ | ⟨-, h'⟩
  · rw [(Pubkey.redemptionEntry.inj hj).2]
    exact ⟨hi, hre⟩
  · exact h j re' h'

/-- The head is where the tickets have it while an entry waits there. -/
theorem Shows.head_eq {rq : RedemptionQueue} (h : Shows M s q) (hv : q.Valid)
    (hrq : s.redemptionQueues (.redemptionQueue M) = some rq)
    (hwait : q.status rq.queueHead.toNat = some .waiting) : rq.queueHead.toNat = q.head := by
  have hhead := (h.ends rq hrq).1
  have hle := hv.head_le_of_waiting hwait
  omega

theorem Shows.enqueue {b : EnqueueRedemption} {n : UInt64} {rq : RedemptionQueue}
    (hs : Shows M s q) (hv : q.Valid) (h : Enqueued rt s b n s' c rq) :
    ∃ q', MovesOn q (queueEvents M s (.call clock (.enqueueRedemption b n))) q' ∧
      Shows M s' q' := by
  obtain ⟨re, hentries, hindex, -, -, hful, hcan⟩ := h.entries
  by_cases hM : M = c.mint
  · subst hM
    have hrq := h.queue
    obtain ⟨hhead, htail⟩ := hs.ends rq hrq
    -- the entry is new, so the counter has not been stopped
    have hnew : q.status rq.queueTail.toNat = none := by
      rw [← hs.status, h.free, Option.map_none]
    have hge : ¬ rq.queueTail.toNat < q.tail := by
      intro hlt
      obtain ⟨x, hx⟩ := (hv.issued _).mpr hlt
      rw [hnew] at hx
      cases hx
    have heq : rq.queueTail.toNat = q.tail := by omega
    have hlt := rq.queueTail.toNat_lt
    refine ⟨{ q with tail := q.tail + 1, status := q.mark q.tail .waiting }, .inl ?_, ?_⟩
    · rw [queueEvents, if_pos h.key, State.nextTicket, hrq, Option.map_some, Option.getD_some, heq]
      exact .issue
    · rw [← heq]
      have hqueue := congrFun h.queues (.redemptionQueue c.mint)
      rw [put_self] at hqueue
      refine .of_opened hqueue hhead (UInt64.toNat_saturatingAdd _ _)
        (status_put hs.status (RedemptionEntry.status_waiting ⟨hful, hcan⟩) hentries) ?_
        (entries_put hs.entries hentries hindex ?_)
      · show rq.queueTail.toNat + 1 ≤ 2 ^ 64
        omega
      · rw [hful]
        exact fun h => Bool.noConfusion h.1
  · have hkey : b.config ≠ .stablecoinConfig M := by
      rw [h.key]
      exact fun heq => hM (Pubkey.stablecoinConfig.inj heq).symm
    refine ⟨q, .inr ⟨?_, rfl⟩, hs.of_ne hM h.queues (entries_of_ne hM hentries)⟩
    rw [queueEvents, if_neg hkey]

theorem Shows.process {b : ProcessRedemption} {rq : RedemptionQueue} {re : RedemptionEntry}
    (hs : Shows M s q) (hv : q.Valid) (h : Processed rt s b s' c rq re) :
    ∃ q', MovesOn q (queueEvents M s (.call clock (.processRedemption b rq.queueHead))) q' ∧
      Shows M s' q' := by
  obtain ⟨rq', hqueues, hhead', htail'⟩ := h.queues
  by_cases hM : M = c.mint
  · subst hM
    obtain ⟨hhead, htail⟩ := hs.ends rq h.queue
    have hwait : q.status rq.queueHead.toNat = some .waiting := by
      rw [← hs.status, h.entry, Option.map_some, RedemptionEntry.status_waiting h.waiting]
    have heq := hs.head_eq hv h.queue hwait
    obtain ⟨hindex, -⟩ := hs.entries _ _ h.entry
    refine ⟨{ q with head := q.head + 1, status := q.mark q.head .served }, .inl ?_, ?_⟩
    · rw [queueEvents, if_pos h.key, heq]
      exact .serve (heq ▸ hwait)
    · rw [← heq]
      have hqueue := congrFun hqueues (.redemptionQueue c.mint)
      rw [put_self] at hqueue
      refine .of_opened hqueue (by rw [hhead', UInt64.toNat_saturatingAdd]; rfl) (htail' ▸ htail)
        (status_put hs.status rfl h.entries) hs.tail_le
        (entries_put hs.entries h.entries hindex ?_)
      show ¬ (true = true ∧ re.cancelled = true)
      rw [h.waiting.2]
      exact fun h => Bool.noConfusion h.2
  · have hkey : b.config ≠ .stablecoinConfig M := by
      rw [h.key]
      exact fun heq => hM (Pubkey.stablecoinConfig.inj heq).symm
    refine ⟨q, .inr ⟨?_, rfl⟩, hs.of_ne hM hqueues (entries_of_ne hM h.entries)⟩
    rw [queueEvents, if_neg hkey]

theorem Shows.refund {b : CancelRedemption} {rq : RedemptionQueue} {re : RedemptionEntry}
    (hs : Shows M s q) (hv : q.Valid) (h : Refunded rt s b i s' c rq re) :
    ∃ q', MovesOn q (queueEvents M s (.call clock (.cancelRedemption b i))) q' ∧
      Shows M s' q' := by
  by_cases hM : M = c.mint
  · subst hM
    obtain ⟨hhead, htail⟩ := hs.ends rq h.queue
    have hwait : q.status i.toNat = some .waiting := by
      rw [← hs.status, h.entry, Option.map_some, RedemptionEntry.status_waiting h.waiting]
    have hle := hv.head_le_of_waiting hwait
    have hlt := i.toNat_lt
    have heq : rq.queueHead.toNat = q.head := by omega
    obtain ⟨hindex, -⟩ := hs.entries _ _ h.entry
    refine ⟨{ q with
      head := if i.toNat = q.head then q.head + 1 else q.head
      status := q.mark i.toNat .withdrawn }, .inl ?_, ?_⟩
    · rw [queueEvents, if_pos h.key]
      exact .withdraw hwait
    · have hqueue := congrFun h.queues (.redemptionQueue c.mint)
      rw [put_self] at hqueue
      refine .of_opened hqueue ?_ htail (status_put hs.status ?_ h.entries)
        hs.tail_le (entries_put hs.entries h.entries hindex ?_)
      · show (if i = rq.queueHead then rq.queueHead.saturatingAdd 1 else rq.queueHead).toNat =
          min (if i.toNat = q.head then q.head + 1 else q.head) (2 ^ 64 - 1)
        by_cases hi : i = rq.queueHead
        · rw [if_pos hi, if_pos (hi ▸ heq), UInt64.toNat_saturatingAdd, heq]
          rfl
        · rw [if_neg hi, if_neg fun h => hi (UInt64.toNat_inj.mp (h.trans heq.symm)), hhead]
      · show (if re.fulfilled then _ else _) = _
        rw [h.waiting.1]
        rfl
      · show ¬ (re.fulfilled = true ∧ true = true)
        rw [h.waiting.1]
        exact fun h => Bool.noConfusion h.1
  · have hkey : b.config ≠ .stablecoinConfig M := by
      rw [h.key]
      exact fun heq => hM (Pubkey.stablecoinConfig.inj heq).symm
    refine ⟨q, .inr ⟨?_, rfl⟩, hs.of_ne hM h.queues (entries_of_ne hM h.entries)⟩
    rw [queueEvents, if_neg hkey]

theorem Shows.requeue {j : Instruction} {rq' : RedemptionQueue} (hs : Shows M s q) (hv : q.Valid)
    (h : SetsQueue s j s' c rq') :
    ∃ q', MovesOn q (queueEvents M s (.call clock j)) q' ∧ Shows M s' q' := by
  have hreq := h.requeues
  have hevents : queueEvents M s (.call clock j) = [] := by
    cases hreq with
    | init | update | compact => rfl
  have hstatus : ∀ i : UInt64, (s'.redemptionEntries (.redemptionEntry M i)).map
      RedemptionEntry.status = q.status i.toNat := by
    rw [h.entries]
    exact hs.status
  have hentries : ∀ i re, s'.redemptionEntries (.redemptionEntry M i) = some re →
      re.queueIndex = i ∧ ¬ (re.fulfilled = true ∧ re.cancelled = true) := by
    rw [h.entries]
    exact hs.entries
  by_cases hM : M = c.mint
  · subst hM
    have hqueue : s'.redemptionQueues (.redemptionQueue c.mint) = some rq' := by
      rw [h.queues, put_self]
    cases hreq with
    | init hfree hhead htail =>
      have hempty := hs.unopened hfree
      subst hempty
      refine ⟨.empty, .inr ⟨hevents, rfl⟩, .of_opened hqueue ?_ ?_ hstatus hs.tail_le hentries⟩
      · rw [hhead]
        rfl
      · rw [htail]
        rfl
    | update hrq hhead htail =>
      obtain ⟨hhead', htail'⟩ := hs.ends _ hrq
      exact ⟨q, .inr ⟨hevents, rfl⟩,
        .of_opened hqueue (hhead ▸ hhead') (htail ▸ htail') hstatus hs.tail_le hentries⟩
    | @compact config index rq re hrq hentry hdone =>
      obtain ⟨hhead, htail⟩ := hs.ends rq hrq
      have hmarked : q.status rq.queueHead.toNat = some re.status := by
        rw [← hs.status, hentry, Option.map_some]
      have hlt := hv.lt_tail hmarked
      have hadd := UInt64.toNat_saturatingAdd rq.queueHead 1
      rw [show (1 : UInt64).toNat = 1 from rfl] at hadd
      by_cases hstop : q.head < 2 ^ 64
      · have heq : rq.queueHead.toNat = q.head := by omega
        refine ⟨{ q with head := q.head + 1 }, .inl ?_,
          .of_opened hqueue ?_ htail hstatus hs.tail_le hentries⟩
        · rw [hevents]
          exact .skip (heq ▸ hmarked) (RedemptionEntry.status_ne_waiting hdone)
        · exact hadd.trans (by rw [heq])
      · -- the counter is stuck at its last value, and so is the program
        refine ⟨q, .inr ⟨hevents, rfl⟩, .of_opened hqueue ?_ htail hstatus hs.tail_le hentries⟩
        refine hadd.trans ?_
        omega
  · exact ⟨q, .inr ⟨hevents, rfl⟩, hs.of_ne hM h.queues fun j => by rw [h.entries]⟩

/-- Every successful transaction is a step of the tickets, or none. -/
theorem Shows.step (hs : Shows M s q) (hv : q.Valid) (h : Action.exec rt s a = .ok s') :
    ∃ q', MovesOn q (queueEvents M s a) q' ∧ Shows M s' q' := by
  cases exec_queue h with
  | requeue h => exact hs.requeue hv h
  | enqueue h => exact hs.enqueue hv h
  | process head h =>
    rw [head]
    exact hs.process hv h
  | refund h => exact hs.refund hv h
  | other hkind hqueues hentries =>
    refine ⟨q, .inr ⟨queueEvents_of_not_isQueue hkind, rfl⟩, hs.of_eq ?_ fun i => ?_⟩
    · rw [hqueues]
    · rw [hentries]

/-! ## The escrows -/

section Escrow

variable {o k T : Pubkey} {N : Nat} {n : UInt64} {rq : RedemptionQueue} {re : RedemptionEntry}

theorem Enqueued.holds {b : EnqueueRedemption} (h : Enqueued rt s b n s' c rq)
    (ho : o.isCustodian = true) (hk : s.tokens.Holds k T o N) : s'.tokens.Holds k T o N := by
  obtain ⟨acc, hacc, howner⟩ := h.source
  obtain ⟨t₁, t₂, hinit, hthaw, htransfer⟩ := h.escrowed
  have hne := hk.owner_ne ho hacc howner b.user.isCustodian
  exact htransfer.holds (hthaw.holds (hinit.holds hk)) (.of_ne hne)

theorem Processed.holds {b : ProcessRedemption} (h : Processed rt s b s' c rq re)
    (ho : o.isCustodian = true) (hk : s.tokens.Holds k T o N)
    (hne : .queueEscrow c.mint rq.queueHead ≠ k) : s'.tokens.Holds k T o N := by
  obtain ⟨t, vault, hburn, hvault, howner, htransfer⟩ := h.settled
  have hne' := hk.owner_ne ho hvault howner b.reserveVaultAuthority.isCustodian
  exact htransfer.holds (hburn.holds hk (.of_ne hne)) (.of_ne hne')

theorem Refunded.holds {b : CancelRedemption} (h : Refunded rt s b i s' c rq re)
    (hk : s.tokens.Holds k T o N) (hne : .queueEscrow c.mint i ≠ k) : s'.tokens.Holds k T o N :=
  h.refund.holds hk (.of_ne hne)

theorem Tokens.Retires.holds {t t' : Tokens} {mint : Pubkey} (h : t.Retires mint n t')
    (ho : o.isCustodian = true) (hk : t.Holds k T o N) (hT : t.Undelegated T) :
    t'.Holds k T o N := by
  obtain ⟨t₁, t₂, src, authority, hmoves, signed, hburn, hmoves'⟩ := h
  have hT₁ : t₁.Undelegated T := hT.of_eq hmoves.mints
  have hk₁ := hmoves.holds ho hk fun _ => hT
  have hk₂ := hburn.holds_of_ne hk₁ (fun _ => hT₁) (Tokens.ne_of_isCustodian ho signed)
  exact hmoves'.holds ho hk₂ fun _ => hburn.undelegated hT₁

theorem Tokens.Drawn.holds {t t' : Tokens} {owner : Pubkey} (h : t.Drawn owner t')
    (hk : t.Holds k T o N) (hT : t.Undelegated T) (hne : owner ≠ o) : t'.Holds k T o N := by
  have key : t'.Holds k T o N ∧ t'.Undelegated T := by
    induction h with
    | refl => exact ⟨hk, hT⟩
    | tail _ step ih =>
      obtain ⟨_, _, _, _, _, -, h⟩ := step
      exact ⟨h.holds_of_ne ih.1 (fun _ => ih.2) hne, ih.2.of_eq h.mints⟩
  exact key.1

/-- Outside the queue only a permanent delegate could take from the account of a queue. -/
theorem Step.holds (h : Step rt s a s') (hkind : a.isQueue = false)
    (hk : s.tokens.Holds k T (.redemptionQueue M) N) (hT : s.tokens.Undelegated T) :
    s'.tokens.Holds k T (.redemptionQueue M) N := by
  have signer_ne : ∀ u : Signer, u.key ≠ .redemptionQueue M :=
    fun u => Tokens.ne_of_isCustodian rfl u.isCustodian
  cases h with
  | quiet h => exact h.tokens.holds rfl hk fun _ => hT
  | aside h =>
    cases h with
    | thaw h => exact h.holds hk
    | govern h =>
      rw [h.tokens]
      exact hk
    | enqueue h => exact h.holds rfl hk
    | refund => cases hkind
    | requeue h =>
      rw [h.tokens_eq]
      exact hk
    | certify h =>
      rw [h.tokens_eq]
      exact hk
    | list h => exact h.moves.holds rfl hk fun _ => hT
    | escrow h =>
      rcases h.call.moves with hmoves | ⟨owner, ho, hdrawn⟩
      · exact hmoves.holds rfl hk fun _ => hT
      · exact hdrawn.holds hk hT fun heq => by rw [heq] at ho; cases ho
    | @handOver owner _ _ _ h => exact h.holds rfl hk owner.isCustodian
  | createMint h =>
    obtain ⟨-, -, ht⟩ := h
    rw [ht]
    exact hk.setMint _
  | initializeStablecoin h =>
    obtain ⟨m, -, -, -, -, -, ht⟩ := h.created
    rw [ht]
    exact hk.setMint _
  | mintElsewhere h => exact h.holds hk
  | issue h => exact h.tokens.holds hk
  | retire h => exact h.tokens.holds rfl hk hT
  | redeemInstantly _ _ _ h => exact h.holds rfl hk hT
  | process => cases hkind
  | @deposit _ b _ _ h => exact h.tokens.holds_of_ne hk (fun _ => hT) (signer_ne b.user)
  | borrow h => exact h.tokens.holds hk
  | @repay _ b _ _ _ _ _ _ h =>
    obtain ⟨total, t, -, -, hburn, htransfer⟩ := h.burned
    have ht := hburn.holds_of_ne hk (fun _ => hT) (signer_ne b.user)
    rcases htransfer with ⟨-, htransfer⟩ | ⟨-, heq⟩
    · exact htransfer.holds_of_ne ht (fun _ => hburn.undelegated hT) Pubkey.noConfusion
    · rw [heq]
      exact ht
  | @liquidate _ b _ _ _ _ _ _ _ _ _ h =>
    obtain ⟨t, hburn, htransfer⟩ := h.tokens
    have ht := hburn.holds_of_ne hk (fun _ => hT) (signer_ne b.liquidator)
    exact htransfer.holds_of_ne ht (fun _ => hburn.undelegated hT) Pubkey.noConfusion
  | collect _ _ _ h =>
    rcases h with ⟨ht, -⟩ | ⟨n, h⟩
    · rw [ht]
      exact hk
    · exact h.tokens.holds rfl hk hT

/-- The transaction serves or withdraws ticket `i` of `M`. -/
def Action.settles (M : Pubkey) (i : UInt64) : Action → Prop
  | .call _ (.processRedemption b j) => b.config = .stablecoinConfig M ∧ j = i
  | .call _ (.cancelRedemption b j) => b.config = .stablecoinConfig M ∧ j = i
  | _ => False

/-- Any other transaction leaves an escrow what it has; one that is no queue instruction needs a
mint without a permanent delegate for it. -/
theorem exec_holds (h : Action.exec rt s a = .ok s') (hnot : ¬ a.settles M i)
    (hk : s.tokens.Holds (.queueEscrow M i) T (.redemptionQueue M) N)
    (hT : a.isQueue = false → s.tokens.Undelegated T) :
    s'.tokens.Holds (.queueEscrow M i) T (.redemptionQueue M) N := by
  cases exec_queue h with
  | requeue h =>
    rw [h.tokens_eq]
    exact hk
  | enqueue h => exact h.holds rfl hk
  | process head h =>
    refine h.holds rfl hk fun heq => hnot ?_
    obtain ⟨hM, hi⟩ := Pubkey.queueEscrow.inj heq
    exact ⟨by rw [h.key, hM], head.trans hi⟩
  | refund h =>
    refine h.holds hk fun heq => hnot ?_
    obtain ⟨hM, hi⟩ := Pubkey.queueEscrow.inj heq
    exact ⟨by rw [h.key, hM], hi⟩
  | other hkind _ _ h => exact h.holds hkind hk (hT hkind)

/-- Each entry of `M` has its escrow, owned by the queue. -/
def Escrowed (M : Pubkey) (s : State) : Prop :=
  ∀ i re, s.redemptionEntries (.redemptionEntry M i) = some re →
    ∃ T, s.tokens.Holds (.queueEscrow M i) T (.redemptionQueue M) 0

theorem Escrowed.of_entries (he : Escrowed M s) (h : s.tokens.Changes s'.tokens)
    (hentries : ∀ i re', s'.redemptionEntries (.redemptionEntry M i) = some re' →
      ∃ re, s.redemptionEntries (.redemptionEntry M i) = some re) : Escrowed M s' := by
  intro i re' hre'
  obtain ⟨re, hre⟩ := hentries i re' hre'
  obtain ⟨T, hk⟩ := he i re hre
  exact ⟨T, h.held rfl hk⟩

/-- A fresh escrow belongs to the queue. -/
theorem Enqueued.escrow {b : EnqueueRedemption} (h : Enqueued rt s b n s' c rq) :
    s'.tokens.Holds (.queueEscrow c.mint rq.queueTail) b.stableMint (.redemptionQueue c.mint)
      0 := by
  obtain ⟨t₁, t₂, hinit, hthaw, htransfer⟩ := h.escrowed
  have hnew : t₁.Holds (.queueEscrow c.mint rq.queueTail) b.stableMint
      (.redemptionQueue c.mint) 0 := by
    obtain ⟨m, -, -, rfl⟩ := hinit
    exact ⟨_, put_self .., rfl, rfl, rfl, Nat.zero_le _⟩
  exact htransfer.holds (hthaw.holds hnew) .zero

theorem Escrowed.step (he : Escrowed M s) (h : Action.exec rt s a = .ok s') : Escrowed M s' := by
  have hchanges := (exec_step h).changes
  cases exec_queue h with
  | requeue h =>
    refine he.of_entries hchanges fun i re hre => ⟨re, ?_⟩
    rwa [← h.entries]
  | enqueue h =>
    intro i re' hre'
    obtain ⟨re, hput, -⟩ := h.entries
    rw [hput] at hre'
    rcases put_eq_some.mp hre' with ⟨heq, -⟩ | ⟨-, hre'⟩
    · obtain ⟨rfl, rfl⟩ := Pubkey.redemptionEntry.inj heq
      exact ⟨_, h.escrow⟩
    · obtain ⟨T, hk⟩ := he i re' hre'
      exact ⟨T, hchanges.held rfl hk⟩
  | process _ h =>
    refine he.of_entries hchanges fun i re' hre' => ?_
    rw [h.entries] at hre'
    rcases put_eq_some.mp hre' with ⟨heq, -⟩ | ⟨-, hre'⟩
    · exact ⟨_, heq ▸ h.entry⟩
    · exact ⟨re', hre'⟩
  | refund h =>
    refine he.of_entries hchanges fun i re' hre' => ?_
    rw [h.entries] at hre'
    rcases put_eq_some.mp hre' with ⟨heq, -⟩ | ⟨-, hre'⟩
    · exact ⟨_, heq ▸ h.entry⟩
    · exact ⟨re', hre'⟩
  | other _ _ hentries h =>
    refine he.of_entries hchanges fun i re hre => ⟨re, ?_⟩
    rwa [← hentries]

end Escrow

/-! ## Every run -/

/-- What an account holds, nothing if there is none. -/
def Tokens.held (t : Tokens) (k : Pubkey) : Nat := ((t.accounts k).map (·.amount.toNat)).getD 0

theorem Tokens.Holds.le_held {t : Tokens} {k T o : Pubkey} {N : Nat} (h : t.Holds k T o N) :
    N ≤ t.held k := by
  obtain ⟨acc, hacc, -, -, -, hN⟩ := h
  rwa [Tokens.held, hacc, Option.map_some, Option.getD_some]

theorem Tokens.Holds.of_held {t : Tokens} {k T o : Pubkey} {N : Nat} (h : t.Holds k T o N) :
    t.Holds k T o (t.held k) := by
  obtain ⟨acc, hacc, hmint, howner, hdelegate, -⟩ := h
  refine ⟨acc, hacc, hmint, howner, hdelegate, ?_⟩
  rw [Tokens.held, hacc, Option.map_some, Option.getD_some]

/-- How the amount of an entry leaves its escrow: burned, with nothing else taken, or sent back to
an account of its owner. -/
inductive Released (M : Pubkey) (i : UInt64) (re : RedemptionEntry) (s : State) :
    Action → State → Prop where
  | burned {clock : Clock} {b : ProcessRedemption} {t : Tokens} {s' : State}
    (burn : s.tokens.Burns b.stableMint (.queueEscrow M i) (.redemptionQueue M) re.amount t)
    (rest : t.held (.queueEscrow M i) ≤ s'.tokens.held (.queueEscrow M i)) :
    Released M i re s (.call clock (.processRedemption b i)) s'
  | refunded {clock : Clock} {b : CancelRedemption} {fee : UInt64} {acc : TokenAccount}
    {s' : State}
    (refund : s.tokens.Transfers (.queueEscrow M i) b.stableMint b.userStableAta
      (.redemptionQueue M) re.amount fee s'.tokens)
    (account : s.tokens.accounts b.userStableAta = some acc) (owner : acc.owner = re.owner) :
    Released M i re s (.call clock (.cancelRedemption b i)) s'

/-- What a successful transaction does to the entries of `M` and their escrows. -/
structure EscrowSafe (M : Pubkey) (s : State) (a : Action) (s' : State) : Prop where
  /-- An entry stays, with its owner and its amount. -/
  entry : ∀ i re, s.redemptionEntries (.redemptionEntry M i) = some re →
    ∃ re', s'.redemptionEntries (.redemptionEntry M i) = some re' ∧ re'.owner = re.owner ∧
      re'.amount = re.amount
  /-- Serving or withdrawing a ticket releases the amount of its entry. -/
  released : ∀ i, a.settles M i → ∃ re, s.redemptionEntries (.redemptionEntry M i) = some re ∧
    re.fulfilled = false ∧ re.cancelled = false ∧ Released M i re s a s'
  /-- Nothing else takes anything out. An instruction outside the queue could, if the mint of the
  escrow had a permanent delegate. -/
  kept : ∀ i re acc, s.redemptionEntries (.redemptionEntry M i) = some re → ¬ a.settles M i →
    s.tokens.accounts (.queueEscrow M i) = some acc →
    (a.isQueue = false → s.tokens.Undelegated acc.mint) →
    s.tokens.held (.queueEscrow M i) ≤ s'.tokens.held (.queueEscrow M i)

/-- One entry is rewritten and keeps owner and amount. -/
theorem entry_put {re re₁ re₂ : RedemptionEntry} {N : Pubkey} {j : UInt64}
    (hre : s.redemptionEntries (.redemptionEntry M i) = some re)
    (hre₁ : s.redemptionEntries (.redemptionEntry N j) = some re₁)
    (hput : s'.redemptionEntries = put s.redemptionEntries (.redemptionEntry N j) re₂)
    (howner : re₂.owner = re₁.owner) (hamount : re₂.amount = re₁.amount) :
    ∃ re', s'.redemptionEntries (.redemptionEntry M i) = some re' ∧ re'.owner = re.owner ∧
      re'.amount = re.amount := by
  rw [hput]
  by_cases heq : Pubkey.redemptionEntry M i = .redemptionEntry N j
  · rw [← heq, hre] at hre₁
    cases hre₁
    exact ⟨re₂, by rw [heq, put_self], howner, hamount⟩
  · exact ⟨re, by rw [put_of_ne _ _ heq, hre], rfl, rfl⟩

theorem Escrowed.safe (he : Escrowed M s) (h : Action.exec rt s a = .ok s') :
    EscrowSafe M s a s' where
  entry i re hre := by
    cases exec_queue h with
    | requeue h => exact ⟨re, by rw [h.entries, hre], rfl, rfl⟩
    | enqueue h =>
      obtain ⟨re', hput, -⟩ := h.entries
      refine ⟨re, ?_, rfl, rfl⟩
      rw [hput, put_of_ne, hre]
      intro heq
      rw [heq, h.free] at hre
      cases hre
    | process _ h => exact entry_put hre h.entry h.entries rfl rfl
    | refund h => exact entry_put hre h.entry h.entries rfl rfl
    | other _ _ hentries => exact ⟨re, by rw [hentries, hre], rfl, rfl⟩
  released i hi := by
    cases exec_queue h with
    | requeue h =>
      cases h.requeues with
      | init | update | compact => cases hi
    | enqueue => cases hi
    | process head hp =>
      obtain ⟨hM, rfl⟩ := hi
      subst head
      obtain rfl := Pubkey.stablecoinConfig.inj (hp.key.symm.trans hM)
      refine ⟨_, hp.entry, hp.waiting.1, hp.waiting.2, ?_⟩
      obtain ⟨t, vault, hburn, hvault, howner, htransfer⟩ := hp.settled
      refine .burned hburn ?_
      obtain ⟨T, hk⟩ := he _ _ hp.entry
      have hne := hk.owner_ne rfl hvault howner (Signer.isCustodian _)
      exact (htransfer.holds (hburn.holds hk .zero).of_held (.of_ne hne)).le_held
    | refund h =>
      obtain ⟨hM, rfl⟩ := hi
      obtain rfl := Pubkey.stablecoinConfig.inj (h.key.symm.trans hM)
      obtain ⟨acc, hacc, howner⟩ := h.destination
      exact ⟨_, h.entry, h.waiting.1, h.waiting.2, .refunded h.refund hacc
        (howner.trans h.owner.symm)⟩
    | other hkind =>
      cases a with
      | world w => cases hi
      | call clock j =>
        cases j with
        | processRedemption | cancelRedemption => cases hkind
        | _ => cases hi
  kept i re acc hre hnot hacc hT := by
    obtain ⟨T, hk⟩ := he i re hre
    have hmint : acc.mint = T := by
      obtain ⟨acc', hacc', hmint, -⟩ := hk
      rw [hacc] at hacc'
      cases hacc'
      exact hmint
    exact (exec_holds h hnot hk.of_held (hmint ▸ hT)).le_held

/-- The queue of `M` after a run with the history `es` of its tickets. -/
structure Fifo (M : Pubkey) (s : State) (es : List Tickets.Event) : Prop where
  head_le : ∀ rq, s.redemptionQueues (.redemptionQueue M) = some rq → rq.queueHead ≤ rq.queueTail
  /-- Each number below the tail was issued once, and to the entry at that number. -/
  issued : ∀ rq, s.redemptionQueues (.redemptionQueue M) = some rq → ∀ i < rq.queueTail,
    es.count (.issued i.toNat) = 1 ∧
      ∃ re, s.redemptionEntries (.redemptionEntry M i) = some re ∧ re.queueIndex = i
  /-- Each entry below the head is fulfilled or cancelled, and not both. -/
  done : ∀ rq, s.redemptionQueues (.redemptionQueue M) = some rq → ∀ i < rq.queueHead,
    ∃ re, s.redemptionEntries (.redemptionEntry M i) = some re ∧
      (re.fulfilled = true ∧ re.cancelled = false ∨ re.fulfilled = false ∧ re.cancelled = true)
  exclusive : ∀ i re, s.redemptionEntries (.redemptionEntry M i) = some re →
    ¬ (re.fulfilled = true ∧ re.cancelled = true)
  /-- Fulfilled entries were served and cancelled ones withdrawn. -/
  settled : ∀ i re, s.redemptionEntries (.redemptionEntry M i) = some re →
    (re.fulfilled = true ↔ .served i.toNat ∈ es) ∧ (re.cancelled = true ↔ .withdrawn i.toNat ∈ es)
  /-- Nobody is served or refunded twice. -/
  once : ∀ i, es.count (.issued i) ≤ 1 ∧ es.count (.served i) + es.count (.withdrawn i) ≤ 1
  ascending : (es.filterMap Tickets.Event.served?).Pairwise (· < ·)
  /-- When a ticket was served, those before it had been served or withdrawn. -/
  passed : ∀ pre post i, es = pre ++ .served i :: post →
    ∀ j < i, .served j ∈ pre ∨ .withdrawn j ∈ pre

theorem RedemptionEntry.status_served {re : RedemptionEntry} :
    re.status = .served ↔ re.fulfilled = true := by
  unfold status
  cases re.fulfilled <;> cases re.cancelled <;> simp

theorem RedemptionEntry.status_withdrawn {re : RedemptionEntry} :
    re.status = .withdrawn ↔ re.fulfilled = false ∧ re.cancelled = true := by
  unfold status
  cases re.fulfilled <;> cases re.cancelled <;> simp

theorem Shows.fifo {es : List Tickets.Event} (hs : Shows M s q) (hv : q.Valid)
    (hr : q.Recorded es) : Fifo M s es where
  head_le rq hrq := by
    obtain ⟨hhead, htail⟩ := hs.ends rq hrq
    have := hv.head_le
    rw [UInt64.le_iff_toNat_le]
    omega
  issued rq hrq i hi := by
    have hlt : i.toNat < q.tail := by
      have := (hs.ends rq hrq).2
      have := UInt64.lt_iff_toNat_lt.mp hi
      omega
    obtain ⟨x, hx⟩ := (hv.issued _).mpr hlt
    rw [← hs.status, Option.map_eq_some_iff] at hx
    obtain ⟨re, hre, -⟩ := hx
    exact ⟨by rw [hr.issued, if_pos hlt], re, hre, (hs.entries i re hre).1⟩
  done rq hrq i hi := by
    have hlt : i.toNat < q.head := by
      have := (hs.ends rq hrq).1
      have := UInt64.lt_iff_toNat_lt.mp hi
      omega
    have hstatus := hs.status i
    rcases hv.done hlt with h | h
    · rw [h, Option.map_eq_some_iff] at hstatus
      obtain ⟨re, hre, hx⟩ := hstatus
      have hful := RedemptionEntry.status_served.mp hx
      exact ⟨re, hre, .inl ⟨hful, by simpa [hful] using (hs.entries i re hre).2⟩⟩
    · rw [h, Option.map_eq_some_iff] at hstatus
      obtain ⟨re, hre, hx⟩ := hstatus
      exact ⟨re, hre, .inr (RedemptionEntry.status_withdrawn.mp hx)⟩
  exclusive i re hre := (hs.entries i re hre).2
  settled i re hre := by
    have hstatus := hs.status i
    rw [hre, Option.map_some] at hstatus
    have hex := (hs.entries i re hre).2
    rw [hr.served_mem, hr.withdrawn_mem, ← hstatus, Option.some.injEq, Option.some.injEq,
      RedemptionEntry.status_served, RedemptionEntry.status_withdrawn]
    refine ⟨.rfl, fun hcan => ⟨?_, hcan⟩, And.right⟩
    simpa [hcan] using hex
  once i := by
    rw [hr.issued, hr.served, hr.withdrawn]
    refine ⟨by split <;> omega, ?_⟩
    by_cases h : q.status i = some .served
    · simp [h]
    · rw [if_neg h]
      split <;> omega
  ascending := hr.ascending
  passed := hr.passed

/-- No account of the program is there yet, and the token program covers all balances. -/
structure Blank (s : State) : Prop extends Genesis s where
  redemptionQueues : ∀ k, s.redemptionQueues k = none
  redemptionEntries : ∀ k, s.redemptionEntries k = none
  sound : s.tokens.Sound

theorem Blank.shows (h : Blank s) : Shows M s .empty where
  unopened _ := rfl
  ends rq hrq := by
    rw [h.redemptionQueues] at hrq
    cases hrq
  status i := by
    rw [h.redemptionEntries]
    rfl
  tail_le := Nat.zero_le _
  entries i re hre := by
    rw [h.redemptionEntries] at hre
    cases hre

theorem Blank.escrowed (h : Blank s) : Escrowed M s := by
  intro i re hre
  rw [h.redemptionEntries] at hre
  cases hre

/-- The queue of `M` shows tickets with the history `es`. -/
def Tracks (M : Pubkey) (s : State) (es : List Tickets.Event) : Prop :=
  ∃ q, Tickets.Queue.Run .empty es q ∧ Shows M s q

theorem Tracks.step {es : List Tickets.Event} (ht : Tracks M s es)
    (h : Action.exec rt s a = .ok s') : Tracks M s' (es ++ queueEvents M s a) := by
  obtain ⟨q, hrun, hs⟩ := ht
  obtain ⟨hv, -⟩ := hrun.recorded
  obtain ⟨q', hmove | ⟨hnone, rfl⟩, hs'⟩ := hs.step hv h
  · exact ⟨q', .snoc hrun hmove, hs'⟩
  · exact ⟨q', by rwa [hnone, List.append_nil], hs'⟩

/-- Along every run of all instructions, in any order and by anybody, the redemption queue of a
mint is first in, first out, and each amount in escrow leaves once, burned for its entry or sent
back to its owner. -/
theorem redemption_queue_fifo (rt : Runtime) (M : Pubkey) (hs : Blank s) (as : List Action) :
    Fifo M (run rt s as) (history (Action.exec rt) (queueEvents M) s as) ∧
      Along (Action.exec rt)
        (fun s a => ∀ s', Action.exec rt s a = .ok s' → EscrowSafe M s a s') s as := by
  have anything : Along (Action.exec rt) (fun _ _ => True) s as :=
    along_of_forall fun _ _ _ => trivial
  constructor
  · have htracks : Tracks M (run rt s as) ([] ++ history (Action.exec rt) (queueEvents M) s as) :=
      invariant_history (I := Tracks M) (fun ht _ h => ht.step h) ⟨.empty, .nil .empty, hs.shows⟩
        anything
    obtain ⟨q, hrun, hshows⟩ := htracks
    obtain ⟨hv, hr⟩ := hrun.recorded
    exact hshows.fifo hv hr
  · exact along_of_invariant (fun he h => Escrowed.step he h)
      (fun he _ s' h => Escrowed.safe he h) hs.escrowed anything

namespace Market

theorem genesis_blank : Blank genesis where
  toGenesis := genesis_genesis
  redemptionQueues _ := rfl
  redemptionEntries _ := rfl
  sound := genesis_sound

/-- A second entry is enqueued and cancelled, and then the first is processed. -/
def served : List Action :=
  funded 1000 ++ reserves ++ timelocked adminOpSetFeatureFlag flagRedemptionQueue 1 ++ queue ++
    [ .call (day 2) (.enqueueRedemption
        { user, config, userStableAta := userStable.key, stableMint := mint.key } 2),
      .call (day 2) (.cancelRedemption
        { owner := user, config, userStableAta := userStable.key, stableMint := mint.key } 1),
      .call (day 3) processHead ]

end Market

open Market in
/-- One ticket is withdrawn and one served. -/
theorem redemption_queue_fifo_served :
    history (Action.exec localRuntime) (queueEvents mint.key) genesis served =
      [.issued 0, .issued 1, .withdrawn 1, .served 0] ∧
    Fifo mint.key (run localRuntime genesis served)
      (history (Action.exec localRuntime) (queueEvents mint.key) genesis served) :=
  ⟨by decide +kernel,
    (redemption_queue_fifo localRuntime mint.key genesis_blank served).1⟩

end SolanaStablecoin
