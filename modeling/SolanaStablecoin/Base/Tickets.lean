import Mathlib.Data.List.Count
import Mathlib.Data.List.Range
import Mathlib.Logic.Function.Basic

/-! A queue of numbered tickets. Tickets are issued at the tail and served at the head; one that
waits may be withdrawn wherever it stands, and the head steps over tickets that are done with.

The history of a run tells who came when: each ticket below the tail was issued once, and each
below the head was either served or withdrawn, once. -/

namespace Tickets

inductive Status where
  | waiting
  | served
  | withdrawn
deriving DecidableEq

structure Queue where
  head : Nat
  tail : Nat
  /-- Tickets that have not been issued have no status. -/
  status : Nat → Option Status

inductive Event where
  | issued (i : Nat)
  | served (i : Nat)
  | withdrawn (i : Nat)
deriving DecidableEq

/-- The number of a served ticket. -/
def Event.served? : Event → Option Nat
  | .served i => some i
  | _ => none

namespace Queue

def empty : Queue := { head := 0, tail := 0, status := fun _ => none }

def mark (q : Queue) (i : Nat) (x : Status) : Nat → Option Status :=
  Function.update q.status i (some x)

/-- One step and what it shows. -/
inductive Step (q : Queue) : List Event → Queue → Prop where
  | issue : q.Step [.issued q.tail] { q with tail := q.tail + 1, status := q.mark q.tail .waiting }
  | serve (waiting : q.status q.head = some .waiting) :
    q.Step [.served q.head] { q with head := q.head + 1, status := q.mark q.head .served }
  | withdraw {i : Nat} (waiting : q.status i = some .waiting) :
    q.Step [.withdrawn i]
      { q with
        head := if i = q.head then q.head + 1 else q.head
        status := q.mark i .withdrawn }
  | skip {x : Status} (status : q.status q.head = some x) (done : x ≠ .waiting) :
    q.Step [] { q with head := q.head + 1 }

/-- A run of the queue with its history. -/
inductive Run : Queue → List Event → Queue → Prop where
  | nil (q : Queue) : Run q [] q
  | snoc {q q' q'' : Queue} {es es' : List Event} (init : Run q es q') (last : q'.Step es' q'') :
    Run q (es ++ es') q''

variable {q q' : Queue} {es es' : List Event} {i j : Nat} {x : Status}

@[simp] theorem mark_self (q : Queue) (i : Nat) (x : Status) : q.mark i x i = some x :=
  Function.update_self ..

theorem mark_of_ne (q : Queue) (x : Status) (h : j ≠ i) : q.mark i x j = q.status j :=
  Function.update_of_ne h ..

/-! ## What every reachable queue satisfies -/

/-- The tickets below the tail are the issued ones, and none below the head still waits. -/
structure Valid (q : Queue) : Prop where
  head_le : q.head ≤ q.tail
  issued : ∀ i, (∃ x, q.status i = some x) ↔ i < q.tail
  behind : ∀ i < q.head, q.status i ≠ some .waiting
  ahead : ∀ i, q.status i = some .served → i < q.head

theorem empty_valid : empty.Valid where
  head_le := Nat.le_refl 0
  issued i := by simp [empty]
  behind i hi := by cases hi
  ahead i h := by cases h

theorem Valid.lt_tail (h : q.Valid) (hi : q.status i = some x) : i < q.tail :=
  (h.issued i).mp ⟨x, hi⟩

/-- A ticket that waits is not below the head. -/
theorem Valid.head_le_of_waiting (h : q.Valid) (hi : q.status i = some .waiting) : q.head ≤ i := by
  by_contra hlt
  exact h.behind i (Nat.lt_of_not_le hlt) hi

/-- A ticket below the head is done with. -/
theorem Valid.done (h : q.Valid) (hi : i < q.head) :
    q.status i = some .served ∨ q.status i = some .withdrawn := by
  obtain ⟨x, hx⟩ := (h.issued i).mpr (Nat.lt_of_lt_of_le hi h.head_le)
  cases x with
  | waiting => exact absurd hx (h.behind i hi)
  | served => exact .inl hx
  | withdrawn => exact .inr hx

/-- Changing the status of an issued ticket. -/
theorem Valid.issued_mark (h : q.Valid) (hi : i < q.tail) (j : Nat) :
    (∃ y, q.mark i x j = some y) ↔ j < q.tail := by
  by_cases hj : j = i
  · rw [hj, mark_self]
    exact ⟨fun _ => hi, fun _ => ⟨x, rfl⟩⟩
  · rw [mark_of_ne _ _ hj]
    exact h.issued j

theorem Step.valid (hs : q.Step es q') (h : q.Valid) : q'.Valid := by
  cases hs with
  | issue =>
    refine ⟨Nat.le_succ_of_le h.head_le, fun j => ?_, fun j hj => ?_, fun j hj => ?_⟩
    · show (∃ y, q.mark q.tail .waiting j = some y) ↔ j < q.tail + 1
      by_cases hjt : j = q.tail
      · simp [hjt]
      · rw [mark_of_ne _ _ hjt, h.issued]
        omega
    · have hlt : j < q.tail := Nat.lt_of_lt_of_le hj h.head_le
      show q.mark q.tail .waiting j ≠ _
      rw [mark_of_ne _ _ (Nat.ne_of_lt hlt)]
      exact h.behind j hj
    · change q.mark q.tail .waiting j = _ at hj
      by_cases hjt : j = q.tail
      · simp [hjt] at hj
      · rw [mark_of_ne _ _ hjt] at hj
        exact h.ahead j hj
  | serve waiting =>
    have hlt := h.lt_tail waiting
    refine ⟨hlt, h.issued_mark hlt, fun j hj => ?_, fun j hj => ?_⟩
    · show q.mark q.head .served j ≠ _
      by_cases hjh : j = q.head
      · simp [hjh]
      · rw [mark_of_ne _ _ hjh]
        exact h.behind j (by change j < q.head + 1 at hj; omega)
    · change q.mark q.head .served j = _ at hj
      show j < q.head + 1
      by_cases hjh : j = q.head
      · omega
      · rw [mark_of_ne _ _ hjh] at hj
        have := h.ahead j hj
        omega
  | @withdraw i waiting =>
    have hlt := h.lt_tail waiting
    have hle := h.head_le_of_waiting waiting
    refine ⟨?_, h.issued_mark hlt, fun j hj => ?_, fun j hj => ?_⟩
    · show (if i = q.head then q.head + 1 else q.head) ≤ q.tail
      split <;> omega
    · show q.mark i .withdrawn j ≠ _
      change j < if i = q.head then q.head + 1 else q.head at hj
      by_cases hji : j = i
      · simp [hji]
      · rw [mark_of_ne _ _ hji]
        exact h.behind j (by split at hj <;> omega)
    · change q.mark i .withdrawn j = _ at hj
      show j < if i = q.head then q.head + 1 else q.head
      by_cases hji : j = i
      · simp [hji] at hj
      · rw [mark_of_ne _ _ hji] at hj
        have := h.ahead j hj
        split <;> omega
  | @skip x status done =>
    have hlt := h.lt_tail status
    refine ⟨hlt, h.issued, fun j hj => ?_, fun j hj => Nat.lt_succ_of_lt (h.ahead j hj)⟩
    change j < q.head + 1 at hj
    by_cases hjh : j = q.head
    · rw [hjh, status]
      exact fun h => done (Option.some.inj h)
    · exact h.behind j (by omega)

/-! ## What the history tells -/

/-- The history and the queue agree: it has issued each ticket once, and served or withdrawn each
that is marked so; tickets were served in order, and when one was served all below it were done
with. -/
structure Recorded (q : Queue) (es : List Event) : Prop where
  issued : ∀ i, es.count (.issued i) = if i < q.tail then 1 else 0
  served : ∀ i, es.count (.served i) = if q.status i = some .served then 1 else 0
  withdrawn : ∀ i, es.count (.withdrawn i) = if q.status i = some .withdrawn then 1 else 0
  ascending : (es.filterMap Event.served?).Pairwise (· < ·)
  passed : ∀ pre post i, es = pre ++ .served i :: post →
    ∀ j < i, .served j ∈ pre ∨ .withdrawn j ∈ pre

theorem empty_recorded : empty.Recorded [] where
  issued i := by simp [empty]
  served i := by simp [empty]
  withdrawn i := by simp [empty]
  ascending := .nil
  passed pre post i h := by simp at h

theorem Recorded.served_mem (h : q.Recorded es) :
    .served i ∈ es ↔ q.status i = some .served := by
  rw [← List.count_pos_iff, h.served]
  split <;> simp_all

theorem Recorded.withdrawn_mem (h : q.Recorded es) :
    .withdrawn i ∈ es ↔ q.status i = some .withdrawn := by
  rw [← List.count_pos_iff, h.withdrawn]
  split <;> simp_all

/-- A ticket that is neither served nor withdrawn so far may be marked once. -/
theorem ite_mark (hi : q.status i ≠ some x) (j : Nat) :
    (if q.mark i x j = some x then 1 else 0) =
      (if q.status j = some x then 1 else 0) + if j = i then 1 else 0 := by
  by_cases hj : j = i
  · subst hj
    simp [hi]
  · simp [mark_of_ne _ _ hj, hj]

/-- Marking a ticket otherwise leaves those marked `x` as they are. -/
theorem ite_mark_of_ne {y : Status} (hi : q.status i ≠ some x) (hxy : y ≠ x) (j : Nat) :
    (if q.mark i y j = some x then 1 else 0) = if q.status j = some x then 1 else 0 := by
  by_cases hj : j = i
  · subst hj
    simp [hi, hxy]
  · simp [mark_of_ne _ _ hj]

theorem count_served_singleton (i j : Nat) :
    [Event.served i].count (.served j) = if j = i then 1 else 0 := by
  by_cases h : j = i
  · rw [h, List.count_singleton_self, if_pos rfl]
  · rw [List.count_singleton, if_neg h, if_neg (by simpa using Ne.symm h)]

theorem count_withdrawn_singleton (i j : Nat) :
    [Event.withdrawn i].count (.withdrawn j) = if j = i then 1 else 0 := by
  by_cases h : j = i
  · rw [h, List.count_singleton_self, if_pos rfl]
  · rw [List.count_singleton, if_neg h, if_neg (by simpa using Ne.symm h)]

/-- An event that serves nobody is not seen among the served. -/
theorem served_append {e : Event} (he : e.served? = none) :
    (es ++ [e]).filterMap Event.served? = es.filterMap Event.served? := by
  rw [List.filterMap_append, List.filterMap_cons_none he, List.filterMap_nil, List.append_nil]

/-- It keeps the order of service. -/
theorem passed_append {e : Event} (h : q.Recorded es) (he : e.served? = none)
    {pre post : List Event} (heq : es ++ [e] = pre ++ .served i :: post) (hj : j < i) :
    .served j ∈ pre ∨ .withdrawn j ∈ pre := by
  rcases List.eq_nil_or_concat post with rfl | ⟨post, e', rfl⟩
  · obtain ⟨-, hlast⟩ := List.append_inj' heq rfl
    simp only [List.cons.injEq, and_true] at hlast
    rw [hlast] at he
    cases he
  · rw [List.concat_eq_append, ← List.cons_append, ← List.append_assoc] at heq
    exact h.passed pre post i (List.append_inj' heq rfl).1 j hj

theorem Step.recorded (hs : q.Step es' q') (hv : q.Valid) (h : q.Recorded es) :
    q'.Recorded (es ++ es') := by
  cases hs with
  | issue =>
    have hfree : ∀ y, q.status q.tail ≠ some y := fun y hy => Nat.lt_irrefl _ (hv.lt_tail hy)
    refine ⟨fun j => ?_, fun j => ?_, fun j => ?_, ?_, fun pre post j heq k hk => ?_⟩
    · rw [List.count_append, h.issued, List.count_singleton]
      show _ = if j < q.tail + 1 then 1 else 0
      by_cases hj : j = q.tail
      · simp [hj]
      · have : ¬ q.tail = j := fun heq => hj heq.symm
        simp only [beq_iff_eq, Event.issued.injEq, this, if_false, Nat.add_zero]
        congr 1
        simp only [eq_iff_iff]
        omega
    · rw [List.count_append, h.served]
      simpa using (ite_mark_of_ne (hfree .served) (by decide) j).symm
    · rw [List.count_append, h.withdrawn]
      simpa using (ite_mark_of_ne (hfree .withdrawn) (by decide) j).symm
    · rw [served_append rfl]
      exact h.ascending
    · exact passed_append h rfl heq hk
  | serve waiting =>
    have hserved : q.status q.head ≠ some .served := by simp [waiting]
    have hwithdrawn : q.status q.head ≠ some .withdrawn := by simp [waiting]
    refine ⟨fun j => ?_, fun j => ?_, fun j => ?_, ?_, fun pre post j heq k hk => ?_⟩
    · rw [List.count_append, h.issued]
      simp
    · rw [List.count_append, h.served]
      show _ = if q.mark q.head .served j = some .served then 1 else 0
      rw [ite_mark hserved, count_served_singleton]
    · rw [List.count_append, h.withdrawn]
      simpa using (ite_mark_of_ne hwithdrawn (by decide) j).symm
    · -- all that were served before lie below the head
      rw [List.filterMap_append, List.pairwise_append]
      refine ⟨h.ascending, List.pairwise_singleton _ _, fun j hj k hk => ?_⟩
      obtain ⟨e, he, hej⟩ := List.mem_filterMap.mp hj
      cases e with
      | served j' =>
        cases hej
        rw [List.mem_singleton.mp hk]
        exact hv.ahead j (h.served_mem.mp he)
      | issued j' | withdrawn j' => cases hej
    · rcases List.eq_nil_or_concat post with rfl | ⟨post, e', rfl⟩
      · obtain ⟨rfl, hlast⟩ := List.append_inj' heq rfl
        simp only [List.cons.injEq, Event.served.injEq, and_true] at hlast
        rw [h.served_mem, h.withdrawn_mem]
        exact hv.done (by omega)
      · rw [List.concat_eq_append, ← List.cons_append, ← List.append_assoc] at heq
        exact h.passed pre post j (List.append_inj' heq rfl).1 k hk
  | @withdraw i waiting =>
    have hserved : q.status i ≠ some .served := by simp [waiting]
    have hwithdrawn : q.status i ≠ some .withdrawn := by simp [waiting]
    refine ⟨fun j => ?_, fun j => ?_, fun j => ?_, ?_, fun pre post j heq k hk => ?_⟩
    · rw [List.count_append, h.issued]
      simp
    · rw [List.count_append, h.served]
      simpa using (ite_mark_of_ne hserved (by decide) j).symm
    · rw [List.count_append, h.withdrawn]
      show _ = if q.mark i .withdrawn j = some .withdrawn then 1 else 0
      rw [ite_mark hwithdrawn, count_withdrawn_singleton]
    · rw [served_append rfl]
      exact h.ascending
    · exact passed_append h rfl heq hk
  | skip status done =>
    rw [List.append_nil]
    exact ⟨h.issued, h.served, h.withdrawn, h.ascending, h.passed⟩

/-- Every run from the empty queue is valid and recorded by its history. -/
theorem Run.recorded (h : Run empty es q) : q.Valid ∧ q.Recorded es := by
  induction h with
  | nil => exact ⟨empty_valid, empty_recorded⟩
  | snoc init last ih =>
    obtain ⟨hv, hr⟩ := ih
    exact ⟨last.valid hv, last.recorded hv hr⟩

end Queue

end Tickets
