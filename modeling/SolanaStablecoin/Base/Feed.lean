import Mathlib.Data.List.TakeWhile

/-! A feed that is read through a cursor, newest item first, and a log of rows, of which each may
carry the key of the item it comes from. -/

universe u v w

namespace Feed

variable {α : Type u} {κ : Type v} [DecidableEq κ] (key : α → κ)

/-- What is newer than the cursor; everything, if there is no cursor. -/
def unseen (feed : List α) (cursor : Option κ) : List α :=
  feed.takeWhile fun x => some (key x) ≠ cursor

/-- What is at the cursor or before it. -/
def seen (feed : List α) (cursor : Option κ) : List α :=
  feed.dropWhile fun x => some (key x) ≠ cursor

variable {key} {feed : List α} {cursor : Option κ} {x : α} {k : κ}

theorem mem_unseen_or_seen (h : x ∈ feed) (cursor : Option κ) :
    x ∈ unseen key feed cursor ∨ x ∈ seen key feed cursor := by
  rw [← List.mem_append, unseen, seen, List.takeWhile_append_dropWhile]
  exact h

theorem mem_of_mem_seen (h : x ∈ seen key feed cursor) : x ∈ feed :=
  (List.dropWhile_sublist _).mem h

theorem mem_of_mem_unseen (h : x ∈ unseen key feed cursor) : x ∈ feed :=
  (List.takeWhile_sublist _).mem h

@[simp] theorem seen_none : seen key feed none = [] := by
  exact List.dropWhile_eq_nil_iff.mpr fun x _ => by simp

/-- What comes in later is unseen. -/
theorem seen_cons (h : some (key x) ≠ cursor) :
    seen key (x :: feed) cursor = seen key feed cursor :=
  List.dropWhile_cons_of_pos (by simpa using h)

/-! ## Rows by key -/

variable {ρ : Type w} (tag : ρ → Option κ)

def tagged (k : κ) (rows : List ρ) : List ρ := rows.filter (tag · = some k)

variable {tag} {rows : List ρ} {xs : List α} {out : α → List ρ}

@[simp] theorem tagged_append (k : κ) (rows more : List ρ) :
    tagged tag k (rows ++ more) = tagged tag k rows ++ tagged tag k more :=
  List.filter_append ..

theorem tagged_eq_nil (h : ∀ r ∈ rows, tag r ≠ some k) : tagged tag k rows = [] :=
  List.filter_eq_nil_iff.mpr (by simpa using h)

theorem tagged_eq_self (h : ∀ r ∈ rows, tag r = some k) : tagged tag k rows = rows :=
  List.filter_eq_self.mpr (by simpa using h)

/-- Items that are not among those written have no new rows. -/
theorem tagged_flatMap_of_notMem (htag : ∀ x ∈ xs, ∀ r ∈ out x, tag r = some (key x))
    (h : k ∉ xs.map key) : tagged tag k (xs.flatMap out) = [] := by
  refine tagged_eq_nil fun r hr heq => ?_
  obtain ⟨x, hx, hout⟩ := List.mem_flatMap.mp hr
  rw [htag x hx r hout] at heq
  exact h (Option.some.inj heq ▸ List.mem_map_of_mem hx)

/-- Where the keys are distinct, the rows with the key of an item are those written for it. -/
theorem tagged_flatMap_of_mem (htag : ∀ x ∈ xs, ∀ r ∈ out x, tag r = some (key x))
    (hnodup : (xs.map key).Nodup) (h : x ∈ xs) : tagged tag (key x) (xs.flatMap out) = out x := by
  induction xs with
  | nil => cases h
  | cons y ys ih =>
    rw [List.map_cons, List.nodup_cons] at hnodup
    have htail := fun z hz => htag z (List.mem_cons_of_mem y hz)
    rw [List.flatMap_cons, tagged_append]
    rcases List.mem_cons.mp h with rfl | hx
    · rw [tagged_eq_self (htag x List.mem_cons_self), tagged_flatMap_of_notMem htail hnodup.1,
        List.append_nil]
    · have hne : key y ≠ key x := fun heq => hnodup.1 (heq ▸ List.mem_map_of_mem hx)
      have hnil : tagged tag (key x) (out y) = [] := tagged_eq_nil fun r hr => by
        rw [htag y List.mem_cons_self r hr]
        exact fun heq => hne (Option.some.inj heq)
      rw [hnil, List.nil_append, ih htail hnodup.2 hx]

end Feed
