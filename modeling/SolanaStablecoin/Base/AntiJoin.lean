import Mathlib.Data.List.Perm.Basic

/-! A table that copies a log: each synchronisation adds the rows of the log's entries that no row
joins. It is right as long as the join tells the entries that have been copied from those that have
not. -/

universe u v

namespace AntiJoin

variable {ε : Type u} {ρ : Type v} (joins : ρ → ε → Bool) (image : ε → Option ρ)

def sync (log : List ε) (rows : List ρ) : List ρ :=
  rows ++ (log.filter fun e => !rows.any (joins · e)).filterMap image

variable {joins image} {rows : List ρ} {old fresh : List ε}

/-- Entries that are joined add nothing. -/
theorem filterMap_eq_nil (h : ∀ e ∈ old, (image e).isSome = true → ∃ r ∈ rows, joins r e = true) :
    (old.filter fun e => !rows.any (joins · e)).filterMap image = [] := by
  refine List.filterMap_eq_nil_iff.mpr fun e he => ?_
  obtain ⟨hmem, hnot⟩ := List.mem_filter.mp he
  rw [Bool.not_eq_true', List.any_eq_false] at hnot
  cases himage : image e with
  | none => rfl
  | some r =>
    obtain ⟨r', hr', hjoins⟩ := h e hmem (by rw [himage]; rfl)
    exact absurd hjoins (hnot r' hr')

/-- Entries that are not joined add their rows. -/
theorem filterMap_eq_self
    (h : ∀ e ∈ fresh, (image e).isSome = true → ∀ r ∈ rows, joins r e = false) :
    (fresh.filter fun e => !rows.any (joins · e)).filterMap image = fresh.filterMap image := by
  induction fresh with
  | nil => rfl
  | cons e fresh ih =>
    have htail := ih fun e' he' => h e' (List.mem_cons_of_mem e he')
    rw [List.filter_cons, List.filterMap_cons]
    cases himage : image e with
    | none =>
      split
      · rw [List.filterMap_cons, himage, htail]
      · exact htail
    | some r =>
      have hnot : (!rows.any (joins · e)) = true := by
        rw [Bool.not_eq_true', List.any_eq_false]
        exact fun r' hr' => Bool.eq_false_iff.mp <|
          h e List.mem_cons_self (by rw [himage]; rfl) r' hr'
      rw [if_pos hnot, List.filterMap_cons, himage, htail]

/-- If the old entries with a row are joined and the new ones are not, the new rows are added. -/
theorem sync_append (hold : ∀ e ∈ old, (image e).isSome = true → ∃ r ∈ rows, joins r e = true)
    (hfresh : ∀ e ∈ fresh, (image e).isSome = true → ∀ r ∈ rows, joins r e = false) :
    sync joins image (old ++ fresh) rows = rows ++ fresh.filterMap image := by
  rw [sync, List.filter_append, List.filterMap_append, filterMap_eq_nil hold,
    filterMap_eq_self hfresh, List.nil_append]

end AntiJoin
