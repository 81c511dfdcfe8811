import Mathlib.Data.List.Basic

/-! Tables of rows with a primary key, as lists. -/

universe u v

namespace Table

variable {ρ : Type u} {κ : Type v} (key : ρ → κ)

/-- No key has two rows. -/
def Keyed (rows : List ρ) : Prop := ∀ r ∈ rows, ∀ r' ∈ rows, key r = key r' → r = r'

variable {key} {rows : List ρ} {k : κ} {f : ρ → ρ} {r : ρ}

theorem Keyed.nil : Keyed key [] := fun _ hr => absurd hr List.not_mem_nil

theorem Keyed.append_singleton (h : Keyed key rows) (hr : ∀ r' ∈ rows, key r' ≠ key r) :
    Keyed key (rows ++ [r]) := by
  intro a ha b hb hab
  rcases List.mem_append.mp ha with ha | ha <;> rcases List.mem_append.mp hb with hb | hb
  · exact h a ha b hb hab
  · exact absurd (List.mem_singleton.mp hb ▸ hab) (hr a ha)
  · exact absurd (List.mem_singleton.mp ha ▸ hab.symm) (hr b hb)
  · rw [List.mem_singleton.mp ha, List.mem_singleton.mp hb]

variable [DecidableEq κ]

variable (key) in
/-- The rows with this key are replaced. -/
def update (rows : List ρ) (k : κ) (f : ρ → ρ) : List ρ :=
  rows.map fun r => if key r = k then f r else r

theorem forall_mem_update {P : ρ → Prop} (hne : ∀ r ∈ rows, key r ≠ k → P r)
    (heq : ∀ r ∈ rows, key r = k → P (f r)) : ∀ r ∈ update key rows k f, P r := by
  intro r' hr'
  obtain ⟨r, hr, rfl⟩ := List.mem_map.mp hr'
  split
  · exact heq r hr ‹_›
  · exact hne r hr ‹_›

/-- An update that changes no row. -/
theorem update_eq_self (h : ∀ r ∈ rows, key r = k → f r = r) : update key rows k f = rows := by
  refine (List.map_congr_left fun r hr => ?_).trans (List.map_id rows)
  split
  · exact h r hr ‹_›
  · rfl

theorem Keyed.update (h : Keyed key rows) (hf : ∀ r, key (f r) = key r) :
    Keyed key (update key rows k f) := by
  intro a ha b hb hab
  obtain ⟨a, hmem, rfl⟩ := List.mem_map.mp ha
  obtain ⟨b, hmem', rfl⟩ := List.mem_map.mp hb
  have hkey : ∀ r, key (if key r = k then f r else r) = key r := fun r => by
    split
    · exact hf r
    · rfl
  rw [hkey, hkey] at hab
  rw [h a hmem b hmem' hab]

end Table
