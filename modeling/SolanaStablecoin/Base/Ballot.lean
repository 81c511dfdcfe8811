import Mathlib.Data.List.Nodup

/-! Motions that members vote on. A motion is moved once, collects the votes of different members
until it passes, and passes once, with a quorum. What has happened to a motion is a list of events,
and such a record tells who carried it. -/

namespace Ballot

/-- Who may vote, which terms can be moved, and how many votes they take. -/
structure Rules (ν τ : Type*) where
  member : ν → Prop
  charter : τ → Prop
  quorum : τ → Nat

structure Motion (ν τ : Type*) where
  terms : τ
  votes : List ν := []
  passed : Bool := false

inductive Event (ν τ : Type*) where
  | moved (terms : τ)
  | voted (v : ν)
  | passed (terms : τ)
deriving DecidableEq

variable {ν τ : Type*} (r : Rules ν τ)

/-- One thing that happens to a motion, if there is one. -/
inductive Step : Option (Motion ν τ) → Event ν τ → Option (Motion ν τ) → Prop where
  | move {t : τ} (charter : r.charter t) : Step none (.moved t) (some { terms := t })
  | vote {m : Motion ν τ} {v : ν} (live : m.passed = false) (member : r.member v)
    (fresh : v ∉ m.votes) : Step (some m) (.voted v) (some { m with votes := m.votes ++ [v] })
  | pass {m : Motion ν τ} (live : m.passed = false) (quorum : r.quorum m.terms ≤ m.votes.length) :
    Step (some m) (.passed m.terms) (some { m with passed := true })

/-- The record of a motion: what has happened since it was moved. -/
inductive Record : Option (Motion ν τ) → List (Event ν τ) → Prop where
  | blank : Record none []
  | snoc {x y : Option (Motion ν τ)} {es : List (Event ν τ)} {e : Event ν τ} (h : Record x es)
    (step : Step r x e y) : Record y (es ++ [e])

variable {r}

/-- Where a list splits at an element, one of its two halves does. -/
theorem append_split {α : Type*} {as bs earlier later : List α} {x : α}
    (h : as ++ bs = earlier ++ x :: later) :
    (∃ rest, as = earlier ++ x :: rest) ∨ ∃ mid, earlier = as ++ mid ∧ bs = mid ++ x :: later := by
  rcases List.append_eq_append_iff.mp h with ⟨mid, rfl, hbs⟩ | ⟨rest, has, hrest⟩
  · exact .inr ⟨mid, rfl, hbs⟩
  · cases rest with
    | nil =>
      rw [List.append_nil] at has
      exact .inr ⟨[], by rw [has, List.append_nil], hrest.symm⟩
    | cons y rest =>
      obtain ⟨rfl, -⟩ := List.cons.inj hrest
      exact .inl ⟨rest, has⟩

/-- What a record says of the motion it belongs to. -/
structure Minutes (r : Rules ν τ) (m : Motion ν τ) (es : List (Event ν τ)) : Prop where
  charter : r.charter m.terms
  moved : .moved m.terms ∈ es
  nodup : m.votes.Nodup
  cast : ∀ v ∈ m.votes, r.member v ∧ .voted v ∈ es
  live : m.passed = false → ∀ t, .passed t ∉ es

theorem Record.eq_nil {es : List (Event ν τ)} (h : Record r none es) : es = [] := by
  cases h with
  | blank => rfl
  | snoc h step => cases step

theorem Record.minutes {m : Motion ν τ} {es : List (Event ν τ)} (h : Record r (some m) es) :
    Minutes r m es := by
  obtain ⟨x, hx⟩ : ∃ x, x = some m := ⟨_, rfl⟩
  rw [← hx] at h
  induction h generalizing m with
  | blank => cases hx
  | snoc h step ih =>
    cases step with
    | move charter =>
      cases hx
      obtain rfl := h.eq_nil
      exact
        { charter
          moved := List.mem_singleton.mpr rfl
          nodup := List.nodup_nil
          cast := fun v hv => absurd hv List.not_mem_nil
          live := fun _ t ht => by cases List.mem_singleton.mp ht }
    | @vote m₀ v live member fresh =>
      cases hx
      have h₀ := ih rfl
      exact
        { charter := h₀.charter
          moved := List.mem_append_left _ h₀.moved
          nodup := List.nodup_append.mpr ⟨h₀.nodup, List.nodup_singleton v, fun a ha b hb => by
            rintro rfl
            exact fresh (List.mem_singleton.mp hb ▸ ha)⟩
          cast := fun w hw => by
            rcases List.mem_append.mp hw with hw | hw
            · exact ⟨(h₀.cast w hw).1, List.mem_append_left _ (h₀.cast w hw).2⟩
            · obtain rfl := List.mem_singleton.mp hw
              exact ⟨member, List.mem_append_right _ (List.mem_singleton.mpr rfl)⟩
          live := fun _ t ht => by
            rcases List.mem_append.mp ht with ht | ht
            · exact h₀.live live t ht
            · cases List.mem_singleton.mp ht }
    | pass live quorum =>
      cases hx
      have h₀ := ih rfl
      exact
        { charter := h₀.charter
          moved := List.mem_append_left _ h₀.moved
          nodup := h₀.nodup
          cast := fun w hw => ⟨(h₀.cast w hw).1, List.mem_append_left _ (h₀.cast w hw).2⟩
          live := fun hlive => by cases hlive }

/-- The motion was moved on these terms, enough members have voted for it, and it had not passed
before. -/
structure Carried (r : Rules ν τ) (t : τ) (earlier : List (Event ν τ)) : Prop where
  charter : r.charter t
  moved : .moved t ∈ earlier
  voters : ∃ voters : List ν, r.quorum t ≤ voters.length ∧ voters.Nodup ∧
    ∀ v ∈ voters, r.member v ∧ .voted v ∈ earlier
  once : ∀ t', .passed t' ∉ earlier

/-- Whenever a motion passes, it was carried. -/
theorem Record.carried {x : Option (Motion ν τ)} {es : List (Event ν τ)} (h : Record r x es)
    {t : τ} {earlier later : List (Event ν τ)} (hes : es = earlier ++ .passed t :: later) :
    Carried r t earlier := by
  induction h generalizing later with
  | blank => cases earlier <;> cases hes
  | @snoc x y es e h step ih =>
    rcases append_split hes with ⟨rest, hes⟩ | ⟨mid, rfl, hlast⟩
    · exact ih hes
    · cases mid with
      | cons _ mid => cases mid <;> cases hlast
      | nil =>
        obtain rfl := (List.cons.inj hlast).1
        rw [List.append_nil]
        cases step with
        | pass live quorum =>
          have hm := h.minutes
          exact
            { charter := hm.charter
              moved := hm.moved
              voters := ⟨_, quorum, hm.nodup, hm.cast⟩
              once := hm.live live }

theorem Record.append {x y z : Option (Motion ν τ)} {es : List (Event ν τ)} {e e' : Event ν τ}
    (h : Record r x es) (hy : Step r x e y) (hz : Step r y e' z) : Record r z (es ++ [e, e']) := by
  have hall := (h.snoc hy).snoc hz
  rwa [List.append_assoc] at hall

end Ballot
