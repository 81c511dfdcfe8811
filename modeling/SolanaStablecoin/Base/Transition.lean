import Mathlib.Data.List.Induction
import Mathlib.Logic.Relation

/-! Runs of a transactional state machine: an action either succeeds and replaces the state, or
fails and leaves it alone. An invariant is proved for one successful action and then holds
along every run whose actions meet a side condition; it may also speak of the history, which is
what the successful actions have shown so far. -/

namespace Transition

variable {σ α ε : Type*} (exec : σ → α → Except ε σ)

/-- One transaction. A failing action is rolled back. -/
def next (s : σ) (a : α) : σ :=
  match exec s a with
  | .ok s' => s'
  | .error _ => s

def run (s : σ) (as : List α) : σ := as.foldl (next exec) s

/-- Every action of the run meets `P` in the state it is taken in. -/
def Along (P : σ → α → Prop) : σ → List α → Prop
  | _, [] => True
  | s, a :: as => P s a ∧ Along P (next exec s a) as

instance Along.decidable {P : σ → α → Prop} [∀ s a, Decidable (P s a)] :
    ∀ (s : σ) (as : List α), Decidable (Along exec P s as)
  | _, [] => isTrue trivial
  | s, a :: as => @instDecidableAnd (P s a) _ _ (Along.decidable (next exec s a) as)

/-- What the successful actions of the run show, in order. -/
def history {β : Type*} (obs : σ → α → List β) : σ → List α → List β
  | _, [] => []
  | s, a :: as =>
    (match exec s a with
      | .ok _ => obs s a
      | .error _ => []) ++ history obs (next exec s a) as

/-- No successful action of the run is an event of `E`. -/
def Never (E : σ → α → σ → Prop) : σ → List α → Prop :=
  Along exec fun s a => ∀ s', exec s a = .ok s' → ¬ E s a s'

/-- The run splits at `a`, which succeeds and is its last event of `E`. -/
structure Last (E : σ → α → σ → Prop) (s : σ) (as init : List α) (a : α) (s' : σ)
    (tail : List α) : Prop where
  split : as = init ++ a :: tail
  succeeds : exec (run exec s init) a = .ok s'
  event : E (run exec s init) a s'
  never : Never exec E s' tail

variable {exec}

@[simp] theorem run_nil (s : σ) : run exec s [] = s := rfl

@[simp] theorem run_cons (s : σ) (a : α) (as : List α) :
    run exec s (a :: as) = run exec (next exec s a) as := rfl

theorem run_append (s : σ) (as bs : List α) :
    run exec s (as ++ bs) = run exec (run exec s as) bs := List.foldl_append ..

theorem next_of_ok {s s' : σ} {a : α} (h : exec s a = .ok s') : next exec s a = s' := by
  simp [next, h]

theorem next_of_error {s : σ} {a : α} {e : ε} (h : exec s a = .error e) : next exec s a = s := by
  simp [next, h]

/-- A transaction either stutters or is a successful action. -/
theorem next_cases (s : σ) (a : α) : next exec s a = s ∨ exec s a = .ok (next exec s a) := by
  cases h : exec s a with
  | ok s' => exact .inr (by rw [next_of_ok h])
  | error e => exact .inl (next_of_error h)

theorem Along.mono {P Q : σ → α → Prop} (h : ∀ s a, P s a → Q s a) {s : σ} {as : List α}
    (H : Along exec P s as) : Along exec Q s as := by
  induction as generalizing s with
  | nil => trivial
  | cons a as ih => exact ⟨h _ _ H.1, ih H.2⟩

theorem Along.and {P Q : σ → α → Prop} {s : σ} {as : List α} (hP : Along exec P s as)
    (hQ : Along exec Q s as) : Along exec (fun s a => P s a ∧ Q s a) s as := by
  induction as generalizing s with
  | nil => trivial
  | cons a as ih => exact ⟨⟨hP.1, hQ.1⟩, ih hP.2 hQ.2⟩

theorem along_of_forall {P : σ → α → Prop} {s : σ} {as : List α} (h : ∀ a ∈ as, ∀ s, P s a) :
    Along exec P s as := by
  induction as generalizing s with
  | nil => trivial
  | cons a as ih =>
    exact ⟨h a List.mem_cons_self s, ih fun b hb => h b (List.mem_cons_of_mem a hb)⟩

theorem along_append {P : σ → α → Prop} {s : σ} {as bs : List α} :
    Along exec P s (as ++ bs) ↔ Along exec P s as ∧ Along exec P (run exec s as) bs := by
  induction as generalizing s with
  | nil => simp [Along]
  | cons a as ih => simp [Along, ih, and_assoc]

theorem history_append {β : Type*} {obs : σ → α → List β} (s : σ) (as bs : List α) :
    history exec obs s (as ++ bs) =
      history exec obs s as ++ history exec obs (run exec s as) bs := by
  induction as generalizing s with
  | nil => rfl
  | cons a as ih => rw [List.cons_append, history, history, ih, run_cons, List.append_assoc]

theorem history_of_ok {β : Type*} {obs : σ → α → List β} {s s' : σ} {a : α}
    (h : exec s a = .ok s') (as : List α) :
    history exec obs s (a :: as) = obs s a ++ history exec obs s' as := by
  rw [history, next_of_ok h, h]

theorem history_of_error {β : Type*} {obs : σ → α → List β} {s : σ} {a : α} {e : ε}
    (h : exec s a = .error e) (as : List α) :
    history exec obs s (a :: as) = history exec obs s as := by
  rw [history, next_of_error h, h, List.nil_append]

/-- What every successful action shows, the run has shown. -/
theorem forall_mem_history {β : Type*} {obs : σ → α → List β} {P : σ → α → Prop} {R : β → Prop}
    (step : ∀ {s s' a}, P s a → exec s a = .ok s' → ∀ b ∈ obs s a, R b) {s : σ} {as : List α}
    (H : Along exec P s as) : ∀ b ∈ history exec obs s as, R b := by
  induction as generalizing s with
  | nil => exact fun b hb => absurd hb List.not_mem_nil
  | cons a as ih =>
    intro b hb
    cases hexec : exec s a with
    | error e =>
      rw [history_of_error hexec] at hb
      exact ih (next_of_error hexec ▸ H.2) b hb
    | ok s' =>
      rw [history_of_ok hexec] at hb
      rcases List.mem_append.mp hb with hb | hb
      · exact step H.1 hexec b hb
      · exact ih (next_of_ok hexec ▸ H.2) b hb

theorem history_map {β γ : Type*} {obs : σ → α → List β} {obs' : σ → α → List γ} {f : β → γ}
    (h : ∀ {s s' a}, exec s a = .ok s' → obs' s a = (obs s a).map f) (s : σ) (as : List α) :
    history exec obs' s as = (history exec obs s as).map f := by
  induction as generalizing s with
  | nil => rfl
  | cons a as ih =>
    cases hexec : exec s a with
    | error e => rw [history_of_error hexec, history_of_error hexec, ih]
    | ok s' => rw [history_of_ok hexec, history_of_ok hexec, ih, h hexec, List.map_append]

/-- Runs of actions that do the same. -/
theorem run_map {α' ε' : Type*} {exec' : σ → α' → Except ε' σ} {f : α → α'} {P : σ → α → Prop}
    (h : ∀ {s a}, P s a → next exec' s (f a) = next exec s a) {s : σ} {as : List α}
    (H : Along exec P s as) : run exec' s (as.map f) = run exec s as := by
  induction as generalizing s with
  | nil => rfl
  | cons a as ih =>
    rw [List.map_cons, run_cons, run_cons, h H.1]
    exact ih H.2

/-- The invariant rule for runs. -/
theorem invariant_run {I : σ → Prop} {P : σ → α → Prop}
    (step : ∀ {s s' a}, I s → P s a → exec s a = .ok s' → I s')
    {s : σ} {as : List α} (hs : I s) (H : Along exec P s as) : I (run exec s as) := by
  induction as generalizing s with
  | nil => exact hs
  | cons a as ih =>
    refine ih ?_ H.2
    rcases @next_cases _ _ _ exec s a with h | h
    · rwa [h]
    · exact step hs H.1 h

/-- Under an invariant, what holds of each action given `P` holds along the run. -/
theorem along_of_invariant {I : σ → Prop} {P Q : σ → α → Prop}
    (step : ∀ {s s' a}, I s → exec s a = .ok s' → I s') (h : ∀ {s a}, I s → P s a → Q s a)
    {s : σ} {as : List α} (hs : I s) (H : Along exec P s as) : Along exec Q s as := by
  induction as generalizing s with
  | nil => trivial
  | cons a as ih =>
    refine ⟨h hs H.1, ih ?_ H.2⟩
    rcases @next_cases _ _ _ exec s a with hnext | hnext
    · rwa [hnext]
    · exact step hs hnext

/-- Conditions that agree under an invariant, which one of them keeps, agree along the run. -/
theorem along_iff_of_invariant {I : σ → Prop} {P Q : σ → α → Prop}
    (h : ∀ {s a}, I s → (P s a ↔ Q s a)) (step : ∀ {s s' a}, I s → P s a → exec s a = .ok s' → I s')
    {s : σ} {as : List α} (hs : I s) : Along exec P s as ↔ Along exec Q s as := by
  induction as generalizing s with
  | nil => exact Iff.rfl
  | cons a as ih =>
    refine (and_congr_right fun hP => ih ?_).trans (and_congr_left fun _ => h hs)
    rcases @next_cases _ _ _ exec s a with hnext | hnext
    · rwa [hnext]
    · exact step hs hP hnext

/-- The invariant rule when every action may be taken. -/
theorem invariant_run_of_forall {I : σ → Prop}
    (step : ∀ {s s' a}, I s → exec s a = .ok s' → I s')
    {s : σ} (as : List α) (hs : I s) : I (run exec s as) :=
  invariant_run (P := fun _ _ => True) (fun hi _ h => step hi h) hs <| by
    induction as generalizing s with
    | nil => trivial
    | cons a as ih =>
      refine ⟨trivial, ih ?_⟩
      rcases @next_cases _ _ _ exec s a with h | h
      · rwa [h]
      · exact step hs h

/-- Until an event of `E` happens, what only these change stays. -/
theorem invariant_never {I : σ → Prop} {E : σ → α → σ → Prop}
    (step : ∀ {s s' a}, I s → exec s a = .ok s' → ¬ E s a s' → I s')
    {s : σ} {as : List α} (hs : I s) (H : Never exec E s as) : I (run exec s as) :=
  invariant_run (fun hi hnot h => step hi h (hnot _ h)) hs H

/-- Either no event happens along a run, or there is a last one. -/
theorem never_or_last (E : σ → α → σ → Prop) (s : σ) (as : List α) :
    Never exec E s as ∨ ∃ init a s' tail, Last exec E s as init a s' tail := by
  induction as generalizing s with
  | nil => exact .inl trivial
  | cons a as ih =>
    rcases ih (next exec s a) with hnever | ⟨init, b, s', tail, hlast⟩
    · by_cases h : ∃ s', exec s a = .ok s' ∧ E s a s'
      · obtain ⟨s', hexec, hevent⟩ := h
        rw [next_of_ok hexec] at hnever
        exact .inr ⟨[], a, s', as, rfl, hexec, hevent, hnever⟩
      · exact .inl ⟨fun s' hexec hevent => h ⟨s', hexec, hevent⟩, hnever⟩
    · refine .inr ⟨a :: init, b, s', tail, ?_, hlast.succeeds, hlast.event, hlast.never⟩
      rw [hlast.split, List.cons_append]

theorem Last.run_eq {E : σ → α → σ → Prop} {s s' : σ} {as init tail : List α} {a : α}
    (h : Last exec E s as init a s' tail) : run exec s as = run exec s' tail := by
  rw [h.split, run_append, run_cons, next_of_ok h.succeeds]

/-- The invariant rule for a state and the history that leads to it. -/
theorem invariant_history {β : Type*} {obs : σ → α → List β} {I : σ → List β → Prop}
    {P : σ → α → Prop}
    (step : ∀ {s s' a h}, I s h → P s a → exec s a = .ok s' → I s' (h ++ obs s a))
    {s : σ} {as : List α} {h : List β} (hs : I s h) (H : Along exec P s as) :
    I (run exec s as) (h ++ history exec obs s as) := by
  induction as generalizing s h with
  | nil => simpa [history] using hs
  | cons a as ih =>
    rw [run_cons, history, ← List.append_assoc]
    apply ih _ H.2
    cases hexec : exec s a with
    | ok s' =>
      rw [next_of_ok hexec]
      exact step hs H.1 hexec
    | error e =>
      rw [next_of_error hexec, List.append_nil]
      exact hs

/-- The same, where a step may use what comes before it in the run. -/
theorem invariant_prefix {β : Type*} {obs : σ → α → List β} {I : σ → List β → Prop} {s : σ}
    {as : List α} (hs : I s [])
    (step : ∀ init a tail s', as = init ++ a :: tail → exec (run exec s init) a = .ok s' →
      I (run exec s init) (history exec obs s init) →
      I s' (history exec obs s init ++ obs (run exec s init) a))
    {init tail : List α} (h : as = init ++ tail) :
    I (run exec s init) (history exec obs s init) := by
  induction init using List.reverseRecOn generalizing tail with
  | nil => exact hs
  | append_singleton init a ih =>
    rw [List.append_assoc] at h
    have hinit := ih h
    rw [run_append, history_append]
    cases hexec : exec (run exec s init) a with
    | ok s' =>
      rw [history_of_ok hexec, run_cons, next_of_ok hexec, run_nil, history, List.append_nil]
      exact step init a tail s' h hexec hinit
    | error e =>
      rw [history_of_error hexec, run_cons, next_of_error hexec, run_nil, history,
        List.append_nil]
      exact hinit

theorem forall_prefix_cons {β : Type*} {obs : σ → α → List β} {I : σ → List β → Prop} {s : σ}
    {a : α} {as : List α} {h : List β} :
    (∀ init tail, a :: as = init ++ tail → I (run exec s init) (h ++ history exec obs s init)) ↔
      I s h ∧ ∀ init tail, as = init ++ tail → I (run exec (next exec s a) init)
        (h ++ history exec obs s [a] ++ history exec obs (next exec s a) init) := by
  constructor
  · intro H
    refine ⟨by simpa [history] using H [] (a :: as) rfl, fun init tail heq => ?_⟩
    have hcons := H ([a] ++ init) tail (congrArg (a :: ·) heq)
    rwa [history_append, ← List.append_assoc, run_append] at hcons
  · rintro ⟨hnil, hcons⟩ init tail heq
    cases init with
    | nil => simpa [history] using hnil
    | cons b init =>
      obtain ⟨rfl, htail⟩ := List.cons_eq_cons.mp heq
      rw [← List.singleton_append, history_append, ← List.append_assoc, run_append]
      exact hcons init tail htail

/-- Under an invariant `J`, a property `I` that holds at the start holds all along the run exactly
if every successful action meets `Q`, provided that this is what it takes to keep `I`. -/
theorem prefix_iff_along {β : Type*} {obs : σ → α → List β} {I J : σ → List β → Prop}
    {P Q : σ → α → Prop}
    (keep : ∀ {s s' a h}, J s h → P s a → exec s a = .ok s' → J s' (h ++ obs s a))
    (step : ∀ {s s' a h}, J s h → I s h → P s a → exec s a = .ok s' →
      (I s' (h ++ obs s a) ↔ Q s a))
    {s : σ} {as : List α} {h : List β} (hJ : J s h) (hI : I s h) (H : Along exec P s as) :
    (∀ init tail, as = init ++ tail → I (run exec s init) (h ++ history exec obs s init)) ↔
      Along exec (fun s a => (exec s a).isOk → Q s a) s as := by
  induction as generalizing s h with
  | nil =>
    refine ⟨fun _ => trivial, fun _ init tail heq => ?_⟩
    obtain ⟨rfl, -⟩ := List.append_eq_nil_iff.mp heq.symm
    rwa [run_nil, history, List.append_nil]
  | cons a as ih =>
    obtain ⟨hP, H⟩ := H
    rw [forall_prefix_cons, and_iff_right hI, Along]
    cases hexec : exec s a with
    | error e =>
      rw [next_of_error hexec] at H ⊢
      rw [history_of_error hexec, history, List.append_nil, ih hJ hI H]
      exact (and_iff_right fun hok => by cases hok).symm
    | ok s' =>
      rw [next_of_ok hexec] at H ⊢
      rw [history_of_ok hexec, history, List.append_nil]
      have hiff := step hJ hI hP hexec
      have hJ' := keep hJ hP hexec
      constructor
      · intro hpre
        have hI' : I s' (h ++ obs s a) := by simpa [history] using hpre [] as rfl
        exact ⟨fun _ => hiff.mp hI', (ih hJ' hI' H).mp hpre⟩
      · rintro ⟨hQ, halong⟩
        exact (ih hJ' (hiff.mpr (hQ rfl)) H).mpr halong

/-- The same for a property of the states alone, when every action may be taken. -/
theorem forall_prefix_iff_along {I J : σ → Prop} {Q : σ → α → Prop}
    (keep : ∀ {s s' a}, J s → exec s a = .ok s' → J s')
    (step : ∀ {s s' a}, J s → I s → exec s a = .ok s' → (I s' ↔ Q s a))
    {s : σ} (hJ : J s) (hI : I s) (as : List α) :
    (∀ init tail, as = init ++ tail → I (run exec s init)) ↔
      Along exec (fun s a => (exec s a).isOk → Q s a) s as := by
  have hall : Along exec (fun _ _ => True) s as := along_of_forall fun _ _ _ => trivial
  exact @prefix_iff_along _ _ _ exec Unit (fun _ _ => []) (fun s _ => I s) (fun s _ => J s) _ Q
    (fun hJ _ hexec => keep hJ hexec) (fun hJ hI _ hexec => step hJ hI hexec) s as [] hJ hI hall

/-- Where every action keeps an invariant and is a step of the abstract relation `R`, every run
is a run of `R`. -/
theorem refines_run {β : Type*} {I : σ → Prop} {P : σ → α → Prop} {abs : σ → β}
    {R : β → β → Prop}
    (keep : ∀ {s s' a}, I s → P s a → exec s a = .ok s' → I s')
    (step : ∀ {s s' a}, I s → P s a → exec s a = .ok s' →
      Relation.ReflTransGen R (abs s) (abs s'))
    {s : σ} {as : List α} (hs : I s) (H : Along exec P s as) :
    Relation.ReflTransGen R (abs s) (abs (run exec s as)) := by
  induction as generalizing s with
  | nil => exact .refl
  | cons a as ih =>
    rcases @next_cases _ _ _ exec s a with h | h
    · rw [run_cons, h]
      exact ih hs (by simpa [h] using H.2)
    · exact (step hs H.1 h).trans (ih (keep hs H.1 h) H.2)

end Transition
