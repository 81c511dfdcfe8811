import Mathlib.Logic.Function.Basic
import Mathlib.Logic.Relation

/-! Books of an issuer: for each kind of unit a count of what was issued, a count of what was
retired, the supply that circulates and a cap on it. Postings move one book at a time, and what
every permitted posting keeps is kept by whole histories of the ledger. -/

namespace Issuance

/-- A cap of zero is no cap. -/
structure Book where
  issued : Nat
  retired : Nat
  supply : Nat
  cap : Nat

/-- What happens to a book. Units are issued and retired on the record; they can also leave the
supply off the record, and be recorded as retired without leaving the supply. -/
inductive Posting where
  | issue (n : Nat)
  | retire (n : Nat)
  | leak (n : Nat)
  | record (n : Nat)

namespace Book

def net (b : Book) : Nat := b.issued - b.retired

def post (b : Book) : Posting → Book
  | .issue n => { b with issued := b.issued + n, supply := b.supply + n }
  | .retire n => { b with retired := b.retired + n, supply := b.supply - n }
  | .leak n => { b with supply := b.supply - n }
  | .record n => { b with retired := b.retired + n }

/-- The record agrees with the supply. -/
def Balanced (b : Book) : Prop := b.issued = b.retired + b.supply

def Capped (b : Book) : Prop := 0 < b.cap → b.net ≤ b.cap

/-- A new book. -/
structure Fresh (b : Book) : Prop where
  issued : b.issued = 0
  retired : b.retired = 0
  supply : b.supply = 0

/-- A posting that the record follows. -/
def Recorded (b : Book) : Posting → Prop
  | .issue _ => True
  | .retire n => n ≤ b.supply
  | .leak _ | .record _ => False

/-- A posting that stays below the cap. -/
def WithinCap (b : Book) : Posting → Prop
  | .issue n => 0 < b.cap → b.issued + n - b.retired ≤ b.cap
  | _ => True

@[simp] theorem post_cap (b : Book) (p : Posting) : (b.post p).cap = b.cap := by
  cases p <;> rfl

theorem Fresh.balanced {b : Book} (h : b.Fresh) : b.Balanced := by
  rw [Balanced, h.issued, h.retired, h.supply]

theorem Fresh.capped {b : Book} (h : b.Fresh) : b.Capped := by
  intro _
  rw [net, h.issued, Nat.zero_sub]
  exact Nat.zero_le _

theorem Balanced.post {b : Book} {p : Posting} (h : b.Balanced) (hp : b.Recorded p) :
    (b.post p).Balanced := by
  cases p with
  | issue n =>
    show b.issued + n = b.retired + (b.supply + n)
    rw [h, Nat.add_assoc]
  | retire n =>
    have hle : n ≤ b.supply := hp
    show b.issued = b.retired + n + (b.supply - n)
    rw [h]
    omega
  | leak n => exact hp.elim
  | record n => exact hp.elim

/-- Retiring more never raises the net amount. -/
theorem Capped.post {b : Book} {p : Posting} (h : b.Capped) (hp : b.WithinCap p) :
    (b.post p).Capped := by
  intro hc
  rw [post_cap] at hc ⊢
  have := h hc
  cases p with
  | issue n => exact hp hc
  | retire n | record n =>
    refine Nat.le_trans ?_ this
    show b.issued - (b.retired + n) ≤ b.issued - b.retired
    omega
  | leak n => exact this

/-- A balanced book never retired more than it issued, and the net amount is the supply. -/
theorem Balanced.net_eq {b : Book} (h : b.Balanced) :
    b.retired ≤ b.issued ∧ b.net = b.supply := by
  rw [net, h]
  exact ⟨Nat.le_add_right _ _, Nat.add_sub_cancel_left _ _⟩

end Book

/-- One book for each kind of unit that is issued. -/
abbrev Ledger (κ : Type*) := κ → Option Book

variable {κ : Type*} [DecidableEq κ]

namespace Ledger

/-- Every book of the ledger meets `I`. -/
def All (I : Book → Prop) (l : Ledger κ) : Prop := ∀ k b, l k = some b → I b

/-- One posting that `ok` permits, or the opening of a book. -/
inductive Step (ok : Book → Posting → Prop) (l : Ledger κ) : Ledger κ → Prop where
  | opened {k : κ} {b : Book} (free : l k = none) (fresh : b.Fresh) :
    Step ok l (Function.update l k (some b))
  | posted {k : κ} {b : Book} {p : Posting} (book : l k = some b) (permitted : ok b p) :
    Step ok l (Function.update l k (some (b.post p)))

/-- A history of a ledger. -/
abbrev History (ok : Book → Posting → Prop) : Ledger κ → Ledger κ → Prop :=
  Relation.ReflTransGen (Step ok)

variable {ok ok' : Book → Posting → Prop} {l l' : Ledger κ}

theorem Step.mono (h : ∀ b p, ok b p → ok' b p) (H : Step ok l l') : Step ok' l l' := by
  cases H with
  | opened free fresh => exact .opened free fresh
  | posted book permitted => exact .posted book (h _ _ permitted)

theorem History.mono (h : ∀ b p, ok b p → ok' b p) (H : History ok l l') : History ok' l l' := by
  induction H with
  | refl => exact .refl
  | tail _ step ih => exact ih.tail (step.mono h)

theorem All.update {I : Book → Prop} (h : All I l) {k : κ} {b : Book} (hb : I b) :
    All I (Function.update l k (some b)) := by
  intro k' b' h'
  by_cases hk : k' = k
  · subst hk
    rw [Function.update_self] at h'
    exact Option.some.inj h' ▸ hb
  · rw [Function.update_of_ne hk] at h'
    exact h k' b' h'

/-- What new books have and permitted postings keep is kept by a step of the ledger. -/
theorem Step.all {I : Book → Prop} (fresh : ∀ b, b.Fresh → I b)
    (post : ∀ b p, I b → ok b p → I (b.post p)) (H : Step ok l l') (h : All I l) : All I l' := by
  cases H with
  | opened _ hb => exact h.update (fresh _ hb)
  | posted book permitted => exact h.update (post _ _ (h _ _ book) permitted)

/-- And by a history. -/
theorem History.all {I : Book → Prop} (fresh : ∀ b, b.Fresh → I b)
    (post : ∀ b p, I b → ok b p → I (b.post p)) (H : History ok l l') (h : All I l) :
    All I l' := by
  induction H with
  | refl => exact h
  | tail _ step ih => exact step.all fresh post ih

theorem History.balanced (H : History Book.Recorded l l') (h : All Book.Balanced l) :
    All Book.Balanced l' :=
  H.all (fun _ => Book.Fresh.balanced) (fun _ _ => Book.Balanced.post) h

theorem History.capped (H : History Book.WithinCap l l') (h : All Book.Capped l) :
    All Book.Capped l' :=
  H.all (fun _ => Book.Fresh.capped) (fun _ _ => Book.Capped.post) h

end Ledger

end Issuance
