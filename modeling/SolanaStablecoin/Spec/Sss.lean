import Mathlib.Data.Finset.Basic
import SolanaStablecoin.Base.Temporal

/-! The specification that the repository hands to the TLA+ model checker (`specs/sss.tla`), action
by action. `Users` and `Admins` are types, and the checker's bounds are constants. -/

namespace SolanaStablecoin.Sss

/-- What `sss.cfg` binds. -/
structure Constants where
  maxSupply : ℕ
  minReserveRatioBP : ℕ
  maxSteps : ℕ

structure State (User Admin : Type) where
  supply : ℕ
  reserves : ℕ
  blacklist : Finset User
  paused : Bool
  authority : Admin
  pendingAuthority : Finset Admin
  redeemQueue : List (User × ℕ)
  /-- Owner and collateral. -/
  cdpHealthy : Finset (User × ℕ)
  circuitBroken : Bool
  steps : ℕ

variable {User Admin : Type} [DecidableEq User]

namespace State

/-- In basis points, and 20000 when nothing is issued. -/
def reserveRatioBP (s : State User Admin) : ℕ :=
  if s.supply = 0 then 20000 else s.reserves * 10000 / s.supply

def Solvent (k : Constants) (s : State User Admin) : Prop :=
  k.minReserveRatioBP ≤ s.reserveRatioBP

/-- The initial state under an authority. -/
def initial (authority : Admin) : State User Admin :=
  { supply := 0, reserves := 0, blacklist := ∅, paused := false, authority, pendingAuthority := ∅
    redeemQueue := [], cdpHealthy := ∅, circuitBroken := false, steps := 0 }

def Init (s : State User Admin) : Prop := s = initial s.authority

end State

/-- The nominee takes over. `CHOOSE` has a single element to choose from. -/
def AcceptAuthority (s s' : State User Admin) : Prop :=
  ∃ newAuth ∈ s.pendingAuthority, s' = { s with authority := newAuth, pendingAuthority := ∅ }

def Constants.bounds (k : Constants) (n : ℕ) : Prop := 1 ≤ n ∧ n ≤ k.maxSupply

/-- The user gives back `a` tokens and gets the collateral `c` of a CDP. -/
structure Burn (k : Constants) (u : User) (a c : ℕ) (s s' : State User Admin) : Prop where
  amount : k.bounds a
  collateral : k.bounds c
  running : s.paused = false
  clear : u ∉ s.blacklist
  supply : a ≤ s.supply
  reserves : c ≤ s.reserves
  healthy : (u, c) ∈ s.cdpHealthy
  next : s' = { s with
    supply := s.supply - a, reserves := s.reserves - c, cdpHealthy := s.cdpHealthy.erase (u, c) }

inductive Next (k : Constants) (s : State User Admin) : State User Admin → Prop where
  | mint {u : User} {a c : ℕ} (ha : k.bounds a) (hc : k.bounds c) (running : s.paused = false)
    (clear : u ∉ s.blacklist) (cap : s.supply + a ≤ k.maxSupply) (whole : s.circuitBroken = false)
    (backed : 0 < s.reserves + c)
    (ratio : k.minReserveRatioBP ≤ (s.reserves + c) * 10000 / (s.supply + a)) :
    Next k s { s with
      supply := s.supply + a, reserves := s.reserves + c
      cdpHealthy := insert (u, c) s.cdpHealthy }
  | burn {u : User} {a c : ℕ} {s' : State User Admin} (h : Burn k u a c s s') : Next k s s'
  | requestRedeem {u : User} {a : ℕ} (ha : k.bounds a) (running : s.paused = false)
    (clear : u ∉ s.blacklist) (supply : a ≤ s.supply) :
    Next k s { s with redeemQueue := s.redeemQueue ++ [(u, a)] }
  | processRedeem {u : User} {a : ℕ} {rest : List (User × ℕ)}
    (head : s.redeemQueue = (u, a) :: rest) (whole : s.circuitBroken = false)
    (clear : u ∉ s.blacklist) (supply : a ≤ s.supply) :
    Next k s { s with supply := s.supply - a, redeemQueue := rest }
  | blacklist {u : User} (clear : u ∉ s.blacklist) :
    Next k s { s with blacklist := insert u s.blacklist }
  | unblacklist {u : User} (listed : u ∈ s.blacklist) :
    Next k s { s with blacklist := s.blacklist.erase u }
  | pause (running : s.paused = false) : Next k s { s with paused := true }
  | unpause (paused : s.paused = true) : Next k s { s with paused := false }
  | tripCircuitBreaker (whole : s.circuitBroken = false) (issued : 0 < s.supply)
    (short : s.reserveRatioBP < k.minReserveRatioBP) : Next k s { s with circuitBroken := true }
  | resetCircuitBreaker (broken : s.circuitBroken = true) (solvent : s.Solvent k) :
    Next k s { s with circuitBroken := false }
  | nominateAuthority {newAuth : Admin} (other : newAuth ≠ s.authority) :
    Next k s { s with pendingAuthority := {newAuth} }
  | acceptAuthority {s' : State User Admin} (h : AcceptAuthority s s') : Next k s s'
  | liquidate {u : User} {c : ℕ} (hc : k.bounds c) (healthy : (u, c) ∈ s.cdpHealthy)
    (issued : 0 < s.supply) (reserves : c ≤ s.reserves) :
    Next k s { s with
      supply := if c < s.supply then s.supply - c else 0
      reserves := s.reserves - c, cdpHealthy := s.cdpHealthy.erase (u, c) }
  | tick (bound : s.steps < k.maxSteps) : Next k s { s with steps := s.steps + 1 }

variable (User Admin) in
/-- The behaviours of the protocol. -/
abbrev Spec (k : Constants) : Type :=
  Temporal.Behaviour (State.Init : State User Admin → Prop) (Next k)

end SolanaStablecoin.Sss
