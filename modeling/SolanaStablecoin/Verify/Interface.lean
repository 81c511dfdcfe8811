import SolanaStablecoin.Program.Token2022
import SolanaStablecoin.Verify.Issue

/-! The entry points of the versioned interface are refinements of the direct ones: where the
interface serves the version asked for, both succeed together and write the same, and a run that
mixes them is a run of direct calls. -/

namespace SolanaStablecoin

open Transition

variable {rt : Runtime} {clock : Clock} {s s' : State} {a : Action} {i : Instruction}
  {M : Pubkey} {v : UInt8}

/-- The interface of the stablecoin is active, with the version `v`. -/
def State.Serves (s : State) (M : Pubkey) (v : UInt8) : Prop :=
  ∃ iv, s.interfaceVersions (.interfaceVersion M) = some iv ∧ iv.active ∧ iv.version = v

instance State.Serves.decidable : Decidable (s.Serves M v) :=
  decidable_of_iff ((s.interfaceVersions (.interfaceVersion M)).any
    fun iv => iv.active && decide (iv.version = v)) (by
      simp only [Option.any_eq_true, Bool.and_eq_true, decide_eq_true_eq]
      rfl)

theorem checkInterface_eq_ok {u : Unit} : checkInterface s M v = .ok u ↔ s.Serves M v := by
  simp only [checkInterface, bind_eq_ok, load_eq_ok, require_eq_ok, exists_const]
  rfl

/-- The direct call that a call over the interface stands for. -/
def Instruction.direct : Instruction → Instruction
  | cpiMint a amount _ => mint a amount
  | cpiBurn a amount _ => burn a amount
  | i => i

/-- What is called over the interface, the interface serves. -/
def Instruction.Served (s : State) : Instruction → Prop
  | cpiMint a _ version => s.Serves a.mint version
  | cpiBurn a _ version => s.Serves a.mint version
  | _ => True

instance Instruction.Served.decidable : Decidable (i.Served s) := by
  cases i <;> unfold Instruction.Served <;> infer_instance

def Action.direct : Action → Action
  | call clock i => call clock i.direct
  | world w => world w

def Action.Served (s : State) : Action → Prop
  | call _ i => i.Served s
  | world _ => True

instance Action.Served.decidable : Decidable (a.Served s) := by
  cases a <;> unfold Action.Served <;> infer_instance

/-- A served call succeeds exactly when the direct one does, and then with the same state. -/
theorem Instruction.exec_direct (h : i.Served s) :
    i.exec rt clock s = .ok s' ↔ i.direct.exec rt clock s = .ok s' := by
  cases i with
  | cpiMint a amount version =>
    exact cpiMintHandler_eq_ok.trans (and_iff_right (checkInterface_eq_ok.mpr h))
  | cpiBurn a amount version =>
    exact cpiBurnHandler_eq_ok.trans (and_iff_right (checkInterface_eq_ok.mpr h))
  | _ => rfl

theorem Action.exec_direct (h : a.Served s) :
    a.exec rt s = .ok s' ↔ a.direct.exec rt s = .ok s' := by
  cases a with
  | call clock i => exact Instruction.exec_direct h
  | world w => rfl

/-- Whatever succeeds over the interface, the direct call does as well. -/
theorem Action.direct_of_exec (h : a.exec rt s = .ok s') : a.direct.exec rt s = .ok s' := by
  cases a with
  | world w => exact h
  | call clock i =>
    cases i with
    | cpiMint => exact cpiMintHandler_ok h
    | cpiBurn => exact cpiBurnHandler_ok h
    | _ => exact h

theorem Action.next_direct (h : a.Served s) :
    next (Action.exec rt) s a.direct = next (Action.exec rt) s a := by
  cases hexec : a.exec rt s with
  | ok s' => rw [next_of_ok hexec, next_of_ok ((Action.exec_direct h).mp hexec)]
  | error e =>
    cases hdirect : a.direct.exec rt s with
    | ok s' =>
      rw [(Action.exec_direct h).mpr hdirect] at hexec
      cases hexec
    | error e' => rw [next_of_error hexec, next_of_error hdirect]

/-- What a run does is what its successful calls do when they are made directly. -/
theorem run_direct_history (s : State) (as : List Action) :
    run rt s (history (Action.exec rt) (fun _ a => [a.direct]) s as) = run rt s as := by
  induction as generalizing s with
  | nil => rfl
  | cons a as ih =>
    cases h : a.exec rt s with
    | ok s' =>
      rw [history_of_ok h, run, run_append, run_cons, next_of_ok (Action.direct_of_exec h)]
      exact (ih s').trans (congrArg (fun t => run rt t as) (next_of_ok h).symm)
    | error e =>
      rw [history_of_error h]
      exact (ih s).trans (congrArg (fun t => run rt t as) (next_of_error h).symm)

/-- Where the interface serves the version asked for, minting and burning over it are the direct
ones, and so they are in every order of calls of either kind. -/
theorem interface_refines_direct (rt : Runtime) :
    (∀ (clock : Clock) (s s' : State) (a : MintTokens) (amount : UInt64) (v : UInt8),
      s.Serves a.mint v →
        (cpiMintHandler rt clock s a amount v = .ok s' ↔
          mintHandler rt clock s a amount = .ok s')) ∧
    (∀ (s s' : State) (a : BurnTokens) (amount : UInt64) (v : UInt8), s.Serves a.mint v →
      (cpiBurnHandler rt s a amount v = .ok s' ↔ burnHandler rt s a amount = .ok s')) ∧
    (∀ (s : State) (as : List Action), Along (Action.exec rt) (fun s a => a.Served s) s as →
      run rt s (as.map Action.direct) = run rt s as) ∧
    ∀ (s : State) (as : List Action),
      run rt s (history (Action.exec rt) (fun _ a => [a.direct]) s as) = run rt s as := by
  refine ⟨fun clock s s' a n v hv => ?_, fun s s' a n v hv => ?_, fun s as H => ?_,
    run_direct_history⟩
  · rw [cpiMintHandler_eq_ok, checkInterface_eq_ok, and_iff_right hv]
  · rw [cpiBurnHandler_eq_ok, checkInterface_eq_ok, and_iff_right hv]
  · exact run_map (fun hserved => Action.next_direct hserved) H

namespace Market

/-- The authority may mint up to 1000, also over the interface. -/
def interfaced : List Action :=
  opening 1000 ++
    [ .call (day 0) (.updateMinter { asAuthority with minter := authority.key } 1000),
      .call (day 0) (.initInterfaceVersion asAuthority) ]

def issue : MintTokens :=
  { minter := authority, mint := mint.key, recipientTokenAccount := userStable.key }

end Market

open Market in
/-- Of three calls to mint 400 the third is one too many, whichever of them are direct. -/
theorem interface_refines_direct_interfaced :
    run localRuntime (run localRuntime genesis interfaced)
        [.call (day 1) (.mint issue 400), .call (day 1) (.mint issue 400),
          .call (day 1) (.mint issue 400)] =
      run localRuntime (run localRuntime genesis interfaced)
        [.call (day 1) (.cpiMint issue 400 1), .call (day 1) (.mint issue 400),
          .call (day 1) (.cpiMint issue 400 1)] :=
  (interface_refines_direct localRuntime).2.2.1 _
    [.call (day 1) (.cpiMint issue 400 1), .call (day 1) (.mint issue 400),
      .call (day 1) (.cpiMint issue 400 1)] (by decide +kernel)

end SolanaStablecoin
