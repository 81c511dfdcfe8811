import Mathlib.Data.Fintype.EquivFin
import SolanaStablecoin.Base.Slots
import SolanaStablecoin.Program.Token2022
import SolanaStablecoin.Verify.Settings

/-! The keepers of a stablecoin. Where their list has slots the two handlers keep a bounded set in
them; but a new config has none, and no instruction ever makes one. -/

namespace SolanaStablecoin

open Transition Slots

variable {rt : Runtime} {clock : Clock} {s s' : State} {k : Pubkey} {c c' : StablecoinConfig}
  {i : Instruction}

/-! ## Who writes the list -/

abbrev SameKeepers : State → State → Prop := SameConfigs StablecoinConfig.authorizedKeepers

/-- The instruction may write the list of keepers. -/
def Instruction.enlists : Instruction → Bool
  | initializeStablecoin .. | addAuthorizedKeeper .. | removeAuthorizedKeeper .. => true
  | _ => false

theorem Instruction.keepers_without (hi : i.enlists = false) :
    (c.without i.fields).authorizedKeepers = c.authorizedKeepers := by
  cases i with
  | _ => first | rfl | cases hi

theorem Instruction.sameKeepers (hi : i.enlists = false) :
    Ensures (i.exec rt clock s) (SameKeepers s) := by
  intro s' h
  refine (exec_fields ?_ s' h).of_without fun _ => keepers_without hi
  rintro a p rfl
  cases hi

/-- No list of keepers has a slot. -/
def Slotless (s : State) : Prop := ∀ k c, s.configs k = some c → c.authorizedKeepers = []

theorem Slotless.of_same (hs : Slotless s) (h : SameKeepers s s') : Slotless s' := by
  intro k c' hc'
  obtain ⟨c, hc, heq⟩ := h.config hc'
  rw [heq, hs k c hc]

theorem initializeHandler_slotless {a : Initialize} {p : InitializeParams} (hs : Slotless s)
    (h : initializeHandler rt s a p = .ok s') : Slotless s' := by
  simp only [initializeHandler, bind_eq_ok, pure_eq_ok] at h
  obtain ⟨_, -, _, -, -, -, t, -, -, -, -, -, rfl⟩ := h
  intro k c hc
  rcases put_eq_some.mp hc with ⟨-, rfl⟩ | ⟨-, hc⟩
  · rfl
  · exact hs k c hc

/-- Only a keeper who is there already can be added. -/
theorem addAuthorizedKeeperHandler_slotless {a : AuthorityAndConfig} (hs : Slotless s) :
    addAuthorizedKeeperHandler s a k ≠ .ok s' := by
  intro h
  simp only [addAuthorizedKeeperHandler, bind_eq_ok, AuthorityAndConfig.loadSss3_eq_ok,
    AuthorityAndConfig.loadConfig_eq_ok] at h
  obtain ⟨c, ⟨⟨hc, -⟩, -⟩, -, -, h⟩ := h
  rw [hs _ c hc, if_neg List.not_mem_nil] at h
  cases h

theorem removeAuthorizedKeeperHandler_slotless {a : AuthorityAndConfig} (hs : Slotless s) :
    removeAuthorizedKeeperHandler s a k ≠ .ok s' := by
  intro h
  simp only [removeAuthorizedKeeperHandler, bind_eq_ok, AuthorityAndConfig.loadSss3_eq_ok,
    AuthorityAndConfig.loadConfig_eq_ok] at h
  obtain ⟨c, ⟨⟨hc, -⟩, -⟩, v, hv, -⟩ := h
  rw [hs _ c hc] at hv
  cases hv

/-- The step lemma. -/
theorem Slotless.step {a : Action} (hs : Slotless s) (h : a.exec rt s = .ok s') : Slotless s' := by
  cases a with
  | world w => exact hs.of_same (.of_eq (World.exec_configs h))
  | call clock i =>
    cases hi : i.enlists with
    | false => exact hs.of_same (Instruction.sameKeepers hi s' h)
    | true =>
      cases i with
      | initializeStablecoin a p => exact initializeHandler_slotless hs h
      | addAuthorizedKeeper a k => exact absurd h (addAuthorizedKeeperHandler_slotless hs)
      | removeAuthorizedKeeper a k => exact absurd h (removeAuthorizedKeeperHandler_slotless hs)
      | _ => cases hi

theorem Genesis.slotless (hs : Genesis s) : Slotless s := by
  intro k c hc
  rw [hs.configs k] at hc
  cases hc

/-! ## The list as a set -/

inductive KeeperOp where
  | add (keeper : Pubkey)
  | remove (keeper : Pubkey)

namespace KeeperOp

/-- The operation, called by `auth` for the stablecoin `M`. -/
def instruction (auth : Signer) (M : Pubkey) : KeeperOp → Instruction
  | add keeper =>
    .addAuthorizedKeeper { authority := auth, config := .stablecoinConfig M } keeper
  | remove keeper =>
    .removeAuthorizedKeeper { authority := auth, config := .stablecoinConfig M } keeper

def exec (rt : Runtime) (auth : Signer) (M : Pubkey) (s : State) (op : Clock × KeeperOp) :
    Result State :=
  (op.2.instruction auth M).exec rt op.1 s

/-- What the operation is meant to do. -/
def apply (R : Finset Pubkey) : KeeperOp → Finset Pubkey
  | add keeper => insert keeper R
  | remove keeper => R.erase keeper

end KeeperOp

/-- The keys that a run has added and not since removed. -/
def registered (rt : Runtime) (auth : Signer) (M : Pubkey) (s : State)
    (ops : List (Clock × KeeperOp)) : Finset Pubkey :=
  (history (KeeperOp.exec rt auth M) (fun _ op => [op.2]) s ops).foldl KeeperOp.apply ∅

/-- In a state with the config `c` the keys `R` are a set of at most eight keepers. -/
structure Whitelists (rt : Runtime) (auth : Signer) (M : Pubkey) (s : State) (c : StablecoinConfig)
    (R : Finset Pubkey) : Prop where
  adds : ∀ k ∉ R, k ≠ .default → R.card < 8 → ∀ clock, ∃ s',
    KeeperOp.exec rt auth M s (clock, .add k) = .ok s'
  collects : ∀ k, c.mayCollect k = true ↔ k = c.authority ∨ k ∈ R
  restores : ∀ k ∉ R, ∀ clock s₁, KeeperOp.exec rt auth M s (clock, .add k) = .ok s₁ →
    ∀ clock', ∃ s₂ c₂, KeeperOp.exec rt auth M s₁ (clock', .remove k) = .ok s₂ ∧
      s₂.configs (.stablecoinConfig M) = some c₂ ∧ ∀ x, c₂.mayCollect x = c.mayCollect x

/-- Whatever the authority adds and removes, the list is the set of the keys that it should be. -/
def WorksAsSet (rt : Runtime) (auth : Signer) (M : Pubkey) (s : State) : Prop :=
  ∀ ops c, (Transition.run (KeeperOp.exec rt auth M) s ops).configs (.stablecoinConfig M) = some c →
    Whitelists rt auth M (Transition.run (KeeperOp.exec rt auth M) s ops) c
      (registered rt auth M s ops)

/-- `auth` is the authority of `M`, which has the config `c`. -/
structure Appoints (auth : Signer) (M : Pubkey) (s : State) (c : StablecoinConfig) : Prop where
  config : s.configs (.stablecoinConfig M) = some c
  mint : c.mint = M
  preset : c.preset = 3
  authority : c.authority = auth.key

variable {auth : Signer} {M : Pubkey} {v v' : List Pubkey} {R : Finset Pubkey} {n : Nat}

theorem replaceFirst_overwrites {old new : Pubkey} (h : replaceFirst old new v = some v') :
    Overwrites old new v v' := by
  induction v generalizing v' with
  | nil => cases h
  | cons k v ih =>
    rw [replaceFirst] at h
    split at h
    · next heq =>
      cases h
      exact ⟨[], v, by rw [heq, List.nil_append], rfl⟩
    · obtain ⟨w, hw, rfl⟩ := Option.map_eq_some_iff.mp h
      obtain ⟨l, r, rfl, rfl⟩ := ih hw
      exact ⟨k :: l, r, rfl, rfl⟩

theorem replaceFirst_isSome {old new : Pubkey} :
    (replaceFirst old new v).isSome = true ↔ old ∈ v := by
  induction v with
  | nil => simp [replaceFirst]
  | cons k v ih =>
    rw [replaceFirst]
    split
    · next heq => simp [heq]
    · next hne => rw [Option.isSome_map, ih, List.mem_cons, or_iff_right (Ne.symm hne)]

theorem StablecoinConfig.mayCollect_iff {k : Pubkey} :
    c.mayCollect k = true ↔ k = c.authority ∨ k ∈ members .default c.authorizedKeepers := by
  rw [mem_members]
  simp only [mayCollect, Bool.or_eq_true, decide_eq_true_eq, List.any_eq_true, Bool.and_eq_true]
  refine or_congr_right ⟨?_, ?_⟩
  · rintro ⟨_, hk, rfl, hne⟩
    exact ⟨hk, hne⟩
  · rintro ⟨hk, hne⟩
    exact ⟨k, hk, rfl, hne⟩

namespace Appoints

theorem loads (h : Appoints auth M s c) :
    AuthorityAndConfig.loadSss3 s { authority := auth, config := .stablecoinConfig M } = .ok c := by
  rw [AuthorityAndConfig.loadSss3_eq_ok, AuthorityAndConfig.loadConfig_eq_ok]
  exact ⟨⟨h.config, by rw [h.mint], h.authority⟩, h.preset⟩

/-- The same with another list. -/
theorem put (h : Appoints auth M s c) (v : List Pubkey) :
    Appoints auth M
      { s with
        configs := SolanaStablecoin.put s.configs (.stablecoinConfig M)
          { c with authorizedKeepers := v } }
      { c with authorizedKeepers := v } :=
  ⟨put_self .., h.mint, h.preset, h.authority⟩

theorem add_eq (h : Appoints auth M s c) (hk : k ≠ .default) (hnew : k ∉ c.authorizedKeepers) :
    KeeperOp.exec rt auth M s (clock, .add k) =
      (do
        let v ← (replaceFirst .default k c.authorizedKeepers).okOr (.sss .whitelistFull)
        pure { s with
          configs := SolanaStablecoin.put s.configs (.stablecoinConfig M)
            { c with authorizedKeepers := v } }) := by
  change addAuthorizedKeeperHandler s _ k = _
  rw [addAuthorizedKeeperHandler, h.loads, ok_bind, require_pos hk, ok_bind, if_neg hnew]

theorem add_known (h : Appoints auth M s c) (hk : k ≠ .default) (hold : k ∈ c.authorizedKeepers) :
    KeeperOp.exec rt auth M s (clock, .add k) = .ok s := by
  change addAuthorizedKeeperHandler s _ k = _
  rw [addAuthorizedKeeperHandler, h.loads, ok_bind, require_pos hk, ok_bind, if_pos hold]
  rfl

theorem add_default (h : Appoints auth M s c) :
    KeeperOp.exec rt auth M s (clock, .add .default) = .error (.sss .unauthorized) := by
  change addAuthorizedKeeperHandler s _ .default = _
  rw [addAuthorizedKeeperHandler, h.loads, ok_bind, require_neg (not_not.mpr rfl)]
  rfl

theorem remove_eq (h : Appoints auth M s c) :
    KeeperOp.exec rt auth M s (clock, .remove k) =
      (do
        let v ← (replaceFirst k .default c.authorizedKeepers).okOr (.sss .memberNotFound)
        pure { s with
          configs := SolanaStablecoin.put s.configs (.stablecoinConfig M)
            { c with authorizedKeepers := v } }) := by
  change removeAuthorizedKeeperHandler s _ k = _
  rw [removeAuthorizedKeeperHandler, h.loads, ok_bind]

end Appoints

/-- The list has `n` slots and holds the set `R`. -/
structure Holds (auth : Signer) (M : Pubkey) (n : Nat) (s : State) (R : Finset Pubkey) : Prop where
  appoints : ∃ c, Appoints auth M s c ∧ c.authorizedKeepers.length = n ∧
    Distinct .default c.authorizedKeepers ∧ members .default c.authorizedKeepers = R

/-- The step lemma. -/
theorem Holds.step {op : Clock × KeeperOp} (h : Holds auth M n s R)
    (hexec : KeeperOp.exec rt auth M s op = .ok s') : Holds auth M n s' (op.2.apply R) := by
  obtain ⟨c, hc, hlength, hdistinct, rfl⟩ := h.appoints
  obtain ⟨clock, op⟩ := op
  cases op with
  | add k =>
    by_cases hk : k = .default
    · rw [hk, hc.add_default] at hexec
      cases hexec
    by_cases hold : k ∈ c.authorizedKeepers
    · rw [hc.add_known hk hold] at hexec
      cases hexec
      refine ⟨c, hc, hlength, hdistinct, ?_⟩
      exact (Finset.insert_eq_self.mpr (mem_members.mpr ⟨hold, hk⟩)).symm
    rw [hc.add_eq hk hold] at hexec
    simp only [bind_eq_ok, Option.okOr_eq_ok, pure_eq_ok] at hexec
    obtain ⟨v, hv, rfl⟩ := hexec
    have hover := replaceFirst_overwrites hv
    have hnew : k ∉ members .default c.authorizedKeepers := fun hmem => hold (mem_members.mp hmem).1
    exact ⟨_, hc.put v, hover.length_eq.trans hlength,
      (hover.distinct_iff hk).mpr ⟨hnew, hdistinct⟩, hover.members_insert hk⟩
  | remove k =>
    rw [hc.remove_eq] at hexec
    simp only [bind_eq_ok, Option.okOr_eq_ok, pure_eq_ok] at hexec
    obtain ⟨v, hv, rfl⟩ := hexec
    have hover := replaceFirst_overwrites hv
    by_cases hk : k = .default
    · subst hk
      rw [hover.eq_of_self]
      refine ⟨_, hc.put _, hlength, hdistinct, (Finset.erase_eq_of_notMem fun hmem => ?_).symm⟩
      exact (mem_members.mp hmem).2 rfl
    · refine ⟨_, hc.put v, hover.length_eq.trans hlength, ?_, hover.members_erase hk hdistinct⟩
      exact ((hover.symm.distinct_iff hk).mp hdistinct).2

/-- The run lemma. -/
theorem Holds.run (h : Holds auth M n s ∅) (ops : List (Clock × KeeperOp)) :
    Holds auth M n (Transition.run (KeeperOp.exec rt auth M) s ops)
      (registered rt auth M s ops) := by
  refine invariant_history (I := fun s h => Holds auth M n s (h.foldl KeeperOp.apply ∅))
    (P := fun _ _ => True) (h := []) (fun hi _ hexec => ?_) h (along_of_forall fun _ _ _ => trivial)
  rw [List.foldl_append]
  exact hi.step hexec

/-- Eight slots are enough. -/
theorem Holds.whitelists (h : Holds auth M n s R) (hn : 8 ≤ n)
    (hc : s.configs (.stablecoinConfig M) = some c) : Whitelists rt auth M s c R := by
  obtain ⟨c', hc', hlength, hdistinct, rfl⟩ := h.appoints
  cases hc.symm.trans hc'.config
  have hnew {k : Pubkey} (hk : k ≠ .default) (hR : k ∉ members .default c.authorizedKeepers) :
      k ∉ c.authorizedKeepers := fun hmem => hR (mem_members.mpr ⟨hmem, hk⟩)
  refine ⟨fun k hR hk hroom clock => ?_, fun k => StablecoinConfig.mayCollect_iff,
    fun k hR clock s₁ hadd clock' => ?_⟩
  · have hslot : Pubkey.default ∈ c.authorizedKeepers :=
      (card_members_lt_iff hdistinct).mp (by omega)
    obtain ⟨v, hv⟩ : ∃ v, replaceFirst .default k c.authorizedKeepers = some v :=
      Option.isSome_iff_exists.mp (replaceFirst_isSome.mpr hslot)
    rw [hc'.add_eq hk (hnew hk hR), hv]
    exact ⟨_, rfl⟩
  · have hk : k ≠ .default := by
      rintro rfl
      rw [hc'.add_default] at hadd
      cases hadd
    rw [hc'.add_eq hk (hnew hk hR)] at hadd
    simp only [bind_eq_ok, Option.okOr_eq_ok, pure_eq_ok] at hadd
    obtain ⟨v, hv, rfl⟩ := hadd
    have hover := replaceFirst_overwrites hv
    have hin : k ∈ v := (mem_members.mp (hover.members_insert hk ▸ Finset.mem_insert_self ..)).1
    obtain ⟨w, hw⟩ : ∃ w, replaceFirst k .default v = some w :=
      Option.isSome_iff_exists.mp (replaceFirst_isSome.mpr hin)
    rw [(hc'.put v).remove_eq, hw]
    refine ⟨_, _, rfl, ((hc'.put v).put w).config, fun x => ?_⟩
    have hback : members .default w = members .default c.authorizedKeepers := by
      have hv : Distinct .default v := (hover.distinct_iff hk).mpr ⟨hR, hdistinct⟩
      rw [(replaceFirst_overwrites hw).members_erase hk hv, hover.members_insert hk,
        Finset.erase_insert hR]
    rw [Bool.eq_iff_iff, StablecoinConfig.mayCollect_iff, StablecoinConfig.mayCollect_iff, hback]

instance : Infinite Pubkey := Infinite.of_injective Pubkey.key fun _ _ => Pubkey.key.inj

/-- With fewer slots than `m`, the list is full before it has `m` keepers. -/
theorem Holds.exists_card (h : Holds auth M n s ∅) (hset : WorksAsSet rt auth M s) (clock : Clock) :
    ∀ m ≤ 8, ∃ ops, (registered rt auth M s ops).card = m := by
  intro m
  induction m with
  | zero => exact fun _ => ⟨[], rfl⟩
  | succ m ih =>
    intro hm
    obtain ⟨ops, hcard⟩ := ih (by omega)
    have hholds : Holds auth M n (Transition.run (KeeperOp.exec rt auth M) s ops)
      (registered rt auth M s ops) := h.run ops
    obtain ⟨c, hc, -⟩ := hholds.appoints
    obtain ⟨k, hk⟩ := Infinite.exists_notMem_finset (insert .default (registered rt auth M s ops))
    rw [Finset.mem_insert, not_or] at hk
    obtain ⟨s', hadd⟩ := (hset ops c hc.config).adds k hk.2 hk.1 (by omega) clock
    refine ⟨ops ++ [(clock, .add k)], ?_⟩
    have hnext : registered rt auth M s (ops ++ [(clock, .add k)]) =
        insert k (registered rt auth M s ops) := by
      rw [registered, history_append, history_of_ok hadd, List.foldl_append]
      rfl
    rw [hnext, Finset.card_insert_of_notMem hk.2, hcard]

/-- The list works as the set that it should be exactly if it has eight slots. -/
theorem Holds.worksAsSet_iff (h : Holds auth M n s ∅) : WorksAsSet rt auth M s ↔ 8 ≤ n := by
  constructor
  · intro hset
    obtain ⟨ops, hcard⟩ := h.exists_card hset { slot := 0, epoch := 0, unixTimestamp := 0 } 8 le_rfl
    have hholds : Holds auth M n (Transition.run (KeeperOp.exec rt auth M) s ops)
      (registered rt auth M s ops) := h.run ops
    obtain ⟨c, -, rfl, hdistinct, hmembers⟩ := hholds.appoints
    rw [← hcard, ← hmembers]
    exact card_members_le hdistinct
  · intro hn ops c hc
    exact (h.run ops).whitelists hn hc

/-- In every state of every run the list is without slots, so that it is not that set. -/
theorem keeper_whitelist (hs : Genesis s) (as : List Action)
    (hc : Appoints auth M (run rt s as) c) :
    c.authorizedKeepers = [] ∧ ¬ WorksAsSet rt auth M (run rt s as) := by
  have hslotless : Slotless (run rt s as) :=
    invariant_run_of_forall (fun hi hexec => hi.step hexec) as hs.slotless
  have hnil := hslotless _ c hc.config
  have hholds : Holds auth M 0 (run rt s as) ∅ := by
    refine ⟨c, hc, ?_, ?_, ?_⟩
    all_goals rw [hnil]
    · rfl
    · exact List.nodup_nil
    · rfl
  exact ⟨hnil, fun hset => absurd (hholds.worksAsSet_iff.mp hset) (by decide)⟩

open Market in
theorem keeper_whitelist_initialized :
    Genesis genesis ∧
      ¬ WorksAsSet localRuntime authority mint.key (run localRuntime genesis (opening 1000)) := by
  obtain ⟨c, hc, hread⟩ := Option.map_eq_some_iff.mp
    (show ((run localRuntime genesis (opening 1000)).configs config).map
      (fun c => (c.mint, c.preset, c.authority)) = some (mint.key, 3, authority.key) by
        decide +kernel)
  simp only [Prod.mk.injEq] at hread
  obtain ⟨hmint, hpreset, hauthority⟩ := hread
  exact ⟨genesis_genesis,
    (keeper_whitelist genesis_genesis _ ⟨hc, hmint, hpreset, hauthority⟩).2⟩

open Market in
/-- There are no keepers, and the first one is refused. -/
theorem keeper_refused :
    Genesis genesis ∧
    ((run localRuntime genesis (opening 1000)).configs config).map (·.authorizedKeepers) = some [] ∧
    (Instruction.addAuthorizedKeeper { authority, config } user.key).exec localRuntime (day 1)
      (run localRuntime genesis (opening 1000)) = .error (.sss .whitelistFull) :=
  ⟨genesis_genesis, by decide +kernel, rfl⟩

end SolanaStablecoin
