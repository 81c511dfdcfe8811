import SolanaStablecoin.Verify.Rounds

/-! The sort and the median of the oracle consensus: the loops run to their end within the slice,
and the result depends on the prices and not on the order of the sources. -/

namespace SolanaStablecoin

variable {key hole : UInt64} {front rest slice other : List UInt64}

/-! ## The inner loop -/

theorem writeSlice_append : writeSlice (front ++ hole :: rest) front.length key =
    some (front ++ key :: rest) := by
  rw [writeSlice, if_pos (by simp), List.set_append_right _ _ (Nat.le_refl _), Nat.sub_self,
    List.set_cons_zero]

/-- The key goes to its place in a sorted front, and the elements behind the hole stay. -/
theorem insertKey_append (hfront : front.Pairwise (· ≤ ·)) :
    ∃ out, insertKey key (front ++ hole :: rest) front.length = some (out ++ rest) ∧
      out.Pairwise (· ≤ ·) ∧ out.Perm (key :: front) := by
  induction front using List.reverseRecOn generalizing hole rest with
  | nil => exact ⟨[key], by rfl, List.pairwise_singleton .., .refl _⟩
  | append_singleton front before ih =>
    obtain ⟨hsorted, -, hle⟩ := List.pairwise_append.mp hfront
    have hlast : ∀ x ∈ front, x ≤ before := fun x hx => hle x hx before List.mem_cons_self
    have hlen : (front ++ [before]).length = front.length + 1 := List.length_append
    have hread : (front ++ [before] ++ hole :: rest)[front.length]? = some before := by simp
    have hwrite (x : UInt64) : writeSlice (front ++ [before] ++ hole :: rest) (front.length + 1) x =
        some (front ++ [before] ++ x :: rest) := by
      rw [← hlen]
      exact writeSlice_append
    rw [hlen, insertKey, hread]
    dsimp only [Option.bind_eq_bind, Option.bind_some]
    split
    next hlt =>
      obtain ⟨out, hout, hpair, hperm⟩ := @ih before (before :: rest) hsorted
      rw [hwrite, Option.bind_some, List.append_assoc, List.singleton_append]
      refine ⟨out ++ [before], ?_, ?_, ?_⟩
      · rw [hout, List.append_assoc, List.singleton_append]
      · refine List.pairwise_append.mpr ⟨hpair, List.pairwise_singleton .., fun x hx y hy => ?_⟩
        rw [List.mem_singleton.mp hy]
        rcases List.mem_cons.mp (hperm.mem_iff.mp hx) with rfl | hx
        · exact UInt64.le_of_lt hlt
        · exact hlast x hx
      · exact hperm.append_right [before]
    next hge =>
      have hkey := UInt64.not_lt.mp hge
      refine ⟨front ++ [before] ++ [key], ?_, ?_, ?_⟩
      · rw [hwrite]
        simp
      · refine List.pairwise_append.mpr ⟨hfront, List.pairwise_singleton .., fun x hx y hy => ?_⟩
        rw [List.mem_singleton.mp hy]
        rcases List.mem_append.mp hx with hx | hx
        · exact UInt64.le_trans (hlast x hx) hkey
        · exact List.mem_singleton.mp hx ▸ hkey
      · exact List.perm_append_singleton key (front ++ [before])

/-! ## The outer loop -/

/-- After `i` rounds the first `i + 1` elements are in order. -/
theorem sortSlice_rounds (hfront : front.Pairwise (· ≤ ·)) :
    ∃ sorted, (List.range' front.length rest.length).foldlM (fun slice i => do
        let key ← slice[i]?
        insertKey key slice i) (front ++ rest) = some sorted ∧
      sorted.Pairwise (· ≤ ·) ∧ sorted.Perm (front ++ rest) := by
  induction rest generalizing front with
  | nil => exact ⟨front, by simp, hfront, by simp⟩
  | cons key rest ih =>
    obtain ⟨out, hout, hpair, hperm⟩ :=
      @insertKey_append key key front rest hfront
    have hlen : out.length = front.length + 1 := hperm.length_eq
    obtain ⟨sorted, hrun, hsorted, hall⟩ := ih hpair
    refine ⟨sorted, ?_, hsorted, hall.trans ?_⟩
    · rw [List.length_cons, List.range'_succ, List.foldlM_cons]
      have hread : (front ++ key :: rest)[front.length]? = some key := by simp
      rw [hread]
      dsimp only [Option.bind_eq_bind, Option.bind_some]
      rw [hout, ← hlen]
      exact hrun
    · exact (hperm.append_right rest).trans (List.perm_middle.symm)

theorem sortSlice_sorts (slice : List UInt64) :
    ∃ sorted, sortSlice slice = some sorted ∧ sorted.Pairwise (· ≤ ·) ∧ sorted.Perm slice := by
  cases slice with
  | nil => exact ⟨[], rfl, .nil, .refl _⟩
  | cons x rest =>
    exact @sortSlice_rounds [x] rest (List.pairwise_singleton ..)

theorem sorted_unique {l l' : List UInt64} (hl : l.Pairwise (· ≤ ·)) (hl' : l'.Pairwise (· ≤ ·))
    (h : l.Perm l') : l = l' :=
  h.eq_of_pairwise (fun _ _ _ _ => UInt64.le_antisymm) hl hl'

/-! ## The median -/

theorem medianOf_odd {k : Nat} (h : slice.length = 2 * k + 1) :
    slice[k]? = some (medianOf slice) := by
  rw [medianOf]
  dsimp only
  rw [if_neg (by omega), if_pos (by omega), show slice.length / 2 = k by omega,
    List.getD_eq_getElem?_getD, List.getElem?_eq_getElem (by omega), Option.getD_some]

theorem medianOf_even {k : Nat} (h : slice.length = 2 * k + 2) :
    ∃ lo hi, slice[k]? = some lo ∧ slice[k + 1]? = some hi ∧
      medianOf slice = lo / 2 + hi / 2 + (lo &&& hi &&& 1) := by
  refine ⟨_, _, List.getElem?_eq_getElem (by omega), List.getElem?_eq_getElem (by omega), ?_⟩
  rw [medianOf]
  dsimp only
  rw [if_neg (by omega), if_neg (by omega), show slice.length / 2 = k + 1 by omega,
    Nat.add_sub_cancel, List.getD_eq_getElem?_getD, List.getD_eq_getElem?_getD,
    List.getElem?_eq_getElem (by omega), List.getElem?_eq_getElem (by omega), Option.getD_some,
    Option.getD_some]

/-- The three summands of the mean of two do not leave the range. -/
theorem mean_summands_lt (lo hi : UInt64) :
    (lo / 2).toNat + (hi / 2).toNat + (lo &&& hi &&& 1).toNat < 2 ^ 64 := by
  have hlo := lo.toNat_lt
  have hhi := hi.toNat_lt
  have hbit : (lo &&& hi &&& 1).toNat ≤ 1 := by
    rw [UInt64.toNat_and, UInt64.toNat_one]
    exact Nat.and_le_right
  have htwo : (2 : UInt64).toNat = 2 := rfl
  rw [UInt64.toNat_div, UInt64.toNat_div, htwo]
  omega

/-- The sort ends with the prices in order. A slice has its middle element for its median, or the
mean of the two in the middle, of which no summand overflows; and slices with the same prices have
the same. -/
theorem sortSlice_medianOf (slice : List UInt64) :
    (∃ sorted, sortSlice slice = some sorted ∧ sorted.Pairwise (· ≤ ·) ∧ sorted.Perm slice ∧
      median slice = medianOf sorted ∧
      ∀ other : List UInt64, other.Perm slice → sortSlice other = some sorted) ∧
    (∀ k, slice.length = 2 * k + 1 → slice[k]? = some (medianOf slice)) ∧
    ∀ k, slice.length = 2 * k + 2 → ∃ lo hi, slice[k]? = some lo ∧ slice[k + 1]? = some hi ∧
      (lo / 2).toNat + (hi / 2).toNat + (lo &&& hi &&& 1).toNat < 2 ^ 64 ∧
      (medianOf slice).toNat = (lo.toNat + hi.toNat) / 2 := by
  refine ⟨?_, fun k h => medianOf_odd h, fun k h => ?_⟩
  · obtain ⟨sorted, hsort, hpair, hperm⟩ := sortSlice_sorts slice
    refine ⟨sorted, hsort, hpair, hperm, ?_, fun other hother => ?_⟩
    · have hsorted : slice.insertionSort (· ≤ ·) = sorted :=
        sorted_unique (List.pairwise_insertionSort ..) hpair
          ((List.perm_insertionSort ..).trans hperm.symm)
      rw [median, hsorted]
    · obtain ⟨sorted', hsort', hpair', hperm'⟩ := sortSlice_sorts other
      rw [hsort', sorted_unique hpair' hpair (hperm'.trans (hother.trans hperm.symm))]
  · obtain ⟨lo, hi, hlo, hhi, hmedian⟩ := medianOf_even h
    exact ⟨lo, hi, hlo, hhi, mean_summands_lt lo hi, hmedian ▸ UInt64.toNat_mean lo hi⟩

end SolanaStablecoin
