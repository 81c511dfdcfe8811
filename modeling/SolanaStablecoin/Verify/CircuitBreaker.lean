import Mathlib.Data.Fintype.Basic
import SolanaStablecoin.Backend.CircuitBreaker
import SolanaStablecoin.Base.Compact
import SolanaStablecoin.Base.Ensures

/-! Which transactions the circuit breaker's endpoint passes on: those that it should, and those
that differ from them in what it does not look at. -/

namespace SolanaStablecoin.Backend

open Compact

variable {sdk : Sdk} {buf pre rest tx : List UInt8} {cursor n k : ℕ} {mint : String}
  {enabled : Bool}

theorem error_ne_panic {message : String} : Failure.error message ≠ .panic := by
  intro h
  cases h

theorem guard_failsOnly {p : Prop} [Decidable p] {message : String} :
    FailsOnly (require p (.error message : Failure)) (· ≠ .panic) := .guard error_ne_panic

theorem okOr_failsOnly {α : Type} {o : Option α} {message : String} :
    FailsOnly (o.okOr (.error message : Failure)) (· ≠ .panic) := .okOr error_ne_panic

/-! ## Lengths -/

/-- As many bytes as a length may take. -/
structure Short (p : List UInt8) : Prop where
  code : Code p
  length : p.length ≤ 3

/-- What is read for a length: bits from the sixteenth on are lost. -/
def count (p : List UInt8) : ℕ := value p % 2 ^ 16

theorem toNat_or_shiftLeft {i : ℕ} {v x : UInt16} (hi : i < 16) (hv : v.toNat < 2 ^ i) :
    (v ||| x <<< .ofNat i).toNat = (v.toNat + x.toNat * 2 ^ i) % 2 ^ 16 := by
  have hamount : (UInt16.ofNat i).toNat % 16 = i := by
    rw [UInt16.toNat_ofNat', Nat.mod_mod_of_dvd _ (by decide), Nat.mod_eq_of_lt hi]
  have hsplit : 2 ^ 16 = 2 ^ (16 - i) * 2 ^ i := by
    rw [← Nat.pow_add, Nat.sub_add_cancel hi.le]
  have hhigh : x.toNat * 2 ^ i % 2 ^ 16 = x.toNat % 2 ^ (16 - i) * 2 ^ i := by
    rw [hsplit, Nat.mul_mod_mul_right]
  have hfits : v.toNat + x.toNat % 2 ^ (16 - i) * 2 ^ i < 2 ^ 16 := by
    rw [hsplit]
    calc v.toNat + x.toNat % 2 ^ (16 - i) * 2 ^ i
      _ < 2 ^ i + x.toNat % 2 ^ (16 - i) * 2 ^ i := Nat.add_lt_add_right hv _
      _ = (x.toNat % 2 ^ (16 - i) + 1) * 2 ^ i := by rw [Nat.succ_mul, Nat.add_comm]
      _ ≤ 2 ^ (16 - i) * 2 ^ i := Nat.mul_le_mul_right _ (Nat.mod_lt _ (Nat.two_pow_pos _))
  rw [UInt16.toNat_or, UInt16.toNat_shiftLeft, hamount, Nat.shiftLeft_eq, hhigh, Nat.or_comm,
    ← Nat.shiftLeft_eq, ← Nat.shiftLeft_add_eq_or_of_lt hv, Nat.shiftLeft_eq, Nat.add_comm,
    Nat.add_mod, hhigh, Nat.mod_eq_of_lt (by omega : v.toNat < 2 ^ 16), Nat.mod_eq_of_lt hfits]

theorem and_high_eq_zero (i : Fin 256) :
    UInt8.ofNat i &&& 0x80 = 0 ↔ (UInt8.ofNat i).toNat < 128 := by
  revert i
  decide +kernel

theorem last_byte_iff (b : UInt8) : b &&& 0x80 = 0 ↔ b.toNat < 128 := by
  have h := and_high_eq_zero ⟨b.toNat, b.toNat_lt⟩
  rwa [UInt8.ofNat_toNat] at h

theorem toNat_low_bits (b : UInt8) : (b &&& 0x7f).toUInt16.toNat = b.toNat % 128 := by
  rw [UInt8.toNat_toUInt16, UInt8.toNat_and]
  exact Nat.and_two_pow_sub_one_eq_mod b.toNat 7

theorem index_append (pre rest : List UInt8) (b : UInt8) :
    index (pre ++ b :: rest) pre.length = .ok b := by
  rw [index, List.getElem?_append_right (Nat.le_refl _), Nat.sub_self, List.getElem?_cons_zero]
  rfl

/-- `o` is what comes of a code whose first bytes are `q` and whose others start `rest`. -/
def Reads (q rest : List UInt8) (o : Option (UInt16 × ℕ)) : Prop :=
  ∀ n k, o = some (n, k) ↔ ∃ p tail, rest = p ++ tail ∧ Code p ∧ (q ++ p).length ≤ 3 ∧
    n.toNat = count (q ++ p) ∧ k = (q ++ p).length

section Loop

variable {q : List UInt8} {b : UInt8} {val v : UInt16} {shift rounds : ℕ}
  {o : Option (UInt16 × ℕ)}

theorem Reads.full (h : 3 ≤ q.length) : Reads q rest none := by
  intro n k
  refine iff_of_false (Option.some_ne_none _).symm ?_
  rintro ⟨p, tail, -, hp, hlen, -⟩
  have hpos := List.length_pos_of_ne_nil hp.ne_nil
  rw [List.length_append] at hlen
  omega

theorem Reads.nil : Reads q [] none := by
  intro n k
  refine iff_of_false (Option.some_ne_none _).symm ?_
  rintro ⟨p, tail, hnil, hp, -⟩
  exact hp.ne_nil (List.append_eq_nil_iff.mp hnil.symm).1

theorem Reads.last (hb : b.toNat < 128) (hlen : q.length < 3) (hv : v.toNat = count (q ++ [b])) :
    Reads q (b :: rest) (some (v, q.length + 1)) := by
  intro n k
  rw [Option.some.injEq, Prod.mk.injEq]
  constructor
  · rintro ⟨rfl, rfl⟩
    refine ⟨[b], rest, rfl, .last hb, ?_, hv, ?_⟩
    · rwa [List.length_append]
    · rw [List.length_append, List.length_singleton]
  · rintro ⟨p, tail, heq, hp, -, hn, rfl⟩
    obtain ⟨rfl, -⟩ := hp.append_inj (.last hb) heq.symm
    rw [← hv, UInt16.toNat_inj] at hn
    exact ⟨hn.symm, by rw [List.length_append, List.length_singleton]⟩

theorem Reads.more (hb : 128 ≤ b.toNat) (h : Reads (q ++ [b]) rest o) : Reads q (b :: rest) o := by
  intro n k
  refine (h n k).trans ?_
  constructor
  · rintro ⟨p, tail, rfl, hp, h⟩
    rw [List.append_assoc, List.singleton_append] at h
    exact ⟨b :: p, tail, rfl, .more hb hp, h⟩
  · rintro ⟨p, tail, heq, hp, h⟩
    obtain ⟨p', rfl, hrest, hp'⟩ := hp.of_cons hb heq
    rw [← List.singleton_append, ← List.append_assoc] at h
    exact ⟨p', tail, hrest, hp', h⟩

/-- One byte more is added to the number. -/
theorem toNat_or_byte (hval : val.toNat = value q) (hshift : shift = 7 * q.length)
    (hlen : q.length < 3) :
    (val ||| (b &&& 0x7f).toUInt16 <<< .ofNat shift).toNat = count (q ++ [b]) := by
  have hlt : val.toNat < 2 ^ shift := by
    rw [hval, hshift, Nat.pow_mul]
    exact value_lt q
  rw [toNat_or_shiftLeft (by omega) hlt, toNat_low_bits, count, value_append, hval, hshift,
    Nat.pow_mul, value, value, Nat.mul_zero, Nat.add_zero, Nat.mul_comm (_ % 128)]

theorem count_of_length (h : q.length ≤ 2) : count q = value q := by
  refine Nat.mod_eq_of_lt ?_
  calc value q < 128 ^ q.length := value_lt q
    _ ≤ 128 ^ 2 := Nat.pow_le_pow_right (by decide) h
    _ ≤ 2 ^ 16 := by decide

/-- The bytes `q` have been read, and there is room for `rounds` more. -/
theorem go_spec (hval : val.toNat = value q) (hshift : shift = 7 * q.length)
    (hrounds : q.length + rounds = 3) :
    ∃ o, readCompactU16.go (pre ++ (q ++ rest)) pre.length rounds val shift q.length = .ok o ∧
      Reads q rest o := by
  induction rounds generalizing q rest val shift with
  | zero => exact ⟨none, rfl, .full (by omega)⟩
  | succ rounds ih =>
    cases rest with
    | nil =>
      refine ⟨none, ?_, .nil⟩
      rw [readCompactU16.go, if_pos (by rw [List.append_nil, List.length_append])]
      rfl
    | cons b rest =>
      have hinside : ¬ pre.length + q.length ≥ (pre ++ (q ++ b :: rest)).length := by
        simp only [List.length_append, List.length_cons]
        omega
      have hbyte : index (pre ++ (q ++ b :: rest)) (pre.length + q.length) = .ok b := by
        rw [← List.append_assoc, ← List.length_append, index_append]
      have hval' := @toNat_or_byte q b val shift hval hshift (by omega)
      have hlen : (q ++ [b]).length = q.length + 1 := List.length_append
      rw [readCompactU16.go, if_neg hinside, hbyte, ok_bind]
      by_cases hb : b.toNat < 128
      · rw [if_pos ((last_byte_iff b).mpr hb)]
        exact ⟨_, rfl, .last hb (by omega) hval'⟩
      · rw [if_neg (mt (last_byte_iff b).mp hb)]
        by_cases hstop : shift + 7 ≥ 16
        · rw [if_pos hstop]
          exact ⟨none, rfl, .more (Nat.le_of_not_lt hb) (.full (by omega))⟩
        · rw [if_neg hstop]
          obtain ⟨o, ho, hreads⟩ := @ih rest (q ++ [b]) _ (shift + 7)
            (hval'.trans (count_of_length (by omega))) (by omega) (by omega)
          rw [hlen, List.append_assoc, List.singleton_append] at ho
          exact ⟨o, ho, .more (Nat.le_of_not_lt hb) hreads⟩

end Loop

/-- A number is read where a code of at most three bytes stands, and nothing panics. -/
theorem readCompactU16_spec (buf : List UInt8) (i : ℕ) :
    ∃ o, readCompactU16 buf i = .ok o ∧ ∀ m k, o = some (m, k) ↔
      ∃ p tail, buf.drop i = p ++ tail ∧ Short p ∧ m.toNat = count p ∧ k = p.length := by
  rcases Nat.lt_or_ge buf.length i with hlt | hle
  · refine ⟨none, ?_, fun m k => iff_of_false (Option.some_ne_none _).symm ?_⟩
    · rw [readCompactU16, readCompactU16.go, if_pos (by omega)]
      rfl
    · rintro ⟨p, tail, hnil, hp, -⟩
      rw [List.drop_of_length_le hlt.le, eq_comm, List.append_eq_nil_iff] at hnil
      exact hp.code.ne_nil hnil.1
  · obtain ⟨o, ho, hiff⟩ := @go_spec (buf.take i) (buf.drop i) [] 0 0 3 rfl rfl rfl
    rw [List.nil_append, List.take_append_drop, List.length_take, Nat.min_eq_left hle] at ho
    refine ⟨o, ho, fun m k => (hiff m k).trans ?_⟩
    constructor
    · rintro ⟨p, tail, heq, hp, hlen, h⟩
      exact ⟨p, tail, heq, ⟨hp, hlen⟩, h⟩
    · rintro ⟨p, tail, heq, hp, h⟩
      exact ⟨p, tail, heq, hp.code, hp.length, h⟩

theorem readLength_eq_ok {i : ℕ} {what : String} : readLength buf i what = .ok (n, cursor) ↔
    ∃ p tail, buf.drop i = p ++ tail ∧ Short p ∧ n = count p ∧ cursor = i + p.length := by
  obtain ⟨o, ho, hiff⟩ := readCompactU16_spec buf i
  simp only [readLength, ho, ok_bind, bind_eq_ok, Option.okOr_eq_ok, pure_eq_ok, Prod.mk.injEq,
    Prod.exists, hiff]
  constructor
  · rintro ⟨m, k, ⟨p, tail, heq, hp, hm, rfl⟩, rfl, rfl⟩
    exact ⟨p, tail, heq, hp, hm, rfl⟩
  · rintro ⟨p, tail, heq, hp, rfl, rfl⟩
    have hlt : count p < 2 ^ 16 := Nat.mod_lt _ (by decide)
    exact ⟨.ofNat (count p), p.length,
      ⟨p, tail, heq, hp, UInt16.toNat_ofNat_of_lt' hlt, rfl⟩,
      UInt16.toNat_ofNat_of_lt' hlt, rfl⟩

theorem readLength_failsOnly {i : ℕ} {what : String} :
    FailsOnly (readLength buf i what) (· ≠ .panic) := by
  obtain ⟨o, ho, -⟩ := readCompactU16_spec buf i
  rw [readLength, ho, ok_bind]
  exact okOr_failsOnly.bind fun _ => .pure

/-! ## Parts of the buffer -/

section Parts

variable {i j : ℕ} {x tail : List UInt8} {b : UInt8}

theorem drop_behind (h : buf.drop i = x ++ tail) : buf.drop (i + x.length) = tail := by
  rw [← List.drop_drop, h, List.drop_left]

theorem end_le (h : buf.drop i = x ++ tail) (hx : 0 < x.length) : i + x.length ≤ buf.length := by
  have hlen := congrArg List.length h
  rw [List.length_drop, List.length_append] at hlen
  omega

theorem exists_part (h : i + k ≤ buf.length) :
    ∃ x tail, buf.drop i = x ++ tail ∧ x.length = k := by
  refine ⟨(buf.drop i).take k, (buf.drop i).drop k, (List.take_append_drop ..).symm, ?_⟩
  rw [List.length_take, List.length_drop]
  omega

theorem index_eq_ok : index buf i = .ok b ↔ ∃ tail, buf.drop i = b :: tail := by
  rw [index, Option.okOr_eq_ok]
  constructor
  · intro h
    obtain ⟨hlt, rfl⟩ := List.getElem?_eq_some_iff.mp h
    exact ⟨_, List.drop_eq_getElem_cons hlt⟩
  · rintro ⟨tail, h⟩
    have hget : (buf.drop i)[0]? = some b := by rw [h, List.getElem?_cons_zero]
    rwa [List.getElem?_drop, Nat.add_zero] at hget

theorem slice_eq_ok (hij : i ≤ j) (hj : j ≤ buf.length) :
    slice buf i j = .ok ((buf.drop i).take (j - i)) := if_pos ⟨hij, hj⟩

theorem slice_add_eq_ok (h : i + n ≤ buf.length) :
    slice buf i (i + n) = .ok x ↔ x.length = n ∧ ∃ tail, buf.drop i = x ++ tail := by
  obtain ⟨y, tail, hdrop, rfl⟩ := exists_part h
  rw [slice_eq_ok (Nat.le_add_right ..) h, Nat.add_sub_cancel_left, hdrop, List.take_left,
    Except.ok.injEq]
  constructor
  · rintro rfl
    exact ⟨rfl, tail, rfl⟩
  · rintro ⟨hlen, tail', heq⟩
    exact (List.append_inj heq hlen.symm).1

theorem slice_part (h : buf.drop i = x ++ tail) (hx : 0 < x.length) (hj : j = i + x.length) :
    slice buf i j = .ok x := by
  subst hj
  rw [slice_eq_ok (Nat.le_add_right ..) (end_le h hx), h, Nat.add_sub_cancel_left, List.take_left]

end Parts

/-! ## What each part of the validation reads -/

section Stages

variable {fee data : List UInt8} {keys : List (List UInt8)}

theorem readSignatures_eq_ok : readSignatures tx = .ok cursor ↔
    ∃ p sigs tail, tx = p ++ (sigs ++ tail) ∧ Short p ∧ count p ≠ 0 ∧ count p ≤ 8 ∧
      sigs.length = count p * 64 ∧ cursor = p.length + sigs.length := by
  simp only [readSignatures, bind_eq_ok, require_eq_ok, pure_eq_ok, exists_const, Prod.exists,
    readLength_eq_ok, List.drop_zero, Nat.zero_add]
  constructor
  · rintro ⟨_, _, ⟨p, rest, rfl, hp, rfl, rfl⟩, hne, hle, hend, _, -, rfl⟩
    obtain ⟨sigs, tail, hdrop, hsigs⟩ := exists_part hend
    rw [List.drop_left] at hdrop
    exact ⟨p, sigs, tail, by rw [hdrop], hp, hne, hle, hsigs, by rw [hsigs]⟩
  · rintro ⟨p, sigs, tail, rfl, hp, hne, hle, hsigs, rfl⟩
    have hdrop : (p ++ (sigs ++ tail)).drop p.length = sigs ++ tail := List.drop_left
    refine ⟨_, _, ⟨p, _, rfl, hp, rfl, rfl⟩, hne, hle, ?_, _, slice_eq_ok (by omega) ?_, ?_⟩
    · rw [← hsigs]
      exact end_le hdrop (by omega)
    · exact (by omega : _ ≤ p.length + sigs.length).trans (end_le hdrop (by omega))
    · rw [hsigs]

theorem readKey_part {i : ℕ} {x tail : List UInt8} (h : buf.drop i = x ++ tail)
    (hx : x.length = 32) : readKey buf i = .ok x := by
  rw [readKey, slice_part h (by omega) (by rw [hx]), ok_bind, require_pos hx]
  rfl

/-- The keys are read one after another. -/
theorem mapM_readKey {m : ℕ} {x tail : List UInt8} (h : buf.drop cursor = x ++ tail)
    (hx : x.length = m * 32) :
    ((List.range m).mapM fun i => readKey buf (cursor + i * 32)) = .ok (Chunks.chunks 32 x) := by
  have hread : ∀ i ∈ List.range m,
      readKey buf (cursor + i * 32) = .ok ((x.drop (i * 32)).take 32) := by
    intro i hi
    have hle : (i + 1) * 32 ≤ m * 32 := Nat.mul_le_mul_right 32 (List.mem_range.mp hi)
    have hdrop : buf.drop (cursor + i * 32) =
        (x.drop (i * 32)).take 32 ++ ((x.drop (i * 32)).drop 32 ++ tail) := by
      rw [← List.drop_drop, h, List.drop_append_of_le_length (by omega), ← List.append_assoc,
        List.take_append_drop]
    refine readKey_part hdrop ?_
    rw [List.length_take, List.length_drop]
    omega
  rw [Chunks.chunks_eq_windows (by decide) hx]
  generalize List.range m = is at hread
  induction is with
  | nil => rfl
  | cons i is ih =>
    rw [List.mapM_cons, hread i List.mem_cons_self,
      ih fun j hj => hread j (List.mem_cons_of_mem i hj)]
    rfl

/-- The fee payer is the first of them. -/
theorem readKey_first {m : ℕ} {x tail : List UInt8} (h : buf.drop cursor = x ++ tail)
    (hx : x.length = m * 32) (hm : m ≠ 0) : readKey buf cursor = .ok (x.take 32) := by
  rw [← List.take_append_drop 32 x, List.append_assoc] at h
  refine readKey_part h ?_
  rw [List.length_take]
  omega

theorem readKeys_eq_ok {start : ℕ} : readKeys tx start = .ok (fee, keys, cursor) ↔
    ∃ h0 h1 h2 p ks bh tail, tx.drop start = [h0, h1, h2] ++ (p ++ (ks ++ (bh ++ tail))) ∧
      h0 ≠ 0 ∧ Short p ∧ count p ≠ 0 ∧ ks.length = count p * 32 ∧ bh.length = 32 ∧
      fee = ks.take 32 ∧ keys = Chunks.chunks 32 ks ∧
      cursor = start + 3 + p.length + ks.length + 32 := by
  simp only [readKeys, bind_eq_ok, require_eq_ok, pure_eq_ok, exists_const, Prod.exists,
    readLength_eq_ok, Prod.mk.injEq, index_eq_ok]
  constructor
  · rintro ⟨hheader, h0, ⟨_, h0tail⟩, _, _, ⟨p, rest, hrest, hp, rfl, rfl⟩, ⟨hne, hh0⟩, hend, _,
      hfee, _, hkeys, hbh, rfl, rfl, rfl⟩
    obtain ⟨header, behind, hdrop, hlen⟩ := exists_part hheader
    obtain ⟨x0, h1, h2, rfl⟩ := List.length_eq_three.mp hlen
    obtain rfl : x0 = h0 := (List.cons.inj (hdrop.symm.trans h0tail)).1
    obtain rfl : behind = p ++ rest := (drop_behind hdrop).symm.trans hrest
    obtain ⟨ks, rest', hks, hkslen⟩ := exists_part hend
    rw [drop_behind hrest] at hks
    subst hks
    have hdropKeys := drop_behind hrest
    rw [← hkslen] at hbh
    obtain ⟨bh, tail, hdropHash, hbhlen⟩ := exists_part hbh
    rw [drop_behind hdropKeys] at hdropHash
    subst hdropHash
    rw [readKey_first hdropKeys hkslen hne] at hfee
    rw [mapM_readKey hdropKeys hkslen] at hkeys
    cases hfee
    cases hkeys
    exact ⟨x0, h1, h2, p, ks, bh, tail, hdrop, hh0, hp, hne, hkslen, hbhlen, rfl, rfl,
      by rw [hkslen]⟩
  · rintro ⟨h0, h1, h2, p, ks, bh, tail, hdrop, hh0, hp, hne, hks, hbh, rfl, rfl, rfl⟩
    have hdropCount : tx.drop (start + 3) = p ++ (ks ++ (bh ++ tail)) := drop_behind hdrop
    have hdropKeys := drop_behind hdropCount
    have hdropHash := drop_behind hdropKeys
    have hheader : start + 3 ≤ tx.length := end_le hdrop (Nat.succ_pos 2)
    have hend := end_le hdropKeys (by omega)
    have hhash := end_le hdropHash (by omega)
    rw [hbh] at hhash
    rw [hks] at hend hhash
    refine ⟨hheader, h0, ⟨_, hdrop⟩, _, _, ⟨p, _, hdropCount, hp, rfl, rfl⟩, ⟨hne, hh0⟩, hend,
      _, readKey_first hdropKeys hks hne, _, mapM_readKey hdropKeys hks, hhash, rfl, rfl, ?_⟩
    rw [hks]

theorem readInstruction_eq_ok {start : ℕ} : readInstruction sdk tx start keys = .ok data ↔
    ∃ p idx q accounts r tail,
      tx.drop start = p ++ ([idx] ++ (q ++ (accounts ++ (r ++ (data ++ tail))))) ∧
      Short p ∧ count p ≠ 0 ∧ Short q ∧ accounts.length = count q ∧ Short r ∧
      data.length = count r ∧
      ∃ program, sdk.pubkeyFromStr programId = some program ∧ keys[idx.toNat]? = some program := by
  simp only [readInstruction, bind_eq_ok, require_eq_ok, exists_const, Prod.exists,
    readLength_eq_ok, index_eq_ok, Option.okOr_eq_ok]
  constructor
  · rintro ⟨_, _, ⟨p, rest, hdrop, hp, rfl, rfl⟩, hne, hinside, idx, ⟨behind, hidx⟩, hlt, program,
      hkey, _, hprogram, rfl, _, _, ⟨q, rest', hdropCount, hq, rfl, rfl⟩, _, _,
      ⟨r, rest'', hdropLength, hr, rfl, rfl⟩, hend, hdata⟩
    obtain rfl : rest = [idx] ++ behind := (drop_behind hdrop).symm.trans hidx
    obtain rfl : behind = q ++ rest' :=
      (drop_behind (x := [idx]) hidx).symm.trans hdropCount
    have hrpos := List.length_pos_of_ne_nil hr.code.ne_nil
    obtain ⟨accounts, rest'₂, haccounts, hlen⟩ :=
      exists_part ((Nat.le_add_right _ _).trans (end_le hdropLength hrpos))
    rw [drop_behind hdropCount] at haccounts
    subst haccounts
    have hbehind := drop_behind (drop_behind hdropCount)
    rw [hlen, hdropLength] at hbehind
    subst hbehind
    obtain ⟨hdatalen, tail, hdropData⟩ := (slice_add_eq_ok hend).mp hdata
    rw [drop_behind hdropLength] at hdropData
    subst hdropData
    exact ⟨p, idx, q, accounts, r, tail, hdrop, hp, hne, hq, hlen, hr, hdatalen, program,
      hprogram, hkey⟩
  · rintro ⟨p, idx, q, accounts, r, tail, hdrop, hp, hne, hq, haccounts, hr, hdata, program,
      hprogram, hkey⟩
    have hidx := drop_behind hdrop
    have hdropCount := drop_behind hidx
    have hdropAccounts := drop_behind hdropCount
    have hdropLength := drop_behind hdropAccounts
    have hdropData := drop_behind hdropLength
    have hrpos := List.length_pos_of_ne_nil hr.code.ne_nil
    have hinside : start + p.length < tx.length := end_le hidx Nat.one_pos
    have hend := congrArg List.length hdropData
    have hbefore := end_le hdropLength hrpos
    rw [List.length_drop, List.length_append] at hend
    rw [List.length_singleton] at hdropCount hdropAccounts hdropLength hdropData hend hbefore
    rw [haccounts] at hdropLength hdropData hend hbefore
    have hfits : start + p.length + 1 + q.length + count q + r.length + count r ≤ tx.length := by
      omega
    refine ⟨_, _, ⟨p, _, hdrop, hp, rfl, rfl⟩, hne, hinside, idx, ⟨_, hidx⟩, ?_, program, hkey,
      program, hprogram, rfl, _, _, ⟨q, _, hdropCount, hq, rfl, rfl⟩, _, _,
      ⟨r, _, hdropLength, hr, rfl, rfl⟩, hfits, ?_⟩
    · exact (List.getElem?_eq_some_iff.mp hkey).1
    · exact (slice_add_eq_ok hfits).mpr ⟨hdata, tail, hdropData⟩

theorem checkData_eq_ok {u : Unit} : checkData sdk data enabled = .ok u ↔ 16 ≤ data.length ∧
    data.take 8 = anchorDiscriminator sdk (expectedIx enabled) ∧
    Layout.ofLeBytes ((data.drop 8).take 8) = flagCircuitBreaker := by
  simp only [checkData, bind_eq_ok, require_eq_ok, exists_const]
  constructor
  · rintro ⟨hlen, _, hdisc, hdisc', _, hflag, hflag'⟩
    rw [slice_eq_ok (by omega) (by omega)] at hdisc hflag
    cases hdisc
    cases hflag
    exact ⟨hlen, hdisc', hflag'⟩
  · rintro ⟨hlen, hdisc, hflag⟩
    exact ⟨hlen, _, slice_eq_ok (by omega) (by omega), hdisc, _, slice_eq_ok (by omega) (by omega),
      hflag⟩

end Stages

/-! ## No panic -/

section NoPanic

variable {i j : ℕ} {keys : List (List UInt8)} {data : List UInt8}

theorem index_failsOnly (h : i < buf.length) : FailsOnly (index buf i) (· ≠ .panic) := by
  rw [index_eq_ok.mpr ⟨_, List.drop_eq_getElem_cons h⟩]
  exact .ok

theorem slice_failsOnly (hij : i ≤ j) (hj : j ≤ buf.length) :
    FailsOnly (slice buf i j) (· ≠ .panic) := by
  rw [slice_eq_ok hij hj]
  exact .ok

theorem readSignatures_failsOnly : FailsOnly (readSignatures tx) (· ≠ .panic) := by
  refine readLength_failsOnly.bind fun x => ?_
  obtain ⟨numSigs, cursor⟩ := x
  refine guard_failsOnly.bind_of_ok fun _ hne => guard_failsOnly.bind fun _ => ?_
  refine guard_failsOnly.bind_of_ok fun _ hend => ?_
  have hne := require_eq_ok.mp hne
  have hend := require_eq_ok.mp hend
  exact (slice_failsOnly (by omega) (by omega)).bind fun _ => .pure

theorem readKeys_failsOnly : FailsOnly (readKeys tx cursor) (· ≠ .panic) := by
  refine guard_failsOnly.bind_of_ok fun _ hheader => ?_
  have hheader := require_eq_ok.mp hheader
  refine (index_failsOnly (by omega)).bind fun required => ?_
  refine readLength_failsOnly.bind fun x => ?_
  obtain ⟨numKeys, cursor⟩ := x
  refine guard_failsOnly.bind_of_ok fun _ hne => guard_failsOnly.bind_of_ok fun _ hend => ?_
  obtain ⟨ks, tail, hdrop, hks⟩ := exists_part (require_eq_ok.mp hend)
  rw [readKey_first hdrop hks (require_eq_ok.mp hne).1, ok_bind, mapM_readKey hdrop hks, ok_bind]
  exact guard_failsOnly.bind fun _ => .pure

theorem readInstruction_failsOnly :
    FailsOnly (readInstruction sdk tx cursor keys) (· ≠ .panic) := by
  refine readLength_failsOnly.bind fun x => ?_
  obtain ⟨numIxs, cursor⟩ := x
  refine guard_failsOnly.bind fun _ => guard_failsOnly.bind_of_ok fun _ hinside => ?_
  refine (index_failsOnly (require_eq_ok.mp hinside)).bind fun programIndex => ?_
  refine guard_failsOnly.bind_of_ok fun _ hlt => ?_
  rw [List.getElem?_eq_getElem (require_eq_ok.mp hlt), Option.okOr, ok_bind]
  refine okOr_failsOnly.bind fun program => guard_failsOnly.bind fun _ => ?_
  refine readLength_failsOnly.bind fun x => ?_
  obtain ⟨numIxAccounts, cursor⟩ := x
  refine readLength_failsOnly.bind fun x => ?_
  obtain ⟨dataLen, cursor⟩ := x
  refine guard_failsOnly.bind_of_ok fun _ hend => ?_
  exact slice_failsOnly (Nat.le_add_right ..) (require_eq_ok.mp hend)

theorem checkData_failsOnly : FailsOnly (checkData sdk data enabled) (· ≠ .panic) := by
  refine guard_failsOnly.bind_of_ok fun _ hlen => ?_
  have hlen := require_eq_ok.mp hlen
  refine (slice_failsOnly (by omega) (by omega)).bind fun _ => guard_failsOnly.bind fun _ => ?_
  exact (slice_failsOnly (by omega) (by omega)).bind fun _ => guard_failsOnly

theorem validateCircuitBreakerTx_failsOnly :
    FailsOnly (validateCircuitBreakerTx sdk tx mint enabled) (· ≠ .panic) := by
  refine guard_failsOnly.bind fun _ => readSignatures_failsOnly.bind fun cursor => ?_
  refine readKeys_failsOnly.bind fun x => ?_
  obtain ⟨feePayer, allKeys, cursor⟩ := x
  refine readInstruction_failsOnly.bind fun ixData => ?_
  exact checkData_failsOnly.bind fun _ => .pure

end NoPanic

/-! ## Readings -/

/-- Bytes as the validation takes them apart, with the lengths as they stand. -/
structure Reading where
  signatureCount : List UInt8
  signatures : List UInt8
  numRequiredSignatures : UInt8
  numReadonlySigned : UInt8
  numReadonlyUnsigned : UInt8
  keyCount : List UInt8
  keys : List UInt8
  blockhash : List UInt8
  instructionCount : List UInt8
  programIndex : UInt8
  accountCount : List UInt8
  accounts : List UInt8
  dataLength : List UInt8
  data : List UInt8
  rest : List UInt8

namespace Reading

variable {x y : Reading}

def header (x : Reading) : List UInt8 :=
  [x.numRequiredSignatures, x.numReadonlySigned, x.numReadonlyUnsigned]

def instruction (x : Reading) : List UInt8 :=
  [x.programIndex] ++ (x.accountCount ++ (x.accounts ++ (x.dataLength ++ (x.data ++ x.rest))))

def bytes (x : Reading) : List UInt8 :=
  x.signatureCount ++ (x.signatures ++ (x.header ++ (x.keyCount ++ (x.keys ++ (x.blockhash ++
    (x.instructionCount ++ x.instruction))))))

def accountKeys (x : Reading) : List (List UInt8) := Chunks.chunks 32 x.keys

/-- Every part has the size that the length before it says. -/
structure WellSized (x : Reading) : Prop where
  signatureCount : Short x.signatureCount
  signatures : x.signatures.length = count x.signatureCount * 64
  keyCount : Short x.keyCount
  keys : x.keys.length = count x.keyCount * 32
  blockhash : x.blockhash.length = 32
  instructionCount : Short x.instructionCount
  accountCount : Short x.accountCount
  accounts : x.accounts.length = count x.accountCount
  dataLength : Short x.dataLength
  data : x.data.length = count x.dataLength

/-- What the validation looks at. -/
structure Passes (sdk : Sdk) (enabled : Bool) (x : Reading) : Prop where
  signatures : count x.signatureCount ≠ 0 ∧ count x.signatureCount ≤ 8
  required : x.numRequiredSignatures ≠ 0
  keys : count x.keyCount ≠ 0
  instructions : count x.instructionCount ≠ 0
  program : ∃ program, sdk.pubkeyFromStr programId = some program ∧
    x.accountKeys[x.programIndex.toNat]? = some program
  data : 16 ≤ x.data.length ∧
    x.data.take 8 = anchorDiscriminator sdk (expectedIx enabled) ∧
    Layout.ofLeBytes ((x.data.drop 8).take 8) = flagCircuitBreaker

theorem Short.append_inj {p q r s : List UInt8} (hp : Short p) (hq : Short q)
    (h : p ++ r = q ++ s) : p = q ∧ r = s := hp.code.append_inj hq.code h

/-- There is one way to take bytes apart. -/
theorem WellSized.unique (hx : x.WellSized) (hy : y.WellSized) (h : x.bytes = y.bytes) : x = y := by
  obtain ⟨hsigCount, h⟩ := Short.append_inj hx.signatureCount hy.signatureCount h
  obtain ⟨hsigs, h⟩ := List.append_inj h (by rw [hx.signatures, hy.signatures, hsigCount])
  obtain ⟨hheader, h⟩ := List.append_inj h rfl
  obtain ⟨hkeyCount, h⟩ := Short.append_inj hx.keyCount hy.keyCount h
  obtain ⟨hkeys, h⟩ := List.append_inj h (by rw [hx.keys, hy.keys, hkeyCount])
  obtain ⟨hhash, h⟩ := List.append_inj h (by rw [hx.blockhash, hy.blockhash])
  obtain ⟨hixCount, h⟩ := Short.append_inj hx.instructionCount hy.instructionCount h
  obtain ⟨hindex, h⟩ := List.append_inj h rfl
  obtain ⟨haccCount, h⟩ := Short.append_inj hx.accountCount hy.accountCount h
  obtain ⟨haccounts, h⟩ := List.append_inj h (by rw [hx.accounts, hy.accounts, haccCount])
  obtain ⟨hdataLength, h⟩ := Short.append_inj hx.dataLength hy.dataLength h
  obtain ⟨hdata, hrest⟩ := List.append_inj h (by rw [hx.data, hy.data, hdataLength])
  simp only [header, List.cons.injEq, and_true] at hheader hindex
  cases x
  cases y
  simp_all only

theorem drop_signatures (x : Reading) :
    x.bytes.drop (x.signatureCount.length + x.signatures.length) = x.header ++ (x.keyCount ++
      (x.keys ++ (x.blockhash ++ (x.instructionCount ++ x.instruction)))) := by
  rw [bytes, ← List.drop_drop, List.drop_left, List.drop_left]

theorem WellSized.length_bytes (hx : x.WellSized) (hsigs : count x.signatureCount ≠ 0)
    (hkeys : count x.keyCount ≠ 0) : 1 + 64 + 3 + 1 + 32 + 32 ≤ x.bytes.length := by
  have hp := List.length_pos_of_ne_nil hx.signatureCount.code.ne_nil
  have hq := List.length_pos_of_ne_nil hx.keyCount.code.ne_nil
  have hheader : x.header.length = 3 := rfl
  have hsigsLength := hx.signatures
  have hkeysLength := hx.keys
  have hhash := hx.blockhash
  simp only [bytes, List.length_append]
  omega

end Reading

/-- The validation accepts what can be taken apart so that it passes. -/
theorem validate_eq_ok {signer : String} {sent : List UInt8} :
    validateCircuitBreakerTx sdk tx mint enabled = .ok (signer, sent) ↔
      ∃ x : Reading, x.bytes = tx ∧ x.WellSized ∧ x.Passes sdk enabled ∧
        signer = sdk.pubkeyToString (x.keys.take 32) ∧ sent = tx := by
  simp only [validateCircuitBreakerTx, bind_eq_ok, require_eq_ok, exists_const, Prod.exists,
    readSignatures_eq_ok, readKeys_eq_ok, readInstruction_eq_ok, checkData_eq_ok, pure_eq_ok,
    Prod.mk.injEq]
  constructor
  · rintro ⟨-, _, ⟨p, sigs, tail, rfl, hp, hne, hle, hsigs, rfl⟩, _, _, _,
      ⟨h0, h1, h2, q, ks, bh, tail', hdrop, hh0, hq, hqne, hks, hbh, rfl, rfl, rfl⟩, data,
      ⟨r, idx, u, accounts, v, rest, hdrop', hr, hrne, hu, haccounts, hv, hdata, hprogram⟩, hcheck,
      rfl, rfl⟩
    have htail : tail = [h0, h1, h2] ++ (q ++ (ks ++ (bh ++ tail'))) := by
      rw [← hdrop, ← List.drop_drop, List.drop_left, List.drop_left]
    have htail' : tail' = r ++ ([idx] ++ (u ++ (accounts ++ (v ++ (data ++ rest))))) := by
      have hbehind := drop_behind (drop_behind (drop_behind (drop_behind hdrop)))
      rw [hbh] at hbehind
      exact hbehind.symm.trans hdrop'
    refine ⟨
      { signatureCount := p, signatures := sigs, numRequiredSignatures := h0
        numReadonlySigned := h1, numReadonlyUnsigned := h2, keyCount := q, keys := ks
        blockhash := bh, instructionCount := r, programIndex := idx, accountCount := u, accounts
        dataLength := v, data, rest }, ?_, ?_, ?_, rfl, rfl⟩
    · rw [htail, htail']
      rfl
    · exact ⟨hp, hsigs, hq, hks, hbh, hr, hu, haccounts, hv, hdata⟩
    · exact ⟨⟨hne, hle⟩, hh0, hqne, hrne, hprogram, hcheck⟩
  · rintro ⟨x, rfl, hx, hpass, rfl, rfl⟩
    have hdrop := x.drop_signatures
    have hdrop' := drop_behind (drop_behind (drop_behind (drop_behind hdrop)))
    rw [hx.blockhash] at hdrop'
    exact ⟨hx.length_bytes hpass.signatures.1 hpass.keys, _,
      ⟨x.signatureCount, x.signatures, _, rfl, hx.signatureCount, hpass.signatures.1,
        hpass.signatures.2, hx.signatures, rfl⟩, _, _, _,
      ⟨_, _, _, x.keyCount, x.keys, x.blockhash, _, hdrop, hpass.required, hx.keyCount, hpass.keys,
        hx.keys, hx.blockhash, rfl, rfl, rfl⟩, x.data,
      ⟨x.instructionCount, x.programIndex, x.accountCount, x.accounts, x.dataLength, x.rest, hdrop',
        hx.instructionCount, hpass.instructions, hx.accountCount, hx.accounts, hx.dataLength,
        hx.data, hpass.program⟩, hpass.data, rfl, rfl⟩

theorem validate_isOk_iff : (validateCircuitBreakerTx sdk tx mint enabled).isOk ↔
    ∃ x : Reading, x.bytes = tx ∧ x.WellSized ∧ x.Passes sdk enabled := by
  rw [isOk_iff]
  constructor
  · rintro ⟨⟨signer, sent⟩, h⟩
    obtain ⟨x, hbytes, hx, hpass, -⟩ := validate_eq_ok.mp h
    exact ⟨x, hbytes, hx, hpass⟩
  · rintro ⟨x, hbytes, hx, hpass⟩
    exact ⟨_, validate_eq_ok.mpr ⟨x, hbytes, hx, hpass, rfl, rfl⟩⟩

/-! ## Requests -/

section Requests

variable {req : CircuitBreakerRequest}

theorem charVal_failsOnly (c : UInt8) : FailsOnly (charVal c) (· ≠ .panic) := by
  simp only [charVal]
  split_ifs
  all_goals first | exact .ok | exact FailsOnly.error_iff.mpr error_ne_panic

theorem decodeChunk_failsOnly {chunk : List UInt8} (h : chunk.length = 4) :
    FailsOnly (decodeChunk chunk) (· ≠ .panic) := by
  refine (index_failsOnly (by omega)).bind fun _ => (charVal_failsOnly _).bind fun _ => ?_
  refine (index_failsOnly (by omega)).bind fun _ => (charVal_failsOnly _).bind fun _ => ?_
  refine (index_failsOnly (by omega)).bind fun _ => (charVal_failsOnly _).bind fun _ => ?_
  refine (index_failsOnly (by omega)).bind fun _ => (charVal_failsOnly _).bind fun _ => ?_
  exact .pure

theorem base64Decode_failsOnly (s : String) : FailsOnly (base64Decode s) (· ≠ .panic) := by
  refine guard_failsOnly.bind_of_ok fun _ heven => ?_
  have hchunks := Chunks.chunked_chunks (n := 4) (by decide) (asBytes (trim s))
  have hlength := hchunks.length_eq (by
    rw [Chunks.flatten_chunks (by decide)]
    exact require_eq_ok.mp heven)
  exact (FailsOnly.mapM fun c hc => decodeChunk_failsOnly (hlength c hc)).bind fun _ => .pure

theorem within_failsOnly {α : Type} {x : Except Failure α} {text : String}
    (hx : FailsOnly x (· ≠ .panic)) :
    FailsOnly (x.mapError (Failure.within text)) (· ≠ .panic) := by
  refine hx.mapError fun e he => ?_
  cases e with
  | panic => exact absurd rfl he
  | error message => exact error_ne_panic

theorem setCircuitBreaker_failsOnly : FailsOnly (setCircuitBreaker sdk req) (· ≠ .panic) := by
  refine okOr_failsOnly.bind fun _ => ?_
  refine (within_failsOnly (base64Decode_failsOnly _)).bind fun txBytes => ?_
  exact within_failsOnly validateCircuitBreakerTx_failsOnly

/-- What is sent is what came in, and the signer is its fee payer. -/
theorem setCircuitBreaker_eq_ok {signer : String} {sent : List UInt8} :
    setCircuitBreaker sdk req = .ok (signer, sent) ↔
      (∃ mint, sdk.pubkeyFromStr req.mint = some mint) ∧
      base64Decode req.signedTransaction = .ok sent ∧
      ∃ x : Reading, x.bytes = sent ∧ x.WellSized ∧ x.Passes sdk req.enabled ∧
        signer = sdk.pubkeyToString (x.keys.take 32) := by
  simp only [setCircuitBreaker, bind_eq_ok, Option.okOr_eq_ok, mapError_eq_ok, validate_eq_ok]
  constructor
  · rintro ⟨key, hkey, tx, htx, x, hbytes, hx, hpass, hsigner, rfl⟩
    exact ⟨⟨key, hkey⟩, htx, x, hbytes, hx, hpass, hsigner⟩
  · rintro ⟨⟨key, hkey⟩, htx, x, hbytes, hx, hpass, hsigner⟩
    exact ⟨key, hkey, sent, htx, x, hbytes, hx, hpass, hsigner, rfl⟩

end Requests

/-! ## Legacy transactions -/

/-- The shortest code of a length of 16 bits. -/
def shortVec (n : ℕ) : List UInt8 := encode 2 n

structure CompiledInstruction where
  programIdIndex : UInt8
  accounts : List UInt8
  data : List UInt8
  accounts_fit : accounts.length < 2 ^ 16
  data_fits : data.length < 2 ^ 16

def CompiledInstruction.serialize (ix : CompiledInstruction) : List UInt8 :=
  [ix.programIdIndex] ++ (shortVec ix.accounts.length ++ (ix.accounts ++
    (shortVec ix.data.length ++ ix.data)))

structure LegacyTransaction where
  signatures : List (List UInt8)
  numRequiredSignatures : UInt8
  numReadonlySigned : UInt8
  numReadonlyUnsigned : UInt8
  accountKeys : List (List UInt8)
  recentBlockhash : List UInt8
  instructions : List CompiledInstruction
  signature_size : ∀ s ∈ signatures, s.length = 64
  key_size : ∀ k ∈ accountKeys, k.length = 32
  blockhash_size : recentBlockhash.length = 32
  signatures_fit : signatures.length < 2 ^ 16
  keys_fit : accountKeys.length < 2 ^ 16
  instructions_fit : instructions.length < 2 ^ 16

def LegacyTransaction.serialize (t : LegacyTransaction) : List UInt8 :=
  shortVec t.signatures.length ++ (t.signatures.flatten ++
    ([t.numRequiredSignatures, t.numReadonlySigned, t.numReadonlyUnsigned] ++
      (shortVec t.accountKeys.length ++ (t.accountKeys.flatten ++ (t.recentBlockhash ++
        (shortVec t.instructions.length ++ t.instructions.flatMap (·.serialize)))))))

/-- The bytes are a transaction with one signature and one instruction, which sets or clears the
flag of the circuit breaker for the mint. -/
structure IsBreakerTransaction (sdk : Sdk) (tx : List UInt8) (mint : String) (enabled : Bool)
    (t : LegacyTransaction) (ix : CompiledInstruction) : Prop where
  serialize : t.serialize = tx
  signatures : t.signatures.length = 1
  header : t.numRequiredSignatures = 1
  instructions : t.instructions = [ix]
  program : ∃ program, sdk.pubkeyFromStr programId = some program ∧
    t.accountKeys[ix.programIdIndex.toNat]? = some program
  mint : ∃ key, sdk.pubkeyFromStr mint = some key ∧
    ∃ i ∈ ix.accounts, t.accountKeys[i.toNat]? = some key
  data : ∃ more, ix.data = anchorDiscriminator sdk (expectedIx enabled) ++
    (Layout.leBytes 8 flagCircuitBreaker ++ more)

/-- A reading as a transaction of the breaker has it. -/
structure Reading.Strict (sdk : Sdk) (mint : String) (x : Reading) : Prop where
  signatures : x.signatureCount = shortVec 1
  required : x.numRequiredSignatures = 1
  keys : x.keyCount = shortVec (count x.keyCount)
  instructions : x.instructionCount = shortVec 1
  accounts : x.accountCount = shortVec x.accounts.length
  data : x.dataLength = shortVec x.data.length
  rest : x.rest = []
  mint : ∃ key, sdk.pubkeyFromStr mint = some key ∧
    ∃ i ∈ x.accounts, x.accountKeys[i.toNat]? = some key

theorem shortVec_spec (h : n < 2 ^ 16) : Short (shortVec n) ∧ count (shortVec n) = n := by
  obtain ⟨hcode, hvalue, hlen⟩ := @encode_spec 2 n (by omega)
  refine ⟨⟨hcode, hlen⟩, ?_⟩
  rw [count, shortVec, hvalue, Nat.mod_eq_of_lt h]

theorem shortVec_one : Short (shortVec 1) ∧ count (shortVec 1) = 1 := shortVec_spec (by decide)

theorem length_anchorDiscriminator (name : String) : (anchorDiscriminator sdk name).length = 8 := by
  rw [anchorDiscriminator, List.length_take, sdk.length_sha256]
  rfl

/-- The data starts with the discriminator and the flag. -/
theorem data_iff {data : List UInt8} :
    (16 ≤ data.length ∧ data.take 8 = anchorDiscriminator sdk (expectedIx enabled) ∧
      Layout.ofLeBytes ((data.drop 8).take 8) = flagCircuitBreaker) ↔
    ∃ more, data = anchorDiscriminator sdk (expectedIx enabled) ++
      (Layout.leBytes 8 flagCircuitBreaker ++ more) := by
  have hlen := @length_anchorDiscriminator sdk (expectedIx enabled)
  constructor
  · rintro ⟨hle, hdisc, hflag⟩
    have hflagLength : ((data.drop 8).take 8).length = 8 := by
      rw [List.length_take, List.length_drop]
      omega
    have hflagBytes := Layout.leBytes_ofLeBytes ((data.drop 8).take 8)
    rw [hflagLength, hflag] at hflagBytes
    refine ⟨(data.drop 8).drop 8, ?_⟩
    rw [← hdisc, hflagBytes, List.take_append_drop, List.take_append_drop]
  · rintro ⟨more, rfl⟩
    have hflagLength := Layout.length_leBytes 8 flagCircuitBreaker
    refine ⟨?_, List.take_left' hlen, ?_⟩
    · rw [List.length_append, List.length_append, hlen, hflagLength]
      omega
    · rw [List.drop_left' hlen, List.take_left' hflagLength]
      exact Layout.ofLeBytes_leBytes_of_lt (by decide)

/-- How the bytes of a transaction with the one instruction `ix` are taken apart. -/
def LegacyTransaction.reading (t : LegacyTransaction) (ix : CompiledInstruction) : Reading where
  signatureCount := shortVec t.signatures.length
  signatures := t.signatures.flatten
  numRequiredSignatures := t.numRequiredSignatures
  numReadonlySigned := t.numReadonlySigned
  numReadonlyUnsigned := t.numReadonlyUnsigned
  keyCount := shortVec t.accountKeys.length
  keys := t.accountKeys.flatten
  blockhash := t.recentBlockhash
  instructionCount := shortVec 1
  programIndex := ix.programIdIndex
  accountCount := shortVec ix.accounts.length
  accounts := ix.accounts
  dataLength := shortVec ix.data.length
  data := ix.data
  rest := []

section Valid

variable {t : LegacyTransaction} {ix : CompiledInstruction}

theorem LegacyTransaction.reading_bytes (h : t.instructions = [ix]) :
    (t.reading ix).bytes = t.serialize := by
  rw [serialize, h, List.flatMap_singleton, CompiledInstruction.serialize]
  simp only [Reading.bytes, Reading.instruction, Reading.header, reading, List.append_nil,
    List.length_singleton]

theorem LegacyTransaction.reading_accountKeys : (t.reading ix).accountKeys = t.accountKeys :=
  (Chunks.Chunked.of_forall (by decide) t.key_size).chunks_flatten (by decide)

theorem LegacyTransaction.reading_wellSized : (t.reading ix).WellSized := by
  obtain ⟨hsigShort, hsigCount⟩ := shortVec_spec t.signatures_fit
  obtain ⟨hkeyShort, hkeyCount⟩ := shortVec_spec t.keys_fit
  obtain ⟨haccShort, haccCount⟩ := shortVec_spec ix.accounts_fit
  obtain ⟨hdataShort, hdataCount⟩ := shortVec_spec ix.data_fits
  refine ⟨hsigShort, ?_, hkeyShort, ?_, t.blockhash_size, shortVec_one.1, haccShort, haccCount.symm,
    hdataShort, hdataCount.symm⟩
  · exact (Chunks.length_flatten t.signature_size).trans (congrArg (· * 64) hsigCount.symm)
  · exact (Chunks.length_flatten t.key_size).trans (congrArg (· * 32) hkeyCount.symm)

theorem IsBreakerTransaction.passes (h : IsBreakerTransaction sdk tx mint enabled t ix) :
    (t.reading ix).Passes sdk enabled := by
  obtain ⟨program, hprogram, hindex⟩ := h.program
  refine ⟨?_, ?_, ?_, ?_, ⟨program, hprogram, ?_⟩, data_iff.mpr h.data⟩
  · rw [LegacyTransaction.reading, h.signatures, shortVec_one.2]
    decide
  · rw [LegacyTransaction.reading, h.header]
    exact (by decide : (1 : UInt8) ≠ 0)
  · have hlt := (List.getElem?_eq_some_iff.mp hindex).1
    rw [LegacyTransaction.reading, (shortVec_spec t.keys_fit).2]
    omega
  · rw [LegacyTransaction.reading, shortVec_one.2]
    decide
  · rw [LegacyTransaction.reading_accountKeys]
    exact hindex

theorem IsBreakerTransaction.strict (h : IsBreakerTransaction sdk tx mint enabled t ix) :
    (t.reading ix).Strict sdk mint := by
  refine ⟨congrArg shortVec h.signatures, h.header, ?_, rfl, rfl, rfl, rfl, ?_⟩
  · rw [LegacyTransaction.reading, (shortVec_spec t.keys_fit).2]
  · rw [LegacyTransaction.reading_accountKeys]
    exact h.mint

theorem IsBreakerTransaction.bytes (h : IsBreakerTransaction sdk tx mint enabled t ix) :
    (t.reading ix).bytes = tx := (LegacyTransaction.reading_bytes h.instructions).trans h.serialize

end Valid

theorem count_lt (p : List UInt8) : count p < 2 ^ 16 := Nat.mod_lt _ (by decide)

theorem Reading.Strict.transaction {x : Reading} (hx : x.WellSized) (hpass : x.Passes sdk enabled)
    (h : x.Strict sdk mint) : ∃ t ix, IsBreakerTransaction sdk x.bytes mint enabled t ix := by
  have hsigLength : x.signatures.length = 64 := by
    rw [hx.signatures, h.signatures, shortVec_one.2]
  have hkeySize : ∀ k ∈ x.accountKeys, k.length = 32 := by
    refine (Chunks.chunked_chunks (by decide) x.keys).length_eq ?_
    rw [Chunks.flatten_chunks (by decide), hx.keys, Nat.mul_mod_left]
  have hkeyCount : x.accountKeys.length = count x.keyCount := by
    rw [Reading.accountKeys, Chunks.chunks_eq_windows (by decide) hx.keys, List.length_map,
      List.length_range]
  let ix : CompiledInstruction :=
    { programIdIndex := x.programIndex, accounts := x.accounts, data := x.data
      accounts_fit := hx.accounts ▸ count_lt _
      data_fits := hx.data ▸ count_lt _ }
  let t : LegacyTransaction :=
    { signatures := [x.signatures], numRequiredSignatures := x.numRequiredSignatures
      numReadonlySigned := x.numReadonlySigned, numReadonlyUnsigned := x.numReadonlyUnsigned
      accountKeys := x.accountKeys, recentBlockhash := x.blockhash, instructions := [ix]
      signature_size := List.forall_mem_singleton.mpr hsigLength
      key_size := hkeySize
      blockhash_size := hx.blockhash
      signatures_fit := (by decide : 1 < 2 ^ 16)
      keys_fit := hkeyCount ▸ count_lt _
      instructions_fit := (by decide : 1 < 2 ^ 16) }
  refine ⟨t, ix, ?_, rfl, h.required, rfl, hpass.program, h.mint, data_iff.mp hpass.data⟩
  show shortVec 1 ++ ([x.signatures].flatten ++ (x.header ++ (shortVec x.accountKeys.length ++
    (x.accountKeys.flatten ++ (x.blockhash ++ (shortVec 1 ++
      [ix].flatMap CompiledInstruction.serialize)))))) = x.bytes
  have hserialize : ix.serialize = x.instruction := by
    rw [Reading.instruction, h.rest, List.append_nil, h.accounts, h.data]
    rfl
  rw [List.flatten_singleton, List.flatMap_singleton, hserialize, hkeyCount, ← h.keys,
    Reading.accountKeys, Chunks.flatten_chunks (by decide), Reading.bytes, h.signatures,
    h.instructions]

theorem Reading.WellSized.not_transaction {x : Reading} (hx : x.WellSized)
    (h : ¬ x.Strict sdk mint) : ¬ ∃ t ix, IsBreakerTransaction sdk x.bytes mint enabled t ix := by
  rintro ⟨t, ix, hvalid⟩
  have hsame := LegacyTransaction.reading_wellSized.unique hx hvalid.bytes
  exact h (hsame ▸ hvalid.strict)

/-- The validation never panics. It accepts exactly the transactions of the breaker, as long as the
bytes that pass what it looks at are such transactions in everything that it does not look at. -/
theorem circuit_breaker_tx (sdk : Sdk) (tx : List UInt8) (mint : String) (enabled : Bool) :
    validateCircuitBreakerTx sdk tx mint enabled ≠ .error .panic ∧
    (((validateCircuitBreakerTx sdk tx mint enabled).isOk ↔
        ∃ t ix, IsBreakerTransaction sdk tx mint enabled t ix) ↔
      ∀ x : Reading, x.bytes = tx → x.WellSized → x.Passes sdk enabled → x.Strict sdk mint) := by
  refine ⟨fun h => validateCircuitBreakerTx_failsOnly _ h rfl, ?_⟩
  rw [validate_isOk_iff]
  constructor
  · rintro h x rfl hx hpass
    by_contra hlax
    exact hx.not_transaction hlax (h.mp ⟨x, rfl, hx, hpass⟩)
  · intro h
    constructor
    · rintro ⟨x, rfl, hx, hpass⟩
      exact (h x rfl hx hpass).transaction hx hpass
    · rintro ⟨t, ix, hvalid⟩
      exact ⟨_, hvalid.bytes, LegacyTransaction.reading_wellSized, hvalid.passes⟩

/-! ## Transactions that are passed on and should not be -/

def feePayer : List UInt8 := List.replicate 32 42

def programKey : List UInt8 :=
  [145, 222, 0, 192, 220, 133, 220, 64, 250, 120, 97, 253, 139, 8, 66, 189, 79, 143, 33, 131, 95,
    32, 29, 241, 208, 228, 222, 66, 41, 9, 135, 228]

def wrappedSol : String := "So11111111111111111111111111111111111111112"

def wrappedSolKey : List UInt8 :=
  [6, 155, 136, 87, 254, 171, 129, 132, 251, 104, 127, 99, 70, 24, 192, 53, 218, 196, 57, 220, 26,
    235, 59, 85, 152, 160, 240, 0, 0, 0, 0, 1]

def setFeatureFlagDigest : List UInt8 :=
  [168, 225, 94, 106, 2, 233, 61, 51, 83, 22, 9, 45, 235, 250, 100, 168, 114, 109, 89, 15, 105, 71,
    47, 239, 179, 54, 185, 76, 118, 74, 89, 169]

/-- The digest of the one text that is hashed here. -/
def sampleDigest (data : List UInt8) : List UInt8 :=
  if data = asBytes "global:set_feature_flag" then setFeatureFlagDigest else List.replicate 32 0

theorem length_sampleDigest (data : List UInt8) : (sampleDigest data).length = 32 := by
  rw [sampleDigest]
  split <;> rfl

/-- The addresses that occur here, as they are in base 58. -/
def sampleSdk : Sdk where
  sha256 := sampleDigest
  pubkeyFromStr s :=
    if s = programId then some programKey else if s = wrappedSol then some wrappedSolKey else none
  pubkeyToString key :=
    if key = programKey then programId else if key = wrappedSolKey then wrappedSol
    else if key = feePayer then "3qbR1eZRqXUWroWKKYhbDmR3FfqTHfqSU8zZSxtANzYh" else ""
  length_sha256 := length_sampleDigest

/-- Trips the breaker of `wrappedSol`. -/
def sample : Reading where
  signatureCount := [1]
  signatures := List.replicate 64 0
  numRequiredSignatures := 1
  numReadonlySigned := 0
  numReadonlyUnsigned := 2
  keyCount := [3]
  keys := feePayer ++ wrappedSolKey ++ programKey
  blockhash := List.replicate 32 0
  instructionCount := [1]
  programIndex := 2
  accountCount := [2]
  accounts := [0, 1]
  dataLength := [16]
  data := setFeatureFlagDigest.take 8 ++ Layout.leBytes 8 flagCircuitBreaker
  rest := []

def twoSignatures : Reading :=
  { sample with signatureCount := [2], signatures := List.replicate 128 0 }

/-- Another instruction of the program follows, without accounts and data. -/
def twoInstructions : Reading := { sample with instructionCount := [2], rest := [2, 0, 0] }

def otherMint : Reading := { sample with keys := feePayer ++ List.replicate 32 7 ++ programKey }

theorem short_singleton {b : UInt8} (hb : b.toNat < 128) : Short [b] :=
  ⟨.last hb, Nat.succ_le_succ (Nat.zero_le 2)⟩

theorem sample_wellSized : sample.WellSized where
  signatureCount := short_singleton (by decide)
  signatures := by decide +kernel
  keyCount := short_singleton (by decide)
  keys := by decide +kernel
  blockhash := by decide +kernel
  instructionCount := short_singleton (by decide)
  accountCount := short_singleton (by decide)
  accounts := by decide +kernel
  dataLength := short_singleton (by decide)
  data := by decide +kernel

theorem twoSignatures_wellSized : twoSignatures.WellSized :=
  { sample_wellSized with
    signatureCount := short_singleton (by decide)
    signatures := by decide +kernel }

theorem twoInstructions_wellSized : twoInstructions.WellSized :=
  { sample_wellSized with instructionCount := short_singleton (by decide) }

theorem otherMint_wellSized : otherMint.WellSized :=
  { sample_wellSized with keys := by decide +kernel }

/-- Two signatures, two instructions, and a mint that is not among the accounts. -/
theorem circuit_breaker_lax :
    ((validateCircuitBreakerTx sampleSdk twoSignatures.bytes wrappedSol true).isOk ∧
      ¬ ∃ t ix, IsBreakerTransaction sampleSdk twoSignatures.bytes wrappedSol true t ix) ∧
    ((validateCircuitBreakerTx sampleSdk twoInstructions.bytes wrappedSol true).isOk ∧
      ¬ ∃ t ix, IsBreakerTransaction sampleSdk twoInstructions.bytes wrappedSol true t ix) ∧
    (validateCircuitBreakerTx sampleSdk otherMint.bytes wrappedSol true).isOk ∧
      ¬ ∃ t ix, IsBreakerTransaction sampleSdk otherMint.bytes wrappedSol true t ix := by
  refine ⟨⟨by decide +kernel, ?_⟩, ⟨by decide +kernel, ?_⟩, by decide +kernel, ?_⟩
  · refine twoSignatures_wellSized.not_transaction fun h => ?_
    exact absurd h.signatures (by decide)
  · refine twoInstructions_wellSized.not_transaction fun h => ?_
    exact absurd h.rest (by decide)
  · refine otherMint_wellSized.not_transaction fun h => ?_
    obtain ⟨key, hkey, i, hi, hget⟩ := h.mint
    have hwrapped : sampleSdk.pubkeyFromStr wrappedSol = some wrappedSolKey := by decide +kernel
    have habsent : ∀ i ∈ otherMint.accounts,
        otherMint.accountKeys[i.toNat]? ≠ some wrappedSolKey := by
      decide +kernel
    rw [hwrapped, Option.some.injEq] at hkey
    subst hkey
    exact habsent i hi hget

end SolanaStablecoin.Backend
