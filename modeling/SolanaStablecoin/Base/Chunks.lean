import Mathlib.Data.List.Basic
import SolanaStablecoin.Base.Checked

/-! A list cut into chunks of one length, the last of which may be shorter, and codecs that replace
each chunk by one of another length. -/

universe u v

namespace Chunks

variable {α : Type u} {β : Type v} {n k : ℕ}

/-- `fuel` bounds the number of chunks. -/
def cut (n : ℕ) : ℕ → List α → List (List α)
  | 0, _ => []
  | _ + 1, [] => []
  | fuel + 1, a :: l => (a :: l).take n :: cut n fuel ((a :: l).drop n)

/-- The chunks of length `n`. -/
def chunks (n : ℕ) (l : List α) : List (List α) := cut n l.length l

/-- No chunk is empty, none is longer than `n`, and only the last is shorter. -/
inductive Chunked (n : ℕ) : List (List α) → Prop
  | nil : Chunked n []
  | last {c : List α} (hpos : c ≠ []) (hle : c.length ≤ n) : Chunked n [c]
  | cons {c : List α} {cs : List (List α)} (hlen : c.length = n) (hne : cs ≠ [])
    (hcs : Chunked n cs) : Chunked n (c :: cs)

variable {c : List α} {cs ds : List (List α)} {l : List α}

theorem Chunked.of_forall (hn : 0 < n) (h : ∀ c ∈ cs, c.length = n) : Chunked n cs := by
  induction cs with
  | nil => exact .nil
  | cons c cs ih =>
    have hc := h c List.mem_cons_self
    by_cases hcs : cs = []
    · subst hcs
      refine .last ?_ (Nat.le_of_eq hc)
      rintro rfl
      exact Nat.ne_of_lt hn hc
    · exact .cons hc hcs (ih fun d hd => h d (List.mem_cons_of_mem c hd))

theorem Chunked.bounds (hn : 0 < n) (h : Chunked n cs) : ∀ c ∈ cs, c ≠ [] ∧ c.length ≤ n := by
  induction h with
  | nil => intro c hc; cases hc
  | last hpos hle =>
    intro c hc
    cases List.mem_singleton.mp hc
    exact ⟨hpos, hle⟩
  | cons hlen hne hcs ih =>
    intro d hd
    rcases List.mem_cons.mp hd with rfl | hd
    · refine ⟨?_, Nat.le_of_eq hlen⟩
      rintro rfl
      exact Nat.ne_of_lt hn hlen
    · exact ih d hd

theorem cut_spec (hn : 0 < n) {fuel : ℕ} (hfuel : l.length ≤ fuel) :
    Chunked n (cut n fuel l) ∧ (cut n fuel l).flatten = l := by
  induction fuel generalizing l with
  | zero =>
    cases List.length_eq_zero_iff.mp (Nat.le_zero.mp hfuel)
    exact ⟨.nil, rfl⟩
  | succ fuel ih =>
    cases l with
    | nil => exact ⟨.nil, rfl⟩
    | cons a l =>
      have hdrop : ((a :: l).drop n).length ≤ fuel := by
        rw [List.length_drop]
        omega
      obtain ⟨hchunked, hflatten⟩ := ih hdrop
      rw [cut]
      constructor
      · by_cases hrest : cut n fuel ((a :: l).drop n) = []
        · rw [hrest]
          refine .last ?_ (List.length_take_le ..)
          rw [Ne, List.take_eq_nil_iff]
          rintro (rfl | hnil)
          · exact Nat.lt_irrefl 0 hn
          · cases hnil
        · refine .cons ?_ hrest hchunked
          rw [List.length_take, Nat.min_eq_left]
          by_contra hlt
          rw [List.drop_of_length_le (Nat.le_of_not_le hlt)] at hrest
          cases fuel <;> exact hrest rfl
      · rw [List.flatten_cons, hflatten, List.take_append_drop]

theorem chunked_chunks (hn : 0 < n) (l : List α) : Chunked n (chunks n l) :=
  (cut_spec hn (Nat.le_refl _)).1

@[simp] theorem flatten_chunks (hn : 0 < n) (l : List α) : (chunks n l).flatten = l :=
  (cut_spec hn (Nat.le_refl _)).2

theorem Chunked.ne_nil (h : Chunked n (c :: cs)) (hn : 0 < n) : c ≠ [] :=
  (h.bounds hn c List.mem_cons_self).1

theorem Chunked.tail (h : Chunked n (c :: cs)) : Chunked n cs := by
  cases h with
  | last => exact .nil
  | cons hlen hne hcs => exact hcs

theorem chunked_cons_iff (hne : cs ≠ []) : Chunked n (c :: cs) ↔ c.length = n ∧ Chunked n cs := by
  constructor
  · intro h
    cases h with
    | last => exact absurd rfl hne
    | cons hlen _ hcs => exact ⟨hlen, hcs⟩
  · rintro ⟨hlen, hcs⟩
    exact .cons hlen hne hcs

/-- When the whole divides evenly, so does every chunk. -/
theorem Chunked.length_eq (h : Chunked n cs) (heven : cs.flatten.length % n = 0) :
    ∀ c ∈ cs, c.length = n := by
  induction h with
  | nil =>
    intro c hc
    cases hc
  | @last c hpos hle =>
    intro d hd
    cases List.mem_singleton.mp hd
    rw [List.flatten_singleton] at heven
    refine Nat.le_antisymm hle (Nat.le_of_dvd ?_ (Nat.dvd_of_mod_eq_zero heven))
    exact List.length_pos_of_ne_nil hpos
  | @cons c cs hlen _ _ ih =>
    rw [List.flatten_cons, List.length_append, hlen, Nat.add_mod_left] at heven
    intro d hd
    rcases List.mem_cons.mp hd with rfl | hd
    · exact hlen
    · exact ih heven d hd

theorem Chunked.head_eq (h : Chunked n (c :: cs)) : c = (c :: cs).flatten.take n := by
  rw [List.flatten_cons]
  cases h with
  | last hpos hle => rw [List.flatten_nil, List.append_nil, List.take_of_length_le hle]
  | cons hlen hne hcs => rw [List.take_left' hlen]

/-- There is one way to cut. -/
theorem Chunked.eq_of_flatten (hn : 0 < n) (hcs : Chunked n cs) (hds : Chunked n ds)
    (h : cs.flatten = ds.flatten) : cs = ds := by
  induction cs generalizing ds with
  | nil =>
    cases ds with
    | nil => rfl
    | cons d ds =>
      rw [List.flatten_nil, List.flatten_cons, eq_comm, List.append_eq_nil_iff] at h
      exact absurd h.1 (hds.ne_nil hn)
  | cons c cs ih =>
    cases ds with
    | nil =>
      rw [List.flatten_nil, List.flatten_cons, List.append_eq_nil_iff] at h
      exact absurd h.1 (hcs.ne_nil hn)
    | cons d ds =>
      have hhead : c = d := by rw [hcs.head_eq, h, ← hds.head_eq]
      rw [List.flatten_cons, List.flatten_cons, hhead, List.append_cancel_left_eq] at h
      rw [hhead, ih hcs.tail hds.tail h]

theorem Chunked.chunks_flatten (hn : 0 < n) (h : Chunked n cs) : chunks n cs.flatten = cs :=
  (chunked_chunks hn _).eq_of_flatten hn h (flatten_chunks hn _)

theorem length_flatten (h : ∀ c ∈ cs, c.length = n) : cs.flatten.length = cs.length * n := by
  induction cs with
  | nil => rw [List.flatten_nil, List.length_nil, List.length_nil, Nat.zero_mul]
  | cons c cs ih =>
    rw [List.flatten_cons, List.length_append, h c List.mem_cons_self,
      ih fun d hd => h d (List.mem_cons_of_mem c hd), List.length_cons, Nat.succ_mul, Nat.add_comm]

theorem flatten_windows (n : ℕ) {m : ℕ} (h : l.length = m * n) :
    ((List.range m).map fun i => (l.drop (i * n)).take n).flatten = l := by
  induction m generalizing l with
  | zero =>
    rw [Nat.zero_mul, List.length_eq_zero_iff] at h
    rw [h]
    rfl
  | succ m ih =>
    have hdrop : (l.drop n).length = m * n := by
      rw [List.length_drop, h, Nat.succ_mul, Nat.add_sub_cancel]
    have hwindow (i : ℕ) : (l.drop ((i + 1) * n)).take n = ((l.drop n).drop (i * n)).take n := by
      rw [List.drop_drop, Nat.succ_mul, Nat.add_comm]
    rw [List.range_succ_eq_map, List.map_cons, List.flatten_cons, Nat.zero_mul, List.drop_zero,
      List.map_map]
    simp only [Function.comp_def, hwindow]
    rw [ih hdrop, List.take_append_drop]

/-- The chunks of a list that divides evenly are its windows. -/
theorem chunks_eq_windows (hn : 0 < n) {m : ℕ} (h : l.length = m * n) :
    chunks n l = (List.range m).map fun i => (l.drop (i * n)).take n := by
  refine (chunked_chunks hn l).eq_of_flatten hn (.of_forall hn fun c hc => ?_) ?_
  · obtain ⟨i, hi, rfl⟩ := List.mem_map.mp hc
    have hlast : (i + 1) * n ≤ m * n := Nat.mul_le_mul_right n (List.mem_range.mp hi)
    rw [Nat.succ_mul] at hlast
    rw [List.length_take, List.length_drop]
    omega
  · rw [flatten_chunks hn, flatten_windows n h]

/-! ## Codecs -/

section Codec

variable {ε : Type v} {enc : List α → List β} {dec : List β → Except ε (List α)}
  {gs : List (List β)} {s : List β}

/-- Every chunk of up to `n` is replaced by one of exactly `k`. -/
def Regroups (n k : ℕ) (enc : List α → List β) : Prop :=
  ∀ c, c ≠ [] → c.length ≤ n → (enc c).length = k

theorem Regroups.chunks_flatMap (henc : Regroups n k enc) (hn : 0 < n) (hk : 0 < k)
    (hcs : Chunked n cs) : chunks k (cs.flatMap enc) = cs.map enc := by
  rw [List.flatMap_def]
  refine (Chunked.of_forall hk fun g hg => ?_).chunks_flatten hk
  obtain ⟨c, hc, rfl⟩ := List.mem_map.mp hg
  obtain ⟨hpos, hle⟩ := hcs.bounds hn c hc
  exact henc c hpos hle

/-- Chunks that can be decoded one by one. -/
def Decodes (n : ℕ) (enc : List α → List β) (dec : List β → Except ε (List α)) : Prop :=
  ∀ c, c ≠ [] → c.length ≤ n → dec (enc c) = .ok c

theorem Decodes.mapM_map (h : Decodes n enc dec) (hbounds : ∀ c ∈ cs, c ≠ [] ∧ c.length ≤ n) :
    (cs.map enc).mapM dec = .ok cs := by
  induction cs with
  | nil => rfl
  | cons c cs ih =>
    obtain ⟨hpos, hle⟩ := hbounds c List.mem_cons_self
    rw [List.map_cons, List.mapM_cons, h c hpos hle,
      ih fun d hd => hbounds d (List.mem_cons_of_mem c hd)]
    rfl

/-- What was encoded is decoded to the chunks that it was cut into. -/
theorem Decodes.mapM_chunks (h : Decodes n enc dec) (henc : Regroups n k enc) (hn : 0 < n)
    (hk : 0 < k) (l : List α) :
    (chunks k ((chunks n l).flatMap enc)).mapM dec = .ok (chunks n l) := by
  rw [henc.chunks_flatMap hn hk (chunked_chunks hn l)]
  exact h.mapM_map ((chunked_chunks hn l).bounds hn)

/-- What was decoded is encoded as it was, if the pieces are the chunks of their whole, and each is
encoded as it was. -/
theorem Decodes.flatMap_eq_iff (h : Decodes n enc dec) (henc : Regroups n k enc) (hn : 0 < n)
    (hk : 0 < k) (hs : (chunks k s).mapM dec = .ok cs) :
    (chunks n cs.flatten).flatMap enc = s ↔ Chunked n cs ∧ cs.map enc = chunks k s := by
  constructor
  · intro heq
    have hdec := h.mapM_chunks henc hn hk cs.flatten
    rw [heq, hs] at hdec
    have hcs : cs = chunks n cs.flatten := Except.ok.inj hdec
    have hchunked : Chunked n cs := by
      rw [hcs]
      exact chunked_chunks hn _
    refine ⟨hchunked, ?_⟩
    rw [← henc.chunks_flatMap hn hk hchunked, ← heq, ← hcs]
  · rintro ⟨hchunked, hmap⟩
    rw [hchunked.chunks_flatten hn, List.flatMap_def, hmap, flatten_chunks hk]

end Codec

end Chunks
