import Mathlib.Data.List.Basic
import Mathlib.Data.Nat.ModEq

/-! Records that are stored as their fields one after another, and readers that find a field by
its offset instead of decoding the record.

A reader at an offset is right when it returns the field that starts there, whatever the other
fields hold and whatever follows the record; `Locates.of_field` reduces that to where the field
stands in the list of fields. -/

universe u v w

namespace Layout

variable {α : Type u} {β : Type v} {γ : Type w}

/-! ## Numbers as bytes -/

/-- The `w` low bytes of `n`, least significant first. -/
def leBytes : Nat → Nat → List UInt8
  | 0, _ => []
  | w + 1, n => .ofNat n :: leBytes w (n / 256)

/-- The number with the given bytes, least significant first. -/
def ofLeBytes : List UInt8 → Nat
  | [] => 0
  | b :: bs => b.toNat + 256 * ofLeBytes bs

@[simp] theorem length_leBytes (w n : Nat) : (leBytes w n).length = w := by
  induction w generalizing n with
  | zero => rfl
  | succ w ih => rw [leBytes, List.length_cons, ih]

theorem ofLeBytes_leBytes (w n : Nat) : ofLeBytes (leBytes w n) = n % 256 ^ w := by
  induction w generalizing n with
  | zero => rw [leBytes, ofLeBytes, Nat.pow_zero, Nat.mod_one]
  | succ w ih =>
    have hlow : (UInt8.ofNat n).toNat = n % 256 := UInt8.toNat_ofNat'
    rw [leBytes, ofLeBytes, ih, hlow, Nat.pow_succ', Nat.mod_mul]

theorem ofLeBytes_leBytes_of_lt {w n : Nat} (h : n < 256 ^ w) : ofLeBytes (leBytes w n) = n := by
  rw [ofLeBytes_leBytes, Nat.mod_eq_of_lt h]

theorem leBytes_ofLeBytes (bs : List UInt8) : leBytes bs.length (ofLeBytes bs) = bs := by
  induction bs with
  | nil => rfl
  | cons b bs ih =>
    have hlow : UInt8.ofNat (b.toNat + 256 * ofLeBytes bs) = b := by
      rw [← UInt8.toNat_inj, UInt8.toNat_ofNat', Nat.add_mul_mod_self_left,
        Nat.mod_eq_of_lt b.toNat_lt]
    have hhigh : (b.toNat + 256 * ofLeBytes bs) / 256 = ofLeBytes bs := by
      rw [Nat.add_mul_div_left _ _ (by decide), Nat.div_eq_of_lt b.toNat_lt, Nat.zero_add]
    rw [List.length_cons, ofLeBytes, leBytes, hlow, hhigh, ih]

/-! ## Parts of a record -/

/-- `len` elements from `off` on, if there are that many. -/
def slice (data : List α) (off len : Nat) : List α := (data.drop off).take len

/-- `data` with `xs` written over it at `off`. -/
def patch (data : List α) (off : Nat) (xs : List α) : List α :=
  data.take off ++ xs ++ data.drop (off + xs.length)

/-- Where the field `i` starts. -/
def offset (fs : List (List α)) (i : Nat) : Nat := (fs.take i).flatten.length

theorem offset_le_length (fs : List (List α)) (i : Nat) : offset fs i ≤ fs.flatten.length := by
  have hsplit : fs.flatten = (fs.take i).flatten ++ (fs.drop i).flatten := by
    rw [← List.flatten_append, List.take_append_drop]
  rw [hsplit, List.length_append, offset]
  exact Nat.le_add_right ..

theorem slice_append (front mid rest : List α) :
    slice (front ++ mid ++ rest) front.length mid.length = mid := by
  rw [slice, List.append_assoc, List.drop_left, List.take_left]

theorem patch_append (front rest : List α) {mid xs : List α} (h : xs.length = mid.length) :
    patch (front ++ mid ++ rest) front.length xs = front ++ xs ++ rest := by
  have htake : (front ++ mid ++ rest).take front.length = front := by
    rw [List.append_assoc, List.take_left]
  have hdrop : (front ++ mid ++ rest).drop (front.length + xs.length) = rest := by
    rw [h, ← List.length_append, List.drop_left]
  rw [patch, htake, hdrop]

/-- The field `i` with what stands before it and after it. -/
theorem flatten_split {fs : List (List α)} {i : Nat} {f : List α} (h : fs[i]? = some f) :
    fs.flatten = (fs.take i).flatten ++ f ++ (fs.drop (i + 1)).flatten := by
  obtain ⟨hi, hf⟩ := List.getElem?_eq_some_iff.mp h
  calc fs.flatten
    _ = (fs.take i ++ f :: fs.drop (i + 1)).flatten := by
        rw [← hf, ← List.drop_eq_getElem_cons hi, List.take_append_drop]
    _ = (fs.take i).flatten ++ f ++ (fs.drop (i + 1)).flatten := by
        rw [List.flatten_append, List.flatten_cons, List.append_assoc]

theorem slice_field {fs : List (List α)} {i : Nat} {f : List α} (h : fs[i]? = some f)
    (rest : List α) : slice (fs.flatten ++ rest) (offset fs i) f.length = f := by
  rw [flatten_split h, List.append_assoc, offset]
  exact slice_append ..

theorem patch_field {fs : List (List α)} {i : Nat} {f g : List α} (h : fs[i]? = some f)
    (hg : g.length = f.length) (rest : List α) :
    patch (fs.flatten ++ rest) (offset fs i) g = (fs.set i g).flatten ++ rest := by
  obtain ⟨hi, -⟩ := List.getElem?_eq_some_iff.mp h
  have hset : (fs.set i g).flatten = (fs.take i).flatten ++ g ++ (fs.drop (i + 1)).flatten := by
    rw [List.set_eq_take_append_cons_drop, if_pos hi, List.flatten_append, List.flatten_cons,
      List.append_assoc]
  rw [flatten_split h, hset, List.append_assoc, List.append_assoc _ _ rest, offset]
  exact patch_append _ _ hg

/-! ## Fields of a fixed size -/

/-- How the values of a field are stored. -/
structure Codec (α : Type u) (β : Type v) where
  size : Nat
  encode (b : β) : List α
  decode (data : List α) : Option β
  length_encode (b : β) : (encode b).length = size
  decode_encode (b : β) : decode (encode b) = some b

namespace Codec

/-- What is stored at `off`; nothing when the data end before. -/
def read (c : Codec α β) (data : List α) (off : Nat) : Option β :=
  c.decode (slice data off c.size)

def write (c : Codec α β) (data : List α) (off : Nat) (b : β) : List α :=
  patch data off (c.encode b)

/-- What is stored at the front, and what comes after it. -/
def next (c : Codec α β) (data : List α) : Option (β × List α) :=
  (c.decode (data.take c.size)).map (·, data.drop c.size)

@[simp] theorem next_encode (c : Codec α β) (b : β) (rest : List α) :
    c.next (c.encode b ++ rest) = some (b, rest) := by
  rw [next, ← c.length_encode b, List.take_left, List.drop_left, c.decode_encode, Option.map_some]

/-- One step of a parser that reads its fields one after another. -/
theorem bind_next {δ : Type (max u v)} {c : Codec α β} {b : β} {rest : List α}
    {f : β × List α → Option δ} {r : Option δ} (h : f (b, rest) = r) :
    (c.next (c.encode b ++ rest) >>= f) = r := by
  rw [next_encode]
  exact h

/-- The next `n` values. -/
def nextN (c : Codec α β) : Nat → List α → Option (List β × List α)
  | 0, data => some ([], data)
  | n + 1, data => do
    let (b, data) ← c.next data
    let (bs, data) ← c.nextN n data
    some (b :: bs, data)

theorem nextN_encode (c : Codec α β) (bs : List β) (rest : List α) :
    c.nextN bs.length (bs.flatMap c.encode ++ rest) = some (bs, rest) := by
  induction bs with
  | nil => rfl
  | cons b bs ih =>
    rw [List.length_cons, nextN, List.flatMap_cons, List.append_assoc, next_encode]
    simp only [Option.bind_eq_bind, Option.bind_some, ih]

theorem bind_nextN {δ : Type (max u v)} {c : Codec α β} {n : Nat} {bs : List β} {rest : List α}
    {f : List β × List α → Option δ} {r : Option δ} (hn : n = bs.length)
    (h : f (bs, rest) = r) : (c.nextN n (bs.flatMap c.encode ++ rest) >>= f) = r := by
  rw [hn, nextN_encode]
  exact h

end Codec

/-- Reading a stored record at `off` returns the part `get` of it, and writing there changes that
part only, whatever stands after the record. -/
structure Locates (fields : γ → List (List α)) (off : Nat) (c : Codec α β) (get : γ → β)
    (set : γ → β → γ) : Prop where
  read (r : γ) (rest : List α) : c.read ((fields r).flatten ++ rest) off = some (get r)
  write (r : γ) (b : β) (rest : List α) :
    c.write ((fields r).flatten ++ rest) off b = (fields (set r b)).flatten ++ rest

namespace Locates

variable {fields : γ → List (List α)} {off : Nat} {c : Codec α β} {get : γ → β} {set : γ → β → γ}

/-- The field `i` is the one that is meant, and starts there. -/
theorem of_field (i : Nat) (field : ∀ r, (fields r)[i]? = some (c.encode (get r)))
    (start : ∀ r, offset (fields r) i = off)
    (update : ∀ r b, fields (set r b) = (fields r).set i (c.encode b)) :
    Locates fields off c get set where
  read r rest := by
    have hslice := slice_field (field r) rest
    rw [start, c.length_encode] at hslice
    rw [Codec.read, hslice, c.decode_encode]
  write r b rest := by
    have hlen : (c.encode b).length = (c.encode (get r)).length := by
      rw [c.length_encode, c.length_encode]
    have hpatch := patch_field (field r) hlen rest
    rw [start] at hpatch
    rw [Codec.write, hpatch, update]

/-- The record alone. -/
theorem read_record (h : Locates fields off c get set) (r : γ) :
    c.read (fields r).flatten off = some (get r) := by
  have := h.read r []
  rwa [List.append_nil] at this

end Locates

end Layout
