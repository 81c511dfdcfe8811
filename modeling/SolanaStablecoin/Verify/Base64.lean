import Mathlib.Data.Fintype.Basic
import SolanaStablecoin.Backend.CircuitBreaker

/-! The base64 helpers of the circuit breaker. What is encoded is decoded again; what is decoded
need not have been encoded, as padding is read wherever it stands and the bits that are left over
are dropped. -/

namespace SolanaStablecoin.Backend

open Chunks

variable {b c g s : List UInt8} {cs gs : List (List UInt8)} {n v v0 v1 v2 v3 : UInt32}
  {x x0 x1 x2 x3 : UInt8}

/-! ## Bits -/

/-- Bits that are put behind others. -/
theorem toNat_shiftLeft_or {i : ℕ} {a d : UInt32} (hi : i < 32) (ha : a.toNat * 2 ^ i < 2 ^ 32)
    (hd : d.toNat < 2 ^ i) : (a <<< UInt32.ofNat i ||| d).toNat = a.toNat * 2 ^ i + d.toNat := by
  have hamount : (UInt32.ofNat i).toNat % 32 = i := by
    rw [UInt32.toNat_ofNat', Nat.mod_mod_of_dvd _ (by decide), Nat.mod_eq_of_lt hi]
  rw [UInt32.toNat_or, UInt32.toNat_shiftLeft, hamount, Nat.shiftLeft_eq, Nat.mod_eq_of_lt ha,
    ← Nat.shiftLeft_eq, Nat.shiftLeft_add_eq_or_of_lt hd]

theorem toNat_pack3 (a d e : UInt8) :
    (a.toUInt32 <<< 16 ||| d.toUInt32 <<< 8 ||| e.toUInt32).toNat =
      a.toNat * 2 ^ 16 + d.toNat * 2 ^ 8 + e.toNat := by
  have ha := a.toNat_lt
  have hd := d.toNat_lt
  have he := e.toNat_lt
  have hlow : (d.toUInt32 <<< 8 ||| e.toUInt32).toNat = d.toNat * 2 ^ 8 + e.toNat :=
    @toNat_shiftLeft_or 8 d.toUInt32 e.toUInt32 (by decide)
      (by rw [UInt8.toNat_toUInt32]; omega) (by rw [UInt8.toNat_toUInt32]; omega)
  have hall : (a.toUInt32 <<< 16 ||| (d.toUInt32 <<< 8 ||| e.toUInt32)).toNat =
      a.toNat * 2 ^ 16 + (d.toUInt32 <<< 8 ||| e.toUInt32).toNat :=
    @toNat_shiftLeft_or 16 a.toUInt32 _ (by decide) (by rw [UInt8.toNat_toUInt32]; omega)
      (by rw [hlow]; omega)
  rw [UInt32.or_assoc, hall, hlow, Nat.add_assoc]

theorem toNat_pack4 (h0 : v0.toNat < 64) (h1 : v1.toNat < 64) (h2 : v2.toNat < 64)
    (h3 : v3.toNat < 64) : (v0 <<< 18 ||| v1 <<< 12 ||| v2 <<< 6 ||| v3).toNat =
      v0.toNat * 2 ^ 18 + v1.toNat * 2 ^ 12 + v2.toNat * 2 ^ 6 + v3.toNat := by
  have hlow : (v2 <<< 6 ||| v3).toNat = v2.toNat * 2 ^ 6 + v3.toNat :=
    @toNat_shiftLeft_or 6 v2 v3 (by decide) (by omega) (by omega)
  have hmid : (v1 <<< 12 ||| (v2 <<< 6 ||| v3)).toNat =
      v1.toNat * 2 ^ 12 + (v2 <<< 6 ||| v3).toNat :=
    @toNat_shiftLeft_or 12 v1 _ (by decide) (by omega) (by omega)
  have hall : (v0 <<< 18 ||| (v1 <<< 12 ||| (v2 <<< 6 ||| v3))).toNat =
      v0.toNat * 2 ^ 18 + (v1 <<< 12 ||| (v2 <<< 6 ||| v3)).toNat :=
    @toNat_shiftLeft_or 18 v0 _ (by decide) (by omega) (by omega)
  rw [UInt32.or_assoc, UInt32.or_assoc, hall, hmid, hlow, Nat.add_assoc, Nat.add_assoc]

theorem toNat_and_sextet : (n &&& 0x3f).toNat = n.toNat % 64 := by
  rw [UInt32.toNat_and]
  exact Nat.and_two_pow_sub_one_eq_mod n.toNat 6

theorem toNat_and_byte : (n &&& 0xff).toUInt8.toNat = n.toNat % 256 := by
  have hand : n.toNat &&& 255 = n.toNat % 256 := Nat.and_two_pow_sub_one_eq_mod n.toNat 8
  have hmask : (0xff : UInt32).toNat = 255 := rfl
  rw [UInt32.toNat_toUInt8, UInt32.toNat_and, hmask, hand]
  omega

theorem toNat_shiftRight_ofNat {i : ℕ} (hi : i < 32) :
    (n >>> UInt32.ofNat i).toNat = n.toNat / 2 ^ i := by
  have hamount : (UInt32.ofNat i).toNat % 32 = i := by
    rw [UInt32.toNat_ofNat', Nat.mod_mod_of_dvd _ (by decide), Nat.mod_eq_of_lt hi]
  rw [UInt32.toNat_shiftRight, hamount, Nat.shiftRight_eq_div_pow]

/-! ## Characters -/

def padding : UInt8 := '='.toUInt8

/-- Printed, and in one byte. -/
def Graphic (x : UInt8) : Prop := 0x21 ≤ x ∧ x < 0x7f

instance Graphic.decidable : Decidable (Graphic x) := inferInstanceAs (Decidable (_ ∧ _))

theorem chars_spec (i : Fin 64) : Graphic (chars.getD i 0) ∧ chars.getD i 0 ≠ padding ∧
    charVal (chars.getD i 0) = .ok (.ofNat i) := by
  revert i
  decide +kernel

theorem charVal_spec (i : Fin 256) : (charVal (.ofNat i)).toOption.all fun v =>
    UInt8.ofNat i = padding ∧ v = 0 ∨
      UInt8.ofNat i ≠ padding ∧ v.toNat < 64 ∧ chars.getD v.toNat 0 = .ofNat i := by
  revert i
  decide +kernel

theorem charVal_cases (h : charVal x = .ok v) :
    x = padding ∧ v = 0 ∨ x ≠ padding ∧ v.toNat < 64 ∧ chars.getD v.toNat 0 = x := by
  have hspec := charVal_spec ⟨x.toNat, x.toNat_lt⟩
  rw [UInt8.ofNat_toNat, h] at hspec
  exact of_decide_eq_true hspec

theorem charVal_lt (h : charVal x = .ok v) : v.toNat < 64 := by
  obtain ⟨-, rfl⟩ | ⟨-, hlt, -⟩ := charVal_cases h
  · decide
  · exact hlt

/-- The byte for the last six bits. -/
def base64Byte (n : UInt32) : UInt8 := chars.getD (n &&& 0x3f).toNat 0

theorem base64Byte_spec (n : UInt32) : Graphic (base64Byte n) ∧ base64Byte n ≠ padding ∧
    charVal (base64Byte n) = .ok (n &&& 0x3f) := by
  have hlt : (n &&& 0x3f).toNat < 64 := by
    rw [toNat_and_sextet]
    exact Nat.mod_lt _ (by decide)
  have hspec := chars_spec ⟨(n &&& 0x3f).toNat, hlt⟩
  rwa [UInt32.ofNat_toNat] at hspec

theorem Graphic.utf8EncodeChar (hx : Graphic x) : String.utf8EncodeChar (.ofUInt8 x) = [x] := by
  have hval : (Char.ofUInt8 x).val.toNat = x.toNat := x.toNat_toUInt32
  have hlt : x.toNat < 0x7f := UInt8.lt_iff_toNat_lt.mp hx.2
  rw [String.utf8EncodeChar, hval, if_pos (Nat.le_of_lt hlt), UInt8.ofNat_toNat]

theorem Graphic.not_isWhiteSpace (hx : Graphic x) : isWhiteSpace (.ofUInt8 x) = false := by
  have hval : (Char.ofUInt8 x).toNat = x.toNat := x.toNat_toUInt32
  have hlo : 0x21 ≤ x.toNat := UInt8.le_iff_toNat_le.mp hx.1
  have hhi : x.toNat < 0x7f := UInt8.lt_iff_toNat_lt.mp hx.2
  simp only [isWhiteSpace, hval, List.contains_eq_mem, List.mem_cons, List.not_mem_nil, or_false,
    Bool.or_eq_false_iff, Bool.and_eq_false_imp, decide_eq_true_eq, decide_eq_false_iff_not]
  omega

/-- A text of printed characters is its bytes. -/
theorem asBytes_graphic (hs : ∀ x ∈ s, Graphic x) : asBytes (.ofList (s.map .ofUInt8)) = s := by
  rw [asBytes, String.toList_ofList, List.flatMap_map]
  induction s with
  | nil => rfl
  | cons x s ih =>
    rw [List.flatMap_cons, (hs x List.mem_cons_self).utf8EncodeChar,
      ih fun y hy => hs y (List.mem_cons_of_mem x hy)]
    rfl

theorem trim_graphic (hs : ∀ x ∈ s, Graphic x) :
    trim (.ofList (s.map .ofUInt8)) = .ofList (s.map .ofUInt8) := by
  have hspace : ∀ d ∈ s.map Char.ofUInt8, isWhiteSpace d = false := by
    intro d hd
    obtain ⟨x, hx, rfl⟩ := List.mem_map.mp hd
    exact (hs x hx).not_isWhiteSpace
  have hleft : (s.map Char.ofUInt8).dropWhile isWhiteSpace = s.map Char.ofUInt8 := by
    rw [List.dropWhile_eq_self_iff]
    intro hlen
    rw [hspace _ (List.getElem_mem hlen)]
    exact Bool.false_ne_true
  have hright : (s.map Char.ofUInt8).rdropWhile isWhiteSpace = s.map Char.ofUInt8 := by
    rw [List.rdropWhile_eq_self_iff]
    intro hne
    rw [hspace _ (List.getLast_mem hne)]
    exact Bool.false_ne_true
  rw [trim, String.toList_ofList, hleft, hright]

theorem toByteArray_eq_asBytes (t : String) : t.toByteArray = (asBytes t).toByteArray :=
  calc t.toByteArray = (String.ofList t.toList).toByteArray := by rw [String.ofList_toList]
    _ = t.toList.utf8Encode := String.toByteArray_ofList

theorem asBytes_injective {t t' : String} (h : asBytes t = asBytes t') : t = t' := by
  apply String.toByteArray_inj.mp
  rw [toByteArray_eq_asBytes, toByteArray_eq_asBytes, h]

/-! ## Chunks -/

/-- The bytes of an encoded chunk. -/
def encodeBytes (chunk : List UInt8) : List UInt8 :=
  let n := (chunk.getD 0 0).toUInt32 <<< 16 ||| (chunk.getD 1 0).toUInt32 <<< 8 |||
    (chunk.getD 2 0).toUInt32
  [ base64Byte (n >>> 18), base64Byte (n >>> 12),
    if chunk.length > 1 then base64Byte (n >>> 6) else padding,
    if chunk.length > 2 then base64Byte n else padding ]

theorem encodeChunk_eq (c : List UInt8) : encodeChunk c = (encodeBytes c).map .ofUInt8 := by
  have hpad (p : Prop) [Decidable p] (n : UInt32) : (if p then base64Char n else '=') =
      .ofUInt8 (if p then base64Byte n else padding) := by
    split
    · rfl
    · decide
  rw [encodeChunk, hpad, hpad]
  rfl

theorem graphic_encodeBytes (c : List UInt8) : ∀ x ∈ encodeBytes c, Graphic x := by
  have hpad (p : Prop) [Decidable p] (n : UInt32) :
      Graphic (if p then base64Byte n else padding) := by
    split
    · exact (base64Byte_spec n).1
    · decide
  intro x hx
  simp only [encodeBytes, List.mem_cons, List.not_mem_nil, or_false] at hx
  obtain rfl | rfl | rfl | rfl := hx
  · exact (base64Byte_spec _).1
  · exact (base64Byte_spec _).1
  · exact hpad _ _
  · exact hpad _ _

theorem graphic_flatMap (b : List UInt8) : ∀ x ∈ (chunks 3 b).flatMap encodeBytes, Graphic x := by
  intro x hx
  obtain ⟨c, -, hx⟩ := List.mem_flatMap.mp hx
  exact graphic_encodeBytes c x hx

theorem base64Encode_eq (b : List UInt8) :
    base64Encode b = .ofList (((chunks 3 b).flatMap encodeBytes).map .ofUInt8) := by
  rw [base64Encode, List.map_flatMap]
  exact congrArg (fun f => String.ofList ((chunks 3 b).flatMap f)) (funext encodeChunk_eq)

theorem asBytes_encode (b : List UInt8) :
    asBytes (base64Encode b) = (chunks 3 b).flatMap encodeBytes := by
  rw [base64Encode_eq, asBytes_graphic (graphic_flatMap b)]

theorem trim_encode (b : List UInt8) : trim (base64Encode b) = base64Encode b := by
  rw [base64Encode_eq, trim_graphic (graphic_flatMap b)]

/-- The bytes of four characters with these values, of which the last two may be padding. -/
def piece (x2 x3 : UInt8) (v0 v1 v2 v3 : UInt32) : List UInt8 :=
  [.ofNat (v0.toNat * 4 + v1.toNat / 16)] ++
    (if x2 ≠ padding then [.ofNat (v1.toNat % 16 * 16 + v2.toNat / 4)] else []) ++
    if x3 ≠ padding then [.ofNat (v2.toNat % 4 * 64 + v3.toNat)] else []

theorem piece_full (h2 : x2 ≠ padding) (h3 : x3 ≠ padding) : piece x2 x3 v0 v1 v2 v3 =
    [ .ofNat (v0.toNat * 4 + v1.toNat / 16), .ofNat (v1.toNat % 16 * 16 + v2.toNat / 4),
      .ofNat (v2.toNat % 4 * 64 + v3.toNat) ] := by
  rw [piece, if_pos h2, if_pos h3]
  rfl

theorem piece_two (h2 : x2 ≠ padding) : piece x2 padding v0 v1 v2 v3 =
    [.ofNat (v0.toNat * 4 + v1.toNat / 16), .ofNat (v1.toNat % 16 * 16 + v2.toNat / 4)] := by
  rw [piece, if_pos h2]
  rfl

theorem piece_one : piece padding padding v0 v1 v2 v3 = [.ofNat (v0.toNat * 4 + v1.toNat / 16)] :=
  rfl

theorem piece_eq (h0 : v0.toNat < 64) (h1 : v1.toNat < 64) (h2 : v2.toNat < 64)
    (h3 : v3.toNat < 64) (hn : n = v0 <<< 18 ||| v1 <<< 12 ||| v2 <<< 6 ||| v3) :
    [(n >>> 16 &&& 0xff).toUInt8] ++ (if x2 ≠ padding then [(n >>> 8 &&& 0xff).toUInt8] else []) ++
      (if x3 ≠ padding then [(n &&& 0xff).toUInt8] else []) = piece x2 x3 v0 v1 v2 v3 := by
  have hpack : n.toNat = v0.toNat * 2 ^ 18 + v1.toNat * 2 ^ 12 + v2.toNat * 2 ^ 6 + v3.toNat := by
    rw [hn, toNat_pack4 h0 h1 h2 h3]
  have h16 : (n >>> 16).toNat = n.toNat / 2 ^ 16 := @toNat_shiftRight_ofNat n 16 (by decide)
  have h8 : (n >>> 8).toNat = n.toNat / 2 ^ 8 := @toNat_shiftRight_ofNat n 8 (by decide)
  have hbyte (m : UInt32) : (m &&& 0xff).toUInt8 = .ofNat (m.toNat % 256) := by
    rw [← toNat_and_byte, UInt8.ofNat_toNat]
  have hfirst : n.toNat / 2 ^ 16 % 256 = v0.toNat * 4 + v1.toNat / 16 := by omega
  have hsecond : n.toNat / 2 ^ 8 % 256 = v1.toNat % 16 * 16 + v2.toNat / 4 := by omega
  have hthird : n.toNat % 256 = v2.toNat % 4 * 64 + v3.toNat := by omega
  rw [hbyte, hbyte, hbyte, h16, h8, hfirst, hsecond, hthird, piece]

theorem decodeChunk_eq_ok : decodeChunk [x0, x1, x2, x3] = .ok c ↔
    ∃ v0 v1 v2 v3, charVal x0 = .ok v0 ∧ charVal x1 = .ok v1 ∧ charVal x2 = .ok v2 ∧
      charVal x3 = .ok v3 ∧ piece x2 x3 v0 v1 v2 v3 = c := by
  have hindex : index [x0, x1, x2, x3] 0 = .ok x0 ∧ index [x0, x1, x2, x3] 1 = .ok x1 ∧
      index [x0, x1, x2, x3] 2 = .ok x2 ∧ index [x0, x1, x2, x3] 3 = .ok x3 :=
    ⟨rfl, rfl, rfl, rfl⟩
  simp only [decodeChunk, hindex, ok_bind, bind_eq_ok, pure_eq_ok]
  constructor
  · rintro ⟨v0, h0, v1, h1, v2, h2, v3, h3, rfl⟩
    exact ⟨v0, v1, v2, v3, h0, h1, h2, h3, (piece_eq (charVal_lt h0) (charVal_lt h1)
      (charVal_lt h2) (charVal_lt h3) rfl).symm⟩
  · rintro ⟨v0, v1, v2, v3, h0, h1, h2, h3, rfl⟩
    exact ⟨v0, h0, v1, h1, v2, h2, v3, h3, piece_eq (charVal_lt h0) (charVal_lt h1)
      (charVal_lt h2) (charVal_lt h3) rfl⟩

/-- The four characters of a chunk, by the six bits that they stand for. -/
theorem encodeBytes_eq {a d e : UInt8} (ha : c.getD 0 0 = a) (hd : c.getD 1 0 = d)
    (he : c.getD 2 0 = e) : encodeBytes c =
      [ chars.getD (a.toNat / 4) 0, chars.getD (a.toNat % 4 * 16 + d.toNat / 16) 0,
        if c.length > 1 then chars.getD (d.toNat % 16 * 4 + e.toNat / 64) 0 else padding,
        if c.length > 2 then chars.getD (e.toNat % 64) 0 else padding ] := by
  have hpack := toNat_pack3 a d e
  have ha' := a.toNat_lt
  have hd' := d.toNat_lt
  have he' := e.toNat_lt
  rw [encodeBytes, ha, hd, he]
  generalize a.toUInt32 <<< 16 ||| d.toUInt32 <<< 8 ||| e.toUInt32 = n at hpack ⊢
  have h18 : (n >>> 18).toNat = n.toNat / 2 ^ 18 := @toNat_shiftRight_ofNat n 18 (by decide)
  have h12 : (n >>> 12).toNat = n.toNat / 2 ^ 12 := @toNat_shiftRight_ofNat n 12 (by decide)
  have h6 : (n >>> 6).toNat = n.toNat / 2 ^ 6 := @toNat_shiftRight_ofNat n 6 (by decide)
  have hfirst : n.toNat / 2 ^ 18 % 64 = a.toNat / 4 := by omega
  have hsecond : n.toNat / 2 ^ 12 % 64 = a.toNat % 4 * 16 + d.toNat / 16 := by omega
  have hthird : n.toNat / 2 ^ 6 % 64 = d.toNat % 16 * 4 + e.toNat / 64 := by omega
  have hfourth : n.toNat % 64 = e.toNat % 64 := by omega
  simp only [base64Byte, toNat_and_sextet, h18, h12, h6, hfirst, hsecond, hthird, hfourth]

section Digits

variable (a d e : UInt8)

theorem encodeBytes_three : encodeBytes [a, d, e] =
    [ chars.getD (a.toNat / 4) 0, chars.getD (a.toNat % 4 * 16 + d.toNat / 16) 0,
      chars.getD (d.toNat % 16 * 4 + e.toNat / 64) 0, chars.getD (e.toNat % 64) 0 ] :=
  encodeBytes_eq (c := [a, d, e]) rfl rfl rfl

theorem encodeBytes_two : encodeBytes [a, d] =
    [ chars.getD (a.toNat / 4) 0, chars.getD (a.toNat % 4 * 16 + d.toNat / 16) 0,
      chars.getD (d.toNat % 16 * 4) 0, padding ] := by
  have hzero : (0 : UInt8).toNat / 64 = 0 := rfl
  rw [encodeBytes_eq (c := [a, d]) (a := a) (d := d) (e := 0) rfl rfl rfl, hzero]
  rfl

theorem encodeBytes_one : encodeBytes [a] =
    [chars.getD (a.toNat / 4) 0, chars.getD (a.toNat % 4 * 16) 0, padding, padding] := by
  have hzero : (0 : UInt8).toNat / 16 = 0 := rfl
  rw [encodeBytes_eq (c := [a]) (a := a) (d := 0) (e := 0) rfl rfl rfl, hzero]
  rfl

end Digits

theorem charVal_chars {i : ℕ} (hi : i < 64) : chars.getD i 0 ≠ padding ∧
    ∃ v : UInt32, v.toNat = i ∧ charVal (chars.getD i 0) = .ok v := by
  obtain ⟨-, hne, hval⟩ := chars_spec ⟨i, hi⟩
  exact ⟨hne, .ofNat i, UInt32.toNat_ofNat_of_lt' (hi.trans (by decide)), hval⟩

theorem charVal_padding : charVal padding = .ok 0 := by decide

theorem ofNat_eq {m : ℕ} (h : m = x.toNat) : UInt8.ofNat m = x := by rw [h, UInt8.ofNat_toNat]

theorem decodes_encodeBytes : Decodes 3 encodeBytes decodeChunk := by
  intro c hne hle
  match c, hne, hle with
  | [a], _, _ =>
    have ha := a.toNat_lt
    obtain ⟨-, v0, hv0, h0⟩ := @charVal_chars (a.toNat / 4) (by omega)
    obtain ⟨-, v1, hv1, h1⟩ := @charVal_chars (a.toNat % 4 * 16) (by omega)
    rw [encodeBytes_one, decodeChunk_eq_ok]
    refine ⟨v0, v1, 0, 0, h0, h1, charVal_padding, charVal_padding, ?_⟩
    have hbyte : UInt8.ofNat (v0.toNat * 4 + v1.toNat / 16) = a := ofNat_eq (by omega)
    rw [piece_one, hbyte]
  | [a, d], _, _ =>
    have ha := a.toNat_lt
    have hd := d.toNat_lt
    obtain ⟨-, v0, hv0, h0⟩ := @charVal_chars (a.toNat / 4) (by omega)
    obtain ⟨-, v1, hv1, h1⟩ := @charVal_chars (a.toNat % 4 * 16 + d.toNat / 16) (by omega)
    obtain ⟨hne, v2, hv2, h2⟩ := @charVal_chars (d.toNat % 16 * 4) (by omega)
    rw [encodeBytes_two, decodeChunk_eq_ok]
    refine ⟨v0, v1, v2, 0, h0, h1, h2, charVal_padding, ?_⟩
    have hbyte : UInt8.ofNat (v0.toNat * 4 + v1.toNat / 16) = a := ofNat_eq (by omega)
    have hbyte' : UInt8.ofNat (v1.toNat % 16 * 16 + v2.toNat / 4) = d := ofNat_eq (by omega)
    rw [piece_two hne, hbyte, hbyte']
  | [a, d, e], _, _ =>
    have ha := a.toNat_lt
    have hd := d.toNat_lt
    have he := e.toNat_lt
    obtain ⟨-, v0, hv0, h0⟩ := @charVal_chars (a.toNat / 4) (by omega)
    obtain ⟨-, v1, hv1, h1⟩ := @charVal_chars (a.toNat % 4 * 16 + d.toNat / 16) (by omega)
    obtain ⟨hne, v2, hv2, h2⟩ := @charVal_chars (d.toNat % 16 * 4 + e.toNat / 64) (by omega)
    obtain ⟨hne', v3, hv3, h3⟩ := @charVal_chars (e.toNat % 64) (by omega)
    rw [encodeBytes_three, decodeChunk_eq_ok]
    refine ⟨v0, v1, v2, v3, h0, h1, h2, h3, ?_⟩
    have hbyte : UInt8.ofNat (v0.toNat * 4 + v1.toNat / 16) = a := ofNat_eq (by omega)
    have hbyte' : UInt8.ofNat (v1.toNat % 16 * 16 + v2.toNat / 4) = d := ofNat_eq (by omega)
    have hbyte'' : UInt8.ofNat (v2.toNat % 4 * 64 + v3.toNat) = e := ofNat_eq (by omega)
    rw [piece_full hne hne', hbyte, hbyte', hbyte'']

theorem regroups_encodeBytes : Regroups 3 4 encodeBytes := fun _ _ _ => rfl

theorem base64Decode_encode (b : List UInt8) : base64Decode (base64Encode b) = .ok b := by
  have hlen : ((chunks 3 b).flatMap encodeBytes).length % 4 = 0 := by
    induction chunks 3 b with
    | nil => rfl
    | cons c cs ih =>
      rw [List.flatMap_cons, List.length_append]
      exact (Nat.add_mod_left 4 _).trans ih
  rw [base64Decode, trim_encode, asBytes_encode, require_pos hlen, ok_bind,
    decodes_encodeBytes.mapM_chunks regroups_encodeBytes (by decide) (by decide), ok_bind,
    flatten_chunks (by decide)]
  rfl

/-! ## Padding -/

/-- Padding is one or two last characters, and the character before it has no bits left over. -/
inductive PaddedEnd : List UInt8 → Prop
  | none {body : List UInt8} (hbody : padding ∉ body) : PaddedEnd body
  | one {body : List UInt8} {x : UInt8} {v : UInt32} (hbody : padding ∉ body ++ [x])
    (hx : charVal x = .ok v) (hv : v.toNat % 4 = 0) : PaddedEnd (body ++ [x, padding])
  | two {body : List UInt8} {x : UInt8} {v : UInt32} (hbody : padding ∉ body ++ [x])
    (hx : charVal x = .ok v) (hv : v.toNat % 16 = 0) : PaddedEnd (body ++ [x, padding, padding])

theorem PaddedEnd.append (hg : padding ∉ g) (h : PaddedEnd s) : PaddedEnd (g ++ s) := by
  have hbody {l : List UInt8} (hl : padding ∉ l) : padding ∉ g ++ l := fun hmem =>
    (List.mem_append.mp hmem).elim hg hl
  cases h with
  | none hl => exact .none (hbody hl)
  | one hl hx hv =>
    rw [← List.append_assoc]
    exact .one (by rw [List.append_assoc]; exact hbody hl) hx hv
  | two hl hx hv =>
    rw [← List.append_assoc]
    exact .two (by rw [List.append_assoc]; exact hbody hl) hx hv

/-- What is left of a list when more than its last characters are taken off. -/
theorem prefix_of_append {body tail : List UInt8} (h : g ++ s = body ++ tail)
    (hlen : tail.length ≤ s.length) : ∃ rest, body = g ++ rest ∧ s = rest ++ tail := by
  rcases List.append_eq_append_iff.mp h with ⟨rest, hbody, hs⟩ | ⟨rest, hg, htail⟩
  · exact ⟨rest, hbody, hs⟩
  · rw [htail, List.length_append] at hlen
    cases List.length_eq_zero_iff.mp (by omega : rest.length = 0)
    exact ⟨[], by rw [hg, List.append_nil, List.append_nil], htail.symm⟩

theorem paddedEnd_append_iff (hs : 3 ≤ s.length) :
    PaddedEnd (g ++ s) ↔ padding ∉ g ∧ PaddedEnd s := by
  constructor
  · intro h
    generalize hwhole : g ++ s = whole at h
    cases h with
    | none hbody =>
      rw [← hwhole, List.mem_append, not_or] at hbody
      exact ⟨hbody.1, .none hbody.2⟩
    | one hbody hx hv =>
      obtain ⟨rest, rfl, rfl⟩ := prefix_of_append hwhole (Nat.le_of_succ_le hs)
      rw [List.append_assoc, List.mem_append, not_or] at hbody
      exact ⟨hbody.1, .one hbody.2 hx hv⟩
    | two hbody hx hv =>
      obtain ⟨rest, rfl, rfl⟩ := prefix_of_append hwhole hs
      rw [List.append_assoc, List.mem_append, not_or] at hbody
      exact ⟨hbody.1, .two hbody.2 hx hv⟩
  · rintro ⟨hg, h⟩
    exact h.append hg

theorem paddedEnd_four (h : PaddedEnd [x0, x1, x2, x3]) : x0 ≠ padding ∧ x1 ≠ padding ∧
    (x2 ≠ padding ∧ x3 ≠ padding ∨
      x2 ≠ padding ∧ x3 = padding ∧ (∃ v, charVal x2 = .ok v ∧ v.toNat % 4 = 0) ∨
      x2 = padding ∧ x3 = padding ∧ ∃ v, charVal x1 = .ok v ∧ v.toNat % 16 = 0) := by
  generalize hwhole : [x0, x1, x2, x3] = whole at h
  cases h with
  | none hbody =>
    subst hwhole
    simp only [List.mem_cons, List.not_mem_nil, or_false, not_or, eq_comm] at hbody
    exact ⟨hbody.1, hbody.2.1, .inl hbody.2.2⟩
  | @one body x v hbody hx hv =>
    have hwhole : [x0, x1] ++ [x2, x3] = body ++ [x, padding] := hwhole
    obtain ⟨rfl, htail⟩ := List.append_inj' hwhole rfl
    simp only [List.cons.injEq, and_true] at htail
    obtain ⟨rfl, rfl⟩ := htail
    simp only [List.cons_append, List.nil_append, List.mem_cons, List.not_mem_nil, or_false,
      not_or, eq_comm] at hbody
    exact ⟨hbody.1, hbody.2.1, .inr (.inl ⟨hbody.2.2, rfl, v, hx, hv⟩)⟩
  | @two body x v hbody hx hv =>
    have hwhole : [x0] ++ [x1, x2, x3] = body ++ [x, padding, padding] := hwhole
    obtain ⟨rfl, htail⟩ := List.append_inj' hwhole rfl
    simp only [List.cons.injEq, and_true] at htail
    obtain ⟨rfl, rfl, rfl⟩ := htail
    simp only [List.cons_append, List.nil_append, List.mem_cons, List.not_mem_nil, or_false,
      not_or, eq_comm] at hbody
    exact ⟨hbody.1, hbody.2, .inr (.inr ⟨rfl, rfl, v, hx, hv⟩)⟩

theorem chars_of_charVal (h : charVal x = .ok v) (hx : x ≠ padding) :
    chars.getD v.toNat 0 = x := by
  rcases charVal_cases h with ⟨hpad, -⟩ | ⟨-, -, hchar⟩
  · exact absurd hpad hx
  · exact hchar

theorem toNat_ofNat_byte {m : ℕ} (h : m < 256) : (UInt8.ofNat m).toNat = m :=
  UInt8.toNat_ofNat_of_lt' h

/-- With its padding in order, a group is encoded as it was. -/
theorem encodeBytes_of_paddedEnd (h : decodeChunk [x0, x1, x2, x3] = .ok c)
    (hpad : PaddedEnd [x0, x1, x2, x3]) : encodeBytes c = [x0, x1, x2, x3] := by
  obtain ⟨v0, v1, v2, v3, h0, h1, h2, h3, rfl⟩ := decodeChunk_eq_ok.mp h
  have hv0 := charVal_lt h0
  have hv1 := charVal_lt h1
  have hv2 := charVal_lt h2
  have hv3 := charVal_lt h3
  obtain ⟨hx0, hx1, htail⟩ := paddedEnd_four hpad
  have hy0 : (UInt8.ofNat (v0.toNat * 4 + v1.toNat / 16)).toNat = v0.toNat * 4 + v1.toNat / 16 :=
    toNat_ofNat_byte (by omega)
  have hy1 : (UInt8.ofNat (v1.toNat % 16 * 16 + v2.toNat / 4)).toNat =
      v1.toNat % 16 * 16 + v2.toNat / 4 := toNat_ofNat_byte (by omega)
  have hy2 : (UInt8.ofNat (v2.toNat % 4 * 64 + v3.toNat)).toNat =
      v2.toNat % 4 * 64 + v3.toNat := toNat_ofNat_byte (by omega)
  have hfirst : (v0.toNat * 4 + v1.toNat / 16) / 4 = v0.toNat := by omega
  obtain ⟨hx2, hx3⟩ | ⟨hx2, rfl, v, hv, hrest⟩ | ⟨rfl, rfl, v, hv, hrest⟩ := htail
  · have hsecond : (v0.toNat * 4 + v1.toNat / 16) % 4 * 16 +
        (v1.toNat % 16 * 16 + v2.toNat / 4) / 16 = v1.toNat := by omega
    have hthird : (v1.toNat % 16 * 16 + v2.toNat / 4) % 16 * 4 +
        (v2.toNat % 4 * 64 + v3.toNat) / 64 = v2.toNat := by omega
    have hfourth : (v2.toNat % 4 * 64 + v3.toNat) % 64 = v3.toNat := by omega
    rw [piece_full hx2 hx3, encodeBytes_three, hy0, hy1, hy2, hfirst, hsecond, hthird, hfourth,
      chars_of_charVal h0 hx0, chars_of_charVal h1 hx1, chars_of_charVal h2 hx2,
      chars_of_charVal h3 hx3]
  · cases h2.symm.trans hv
    have hsecond : (v0.toNat * 4 + v1.toNat / 16) % 4 * 16 +
        (v1.toNat % 16 * 16 + v2.toNat / 4) / 16 = v1.toNat := by omega
    have hthird : (v1.toNat % 16 * 16 + v2.toNat / 4) % 16 * 4 = v2.toNat := by omega
    rw [piece_two hx2, encodeBytes_two, hy0, hy1, hfirst, hsecond, hthird,
      chars_of_charVal h0 hx0, chars_of_charVal h1 hx1, chars_of_charVal h2 hx2]
  · cases h1.symm.trans hv
    have hsecond : (v0.toNat * 4 + v1.toNat / 16) % 4 * 16 = v1.toNat := by omega
    rw [piece_one, encodeBytes_one, hy0, hfirst, hsecond, chars_of_charVal h0 hx0,
      chars_of_charVal h1 hx1]

/-- Encoding pads nothing but the end. -/
theorem paddedEnd_encodeBytes (hne : c ≠ []) (hle : c.length ≤ 3) : PaddedEnd (encodeBytes c) := by
  match c, hne, hle with
  | [a], _, _ =>
    have ha := a.toNat_lt
    obtain ⟨h0, -⟩ := @charVal_chars (a.toNat / 4) (by omega)
    obtain ⟨h1, v, hv, hval⟩ := @charVal_chars (a.toNat % 4 * 16) (by omega)
    rw [encodeBytes_one]
    refine @PaddedEnd.two [_] _ _ ?_ hval (by omega)
    simp only [List.cons_append, List.nil_append, List.mem_cons, List.not_mem_nil, or_false, not_or]
    exact ⟨h0.symm, h1.symm⟩
  | [a, d], _, _ =>
    have ha := a.toNat_lt
    have hd := d.toNat_lt
    obtain ⟨h0, -⟩ := @charVal_chars (a.toNat / 4) (by omega)
    obtain ⟨h1, -⟩ := @charVal_chars (a.toNat % 4 * 16 + d.toNat / 16) (by omega)
    obtain ⟨h2, v, hv, hval⟩ := @charVal_chars (d.toNat % 16 * 4) (by omega)
    rw [encodeBytes_two]
    refine @PaddedEnd.one [_, _] _ _ ?_ hval (by omega)
    simp only [List.cons_append, List.nil_append, List.mem_cons, List.not_mem_nil, or_false, not_or]
    exact ⟨h0.symm, h1.symm, h2.symm⟩
  | [a, d, e], _, _ =>
    have ha := a.toNat_lt
    have hd := d.toNat_lt
    have he := e.toNat_lt
    obtain ⟨h0, -⟩ := @charVal_chars (a.toNat / 4) (by omega)
    obtain ⟨h1, -⟩ := @charVal_chars (a.toNat % 4 * 16 + d.toNat / 16) (by omega)
    obtain ⟨h2, -⟩ := @charVal_chars (d.toNat % 16 * 4 + e.toNat / 64) (by omega)
    obtain ⟨h3, -⟩ := @charVal_chars (e.toNat % 64) (by omega)
    rw [encodeBytes_three]
    refine .none ?_
    simp only [List.mem_cons, List.not_mem_nil, or_false, not_or]
    exact ⟨h0.symm, h1.symm, h2.symm, h3.symm⟩

/-! ## The two directions -/

theorem piece_length : (piece x2 x3 v0 v1 v2 v3).length = 3 ↔ x2 ≠ padding ∧ x3 ≠ padding := by
  rw [piece]
  by_cases h2 : x2 = padding
  · by_cases h3 : x3 = padding <;> simp [h2, h3]
  · by_cases h3 : x3 = padding <;> simp [h2, h3]

theorem piece_bounds : piece x2 x3 v0 v1 v2 v3 ≠ [] ∧ (piece x2 x3 v0 v1 v2 v3).length ≤ 3 := by
  rw [piece]
  constructor
  · exact List.cons_ne_nil _ _
  · split <;> split <;> simp

/-- A last group. -/
theorem encodeBytes_eq_iff (hg : g.length = 4) (h : decodeChunk g = .ok c) :
    c ≠ [] ∧ c.length ≤ 3 ∧ (encodeBytes c = g ↔ PaddedEnd g) := by
  match g, hg with
  | [x0, x1, x2, x3], _ =>
    obtain ⟨hne, hle⟩ : c ≠ [] ∧ c.length ≤ 3 := by
      obtain ⟨v0, v1, v2, v3, -, -, -, -, rfl⟩ := decodeChunk_eq_ok.mp h
      exact piece_bounds
    refine ⟨hne, hle, fun heq => ?_, encodeBytes_of_paddedEnd h⟩
    rw [← heq]
    exact paddedEnd_encodeBytes hne hle

/-- Any other. -/
theorem encodeBytes_full_iff (hg : g.length = 4) (h : decodeChunk g = .ok c) :
    c.length = 3 ∧ encodeBytes c = g ↔ padding ∉ g := by
  match g, hg with
  | [x0, x1, x2, x3], hg =>
    have hlength : c.length = 3 ↔ x2 ≠ padding ∧ x3 ≠ padding := by
      obtain ⟨v0, v1, v2, v3, -, -, -, -, rfl⟩ := decodeChunk_eq_ok.mp h
      exact piece_length
    rw [hlength, (encodeBytes_eq_iff hg h).2.2]
    constructor
    · rintro ⟨⟨hx2, hx3⟩, hpad⟩
      obtain ⟨hx0, hx1, -⟩ := paddedEnd_four hpad
      simp only [List.mem_cons, List.not_mem_nil, or_false, not_or]
      exact ⟨hx0.symm, hx1.symm, hx2.symm, hx3.symm⟩
    · intro hpad
      refine ⟨?_, .none hpad⟩
      simp only [List.mem_cons, List.not_mem_nil, or_false, not_or] at hpad
      exact ⟨Ne.symm hpad.2.2.1, Ne.symm hpad.2.2.2⟩

theorem groups_iff (hgs : ∀ g ∈ gs, g.length = 4) (h : gs.mapM decodeChunk = .ok cs) :
    Chunked 3 cs ∧ cs.map encodeBytes = gs ↔ PaddedEnd gs.flatten := by
  induction gs generalizing cs with
  | nil =>
    cases h
    exact iff_of_true ⟨.nil, rfl⟩ (.none List.not_mem_nil)
  | cons g gs ih =>
    rw [List.mapM_cons, bind_eq_ok] at h
    obtain ⟨c, hc, h⟩ := h
    rw [bind_eq_ok] at h
    obtain ⟨cs, hcs, h⟩ := h
    cases h
    have hg := hgs g List.mem_cons_self
    have ih := ih (fun g' hg' => hgs g' (List.mem_cons_of_mem g hg')) hcs
    cases gs with
    | nil =>
      obtain rfl : cs = [] := by
        cases hcs
        rfl
      obtain ⟨hne, hle, hiff⟩ := encodeBytes_eq_iff hg hc
      rw [List.flatten_singleton, ← hiff, List.map_singleton, List.cons.injEq,
        and_iff_left rfl, and_iff_right (Chunked.last hne hle)]
    | cons g' gs =>
      have hlen : 3 ≤ (g' :: gs).flatten.length := by
        have hg' := hgs g' (List.mem_cons_of_mem g List.mem_cons_self)
        rw [List.flatten_cons, List.length_append]
        omega
      have hcs' : cs ≠ [] := by
        rintro rfl
        simp only [List.mapM_cons, bind_eq_ok, pure_eq_ok] at hcs
        obtain ⟨_, -, _, -, hcs⟩ := hcs
        cases hcs
      rw [List.flatten_cons, paddedEnd_append_iff hlen, ← ih, ← encodeBytes_full_iff hg hc,
        chunked_cons_iff hcs', List.map_cons, List.cons.injEq, and_and_and_comm]

/-- Decoding undoes encoding; and encoding undoes decoding where the padding is in order, and
nowhere else. -/
theorem base64_codec (b : List UInt8) (s : String) :
    base64Decode (base64Encode b) = .ok b ∧
      ∀ c, trim s = s → base64Decode s = .ok c →
        (base64Encode c = s ↔ PaddedEnd (asBytes s)) := by
  refine ⟨base64Decode_encode b, fun c hs h => ?_⟩
  simp only [base64Decode, hs, bind_eq_ok, require_eq_ok, exists_const, pure_eq_ok] at h
  obtain ⟨heven, cs, hcs, rfl⟩ := h
  have hflatten := flatten_chunks (n := 4) (by decide) (asBytes s)
  have hgroups : ∀ g ∈ chunks 4 (asBytes s), g.length = 4 :=
    (chunked_chunks (by decide) _).length_eq (by rw [hflatten, heven])
  rw [← hflatten, ← groups_iff hgroups hcs, ← decodes_encodeBytes.flatMap_eq_iff
    regroups_encodeBytes (by decide) (by decide) hcs, ← asBytes_encode]
  exact ⟨congrArg asBytes, asBytes_injective⟩

theorem base64_codec_padded : base64Encode [77] = "TQ==" ↔ PaddedEnd (asBytes "TQ==") :=
  (base64_codec [77] "TQ==").2 [77] (by decide +kernel) (by decide +kernel)

/-- Bits left over, padding in the middle of a group and padding in the middle of the text. -/
theorem base64_lax :
    (trim "TR==" = "TR==" ∧ base64Decode "TR==" = .ok [77] ∧ base64Encode [77] ≠ "TR==") ∧
      (trim "AA=A" = "AA=A" ∧ base64Decode "AA=A" = .ok [0, 0] ∧
        base64Encode [0, 0] ≠ "AA=A") ∧
      trim "TQ==TQ==" = "TQ==TQ==" ∧ base64Decode "TQ==TQ==" = .ok [77, 77] ∧
        base64Encode [77, 77] ≠ "TQ==TQ==" := by
  decide +kernel

end SolanaStablecoin.Backend
