import Mathlib
import CallTrace.Text.Octets
import CallTrace.Text.Utf8

/-!
# Texts in UTF-8 and back

The first octets of a text are read as its first characters, and refused where they end inside a
character (`ofUtf8_take_encode`).  So a column counts octets, and the characters before it are those that
the octets before it hold.

`takeUtf8_char` and `takeUtf8_take_char` are about one character, whole and cut off.
-/

namespace CallTrace.Text

/-- The octets of a text. -/
def encode (text : List Char) : List UInt8 :=
  text.flatMap String.utf8EncodeChar

theorem encode_cons (c : Char) (text : List Char) :
    encode (c :: text) = String.utf8EncodeChar c ++ encode text :=
  List.flatMap_cons

theorem length_encode (text : List Char) : (encode text).length = bytes text := by
  induction text with
  | nil => rfl
  | cons c text ih => rw [encode_cons, List.length_append, String.length_utf8EncodeChar, ih, bytes]

/-! ## Octets -/

section Octets

variable {n : Nat}

theorem toNat_octet (hn : n < 256) : (UInt8.ofNat n).toNat = n :=
  UInt8.toNat_ofNat_of_lt' hn

theorem octet_lt_iff (hn : n < 256) {b : UInt8} : UInt8.ofNat n < b ↔ n < b.toNat := by
  rw [UInt8.lt_iff_toNat_lt, toNat_octet hn]

/-- An octet after the first of a character carries six bits. -/
theorem tailBits_octet (hn : n < 64) : tailBits (UInt8.ofNat (n + 128)) = some n := by
  rw [tailBits, if_pos ?_, toNat_octet (by omega), Nat.add_sub_cancel]
  rw [UInt8.le_iff_toNat_le, UInt8.le_iff_toNat_le, toNat_octet (by omega)]
  simp
  omega

theorem charOf_toNat {least : Nat} {c : Char} (h : least ≤ c.toNat) : charOf least c.toNat = some c := by
  rw [charOf, if_pos ⟨h, c.valid⟩, Char.ofNat_toNat]

theorem takeUtf8_one (hn : n < 0x80) (rest : List UInt8) :
    takeUtf8 (UInt8.ofNat n :: rest) = some (Char.ofNat n, rest) := by
  have hfirst : n < 256 := by omega
  simp only [takeUtf8, octet_lt_iff hfirst, toNat_octet hfirst, UInt8.reduceToNat]
  rw [if_pos hn]

variable {x y z : Nat} (hx : x < 64) (hy : y < 64) (hz : z < 64) (rest : List UInt8)

include hx

theorem takeUtf8_two (hn : n < 32) :
    takeUtf8 (UInt8.ofNat (n + 192) :: UInt8.ofNat (x + 128) :: rest) =
      (charOf 0x80 (n * 64 + x)).map (·, rest) := by
  have hfirst : n + 192 < 256 := by omega
  simp only [takeUtf8, octet_lt_iff hfirst, toNat_octet hfirst, UInt8.reduceToNat, Nat.add_sub_cancel]
  rw [if_neg (by omega), if_neg (by omega), if_pos (by omega)]
  simp only [tailBits_octet hx, Option.bind_eq_bind, Option.bind_some]
  cases charOf 0x80 (n * 64 + x) <;> rfl

include hy

theorem takeUtf8_three (hn : n < 16) :
    takeUtf8 (UInt8.ofNat (n + 224) :: UInt8.ofNat (x + 128) :: UInt8.ofNat (y + 128) :: rest) =
      (charOf 0x800 ((n * 64 + x) * 64 + y)).map (·, rest) := by
  have hfirst : n + 224 < 256 := by omega
  simp only [takeUtf8, octet_lt_iff hfirst, toNat_octet hfirst, UInt8.reduceToNat, Nat.add_sub_cancel]
  rw [if_neg (by omega), if_neg (by omega), if_neg (by omega), if_pos (by omega)]
  simp only [tailBits_octet hx, tailBits_octet hy, Option.bind_eq_bind, Option.bind_some]
  cases charOf 0x800 ((n * 64 + x) * 64 + y) <;> rfl

include hz

theorem takeUtf8_four (hn : n < 8) :
    takeUtf8 (UInt8.ofNat (n + 240) :: UInt8.ofNat (x + 128) :: UInt8.ofNat (y + 128) ::
        UInt8.ofNat (z + 128) :: rest) =
      (charOf 0x10000 (((n * 64 + x) * 64 + y) * 64 + z)).map (·, rest) := by
  have hfirst : n + 240 < 256 := by omega
  simp only [takeUtf8, octet_lt_iff hfirst, toNat_octet hfirst, UInt8.reduceToNat, Nat.add_sub_cancel]
  rw [if_neg (by omega), if_neg (by omega), if_neg (by omega), if_neg (by omega), if_pos (by omega)]
  simp only [tailBits_octet hx, tailBits_octet hy, tailBits_octet hz, Option.bind_eq_bind, Option.bind_some]
  cases charOf 0x10000 (((n * 64 + x) * 64 + y) * 64 + z) <;> rfl

end Octets

/-! ## One character -/

/-- The octets of a character.  There are six of its bits in each octet after the first. -/
theorem utf8EncodeChar_cases (c : Char) :
    (c.toNat < 0x80 ∧ String.utf8EncodeChar c = [UInt8.ofNat c.toNat]) ∨
    (0x80 ≤ c.toNat ∧ ∃ n < 32, ∃ x < 64, n * 64 + x = c.toNat ∧
      String.utf8EncodeChar c = [UInt8.ofNat (n + 192), UInt8.ofNat (x + 128)]) ∨
    (0x800 ≤ c.toNat ∧ ∃ n < 16, ∃ x < 64, ∃ y < 64, (n * 64 + x) * 64 + y = c.toNat ∧
      String.utf8EncodeChar c = [UInt8.ofNat (n + 224), UInt8.ofNat (x + 128), UInt8.ofNat (y + 128)]) ∨
    (0x10000 ≤ c.toNat ∧ ∃ n < 8, ∃ x < 64, ∃ y < 64, ∃ z < 64, ((n * 64 + x) * 64 + y) * 64 + z = c.toNat ∧
      String.utf8EncodeChar c = [UInt8.ofNat (n + 240), UInt8.ofNat (x + 128), UInt8.ofNat (y + 128),
        UInt8.ofNat (z + 128)]) := by
  have hmax : c.toNat ≤ 0x10ffff := c.toNat_le_max
  have hval : c.val.toNat = c.toNat := rfl
  simp only [String.utf8EncodeChar, hval]
  generalize c.toNat = v at hmax
  have hlow : v % 64 < 64 := Nat.mod_lt _ (by decide)
  split_ifs with h₁ h₂ h₃
  · exact Or.inl ⟨by omega, rfl⟩
  · exact Or.inr (Or.inl ⟨by omega, _, by omega, _, hlow, by omega, rfl⟩)
  · exact Or.inr (Or.inr (Or.inl ⟨by omega, _, by omega, _, by omega, _, hlow, by omega, rfl⟩))
  · exact Or.inr (Or.inr (Or.inr ⟨by omega, _, by omega, _, by omega, _, by omega, _, hlow, by omega, rfl⟩))

/-- A character is read from the octets that it takes, whatever comes after them. -/
theorem takeUtf8_char (c : Char) (rest : List UInt8) :
    takeUtf8 (String.utf8EncodeChar c ++ rest) = some (c, rest) := by
  have hread {least : Nat} (h : least ≤ c.toNat) : (charOf least c.toNat).map (·, rest) = some (c, rest) := by
    rw [charOf_toNat h]
    rfl
  rcases utf8EncodeChar_cases c with ⟨hlt, henc⟩ | ⟨hle, n, hn, x, hx, hsum, henc⟩ |
    ⟨hle, n, hn, x, hx, y, hy, hsum, henc⟩ | ⟨hle, n, hn, x, hx, y, hy, z, hz, hsum, henc⟩ <;> rw [henc]
  · rw [List.singleton_append, takeUtf8_one hlt, Char.ofNat_toNat]
  · exact (takeUtf8_two hx rest hn).trans (hsum ▸ hread hle)
  · exact (takeUtf8_three hx hy rest hn).trans (hsum ▸ hread hle)
  · exact (takeUtf8_four hx hy hz rest hn).trans (hsum ▸ hread hle)

/-- The first octet of a character says how many come after it, and fewer are no character. -/
theorem takeUtf8_short {first : Nat} (hfirst : 192 ≤ first) (hlt : first < 256) {rest : List UInt8}
    (h : rest.length < if first < 224 then 1 else if first < 240 then 2 else 3) :
    takeUtf8 (UInt8.ofNat first :: rest) = none := by
  simp only [takeUtf8, octet_lt_iff hlt, UInt8.reduceToNat]
  rw [if_neg (by omega), if_neg (by omega)]
  split_ifs at h ⊢
  · obtain rfl := List.length_eq_zero_iff.1 (Nat.lt_one_iff.1 h)
    rfl
  · rcases rest with _ | ⟨b, _ | ⟨c, rest⟩⟩
    · rfl
    · rfl
    · simp at h
  · rcases rest with _ | ⟨b, _ | ⟨c, _ | ⟨d, rest⟩⟩⟩
    · rfl
    · rfl
    · rfl
    · simp only [List.length_cons] at h
      omega
  · rfl

/-- No character is read from a part of its octets. -/
theorem takeUtf8_take_char (c : Char) {column : Nat} (h : column + 1 < c.utf8Size) :
    takeUtf8 ((String.utf8EncodeChar c).take (column + 1)) = none := by
  rw [← String.length_utf8EncodeChar] at h
  rcases utf8EncodeChar_cases c with ⟨-, henc⟩ | ⟨-, n, hn, x, -, -, henc⟩ |
    ⟨-, n, hn, x, -, y, -, -, henc⟩ | ⟨-, n, hn, x, -, y, -, z, -, -, henc⟩ <;> rw [henc] at h ⊢ <;>
    simp only [List.length_cons, List.length_nil] at h
  · omega
  all_goals
    rw [List.take_succ_cons]
    refine takeUtf8_short (by omega) (by omega) ?_
    rw [List.length_take]
    simp only [List.length_cons, List.length_nil]
    split_ifs <;> omega

/-! ## Texts -/

theorem readUtf8_succ {octets : List UInt8} (h : octets ≠ []) (fuel : Nat) :
    readUtf8 (fuel + 1) octets =
      (takeUtf8 octets).bind fun p => (readUtf8 fuel p.2).map (p.1 :: ·) := by
  obtain ⟨a, rest, rfl⟩ := List.exists_cons_of_ne_nil h
  simp only [readUtf8]
  cases takeUtf8 (a :: rest) <;> rfl

theorem charsWithin_succ (c : Char) (text : List Char) (column : Nat) :
    charsWithin (c :: text) (column + 1) =
      if c.utf8Size ≤ column + 1 then (charsWithin text (column + 1 - c.utf8Size)).map (· + 1) else none :=
  rfl

/-- The fuel lasts for as many octets. -/
theorem readUtf8_take_encode (text : List Char) {column fuel : Nat}
    (hfuel : ((encode text).take column).length ≤ fuel) :
    readUtf8 fuel ((encode text).take column) = (charsWithin text column).map text.take := by
  induction text generalizing column fuel with
  | nil => cases column <;> cases fuel <;> rfl
  | cons c text ih =>
    have hsize := String.length_utf8EncodeChar c
    have hpos := Char.utf8Size_pos c
    cases column with
    | zero => cases fuel <;> rfl
    | succ column =>
      have hne : (encode (c :: text)).take (column + 1) ≠ [] := by
        rw [encode_cons, ne_eq, List.take_eq_nil_iff]
        simp [String.utf8EncodeChar_ne_nil]
      obtain ⟨fuel, rfl⟩ : ∃ n, fuel = n + 1 :=
        ⟨fuel - 1, by have := List.length_pos_of_ne_nil hne; omega⟩
      rw [readUtf8_succ hne, encode_cons, List.take_append, hsize]
      rw [encode_cons, List.take_append, hsize, List.length_append] at hfuel
      rw [charsWithin_succ]
      split
      · rename_i hle
        rw [List.take_of_length_le (by omega)] at hfuel ⊢
        rw [takeUtf8_char, Option.bind_some, ih (by omega), Option.map_map, Option.map_map]
        rfl
      · rename_i hlt
        rw [Nat.sub_eq_zero_of_le (by omega), List.take_zero, List.append_nil,
          takeUtf8_take_char c (by omega)]
        rfl

/-- The first octets of a text hold as many of its characters as the count says, and no text where they
end inside a character. -/
theorem ofUtf8_take_encode (text : List Char) (column : Nat) :
    ofUtf8 ((encode text).take column) = (charsWithin text column).map text.take :=
  readUtf8_take_encode text le_rfl

end CallTrace.Text
