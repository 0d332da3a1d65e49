/-!
# Texts in octets

The strict UTF-8 reading of octets: every character in its shortest form, no
surrogates, nothing above the last code point.  `ofAscii` and `ofLatin1` read
octets one by one.
-/

namespace CallTrace.Text

/-- The bits that an octet after the first of a character carries. -/
def tailBits (b : UInt8) : Option Nat :=
  if 0x80 ≤ b ∧ b ≤ 0xbf then some (b.toNat - 0x80) else none

/-- The character of a code point that is one. -/
def charOf (least code : Nat) : Option Char :=
  if least ≤ code ∧ code.isValidChar then some (Char.ofNat code) else none

/-- The character that octets begin with, and the octets after it. -/
def takeUtf8 : List UInt8 → Option (Char × List UInt8)
  | [] => none
  | a :: rest =>
    if a < 0x80 then some (Char.ofNat a.toNat, rest)
    else if a < 0xc0 then none
    else if a < 0xe0 then
      match rest with
      | b :: left => do
        let b ← tailBits b
        let c ← charOf 0x80 ((a.toNat - 0xc0) * 64 + b)
        return (c, left)
      | _ => none
    else if a < 0xf0 then
      match rest with
      | b :: c :: left => do
        let b ← tailBits b
        let c ← tailBits c
        let c ← charOf 0x800 (((a.toNat - 0xe0) * 64 + b) * 64 + c)
        return (c, left)
      | _ => none
    else if a < 0xf8 then
      match rest with
      | b :: c :: d :: left => do
        let b ← tailBits b
        let c ← tailBits c
        let d ← tailBits d
        let c ← charOf 0x10000 ((((a.toNat - 0xf0) * 64 + b) * 64 + c) * 64 + d)
        return (c, left)
      | _ => none
    else none

/-- Reads characters as long as the fuel lasts. -/
def readUtf8 : Nat → List UInt8 → Option (List Char)
  | _, [] => some []
  | 0, _ :: _ => none
  | fuel + 1, octets =>
    match takeUtf8 octets with
    | none => none
    | some (c, rest) => (readUtf8 fuel rest).map (c :: ·)

/-- The text that octets hold in UTF-8. -/
def ofUtf8 (octets : List UInt8) : Option (List Char) :=
  readUtf8 octets.length octets

/-- The text that octets hold in ASCII. -/
def ofAscii (octets : List UInt8) : Option (List Char) :=
  if octets.all (· < 0x80) then some (octets.map fun b => Char.ofNat b.toNat) else none

/-- The text that octets hold in Latin-1. -/
def ofLatin1 (octets : List UInt8) : List Char :=
  octets.map fun b => Char.ofNat b.toNat

end CallTrace.Text
