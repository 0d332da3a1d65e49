import CallTrace.Syntax.Token.Scan
import CallTrace.Text.Line
import CallTrace.Text.Octets

/-!
# Encodings of source files

A file says in a comment on its first or second line how it is encoded; without
such a declaration it is UTF-8.  The second line counts only if the first holds
nothing or only a comment.  A byte order mark stands for UTF-8 and admits no
other declaration.  Each line that is searched must itself be valid UTF-8.

A text that is read from a file has all its line endings written as `\n`.  A
text that is imported is read piece by piece, and a carriage return at its very
end is left out: a line feed might still have followed.
-/

namespace CallTrace

/-- An encoding that a file may be in. -/
inductive Encoding
  | utf8
  | latin1
  | ascii
  deriving DecidableEq, Repr

/-- Why a file's octets are no text. -/
inductive DecodeError
  /-- The declaration is not valid or names no known encoding. -/
  | declaration
  /-- The octets do not fit the encoding. -/
  | octets
  deriving DecidableEq, Repr

namespace Encoding

open Syntax (isSpace)

/-! ## Declarations -/

/-- The word that announces a declaration. -/
def announcement : List Char := ['c', 'o', 'd', 'i', 'n', 'g']

/-- Whether the character may stand in the name of an encoding. -/
def isNameCharacter (c : Char) : Bool :=
  c.isAlphanum || c = '_' || c = '-' || c = '.'

/-- The name that a text declares if the announcement stands at its start. -/
def declaredHere (text : List Char) : Option (List Char) :=
  if announcement.isPrefixOf text then
    match text.drop announcement.length with
    | c :: rest =>
      if c = ':' ∨ c = '=' then
        let name := (rest.dropWhile fun c => c = ' ' || c = '\t').takeWhile isNameCharacter
        if name.isEmpty then none else some name
      else none
    | [] => none
  else none

/-- The first name that a comment declares. -/
def declaredIn : List Char → Option (List Char)
  | [] => none
  | c :: rest =>
    match declaredHere (c :: rest) with
    | some name => some name
    | none => if c = '\n' then none else declaredIn rest

/-- The name that a line declares. -/
def declared (line : List Char) : Option (List Char) :=
  match line.dropWhile isSpace with
  | '#' :: comment => declaredIn comment
  | _ => none

/-- Whether a line holds nothing or only a comment. -/
def isBare (line : List Char) : Bool :=
  match line.dropWhile isSpace with
  | [] => true
  | c :: _ => c = '#' || c = '\r' || c = '\n'

/-! ## Names -/

/-- How many characters of a name tell the usual encodings apart. -/
def significantLength : Nat := 12

/-- Lower case, and hyphens for underscores. -/
def plainName (name : List Char) : List Char :=
  name.map fun c => if c = '_' then '-' else c.toLower

/-- Whether a name is the given one or goes on after it with a hyphen. -/
def isOrExtends (base : String) (name : List Char) : Bool :=
  name = base.toList || (base.toList ++ ['-']).isPrefixOf name

/-- The encoding that a name stands for, and whether the name is the usual one of UTF-8. -/
def ofName? (name : List Char) : Option (Encoding × Bool) :=
  let short := plainName (name.take significantLength)
  if isOrExtends "utf-8" short then some (.utf8, true)
  else if ["latin-1", "iso-8859-1", "iso-latin-1"].any (isOrExtends · short) then
    some (.latin1, false)
  else
    let whole := plainName name
    if whole = "utf8".toList then some (.utf8, false)
    else if whole = "latin1".toList then some (.latin1, false)
    else if whole = "ascii".toList ∨ whole = "us-ascii".toList then some (.ascii, false)
    else none

/-! ## Detection -/

/-- The first line of some octets and what comes after it; only `\n` ends a line here. -/
def takeLine : List UInt8 → List UInt8 × List UInt8
  | [] => ([], [])
  | b :: rest =>
    if b = 10 then ([b], rest)
    else
      let (line, left) := takeLine rest
      (b :: line, left)

/-- The encoding that a line declares. -/
def declaredBy (hasMark : Bool) (line : List UInt8) : Except DecodeError (Option Encoding) :=
  match Text.ofUtf8 line with
  | none => .error .declaration
  | some text =>
    match declared text with
    | none => .ok none
    | some name =>
      match ofName? name with
      | none => .error .declaration
      | some (encoding, isUsual) =>
        if hasMark && !isUsual then .error .declaration else .ok (some encoding)

/-- The octets after a byte order mark, and whether there was one. -/
def dropMark : List UInt8 → List UInt8 × Bool
  | 0xef :: 0xbb :: 0xbf :: rest => (rest, true)
  | octets => (octets, false)

/-- The encoding of a file without its byte order mark. -/
def detect (hasMark : Bool) (octets : List UInt8) : Except DecodeError Encoding :=
  let (line, rest) := takeLine octets
  match declaredBy hasMark line with
  | .error e => .error e
  | .ok (some encoding) => .ok encoding
  | .ok none =>
    if (Text.ofUtf8 line).any isBare then
      (declaredBy hasMark (takeLine rest).1).map (·.getD .utf8)
    else .ok .utf8

/-- The text that octets hold in an encoding. -/
def read (octets : List UInt8) : Encoding → Option (List Char)
  | .utf8 => Text.ofUtf8 octets
  | .latin1 => some (Text.ofLatin1 octets)
  | .ascii => Text.ofAscii octets

/-- The text that a file holds, its line endings as they are. -/
def decode (file : List UInt8) : Except DecodeError (List Char) :=
  let (octets, hasMark) := dropMark file
  match detect hasMark octets with
  | .error e => .error e
  | .ok encoding =>
    match read octets encoding with
    | none => .error .octets
    | some text => .ok text

/-- The text of a file that is read whole. -/
def fileText (file : List UInt8) : Except DecodeError (List Char) :=
  (decode file).map Text.normalizeNewlines

/-- A text without the carriage return at its end. -/
def dropOpenReturn (text : List Char) : List Char :=
  if text.getLast? = some '\r' then text.dropLast else text

/-- The text of a file that is imported. -/
def moduleText (file : List UInt8) : Except DecodeError (List Char) :=
  (decode file).map fun text => Text.normalizeNewlines (dropOpenReturn text)

end Encoding

end CallTrace
