/-!
# Paths

A path is a text whose components are separated by slashes.  An absolute path in
normal form begins with one slash, or with exactly two, and holds no empty
component, no `.` and no `..`.

`isUnder_self` says that every path lies under itself.
-/

namespace CallTrace.Path

/-- The components of a path, the empty ones included. -/
def split : List Char → List (List Char)
  | [] => [[]]
  | c :: rest =>
    if c = '/' then [] :: split rest
    else match split rest with
      | [] => [[c]]
      | part :: parts => (c :: part) :: parts

/-- Components with slashes between them. -/
def joinParts : List (List Char) → List Char
  | [] => []
  | [part] => part
  | part :: parts => part ++ '/' :: joinParts parts

def isAbsolute (path : List Char) : Bool := path.head? = some '/'

/-- Goes on from a directory by a path; an absolute path stands for itself. -/
def join (directory path : List Char) : List Char :=
  if isAbsolute path then path
  else if directory.isEmpty || directory.getLast? = some '/' then directory ++ path
  else directory ++ '/' :: path

/-- The slashes that an absolute path begins with: one, or two if there are exactly two. -/
def root (path : List Char) : List Char :=
  match path with
  | '/' :: '/' :: '/' :: _ => ['/']
  | '/' :: '/' :: _ => ['/', '/']
  | '/' :: _ => ['/']
  | _ => []

/-- Adds a component to those of an absolute path, which are given last first. -/
def addPart (parts : List (List Char)) (part : List Char) : List (List Char) :=
  if part.isEmpty || part = ['.'] then parts
  else if part = ['.', '.'] then parts.tail
  else part :: parts

/-- The components of an absolute path in normal form. -/
def normalParts (path : List Char) : List (List Char) :=
  ((split path).foldl addPart []).reverse

/-- The normal form of an absolute path. -/
def normalize (path : List Char) : List Char :=
  root path ++ joinParts (normalParts path)

/-- The absolute path in normal form that a path stands for in a directory. -/
def absolute (directory path : List Char) : List Char :=
  normalize (join directory path)

/-- A path without the slashes at its end. -/
def dropSlashes (path : List Char) : List Char :=
  (path.reverse.dropWhile (· = '/')).reverse

/-- Whether a path is a directory or begins with it and a slash. -/
def isUnder (path directory : List Char) : Bool :=
  path = directory || (dropSlashes directory ++ ['/']).isPrefixOf path

/-- The directory in which a path lies: what stands before its last slash, less the slashes at the end
of that unless it holds nothing else. -/
def parent (path : List Char) : List Char :=
  let head := (path.reverse.dropWhile (· != '/')).reverse
  if head.all (· = '/') then head else dropSlashes head

theorem isUnder_self (path : List Char) : isUnder path path = true := by
  simp [isUnder]

end CallTrace.Path
