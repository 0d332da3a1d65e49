import CallTrace.Files

/-!
# Where modules lie

The last component of a module's name is sought in a list of directories, one
after the other.  In each the package of that name goes before the module of
that name.  A directory of that name without the file that makes it a package is
a namespace; it counts only if nothing else is found anywhere, and then together
with all others.
-/

namespace CallTrace.Import

/-- Where a module was found. -/
inductive Place
  /-- A file with source text. -/
  | source (file : List Char) (isPackage : Bool)
  /-- Directories whose modules share a name. -/
  | namespaces (directories : List (List Char))
  deriving DecidableEq, Repr

/-- The name of the package that a module lies in. -/
def parent? (name : List Char) : Option (List Char) :=
  if name.contains '.' then some ((name.reverse.dropWhile (· != '.')).drop 1).reverse else none

/-- The last component of a module's name. -/
def lastPart (name : List Char) : List Char :=
  (name.reverse.takeWhile (· != '.')).reverse

/-- The first component of a module's name. -/
def firstPart (name : List Char) : List Char :=
  name.takeWhile (· != '.')

/-- The file in the directory of a package that makes it one. -/
def packageFile : List Char := "__init__.py".toList

/-- How the names of files with source text end. -/
def sourceEnding : List Char := ".py".toList

/-- A file or directory in a directory. -/
def entry (directory name : List Char) : List Char :=
  Path.dropSlashes directory ++ '/' :: name

/-- What a directory holds under the last component of a name. -/
def inDirectory (files : FileTree) (here directory part : List Char) : Option Place :=
  let base := entry directory part
  let package := entry base packageFile
  let module := base ++ sourceEnding
  if !part.isEmpty && files.isFile here package then some (.source package true)
  else if files.isFile here module then some (.source module false)
  else if !part.isEmpty && files.isDirectory here base then some (.namespaces [base])
  else none

/-- Where a module lies, if it is sought in the given directories. -/
def search (files : FileTree) (here part : List Char) : List (List Char) → Option Place
  | [] => none
  | directory :: rest =>
    match inDirectory files here directory part, search files here part rest with
    | some (.source file isPackage), _ => some (.source file isPackage)
    | some (.namespaces found), some (.namespaces others) => some (.namespaces (found ++ others))
    | some (.namespaces found), none => some (.namespaces found)
    | _, later => later

end CallTrace.Import
