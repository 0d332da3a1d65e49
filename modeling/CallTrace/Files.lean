import CallTrace.Path

/-!
# Trees of files

The files that can be read, by the components of their absolute paths.  A
directory is there if something lies in it, or if it is named itself.

A path is followed component by component, and every component but the last must
lead to a directory: `d/..` leads nowhere if there is no `d`.
-/

namespace CallTrace

/-- The files with their contents, and the directories that are named themselves. -/
structure FileTree where
  entries : List (List (List Char) × Option (List UInt8))

namespace FileTree

/-- The content of the file with the given components. -/
def content? (t : FileTree) (parts : List (List Char)) : Option (List UInt8) :=
  (t.entries.find? fun e => e.1 = parts && e.2.isSome).bind (·.2)

/-- Whether the components are those of a directory. -/
def isDirectoryAt (t : FileTree) (parts : List (List Char)) : Bool :=
  parts.isEmpty || t.entries.any fun (other, content) =>
    parts.isPrefixOf other && (content.isNone || parts.length < other.length)

/-- The components to which steps lead from the given ones, if each of them can be taken. -/
def follow (t : FileTree) (here : List (List Char)) : List (List Char) → Option (List (List Char))
  | [] => some here
  | step :: rest =>
    if !t.isDirectoryAt here then none
    else if step.isEmpty || step = ['.'] then t.follow here rest
    else if step = ['.', '.'] then t.follow here.dropLast rest
    else
      let next := here ++ [step]
      if t.isDirectoryAt next || (t.content? next).isSome then t.follow next rest else none

/-- The components to which a path leads in a directory. -/
def locate (t : FileTree) (directory path : List Char) : Option (List (List Char)) :=
  t.follow [] (Path.split (Path.join directory path))

/-- The content of the file at a path. -/
def read? (t : FileTree) (directory path : List Char) : Option (List UInt8) :=
  if path.isEmpty then none else (t.locate directory path).bind t.content?

/-- Whether a path leads to a file. -/
def isFile (t : FileTree) (directory path : List Char) : Bool :=
  (t.read? directory path).isSome

/-- Whether a path leads to a directory. -/
def isDirectory (t : FileTree) (directory path : List Char) : Bool :=
  !path.isEmpty && (t.locate directory path).any t.isDirectoryAt

end FileTree

end CallTrace
