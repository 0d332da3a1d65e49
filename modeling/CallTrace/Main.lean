import CallTrace.CommandLine.Run

/-!
# The program

Reads the files that a command needs, carries the command out and prints what
comes of it.  A script is not executed: of what it does, its imports are
followed.
-/

namespace CallTrace.Main

open CommandLine

/-- An entry of a tree of files. -/
abbrev Entry := List (List Char) × Option (List UInt8)

/-- The directories along a path and the file at its end, as far as they are there. -/
def along (here path : List Char) : IO (List Entry) := do
  let start ← IO.currentDir
  let parts := Path.split (Path.join here path)
  let mut found : List Entry := [(Path.normalParts here, none)]
  for n in List.range parts.length do
    let step := Path.joinParts (parts.take (n + 1))
    let place := start / String.ofList step
    let entry := Path.normalParts (Path.join here step)
    if ← place.isDir then found := (entry, none) :: found
    else if ← place.pathExists then
      found := (entry, some (← IO.FS.readBinFile place).toList) :: found
  return found

/-- The source files below a directory, links left out. -/
partial def below (directory : List Char) : IO (List Entry) := do
  let place := (← IO.currentDir) / String.ofList directory
  let mut found : List Entry := []
  for e in ← place.readDir do
    let path := Path.join directory e.fileName.toList
    match (← e.path.symlinkMetadata).type with
    | .dir => found := (Path.normalParts path, none) :: (← below path) ++ found
    | .file =>
      if e.fileName.endsWith ".py" then
        found := (Path.normalParts path, some (← IO.FS.readBinFile e.path).toList) :: found
    | _ => pure ()
  return found

/-- The files that a command needs. -/
def gather (here : List Char) : Command → IO FileTree
  | .rewrite path => return ⟨← along here path⟩
  | .run _ script _ => do
    let nearby ← below (Path.parent (Path.absolute here script))
    return ⟨(← along here script) ++ nearby⟩

/-- Calls the program. -/
def call (here : List Char) (arguments : List (List Char)) : IO UInt32 := do
  let files ← match readInvocation arguments with
    | .ok invocation => gather here invocation.command
    | .error _ => pure ⟨[]⟩
  let library : Library := ⟨[], []⟩
  let setting : Import.Setting :=
    { files, directory := here, searchPath := []
      contexts := fun _ => some ⟨{}, Scope.ofRoots here library none⟩ }
  let outcome := CommandLine.call library arguments ⟨setting, .start, program :: arguments⟩
  (← IO.getStdout).putStr (String.ofList outcome.output)
  (← IO.getStderr).putStr (String.ofList outcome.messages)
  match outcome.result with
  | .ok status => return status.toUInt32
  | .error e =>
    (← IO.getStderr).putStr (String.ofList (e.shown ++ ['\n']))
    return 1

end CallTrace.Main

/-- Runs the program on the arguments of the command line. -/
def main (arguments : List String) : IO UInt32 := do
  let here ← IO.currentDir
  CallTrace.Main.call here.toString.toList (arguments.map String.toList)
