import CallTrace.Import.Hook
import CallTrace.Import.Search
import CallTrace.Instrument.Load

/-!
# Importing modules

An import loads the package around a module first.  The load hook is asked for
the module before anything else; it takes the module if a source file is found
for it that is in scope, and then the instrumented text is loaded in place of
the file's own.  Loading runs the imports at the top of the text, in their order.

A module that is being loaded counts as loaded, so that modules may import each
other; one whose loading fails is forgotten, and the next import tries again.
-/

namespace CallTrace.Import

open Syntax

/-- A module that is loaded or being loaded. -/
structure Module where
  name : List Char
  /-- Its source file. -/
  file : Option (List Char)
  /-- Where the modules in it are sought, if it is a package. -/
  directories : Option (List (List Char))
  isInstrumented : Bool
  deriving DecidableEq, Repr

/-- Why an import fails. -/
inductive Failure
  | notFound (name : List Char)
  /-- The module around the one sought is no package. -/
  | notPackage (name parent : List Char)
  /-- The file cannot be loaded. -/
  | unloadable (file : List Char) (error : Instrument.LoadError)
  /-- Imports are nested too deeply. -/
  | tooDeep
  deriving DecidableEq, Repr

/-- What a module that is not found is reported as. -/
def notFoundMessage (name : List Char) : List Char :=
  "No module named ".toList ++ Text.quote name

/-- What a module in something that is no package is reported as. -/
def notPackageMessage (name parent : List Char) : List Char :=
  notFoundMessage name ++ "; ".toList ++ Text.quote parent ++ " is not a package".toList

/-- What does not change while modules are imported. -/
structure Setting where
  files : FileTree
  /-- The current directory. -/
  directory : List Char
  /-- The directories in which modules outside of packages are sought. -/
  searchPath : List (List Char)
  contexts : Owner → Option Context

/-- A text that was loaded in place of a file's own. -/
structure Rewritten where
  owner : Owner
  file : List Char
  text : List Char
  deriving DecidableEq, Repr

/-- The state that imports change. -/
structure Session where
  finders : Finders
  modules : List Module
  /-- What was loaded in place of files' own texts, in this order. -/
  rewritten : List Rewritten
  logs : List LogRecord

/-- The modules that are there before anything is imported. -/
def presentModules : List (List Char) :=
  ["sys", "builtins", "os", "os.path",
   "tracehook", "tracehook.source", "tracehook.matcher", "tracehook.context", "tracehook.rewriter",
   "tracehook.sink", "tracehook.runtime", "tracehook.registry", "tracehook.hook"].map String.toList

/-- The module whose import puts in the usual load hook. -/
def installingModule : List Char := "tracehook.auto".toList

namespace Session

def start : Session :=
  ⟨.start, presentModules.map fun name => ⟨name, none, none, false⟩, [], []⟩

/-- Forgets what was logged and rewritten, but not what is loaded. -/
def fresh (s : Session) : Session := { s with rewritten := [], logs := [] }

def log (s : Session) (r : LogRecord) : Session := { s with logs := s.logs ++ [r] }

/-- The module of a name. -/
def module? (s : Session) (name : List Char) : Option Module :=
  s.modules.find? (·.name = name)

def add (s : Session) (m : Module) : Session := { s with modules := s.modules ++ [m] }

def forget (s : Session) (name : List Char) : Session :=
  { s with modules := s.modules.filter (·.name != name) }

/-- Puts in the load hook of a context. -/
def install (s : Session) (setting : Setting) (o : Owner) : Bool × Session :=
  match setting.contexts o with
  | none => (false, s)
  | some context =>
    let (isNew, finders) := s.finders.install o
    (isNew, { s with finders }.log (if isNew then installedNotice context else refusedNotice))

end Session

/-! ## The load hook's answer -/

/-- The place of a module that is to be instrumented. -/
structure Spec where
  name : List Char
  file : List Char
  isPackage : Bool
  deriving DecidableEq, Repr

/-- What a context's load hook finds in the given directories. -/
def Context.find? (c : Context) (setting : Setting) (name : List Char)
    (directories : List (List Char)) : Option Spec :=
  if !mayInstrument name then none
  else
    match search setting.files setting.directory (lastPart name) directories with
    | some (.source file isPackage) =>
      if c.scope.covers setting.directory (some file) then some ⟨name, file, isPackage⟩ else none
    | _ => none

/-- What a context's load hook answers, the log included. -/
def Session.findSpec (s : Session) (setting : Setting) (o : Owner) (name : List Char)
    (directories : List (List Char)) : Option Spec × Session :=
  match (setting.contexts o).bind (·.find? setting name directories) with
  | none => (none, s)
  | some spec => (some spec, s.log (foundNotice spec.name spec.file))

/-! ## Loading -/

/-- The names that the import statements at the top of a text ask for, in their order. -/
def importedNames (text : List Char) : List (List Char) :=
  match Source.parse text with
  | .error _ => []
  | .ok source =>
    ((source.tree.field .body).filter (·.is .importStmt)).flatMap fun statement =>
      (statement.field .names).map fun item =>
        let words := (item.field .name).filterMap fun
          | .leaf _ (.word w) => some w
          | _ => none
        words.intersperse ['.'] |>.flatten

/-- How a module is imported. -/
abbrev Importer := List Char → Session → Except Failure Unit × Session

/-- Runs import statements: each imports a module and, if it is not there, its outermost package. -/
def runImports (next : Importer) : List (List Char) → Session → Except Failure Unit × Session
  | [], s => (.ok (), s)
  | name :: rest, s =>
    match next name s with
    | (.error e, s) => (.error e, s)
    | (.ok _, s) =>
      match next (firstPart name) s with
      | (.error e, s) => (.error e, s)
      | (.ok _, s) => runImports next rest s

/-- Loads a module with the given text, and forgets it again if that fails. -/
def execute (next : Importer) (m : Module) (text : List Char) (s : Session) :
    Except Failure Unit × Session :=
  match runImports next (importedNames text) (s.add m) with
  | (.error e, s) => (.error e, s.forget m.name)
  | (.ok _, s) => (.ok (), s)

/-- The directories of a package's modules. -/
def packageDirectories (file : List Char) (isPackage : Bool) : Option (List (List Char)) :=
  if isPackage then some [Path.parent file] else none

/-- Loads the module of a spec in its instrumented form. -/
def loadInstrumented (setting : Setting) (next : Importer) (o : Owner) (spec : Spec) (s : Session) :
    Except Failure Unit × Session :=
  let octets := (setting.files.read? setting.directory spec.file).getD []
  let options := ((setting.contexts o).map (·.options)).getD {}
  match Instrument.loadLogged options spec.file (.octets octets) with
  | .error e => (.error (.unloadable spec.file e), s)
  | .ok (text, logs) =>
    let s := { s with
      logs := s.logs ++ logs
      rewritten := s.rewritten ++ [⟨o, spec.file, text⟩] }
    execute next ⟨spec.name, some spec.file, packageDirectories spec.file spec.isPackage, true⟩ text s

/-- The text of a file that is loaded as it is.  A null octet is found before the octets are decoded,
and octets that do not fit their encoding are no program. -/
def plainText (octets : List UInt8) : Except Instrument.LoadError (List Char) :=
  if octets.contains 0 then .error (.rewrite (.parse .nullCharacter))
  else match Encoding.moduleText octets with
    | .error _ => .error (.rewrite (.parse .invalid))
    | .ok text =>
      match Source.parse text with
      | .error e => .error (.rewrite (.parse e))
      | .ok _ => .ok text

/-- Loads a module as it is. -/
def loadPlain (setting : Setting) (next : Importer) (name : List Char) (s : Session) :
    Place → Except Failure Unit × Session
  | .source file isPackage =>
    match plainText ((setting.files.read? setting.directory file).getD []) with
    | .error e => (.error (.unloadable file e), s)
    | .ok text => execute next ⟨name, some file, packageDirectories file isPackage, false⟩ text s
  | .namespaces directories => (.ok (), s.add ⟨name, none, some directories, false⟩)

/-- Seeks a module in the given directories and loads it; the load hook is asked first. -/
def findAndLoad (setting : Setting) (next : Importer) (name : List Char)
    (directories : List (List Char)) (s : Session) : Except Failure Unit × Session :=
  let hooked : Option (Owner × Spec) × Session :=
    match s.finders.owner? with
    | none => (none, s)
    | some o =>
      let (spec, s) := s.findSpec setting o name directories
      (spec.map (o, ·), s)
  match hooked with
  | (some (o, spec), s) => loadInstrumented setting next o spec s
  | (none, s) =>
    match search setting.files setting.directory (lastPart name) directories with
    | some place => loadPlain setting next name s place
    | none => (.error (.notFound name), s)

/-- Imports a module; imports nested deeper than `depth` fail. -/
def importWithin (setting : Setting) : Nat → Importer
  | 0, _, s => (.error .tooDeep, s)
  | depth + 1, name, s =>
    if (s.module? name).isSome then (.ok (), s)
    else if name = installingModule then
      (.ok (), (s.install setting .usual).2.add ⟨name, none, none, false⟩)
    else
      let next := importWithin setting depth
      match parent? name with
      | none => findAndLoad setting next name setting.searchPath s
      | some parent =>
        match next parent s with
        | (.error e, s) => (.error e, s)
        | (.ok _, s) =>
          if (s.module? name).isSome then (.ok (), s)
          else match (s.module? parent).bind (·.directories) with
            | none => (.error (.notPackage name parent), s)
            | some directories => findAndLoad setting next name directories s

/-- How deeply imports may be nested. -/
def depthBound : Nat := 300

/-- Imports a module. -/
def importModule (setting : Setting) : Importer := importWithin setting depthBound

/-- Runs the text of a program. -/
def runProgram (setting : Setting) (text : List Char) (s : Session) : Except Failure Unit × Session :=
  runImports (importModule setting) (importedNames text) s

/-- The text of a loaded module as it stands in its file: nothing for a namespace, and `none` for a
module that is not loaded. -/
def sourceOf? (setting : Setting) (s : Session) (name : List Char) :
    Option (Except DecodeError (List Char)) :=
  (s.module? name).map fun m =>
    match m.file with
    | none => .ok []
    | some file => Encoding.moduleText ((setting.files.read? setting.directory file).getD [])

end CallTrace.Import
