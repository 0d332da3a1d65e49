import CallTrace.CommandLine.Command
import CallTrace.Import.Session

/-!
# Carrying out a command

What a call of the program prints, how it ends and what it leaves behind.  The
log goes to the same place as complaints; without being asked for more, it shows
warnings only.
-/

namespace CallTrace.CommandLine

/-- What ends the program with an error of its own. -/
inductive Failure
  | decode (error : DecodeError)
  /-- A text cannot be instrumented; the file is named as the log names it. -/
  | rewrite (file : List Char) (error : Instrument.RewriteError)
  | imports (error : Import.Failure)
  deriving DecidableEq, Repr

/-- What a failure is reported as to the user. -/
def Failure.shown : Failure → List Char
  | .decode .declaration => "invalid or unknown encoding".toList
  | .decode .octets => "text does not fit its encoding".toList
  | .rewrite file (.parse .nullCharacter) => file ++ ": ".toList ++ ParseError.nullMessage
  | .rewrite file (.parse .invalid) => file ++ ": invalid syntax".toList
  | .rewrite file (.overlap e) => file ++ ": ".toList ++ e.message
  | .imports (.notFound name) => Import.notFoundMessage name
  | .imports (.notPackage name parent) => Import.notPackageMessage name parent
  | .imports (.unloadable file _) => file ++ ": cannot be loaded".toList
  | .imports .tooDeep => "imports are nested too deeply".toList

/-- The state in which the program is called, and the one in which it ends. -/
structure World where
  setting : Import.Setting
  session : Import.Session
  /-- The arguments that a program sees, its own name first. -/
  arguments : List (List Char)

/-- What a call comes to. -/
structure Outcome where
  /-- The exit status. -/
  result : Except Failure Nat
  /-- What is printed. -/
  output : List Char
  /-- Complaints and the log. -/
  messages : List Char
  world : World

/-- The logger of the program. -/
def logger : List Char := "tracehook.cli".toList

/-- The exit status after a complaint. -/
def complaintStatus : Nat := 2

/-- The name of a level. -/
def levelName (level : Nat) : List Char :=
  if level < LogRecord.warningLevel then "DEBUG".toList else "WARNING".toList

/-- The lines that the log shows. -/
def logLines (isVerbose : Bool) (logs : List LogRecord) : List Char :=
  let least := if isVerbose then LogRecord.debugLevel else LogRecord.warningLevel
  (logs.filter (least ≤ ·.level)).flatMap fun r =>
    levelName r.level ++ ' ' :: r.logger ++ ": ".toList ++ r.message ++ ['\n']

/-- The text of a file that is read whole. -/
def readText (setting : Import.Setting) (path : List Char) : Except Failure (List Char) :=
  (Encoding.fileText ((setting.files.read? setting.directory path).getD [])).mapError .decode

/-- The instrumented text of a file, with what the log says of it. -/
def instrumentFile (setting : Import.Setting) (o : Options) (path : List Char) :
    Except Failure (List Char × List Char × List LogRecord) :=
  match readText setting path with
  | .error e => .error e
  | .ok text =>
    match Instrument.rewriteLogged o path text with
    | .error e => .error (.rewrite path e)
    | .ok (rewritten, logs) => .ok (text, rewritten, logs)

/-- The context of the program's own load hook. -/
def ownContext : Import.Owner := .named logger

/-- The setting with the program's own context, and with a script's directory searched first. -/
def ownSetting (setting : Import.Setting) (o : Options) (library : Library)
    (roots : Option (List (List Char))) (script : List Char) : Import.Setting :=
  { setting with
    searchPath := Path.parent script :: setting.searchPath
    contexts := fun owner =>
      if owner = ownContext then some ⟨o, Scope.ofRoots setting.directory library roots⟩
      else setting.contexts owner }

/-- The notice that a script runs under a load hook that was there before. -/
def foreignHookNotice (script : List Char) : LogRecord :=
  .debug logger (script ++
    " runs under the load hook that was already installed; its options apply to imports".toList)

/-- Runs a script: its own text is instrumented, then the load hook is put in, then it runs. -/
def runScript (library : Library) (o : Options) (roots : Option (List (List Char)))
    (path : List Char) (arguments : List (List Char)) (w : World) : Except Failure Unit × World :=
  let script := Path.absolute w.setting.directory path
  let session := w.session.log (.debug logger ("running ".toList ++ path ++ " with load hook".toList))
  match instrumentFile w.setting o script with
  | .error e => (.error e, { w with session })
  | .ok (text, _, logs) =>
    let setting := ownSetting w.setting o library roots script
    let session := { session with logs := session.logs ++ logs }
    let (isNew, session) := session.install setting ownContext
    let session := if isNew then session else session.log (foreignHookNotice script)
    let (outcome, session) := Import.runProgram setting text session
    (outcome.mapError .imports, ⟨setting, session, script :: arguments⟩)

/-- Carries out a call of the program with the given arguments. -/
def call (library : Library) (arguments : List (List Char)) (w : World) : Outcome :=
  match readInvocation arguments with
  | .error (.help text) => ⟨.ok 0, text, [], w⟩
  | .error (.complaint text) => ⟨.ok complaintStatus, [], text, w⟩
  | .ok invocation =>
    let path := match invocation.command with
      | .run _ script _ => script
      | .rewrite path => path
    if !w.setting.files.isFile w.setting.directory path then
      ⟨.ok complaintStatus, [], mainSection.complaint ("no such file: ".toList ++ path), w⟩
    else
      match invocation.command with
      | .rewrite path =>
        match instrumentFile w.setting invocation.options path with
        | .error e => ⟨.error e, [], [], w⟩
        | .ok (_, rewritten, logs) => ⟨.ok 0, rewritten, logLines invocation.isVerbose logs, w⟩
      | .run roots script rest =>
        let (outcome, w) := runScript library invocation.options roots script rest w
        ⟨outcome.map fun _ => 0, [], logLines invocation.isVerbose w.session.logs, w⟩

end CallTrace.CommandLine
