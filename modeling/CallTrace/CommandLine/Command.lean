import CallTrace.CommandLine.Grammar
import CallTrace.Instrument.Options

/-!
# The commands of the program

`run` runs a script with the load hook put in, and `rewrite` prints the
instrumented text of a file.  The options of instrumentation stand before the
command.
-/

namespace CallTrace.CommandLine

/-- What the program is asked to do. -/
inductive Command
  | run (roots : Option (List (List Char))) (script : List Char) (arguments : List (List Char))
  | rewrite (path : List Char)
  deriving DecidableEq, Repr

/-- A command with the options that stand before it. -/
structure Invocation where
  options : Options
  isVerbose : Bool
  command : Command
  deriving DecidableEq, Repr

/-- A text that is shown in place of carrying out a command. -/
inductive Notice
  | help (text : List Char)
  | complaint (text : List Char)
  deriving DecidableEq, Repr

/-- Lines as a text. -/
def ofLines (lines : List String) : List Char :=
  lines.flatMap fun line => line.toList ++ ['\n']

/-! ## Help texts -/

/-- The name of the program. -/
def program : List Char := "tracehook".toList

def mainUsage : List Char := ofLines
  ["usage: tracehook [-h] [--indent INDENT] [--monotonic-depth] [--trace-lambdas]",
   "                 [-v]",
   "                 \x7brun,rewrite\x7d ..."]

def mainHelp : List Char := mainUsage ++ ofLines
  ["",
   "Trace entry and exit of every function in loaded modules.",
   "",
   "positional arguments:",
   "  \x7brun,rewrite\x7d",
   "    run              run a script with the load hook installed",
   "    rewrite          print the rewritten source of a file",
   "",
   "options:",
   "  -h, --help         show this help message and exit",
   "  --indent INDENT    indentation per depth level (default: two spaces)",
   "  --monotonic-depth  indent by visit order instead of nesting",
   "  --trace-lambdas    also instrument lambda expressions",
   "  -v, --verbose      log what gets instrumented"]

def runUsage : List Char := ofLines ["usage: tracehook run [-h] [--root DIR] script ..."]

def runHelp : List Char := runUsage ++ ofLines
  ["",
   "positional arguments:",
   "  script",
   "  args",
   "",
   "options:",
   "  -h, --help  show this help message and exit",
   "  --root DIR  only rewrite modules below DIR (repeatable)"]

def rewriteUsage : List Char := ofLines ["usage: tracehook rewrite [-h] path"]

def rewriteHelp : List Char := rewriteUsage ++ ofLines
  ["",
   "positional arguments:",
   "  path",
   "",
   "options:",
   "  -h, --help  show this help message and exit"]

/-! ## Grammars -/

def indentSwitch : Switch := ⟨["--indent".toList], true⟩

def monotonicSwitch : Switch := ⟨["--monotonic-depth".toList], false⟩

def lambdasSwitch : Switch := ⟨["--trace-lambdas".toList], false⟩

def verboseSwitch : Switch := ⟨["-v".toList, "--verbose".toList], false⟩

def rootSwitch : Switch := ⟨["--root".toList], true⟩

/-- A command with its grammar and its texts. -/
structure Section where
  name : List Char
  usage : List Char
  help : List Char
  grammar : Grammar
  /-- What the slots are called, in order. -/
  slotNames : List String

def mainSection : Section :=
  ⟨program, mainUsage, mainHelp,
   ⟨[helpSwitch, indentSwitch, monotonicSwitch, lambdasSwitch, verboseSwitch], [.command]⟩,
   ["command"]⟩

def runSection : Section :=
  ⟨program ++ " run".toList, runUsage, runHelp, ⟨[helpSwitch, rootSwitch], [.one, .rest]⟩,
   ["script", "args"]⟩

def rewriteSection : Section :=
  ⟨program ++ " rewrite".toList, rewriteUsage, rewriteHelp, ⟨[helpSwitch], [.one]⟩, ["path"]⟩

/-- The words of the commands. -/
def commandWords : List (List Char) := ["run".toList, "rewrite".toList]

/-! ## Reading -/

/-- What is shown when something is wrong. -/
def Section.complaint (s : Section) (message : List Char) : List Char :=
  s.usage ++ s.name ++ ": error: ".toList ++ message ++ ['\n']

/-- Reads the arguments of a command, all of whose slots must be filled. -/
def Section.parse (s : Section) (arguments : List (List Char)) : Except Notice Found :=
  match s.grammar.parse arguments with
  | .error .help => .error (.help s.help)
  | .error (.fault f) => .error (.complaint (s.complaint f.message))
  | .ok found =>
    if found.openSlots.isEmpty then .ok found
    else
      let missing := s.slotNames.drop found.fillings.length
      .error (.complaint (s.complaint ("the following arguments are required: ".toList ++
        ((missing.map String.toList).intersperse [',', ' ']).flatten)))

/-- The values that were given to a switch, in order. -/
def Found.valuesOf (f : Found) (s : Switch) : List (List Char) :=
  f.switches.filterMap fun (t, value) => if t = s then value else none

/-- Whether a switch was given. -/
def Found.has (f : Found) (s : Switch) : Bool :=
  f.switches.any (·.1 = s)

/-- The complaint that a word is no command. -/
def unknownCommand (word : List Char) : Notice :=
  .complaint (mainSection.complaint ("argument command: invalid choice: ".toList ++
    Text.quote word ++ " (choose from ".toList ++
    ((commandWords.map Text.quote).intersperse [',', ' ']).flatten ++ [')']))

/-- Reads the arguments of the command `run`. -/
def readRun (arguments : List (List Char)) : Except Notice (Command × List (List Char)) :=
  match runSection.parse arguments with
  | .error n => .error n
  | .ok found =>
    let roots := match found.valuesOf rootSwitch with
      | [] => none
      | values => some values
    match found.fillings with
    | script :: rest :: _ => .ok (.run roots (script.headD []) rest, found.extras)
    | script :: _ => .ok (.run roots (script.headD []) [], found.extras)
    | [] => .ok (.run roots [] [], found.extras)

/-- Reads the arguments of the command `rewrite`. -/
def readRewrite (arguments : List (List Char)) : Except Notice (Command × List (List Char)) :=
  match rewriteSection.parse arguments with
  | .error n => .error n
  | .ok found => .ok (.rewrite (found.fillings.flatten.headD []), found.extras)

/-- Reads the command and its arguments: the command, and the arguments that are left over. -/
def readCommand (words : List (List Char)) : Except Notice (Command × List (List Char)) :=
  match words with
  | [] => .error (unknownCommand [])
  | word :: arguments =>
    if word = "run".toList then readRun arguments
    else if word = "rewrite".toList then readRewrite arguments
    else .error (unknownCommand word)

/-- The options of instrumentation that were given. -/
def Found.options (f : Found) : Options :=
  { indentUnit := (f.valuesOf indentSwitch).getLastD ({} : Options).indentUnit
    monotonicDepth := f.has monotonicSwitch
    traceLambdas := f.has lambdasSwitch }

/-- Reads the arguments of the program. -/
def readInvocation (arguments : List (List Char)) : Except Notice Invocation :=
  match mainSection.parse arguments with
  | .error n => .error n
  | .ok found =>
    match readCommand found.fillings.flatten with
    | .error n => .error n
    | .ok (command, extras) =>
      match found.extras ++ extras with
      | [] => .ok ⟨found.options, found.has verboseSwitch, command⟩
      | unknown => .error (.complaint (mainSection.complaint
          ("unrecognized arguments: ".toList ++ (unknown.intersperse [' ']).flatten)))

end CallTrace.CommandLine
