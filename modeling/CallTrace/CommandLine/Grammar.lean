import CallTrace.Text.Quoted
import CallTrace.Unicode.DecimalDigit

/-!
# Arguments of a command line

A grammar says which switches a command understands and which slots its other
arguments fill.  A long switch may be abbreviated as long as only one fits, its
value may follow it or stand behind an equals sign, and short switches may be
written together.  After `--` every argument is an ordinary one.

The slots take what they can get whenever ordinary arguments come up; arguments
that no slot takes and switches that are not known are left over.  Switches take
effect in order, so the first request for help or the first fault ends the
reading.
-/

namespace CallTrace.CommandLine

/-- A switch by its names, short before long. -/
structure Switch where
  names : List (List Char)
  takesValue : Bool
  deriving DecidableEq, Repr

/-- The names as they are shown together. -/
def Switch.shown (s : Switch) : List Char :=
  (s.names.intersperse ['/']).flatten

/-- What ordinary arguments are for. -/
inductive Slot
  /-- One argument. -/
  | one
  /-- A word with everything after it. -/
  | command
  /-- Everything that is left. -/
  | rest
  deriving DecidableEq, Repr

/-- What a command understands. -/
structure Grammar where
  switches : List Switch
  slots : List Slot

/-- What is wrong with arguments. -/
inductive Fault
  | ambiguous (argument : List Char) (names : List (List Char))
  | missingValue (s : Switch)
  /-- A value is given to a switch that takes none. -/
  | needlessValue (s : Switch) (value : List Char)
  deriving DecidableEq, Repr

/-- What a fault is reported as. -/
def Fault.message : Fault → List Char
  | .ambiguous argument names =>
    "ambiguous option: ".toList ++ argument ++ " could match ".toList ++
      (names.intersperse [',', ' ']).flatten
  | .missingValue s => "argument ".toList ++ s.shown ++ ": expected one argument".toList
  | .needlessValue s value =>
    "argument ".toList ++ s.shown ++ ": ignored explicit argument ".toList ++ Text.quote value

/-- The switch that asks for help, which every command has. -/
def helpSwitch : Switch := ⟨["-h".toList, "--help".toList], false⟩

/-- Why a reading ends early. -/
inductive Stop
  | help
  | fault (f : Fault)
  deriving DecidableEq, Repr

/-! ## Single arguments -/

/-- An argument read as a switch: the switch if it is known, the name it was called by, and the value
that is part of the argument. -/
structure Reading where
  switch : Option Switch
  name : List Char
  value : Option (List Char)
  deriving DecidableEq, Repr

/-- The mark after which all arguments are ordinary. -/
def dashes : List Char := ['-', '-']

/-- What stands before the first equals sign, and what stands after it if there is one. -/
def splitEquals (text : List Char) : List Char × Option (List Char) :=
  let name := text.takeWhile (· != '=')
  (name, if name.length < text.length then some (text.drop (name.length + 1)) else none)

/-- Whether an argument is a negative number. -/
def isNegativeNumber (text : List Char) : Bool :=
  match text with
  | '-' :: body =>
    let body := if body.getLast? = some '\n' then body.dropLast else body
    let whole := body.takeWhile Unicode.isDecimalDigit
    match body.drop whole.length with
    | [] => !whole.isEmpty
    | c :: fraction => c = '.' && !fraction.isEmpty && fraction.all Unicode.isDecimalDigit
  | _ => false

namespace Grammar

/-- Every name of every switch. -/
def named (g : Grammar) : List (List Char × Switch) :=
  g.switches.flatMap fun s => s.names.map (·, s)

/-- The switch of a name. -/
def switch? (g : Grammar) (name : List Char) : Option Switch :=
  g.named.lookup name

/-- The switches that an argument may abbreviate, or that it begins with. -/
def candidates (g : Grammar) (text : List Char) : List Reading :=
  if dashes.isPrefixOf text then
    let (start, value) := splitEquals text
    (g.named.filter fun (name, _) => start.isPrefixOf name).map fun (name, s) => ⟨some s, name, value⟩
  else
    g.named.filterMap fun (name, s) =>
      if name = text.take 2 then some ⟨some s, name, some (text.drop 2)⟩
      else if text.isPrefixOf name then some ⟨some s, name, none⟩
      else none

/-- An argument read as a switch, or nothing if it is an ordinary one. -/
def read (g : Grammar) (text : List Char) : Except Fault (Option Reading) :=
  if text.head? != some '-' then .ok none
  else match g.switch? text with
    | some s => .ok (some ⟨some s, text, none⟩)
    | none =>
      if text.length = 1 then .ok none
      else
        let (name, value) := splitEquals text
        match g.switch? name with
        | some s => .ok (some ⟨some s, name, value⟩)
        | none =>
          match g.candidates text with
          | [reading] => .ok (some reading)
          | [] =>
            if isNegativeNumber text || text.contains ' ' then .ok none
            else .ok (some ⟨none, text, none⟩)
          | many => .error (.ambiguous text (many.map (·.name)))

end Grammar

/-! ## All arguments -/

/-- What an argument is. -/
inductive Mark
  | ordinary
  /-- The first `--`. -/
  | dashes
  | switch (r : Reading)
  deriving DecidableEq, Repr

/-- An argument with what it is. -/
structure Item where
  text : List Char
  mark : Mark
  deriving DecidableEq, Repr

def Item.isSwitch (i : Item) : Bool :=
  match i.mark with
  | .switch _ => true
  | _ => false

/-- Says of every argument what it is. -/
def Grammar.items (g : Grammar) : List (List Char) → Except Fault (List Item)
  | [] => .ok []
  | text :: rest =>
    if text = CommandLine.dashes then .ok (⟨text, .dashes⟩ :: rest.map (⟨·, .ordinary⟩))
    else
      match g.read text, g.items rest with
      | .error e, _ => .error e
      | _, .error e => .error e
      | .ok none, .ok items => .ok (⟨text, .ordinary⟩ :: items)
      | .ok (some reading), .ok items => .ok (⟨text, .switch reading⟩ :: items)

/-- The items that a slot takes, and the others. -/
def Slot.take (slot : Slot) (items : List Item) : Option (List Item × List Item) :=
  let lead := items.takeWhile (·.mark = .dashes)
  match slot, items.drop lead.length with
  | .rest, _ => some (items, [])
  | _, [] => none
  | .one, word :: others =>
    if word.mark = .ordinary then
      let trail := others.takeWhile (·.mark = .dashes)
      some (lead ++ word :: trail, others.drop trail.length)
    else none
  | .command, word :: _ => if word.mark = .ordinary then some (items, []) else none

/-- The texts that a slot is filled with: a slot for one argument drops one `--`. -/
def Slot.values (slot : Slot) (items : List Item) : List (List Char) :=
  let texts := items.map (·.text)
  if slot = .one then texts.erase dashes else texts

/-- Fills slots one after the other: the fillings, the slots that stay open, and the items left. -/
def fill : List Slot → List Item → List (List (List Char)) × List Slot × List Item
  | [], items => ([], [], items)
  | slot :: slots, items =>
    match slot.take items with
    | none => ([], slot :: slots, items)
    | some (taken, left) =>
      let (fillings, openSlots, left) := fill slots left
      (slot.values taken :: fillings, openSlots, left)

/-- What was found in arguments. -/
structure Found where
  /-- The switches with their values, in order. -/
  switches : List (Switch × Option (List Char))
  fillings : List (List (List Char))
  openSlots : List Slot
  /-- The arguments left over. -/
  extras : List (List Char)
  deriving Repr

/-- The switches that an argument stands for, when the value that is part of it is read as the value of
the first or as further short switches; the last one may still need a value. -/
def Grammar.cluster (g : Grammar) (s : Switch) (isShort : Bool) :
    List Char → Except Fault (List (Switch × Option (List Char)) × Option Switch)
  | [] =>
    if s.takesValue then .ok ([(s, some [])], none) else .error (.needlessValue s [])
  | c :: more =>
    if s.takesValue then .ok ([(s, some (c :: more))], none)
    else if !isShort then .error (.needlessValue s (c :: more))
    else match g.switch? ['-', c] with
      | none => .error (.needlessValue s (c :: more))
      | some t =>
        if more.isEmpty then .ok ([(s, none)], some t)
        else match g.cluster t true more with
          | .error e => .error e
          | .ok (found, last) => .ok ((s, none) :: found, last)

/-- The switches that an argument stands for, and how many of the items after it are their values. -/
def Grammar.expand (g : Grammar) (s : Switch) (r : Reading) (after : List Item) :
    Except Fault (List (Switch × Option (List Char)) × Nat) :=
  let split : Except Fault (List (Switch × Option (List Char)) × Option Switch) := match r.value with
    | none => .ok ([], some s)
    | some value => g.cluster s (!dashes.isPrefixOf r.name) value
  match split with
  | .error e => .error e
  | .ok (found, none) => .ok (found, 0)
  | .ok (found, some last) =>
    if last.takesValue then
      match after with
      | next :: _ =>
        if next.mark = .ordinary then .ok (found ++ [(last, some next.text)], 1)
        else .error (.missingValue last)
      | [] => .error (.missingValue last)
    else .ok (found ++ [(last, none)], 0)

/-- Goes through the items. -/
def Grammar.collect (g : Grammar) (found : Found) (items : List Item) : Except Stop Found :=
  let (fillings, openSlots, left) := fill found.openSlots items
  let filled : Found := { found with fillings := found.fillings ++ fillings, openSlots }
  match _ : items with
  | [] => .ok filled
  | item :: rest =>
    if items.all (!·.isSwitch) then .ok { filled with extras := found.extras ++ left.map (·.text) }
    else
      match item.mark with
      | .switch reading =>
        match reading.switch with
        | none => g.collect { found with extras := found.extras ++ [item.text] } rest
        | some s =>
          match g.expand s reading rest with
          | .error e => .error (.fault e)
          | .ok (switches, used) =>
            if switches.any (·.1 = helpSwitch) then .error .help
            else g.collect { found with switches := found.switches ++ switches } (rest.drop used)
      | _ =>
        if _ : left.length < items.length then g.collect filled left
        else g.collect { found with extras := found.extras ++ [item.text] } rest
termination_by items.length
decreasing_by
  all_goals
    subst_vars
    simp only [List.length_cons, List.length_drop] at *
    omega

/-- Reads the arguments of a command. -/
def Grammar.parse (g : Grammar) (arguments : List (List Char)) : Except Stop Found :=
  match g.items arguments with
  | .error e => .error (.fault e)
  | .ok items => g.collect ⟨[], [], g.slots, []⟩ items

end CallTrace.CommandLine
