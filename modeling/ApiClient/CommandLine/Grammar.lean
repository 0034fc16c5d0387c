import ApiClient.Text.Split

/-!
# Grammars of command lines

A `Level` says which arguments and commands the words of a command line may stand for.

* `Word.ofText`: a word is a long name, a group of short names, the mark after which all words stand
  for themselves, or plain.
* `Level.read`: matches words with arguments, up to the command that follows, if any.

A value that follows its name in a word of its own, or that is known by its place, is `pending`
until the next argument is found, and checked only then. A word that no argument fits is refused
before that.
-/

namespace ApiClient.CommandLine

/-- Why a command line gives nothing to run. -/
inductive Fault where
  | missingArgument
  | unknownArgument
  | invalidValue
  | unknownCommand
  | missingCommand
  | conflict
  | tooManyValues
  /-- Help is asked for. -/
  | help
  /-- There are no words. -/
  | noWords
  /-- The version is asked for. -/
  | version
  deriving DecidableEq, Repr

/-- What an argument is for. -/
inductive Role where
  | help
  | version
  /-- It is there or not. -/
  | switch
  /-- It has one value, which must be an accepted one. -/
  | single (accepts : String → Bool)
  /-- It may be repeated, and each value is a list with commas. -/
  | list

/-- The argument has values. -/
def Role.takesValue : Role → Bool
  | .single _ | .list => true
  | _ => false

/-- An argument that is known by its names or by its place. -/
structure Argument where
  name : String
  short : Option Char
  role : Role

/-- The arguments and commands that words may stand for. -/
structure Level where
  named : List Argument
  placed : List Argument
  commands : List String

/-! ## Words -/

/-- What a word looks like. -/
inductive Word where
  /-- From here on all words stand for themselves. -/
  | mark
  | long (name : List Char) (value : Option (List Char))
  | short (names : List Char)
  | plain

/-- The looks of a word. A single dash is plain. -/
def Word.ofText (text : String) : Word :=
  match text.toList with
  | ['-', '-'] => .mark
  | '-' :: '-' :: cs =>
    let name := cs.takeWhile (· != '=')
    match cs.drop name.length with
    | _ :: value => .long name (some value)
    | [] => .long name none
  | '-' :: c :: cs => .short (c :: cs)
  | _ => .plain

/-! ## Matches -/

/-- The arguments that were found, with their values in order. -/
structure Matches where
  found : List (String × List String)
  /-- An argument whose value is not checked, or not read yet. -/
  pending : Option (Argument × List String)

namespace Matches

/-- No arguments. -/
def empty : Matches := ⟨[], none⟩

/-- The argument was found. -/
def has (m : Matches) (name : String) : Bool :=
  m.found.any (·.1 == name)

/-- All values of an argument in order. -/
def values (m : Matches) (name : String) : List String :=
  (m.found.filter (·.1 == name)).flatMap (·.2)

/-- The value of an argument. -/
def value? (m : Matches) (name : String) : Option String :=
  (m.values name).head?

/-- A name stands before, and its value is still to come. -/
def isWaiting (m : Matches) : Bool :=
  match m.pending with
  | some (_, []) => true
  | _ => false

/-- Adds a found argument. -/
def add (m : Matches) (a : Argument) (values : List String) : Matches :=
  { m with found := m.found ++ [(a.name, values)] }

/-- Adds an argument that may not be repeated. -/
def addOnce (m : Matches) (a : Argument) (values : List String) : Except Fault Matches :=
  if m.has a.name then .error .conflict else .ok (m.add a values)

/-- Checks an argument with its values and adds it. -/
def accept (m : Matches) (a : Argument) (values : List String) : Except Fault Matches :=
  match a.role, values with
  | .help, _ => .error .help
  | .version, _ => .error .version
  | .switch, _ => m.addOnce a []
  | .single accepts, [v] => do
    let m ← m.addOnce a [v]
    if accepts v then .ok m else .error .invalidValue
  | .list, [v] => .ok (m.add a ((Text.splitOn ',' v.toList).map String.ofList))
  | _, _ => .error .invalidValue

/-- Checks and adds the pending argument. -/
def settle (m : Matches) : Except Fault Matches :=
  match m.pending with
  | none => .ok m
  | some (a, values) => { m with pending := none }.accept a values

/-- Adds an argument that is complete. -/
def take (m : Matches) (a : Argument) (values : List String) : Except Fault Matches := do
  (← m.settle).accept a values

/-- Adds an argument whose value is checked later. -/
def postpone (m : Matches) (a : Argument) (values : List String) : Except Fault Matches := do
  .ok { ← m.settle with pending := some (a, values) }

/-- Gives the waiting argument its value. -/
def supply (m : Matches) (value : String) : Matches :=
  { m with pending := m.pending.map fun p => (p.1, [value]) }

end Matches

/-! ## Reading -/

namespace Level

/-- Reads a long name, perhaps with a value. -/
def readLong (g : Level) (m : Matches) (name : List Char) (value : Option (List Char)) :
    Except Fault Matches :=
  match g.named.find? (·.name.toList == name) with
  | none => .error .unknownArgument
  | some a =>
    match a.role.takesValue, value with
    | true, some v => m.take a [String.ofList v]
    | true, none => m.postpone a []
    | false, some _ => .error .tooManyValues
    | false, none => m.take a []

/-- Reads a group of short names. The first one that has a value takes the rest of the group for it,
an equals sign before it apart. -/
def readShort (g : Level) (m : Matches) : List Char → Except Fault Matches
  | [] => .ok m
  | c :: cs =>
    match g.named.find? (·.short == some c) with
    | none => .error .unknownArgument
    | some a =>
      if a.role.takesValue then
        match cs with
        | [] => m.postpone a []
        | '=' :: value => m.take a [String.ofList value]
        | value => m.take a [String.ofList value]
      else do readShort g (← m.take a []) cs

/-- Reads a word that stands for the next argument with a place; `marked` if all words do. -/
def readPlaced (g : Level) (marked : Bool) (m : Matches) (text : String) :
    List Argument → Except Fault (Matches × List Argument)
  | a :: placed => do .ok (← m.postpone a [text], placed)
  | [] =>
    if g.commands.isEmpty || (marked && g.commands.contains text) then .error .unknownArgument
    else .error .unknownCommand

/-- Reads words that stand for themselves. -/
def readMarked (g : Level) (m : Matches) (placed : List Argument) :
    List String → Except Fault Matches
  | [] => .ok m
  | text :: rest => do
    let (m, placed) ← g.readPlaced true m text placed
    readMarked g m placed rest

/-- Reads words up to a command, which comes with the words after it. -/
def readWords (g : Level) (m : Matches) (placed : List Argument) :
    List String → Except Fault (Matches × Option (String × List String))
  | [] => .ok (m, none)
  | text :: rest =>
    if !m.isWaiting && g.commands.contains text then .ok (m, some (text, rest))
    else
      match Word.ofText text with
      | .mark => do .ok (← g.readMarked m placed rest, none)
      | .long name value => do readWords g (← g.readLong m name value) placed rest
      | .short names => do readWords g (← g.readShort m names) placed rest
      | .plain =>
        if m.isWaiting then readWords g (m.supply text) placed rest
        else do
          let (m, placed) ← g.readPlaced false m text placed
          readWords g m placed rest

/-- Reads all words of a level. -/
def read (g : Level) (words : List String) :
    Except Fault (Matches × Option (String × List String)) :=
  g.readWords .empty g.placed words

end Level

end ApiClient.CommandLine
