/-
Program arguments.

An option is given by its long name after two dashes or by a letter after one.
A long option takes its value after an equals sign or from the next argument,
a letter takes it from the rest of its argument or from the next one. Letters
without a value may be joined. Two dashes alone end the options.

A value from the next argument does not start with a dash, except the dash
alone. Options that are not repeatable are given once at most.
-/
namespace MaterialScript.CommandLine

/-- An option a program knows. -/
structure KnownOption where
  letter : Option Char
  name : String
  takesValue : Bool
  repeatable : Bool

namespace KnownOption

/-- An option without a value. -/
def flag (name : String) (letter : Option Char) : KnownOption := ⟨letter, name, false, false⟩

/-- An option with a value, given once. -/
def setting (name : String) (letter : Option Char) : KnownOption := ⟨letter, name, true, false⟩

/-- An option with a value, given any number of times. -/
def list (name : String) (letter : Option Char) : KnownOption := ⟨letter, name, true, true⟩

end KnownOption

/-- What an argument says: an option by its long name, its value empty for a flag, or a text. -/
inductive Argument where
  | option (name value : String)
  | text (s : String)
deriving DecidableEq

/-- What an argument says on its own: options that are complete, and one that wants a value from
the next argument. -/
structure Reading where
  complete : List Argument
  wants : Option String

/-- The text may stand as a value or as an argument of its own. -/
def isText (s : String) : Bool := s = "-" || s.toList.head? != some '-'

/-- A long option, without its dashes. -/
def readLong? (known : List KnownOption) (s : List Char) : Option Reading :=
  let name := String.ofList (s.takeWhile (· != '='))
  match known.find? (·.name == name), s.dropWhile (· != '=') with
  | none, _ => none
  | some o, [] =>
    some (if o.takesValue then ⟨[], some name⟩ else ⟨[.option name ""], none⟩)
  | some o, _ :: value =>
    if o.takesValue then some ⟨[.option name (String.ofList value)], none⟩ else none

/-- Joined letters, without their dash. -/
def readLetters? (known : List KnownOption) : List Char → Option Reading
  | [] => some ⟨[], none⟩
  | c :: cs =>
    match known.find? (·.letter == some c) with
    | none => none
    | some o =>
      if o.takesValue then
        match cs with
        | [] => some ⟨[], some o.name⟩
        | '=' :: value => some ⟨[.option o.name (String.ofList value)], none⟩
        | value => some ⟨[.option o.name (String.ofList value)], none⟩
      else
        (readLetters? known cs).map fun r => { r with complete := .option o.name "" :: r.complete }

/-- One argument on its own. -/
def readArgument? (known : List KnownOption) (s : String) : Option Reading :=
  if isText s then some ⟨[.text s], none⟩
  else
    match s.toList with
    | '-' :: '-' :: cs => readLong? known cs
    | _ :: cs => readLetters? known cs
    | [] => some ⟨[.text s], none⟩

/-- All arguments; `none` if one is refused. -/
def read? (known : List KnownOption) : List String → Option (List Argument)
  | [] => some []
  | "--" :: more => some (more.map .text)
  | s :: more =>
    match readArgument? known s with
    | none => none
    | some ⟨complete, none⟩ => (read? known more).map (complete ++ ·)
    | some ⟨complete, some name⟩ =>
      match more with
      | [] => none
      | value :: more =>
        if isText value then (read? known more).map (complete ++ .option name value :: ·) else none

/-- The values given for an option, in order. -/
def valuesOf (name : String) (arguments : List Argument) : List String :=
  arguments.filterMap fun
    | .option n value => if n = name then some value else none
    | .text _ => none

/-- The texts that belong to no option, in order. -/
def texts (arguments : List Argument) : List String :=
  arguments.filterMap fun
    | .option _ _ => none
    | .text s => some s

/-- The arguments of a program; `none` if one is refused or an option is given too often. -/
def parse? (known : List KnownOption) (args : List String) : Option (List Argument) :=
  (read? known args).bind fun arguments =>
    let once := known.filter (!·.repeatable)
    if once.all fun o => (valuesOf o.name arguments).length ≤ 1 then some arguments else none

/-- The option is given. -/
def isGiven (name : String) (arguments : List Argument) : Bool :=
  !(valuesOf name arguments).isEmpty

end MaterialScript.CommandLine
