/-! The command line: options with values, given apart or behind an equals sign. -/

namespace SeriesWire.Command

/-- The way in which the results of a fixture are delivered. -/
inductive Mode where
  | whole
  | shards
  deriving DecidableEq, Repr

def Mode.ofName? : String → Option Mode
  | "bulk" => some .whole
  | "partial" => some .shards
  | _ => none

/-- The options read so far. -/
structure Arguments where
  input : Option String
  mode : Option Mode
  millis : Bool
  threshold : Option Nat
  deriving DecidableEq, Repr

def Arguments.none : Arguments :=
  ⟨.none, .none, false, .none⟩

/-- What a command line asks for. -/
inductive Invocation where
  | render (input : String) (arguments : Arguments)
  | help
  | version
  | invalid
  deriving DecidableEq, Repr

/-- A count below `2 ^ 64`, a plus sign allowed. -/
def count? (text : String) : Option Nat :=
  let digits := match text.toList with
    | '+' :: rest => rest
    | chars => chars
  let value := digits.foldl (fun n c => n * 10 + (c.toNat - '0'.toNat)) 0
  if digits.isEmpty || !digits.all Char.isDigit || UInt64.size ≤ value then .none else some value

/-- Only a lone dash may stand for a value among the words that begin with one. -/
def isValue (word : String) : Bool :=
  word == "-" || !word.startsWith "-"

/-- The option and the value of a word with an equals sign. -/
def splitOption (word : String) : String × Option String :=
  match word.toList.span (· != '=') with
  | (name, _ :: value) => (String.ofList name, some (String.ofList value))
  | (name, []) => (String.ofList name, .none)

namespace Arguments

/-- Sets an option that takes a value. No option may be given twice. -/
def set? (arguments : Arguments) (option value : String) : Option Arguments :=
  match option with
  | "--input" =>
    if arguments.input.isSome then .none else some { arguments with input := some value }
  | "--mode" =>
    if arguments.mode.isSome then .none
    else (Mode.ofName? value).map fun mode => { arguments with mode := some mode }
  | "--parallel-threshold" =>
    if arguments.threshold.isSome then .none
    else (count? value).map fun count => { arguments with threshold := some count }
  | _ => .none

/-- What the options ask for once all are read. The input is required. -/
def invocation (arguments : Arguments) : Invocation :=
  match arguments.input with
  | some input => .render input arguments
  | .none => .invalid

/-- Reads the words from left to right. -/
def read (arguments : Arguments) : List String → Invocation
  | [] => arguments.invocation
  | "--ms" :: rest =>
    if arguments.millis then .invalid else read { arguments with millis := true } rest
  | "--" :: rest => if rest.isEmpty then arguments.invocation else .invalid
  | word :: rest =>
    -- The first letter behind a single dash decides before the letters after it are looked at.
    if word = "--help" ∨ word.startsWith "-h" then .help
    else if word = "--version" ∨ word.startsWith "-V" then .version
    else
      match splitOption word, rest with
      | (option, some value), rest =>
        match arguments.set? option value with
        | some next => read next rest
        | .none => .invalid
      -- A word that names no option takes a value all the same, and `set?` refuses it.
      | (option, .none), value :: rest =>
        if !isValue value then .invalid
        else
          match arguments.set? option value with
          | some next => read next rest
          | .none => .invalid
      | (_, .none), [] => .invalid

end Arguments

/-- The name and the version of the program. -/
def versionText : String :=
  "tsquery-binaries 0.1.0"

/-- What the words of a command line ask for. -/
def invocation (words : List String) : Invocation :=
  Arguments.none.read words

end SeriesWire.Command
