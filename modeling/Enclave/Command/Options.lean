import Enclave.Command.Usage

/-!
# Reading options

A command line is a list of words, read from the left. A word that starts with
two dashes is an option by its name, perhaps with a value behind an equals
sign; a word that starts with one dash is a row of options by their letters.
The value of an option may also be the next word, unless that is an option
itself. A word that is none of these can only be a command, and what follows
it is read by the rules of that command. Two dashes alone end all options.

The value of an option is not looked at when it is read, but when the next
option is, or at the end (`Reading.settle`). So of two faults in a command line
the later one may be the one that is reported.
-/

namespace Enclave

/-- **What an option is for.** -/
inductive OptionUse where
  /-- It says yes, and may be given once. -/
  | toggle
  /-- It counts how often it is given. -/
  | count
  /-- It asks for help. -/
  | help
  /-- It asks for the version. -/
  | version
  /-- It has a value, which passes a check, and may be given once. -/
  | value (check : String → Except UsageError Unit)

/-- **An option** of a command. -/
structure CommandOption where
  /-- Its name, without the dashes. -/
  name : String
  /-- Its letter, if it has one. -/
  letter : Option Char := none
  /-- What it is for. -/
  use : OptionUse
  /-- Whether the command needs it. -/
  needed : Bool := false

/-- **What has been read of a command line.** -/
structure Reading where
  /-- The options given so far by name, with the value of those that have one. -/
  given : List (String × String) := []
  /-- An option whose value is not looked at yet, or has not come yet. -/
  pending : Option (CommandOption × Option String) := none

namespace Reading

/-- How often an option is given. -/
def count (r : Reading) (name : String) : Nat :=
  (r.given.filter (·.1 = name)).length

/-- The value given for an option. -/
def value? (r : Reading) (name : String) : Option String :=
  r.given.lookup name

/-- Whether the next word may be the value of an option. -/
def awaitsValue (r : Reading) : Bool :=
  match r.pending with
  | some (_, none) => true
  | _ => false

/-- The reading with an option given. -/
def give (r : Reading) (o : CommandOption) (value : String) : Reading :=
  { r with given := r.given ++ [(o.name, value)] }

/-- **An option given once**, with a value that passes its check. -/
def accept (r : Reading) (o : CommandOption) (value : String) : Except UsageError Reading :=
  if r.count o.name ≠ 0 then .error .repeatedOption
  else
    match o.use with
    | .value check => (check value).map fun _ => r.give o value
    | _ => .ok (r.give o value)

/-- **The value that is still to be looked at**, looked at. -/
def settle (r : Reading) : Except UsageError Reading :=
  match r.pending with
  | none => .ok r
  | some (_, none) => .error .emptyValue
  | some (o, some value) => { r with pending := none }.accept o value

/-- **An option without a value of its own** taken. -/
def takePlain (r : Reading) (o : CommandOption) : Except UsageError Reading := do
  let r ← r.settle
  match o.use with
  | .help => throw .helpAsked
  | .version => throw .versionAsked
  | .count => return r.give o ""
  | .toggle => r.accept o ""
  | .value _ => return { r with pending := some (o, none) }

/-- **An option by its name** taken, with what stands behind an equals sign. -/
def takeNamed (options : List CommandOption) (r : Reading) (name : String)
    (attached : Option String) : Except UsageError Reading :=
  match options.find? (·.name = name) with
  | none => .error .unknownArgument
  | some o =>
    match o.use, attached with
    | .value _, some value => do (← r.settle).accept o value
    | _, some _ => .error .needlessValue
    | _, none => r.takePlain o

/-- **Options by their letters** taken. What follows an option that has a value
is the value. -/
def takeLetters (options : List CommandOption) (r : Reading) :
    List Char → Except UsageError Reading
  | [] => .ok r
  | c :: rest =>
    match options.find? (·.letter = some c) with
    | none => .error .unknownArgument
    | some o =>
      match o.use, rest with
      | .value _, _ :: _ => do (← r.settle).accept o (String.ofList rest)
      | _, _ => do takeLetters options (← r.takePlain o) rest

/-- The parts of a word in front of and behind its first equals sign. -/
def splitEquals (cs : List Char) : String × Option String :=
  let name := cs.takeWhile (· ≠ '=')
  match cs.dropWhile (· ≠ '=') with
  | [] => (String.ofList name, none)
  | _ :: value => (String.ofList name, some (String.ofList value))

/-- **A word taken** that is neither a command nor the end of the options. -/
def takeWord (options : List CommandOption) (stray : UsageError) (r : Reading) (word : String) :
    Except UsageError Reading :=
  match word.toList with
  | '-' :: '-' :: cs =>
    let (name, attached) := splitEquals cs
    takeNamed options r name attached
  | '-' :: c :: cs => takeLetters options r (c :: cs)
  | _ =>
    match r.pending with
    | some (o, none) => .ok { r with pending := some (o, some word) }
    | _ => .error stray

/-- **Words read up to a command** or to the end. The result is the reading,
and the command with the words that follow it. -/
def words (options : List CommandOption) (commands : List String) :
    Reading → List String → Except UsageError (Reading × Option (String × List String))
  | r, [] => .ok (r, none)
  | r, word :: rest =>
    let stray : UsageError := if commands = [] then .unknownArgument else .invalidCommand
    if !r.awaitsValue && commands.contains word then .ok (r, some (word, rest))
    else if word = "--" then
      match rest with
      | [] => .ok (r, none)
      | next :: _ =>
        if commands.contains next then .error .unknownArgument else .error stray
    else
      match takeWord options stray r word with
      | .ok r => words options commands r rest
      | .error e => .error e

end Reading

/-- **The options of a command without commands of its own.** Every option that
is needed has to be given. -/
def readOptions (options : List CommandOption) (words : List String) :
    Except UsageError Reading := do
  let (r, _) ← Reading.words options [] {} words
  let r ← r.settle
  if options.any fun o => o.needed && r.count o.name = 0 then throw .missingOption
  return r

end Enclave
