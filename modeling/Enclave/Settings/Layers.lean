import Enclave.Settings.Annotated
import Enclave.Settings.Decode
import Enclave.Settings.Literal
import Enclave.Toml.Parser

/-!
# Layers of settings

Settings come from four places, and what a later one mentions counts: the
defaults, a settings file, the variables of the environment, and the flags of
the command line. A layer is the list of what a place mentions. Layers are
laid over each other before anything is decoded, so that a value which is
covered by another one is never looked at. The settings are then decoded in the order
of their names, and the first that cannot be decoded is the error.
-/

namespace Enclave

/-- **What one place mentions**: names of settings and values. -/
abbrev Layer := List (String × Json)

namespace Layer

/-- **One layer over another.** -/
def onto (upper lower : Layer) : Layer :=
  upper.foldl (fun acc (name, j) => Json.putMember acc name j) lower

end Layer

/-- **What is wrong with a place that settings come from.** -/
inductive LayerFault where
  /-- The settings file cannot be read. -/
  | unreadable (cause : IoError)
  /-- The settings file is not text. -/
  | notText
  /-- The settings file is not well formed. -/
  | malformed
  /-- In the settings file, what should be the number of a value is none. -/
  | badOrigin
  /-- What is mentioned for a setting is not what it needs. -/
  | value (field : Setting) (fault : DecodeFault)
deriving Repr

/-- **Why there are no settings.** -/
inductive SettingsError where
  /-- The settings file that was asked for is not there. -/
  | missingFile (path : String)
  /-- A layer cannot be read, or a value is not what its setting needs. -/
  | undecodable (fault : LayerFault)
  /-- The settings make no sense. -/
  | refused (cause : Error)
deriving Repr

/-- **The wording of an error about settings.** How a fault is worded is up to the library
that reads the places and lays one over the other, and is a parameter here. -/
def SettingsError.message (wording : LayerFault → String) : SettingsError → String
  | missingFile path => s!"Specified file `{path}` does not exist"
  | undecodable fault => s!"Config error: {wording fault}"
  | refused cause => cause.message

namespace Settings

/-! ## The settings file -/

/-- The settings file that is used when none is asked for. -/
def defaultFile : String := "certifier.toml"

/-- **The layer of a settings file**, from its content. -/
def fileLayer (content : Bytes) : Except SettingsError Layer :=
  match String.fromUTF8? content.toByteArray with
  | none => .error (.undecodable .notText)
  | some s =>
    match Toml.parse? s with
    | some (.object members) =>
      match Annotated.members? members with
      | some members => .ok members
      | none => .error (.undecodable .badOrigin)
    | _ => .error (.undecodable .malformed)

/-! ## Variables -/

/-- How the names of variables begin that are settings, in any case. -/
def variablePrefix : List Char := "CERTIFIER_".toList

/-- **The name of the setting a variable is for**, if it is for one: what stands
behind the prefix, in lower case and without white space around it. The
variable that chooses the settings file is not for a setting. -/
def variableName? (name : String) : Option String :=
  let cs := Text.trim name.toList
  let start := cs.take variablePrefix.length
  let rest := Text.trim (cs.drop variablePrefix.length)
  if start.map Char.toUpper = variablePrefix && rest.map Char.toLower ≠ "config".toList then
    some (String.ofList (rest.map Char.toLower))
  else none

/-- **The value a variable gives a setting.** The kind of verifier may be given
by its number instead of its name. -/
def variableValue (name value : String) : Json :=
  let number := Literal.natural? VerifierKind.names.length (Text.trim value.toList)
  match if name = Setting.verifier.name then number.bind (VerifierKind.names[·]?) else none with
  | some kind => .string kind
  | none => Literal.parse value

/-- A value inside tables with the given names. -/
def nested (j : Json) : List String → Json
  | [] => j
  | name :: rest => .object [(name, nested j rest)]

/-- **What a variable mentions.** Dots in its name lead into tables; a name with
nothing in front of a dot or behind one mentions nothing. -/
def variableMention? (name value : String) : Option (String × Json) := do
  let name ← variableName? name
  match (Text.pieces '.' name.toList).map String.ofList with
  | [] => none
  | first :: rest =>
    if first = "" || rest.any (· = "") then none
    else if rest = [] then return (first, variableValue first value)
    else return (first, nested (Literal.parse value) rest)

/-- **The layer of the environment.** -/
def variableLayer (environment : List (String × String)) : Layer :=
  Layer.onto (environment.filterMap fun (name, value) => variableMention? name value) []

/-! ## All layers -/

/-- **One setting decoded** from what is found under its name, if anything is. -/
def extractOne (found : Layer) (s : Settings) (field : Setting) :
    Except LayerFault Settings :=
  match found.lookup field.name with
  | some j => (s.assign field j).mapError (.value field)
  | none => .ok s

/-- **Layers over the defaults**, the lowest first. -/
def merged (layers : List Layer) : Layer :=
  layers.foldl (fun lower upper => Layer.onto upper lower) (toMembers {})

/-- **The settings in layers**, the lowest first, over the defaults. -/
def ofLayers (layers : List Layer) : Except SettingsError Settings :=
  (Setting.alphabetical.foldlM (extractOne (merged layers)) {}).mapError .undecodable

/-- **The settings of a run**, which have to make sense: those in the file, if
there is one, below those of the environment, below those of the command
line. -/
def load (file : Option Bytes) (environment : List (String × String)) (flags : Layer) :
    Except SettingsError Settings := do
  let fromFile ← match file with
    | some content => fileLayer content
    | none => pure []
  let s ← ofLayers [fromFile, variableLayer environment, flags]
  s.validate.mapError .refused
  return s

end Settings

end Enclave
