/-!
# Usage errors

Why the words of a command line do not make a command. Asking for help or for
the version counts here as well, since the run ends in the same way; only the
exit code tells that nothing was wrong.
-/

namespace Enclave

/-- **Why a command line is not carried out.** -/
inductive UsageError where
  /-- Help was asked for. -/
  | helpAsked
  /-- The version was asked for. -/
  | versionAsked
  /-- Nothing at all was given. -/
  | nothingGiven
  /-- A word is neither an option nor anything else that is expected. -/
  | unknownArgument
  /-- A word in the place of a command is not one. -/
  | invalidCommand
  /-- No command is given. -/
  | missingCommand
  /-- An option that is needed is not given. -/
  | missingOption
  /-- An option has no value, or an empty one where that says nothing. -/
  | emptyValue
  /-- The value of an option cannot be read. -/
  | badValue
  /-- An option that takes no value has one. -/
  | needlessValue
  /-- An option is given more often than it may be. -/
  | repeatedOption
deriving DecidableEq, Repr

namespace UsageError

/-- The name of a usage error. -/
def name : UsageError → String
  | helpAsked => "DisplayHelp"
  | versionAsked => "DisplayVersion"
  | nothingGiven => "DisplayHelpOnMissingArgumentOrSubcommand"
  | unknownArgument => "UnknownArgument"
  | invalidCommand => "InvalidSubcommand"
  | missingCommand => "MissingSubcommand"
  | missingOption => "MissingRequiredArgument"
  | emptyValue => "InvalidValue"
  | badValue => "ValueValidation"
  | needlessValue => "TooManyValues"
  | repeatedOption => "ArgumentConflict"

/-- **The exit code.** -/
def exitCode : UsageError → Nat
  | helpAsked => 0
  | versionAsked => 0
  | _ => 2

end UsageError

end Enclave
