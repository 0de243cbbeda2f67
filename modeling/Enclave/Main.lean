import Enclave.Command.Run

/-!
# The program

The command line on a real machine. Everything that decides is in
`Enclave.run`; here is only what it takes to reach files, variables and
randomness, and to print.

Keys can be derived only where a processor offers it, libraries cannot be loaded,
and no service is reached, so that the program is complete in mock mode and answers
with an error where it would need one of these.

The sessions over directories of attestation files keep out each other, whatever the
directories are, and a session that was opened first waits for the transfers that
others gave up on (`OperatingSystem.Fence`).
-/

namespace Enclave

namespace OperatingSystem

/-- A failure as the operating system reports it. -/
def failure (e : IO.Error) : IoError :=
  match e with
  | .noFileOrDirectory .. => .missing
  | .permissionDenied .. => ⟨.permissionDenied, "Permission denied (os error 13)"⟩
  | .resourceExhausted .. => .full
  | .interrupted .. => ⟨.interrupted, "Interrupted system call (os error 4)"⟩
  | e => ⟨.other, e.toString⟩

/-- An action on files, with its failure as a value. -/
def guarded {α : Type} (x : IO α) : IO (Except IoError α) := do
  try return .ok (← x) catch e => return .error (failure e)

/-- Whether a path leads to a regular file. -/
def isFile (path : String) : IO Bool := do
  let here ← IO.currentDir
  try return (← (here / path).metadata).type == .file catch _ => return false

/-- Bytes read from an open file until there are enough of them or no more. -/
def readUpTo (file : IO.FS.Handle) : Nat → Nat → IO Bytes
  | 0, _ => return []
  | _, 0 => return []
  | fuel + 1, room => do
    let chunk ← file.read (.ofNat room)
    if chunk.isEmpty then return []
    let part := chunk.data.toList
    return part ++ (← readUpTo file fuel (room - part.length))

/-- **What all sessions of the program share.** -/
structure Fence where
  /-- What is resolved when the last session in line is closed. -/
  line : IO.Ref (IO.Promise Unit)
  /-- What is resolved when the open session is closed. -/
  session : IO.Ref (IO.Promise Unit)
  /-- The transfers that were given up and have not been waited for. -/
  parked : IO.Ref (List (Task Unit))

namespace Fence

/-- Nothing is open, and nothing is parked. -/
def new : IO Fence := do
  let closed ← IO.Promise.new
  closed.resolve ()
  return ⟨← IO.mkRef closed, ← IO.mkRef closed, ← IO.mkRef []⟩

/-- **Opens a session** when all before it in line are closed, and then waits for every
parked transfer. -/
def openSession (fence : Fence) : IO Unit := do
  let mine ← IO.Promise.new
  let before ← fence.line.modifyGet fun before => (before, mine)
  let _ ← IO.wait before.result?
  fence.session.set mine
  let parked ← fence.parked.modifyGet fun parked => (parked, [])
  for transfer in parked do
    IO.wait transfer

/-- Closes the open session. -/
def closeSession (fence : Fence) : IO Unit := do
  (← fence.session.get).resolve ()

/-- **A transfer that is given up after some milliseconds**, and parked then. -/
def limited {α : Type} (fence : Fence) (limit : Option Nat) (x : IO α) :
    IO (Except IoError α) := do
  match limit with
  | none => guarded x
  | some milliseconds =>
    let transfer ← IO.asTask (guarded x) .dedicated
    let timer ← IO.asTask (IO.sleep (.ofNat milliseconds)) .dedicated
    match ← IO.waitAny [transfer.map some, timer.map fun _ => none] with
    | some (.ok result) => return result
    | some (.error e) => return .error (failure e)
    | none =>
      fence.parked.modify (transfer.map (fun _ => ()) :: ·)
      return .error .expired

end Fence

/-- **The channel of a directory of attestation files.** -/
def directoryChannel (fence : Fence) (p : PseudoFiles) : Channel IO where
  openSession := fence.openSession
  write file b := ExceptT.mk do
    let path := p.path file
    let result ← fence.limited p.limit do
      let handle ← IO.FS.Handle.mk path .readWrite
      handle.write b.toByteArray
      handle.flush
      return b.length
    return result.mapError (.channelUnavailable path)
  read file room := ExceptT.mk do
    let path := p.path file
    let result ← fence.limited p.limit do
      let handle ← IO.FS.Handle.mk path .read
      readUpTo handle room room
    return result.mapError (.channelUnavailable path)
  closeSession := fence.closeSession

/-- The channel of a new emulated enclave. -/
def emulate (e : MockEnclave) : IO (Channel IO) := do
  let held ← IO.mkRef ReportData.zero
  return e.channel.lift fun x => do
    let (a, data) := x (← held.get)
    held.set data
    return a

/-- **What this machine offers to a certifier.** -/
def host (fence : Fence) : Host IO where
  workingDirectory := return (← IO.currentDir).toString
  isFile := isFile
  readFile path := ExceptT.mk (guarded do return (← IO.FS.readBinFile path).data.toList)
  writeFile path b := ExceptT.mk (guarded (IO.FS.writeBinFile path b.toByteArray))
  pseudoFiles := directoryChannel fence
  emulate := emulate
  processorKeys := ⟨fun _ => throw (.userError "this machine cannot derive sealing keys")⟩
  plugins := ⟨fun library _ => return .error (.loader (library ++ ": libraries cannot be loaded"))⟩
  collateral := {
    Collateral := Empty
    prepare := return .ok ()
    fetch := fun _ _ _ => return none
    now := return none
    isGenuine := fun _ collateral _ => nomatch collateral }
  freshNonce := return Bytes.window 16 0 (← IO.getRandomBytes 16).data.toList

/-- The variables of the environment. -/
def environment : IO (List (String × String)) := do
  let content ← try IO.FS.readBinFile "/proc/self/environ" catch _ => pure .empty
  let cs := ((String.fromUTF8? content).getD "").toList
  return (Text.pieces '\x00' cs).filterMap fun piece =>
    match Reading.splitEquals piece with
    | (name, some value) => some (name, value)
    | (_, none) => none

end OperatingSystem

/-- What is printed when help is asked for. -/
def helpText : String :=
  "Usage: certifier [OPTIONS] <COMMAND>\n\nCommands:\n"
    ++ "  attest       Bind SHA-256 of a claims file into a quote\n"
    ++ "  verify       Verify a quote against the user data it should attest\n"
    ++ "  seal         Seal a file to this enclave's identity\n"
    ++ "  unseal       Unseal a file sealed by this enclave\n"
    ++ "  measurement  Print this enclave's measurement\n"
    ++ "  help         Print this message\n"

/-- How a fault in a place that settings come from is printed. -/
def wording : LayerFault → String
  | .unreadable cause => cause.text
  | .notText => "the settings file is not text"
  | .malformed => "the settings file is not well formed"
  | .badOrigin => "the settings file has an origin that is not a number"
  | .value field fault => s!"{fault.message} for key `{field.name}`"

/-- What is printed for a command line that asks for no run. -/
def usageText : UsageError → String
  | .helpAsked => helpText
  | .versionAsked => "certifier 0.1.0\n"
  | e => s!"error: {e.name}\n\n{helpText}"

/-- What is printed for a run that failed, and its exit code. -/
def report : RunError → String × UInt32
  | .usage e => (usageText e, .ofNat e.exitCode)
  | e => ("Error: " ++ "\nCaused by: ".intercalate (e.chain wording) ++ "\n", 1)

end Enclave

/-- **The program**: the answer goes to the output, and everything else to the
error output. -/
def main (words : List String) : IO UInt32 := do
  let host := Enclave.OperatingSystem.host (← Enclave.OperatingSystem.Fence.new)
  match ← (Enclave.run host (← Enclave.OperatingSystem.environment) words).run with
  | .ok result =>
    IO.println result.response.toText
    return 0
  | .error e =>
    let (message, code) := Enclave.report e
    if code = 0 then IO.print message else IO.eprint message
    return code
