import Enclave.Attestation.PlannedLoader
import Enclave.Certifier
import Enclave.Channel.Scripted

/-!
# A machine

Everything the library can be run on, as one value: files, the report data of
emulated enclaves, scripts, logs and counters. Channels, requesters and remote
verifiers each act on a part of it, so that whatever runs on the machine is a
pure function from one machine to the next.
-/

namespace Enclave

/-- **The state of a machine.** -/
structure Machine where
  /-- The files. -/
  files : FileSystem := .initial
  /-- The report data held by each emulated enclave. -/
  enclaves : List ReportData := []
  /-- The scripts of scripted channels. -/
  scripts : List Script := []
  /-- The requests that requesters with a log were given. -/
  requests : List (List KeyRequest) := []
  /-- The quotes that recording verifiers were shown. -/
  records : List (List Bytes) := []
  /-- How often each planned loader ran. -/
  loads : List Nat := []
  /-- How many nonces were drawn. -/
  draws : Nat := 0
  /-- The functions behind the symbols of each library. -/
  libraries : List (String × List (String × (Bytes → Int))) := []
  /-- The key derivation of the processor. -/
  processorKey : KeyRequest → SealKey := fun _ => ⟨.zero⟩
  /-- What the service at an address has on a quote: how many seconds it takes to answer,
  and at what times its collateral shows the quote to be genuine. -/
  services : List (String × (Bytes → Option (Nat × (Nat → Bool)))) := []
  /-- The present time in seconds. -/
  clock : Option Nat := some 0

/-- **A part of a machine**, which can be read and replaced. -/
structure Machine.Part (σ : Type) where
  /-- The part of a machine. -/
  get : Machine → σ
  /-- The machine with the part replaced. -/
  set : Machine → σ → Machine

namespace Machine

/-- **An action on a part of the machine.** -/
def Part.act {σ : Type} (p : Part σ) {α : Type} (x : StateM σ α) : StateM Machine α := fun w =>
  let (a, s) := x (p.get w)
  (a, p.set w s)

/-! ## The parts -/

/-- The files. -/
def fileSystem : Part FileSystem := ⟨files, fun w s => { w with files := s }⟩

/-- The report data of an emulated enclave. -/
def enclave (i : Nat) : Part ReportData :=
  ⟨fun w => w.enclaves.getD i .zero, fun w s => { w with enclaves := w.enclaves.set i s }⟩

/-- The script of a scripted channel. -/
def script (i : Nat) : Part Script :=
  ⟨fun w => w.scripts.getD i ⟨[], [], []⟩, fun w s => { w with scripts := w.scripts.set i s }⟩

/-- The requests of a requester with a log. -/
def requestLog (i : Nat) : Part (List KeyRequest) :=
  ⟨fun w => w.requests.getD i [], fun w s => { w with requests := w.requests.set i s }⟩

/-- The quotes of a recording verifier. -/
def record (i : Nat) : Part (List Bytes) :=
  ⟨fun w => w.records.getD i [], fun w s => { w with records := w.records.set i s }⟩

/-- The number of runs of a planned loader. -/
def loadCount (i : Nat) : Part Nat :=
  ⟨fun w => w.loads.getD i 0, fun w s => { w with loads := w.loads.set i s }⟩

/-! ## What is set up on a machine -/

/-- The channel of the emulated enclave with a number. -/
def enclaveChannel (e : MockEnclave) (i : Nat) : Channel (StateM Machine) :=
  e.channel.lift (enclave i).act

/-- **A new emulated enclave**, which holds no report data yet. -/
def newEnclave (e : MockEnclave) : StateM Machine (Channel (StateM Machine)) := fun w =>
  (enclaveChannel e w.enclaves.length, { w with enclaves := w.enclaves ++ [.zero] })

/-- **A new scripted channel**, and its number. -/
def newScript (s : Script) : StateM Machine (Channel (StateM Machine) × Nat) := fun w =>
  let i := w.scripts.length
  ((Script.channel.lift (script i).act, i), { w with scripts := w.scripts ++ [s] })

/-- **A new requester with a fixed key**, and its number. -/
def newRequester (key : SealKey) : StateM Machine (KeyRequester (StateM Machine) × Nat) := fun w =>
  let i := w.requests.length
  (((KeyRequester.fixed key).lift (requestLog i).act, i), { w with requests := w.requests ++ [[]] })

/-- **A new recording verifier**, and its number. -/
def newRecorder (status : Int) : StateM Machine (RemoteVerifier (StateM Machine) × Nat) := fun w =>
  let i := w.records.length
  (((RemoteVerifier.recorder status).lift (record i).act, i), { w with records := w.records ++ [[]] })

/-- **A new planned loader**, and its number. -/
def newLoader (plan : LoaderPlan) :
    StateM Machine (ExceptT Error (StateM Machine) (RemoteVerifier (StateM Machine)) × Nat) :=
  fun w =>
    let i := w.loads.length
    ((ExceptT.mk ((loadCount i).act plan.loader.run), i), { w with loads := w.loads ++ [0] })

/-- The channel of a directory on the machine. -/
def directoryChannel (p : PseudoFiles) : Channel (StateM Machine) :=
  p.channel.lift fileSystem.act

/-- The nonce of a number. -/
def nonce (n : Nat) : Block := Bytes.window 16 0 (Bytes.littleEndian 16 n)

/-- **A nonce that was not drawn before.** -/
def drawNonce : StateM Machine Block := fun w =>
  (nonce w.draws, { w with draws := w.draws + 1 })

/-- A name without the character that may end it. -/
def unterminated (name : String) : String :=
  if name.toList.getLast? = some '\x00' then String.ofList name.toList.dropLast else name

/-- **The function behind a symbol of a library.** Both names may be terminated. -/
def loadSymbol (libraries : List (String × List (String × (Bytes → Int))))
    (library symbol : String) : Except LoadFault (Bytes → Int) :=
  match libraries.lookup (unterminated library) with
  | none => .error (.loader (library ++ ": cannot open shared object file"))
  | some symbols =>
    match symbols.lookup (unterminated symbol) with
    | none => .error (.noSymbol symbol ("undefined symbol: " ++ symbol))
    | some status => .ok status

/-- **The services of a machine.** One that does not answer in time has nothing to say. -/
def collateral : CollateralService (StateM Machine) where
  Collateral := Nat → Bool
  prepare := return .ok ()
  fetch address seconds quote := do
    match (← get).services.lookup address with
    | none => return none
    | some answer =>
      return (answer quote).bind fun (delay, genuineAt) =>
        if delay ≤ seconds then some genuineAt else none
  now := return (← get).clock
  isGenuine _ genuineAt time := genuineAt time

/-- The answer to a call on a file. One that stalls is interrupted. -/
def answered {α : Type} : Outcome α → Except IoError α
  | .finished result => result
  | .stalled => .error .expired

/-- **What a machine offers to a certifier.** -/
def host : Host (StateM Machine) where
  workingDirectory := return "/" ++ "/".intercalate FileSystem.workingDirectory
  isFile path := return (← get).files.isFile path
  readFile path := ExceptT.mk (fileSystem.act fun fs =>
    let (outcome, fs') := fs.readAll path
    (answered outcome, fs'))
  writeFile path b := ExceptT.mk (fileSystem.act fun fs =>
    let (outcome, fs') := fs.replace path b
    (answered outcome, fs'))
  pseudoFiles := directoryChannel
  emulate := newEnclave
  processorKeys := ⟨fun request => return (← get).processorKey request⟩
  plugins := ⟨fun library symbol => return loadSymbol (← get).libraries library symbol⟩
  collateral := collateral
  freshNonce := drawNonce

end Machine

end Enclave
