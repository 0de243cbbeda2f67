import Enclave.Proofs.Command.MockMode
import Enclave.Proofs.Evidence.QuoteFields

/-!
# Commands that turn one file into another

Attesting, sealing and unsealing are one program: the certifier, the content of the
input, an operation, and the output, in this order (`Command.run_eq_of_conversion?`).
All of the checks come before the output is touched, and the operation knows the input
by its content alone, so that the output may be the very same file.

On a machine, such a command therefore comes down to its operation and to one call that
replaces a file (`Conversion.run_eq`). In mock mode the operation leaves all files
alone, and what a command does to them is the work of that call
(`Conversion.run_cases`).
-/

namespace Enclave

variable {m : Type → Type} {σ α β ε ε' : Type}

/-- **A command that turns one file into another.** -/
structure Conversion (m : Type → Type) where
  /-- The file that is read. -/
  input : String
  /-- The file that is written. -/
  output : String
  /-- What is written, and the answer of the command, for the content of the input. -/
  operation : Certifier m → Bytes → ExceptT Error m (Bytes × Response)
  /-- The wording of an error of the operation. -/
  wording : Error → CommandError

namespace Conversion

/-- **The conversion carried out** under some settings. -/
def run [Monad m] (host : Host m) (s : Settings) (k : Conversion m) :
    ExceptT CommandError m Response := do
  let certifier ← Command.perform (Certifier.ofSettings host s)
  let content ← Command.readInput host k.input
  let (written, response) ← (k.operation certifier content).adapt k.wording
  Command.writeOutput host k.output written
  return response

/-- Claims into a quote. -/
def attest [Monad m] (claims output : String) : Conversion m where
  input := claims
  output := output
  operation c content := do
    let raw ← c.attest content
    let quote ← liftExcept (Quote.parse raw)
    return (raw, .attest output raw.length quote.reportData)
  wording := .operation

/-- A plaintext into sealed data. -/
def sealing [Monad m] (job : SealingJob) : Conversion m where
  input := job.input
  output := job.output
  operation c content := do
    let data ← c.sealAs job.layout content
    return (data, .sealing job.output content.length data.length job.layout)
  wording := .operation

/-- Sealed data into a plaintext. -/
def unsealing [Monad m] (job : SealingJob) : Conversion m where
  input := job.input
  output := job.output
  operation c content := do
    let plaintext ← c.unsealAs job.layout content
    return (plaintext, .unsealing job.output plaintext.length)
  wording := Command.unsealingError

/-- What is written is what sealing answers. -/
theorem answerOf_sealing (job : SealingJob) (c : Certifier (StateM σ)) (content : Bytes) (w : σ) :
    answerOf ((sealing job).operation c content) w
      = (answerOf (c.sealAs job.layout content) w).map fun data =>
          (data, .sealing job.output content.length data.length job.layout) := by
  unfold sealing
  rw [answerOf_bind]
  cases answerOf (c.sealAs job.layout content) w <;> rfl

/-- What is written is what unsealing answers. -/
theorem answerOf_unsealing (job : SealingJob) (c : Certifier (StateM σ)) (content : Bytes)
    (w : σ) :
    answerOf ((unsealing job).operation c content) w
      = (answerOf (c.unsealAs job.layout content) w).map fun plaintext =>
          (plaintext, .unsealing job.output plaintext.length) := by
  unfold unsealing
  rw [answerOf_bind]
  cases answerOf (c.unsealAs job.layout content) w <;> rfl

end Conversion

/-- **The conversion that a command is**, if it writes a file. -/
def Command.conversion? [Monad m] : Command → Option (Conversion m)
  | attest claims output => some (.attest claims output)
  | sealing job => some (.sealing job)
  | unsealing job => some (.unsealing job)
  | verify _ => none
  | measurement => none

/-- The input of a conversion is the one file that is looked for. -/
theorem Command.exists_inputs_eq [Monad m] {command : Command} {k : Conversion m}
    (h : command.conversion? = some k) : ∃ what, command.inputs = [(what, k.input)] := by
  cases command with
  | verify job | measurement => cases h
  | attest claims output =>
    cases h
    exact ⟨"claims", rfl⟩
  | sealing job =>
    cases h
    exact ⟨"input", rfl⟩
  | unsealing job =>
    cases h
    exact ⟨"sealed", rfl⟩

/-- Errors may be worded anew at the end or step by step. -/
theorem adapt_bind [Monad m] [LawfulMonad m] (f : ε → ε') (x : ExceptT ε m α)
    (g : α → ExceptT ε m β) : (x >>= g).adapt f = x.adapt f >>= fun a => (g a).adapt f := by
  apply ExceptT.ext
  show Except.mapError f <$> (x >>= g).run = (x.adapt f >>= fun a => (g a).adapt f).run
  rw [ExceptT.run_bind, ExceptT.run_bind, map_bind]
  show _ = (Except.mapError f <$> x.run) >>= _
  rw [bind_map_left]
  refine bind_congr fun result => ?_
  cases result with
  | ok a => rfl
  | error e =>
    show Except.mapError f <$> pure _ = pure _
    rw [map_pure]
    rfl

theorem adapt_pure [Monad m] [LawfulMonad m] (f : ε → ε') (a : α) :
    (pure a : ExceptT ε m α).adapt f = pure a := by
  apply ExceptT.ext
  show Except.mapError f <$> pure _ = pure _
  rw [map_pure]
  rfl

/-- **A command that writes a file is a conversion.** -/
theorem Command.run_eq_of_conversion? [Monad m] [LawfulMonad m] {host : Host m} {s : Settings}
    {command : Command} {k : Conversion m} (h : command.conversion? = some k) :
    command.run host s = k.run host s := by
  cases command with
  | verify job | measurement => cases h
  | attest claims output =>
    cases h
    refine bind_congr fun certifier => bind_congr fun content => ?_
    dsimp only [Conversion.attest]
    simp only [adapt_bind, adapt_pure, bind_assoc, pure_bind]
    rfl
  | sealing job =>
    cases h
    refine bind_congr fun certifier => bind_congr fun content => ?_
    dsimp only [Conversion.sealing]
    simp only [adapt_bind, adapt_pure, bind_assoc, pure_bind]
    rfl
  | unsealing job =>
    cases h
    refine bind_congr fun certifier => bind_congr fun content => ?_
    dsimp only [Conversion.unsealing]
    simp only [adapt_bind, adapt_pure, bind_assoc, pure_bind]

/-! ## What a conversion tells -/

/-- **A response that tells of a conversion**: where the output is, and how large it
is; of sealing, how large the input is; and of a quote, the report data that stand in
it. -/
def Response.Reports (output : String) (content written : Bytes) : Response → Prop
  | attest quote quoteSize reportData => quote = output ∧ quoteSize = written.length
    ∧ reportData.toBytes = written.slice 368 432
  | sealing sealed plaintextSize sealedSize _ => sealed = output
    ∧ plaintextSize = content.length ∧ sealedSize = written.length
  | unsealing plaintext plaintextSize => plaintext = output ∧ plaintextSize = written.length
  | verify _ _ => False
  | measurement _ _ => False

namespace Command

/-- **A conversion tells of itself.** -/
theorem reports_of_operation {command : Command} {k : Conversion (StateM σ)}
    (h : command.conversion? = some k) {c : Certifier (StateM σ)} {content written : Bytes}
    {response : Response} {w : σ}
    (hanswer : answerOf (k.operation c content) w = .ok (written, response)) :
    response.Reports k.output content written := by
  cases command with
  | verify job | measurement => cases h
  | attest claims output =>
    cases h
    obtain ⟨raw, -, hanswer⟩ := ok_of_resultOf_bind hanswer
    obtain ⟨quote, hquote, hanswer⟩ := ok_of_resultOf_bind hanswer
    cases hanswer
    have hparse := (answerOf_liftExcept _ _).symm.trans hquote
    have hbytes : quote.bytes = written := by
      by_cases hsized : Quote.Sized written
      · rw [Quote.parse_of_sized hsized] at hparse
        cases hparse
        rfl
      · rw [Quote.parse_of_not_sized hsized] at hparse
        cases hparse
    exact ⟨rfl, rfl, hbytes ▸ quote.toBytes_reportData⟩
  | sealing job =>
    cases h
    obtain ⟨data, -, hanswer⟩ := ok_of_resultOf_bind hanswer
    cases hanswer
    exact ⟨rfl, rfl, rfl⟩
  | unsealing job =>
    cases h
    obtain ⟨plaintext, -, hanswer⟩ := ok_of_resultOf_bind hanswer
    cases hanswer
    exact ⟨rfl, rfl⟩

/-- **The operation of a conversion touches no file** in mock mode. -/
theorem keeps_files_operation {command : Command} {k : Conversion (StateM Machine)}
    (h : command.conversion? = some k) (p : MockParty) (content : Bytes) (files : FileSystem) :
    Keeps (fun w : Machine => w.files = files) (k.operation p.certifier content) := by
  cases command with
  | verify job | measurement => cases h
  | attest claims output =>
    cases h
    refine compositional_keeps.bind ?_ fun raw =>
      compositional_keeps.bind (compositional_keeps.liftExcept _) fun quote =>
        compositional_keeps.pure _
    exact keeps_of_bind_pure (p.keeps_files files (.attest content))
  | sealing job =>
    cases h
    exact compositional_keeps.bind (p.keeps_files_sealAs files job.layout content) fun data =>
      compositional_keeps.pure _
  | unsealing job =>
    cases h
    exact compositional_keeps.bind (p.keeps_files_unsealAs files job.layout content)
      fun plaintext => compositional_keeps.pure _

end Command

/-! ## Conversions on a machine -/

namespace Machine

variable {w : Machine} {path : String}

/-- Where there is a place for a regular file, it is written. -/
theorem run_writeOutput {place : List String} (h : w.files.Receives path place) (b : Bytes) :
    (Command.writeOutput host path b).run w
      = (.ok (), { w with files := w.files.put place (.file b) }) :=
  congrArg (fun r : Outcome Unit × FileSystem =>
    ((answered r.1).mapError (CommandError.file path), ({ w with files := r.2 } : Machine)))
    (h.replace b)

/-- **An output is delivered, or all files stay as they were.** -/
theorem writeOutput_cases (w : Machine) (path : String) (b : Bytes) :
    (resultOf (Command.writeOutput host path b) w = .ok ()
        ∧ w.files.Delivered path b (worldLeft (Command.writeOutput host path b) w).files)
      ∨ (∃ e, resultOf (Command.writeOutput host path b) w = .error e)
        ∧ w.files.SameFiles (worldLeft (Command.writeOutput host path b) w).files := by
  have hresult : resultOf (Command.writeOutput host path b) w
      = (answered (w.files.replace path b).1).mapError (CommandError.file path) := rfl
  have hleft : (worldLeft (Command.writeOutput host path b) w).files
      = (w.files.replace path b).2 := rfl
  rw [hresult, hleft]
  rcases w.files.replace_cases path b with ⟨hok, hdelivered⟩ | ⟨hnot, hsame⟩
  · rw [hok]
    exact .inl ⟨rfl, hdelivered⟩
  · refine .inr ⟨?_, hsame⟩
    cases houtcome : (w.files.replace path b).1 with
    | stalled => exact ⟨_, rfl⟩
    | finished result =>
      cases result with
      | error e => exact ⟨_, rfl⟩
      | ok _ => exact absurd houtcome hnot

end Machine

namespace Conversion

variable {k : Conversion (StateM Machine)} {s : Settings} {w : Machine}
  {c : Certifier (StateM Machine)} {content written : Bytes} {response : Response}

/-- **A conversion on a machine** comes down to its operation and its output, if there
is a certifier and a content. -/
theorem run_eq (hc : answerOf (Certifier.ofSettings Machine.host s) w = .ok c)
    (hinput : (worldAfter (Certifier.ofSettings Machine.host s) w).files.Holds k.input content) :
    (k.run Machine.host s).run w
      = ((k.operation c content).adapt k.wording >>= fun (written, response) => do
          Command.writeOutput Machine.host k.output written
          return response).run (worldAfter (Certifier.ofSettings Machine.host s) w) := by
  have hread := run_adapt_of_ok (CommandError.file k.input) (Machine.resultOf_readFile hinput)
  rw [Machine.worldLeft_readFile hinput] at hread
  have hcertifier : (Command.perform (Certifier.ofSettings Machine.host s)).run w
      = (.ok c, worldAfter (Certifier.ofSettings Machine.host s) w) := run_adapt_of_ok _ hc
  unfold Conversion.run
  rw [run_bind_of_ok hcertifier]
  exact run_bind_of_ok hread

/-- **A conversion as it was carried out**: what was written is the answer of the
operation for the content that the input had before, and the output has taken it. -/
structure CarriedOut (k : Conversion (StateM Machine)) (s : Settings) (content written : Bytes)
    (response : Response) (w w' : Machine) : Prop where
  /-- The content of the input. -/
  input : w.files.Holds k.input content
  /-- The operation, with the certifier that the settings ask for. -/
  answer : ∃ c, answerOf (Certifier.ofSettings Machine.host s) w = .ok c
    ∧ answerOf (k.operation c content) (worldAfter (Certifier.ofSettings Machine.host s) w)
      = .ok (written, response)
  /-- The output. -/
  output : w.files.Delivered k.output written w'.files

/-- **A conversion in mock mode** fails and leaves all files as they were, or it is
carried out. -/
theorem run_cases (hmock : s.mockSgx = true)
    (hkeeps : ∀ (p : MockParty) (content : Bytes) (files : FileSystem),
      Keeps (fun w : Machine => w.files = files) (k.operation p.certifier content))
    (hinput : w.files.isFile k.input = true) :
    (∃ e v, (k.run Machine.host s).run w = (.error e, v) ∧ w.files.SameFiles v.files)
      ∨ ∃ content written response v, (k.run Machine.host s).run w = (.ok response, v)
        ∧ k.CarriedOut s content written response w v := by
  obtain ⟨content, hcontent⟩ := Option.isSome_iff_exists.mp
    (FileSystem.isSome_content?.trans hinput)
  have hheld := FileSystem.content?_eq_some_iff.mp hcontent
  obtain ⟨hsame, hparty⟩ := Certifier.mock_cases hmock w
  cases hc : answerOf (Certifier.ofSettings Machine.host s) w with
  | error e =>
    have hcertifier : (Command.perform (Certifier.ofSettings Machine.host s)).run w
        = (.error (.operation e), worldAfter (Certifier.ofSettings Machine.host s) w) :=
      run_adapt_of_error _ hc
    exact .inl ⟨_, _, run_bind_of_error hcertifier, hsame⟩
  | ok c =>
    obtain ⟨m, n, -, rfl, -⟩ := hparty c hc
    have hkept := hkeeps (s.party m n) content _
      (worldAfter (Certifier.ofSettings Machine.host s) w) rfl
    have hsame' := hkept ▸ hsame
    rw [run_eq hc (hsame.holds hheld)]
    cases hanswer : answerOf (k.operation (s.party m n).certifier content)
      (worldAfter (Certifier.ofSettings Machine.host s) w) with
    | error e => exact .inl ⟨_, _, run_bind_of_error (run_adapt_of_error _ hanswer), hsame'⟩
    | ok result =>
      obtain ⟨written, response⟩ := result
      rw [run_bind_of_ok (run_adapt_of_ok _ hanswer)]
      dsimp only
      rcases Machine.writeOutput_cases (worldAfter (k.operation (s.party m n).certifier content)
        (worldAfter (Certifier.ofSettings Machine.host s) w)) k.output written
        with ⟨hok, hdelivered⟩ | ⟨⟨e, he⟩, hafter⟩
      · refine .inr ⟨content, written, response, _, run_bind_of_ok (Prod.ext hok rfl), hheld,
          ⟨_, hc, hanswer⟩, ?_⟩
        exact hdelivered.of_sameFiles hsame'
      · exact .inl ⟨e, _, run_bind_of_error (Prod.ext he rfl), hsame'.trans hafter⟩

end Conversion

end Enclave
