/-!
# Failures of files and devices

What the operating system answers when a file cannot be used. A failure has a
kind, which decides whether the attempt is repeated, and a text, which is all
that a message shows of it.
-/

namespace Enclave

/-- **The kind of a failure**, as far as anything depends on it. -/
inductive IoError.Kind where
  | notFound
  | permissionDenied
  | notADirectory
  | isADirectory
  | storageFull
  | interrupted
  | wouldBlock
  | timedOut
  | brokenPipe
  | other
deriving DecidableEq, Repr

/-- **A failure to use a file.** -/
structure IoError where
  /-- What sort of failure it is. -/
  kind : IoError.Kind
  /-- How it is worded. -/
  text : String
deriving DecidableEq, Repr

namespace IoError

/-- Nothing has the name. -/
def missing : IoError := ⟨.notFound, "No such file or directory (os error 2)"⟩

/-- A name leads through something that is not a directory. -/
def notDirectory : IoError := ⟨.notADirectory, "Not a directory (os error 20)"⟩

/-- A directory was used as a file. -/
def directory : IoError := ⟨.isADirectory, "Is a directory (os error 21)"⟩

/-- A device takes no more bytes. -/
def full : IoError := ⟨.storageFull, "No space left on device (os error 28)"⟩

/-- Symbolic links lead on and on. -/
def linkLoop : IoError :=
  ⟨.other, "Too many levels of symbolic links (os error 40)"⟩

/-- A name in a path is longer than names may be. -/
def nameTooLong : IoError := ⟨.other, "File name too long (os error 36)"⟩

/-- A path holds the character that ends a path. -/
def nulInPath : IoError := ⟨.other, "file name contained an unexpected NUL byte"⟩

/-- A transfer took longer than it may. -/
def expired : IoError := ⟨.timedOut, "attestation I/O timed out"⟩

/-- A file that only ever gives. -/
def readOnly : IoError := ⟨.permissionDenied, "read-only file"⟩

/-- **A failure that only delays**: the same call may succeed when it is
repeated. -/
def isTransient (e : IoError) : Bool :=
  e.kind = .interrupted || e.kind = .wouldBlock

end IoError

end Enclave
