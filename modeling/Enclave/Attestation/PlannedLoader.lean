import Enclave.Attestation.RemoteVerifier

/-!
# Loaders that follow a plan

A loader that knows in advance how each of its runs ends: with a verifier of a
fixed status or with an error. It counts its runs. When the plan has no more
to say, its last entry holds for all runs that follow.
-/

namespace Enclave

/-- **A plan** for the runs of a loader. It says something about the first one. -/
structure LoaderPlan where
  /-- How the first run ends. -/
  first : Except Error Int
  /-- How the runs after it end. -/
  later : List (Except Error Int) := []

namespace LoaderPlan

/-- **How a run ends**, counted from zero. -/
def outcome (plan : LoaderPlan) (run : Nat) : Except Error Int :=
  let all := plan.first :: plan.later
  all.getD run (all.getLastD plan.first)

/-- **The loader that follows a plan.** Its state is the number of its runs so
far. -/
def loader {m : Type → Type} [Monad m] (plan : LoaderPlan) :
    ExceptT Error (StateM Nat) (RemoteVerifier m) := do
  let run ← get
  set (run + 1)
  let status ← liftExcept (plan.outcome run)
  return .mock status

end LoaderPlan

end Enclave
