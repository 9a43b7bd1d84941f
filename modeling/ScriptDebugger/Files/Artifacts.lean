import ScriptDebugger.Files.Path
import ScriptDebugger.Registry

/-! The two files that describe a contract: its metadata and its instruction dump. Both are read
before either is looked at. -/
namespace ScriptDebugger

structure Artifacts where
  metadata : String
  dump : String
  deriving DecidableEq, Repr

namespace Artifacts

def readText (files : Files) (path : String) : Result String :=
  (files.readText path).mapError fun cause => .invalidDebugInfo (.unreadable path cause)

def load (files : Files) (metadata dump : String) : Result Artifacts := do
  return ⟨← readText files metadata, ← readText files dump⟩

def profile (a : Artifacts) (contract : ContractHash) : Result Profile :=
  Profile.ofTexts contract a.metadata a.dump

end Artifacts

end ScriptDebugger
