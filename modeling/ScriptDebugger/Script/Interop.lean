import ScriptDebugger.Bytes.Sha256
import ScriptDebugger.Contract.Hash
import ScriptDebugger.Text.Utf8

/-! Services outside the machine. A script names a service by the first four bytes of the SHA-256
digest of its name, least significant first. Main statement: the codes of the known services are
the ones their names give. -/
namespace ScriptDebugger

def interopCode (name : String) : Nat := Bytes.toNat ((Sha256.digest (Utf8.encode name)).take 4)

def ContractHash.ofScript (script : Bytes) : ContractHash :=
  ⟨(Sha256.digest script).take 20, by simp [Sha256.digestLength]⟩

inductive Interop where
  | contractCall
  | log
  | getTime
  | storageGet
  | storagePut
  deriving DecidableEq, Repr

namespace Interop

def all : List Interop := [.contractCall, .log, .getTime, .storageGet, .storagePut]

def name : Interop → String
  | .contractCall => "System.Contract.Call"
  | .log => "System.Runtime.Log"
  | .getTime => "System.Runtime.GetTime"
  | .storageGet => "System.Storage.Get"
  | .storagePut => "System.Storage.Put"

def code : Interop → Nat
  | .contractCall => 0x525b7d62
  | .log => 0x9647e7cf
  | .getTime => 0x0388c3b7
  | .storageGet => 0x31e85d92
  | .storagePut => 0x84183fe6

def ofCode? (n : Nat) : Option Interop := all.find? fun service => service.code == n

theorem nameGivesCode (service : Interop) : interopCode service.name = service.code := by
  cases service <;> decide +kernel

theorem codeReadBack (service : Interop) : ofCode? service.code = some service := by
  cases service <;> rfl

end Interop

end ScriptDebugger
