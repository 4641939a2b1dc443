import Mathlib.Data.Fin.VecNotation
import Mathlib.Data.Fintype.Pi

/-!
# Error codes, identifiers and build constants

The types every part of the library shares: the return codes of `errorcodes.h`, the 128-bit
identifiers of `types.h`, C strings, the ways a call can go wrong that C leaves undefined, and the
compile-time counts a build may override.
-/

namespace SubstanceConnector

/-- `enum SubstanceConnectorError`. -/
inductive Retcode where
  | success
  | error
  | badAlloc
  | notLoaded
  | connFail
  | sendFail
  | unsupported
  | invalid
  | readFail
  | openFail
  deriving DecidableEq, Repr

/-- What the library does when it leaves the defined behaviour of C. -/
inductive Fault where
  | nullDereference
  | useAfterFree
  | bufferOverflow
  | divisionByZero
  | invalidFree
  deriving DecidableEq, Repr

/-- Why a call with loops does not return: a fault, or the rounds that were allowed to its loops do not suffice. -/
inductive Stop where
  | fault (f : Fault)
  | rounds
  deriving DecidableEq, Repr

/-- A sequence of calls ends normally if each of them does. -/
theorem bind_eq_ok {ε α β : Type} {x : Except ε α} {f : α → Except ε β} {b : β} :
    x >>= f = .ok b ↔ ∃ a, x = .ok a ∧ f a = .ok b := by
  cases x with
  | error e => simp [bind, Except.bind]
  | ok a => simp [bind, Except.bind]

/-- `substance_connector_uuid_t`: four 32-bit words. -/
@[ext] structure Uuid where
  elements : Fin 4 → UInt32
  deriving DecidableEq

def Uuid.ofWords (a b c d : UInt32) : Uuid := ⟨![a, b, c, d]⟩

def connectorInternalHandshakeUuid : Uuid :=
  .ofWords 0x02572bc5 0x2d84450a 0x9e01d22c 0x66b1abb1

def connectorInternalConnectionClosedUuid : Uuid :=
  .ofWords 0x04705ddf 0x16d44489 0xaf6c6e3a 0x93f1959d

/-- A C string: the bytes before its terminator, none of which is zero. -/
@[ext] structure CString where
  bytes : List UInt8
  nulFree : 0 ∉ bytes
  deriving DecidableEq

namespace CString

def length (s : CString) : Nat := s.bytes.length

def buffer (s : CString) : List UInt8 := s.bytes ++ [0]

end CString

/-- The numbers fixed when the library is compiled: `SUBSTANCE_CONNECTOR_CONTEXT_COUNT` and
`SUBSTANCE_CONNECTOR_INBOUND_COUNT`, each at least one, the numbers of write and dispatch threads, and
the platform's size of `sun_path`. The context count is small enough for its ring to have a 32-bit
size. -/
structure BuildConfig where
  contextCount : Nat
  inboundCount : Nat
  outboundCount : Nat
  dispatchCount : Nat
  sunPathSize : Nat
  contextCount_pos : 0 < contextCount
  contextCount_le : contextCount ≤ 2 ^ 32 - 3
  inboundCount_pos : 0 < inboundCount

namespace BuildConfig

/-- The values when the build does not override them, on Linux. -/
def default : BuildConfig := ⟨32, 2, 2, 2, 108, by decide, by decide, by decide⟩

/-- The two threads of each of its pools. -/
def firstThread : Fin 2 := ⟨0, Nat.two_pos⟩

def secondThread : Fin 2 := ⟨1, Nat.one_lt_two⟩

/-- `SUBSTANCE_CONNECTOR_READ_CONTEXTS`: how many contexts one read thread has room for. -/
def readContexts (cfg : BuildConfig) : Nat := cfg.contextCount / cfg.inboundCount + 1

end BuildConfig

end SubstanceConnector
