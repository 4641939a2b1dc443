import SubstanceConnector.Base

/-!
# The context structure

`connector_context_t` and the bit fields of its `configuration` word.
-/

namespace SubstanceConnector

/-- A `char*` a context holds: a block the library allocated, named by the allocation that produced
it, or a string that stays the property of the caller. -/
inductive Pointer where
  | block (id : Nat) (text : CString)
  | borrowed (text : CString)
  deriving DecidableEq

def Pointer.text : Pointer → CString
  | block _ text => text
  | borrowed text => text

/-- `connector_context_t`; null pointers are `none`. -/
structure ConnectorContext where
  configuration : UInt64
  fd : Nat
  port : Nat
  connectionData : Option Pointer
  applicationName : Option Pointer
  identifier : UInt16
  deriving DecidableEq

-- the structure after `memset(context, 0x00, sizeof(*context))`
def ConnectorContext.zero : ConnectorContext := ⟨0, 0, 0, none, none, 0⟩

def commTcp : UInt64 := 0x01
def commUnix : UInt64 := 0x02
def commMax : UInt64 := 0x02
def commMask : UInt64 := 0xff

def connClosed : UInt64 := 0x000
def connOpen : UInt64 := 0x100
def connConnected : UInt64 := 0x200
def connShutdown : UInt64 := 0x400
def connMask : UInt64 := 0x700

def handshakeSent : UInt64 := 0x800
def handshakeMask : UInt64 := 0x800

theorem or_and_distrib (a b d : UInt64) : (a ||| b) &&& d = a &&& d ||| b &&& d := by
  apply UInt64.toBitVec_inj.mp
  exact BitVec.and_or_distrib_right

def ConnectorContext.state (c : ConnectorContext) : UInt64 := c.configuration &&& connMask

def ConnectorContext.type (c : ConnectorContext) : UInt64 := c.configuration &&& commMask

end SubstanceConnector
