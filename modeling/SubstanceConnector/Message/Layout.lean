import SubstanceConnector.Library.ByteCodec
import SubstanceConnector.Message.Header

/-!
# The header in memory and on the wire

`connector_message_header_t` as the compiler lays it out (a 16-bit description, two bytes of
padding, a 32-bit length and four 32-bit words), the conversions of `connection_utils.c` between
host and network byte order, and the fact the framing rests on: the 24 bytes a header leaves a
machine as do not depend on the machine, and every machine reads the header back from them.
-/

namespace SubstanceConnector

-- `sizeof(connector_message_header_t)`
def headerSize : Nat := 24

def htons (host : ByteOrder) (x : UInt16) : UInt16 := UInt16.ofNat (host.toNetwork 2 x.toNat)

def htonl (host : ByteOrder) (x : UInt32) : UInt32 := UInt32.ofNat (host.toNetwork 4 x.toNat)

def ntohs (host : ByteOrder) (x : UInt16) : UInt16 := htons host x

def ntohl (host : ByteOrder) (x : UInt32) : UInt32 := htonl host x

def htonuuid (host : ByteOrder) (original : Uuid) : Uuid := ⟨fun i => htonl host (original.elements i)⟩

def ntohuuid (host : ByteOrder) (original : Uuid) : Uuid := ⟨fun i => ntohl host (original.elements i)⟩

def connectorHtonheader (host : ByteOrder) (original : MessageHeader) : MessageHeader where
  description := htons host original.description
  messageLength := htonl host original.messageLength
  messageId := htonuuid host original.messageId

def connectorNtohheader (host : ByteOrder) (original : MessageHeader) : MessageHeader where
  description := ntohs host original.description
  messageLength := ntohl host original.messageLength
  messageId := ntohuuid host original.messageId

namespace MessageHeader

/-- The bytes of a header stored field by field over a block that held `heap` before: the two
padding bytes keep what was there. -/
def memory (host : ByteOrder) (heap : List UInt8) (h : MessageHeader) : List UInt8 :=
  host.store 2 h.description.toNat ++ [heap.getD 2 0, heap.getD 3 0] ++
    host.store 4 h.messageLength.toNat ++
    (List.ofFn h.messageId.elements).flatMap fun w => host.store 4 w.toNat

/-- The header a machine sees in the bytes of memory. -/
def ofMemory (host : ByteOrder) (bytes : List UInt8) : MessageHeader where
  description := UInt16.ofNat (host.load (bytes.take 2))
  messageLength := UInt32.ofNat (host.load ((bytes.drop 4).take 4))
  messageId := ⟨fun i => UInt32.ofNat (host.load ((bytes.drop (8 + 4 * i.val)).take 4))⟩

end MessageHeader

/-! ## The wire format -/

theorem store_htons (host : ByteOrder) (x : UInt16) :
    host.store 2 (htons host x).toNat = ByteOrder.big.store 2 x.toNat := by
  have h : host.toNetwork 2 x.toNat < 2 ^ 16 := @ByteOrder.toNetwork_lt host 2 x.toNat x.toNat_lt
  rw [htons, UInt16.toNat_ofNat_of_lt' h, host.store_toNetwork]

theorem store_htonl (host : ByteOrder) (x : UInt32) :
    host.store 4 (htonl host x).toNat = ByteOrder.big.store 4 x.toNat := by
  have h : host.toNetwork 4 x.toNat < 2 ^ 32 := @ByteOrder.toNetwork_lt host 4 x.toNat x.toNat_lt
  rw [htonl, UInt32.toNat_ofNat_of_lt' h, host.store_toNetwork]

/-- The bytes a header is sent as: every field most significant byte first. -/
def wireHeader (heap : List UInt8) (h : MessageHeader) : List UInt8 := h.memory .big heap

theorem memory_connectorHtonheader (host : ByteOrder) (heap : List UInt8) (h : MessageHeader) :
    (connectorHtonheader host h).memory host heap = wireHeader heap h := by
  simp only [MessageHeader.memory, wireHeader, connectorHtonheader, htonuuid, store_htons, store_htonl,
    List.ofFn_succ, List.ofFn_zero, List.flatMap_cons, List.flatMap_nil]

@[simp] theorem length_wireHeader (heap : List UInt8) (h : MessageHeader) :
    (wireHeader heap h).length = headerSize := by
  simp [wireHeader, MessageHeader.memory, headerSize, List.ofFn_succ]

theorem ntohl_load_store (host : ByteOrder) (x : UInt32) :
    ntohl host (UInt32.ofNat (host.load (ByteOrder.big.store 4 x.toNat))) = x := by
  have hload : host.load (ByteOrder.big.store 4 x.toNat) < 2 ^ 32 := by
    cases host with
    | little => simpa [ByteOrder.load] using ByteCodec.leValue_lt (ByteOrder.big.store 4 x.toNat)
    | big => simpa [ByteOrder.load] using ByteCodec.leValue_lt (ByteOrder.big.store 4 x.toNat).reverse
  have hswap := host.toNetwork_load (ByteOrder.big.store 4 x.toNat)
  have hlt : x.toNat < 256 ^ 4 := x.toNat_lt
  rw [ByteOrder.length_store, ByteOrder.load_store, Nat.mod_eq_of_lt hlt] at hswap
  rw [ntohl, htonl, UInt32.toNat_ofNat_of_lt' hload, hswap, UInt32.ofNat_toNat]

theorem ntohs_load_store (host : ByteOrder) (x : UInt16) :
    ntohs host (UInt16.ofNat (host.load (ByteOrder.big.store 2 x.toNat))) = x := by
  have hload : host.load (ByteOrder.big.store 2 x.toNat) < 2 ^ 16 := by
    cases host with
    | little => simpa [ByteOrder.load] using ByteCodec.leValue_lt (ByteOrder.big.store 2 x.toNat)
    | big => simpa [ByteOrder.load] using ByteCodec.leValue_lt (ByteOrder.big.store 2 x.toNat).reverse
  have hswap := host.toNetwork_load (ByteOrder.big.store 2 x.toNat)
  have hlt : x.toNat < 256 ^ 2 := x.toNat_lt
  rw [ByteOrder.length_store, ByteOrder.load_store, Nat.mod_eq_of_lt hlt] at hswap
  rw [ntohs, htons, UInt16.toNat_ofNat_of_lt' hload, hswap, UInt16.ofNat_toNat]

theorem ofMemory_wireHeader_description (host : ByteOrder) (heap : List UInt8) (h : MessageHeader) :
    (MessageHeader.ofMemory host (wireHeader heap h)).description =
      UInt16.ofNat (host.load (ByteOrder.big.store 2 h.description.toNat)) := rfl

theorem ofMemory_wireHeader_messageLength (host : ByteOrder) (heap : List UInt8) (h : MessageHeader) :
    (MessageHeader.ofMemory host (wireHeader heap h)).messageLength =
      UInt32.ofNat (host.load (ByteOrder.big.store 4 h.messageLength.toNat)) := rfl

theorem ofMemory_wireHeader_messageId (host : ByteOrder) (heap : List UInt8) (h : MessageHeader) (i : Fin 4) :
    (MessageHeader.ofMemory host (wireHeader heap h)).messageId.elements i =
      UInt32.ofNat (host.load (ByteOrder.big.store 4 (h.messageId.elements i).toNat)) := by
  match i with
  | 0 => rfl
  | 1 => rfl
  | 2 => rfl
  | 3 => rfl

/-- Every machine reads back the header that was sent, whatever the padding holds. -/
theorem ntohheader_wireHeader (host : ByteOrder) (heap : List UInt8) (h : MessageHeader) :
    connectorNtohheader host (.ofMemory host (wireHeader heap h)) = h := by
  obtain ⟨description, messageLength, messageId⟩ := h
  simp only [connectorNtohheader, ntohuuid, ofMemory_wireHeader_description,
    ofMemory_wireHeader_messageLength, ofMemory_wireHeader_messageId, ntohs_load_store, ntohl_load_store]

end SubstanceConnector
