import SubstanceConnector.Network.ReadWrite

/-!
# The length of an incoming message

The length in a received header is anything a peer cares to send. `read_message_data` adds one to it
in 32 bits, allocates and clears that many bytes, and only then looks whether there is a block. For
one length the sum wraps, and with a failed allocation the bytes cleared are at address zero; these
are the only ways in which it goes wrong.
-/

namespace SubstanceConnector

/-- The call has returned, having stored at most a terminated message of `capacity` bytes. -/
def Stored (message : ConnectorMessage) (capacity : Nat) : Net (Except Fault (Retcode × ConnectorMessage)) → Prop
  | .ret (.ok (code, m)) =>
    if code = .success then
      ∃ buffer, m = { message with message := some buffer } ∧ buffer.length = capacity ∧
        buffer.getLast? = some 0
    else m = message
  | _ => False

/-- From here on the call asks `recv` for exactly the announced length, has a byte to spare for the
terminator, and keeps to its buffer as long as `recv` stores no more than it was asked for; or it
returns an error at once. -/
def WithinBuffer (context : ConnectorContext) (message : ConnectorMessage) :
    Net (Except Fault (Retcode × ConnectorMessage)) → Prop
  | .call (.recv fd capacity len) k =>
    fd = context.fd ∧ len = message.header.messageLength.toNat ∧ len + 1 ≤ capacity ∧
      Stored message capacity (k .failed) ∧
      ∀ bs : List UInt8, bs.length ≤ len → Stored message capacity (k (.bytes bs))
  | .ret (.ok (code, m)) => code ≠ .success ∧ m = message
  | _ => False

/-- `read_message_data` when the allocator answers `block`: it allocates one byte more than the announced length,
which the sum in 32 bits must not miss. -/
def ReadsWithin (context : ConnectorContext) (message : ConnectorMessage) (block : Option (List UInt8)) : Prop :=
  ∃ size k, readMessageData context message = .call (.allocate size) k ∧
    size = message.header.messageLength.toNat + 1 ∧ WithinBuffer context message (k block)

theorem readsWithin_iff (context : ConnectorContext) (message : ConnectorMessage) (block : Option (List UInt8)) :
    ReadsWithin context message block ↔
      (message.header.messageLength + 1).toNat = message.header.messageLength.toNat + 1 ∧
        WithinBuffer context message (fillBlock context message (message.header.messageLength + 1).toNat block) := by
  constructor
  · rintro ⟨size, k, heq, hsum, h⟩
    rw [readMessageData_eq, Interaction.call.injEq] at heq
    obtain ⟨hsize, hk⟩ := heq
    rw [NetCall.allocate.injEq] at hsize
    subst hsize
    rw [← eq_of_heq hk] at h
    exact ⟨hsum, h⟩
  · exact fun h => ⟨_, _, readMessageData_eq context message, h⟩

/-- The increment wraps for the largest length only. -/
theorem messageLength_add_one_iff (x : UInt32) : (x + 1).toNat = x.toNat + 1 ↔ x ≠ 0xffffffff := by
  have hlt := x.toNat_lt
  have hmax : x = 0xffffffff ↔ x.toNat = 2 ^ 32 - 1 := UInt32.toNat_inj.symm
  rw [UInt32.toNat_add, ne_eq, hmax]
  simp only [UInt32.reduceToNat]
  omega

/-- What was received and the zeros behind it end in a zero. -/
theorem getLast?_append_replicate (bs : List UInt8) {n : Nat} (h : bs.length < n) :
    (bs ++ List.replicate (n - bs.length) (0 : UInt8)).getLast? = some 0 := by
  obtain ⟨k, hk⟩ : ∃ k, n - bs.length = k + 1 := ⟨n - bs.length - 1, by omega⟩
  rw [hk, List.replicate_succ', ← List.append_assoc, List.getLast?_concat]

/-- With a block and a length that does not wrap, the call keeps to the block. -/
theorem withinBuffer_some (context : ConnectorContext) (message : ConnectorMessage) (heap : List UInt8)
    (h : message.header.messageLength.toNat < 2 ^ 32 - 1) :
    WithinBuffer context message
      (fillBlock context message (message.header.messageLength + 1).toNat (some heap)) := by
  have hlen : (message.header.messageLength.toNat + 1 + (2 ^ 64 - 1)) % 2 ^ 64 =
      message.header.messageLength.toNat := by omega
  rw [messageLength_succ h]
  simp only [fillBlock, recvCall_bind, WithinBuffer, hlen]
  refine ⟨trivial, trivial, Nat.le_refl _, ?_, fun bs hbs => ?_⟩
  · simp [Stored]
  · rw [if_neg (by omega)]
    simp only [Stored]
    refine ⟨_, rfl, ?_, getLast?_append_replicate bs (by omega)⟩
    rw [List.length_append, List.length_replicate]
    omega

/-- **The announced length is read safely** exactly when the allocation succeeds and the length is not
the largest one. -/
theorem reads_within_iff (context : ConnectorContext) (message : ConnectorMessage) (block : Option (List UInt8)) :
    ReadsWithin context message block ↔ block.isSome ∧ message.header.messageLength ≠ 0xffffffff := by
  rw [readsWithin_iff, messageLength_add_one_iff, and_comm]
  refine and_congr_left fun hmax => ?_
  cases block with
  | none => exact iff_of_false id Bool.false_ne_true
  | some heap =>
    refine iff_of_true (withinBuffer_some context message heap ?_) rfl
    have hsum := (messageLength_add_one_iff _).mpr hmax
    have hlt := (message.header.messageLength + 1).toNat_lt
    omega

/-- A header as a peer can send it: the magic number, two bytes of padding, `length` and an identifier
of zeros. -/
def receivedHeader (length : UInt32) : List UInt8 :=
  ByteOrder.big.store 2 connectorMessageIdentifier.toNat ++ [0, 0] ++ ByteOrder.big.store 4 length.toNat ++
    List.replicate 16 0

def received (length : UInt32) : ConnectorMessage := (blankMessage 0).withHeader .little (receivedHeader length)

/-- The largest length is a legal one, whatever the allocator answers, and so is that of a message there is no
memory for. -/
theorem length_read_unsafely :
    ((receivedHeader 0xffffffff).length = headerSize ∧
      connectorIdentifyMessage (received 0xffffffff).header.description = true ∧
      ∀ block, ¬ ReadsWithin .zero (received 0xffffffff) block) ∧
    (receivedHeader 5).length = headerSize ∧
      connectorIdentifyMessage (received 5).header.description = true ∧
      ¬ ReadsWithin .zero (received 5) none := by
  refine ⟨⟨by decide, by decide, fun block => ?_⟩, by decide, by decide, ?_⟩
  · -- the sum is zero
    have hlength : (received 0xffffffff).header.messageLength = 0xffffffff := by decide
    rw [readsWithin_iff, hlength]
    exact fun h => absurd h.1 (by decide)
  · rw [readsWithin_iff]
    exact fun h => h.2

end SubstanceConnector
