import SubstanceConnector.System.PortFile
import SubstanceConnector.Messaging.Dispatch

/-!
# Copies of a bounded length

`string_utils.c`: `connector_strndup` and `connector_untrusted_strlen`, for lengths that need not match the contents. The
copy has no terminator of its own unless the length lies behind that of the string, and then it reads on behind it; the
search for a terminator goes from the end, so that it finds the last one. So the one is a `strndup` for a single length,
and the other finds the length of the string if there is one terminator at most (`bounded_strings`).

What the call of a function finds in memory is the list of bytes from its pointer to the end of the object. The length of
a string is a natural number, since the string lies in memory with its terminator.
-/

namespace SubstanceConnector.StringUtils

open PortFile

/-! ## The model -/

/-- `strlen` reads up to the first terminator. -/
def strlen : List UInt8 → Except Fault Nat
  | [] => .error .bufferOverflow
  | c :: rest => if c = 0 then pure 0 else do
    let length ← strlen rest
    pure (length + 1)

/-- The string that is returned, and how many bytes of the other one were read. -/
structure Duplicate where
  result : Option (List UInt8)
  read : Nat

/-- `connector_strndup`, where `size_t` has `sizeBits` bits. -/
def connectorStrndup (memory : Allocator) (sizeBits : Nat) (s : Option (List UInt8)) (n : Nat) :
    Except Fault Duplicate :=
  match s with
  | none => pure ⟨none, 0⟩
  | some s => do
    let length := (← strlen s) + 1
    if n ≤ length then
      match memory.allocate n with
      | some block => do
        let block ← inBounds (Block.copy block s n)
        pure ⟨some block, max length n⟩
      | none => .error .nullDereference
    else
      match memory.allocate ((n + 1) % 2 ^ sizeBits) with
      | some block => do
        let block ← inBounds (Block.copy block s n)
        let block ← inBounds (Block.store block n 0)
        pure ⟨some block, max length n⟩
      | none => .error .nullDereference

/-- The value of a `char`, whose signedness the platform decides. -/
def charToInt (signedChar : Bool) (x : UInt8) : Int := if signedChar then x.toInt8.toInt else x.toNat

/-- The loop of `connector_memrchr`, with `index` one behind the byte it tests next. -/
def memrchrLoop (signedChar : Bool) (buffer : List UInt8) (c : Int) : Nat → Except Fault (Option Nat)
  | 0 => pure none
  | index + 1 => do
    let x ← inBounds buffer[index]?
    if charToInt signedChar x = c then pure (some index) else memrchrLoop signedChar buffer c index

/-- `connector_memrchr`: the offset of the byte it points to. -/
def connectorMemrchr (signedChar : Bool) (buffer : List UInt8) (c : Int) (length : Nat) : Except Fault (Option Nat) :=
  memrchrLoop signedChar buffer c length

/-- `connector_untrusted_strlen`, with what `*length` holds before and after. -/
def connectorUntrustedStrlen (signedChar : Bool) (buffer : List UInt8) (bufferLength : Nat) (length : Option Nat) :
    Except Fault (Retcode × Option Nat) := do
  let found ← connectorMemrchr signedChar buffer 0 bufferLength
  match found, length with
  | some found, some _ => pure (.success, some found)
  | _, _ => pure (.error, length)

/-! ## Copying -/

/-- What `strndup` does: it reads nothing behind the terminator, and its result starts with the first `n` bytes of the
string, or with all of them, and a terminator. -/
def Duplicates (memory : Allocator) (sizeBits : Nat) (s : CString) (behind : List UInt8) (n : Nat) : Prop :=
  ∃ d block, connectorStrndup memory sizeBits (some (s.buffer ++ behind)) n = .ok d ∧ d.read ≤ s.length + 1 ∧
    d.result = some block ∧ s.bytes.take n ++ [0] <+: block

theorem strlen_append {bytes : List UInt8} (h : 0 ∉ bytes) (behind : List UInt8) :
    strlen (bytes ++ 0 :: behind) = .ok bytes.length := by
  induction bytes with
  | nil => rfl
  | cons c bytes ih =>
    rw [List.mem_cons, not_or] at h
    rw [List.cons_append, strlen, if_neg (Ne.symm h.1), ih h.2]
    rfl

theorem strlen_buffer (s : CString) (behind : List UInt8) : strlen (s.buffer ++ behind) = .ok s.length := by
  rw [CString.buffer, List.append_assoc, List.singleton_append, strlen_append s.nulFree]
  rfl

theorem length_buffer (s : CString) : s.buffer.length = s.length + 1 := List.length_append

section copying
variable {memory : Allocator} {sizeBits n : Nat} {s : CString} {behind : List UInt8}

/-- Up to the terminator the copy has exactly the bytes that were asked for. -/
theorem strndup_of_le (hn : n ≤ s.length + 1) {block : List UInt8} (hblock : memory.allocate n = some block) :
    connectorStrndup memory sizeBits (some (s.buffer ++ behind)) n = .ok ⟨some (s.buffer.take n), s.length + 1⟩ := by
  have hlength := memory.length_eq hblock
  have hsource : n ≤ s.buffer.length := by rwa [length_buffer]
  have hcopy : Block.copy block (s.buffer ++ behind) n = some (s.buffer.take n) := by
    rw [Block.copy, if_pos, List.take_append_of_le_length hsource, ← hlength, List.drop_length, List.append_nil]
    rw [List.length_append]
    omega
  simp only [connectorStrndup, strlen_buffer, bind, Except.bind, if_pos hn, hblock, hcopy, inBounds, max_eq_left hn]
  rfl

/-- Behind the terminator it reads what is there. -/
theorem read_of_lt (hn : s.length + 1 < n) {d : Duplicate}
    (h : connectorStrndup memory sizeBits (some (s.buffer ++ behind)) n = .ok d) : d.read = n := by
  obtain ⟨length, hlength, h⟩ := bind_eq_ok.mp h
  obtain rfl := Except.ok.inj ((strlen_buffer s behind).symm.trans hlength)
  rw [if_neg (by omega)] at h
  split at h
  · obtain ⟨copied, -, h⟩ := bind_eq_ok.mp h
    obtain ⟨stored, -, h⟩ := bind_eq_ok.mp h
    obtain rfl := Except.ok.inj h
    exact max_eq_right hn.le
  · cases h

theorem duplicates_iff :
    Duplicates memory sizeBits s behind n ↔ n = s.length + 1 ∧ (memory.allocate n).isSome := by
  refine ⟨?_, ?_⟩
  · rintro ⟨d, block, hrun, hread, hresult, hprefix⟩
    have hn : n ≤ s.length + 1 := by
      by_contra hlt
      rw [read_of_lt (not_le.mp hlt) hrun] at hread
      exact hlt hread
    cases hblock : memory.allocate n with
    | none =>
      simp [connectorStrndup, strlen_buffer, bind, Except.bind, hn, hblock] at hrun
    | some allocated =>
      rw [strndup_of_le hn hblock] at hrun
      obtain rfl := Except.ok.inj hrun
      obtain rfl := Option.some.inj hresult
      -- a terminator behind the bytes takes a byte of its own
      have hlength := hprefix.length_le
      rw [List.length_append, List.length_take, List.length_take, length_buffer, List.length_singleton] at hlength
      refine ⟨?_, rfl⟩
      change min n s.length + 1 ≤ _ at hlength
      omega
  · rintro ⟨rfl, hblock⟩
    obtain ⟨block, hblock⟩ := Option.isSome_iff_exists.mp hblock
    refine ⟨_, _, strndup_of_le (Nat.le_refl _) hblock, Nat.le_refl _, rfl, ?_⟩
    rw [← length_buffer, List.take_length, List.take_of_length_le]
    · exact List.prefix_refl _
    · rw [length_buffer]
      exact Nat.le_succ _

end copying

/-! ## Searching from the end -/

/-- The offset of the last byte with a property, if there is one. -/
inductive Last (p : UInt8 → Prop) : List UInt8 → Option Nat → Prop
  | absent {buffer : List UInt8} (h : ∀ x ∈ buffer, ¬ p x) : Last p buffer none
  | found (before : List UInt8) {x : UInt8} {after : List UInt8} (hx : p x) (hafter : ∀ y ∈ after, ¬ p y) :
      Last p (before ++ x :: after) (some before.length)

theorem Last.append {p : UInt8 → Prop} {buffer : List UInt8} {r : Option Nat} (h : Last p buffer r) {x : UInt8}
    (hx : ¬ p x) : Last p (buffer ++ [x]) r := by
  cases h with
  | absent h =>
    refine .absent fun y hy => ?_
    obtain hy | hy := List.mem_append.mp hy
    · exact h y hy
    · rwa [List.mem_singleton.mp hy]
  | found before hlast hafter =>
    rw [List.append_assoc, List.cons_append]
    refine .found before hlast fun y hy => ?_
    obtain hy | hy := List.mem_append.mp hy
    · exact hafter y hy
    · rwa [List.mem_singleton.mp hy]

/-- The last instance of the character. -/
theorem connectorMemrchr_last (signedChar : Bool) (buffer behind : List UInt8) (c : Int) :
    ∃ r, connectorMemrchr signedChar (buffer ++ behind) c buffer.length = .ok r ∧
      Last (fun x => charToInt signedChar x = c) buffer r := by
  unfold connectorMemrchr
  induction buffer using List.reverseRecOn generalizing behind with
  | nil => exact ⟨none, rfl, .absent fun x hx => absurd hx List.not_mem_nil⟩
  | append_singleton buffer x ih =>
    have hbyte : (buffer ++ [x] ++ behind)[buffer.length]? = some x := by simp
    rw [List.length_append, List.length_singleton, memrchrLoop, hbyte]
    by_cases hx : charToInt signedChar x = c
    · refine ⟨some buffer.length, if_pos hx, .found buffer hx fun y hy => absurd hy List.not_mem_nil⟩
    · obtain ⟨r, hr, hlast⟩ := ih (x :: behind)
      refine ⟨r, ?_, hlast.append hx⟩
      rw [List.append_assoc, List.singleton_append]
      exact (if_neg hx).trans hr

/-- What the search promises: it succeeds if the buffer has a terminator, and stores the length of the string that starts at
the buffer. -/
def Measures (signedChar : Bool) (buffer behind : List UInt8) (length : Option Nat) : Prop :=
  ∃ r, connectorUntrustedStrlen signedChar (buffer ++ behind) buffer.length length = .ok r ∧
    (r.1 = .success ↔ 0 ∈ buffer) ∧ (r.1 = .success → r.2 = some (CString.ofBuffer buffer).length)

theorem charToInt_eq_zero {signedChar : Bool} {x : UInt8} : charToInt signedChar x = 0 ↔ x = 0 := by
  cases signedChar with
  | false =>
    show (x.toNat : Int) = 0 ↔ x = 0
    rw [Int.natCast_eq_zero, ← UInt8.toNat_inj]
    rfl
  | true =>
    show x.toInt8.toInt = 0 ↔ x = 0
    refine ⟨fun h => ?_, fun h => by rw [h]; rfl⟩
    have hzero : x.toInt8 = 0 := Int8.toInt_inj.mp h
    rw [← UInt8.toUInt8_toInt8 x, hzero]
    rfl

/-- The string ends at the first terminator. -/
theorem length_ofBuffer_eq_iff (before after : List UInt8) :
    (CString.ofBuffer (before ++ 0 :: after)).length = before.length ↔ 0 ∉ before := by
  refine ⟨fun h => ?_, fun h => ?_⟩
  · have hsame : (CString.ofBuffer (before ++ 0 :: after)).bytes = before :=
      (List.prefix_of_prefix_length_le (List.takeWhile_prefix _) (List.prefix_append _ _) h.le).eq_of_length h
    rw [← hsame]
    exact (CString.ofBuffer _).nulFree
  · show ((before ++ 0 :: after).takeWhile (· != 0)).length = _
    rw [takeWhile_terminated h]

theorem measures_iff {signedChar : Bool} {buffer behind : List UInt8} {length : Option Nat} :
    Measures signedChar buffer behind length ↔ buffer.count 0 = 0 ∨ buffer.count 0 = 1 ∧ length.isSome := by
  obtain ⟨r, hr, hlast⟩ := connectorMemrchr_last signedChar buffer behind 0
  unfold Measures connectorUntrustedStrlen
  rw [hr]
  simp only [charToInt_eq_zero] at hlast
  cases hlast with
  | absent h =>
    have hmem : 0 ∉ buffer := fun hmem => h 0 hmem rfl
    refine iff_of_true ⟨(.error, length), rfl, iff_of_false ?_ hmem, fun hsuccess => ?_⟩ (.inl ?_)
    · exact Retcode.noConfusion
    · cases hsuccess
    · exact List.count_eq_zero_of_not_mem hmem
  | @found before x after hx hafter =>
    subst hx
    have hmem : 0 ∈ before ++ 0 :: after := by simp
    have hcount : (before ++ 0 :: after).count 0 = before.count 0 + 1 := by
      rw [List.count_append, List.count_cons_self, List.count_eq_zero_of_not_mem fun hzero => hafter 0 hzero rfl]
    have hone : (before ++ 0 :: after).count 0 = 1 ↔ 0 ∉ before := by
      rw [hcount, Nat.add_eq_right, List.count_eq_zero]
    have hsome : (before ++ 0 :: after).count 0 ≠ 0 := hcount ▸ Nat.succ_ne_zero _
    rw [or_iff_right hsome, hone, ← length_ofBuffer_eq_iff before after]
    cases length with
    | none =>
      -- without a place for it no length is found
      refine iff_of_false ?_ fun h => Bool.false_ne_true h.2
      rintro ⟨r, hrun, hsuccess, -⟩
      obtain rfl := Except.ok.inj hrun
      cases hsuccess.mpr hmem
    | some length =>
      refine ⟨?_, fun h => ⟨_, rfl, iff_of_true rfl hmem, fun _ => congrArg some h.1.symm⟩⟩
      rintro ⟨r, hrun, -, hstored⟩
      obtain rfl := Except.ok.inj hrun
      exact ⟨(Option.some.inj (hstored rfl)).symm, rfl⟩

/-! ## Lengths that match -/

/-- `connector_strndup` is a `strndup` for the length of the string with its terminator only, and
`connector_untrusted_strlen` measures exactly the buffers that do not have several terminators, if there is a place for the
length. -/
theorem bounded_strings (memory : Allocator) (sizeBits : Nat) (signedChar : Bool) :
    (∀ s behind n, Duplicates memory sizeBits s behind n ↔ n = s.length + 1 ∧ (memory.allocate n).isSome) ∧
      ∀ buffer behind length, Measures signedChar buffer behind length ↔
        buffer.count 0 = 0 ∨ buffer.count 0 = 1 ∧ length.isSome :=
  ⟨fun _ _ _ => duplicates_iff, fun _ _ _ => measures_iff⟩

/-- A string copied for a shorter and for a longer length, and a buffer with two terminators. -/
theorem bounds_missed :
    let memory : Allocator := ⟨fun n => some (List.replicate n 255), fun h => by cases h; exact List.length_replicate⟩
    let s : CString := ⟨[0x61, 0x62, 0x63], by decide⟩
    ¬ Duplicates memory 64 s [] 2 ∧ ¬ Duplicates memory 64 s [] 8 ∧
      ¬ Measures true [0x61, 0, 0x62, 0] [] (some 0) := by
  intro memory s
  refine ⟨fun h => ?_, fun h => ?_, fun h => ?_⟩
  · exact absurd (duplicates_iff.mp h).1 (by decide)
  · exact absurd (duplicates_iff.mp h).1 (by decide)
  · exact absurd (measures_iff.mp h) (by decide)

end SubstanceConnector.StringUtils
