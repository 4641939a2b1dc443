import SubstanceConnector.Context.Broadcast
import SubstanceConnector.Library.Numeral
import Mathlib.Data.List.TakeWhile

/-!
# Port files

`connector_path_join` computes the size of the joined path in one pass over the strings and writes the path in another,
which ends in a terminator instead of a delimiter: it writes every character of the block and none behind it
(`copyLoop_eq`). A port is published as a file with its decimal number as the name, and a broadcast reads the number after
the last delimiter, so that it reads back the port that was published, in whatever directory (`published_port`).

Sizes are natural numbers: the strings lie in memory, and the path does once it is allocated.
-/

namespace SubstanceConnector.PortFile

open Numeral Broadcast ContextSystem

/-! ## Joining paths -/

/-- The blocks an allocator answers with, if it has memory; each has the size that was asked for. -/
structure Allocator where
  allocate : Nat → Option (List UInt8)
  length_eq : ∀ {n : Nat} {block : List UInt8}, allocate n = some block → block.length = n

/-- The first pass: the lengths of the strings, and how many there are. -/
def measure : List CString → Nat → Nat → Nat × Nat
  | [], size, count => (size, count)
  | part :: parts, size, count => measure parts (size + part.length) (count + 1)

/-- The second pass from the `i`-th string on, with the offset of `location` in the block. -/
def copyLoop (count : Nat) : List CString → Nat → List UInt8 → Nat → Except Fault (List UInt8 × Nat)
  | [], _, block, location => pure (block, location)
  | part :: parts, i, block, location => do
    let block ← inBounds (Block.copyAt block location part.bytes)
    let location := location + part.length
    let block ← inBounds (Block.store block location (if i + 1 = count then 0 else pathDelim))
    copyLoop count parts (i + 1) block (location + 1)

/-- The characters that `connector_path_join` asks for. -/
def requested (parts : List CString) : Nat := (measure parts 0 0).1 + ((measure parts 0 0).2 - 1) + 1

/-- `connector_path_join`: `parts` are the strings up to the null pointer, `result` the caller's pointer to its string. -/
def connectorPathJoin (memory : Allocator) (parts : Option (List CString)) (result : Option (Option (List UInt8))) :
    Except Fault (Retcode × Option (Option (List UInt8))) :=
  match parts, result with
  | some parts, some _ =>
    let count := (measure parts 0 0).2
    if 0 < count then
      match memory.allocate (requested parts) with
      | some block => do
        let r ← copyLoop count parts 0 block 0
        pure (.success, some (some r.1))
      -- the pointer is written through without a test
      | none => .error .nullDereference
    else pure (.error, result)
  | _, _ => pure (.error, result)

/-- The strings with single delimiters between them. -/
def joined (parts : List CString) : List UInt8 := [pathDelim].intercalate (parts.map CString.bytes)

/-! ## Publishing a port -/

/-- `%u`. -/
def unsignedDecimal (n : UInt32) : List UInt8 := (shortest 10 n.toNat).map fun d => .ofNat (0x30 + d)

theorem digit_ge {n : UInt32} {c : UInt8} (hc : c ∈ unsignedDecimal n) : 0x30 ≤ c ∧ c ≤ 0x39 := by
  obtain ⟨d, hd, rfl⟩ := List.mem_map.mp hc
  have hlt := lt_of_mem_shortest (by decide) hd
  interval_cases d <;> decide

def connectorPortSprintfSize : Nat := 16

/-- `snprintf` of a port: the characters that fit, and a terminator. -/
def portBuffer (port : UInt32) : CString where
  bytes := (unsignedDecimal port).take (connectorPortSprintfSize - 1)
  nulFree h := absurd (digit_ge (List.mem_of_mem_take h)).1 (by decide)

/-- `create_tcp_filepath`; without a directory the strings end at the first. -/
def createTcpFilepath (memory : Allocator) (tcpDirectory : Option CString) (port : UInt32) :
    Except Fault (Option (List UInt8)) := do
  let parts := tcpDirectory.elim [] fun directory => [directory, portBuffer port]
  let r ← connectorPathJoin memory (some parts) (some none)
  pure (r.2.getD none)

/-! ## The joined path -/

theorem measure_eq (parts : List CString) (size count : Nat) :
    measure parts size count = (size + (parts.map CString.length).sum, count + parts.length) := by
  induction parts generalizing size count with
  | nil => simp [measure]
  | cons part parts ih =>
    rw [measure, ih, List.map_cons, List.sum_cons, List.length_cons]
    congr 1 <;> omega

/-- A character for each of a string and one behind it. -/
theorem requested_eq {parts : List CString} (hparts : parts ≠ []) :
    requested parts = (parts.map fun part => part.length + 1).sum := by
  have hpos := List.length_pos_of_ne_nil hparts
  rw [requested, measure_eq, List.sum_map_add, List.map_const', List.sum_replicate, Nat.nsmul_eq_mul, mul_one]
  simp only [Nat.zero_add]
  omega

theorem joined_cons (part : CString) {parts : List CString} (hparts : parts ≠ []) :
    joined (part :: parts) = part.bytes ++ pathDelim :: joined parts := by
  obtain ⟨next, parts, rfl⟩ := List.exists_cons_of_ne_nil hparts
  simp [joined, List.intercalate]

theorem joined_singleton (part : CString) : joined [part] = part.bytes := by
  simp [joined, List.intercalate]

/-- One turn writes a string and one character behind it. -/
theorem copyLoop_cons (count : Nat) (part : CString) (parts : List CString) (i : Nat) (written : List UInt8)
    {rest : List UInt8} (hrest : part.length < rest.length) : ∃ rest', part.length + 1 + rest'.length = rest.length ∧
      copyLoop count (part :: parts) i (written ++ rest) written.length =
        copyLoop count parts (i + 1) (written ++ part.bytes ++ [if i + 1 = count then 0 else pathDelim] ++ rest')
          (written ++ part.bytes ++ [if i + 1 = count then 0 else pathDelim]).length := by
  have hsplit : rest = rest.take part.length ++ rest[part.length] :: rest.drop (part.length + 1) := by
    rw [← List.drop_eq_getElem_cons hrest, List.take_append_drop]
  have hold : (rest.take part.length).length = part.bytes.length := List.length_take_of_le hrest.le
  refine ⟨rest.drop (part.length + 1), ?_, ?_⟩
  · rw [List.length_drop]
    omega
  · have hcopy := Block.copyAt_append written hold (rest[part.length] :: rest.drop (part.length + 1))
    rw [← hsplit, ← List.append_assoc] at hcopy
    have hstore := Block.store_append (written ++ part.bytes) rest[part.length]
      (if i + 1 = count then 0 else pathDelim) (rest.drop (part.length + 1))
    rw [List.length_append] at hstore
    rw [copyLoop, hcopy]
    change (inBounds (Block.store _ (written.length + part.bytes.length) _) >>= _) = _
    rw [hstore]
    simp [inBounds, bind, Except.bind, CString.length, Nat.add_assoc]

/-- The loop writes every character of the rest of the block. -/
theorem copyLoop_eq (written : List UInt8) {parts : List CString} (hparts : parts ≠ []) {count i : Nat} {rest : List UInt8}
    (hcount : i + parts.length = count) (hrest : rest.length = (parts.map fun part => part.length + 1).sum) :
    copyLoop count parts i (written ++ rest) written.length =
      .ok (written ++ (joined parts ++ [0]), (written ++ rest).length) := by
  induction parts generalizing i written rest with
  | nil => exact absurd rfl hparts
  | cons part parts ih =>
    rw [List.map_cons, List.sum_cons] at hrest
    rw [List.length_cons] at hcount
    obtain ⟨rest', hlength, hturn⟩ := copyLoop_cons count part parts i written (show part.length < rest.length by omega)
    rw [hturn]
    by_cases hlast : parts = []
    · -- the terminator is the last character of the block
      subst hlast
      rw [List.map_nil, List.sum_nil] at hrest
      obtain rfl : rest' = [] := List.eq_nil_of_length_eq_zero (by omega)
      rw [if_pos (by simpa using hcount), joined_singleton, copyLoop, List.append_nil, List.append_assoc]
      simp only [List.length_append, hrest]
      rfl
    · have hmore := List.length_pos_of_ne_nil hlast
      rw [if_neg (by omega), ih _ hlast (by omega) (by omega), joined_cons part hlast]
      simp only [List.append_assoc, List.cons_append, List.nil_append, List.length_append, List.length_cons, ← hlength]
      congr 2
      simp only [CString.length]
      omega

theorem connectorPathJoin_eq {memory : Allocator} {parts : List CString} (hparts : parts ≠ []) {block : List UInt8}
    (hmemory : memory.allocate (requested parts) = some block) (result : Option (List UInt8)) :
    copyLoop parts.length parts 0 block 0 = .ok (joined parts ++ [0], block.length) ∧
      connectorPathJoin memory (some parts) (some result) = .ok (.success, some (some (joined parts ++ [0]))) := by
  have hloop : copyLoop parts.length parts 0 block 0 = .ok (joined parts ++ [0], block.length) := by
    have hlength := (memory.length_eq hmemory).trans (requested_eq hparts)
    exact copyLoop_eq [] hparts (Nat.zero_add _) hlength
  refine ⟨hloop, ?_⟩
  have hcount : (measure parts 0 0).2 = parts.length := by
    rw [measure_eq]
    exact Nat.zero_add _
  rw [connectorPathJoin]
  simp only [hcount, List.length_pos_of_ne_nil hparts, if_true, hmemory, hloop]
  rfl

/-! ## The number in the name -/

theorem foldl_unsignedDecimal (n : UInt32) :
    (unsignedDecimal n).foldl (fun n c => 10 * n + (c.toNat - 0x30)) 0 = n.toNat := by
  rw [unsignedDecimal, List.foldl_map]
  have hdigit : ∀ (m : Nat), ∀ d ∈ shortest 10 n.toNat, 10 * m + ((UInt8.ofNat (0x30 + d)).toNat - 0x30) = 10 * m + d := by
    intro m d hd
    have hlt := lt_of_mem_shortest (by decide) hd
    rw [UInt8.toNat_ofNat_of_lt' (by simp only [UInt8.size]; omega)]
    omega
  rw [List.foldl_ext _ _ 0 hdigit, foldl_digits, value_shortest]
  omega

theorem digitsValue_unsignedDecimal (n : UInt32) : digitsValue (unsignedDecimal n) = n.toNat := by
  have hdigits : (unsignedDecimal n).takeWhile isDigit = unsignedDecimal n := by
    rw [List.takeWhile_eq_self_iff]
    exact fun c hc => decide_eq_true (digit_ge hc)
  rw [digitsValue, hdigits, foldl_unsignedDecimal]

theorem unsignedDecimal_ne_nil (n : UInt32) : unsignedDecimal n ≠ [] := by
  unfold unsignedDecimal shortest
  split
  · exact List.cons_ne_nil _ _
  · rename_i hn
    simp [Nat.digits_ne_nil_iff_ne_zero, hn]

theorem atoi_unsignedDecimal (n : UInt32) : (atoi (unsignedDecimal n)).toUInt32 = n := by
  obtain ⟨c, rest, hdecimal⟩ := List.exists_cons_of_ne_nil (unsignedDecimal_ne_nil n)
  have hc := digit_ge (hdecimal ▸ List.mem_cons_self)
  have hvalue : decimalValue (unsignedDecimal n) = n.toNat := by
    have hspace : ¬ isSpace c = true := by
      intro hspace
      obtain hspace | hspace := of_decide_eq_true hspace
      · rw [hspace] at hc
        exact absurd hc.1 (by decide)
      · exact absurd (UInt8.le_trans hc.1 hspace.2) (by decide)
    have hminus : c ≠ 0x2d := by
      rintro rfl
      exact absurd hc.1 (by decide)
    have hplus : c ≠ 0x2b := by
      rintro rfl
      exact absurd hc.1 (by decide)
    rw [decimalValue, hdecimal, List.dropWhile_cons_of_neg hspace]
    simp only [hminus, hplus, if_false]
    rw [← hdecimal, digitsValue_unsignedDecimal]
  have hlt := n.toNat_lt
  have hlong : max (- 2 ^ 63) (min (2 ^ 63 - 1) (n.toNat : Int)) = n.toNat := by omega
  rw [atoi, hvalue, hlong]
  apply UInt32.toBitVec_inj.mp
  simp

/-- The buffer holds any number, and no delimiter. -/
theorem portBuffer_bytes (port : UInt32) : (portBuffer port).bytes = unsignedDecimal port := by
  apply List.take_of_length_le
  rw [unsignedDecimal, List.length_map]
  apply (length_shortest_le (by decide) (by decide) _).trans (show 10 ≤ _ by decide)
  exact port.toNat_lt.trans (by decide)

theorem delim_not_mem_portBuffer (port : UInt32) : pathDelim ∉ (portBuffer port).bytes := by
  rw [portBuffer_bytes]
  intro hmem
  exact absurd (digit_ge hmem).1 (by decide)

/-! ## Publishing and reading a port -/

/-- Two strings are joined to the path that a broadcast tries. -/
theorem joined_pair (directory name : CString) :
    joined [directory, name] ++ [0] = (SubstanceConnector.connectorPathJoin directory name).buffer := by
  rw [joined_cons directory (List.cons_ne_nil name []), joined_singleton]
  rfl

theorem filenamePort_portBuffer (directory : CString) (port : UInt32) :
    filenamePort (SubstanceConnector.connectorPathJoin directory (portBuffer port)) = some port := by
  rw [filenamePort_join directory (delim_not_mem_portBuffer port), portBuffer_bytes, atoi_unsignedDecimal]

theorem createTcpFilepath_eq {memory : Allocator} {directory : CString} {port : UInt32} {block : List UInt8}
    (hmemory : memory.allocate (requested [directory, portBuffer port]) = some block) :
    createTcpFilepath memory (some directory) port =
      .ok (some (SubstanceConnector.connectorPathJoin directory (portBuffer port)).buffer) := by
  have hjoin := (connectorPathJoin_eq (List.cons_ne_nil directory [portBuffer port]) hmemory none).2
  rw [createTcpFilepath, Option.elim_some, hjoin, joined_pair]
  rfl

/-- With memory for the path, strings are joined with single delimiters and a terminator, which takes every character that
was allocated; and the file of a port, in any directory, is the port that a broadcast reads and connects to. -/
theorem published_port (memory : Allocator) :
    (∀ parts, parts ≠ [] → ∀ block, memory.allocate (requested parts) = some block → ∀ result,
      copyLoop parts.length parts 0 block 0 = .ok (joined parts ++ [0], block.length) ∧
        connectorPathJoin memory (some parts) (some result) = .ok (.success, some (some (joined parts ++ [0])))) ∧
    ∀ directory port block, memory.allocate (requested [directory, portBuffer port]) = some block →
      ∃ path : CString, createTcpFilepath memory (some directory) port = .ok (some path.buffer) ∧
        filenamePort path = some port ∧
        ∀ cfg o t r, testTcpValidity cfg t port = .success → connectTcpPathImpl cfg o path t = .ok r →
          r.2.1 = some port := by
  refine ⟨fun parts hparts block hmemory result => connectorPathJoin_eq hparts hmemory result, ?_⟩
  intro directory port block hmemory
  have hport := filenamePort_portBuffer directory port
  refine ⟨_, createTcpFilepath_eq hmemory, hport, fun cfg o t r hvalid hconnect => ?_⟩
  rw [connectTcpPathImpl, hport] at hconnect
  simp only [hvalid, if_true] at hconnect
  obtain ⟨x, -, hresult⟩ := bind_eq_ok.mp hconnect
  cases hresult
  rfl

/-- Memory with ones in it, and the path of a port. -/
theorem published_port_40021 :
    let memory : Allocator := ⟨fun n => some (List.replicate n 255), fun h => by cases h; exact List.length_replicate⟩
    ∃ path : CString, createTcpFilepath memory (some portDirectoryPath) 40021 = .ok (some path.buffer) ∧
      filenamePort path = some 40021 := by
  intro memory
  obtain ⟨path, hpath, hport, -⟩ := (published_port memory).2 portDirectoryPath 40021 _ rfl
  exact ⟨path, hpath, hport⟩

end SubstanceConnector.PortFile
