import SubstanceConnector.Library.Block
import SubstanceConnector.Base

/-!
# Listing a directory

`connector_list_directory` of `fileutils.c` collects the accepted names of a directory in an array
that doubles when it is nearly full, and its readers, the scan of `broadcast_connect_impl` and
`connector_clear_directory_list`, stop at the null pointer behind the last name. A larger array is
cleared only over the size of the old one, so from sixteen names on the pointer behind the last name
is whatever the allocator's memory held.

Allocations succeed here and sizes are natural numbers: an array whose size would wrap does not fit
in memory.
-/

namespace SubstanceConnector

/-- An entry of the array: null, a string `connector_path_strdup` made, or a word that was in memory
before. -/
inductive PathPtr where
  | null
  | copy (text : CString)
  | stale (word : Nat)
  deriving DecidableEq

/-- A pointer read from a word of memory nothing was stored in. -/
def PathPtr.ofWord (word : Nat) : PathPtr := if word = 0 then .null else .stale word

/-- `CONNECTOR_DEFAULT_FILE_LIST_SIZE`. -/
def connectorDefaultFileListSize : Nat := 16

/-- The array, its capacity, and how many arrays have been taken from the allocator so far. -/
structure FileList where
  elements : Option (List PathPtr)
  capacity : Nat
  allocations : Nat

/-- `heap k i` is the word at index `i` of the `k`-th array before it is written to. -/
abbrev HeapWords : Type := Nat → Nat → Nat

/-- The `k`-th array `connector_allocate` returns. -/
def allocateArray (heap : HeapWords) (k capacity : Nat) : List PathPtr :=
  Block.fresh (fun i => .ofWord (heap k i)) capacity

/-- A write outside its block is a fault. -/
def inBounds {α : Type} : Option α → Except Fault α
  | some a => .ok a
  | none => .error .bufferOverflow

section append
variable (heap : HeapWords)

/-- The two branches of `append_file_list` that make room for one more entry. -/
def reserve (l : FileList) (size : Nat) : Except Fault FileList :=
  match l.elements with
  | none => do
    let capacity := connectorDefaultFileListSize
    let array ← inBounds (Block.fill (allocateArray heap l.allocations capacity) capacity .null)
    pure ⟨some array, capacity, l.allocations + 1⟩
  | some elements =>
    if size + 2 = l.capacity then do
      -- only the first half of the new array is cleared, and then overwritten
      let array := allocateArray heap l.allocations (l.capacity * 2)
      let array ← inBounds (Block.fill array l.capacity .null)
      let array ← inBounds (Block.copy array elements l.capacity)
      pure ⟨some array, l.capacity * 2, l.allocations + 1⟩
    else pure l

/-- `append_file_list`. -/
def appendFileList (path : CString) (l : FileList) (size : Nat) : Except Fault (FileList × Nat) := do
  let l ← reserve heap l size
  match l.elements with
  | none => .error .nullDereference
  | some array =>
    let array ← inBounds (Block.store array size (.copy path))
    pure ({ l with elements := some array }, size + 1)

/-- `default_filter`: hidden files are left out. -/
def defaultFilter (path : CString) : Retcode :=
  if path.bytes.head? ≠ some 0x2e then .success else .error

/-- The `readdir` loop of `connector_list_directory`. -/
def readEntries (filterOp : CString → Retcode) : List CString → FileList → Nat → Except Fault FileList
  | [], l, _ => pure l
  | entry :: entries, l, size =>
    if filterOp entry = .success then do
      let r ← appendFileList heap entry l size
      readEntries filterOp entries r.1 r.2
    else readEntries filterOp entries l size

/-- `connector_list_directory`. `opendir` is the directory as `readdir` reports it, and `elements` is
the caller's pointer to its array pointer. -/
def connectorListDirectory (opendir : CString → Option (List CString)) (path : Option CString)
    (filterOp : Option (CString → Retcode)) (elements : Option (Option (List PathPtr))) :
    Except Fault (Retcode × Option (Option (List PathPtr))) :=
  let filterOp := filterOp.getD defaultFilter
  match path, elements with
  | some path, some array =>
    match opendir path with
    | some entries => do
      let l ← readEntries heap filterOp entries ⟨array, 0, 0⟩ 0
      pure (.success, some l.elements)
    | none => pure (.error, elements)
  | _, _ => pure (.error, elements)

end append

/-- The pointers a reader of the array follows, up to the first that is null. Following one that was
never stored goes wrong in the way `fault` says. -/
def follow (fault : Fault) : List PathPtr → Except Fault (List CString)
  | [] => .error .bufferOverflow
  | .null :: _ => pure []
  | .copy text :: rest => do
    let texts ← follow fault rest
    pure (text :: texts)
  | .stale _ :: _ => .error fault

/-- The names `broadcast_connect_impl` joins with the directory. -/
def scan (array : List PathPtr) : Except Fault (List CString) := follow .useAfterFree array

/-- `connector_clear_directory_list`: the strings it frees, and what the pointer is left as. -/
def connectorClearDirectoryList (elements : Option (Option (List PathPtr))) :
    Except Fault (List CString × Option (Option (List PathPtr))) :=
  match elements with
  | some (some array) => do
    let texts ← follow .invalidFree array
    pure (texts, some none)
  | _ => pure ([], elements)

/-- One turn of the loop in `broadcast_connect_impl`: the answer of `connect_path`, if the file was
worth a try, and whether the file was removed. -/
structure Attempt where
  name : CString
  connected : Option Retcode
  removed : Bool

def tryFile (testFileType connectPath : CString → Retcode) (name : CString) : Attempt :=
  if testFileType name = .success then
    ⟨name, some (connectPath name), connectPath name ≠ .success⟩
  else ⟨name, none, false⟩

/-- `broadcast_connect_impl`. -/
def broadcastConnectImpl (heap : HeapWords) (isDirectory : CString → Retcode)
    (opendir : CString → Option (List CString)) (socketDir : CString)
    (testFileType connectPath : CString → Retcode) : Except Fault (Retcode × List Attempt) :=
  if isDirectory socketDir = .success then do
    let r ← connectorListDirectory heap opendir (some socketDir) none (some none)
    match r with
    | (.success, some (some array)) => do
      let names ← scan array
      let _ ← connectorClearDirectoryList (some (some array))
      pure (.success, names.map (tryFile testFileType connectPath))
    | _ => pure (.error, [])
  else pure (.error, [])

/-! ## What the array holds -/

/-- The array holds copies of `names`; behind them it is null as far as the first array reached, and
further on it is as some array was when it came from the allocator. -/
structure Holds (heap : HeapWords) (names : List CString) (l : FileList) (array : List PathPtr) : Prop where
  elements : l.elements = some array
  length : array.length = l.capacity
  least : connectorDefaultFileListSize ≤ l.capacity
  copies : ∀ k < names.length, array[k]? = names[k]?.map .copy
  cleared : ∀ k, names.length ≤ k → k < connectorDefaultFileListSize → array[k]? = some .null
  uncleared : ∀ k, names.length ≤ k → connectorDefaultFileListSize ≤ k → k < l.capacity →
    ∃ i, array[k]? = some (.ofWord (heap i k))

/-- What a call of `append_file_list` finds: nothing, or an array with two entries to spare. -/
inductive Listing (heap : HeapWords) : List CString → FileList → Prop
  | empty : Listing heap [] ⟨none, 0, 0⟩
  | filled {names : List CString} {l : FileList} {array : List PathPtr} (holds : Holds heap names l array)
      (room : names.length + 2 ≤ l.capacity) : Listing heap names l

section run
variable {heap : HeapWords} {names : List CString} {l : FileList} {array : List PathPtr}

/-- The first array is cleared whole. -/
theorem reserve_empty : ∃ l' array', reserve heap ⟨none, 0, 0⟩ 0 = .ok l' ∧ Holds heap [] l' array' ∧
    3 ≤ l'.capacity := by
  have hfresh : (allocateArray heap 0 connectorDefaultFileListSize).length = connectorDefaultFileListSize :=
    Block.length_fresh _ _
  obtain ⟨array, hfill, hlen, hget⟩ := Block.fill_of_le PathPtr.null (Nat.le_of_eq hfresh.symm)
  refine ⟨⟨some array, connectorDefaultFileListSize, 1⟩, array, ?_, ?_, ?_⟩
  · simp [reserve, hfill, inBounds, bind, Except.bind, pure, Except.pure]
  · refine ⟨rfl, hlen.trans hfresh, Nat.le_refl _, by simp, fun k _ hk => ?_, fun k _ hk hk' => ?_⟩
    · rw [hget, if_pos hk]
    · exact absurd hk' (Nat.not_lt.mpr hk)
  · simp [connectorDefaultFileListSize]

/-- A full array is replaced by one that agrees with it as far as it reached. -/
theorem reserve_full (h : Holds heap names l array) (hfull : names.length + 2 = l.capacity) :
    ∃ l' array', reserve heap l names.length = .ok l' ∧ Holds heap names l' array' ∧
      names.length + 3 ≤ l'.capacity := by
  have hfresh : (allocateArray heap l.allocations (l.capacity * 2)).length = l.capacity * 2 :=
    Block.length_fresh _ _
  obtain ⟨half, hfill, hlen, hget⟩ := Block.fill_of_le PathPtr.null
    (show l.capacity ≤ (allocateArray heap l.allocations (l.capacity * 2)).length by omega)
  obtain ⟨array', hcopy, hlen', hget'⟩ := Block.copy_of_le
    (show l.capacity ≤ half.length by omega) (Nat.le_of_eq h.length.symm)
  have hold : ∀ k < l.capacity, array'[k]? = array[k]? := fun k hk => by rw [hget', if_pos hk]
  have hnew : ∀ k, l.capacity ≤ k → k < l.capacity * 2 →
      array'[k]? = some (.ofWord (heap l.allocations k)) := by
    intro k hk hk'
    rw [hget', if_neg (by omega), hget, if_neg (by omega), allocateArray, Block.getElem?_fresh _ hk']
  have hleast := h.least
  refine ⟨⟨some array', l.capacity * 2, l.allocations + 1⟩, array', ?_, ?_, by dsimp only; omega⟩
  · simp [reserve, h.elements, hfull, hfill, hcopy, inBounds, bind, Except.bind, pure, Except.pure]
  · refine ⟨rfl, by dsimp only; omega, by dsimp only; omega, fun k hk => ?_, fun k hk hk' => ?_,
      fun k hk hk' hlt => ?_⟩
    · rw [hold k (by omega)]
      exact h.copies k hk
    · rw [hold k (by omega)]
      exact h.cleared k hk hk'
    · by_cases hin : k < l.capacity
      · rw [hold k hin]
        exact h.uncleared k hk hk' hin
      · exact ⟨l.allocations, hnew k (by omega) hlt⟩

/-- There is always room for one more name, and two entries behind it. -/
theorem reserve_listing (h : Listing heap names l) :
    ∃ l' array', reserve heap l names.length = .ok l' ∧ Holds heap names l' array' ∧
      names.length + 3 ≤ l'.capacity := by
  cases h with
  | empty => exact reserve_empty
  | @filled _ _ array holds room =>
    by_cases hfull : names.length + 2 = l.capacity
    · exact reserve_full holds hfull
    · refine ⟨l, array, ?_, holds, by omega⟩
      simp [reserve, holds.elements, hfull, pure, Except.pure]

theorem appendFileList_listing (path : CString) (h : Listing heap names l) :
    ∃ l', appendFileList heap path l names.length = .ok (l', names.length + 1) ∧
      Listing heap (names ++ [path]) l' := by
  obtain ⟨l', array, hreserve, holds, hroom⟩ := reserve_listing h
  have hlength := holds.length
  obtain ⟨array', hstore, hlen, hget⟩ := Block.store_of_lt (PathPtr.copy path)
    (show names.length < array.length by omega)
  have holds' : Holds heap (names ++ [path]) { l' with elements := some array' } array' := by
    refine ⟨rfl, hlen.trans hlength, holds.least, fun k hk => ?_, fun k hk hk' => ?_, fun k hk hk' hlt => ?_⟩ <;>
      rw [List.length_append, List.length_singleton] at hk <;> rw [hget]
    · split <;> rename_i hk'
      · simp [hk']
      · have hlt : k < names.length := by omega
        rw [holds.copies k hlt, List.getElem?_append_left hlt]
    · rw [if_neg (by omega)]
      exact holds.cleared k (by omega) hk'
    · rw [if_neg (by omega)]
      exact holds.uncleared k (by omega) hk' hlt
  refine ⟨{ l' with elements := some array' }, ?_, .filled holds' ?_⟩
  · simp [appendFileList, hreserve, holds.elements, hstore, inBounds, bind, Except.bind, pure, Except.pure]
  · rw [List.length_append, List.length_singleton]
    exact hroom

/-- The `readdir` loop never leaves the array, and it appends what the filter accepts. -/
theorem readEntries_listing (filterOp : CString → Retcode) (entries : List CString)
    (h : Listing heap names l) :
    ∃ l', readEntries heap filterOp entries l names.length = .ok l' ∧
      Listing heap (names ++ entries.filter (filterOp · = .success)) l' := by
  induction entries generalizing names l with
  | nil => exact ⟨l, rfl, by simpa using h⟩
  | cons entry entries ih =>
    by_cases haccept : filterOp entry = .success
    · obtain ⟨l₁, happend, h₁⟩ := appendFileList_listing entry h
      obtain ⟨l', hread, h'⟩ := ih h₁
      refine ⟨l', ?_, ?_⟩
      · rw [List.length_append, List.length_singleton] at hread
        simp [readEntries, haccept, happend, hread, bind, Except.bind]
      · simpa [haccept] using h'
    · obtain ⟨l', hread, h'⟩ := ih h
      refine ⟨l', ?_, ?_⟩
      · simpa [readEntries, haccept] using hread
      · simpa [haccept] using h'

end run

/-- The names a listing is about. -/
def accepted (filterOp : Option (CString → Retcode)) (entries : List CString) : List CString :=
  entries.filter ((filterOp.getD defaultFilter) · = .success)

section listing
variable {opendir : CString → Option (List CString)} {path : CString} {entries : List CString}

/-- Whatever was in memory, the call succeeds, no write leaves its array, and the result holds the
accepted names. -/
theorem connectorListDirectory_holds (heap : HeapWords) (filterOp : Option (CString → Retcode))
    (hdir : opendir path = some entries) (hne : accepted filterOp entries ≠ []) :
    ∃ l array, connectorListDirectory heap opendir (some path) filterOp (some none) =
        .ok (.success, some (some array)) ∧
      Holds heap (accepted filterOp entries) l array ∧
      (accepted filterOp entries).length + 2 ≤ l.capacity := by
  have hempty : Listing heap [] ⟨none, 0, 0⟩ := .empty
  obtain ⟨l, hread, hlisting⟩ := readEntries_listing (filterOp.getD defaultFilter) entries hempty
  rw [List.nil_append] at hlisting
  change Listing heap (accepted filterOp entries) l at hlisting
  generalize accepted filterOp entries = names at hlisting hne
  cases hlisting with
  | empty => exact absurd rfl hne
  | @filled _ _ array holds room =>
    refine ⟨l, array, ?_, holds, room⟩
    rw [List.length_nil] at hread
    simp [connectorListDirectory, hdir, hread, holds.elements, bind, Except.bind, pure, Except.pure]

end listing

/-! ## Reading the array back -/

/-- Cut at the entry behind the last name. -/
theorem Holds.eq_append {heap : HeapWords} {names : List CString} {l : FileList} {array : List PathPtr}
    (h : Holds heap names l array) {last : PathPtr} (hlast : array[names.length]? = some last) :
    array = names.map .copy ++ last :: array.drop (names.length + 1) := by
  obtain ⟨hlt, hget⟩ := List.getElem?_eq_some_iff.mp hlast
  have htake : array.take names.length = names.map .copy := by
    apply List.ext_getElem?
    intro k
    rw [List.getElem?_take, List.getElem?_map]
    split <;> rename_i hk
    · exact h.copies k hk
    · rw [List.getElem?_eq_none (Nat.not_lt.mp hk)]
      rfl
  calc array = array.take names.length ++ array.drop names.length := (List.take_append_drop _ _).symm
    _ = names.map .copy ++ last :: array.drop (names.length + 1) := by
      rw [htake, List.drop_eq_getElem_cons hlt, hget]

theorem follow_null (fault : Fault) (names : List CString) (rest : List PathPtr) :
    follow fault (names.map .copy ++ .null :: rest) = .ok names := by
  induction names with
  | nil => rfl
  | cons name names ih =>
    rw [List.map_cons, List.cons_append, follow, ih]
    rfl

theorem follow_stale (fault : Fault) (names : List CString) (word : Nat) (rest : List PathPtr) :
    follow fault (names.map .copy ++ .stale word :: rest) = .error fault := by
  induction names with
  | nil => rfl
  | cons name names ih =>
    rw [List.map_cons, List.cons_append, follow, ih]
    rfl

/-- What the header promises for a directory whose accepted names are `names`, and what the readers of
the array rely on. -/
def Listed (heap : HeapWords) (opendir : CString → Option (List CString)) (path : CString)
    (filterOp : Option (CString → Retcode)) (names : List CString) : Prop :=
  ∃ array, connectorListDirectory heap opendir (some path) filterOp (some none) =
      .ok (.success, some (some array)) ∧
    (∀ k < names.length, array[k]? = names[k]?.map .copy) ∧
    array[names.length]? = some .null ∧
    scan array = .ok names ∧
    connectorClearDirectoryList (some (some array)) = .ok (names, some none)

/-- With a terminator listed, the whole broadcast tries each name once and frees the list. -/
theorem broadcastConnectImpl_of_listed {heap : HeapWords} {opendir : CString → Option (List CString)}
    {socketDir : CString} {names : List CString} {isDirectory : CString → Retcode}
    (testFileType connectPath : CString → Retcode) (hdir : isDirectory socketDir = .success)
    (h : Listed heap opendir socketDir none names) :
    broadcastConnectImpl heap isDirectory opendir socketDir testFileType connectPath =
      .ok (.success, names.map (tryFile testFileType connectPath)) := by
  obtain ⟨array, hlist, -, -, hscan, hclear⟩ := h
  simp [broadcastConnectImpl, hdir, hlist, hscan, hclear, bind, Except.bind, pure, Except.pure]

/-- Fewer names than the first array has entries: the entry behind them was cleared with it. -/
theorem listed_of_lt {opendir : CString → Option (List CString)} {path : CString} {entries : List CString}
    (heap : HeapWords) (filterOp : Option (CString → Retcode)) (hdir : opendir path = some entries)
    (hne : accepted filterOp entries ≠ [])
    (hlt : (accepted filterOp entries).length < connectorDefaultFileListSize) :
    Listed heap opendir path filterOp (accepted filterOp entries) := by
  obtain ⟨l, array, hlist, holds, -⟩ := connectorListDirectory_holds heap filterOp hdir hne
  have hnull := holds.cleared _ (Nat.le_refl _) hlt
  have harray := holds.eq_append hnull
  refine ⟨array, hlist, holds.copies, hnull, ?_, ?_⟩
  · rw [harray]
    exact follow_null _ _ _
  · simp only [connectorClearDirectoryList]
    rw [harray, follow_null]
    rfl

/-- From sixteen names on, memory that was never zero leaves a stray pointer behind them; the scan
follows it and the list cannot be freed. -/
theorem unterminated_of_le {opendir : CString → Option (List CString)} {path : CString}
    {entries : List CString} (filterOp : Option (CString → Retcode)) (hdir : opendir path = some entries)
    (hle : connectorDefaultFileListSize ≤ (accepted filterOp entries).length) :
    ∃ array, connectorListDirectory (fun _ _ => 1) opendir (some path) filterOp (some none) =
        .ok (.success, some (some array)) ∧
      scan array = .error .useAfterFree ∧
      connectorClearDirectoryList (some (some array)) = .error .invalidFree := by
  have hne : accepted filterOp entries ≠ [] := by
    apply List.ne_nil_of_length_pos
    simp only [connectorDefaultFileListSize] at hle
    omega
  obtain ⟨l, array, hlist, holds, hroom⟩ := connectorListDirectory_holds (fun _ _ => 1) filterOp hdir hne
  obtain ⟨-, hstale⟩ := holds.uncleared _ (Nat.le_refl _) hle (by omega)
  have harray := holds.eq_append hstale
  refine ⟨array, hlist, ?_, ?_⟩
  · rw [harray]
    exact follow_stale _ _ _ _
  · simp only [connectorClearDirectoryList]
    rw [harray, PathPtr.ofWord, if_neg Nat.one_ne_zero, follow_stale]
    rfl

theorem not_listed_of_le {opendir : CString → Option (List CString)} {path : CString}
    {entries : List CString} (filterOp : Option (CString → Retcode)) (hdir : opendir path = some entries)
    (hle : connectorDefaultFileListSize ≤ (accepted filterOp entries).length) :
    ¬ Listed (fun _ _ => 1) opendir path filterOp (accepted filterOp entries) := by
  obtain ⟨array, hlist, hscan, -⟩ := unterminated_of_le filterOp hdir hle
  rintro ⟨array', hlist', -, -, hscan', -⟩
  have heq : array = array' := by simpa [hlist] using hlist'
  rw [heq, hscan'] at hscan
  simp at hscan

/-- **The listing ends in a null pointer whatever was in memory** exactly when fewer names are accepted
than the first array has entries. -/
theorem listing_terminated_iff (opendir : CString → Option (List CString)) (path : CString)
    (filterOp : Option (CString → Retcode)) (entries : List CString) (hdir : opendir path = some entries)
    (hne : 1 ≤ (accepted filterOp entries).length) :
    (∀ heap, Listed heap opendir path filterOp (accepted filterOp entries)) ↔
      (accepted filterOp entries).length < connectorDefaultFileListSize := by
  constructor
  · intro h
    by_contra hle
    exact not_listed_of_le filterOp hdir (Nat.not_lt.mp hle) (h _)
  · intro hlt heap
    exact listed_of_lt heap filterOp hdir (List.ne_nil_of_length_pos hne) hlt

/-- A port file of one letter. -/
def portFile (i : Fin 16) : CString where
  bytes := [97 + UInt8.ofNat i]
  nulFree := by revert i; decide

/-- The directory itself, its parent and the first `n` port files. -/
def portDirectory (n : Nat) : List CString :=
  ⟨[0x2e], by decide⟩ :: ⟨[0x2e, 0x2e], by decide⟩ :: ((List.finRange 16).take n).map portFile

/-- A directory to keep them in. -/
def portDirectoryPath : CString := ⟨[0x2f], by decide⟩

theorem four_files_terminated :
    (∀ heap, Listed heap (fun _ => some (portDirectory 4)) portDirectoryPath none
        (accepted none (portDirectory 4))) ↔
      (accepted none (portDirectory 4)).length < connectorDefaultFileListSize :=
  listing_terminated_iff _ _ none (portDirectory 4) rfl (by decide)

/-- Sixteen port files, and memory full of ones. -/
theorem sixteen_files_unterminated :
    ¬ Listed (fun _ _ => 1) (fun _ => some (portDirectory 16)) portDirectoryPath none
      ((List.finRange 16).map portFile) := by
  have hnames : accepted none (portDirectory 16) = (List.finRange 16).map portFile := by decide
  rw [← hnames]
  exact not_listed_of_le none rfl (by decide)

end SubstanceConnector
