import SubstanceConnector.Framework.UuidOrder
import SubstanceConnector.Library.BinarySearch

/-!
# The table of internal callbacks

`find_callback` leaves the search to `bsearch`, which calls `compare_callback` with the key and an entry and expects to hear
how the key compares to the entry. The callback compares the entry to the key. The search therefore takes a table in descending
order for a sorted one, and of a table in ascending order it can only find the middle. The table of the program has one
entry, which is both.
-/

namespace SubstanceConnector

open BinarySearch Framework

variable {α : Type}

/-- `compare_callback`, over entries with any callbacks. -/
def compareCallback (key : Uuid) (callback : Uuid × α) : Int := connectorCompareUuid callback.1 key

/-- The call of `bsearch` in `find_callback`, over a table of any length. -/
def searchCallbacks (table : List (Uuid × α)) (type : Uuid) : Option (Uuid × α) := bsearch (compareCallback type) table

def Ascending (table : List (Uuid × α)) : Prop := table.Pairwise fun x y => connectorCompareUuid x.1 y.1 < 0

def Descending (table : List (Uuid × α)) : Prop := table.Pairwise fun x y => connectorCompareUuid x.1 y.1 > 0

/-- An answer is the order of the numbers, entry first. -/
theorem decides_compareCallback (type : Uuid) (x : Uuid × α) :
    ThreeWay.Decides (number x.1) (number type) (compareCallback type x) := compares_number x.1 type

theorem compareCallback_eq_zero {type : Uuid} {x : Uuid × α} : compareCallback type x = 0 ↔ x.1 = type :=
  connectorCompareUuid_eq_zero

theorem number_lt_of_gt {x y : Uuid} (h : connectorCompareUuid x y > 0) : number y < number x := by
  have hswap := (compares_number y x).neg_iff
  rw [compares_number.antisymmetric x y] at hswap
  exact hswap.mp (by omega)

theorem nonpos_compareCallback {type : Uuid} {x : Uuid × α} : compareCallback type x ≤ 0 ↔ number x.1 ≤ number type :=
  (decides_compareCallback type x).nonpos_iff

theorem neg_compareCallback {type : Uuid} {x : Uuid × α} : compareCallback type x < 0 ↔ number x.1 < number type :=
  (decides_compareCallback type x).neg_iff

theorem partitioned_of_descending {table : List (Uuid × α)} (h : Descending table) (type : Uuid) :
    Partitioned (compareCallback type) table := by
  refine h.imp fun {x y} hxy => ?_
  have hlt := number_lt_of_gt hxy
  rw [nonpos_compareCallback, nonpos_compareCallback, neg_compareCallback, neg_compareCallback]
  exact ⟨fun hx => by omega, fun hx => by omega⟩

theorem reversed_of_ascending {table : List (Uuid × α)} (h : Ascending table) (type : Uuid) :
    Reversed (compareCallback type) table := by
  refine h.imp fun {x y} hxy => ?_
  have hlt := (compares_number x.1 y.1).neg_iff.mp hxy
  rw [nonpos_compareCallback, neg_compareCallback, ← Int.not_lt, neg_compareCallback, ← Int.not_le,
    nonpos_compareCallback]
  exact ⟨fun hy => by omega, fun hx => by omega⟩

/-- In a descending table no two entries have the same key. -/
theorem eq_of_descending {table : List (Uuid × α)} (h : Descending table) {x y : Uuid × α} (hx : x ∈ table) (hy : y ∈ table)
    (hkey : x.1 = y.1) : x = y := by
  have hdistinct : (table.map (·.1)).Nodup := by
    rw [List.nodup_iff_pairwise_ne, List.pairwise_map]
    refine h.imp fun {a b} hab heq => ?_
    have hzero := connectorCompareUuid_eq_zero.mpr heq
    omega
  exact List.inj_on_of_nodup_map hdistinct hx hy hkey

theorem search_descending {table : List (Uuid × α)} (h : Descending table) {type : Uuid} {entry : Uuid × α} :
    searchCallbacks table type = some entry ↔ entry ∈ table ∧ entry.1 = type := by
  constructor
  · intro hfound
    obtain ⟨hmem, hequal⟩ := mem_of_bsearch hfound
    exact ⟨hmem, compareCallback_eq_zero.mp hequal⟩
  · rintro ⟨hmem, rfl⟩
    have hsome := isSome_bsearch (partitioned_of_descending h entry.1) hmem (compareCallback_eq_zero.mpr rfl)
    obtain ⟨found, hfound⟩ := Option.isSome_iff_exists.mp hsome
    obtain ⟨hfoundmem, hequal⟩ := mem_of_bsearch hfound
    rw [eq_of_descending h hfoundmem hmem (compareCallback_eq_zero.mp hequal)] at hfound
    exact hfound

theorem search_ascending {table : List (Uuid × α)} (h : Ascending table) {type : Uuid} {entry : Uuid × α} :
    searchCallbacks table type = some entry ↔ table[table.length / 2]? = some entry ∧ entry.1 = type := by
  rw [searchCallbacks, bsearch_reversed (reversed_of_ascending h type), compareCallback_eq_zero]

/-- The lookup of the dispatch threads is that search in the table of the program. -/
theorem search_internalMessages (type : Uuid) : (searchCallbacks internalMessages type).map (·.2) = findCallback type := by
  have hdescending : Descending internalMessages := List.pairwise_singleton _ _
  rw [findCallback_eq]
  split_ifs with htype
  · have hfound : searchCallbacks internalMessages type =
        some (connectorInternalHandshakeUuid, .internalHandshakeCallback) :=
      (search_descending hdescending).mpr ⟨List.mem_cons_self, htype.symm⟩
    rw [hfound]
    rfl
  · cases hfound : searchCallbacks internalMessages type with
    | none => rfl
    | some entry =>
      obtain ⟨hmem, hkey⟩ := (search_descending hdescending).mp hfound
      obtain rfl := List.mem_singleton.mp hmem
      exact absurd hkey.symm htype

/-- **The order that the search needs.** It finds every entry of a descending table and nothing else, of an ascending
table at most the middle entry, and in the table of the program what the dispatch threads look up. -/
theorem callback_search (table : List (Uuid × α)) :
    (Descending table → ∀ type entry, searchCallbacks table type = some entry ↔ entry ∈ table ∧ entry.1 = type) ∧
      (Ascending table → ∀ type entry,
        searchCallbacks table type = some entry ↔ table[table.length / 2]? = some entry ∧ entry.1 = type) ∧
      ∀ type, (searchCallbacks internalMessages type).map (·.2) = findCallback type :=
  ⟨fun h _ _ => search_descending h, fun h _ _ => search_ascending h, search_internalMessages⟩

/-- Two entries as the comment on the table asks for them: the first is not found. -/
theorem callback_search_ascending_pair :
    Ascending [(Uuid.mk ![1, 0, 0, 0], 0), (Uuid.mk ![2, 0, 0, 0], 1)] ∧
      searchCallbacks [(Uuid.mk ![1, 0, 0, 0], 0), (Uuid.mk ![2, 0, 0, 0], 1)] (Uuid.mk ![1, 0, 0, 0]) ≠
        some (Uuid.mk ![1, 0, 0, 0], 0) := by
  have hascending : Ascending [(Uuid.mk ![1, 0, 0, 0], 0), (Uuid.mk ![2, 0, 0, 0], 1)] := by
    simp [Ascending, connectorCompareUuid, compareWords, List.ofFn_succ]
  refine ⟨hascending, fun hfound => ?_⟩
  have hmiddle := ((callback_search _).2.1 hascending _ _).mp hfound
  simp at hmiddle

end SubstanceConnector
