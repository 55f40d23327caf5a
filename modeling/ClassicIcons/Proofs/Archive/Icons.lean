import ClassicIcons.Proofs.Archive.Built
import ClassicIcons.Proofs.Archive.Images

/-! The icons of an archive.

Each item of an archive is an icon or a fault, and each has a number of its own, which an
icon carries with it (`index_of_icon?`, `nodup_index_icons`). -/
namespace ClassicIcons.Archive

/-- The icon that the item is. -/
def Item.icon? (item : Item) : Option Icon :=
  match item.result with
  | .ok icon => some icon
  | .error _ => none

/-- What is wrong with the record, after its number. -/
def Item.fault? (item : Item) : Option (Nat × Error) :=
  match item.result with
  | .ok _ => none
  | .error e => some (item.index, e)

theorem Item.icon?_eq_some_iff {item : Item} {icon : Icon} :
    item.icon? = some icon ↔ item.result = .ok icon := by
  unfold icon?
  cases item.result <;> simp

theorem Item.fault?_eq_some_iff {item : Item} {index : Nat} {e : Error} :
    item.fault? = some (index, e) ↔ item.result = .error e ∧ index = item.index := by
  unfold fault?
  cases item.result with
  | ok icon => simp
  | error found => simp [and_comm, eq_comm]

/-- If no record is at fault, the icons are what is found. -/
theorem filterMap_icon?_of_map_result {items : List Item} {icons : List Icon}
    (h : items.map Item.result = icons.map Except.ok) : items.filterMap Item.icon? = icons := by
  induction items generalizing icons with
  | nil => exact (List.map_eq_nil_iff.1 h.symm).symm
  | cons item items ih =>
    obtain ⟨icon, rest, rfl, hresult, hrest⟩ := List.map_eq_cons_iff.1 h.symm
    rw [List.filterMap_cons_some (Item.icon?_eq_some_iff.2 hresult.symm), ih hrest.symm]

/-! ### Numbers -/

theorem index_of {index : Nat} {name : String} {data : Bytes} {offset : Kind → Option Nat} {icon : Icon}
    (h : Icon.of index name data offset = .ok icon) : icon.index = index :=
  (Icon.of_eq_ok_iff.1 h).1

variable [Zlib.Decoder]

theorem Record.index_of_decode {r : Record} {index : Nat} {payload : Bytes} {icon : Icon}
    (h : r.decode index payload = .ok icon) : icon.index = index := by
  cases hlayout : r.layout with
  | legacy offsets =>
    simp only [decode, hlayout, bind, Except.bind] at h
    split at h
    · cases h
    · exact index_of h
  | extended presence extra =>
    simp only [decode, hlayout, bind, Except.bind] at h
    split at h
    · cases h
    · split at h
      · cases h
      · exact index_of h

/-- An icon that is found comes from a record. -/
theorem exists_decode_of_found {a : Archive} {i : Nat} {icon : Icon} (h : (a.found i).result = .ok icon) :
    ∃ r payload, Record.decode r i payload = .ok icon := by
  unfold found at h
  split at h
  · cases h
  · split at h
    · cases h
    · change a.decoded i _ = .ok icon at h
      unfold decoded Record.decodeWhole at h
      split at h
      · split at h
        · exact ⟨_, _, h⟩
        · cases h
      · cases h

theorem index_of_found {a : Archive} {i : Nat} {icon : Icon} (h : (a.found i).result = .ok icon) :
    icon.index = i := by
  obtain ⟨r, payload, hdecode⟩ := exists_decode_of_found h
  exact Record.index_of_decode hdecode

def icons (a : Archive) : List Icon := a.items.filterMap Item.icon?

variable {a : Archive}

theorem exists_found {item : Item} (h : item ∈ a.items) :
    ∃ i, i < a.header.iconCount.toNat ∧ a.found i = item := by
  obtain ⟨i, hi⟩ := List.mem_iff_getElem?.1 h
  obtain ⟨hreached, hfound⟩ := getElem?_items_eq_some_iff.1 hi
  exact ⟨i, hreached.1, hfound⟩

/-- An item has the number of its place. -/
theorem index_of_getElem? {i : Nat} {item : Item} (h : a.items[i]? = some item) : item.index = i := by
  obtain ⟨-, rfl⟩ := getElem?_items_eq_some_iff.1 h
  exact index_found a i

/-- An icon has the number of its record. -/
theorem index_of_icon? {item : Item} (h : item ∈ a.items) {icon : Icon} (hicon : item.icon? = some icon) :
    icon.index = item.index := by
  obtain ⟨i, -, rfl⟩ := exists_found h
  rw [index_of_found (Item.icon?_eq_some_iff.1 hicon), index_found]

/-- An item is known by its number. -/
theorem eq_of_index_eq {item other : Item} (h : item ∈ a.items) (hother : other ∈ a.items)
    (heq : item.index = other.index) : item = other := by
  obtain ⟨i, -, rfl⟩ := exists_found h
  obtain ⟨j, -, rfl⟩ := exists_found hother
  rw [index_found, index_found] at heq
  rw [heq]

/-- The faults of an archive, each with its number. -/
theorem mem_faults_iff {i : Nat} {e : Error} : (i, e) ∈ a.items.filterMap Item.fault? ↔
    ∃ item, a.items[i]? = some item ∧ item.result = .error e := by
  rw [List.mem_filterMap]
  constructor
  · intro h
    obtain ⟨item, hitem, hfault⟩ := h
    obtain ⟨hresult, rfl⟩ := Item.fault?_eq_some_iff.1 hfault
    obtain ⟨j, hj⟩ := List.mem_iff_getElem?.1 hitem
    have hindex := index_of_getElem? hj
    rw [hindex]
    exact ⟨item, hj, hresult⟩
  · intro h
    obtain ⟨item, hitem, hresult⟩ := h
    have hindex := index_of_getElem? hitem
    exact ⟨item, List.mem_of_getElem? hitem, Item.fault?_eq_some_iff.2 ⟨hresult, hindex.symm⟩⟩

theorem index_lt {item : Item} (h : item ∈ a.items) : item.index < UInt32.size := by
  obtain ⟨i, hi, rfl⟩ := exists_found h
  rw [index_found]
  exact Nat.lt_trans hi a.header.iconCount.toNat_lt

theorem exists_item {icon : Icon} (h : icon ∈ a.icons) : ∃ item ∈ a.items, item.icon? = some icon :=
  List.mem_filterMap.1 h

/-- No two icons have the same number. -/
theorem nodup_index_icons (a : Archive) : (a.icons.map Icon.index).Nodup := by
  have hapart : a.items.Pairwise fun item other =>
      ∀ icon, item.icon? = some icon → ∀ icon', other.icon? = some icon' → icon.index ≠ icon'.index := by
    rw [items_eq, List.pairwise_map]
    refine List.nodup_range.imp fun {i j} hij icon hicon icon' hicon' heq => hij ?_
    rw [← index_of_found (Item.icon?_eq_some_iff.1 hicon), heq,
      index_of_found (Item.icon?_eq_some_iff.1 hicon')]
  exact List.pairwise_map.2 (List.pairwise_filterMap.2 hapart)

/-! ### Built archives -/

/-- What is found in an archive that was built. -/
theorem items_build (v : Version) (copyright comment : Bytes) {records : List Bytes}
    (hcount : records.length < UInt32.size) (hframed : ∀ record ∈ records, Framed record) :
    ∃ a, parse (build v copyright comment records) = .ok a ∧
      (a.items.map fun item => (item.index, item.result)) =
        records.mapIdx fun i record => (i, Record.decodeWhole v i record) := by
  obtain ⟨a, hparse, hversion, hholds⟩ := holds_build v copyright comment hcount hframed
  refine ⟨a, hparse, List.ext_getElem? fun i => ?_⟩
  rw [List.getElem?_map, List.getElem?_mapIdx]
  cases hrecord : records[i]? with
  | none =>
    have hle := List.getElem?_eq_none_iff.1 hrecord
    rw [← hholds.length_items] at hle
    rw [List.getElem?_eq_none hle]
    rfl
  | some record =>
    rw [getElem?_items_of_holds hholds hrecord, hversion]
    rfl

end ClassicIcons.Archive
