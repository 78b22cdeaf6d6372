import Std.Data.HashMap

/-!
Tables that remember the order of their keys. A table holds pairwise different keys in the order in
which they were first entered, each with its latest value. A hash index finds the position of a key;
the invariant `index_eq` ties it to the list of keys, so that every operation can be read off the
two arrays:

* `get?_insert` and `get?_empty` say what is looked up,
* `keys_insert` says that a new key goes to the end and a known one keeps its place,
* `get?_eq_lookup` and `toList_insert` say the same of the list of pairs.
-/

namespace Hack

variable {κ α : Type} [BEq κ] [LawfulBEq κ] [Hashable κ]

/-- Keys with values, in the order of first entry. -/
structure Table (κ α : Type) [BEq κ] [LawfulBEq κ] [Hashable κ] where
  /-- The keys, in the order in which they were first entered. -/
  keys : Array κ
  /-- The value of the key at the same position. -/
  values : Array α
  /-- The position of each key. -/
  index : Std.HashMap κ Nat
  size_values : values.size = keys.size
  index_eq : ∀ k, index[k]? = keys.findIdx? (· == k)

namespace Table

/-- The table without keys. -/
def empty : Table κ α :=
  { keys := #[]
    values := #[]
    index := {}
    size_values := rfl
    index_eq := by simp }

instance : EmptyCollection (Table κ α) := ⟨empty⟩

instance : Inhabited (Table κ α) := ⟨{}⟩

/-- The number of keys. -/
def size (t : Table κ α) : Nat := t.keys.size

/-- Whether there is no key. -/
def isEmpty (t : Table κ α) : Bool := t.keys.isEmpty

/-- The value of a key. -/
def get? (t : Table κ α) (k : κ) : Option α := t.index[k]?.bind fun i => t.values[i]?

/-- Whether a key was entered. -/
def contains (t : Table κ α) (k : κ) : Bool := t.index.contains k

/-- The keys with their values, in order. -/
def toList (t : Table κ α) : List (κ × α) := t.keys.toList.zip t.values.toList

/-- Gives a key a value: a new key goes to the end, a known key keeps its place. -/
def insert (t : Table κ α) (k : κ) (v : α) : Table κ α :=
  match found : t.index[k]? with
  | some i =>
    { t with
      values := t.values.setIfInBounds i v
      size_values := by simp [t.size_values] }
  | none =>
    let position := t.keys.size
    { keys := t.keys.push k
      values := t.values.push v
      index := t.index.insert k position
      size_values := by simp [t.size_values]
      index_eq := by
        intro other
        rw [Std.HashMap.getElem?_insert, Array.findIdx?_push, ← t.index_eq]
        by_cases same : k = other
        · subst same
          simp [found, position]
        · simp [same] }

/-- The table with the given pairs, entered in order. -/
def ofList (pairs : List (κ × α)) : Table κ α :=
  pairs.foldl (fun t pair => t.insert pair.1 pair.2) {}

@[simp] theorem keys_empty : ({} : Table κ α).keys = #[] := rfl

@[simp] theorem get?_empty (k : κ) : ({} : Table κ α).get? k = none := by
  have index : ({} : Table κ α).index = {} := rfl
  simp [get?, index]

/-- A key is known if it is among the keys. -/
theorem contains_iff_mem_keys {t : Table κ α} {k : κ} : t.contains k = true ↔ k ∈ t.keys := by
  rw [contains, Std.HashMap.contains_eq_isSome_getElem?, t.index_eq, Array.findIdx?_isSome,
    Array.any_eq_true']
  simp

/-- A new key goes to the end, a known one keeps its place. -/
theorem keys_insert (t : Table κ α) (k : κ) (v : α) :
    (t.insert k v).keys = if t.contains k then t.keys else t.keys.push k := by
  have known : t.contains k = (t.index[k]?).isSome := Std.HashMap.contains_eq_isSome_getElem?
  unfold insert
  split
  · next i found => simp [known, found]
  · next found => simp [known, found]

/-- The position that the index holds for a key is that of the key. -/
theorem keys_getElem?_of_index {t : Table κ α} {k : κ} {i : Nat} (h : t.index[k]? = some i) :
    t.keys[i]? = some k := by
  rw [t.index_eq, Array.findIdx?_eq_some_iff_getElem] at h
  obtain ⟨bound, hit, _⟩ := h
  rw [Array.getElem?_eq_getElem bound, eq_of_beq hit]

/-- Every known key has a value. -/
theorem isSome_get? (t : Table κ α) (k : κ) : (t.get? k).isSome = t.contains k := by
  rw [contains, Std.HashMap.contains_eq_isSome_getElem?, get?]
  cases found : t.index[k]? with
  | none => rfl
  | some i =>
    have bound : i < t.values.size := by
      rw [t.size_values]
      exact (Array.getElem?_eq_some_iff.1 (keys_getElem?_of_index found)).1
    simp [bound]

theorem get?_eq_none_iff {t : Table κ α} {k : κ} : t.get? k = none ↔ k ∉ t.keys.toList := by
  rw [Array.mem_toList_iff, ← contains_iff_mem_keys, ← isSome_get?, Option.not_isSome_iff_eq_none]

/-- A look-up finds the latest value entered for its key. -/
theorem get?_insert (t : Table κ α) (k other : κ) (v : α) :
    (t.insert k v).get? other = if k == other then some v else t.get? other := by
  unfold insert
  split
  · next i found =>
    by_cases same : k = other
    · subst same
      have bound : i < t.values.size := by
        have place := keys_getElem?_of_index found
        rw [t.size_values]
        exact (Array.getElem?_eq_some_iff.1 place).1
      simp [get?, found, bound]
    · have differ (j : Nat) (at_other : t.index[other]? = some j) : i ≠ j := by
        rintro rfl
        have first := keys_getElem?_of_index found
        rw [keys_getElem?_of_index at_other] at first
        exact same (Option.some.inj first).symm
      simp only [get?, beq_iff_eq, same, if_false]
      cases at_other : t.index[other]? with
      | none => rfl
      | some j => simp [Array.getElem?_setIfInBounds, differ j at_other]
  · next found =>
    by_cases same : k = other
    · subst same
      simp [get?, ← t.size_values]
    · simp only [get?, Std.HashMap.getElem?_insert, beq_iff_eq, same, if_false]
      cases at_other : t.index[other]? with
      | none => rfl
      | some j =>
        have bound : j < t.values.size := by
          have place := keys_getElem?_of_index at_other
          rw [t.size_values]
          exact (Array.getElem?_eq_some_iff.1 place).1
        simp [Array.getElem?_push, Nat.ne_of_lt bound]

/-! ## The list of pairs -/

theorem length_values (t : Table κ α) : t.values.toList.length = t.keys.toList.length := by
  rw [Array.length_toList, Array.length_toList, t.size_values]

theorem map_fst_toList (t : Table κ α) : t.toList.map Prod.fst = t.keys.toList :=
  List.map_fst_zip (Nat.le_of_eq t.length_values.symm)

omit [Hashable κ] in
/-- Among pairs a key is found where it stands among the keys. -/
theorem lookup_zip {keys : List κ} {values : List α} (sizes : values.length = keys.length)
    (k : κ) : (keys.zip values).lookup k = (keys.findIdx? (· == k)).bind (values[·]?) := by
  induction keys generalizing values with
  | nil => simp
  | cons key keys ih =>
    cases values with
    | nil => simp at sizes
    | cons value values =>
      rw [List.zip_cons_cons, List.lookup_cons, List.findIdx?_cons, ih (Nat.succ.inj sizes)]
      by_cases same : k = key
      · simp [same]
      · simp only [beq_eq_false_iff_ne.2 same, beq_eq_false_iff_ne.2 (Ne.symm same),
          Bool.false_eq_true, if_false, Option.bind_map]
        rfl

/-- A look-up finds what a search in the list of pairs finds. -/
theorem get?_eq_lookup (t : Table κ α) (k : κ) : t.get? k = t.toList.lookup k := by
  rw [toList, lookup_zip t.length_values, get?, t.index_eq, ← List.findIdx?_toArray,
    Array.toArray_toList]
  simp only [Array.getElem?_toList]

/-- Among different keys, the pairs in the list are those that are looked up. -/
theorem mem_toList_iff {t : Table κ α} (distinct : t.keys.toList.Nodup) {k : κ} {v : α} :
    (k, v) ∈ t.toList ↔ t.get? k = some v := by
  rw [get?_eq_lookup, List.lookup_eq_some_iff]
  constructor
  · intro member
    rcases List.append_of_mem member with ⟨front, back, split⟩
    refine ⟨front, back, split, fun pair earlier => bne_iff_ne.2 ?_⟩
    rw [← map_fst_toList, split, List.map_append, List.map_cons] at distinct
    have apart := (List.nodup_append.1 distinct).2.2
    exact (apart pair.1 (List.mem_map_of_mem earlier) k List.mem_cons_self).symm
  · rintro ⟨front, back, split, _⟩
    rw [split]
    exact List.mem_append_right _ List.mem_cons_self

/-- A new key goes to the end of the list of pairs. -/
theorem toList_insert {t : Table κ α} {k : κ} (fresh : t.get? k = none) (v : α) :
    (t.insert k v).toList = t.toList ++ [(k, v)] := by
  have unknown : t.index[k]? = none := by
    have known := t.isSome_get? k
    rw [fresh, contains, Std.HashMap.contains_eq_isSome_getElem?] at known
    exact Option.isNone_iff_eq_none.1 (by rw [← Option.not_isSome, ← known]; rfl)
  unfold insert toList
  split
  · next found =>
    rw [unknown] at found
    cases found
  · simp only [Array.toList_push]
    rw [List.zip_append t.length_values.symm]
    rfl

theorem toList_keys_insert {t : Table κ α} {k : κ} (fresh : t.get? k = none) (v : α) :
    (t.insert k v).keys.toList = t.keys.toList ++ [k] := by
  rw [← map_fst_toList, toList_insert fresh, List.map_append, map_fst_toList]
  rfl

end Table

end Hack
