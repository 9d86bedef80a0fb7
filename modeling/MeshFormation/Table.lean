/-!
# Tables keyed by numbers

Ranks and channels are 32-bit numbers, and every answer that lists them lists them in ascending
order. A table therefore keeps its rows in strictly ascending key order. The order is part of the
type, so two tables that answer every lookup alike are equal (`Table.ext_get?`), and each operation
is described by what it does to lookups (`get?_insert`, `get?_erase`).
-/

namespace MeshFormation

/-- Rows in strictly ascending order of their keys. -/
structure Table (α : Type) where
  rows : List (UInt32 × α)
  ascending : rows.Pairwise (fun a b => a.1 < b.1)
deriving DecidableEq

namespace Table

variable {α β : Type}

/-- Puts a row in its place and replaces the row that has the same key. -/
def insertRow (key : UInt32) (value : α) : List (UInt32 × α) → List (UInt32 × α)
  | [] => [(key, value)]
  | row :: rest =>
    if key < row.1 then (key, value) :: row :: rest
    else if key = row.1 then (key, value) :: rest
    else row :: insertRow key value rest

theorem mem_insertRow {key : UInt32} {value : α} {rows : List (UInt32 × α)} {row : UInt32 × α}
    (h : row ∈ insertRow key value rows) : row = (key, value) ∨ row ∈ rows := by
  induction rows with
  | nil => simpa [insertRow] using h
  | cons head rest ih =>
    rw [insertRow] at h
    split at h
    · simpa using h
    · split at h
      · rcases List.mem_cons.1 h with rfl | h
        · exact .inl rfl
        · exact .inr (List.mem_cons_of_mem _ h)
      · rcases List.mem_cons.1 h with rfl | h
        · exact .inr List.mem_cons_self
        · exact (ih h).imp_right (List.mem_cons_of_mem _)

theorem pairwise_insertRow {key : UInt32} {value : α} {rows : List (UInt32 × α)}
    (h : rows.Pairwise (fun a b => a.1 < b.1)) :
    (insertRow key value rows).Pairwise (fun a b => a.1 < b.1) := by
  induction rows with
  | nil => simp [insertRow]
  | cons head rest ih =>
    obtain ⟨hhead, hrest⟩ := List.pairwise_cons.1 h
    rw [insertRow]
    split
    · rename_i hlt
      refine List.pairwise_cons.2 ⟨fun row hrow => ?_, h⟩
      rcases List.mem_cons.1 hrow with rfl | hrow
      · exact hlt
      · exact UInt32.lt_trans hlt (hhead row hrow)
    · split
      · rename_i heq
        subst heq
        exact List.pairwise_cons.2 ⟨hhead, hrest⟩
      · rename_i hnlt hne
        refine List.pairwise_cons.2 ⟨fun row hrow => ?_, ih hrest⟩
        rcases mem_insertRow hrow with rfl | hrow
        · exact UInt32.lt_of_le_of_ne (UInt32.not_lt.1 hnlt) (Ne.symm hne)
        · exact hhead row hrow

def empty : Table α := ⟨[], .nil⟩

instance : EmptyCollection (Table α) := ⟨empty⟩

def get? (table : Table α) (key : UInt32) : Option α := table.rows.lookup key

def contains (table : Table α) (key : UInt32) : Bool := (table.get? key).isSome

/-- The keys, ascending. -/
def keys (table : Table α) : List UInt32 := table.rows.map (·.1)

def values (table : Table α) : List α := table.rows.map (·.2)

def size (table : Table α) : Nat := table.rows.length

def insert (table : Table α) (key : UInt32) (value : α) : Table α :=
  ⟨insertRow key value table.rows, pairwise_insertRow table.ascending⟩

def erase (table : Table α) (key : UInt32) : Table α :=
  ⟨table.rows.filter (fun row => row.1 != key), table.ascending.filter _⟩

/-- The least key whose row satisfies the test. -/
def firstKey? (table : Table α) (test : α → Bool) : Option UInt32 :=
  (table.rows.find? (fun row => test row.2)).map (·.1)

theorem lookup_row (row : UInt32 × α) (rest : List (UInt32 × α)) (k : UInt32) :
    (row :: rest).lookup k = if k = row.1 then some row.2 else rest.lookup k := by
  obtain ⟨key, value⟩ := row
  rw [List.lookup_cons]
  by_cases h : k = key
  · simp [h]
  · rw [if_neg h, beq_false_of_ne h]

theorem lookup_insertRow (key : UInt32) (value : α) (rows : List (UInt32 × α)) (k : UInt32) :
    (insertRow key value rows).lookup k = if k = key then some value else rows.lookup k := by
  induction rows with
  | nil => simp [insertRow, lookup_row]
  | cons head rest ih =>
    rw [insertRow]
    split
    · rw [lookup_row]
    · split
      · rename_i heq
        subst heq
        rw [lookup_row, lookup_row]
        by_cases h : k = head.1 <;> simp [h]
      · rename_i hne
        rw [lookup_row, ih, lookup_row]
        by_cases h : k = head.1
        · subst h
          simp [Ne.symm hne]
        · simp [h]

theorem lookup_filter_ne (rows : List (UInt32 × α)) (key k : UInt32) :
    (rows.filter (fun row => row.1 != key)).lookup k =
      if k = key then none else rows.lookup k := by
  induction rows with
  | nil => simp
  | cons head rest ih =>
    rw [lookup_row]
    by_cases hhead : head.1 = key
    · rw [List.filter_cons_of_neg (by simp [hhead]), ih]
      by_cases hk : k = key <;> simp [hk, hhead]
    · rw [List.filter_cons_of_pos (by simp [hhead]), lookup_row, ih]
      by_cases hk : k = head.1
      · subst hk
        simp [hhead]
      · simp [hk]

@[simp] theorem get?_empty (k : UInt32) : (∅ : Table α).get? k = none := rfl

theorem size_empty : (∅ : Table α).size = 0 := rfl

@[simp] theorem get?_insert (table : Table α) (key : UInt32) (value : α) (k : UInt32) :
    (table.insert key value).get? k = if k = key then some value else table.get? k :=
  lookup_insertRow key value table.rows k

@[simp] theorem get?_erase (table : Table α) (key k : UInt32) :
    (table.erase key).get? k = if k = key then none else table.get? k :=
  lookup_filter_ne table.rows key k

theorem contains_eq_isSome (table : Table α) (key : UInt32) :
    table.contains key = (table.get? key).isSome := rfl

/-- A row of the table is what its key looks up. -/
theorem get?_eq_some_iff {table : Table α} {key : UInt32} {value : α} :
    table.get? key = some value ↔ (key, value) ∈ table.rows := by
  obtain ⟨rows, h⟩ := table
  simp only [get?]
  induction rows with
  | nil => simp
  | cons head rest ih =>
    obtain ⟨hhead, hrest⟩ := List.pairwise_cons.1 h
    obtain ⟨k', v'⟩ := head
    rw [lookup_row, List.mem_cons]
    by_cases hk : key = k'
    · subst hk
      have hnot : (key, value) ∉ rest := fun hm => UInt32.lt_irrefl key (hhead (key, value) hm)
      simp [hnot, eq_comm]
    · simp [hk, ih hrest]

/-- A key that is not behind the first row has no row among the others. -/
theorem lookup_eq_none_of_le {key : UInt32} {head : UInt32 × α} {rest : List (UInt32 × α)}
    (hle : key ≤ head.1) (hhead : ∀ row ∈ rest, head.1 < row.1) : rest.lookup key = none := by
  refine List.lookup_eq_none_iff.2 fun row hrow => bne_iff_ne.2 fun heq => UInt32.lt_irrefl row.1 ?_
  exact UInt32.lt_of_le_of_lt (heq ▸ hle) (hhead row hrow)

/-- Two tables that answer every lookup alike are equal. -/
theorem ext_get? {first second : Table α} (h : ∀ k, first.get? k = second.get? k) :
    first = second := by
  obtain ⟨xs, hxs⟩ := first
  obtain ⟨ys, hys⟩ := second
  simp only [get?] at h
  suffices xs = ys by subst this; rfl
  induction xs generalizing ys with
  | nil =>
    cases ys with
    | nil => rfl
    | cons y ys => exact absurd (h y.1) (by simp [lookup_row])
  | cons x xs ih =>
    cases ys with
    | nil => exact absurd (h x.1) (by simp [lookup_row])
    | cons y ys =>
      obtain ⟨hx, hxs⟩ := List.pairwise_cons.1 hxs
      obtain ⟨hy, hys⟩ := List.pairwise_cons.1 hys
      have hkey : x.1 = y.1 := by
        refine Decidable.byContradiction fun hne => ?_
        rcases UInt32.lt_or_lt_of_ne hne with hlt | hlt
        · have := h x.1
          rw [lookup_row, lookup_row, if_pos rfl, if_neg hne,
            lookup_eq_none_of_le (UInt32.le_of_lt hlt) hy] at this
          exact absurd this (by simp)
        · have := h y.1
          rw [lookup_row, lookup_row, if_pos rfl, if_neg (Ne.symm hne),
            lookup_eq_none_of_le (UInt32.le_of_lt hlt) hx] at this
          exact absurd this (by simp)
      have hvalue : x.2 = y.2 := by
        have := h x.1
        rw [lookup_row, lookup_row, if_pos rfl, if_pos hkey] at this
        exact Option.some.inj this
      have hrest : xs = ys := by
        refine ih hxs ys hys fun k => ?_
        by_cases hk : k = x.1
        · rw [lookup_eq_none_of_le (hk ▸ UInt32.le_refl _) hx,
            lookup_eq_none_of_le (hk ▸ hkey ▸ UInt32.le_refl _) hy]
        · have := h k
          rwa [lookup_row, lookup_row, if_neg hk, if_neg (hkey ▸ hk)] at this
      rw [hrest, Prod.ext hkey hvalue]

theorem mem_keys_iff {table : Table α} {key : UInt32} :
    key ∈ table.keys ↔ table.contains key = true := by
  rw [contains, Option.isSome_iff_exists, keys, List.mem_map]
  constructor
  · rintro ⟨⟨k, v⟩, hmem, rfl⟩
    exact ⟨v, get?_eq_some_iff.2 hmem⟩
  · rintro ⟨v, hv⟩
    exact ⟨(key, v), get?_eq_some_iff.1 hv, rfl⟩

/-- The keys are listed in strictly ascending order. -/
theorem pairwise_keys (table : Table α) : table.keys.Pairwise (· < ·) :=
  List.pairwise_map.2 table.ascending

@[simp] theorem length_keys (table : Table α) : table.keys.length = table.size := by
  simp [keys, size]

theorem length_insertRow {key : UInt32} {value : α} {rows : List (UInt32 × α)}
    (h : rows.Pairwise (fun a b => a.1 < b.1)) :
    (insertRow key value rows).length =
      if (rows.lookup key).isSome then rows.length else rows.length + 1 := by
  induction rows with
  | nil => rfl
  | cons head rest ih =>
    obtain ⟨hhead, hrest⟩ := List.pairwise_cons.1 h
    rw [insertRow, lookup_row]
    split
    · rename_i hlt
      have hnone := lookup_eq_none_of_le (UInt32.le_of_lt hlt) hhead
      have hne : key ≠ head.1 := UInt32.ne_of_lt hlt
      simp [hnone, hne]
    · split
      · simp
      · rw [List.length_cons, ih hrest]
        split <;> simp

/-- Only a key without a row makes the table larger. -/
theorem size_insert (table : Table α) (key : UInt32) (value : α) :
    (table.insert key value).size =
      if table.contains key then table.size else table.size + 1 :=
  length_insertRow table.ascending

theorem firstKey?_eq_none_iff {table : Table α} {test : α → Bool} :
    table.firstKey? test = none ↔ ∀ key value, table.get? key = some value →
      test value = false := by
  rw [firstKey?, Option.map_eq_none_iff, List.find?_eq_none]
  constructor
  · intro h key value hvalue
    simpa using h (key, value) (get?_eq_some_iff.1 hvalue)
  · intro h row hrow
    simpa using h row.1 row.2 (get?_eq_some_iff.2 hrow)

theorem get?_of_firstKey? {table : Table α} {test : α → Bool} {key : UInt32}
    (h : table.firstKey? test = some key) :
    ∃ value, table.get? key = some value ∧ test value = true := by
  rw [firstKey?, Option.map_eq_some_iff] at h
  obtain ⟨row, hrow, rfl⟩ := h
  have htest := List.find?_some hrow
  exact ⟨row.2, get?_eq_some_iff.2 (List.mem_of_find?_eq_some hrow), htest⟩

end Table

/-- A set of ranks or channels is a table whose rows hold nothing but their keys. -/
abbrev KeySet := Table Unit

namespace KeySet

def add (set : KeySet) (key : UInt32) : KeySet := Table.insert set key ()

@[simp] theorem contains_add (set : KeySet) (key k : UInt32) :
    (set.add key).contains k = (k == key || set.contains k) := by
  simp only [add, Table.contains_eq_isSome, Table.get?_insert]
  by_cases h : k = key <;> simp [h]

end KeySet

end MeshFormation
