import LanguageServer.Table

/-! Tables answer for every address what was last set for it. -/

namespace LanguageServer.Table

variable {α β : Type}

/-- The entries stand in the strict order of their addresses. -/
def Ordered (table : Table α) : Prop :=
  -- So no address has two entries.
  table.entries.Pairwise fun first second => first.1.text < second.1.text

/-- Setting an entry changes the answer for its own address alone. -/
theorem findIn_insertIn (uri other : Uri) (value : α) (entries : List (Uri × α)) :
    findIn other (insertIn uri value entries) =
      if other = uri then some value else findIn other entries := by
  -- The induction follows the search for the place of the new entry.
  induction entries with
  | nil => simp [insertIn, findIn, eq_comm]
  | cons entry rest ih =>
    rcases entry with ⟨key, held⟩
    simp only [insertIn]
    split
    · rename_i same
      subst same
      by_cases asked : other = key
      · simp [findIn, asked]
      · simp [findIn, asked, Ne.symm asked]
    · split
      · by_cases asked : other = uri
        · simp [findIn, asked]
        · simp [findIn, asked, Ne.symm asked]
      · rename_i apart _
        simp only [findIn, ih]
        by_cases asked : other = uri
        · simp [asked, apart]
        · simp [asked]

/-- A table with the value of one address set. -/
@[simp] theorem find?_insert (table : Table α) (uri other : Uri) (value : α) :
    (table.insert uri value).find? other = if other = uri then some value else table.find? other :=
  -- The table's entries are those of the list law.
  findIn_insertIn uri other value table.entries

/-- Leaving out the entries of an address changes the answer for that address alone. -/
theorem findIn_filter (uri other : Uri) (entries : List (Uri × α)) :
    findIn other (entries.filter fun entry => entry.1 ≠ uri) =
      if other = uri then none else findIn other entries := by
  -- A kept entry answers as before, and a dropped one can only have answered for its own address.
  induction entries with
  | nil => simp [findIn]
  | cons entry rest ih =>
    rcases entry with ⟨key, held⟩
    by_cases dropped : key = uri
    · subst dropped
      rw [List.filter_cons_of_neg (by simp), ih]
      by_cases asked : other = key
      · simp [asked]
      · simp [findIn, asked, Ne.symm asked]
    · rw [List.filter_cons_of_pos (by simp [dropped])]
      simp only [findIn, ih]
      by_cases asked : other = uri
      · simp [asked, dropped]
      · simp [asked]

/-- A table without a value for one address. -/
@[simp] theorem find?_erase (table : Table α) (uri other : Uri) :
    (table.erase uri).find? other = if other = uri then none else table.find? other :=
  -- The table's entries are those of the list law.
  findIn_filter uri other table.entries

/-- Changing every value changes every answer in the same way. -/
@[simp] theorem find?_map (change : α → β) (table : Table α) (uri : Uri) :
    (table.map change).find? uri = (table.find? uri).map change := by
  -- Addresses stay, so the search ends at the same entry.
  rcases table with ⟨entries⟩
  simp only [map, find?]
  induction entries with
  | nil => rfl
  | cons entry rest ih =>
    rcases entry with ⟨key, held⟩
    by_cases found : key = uri
    · simp [findIn, found]
    · simpa [findIn, found] using ih

/-- An empty table answers nothing. -/
@[simp] theorem find?_empty (uri : Uri) : ({} : Table α).find? uri = none := rfl

/-- An empty table is in order. -/
theorem ordered_empty : ({} : Table α).Ordered := List.Pairwise.nil

/-- Every entry after an insertion is the new one or was there before. -/
theorem mem_insertIn {uri : Uri} {value : α} {entries : List (Uri × α)} {entry : Uri × α}
    (member : entry ∈ insertIn uri value entries) : entry = (uri, value) ∨ entry ∈ entries := by
  -- Only the entry of the same address can disappear.
  induction entries with
  | nil => simpa [insertIn] using member
  | cons first rest ih =>
    rcases first with ⟨key, held⟩
    simp only [insertIn] at member
    split at member
    · rcases List.mem_cons.mp member with same | later
      · exact .inl same
      · exact .inr (List.mem_cons_of_mem _ later)
    · split at member
      · exact List.mem_cons.mp member
      · rcases List.mem_cons.mp member with same | later
        · exact .inr (by simp [same])
        · exact (ih later).imp id (List.mem_cons_of_mem _)

/-- Setting a value keeps a table in order. -/
theorem Ordered.insert {table : Table α} (ordered : table.Ordered) (uri : Uri) (value : α) :
    (table.insert uri value).Ordered := by
  -- The new entry stands before the first entry of a larger address.
  rcases table with ⟨entries⟩
  simp only [Ordered, Table.insert] at ordered ⊢
  induction entries with
  | nil => simp [insertIn]
  | cons first rest ih =>
    rcases first with ⟨key, held⟩
    obtain ⟨below, orderedRest⟩ := List.pairwise_cons.mp ordered
    simp only [insertIn]
    split
    · rename_i same
      subst same
      exact List.pairwise_cons.mpr ⟨below, orderedRest⟩
    · rename_i apart
      split
      · rename_i smaller
        refine List.pairwise_cons.mpr ⟨?_, ordered⟩
        intro entry member
        rcases List.mem_cons.mp member with same | later
        · simpa [same] using smaller
        · exact String.lt_trans smaller (below entry later)
      · rename_i notSmaller
        refine List.pairwise_cons.mpr ⟨?_, ih orderedRest⟩
        intro entry member
        rcases mem_insertIn member with same | later
        · -- Neither equal nor smaller, the new address is the larger one.
          have different : key.text ≠ uri.text := by
            intro equal
            exact apart (by cases key; cases uri; cases equal; rfl)
          subst same
          rcases Std.lt_trichotomy key.text uri.text with less | equal | greater
          · exact less
          · exact absurd equal different
          · exact absurd greater notSmaller
        · exact below entry later

/-- Leaving out an address keeps a table in order. -/
theorem Ordered.erase {table : Table α} (ordered : table.Ordered) (uri : Uri) :
    (table.erase uri).Ordered :=
  -- A part of an ordered list is ordered.
  List.Pairwise.filter _ ordered

/-- An ordered table answers for an address with the value of its entry. -/
theorem mem_entries {table : Table α} (ordered : table.Ordered) {uri : Uri} {value : α} :
    (uri, value) ∈ table.entries ↔ table.find? uri = some value := by
  -- An entry behind the first has a larger address, so the first does not hide it.
  rcases table with ⟨entries⟩
  simp only [Ordered, find?] at ordered ⊢
  induction entries with
  | nil => simp [findIn]
  | cons first rest ih =>
    rcases first with ⟨key, held⟩
    obtain ⟨below, orderedRest⟩ := List.pairwise_cons.mp ordered
    rw [List.mem_cons, ih orderedRest]
    by_cases asked : key = uri
    · subst asked
      have later : findIn key rest ≠ some value := by
        intro found
        exact String.lt_irrefl _ (below (key, value) ((ih orderedRest).mpr found))
      simp [findIn, later, eq_comm]
    · simp [findIn, asked, Ne.symm asked]

/-- An ordered table has one entry for an address that has a value and none for another. -/
theorem filter_entries {table : Table α} (ordered : table.Ordered) (uri : Uri) :
    table.entries.filter (fun entry => entry.1 = uri) =
      ((table.find? uri).map fun value => (uri, value)).toList := by
  -- All entries behind that of the address have larger addresses.
  rcases table with ⟨entries⟩
  simp only [Ordered, find?] at ordered ⊢
  induction entries with
  | nil => rfl
  | cons first rest ih =>
    rcases first with ⟨key, held⟩
    obtain ⟨below, orderedRest⟩ := List.pairwise_cons.mp ordered
    by_cases asked : key = uri
    · subst asked
      have others : rest.filter (fun entry => entry.1 = key) = [] := by
        refine List.filter_eq_nil_iff.mpr fun entry member same => ?_
        have larger := below entry member
        rw [of_decide_eq_true same] at larger
        exact String.lt_irrefl _ larger
      simp [findIn, others]
    · simpa [findIn, asked] using ih orderedRest

/-- The values of an ordered table are the answers that it gives. -/
theorem mem_values {table : Table α} (ordered : table.Ordered) (value : α) :
    value ∈ table.values ↔ ∃ uri, table.find? uri = some value := by
  -- Each value stands in an entry.
  simp [values, ← mem_entries ordered]

/-- Marks of values are different if no two addresses have values with one mark. -/
theorem nodup_map_values {table : Table α} (ordered : table.Ordered) {mark : α → β}
    (apart : ∀ {uri other value held}, table.find? uri = some value →
      table.find? other = some held → mark value = mark held → uri = other) :
    (table.values.map mark).Nodup := by
  -- No address has two entries.
  unfold values
  rw [List.map_map, List.Nodup, List.pairwise_map]
  refine List.Pairwise.imp_of_mem ?_ ordered
  intro first second inTable alsoInTable below same
  have uris : first.1 = second.1 :=
    apart ((mem_entries ordered).mp inTable) ((mem_entries ordered).mp alsoInTable) same
  rw [uris] at below
  exact String.lt_irrefl _ below

end LanguageServer.Table
