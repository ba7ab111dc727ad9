import EvalDesk.Proofs.Datum.Grammar

/-!
# Tables put over others

A table that is put over another comes first wherever both have a key. Keys keep the place they had
below, and new ones follow in their own order. A table that was written has each key once, so both
laws hold for it.
-/
namespace EvalDesk

/-- A table is what another becomes when a third is put over it. -/
structure Overrides (merged base upper : Table) : Prop where
  /-- A key has its datum from above, else the one from below. -/
  found : ∀ key, merged.get? key = (upper.get? key).or (base.get? key)
  /-- The keys from below come first, then the new ones. -/
  order : merged.keys = base.keys ++ upper.keys.filter (· ∉ base.keys)

namespace Table

/-- The datum of the first entry or of a later one. -/
theorem get?_cons (key : Key) (datum : Datum) (rest : Table) (other : Key) :
    Table.get? ((key, datum) :: rest) other =
      if key = other then some datum else rest.get? other := by
  by_cases same : key = other <;> simp [get?, same]

/-- A key that is not among the keys has no datum. -/
theorem get?_of_not_mem {table : Table} {key : Key} (absent : key ∉ table.keys) :
    table.get? key = none := by
  simp only [keys, List.mem_map, not_exists, not_and] at absent
  simpa [get?] using fun name datum member same => absent (name, datum) member same

/-- Putting a datum keeps each key once. -/
theorem nodup_keys_put {table : Table} (once : table.keys.Nodup) (key : Key) (datum : Datum) :
    (table.put key datum).keys.Nodup := by
  rw [keys_put]
  split
  · exact once
  · rename_i absent
    exact List.nodup_append.mpr ⟨once, by simp, by
      rintro name member _ only rfl
      rw [List.mem_singleton.mp only] at member
      exact absent member⟩

/-- A datum that is put under a key takes the place of the entry that has it. -/
theorem put_append_cons {front : Table} {key : Key} (absent : key ∉ front.keys)
    (old datum : Datum) (behind : Table) :
    Table.put (front ++ (key, old) :: behind) key datum = front ++ (key, datum) :: behind := by
  induction front with
  | nil => simp [put]
  | cons entry rest ih =>
    obtain ⟨other, later⟩ := not_or.mp (mt List.mem_cons.mpr absent)
    rw [List.cons_append, put, if_neg (Ne.symm other), ih later]
    rfl

/-- A datum that is put under a new key comes last. -/
theorem put_of_not_mem {front : Table} {key : Key} (absent : key ∉ front.keys) (datum : Datum) :
    front.put key datum = front ++ [(key, datum)] := by
  induction front with
  | nil => rfl
  | cons entry rest ih =>
    obtain ⟨other, later⟩ := not_or.mp (mt List.mem_cons.mpr absent)
    rw [put, if_neg (Ne.symm other), ih later]
    rfl

/-- Entries that are put into a table whose keys come first among theirs take the places of its
entries and follow them, behind any entries with other keys. -/
theorem merge_append {front base entries : Table}
    (once : (Table.keys front ++ Table.keys entries).Nodup)
    (first : Table.keys base <+: Table.keys entries) :
    Table.merge (front ++ base) entries = front ++ entries := by
  induction entries generalizing front base with
  | nil =>
    have nothing : base = [] := List.map_eq_nil_iff.mp (List.prefix_nil.mp first)
    rw [nothing]
    rfl
  | cons entry rest ih =>
    obtain ⟨key, datum⟩ := entry
    have apart : Table.keys front ++ Table.keys ((key, datum) :: rest) =
        Table.keys (front ++ [(key, datum)]) ++ Table.keys rest := by simp [keys]
    have absent : key ∉ front.keys := fun member =>
      (List.nodup_append.mp once).2.2 key member key (.head _) rfl
    -- The entry takes the place of the first one of the table, or comes last when there is none.
    have placed : ∃ others : Table, Table.keys others <+: Table.keys rest ∧
        Table.put (front ++ base) key datum = (front ++ [(key, datum)]) ++ others := by
      cases base with
      | nil =>
        refine ⟨[], List.nil_prefix, ?_⟩
        rw [List.append_nil, List.append_nil, put_of_not_mem absent]
      | cons old others =>
        obtain ⟨same, behind⟩ := List.cons_prefix_cons.mp first
        obtain ⟨name, former⟩ := old
        cases same
        refine ⟨others, behind, ?_⟩
        rw [put_append_cons absent, List.append_assoc]
        rfl
    obtain ⟨others, behind, put⟩ := placed
    rw [apart] at once
    have later := ih once behind
    rw [← put, List.append_assoc] at later
    exact later

/-- A table that is put over another one, the keys of which come first among its own, is what
results. -/
theorem merge_eq_of_prefix {base entries : Table} (once : entries.keys.Nodup)
    (first : base.keys <+: entries.keys) : base.merge entries = entries :=
  @merge_append [] base entries once first

/-- What holds of the entries of a table and of another entry holds when this is put into the
table. -/
theorem forall_mem_put {property : Key × Datum → Prop} {table : Table}
    (all : ∀ entry ∈ table, property entry) {key : Key} {datum : Datum}
    (own : property (key, datum)) : ∀ entry ∈ table.put key datum, property entry := by
  induction table with
  | nil => exact List.forall_mem_singleton.mpr own
  | cons entry rest ih =>
    obtain ⟨front, others⟩ := List.forall_mem_cons.mp all
    rw [put]
    split
    · exact List.forall_mem_cons.mpr ⟨own, others⟩
    · exact List.forall_mem_cons.mpr ⟨front, ih others⟩

/-- What holds of the entries of two tables holds when one is put into the other. -/
theorem forall_mem_merge {property : Key × Datum → Prop} {table entries : Table}
    (all : ∀ entry ∈ table, property entry) (others : ∀ entry ∈ entries, property entry) :
    ∀ entry ∈ table.merge entries, property entry := by
  induction entries generalizing table with
  | nil => exact all
  | cons entry rest ih =>
    obtain ⟨own, later⟩ := List.forall_mem_cons.mp others
    exact ih (forall_mem_put all own) later

/-- Putting a datum keeps the keys that come first. -/
theorem prefix_keys_put {front : List Key} {table : Table} (first : front <+: table.keys)
    (key : Key) (datum : Datum) : front <+: (table.put key datum).keys := by
  rw [keys_put]
  split
  · exact first
  · exact first.trans (List.prefix_append _ _)

/-- Putting entries keeps the keys that come first. -/
theorem prefix_keys_merge {front : List Key} {table : Table} (first : front <+: table.keys)
    (entries : Table) : front <+: (table.merge entries).keys := by
  induction entries generalizing table with
  | nil => exact first
  | cons entry rest ih => exact ih (prefix_keys_put first entry.1 entry.2)

/-- Putting entries keeps each key once. -/
theorem nodup_keys_merge {table : Table} (once : table.keys.Nodup) (entries : Table) :
    (table.merge entries).keys.Nodup := by
  induction entries generalizing table with
  | nil => exact once
  | cons entry rest ih => exact ih (nodup_keys_put once entry.1 entry.2)

/-- Putting a table with each key once over another. -/
theorem overrides_merge (base : Table) {upper : Table} (once : upper.keys.Nodup) :
    Overrides (base.merge upper) base upper := by
  induction upper generalizing base with
  | nil => exact ⟨fun _ => by simp [merge, get?], by simp [merge, keys]⟩
  | cons entry rest ih =>
    obtain ⟨key, datum⟩ := entry
    have apart : key ∉ Table.keys rest ∧ (Table.keys rest).Nodup := List.nodup_cons.mp once
    obtain ⟨found, order⟩ := ih (base.put key datum) apart.2
    refine ⟨fun other => ?_, ?_⟩
    · refine (found other).trans ?_
      rw [get?_cons]
      by_cases same : key = other
      · subst same
        rw [get?_of_not_mem apart.1, get?_put, if_pos rfl]
        rfl
      · rw [get?_put_of_ne base datum (Ne.symm same), if_neg same]
    · refine order.trans ?_
      have later : Table.keys ((key, datum) :: rest) = key :: Table.keys rest := rfl
      rw [later, keys_put]
      by_cases known : key ∈ base.keys
      · simp [known]
      · have others : ∀ name ∈ Table.keys rest, name ≠ key := fun name member same =>
          apart.1 (same ▸ member)
        rw [if_neg known, List.filter_cons_of_pos (by simpa using known), List.append_assoc,
          List.singleton_append, List.filter_congr fun name member => ?_]
        simp [others name member]

end Table

/-- A table that is written has each key once. -/
theorem Json.nodup_keys_of_holds {text : String} {entries : Table}
    (holds : Holds text (.table entries)) : entries.keys.Nodup := by
  obtain ⟨_, written, _, -, isWritten, -, -⟩ := holds
  cases isWritten with
  | constant listed => simp [constants] at listed
  | number isNumber => cases isNumber
  | noEntries => exact List.nodup_nil
  | table => exact Table.nodup_keys_merge (show (Table.keys []).Nodup from List.nodup_nil) _

end EvalDesk
