import EvalDesk.Proofs.Location.Printed
import EvalDesk.Proofs.Path
import EvalDesk.Proofs.Text.Percent

/-!
# Addresses of entries

The address of an entry in an archive, as the server tells it: the path of the archive and that of
the entry, both written in the way of addresses, with the mark between them. The path of the archive
is read back, since the mark cannot stand in what is written. The path of the entry is taken as it
is written, so it is read back exactly when all its characters are written plainly.
-/
namespace EvalDesk

/-! ## The first mark in a text -/

namespace Text

/-- A text without some character of the mark does not have the mark. -/
theorem partition?_eq_none {mark text : List Char} {c : Char} (part : c ∈ mark)
    (apart : c ∉ text) : partition? mark text = none := by
  cases found : partition? mark text with
  | none => rfl
  | some parts =>
    have whole := append_of_partition? found
    exact absurd (by simp [← whole, part]) apart

/-- The first mark stays the first with more text behind. -/
theorem partition?_append {mark text before after : List Char}
    (found : partition? mark text = some (before, after)) (rest : List Char) :
    partition? mark (text ++ rest) = some (before, after ++ rest) := by
  induction text generalizing before after with
  | nil =>
    rw [partition?] at found
    split at found
    · rename_i empty
      cases found
      rw [List.isEmpty_iff.mp empty]
      cases rest <;> rfl
    · contradiction
  | cons c more ih =>
    rw [partition?] at found
    split at found
    · rename_i first
      cases found
      have start := List.isPrefixOf_iff_prefix.mp first
      have behind : mark.isPrefixOf (c :: (more ++ rest)) = true :=
        List.isPrefixOf_iff_prefix.mpr (start.trans (List.prefix_append (c :: more) rest))
      rw [List.cons_append, partition?, if_pos behind, ← List.cons_append,
        List.drop_append_of_le_length start.length_le]
    · rename_i first
      obtain ⟨⟨front, behind⟩, inner, same⟩ := Option.map_eq_some_iff.mp found
      cases same
      have short : mark.length ≤ (c :: more).length := by
        have whole := congrArg List.length (append_of_partition? inner)
        simp only [List.length_append] at whole
        rw [List.length_cons]
        omega
      have later : ¬ mark.isPrefixOf (c :: (more ++ rest)) = true := by
        intro start
        exact first (List.isPrefixOf_iff_prefix.mpr (List.prefix_of_prefix_length_le
          (List.isPrefixOf_iff_prefix.mp start) (List.prefix_append (c :: more) rest) short))
      rw [List.cons_append, partition?, if_neg later, ih inner, Option.map_some]

/-- A mark of two different characters is the first behind a text that does not have it. -/
theorem partition?_append_mark {first second : Char} (differ : first ≠ second) {text : List Char}
    (without : partition? [first, second] text = none) (rest : List Char) :
    partition? [first, second] (text ++ first :: second :: rest) = some (text, rest) := by
  induction text with
  | nil => simp [partition?]
  | cons c more ih =>
    rw [partition?] at without
    split at without
    · contradiction
    · rename_i here
      have later :
          ¬[first, second].isPrefixOf (c :: (more ++ first :: second :: rest)) = true := by
        intro start
        obtain ⟨rfl, next⟩ := List.cons_prefix_cons.mp (List.isPrefixOf_iff_prefix.mp start)
        cases more with
        | nil => exact differ (List.cons_prefix_cons.mp next).1.symm
        | cons d others =>
          obtain ⟨rfl, -⟩ := List.cons_prefix_cons.mp next
          exact here (by simp [List.isPrefixOf])
      rw [List.cons_append, partition?, if_neg later, ih (Option.map_eq_none_iff.mp without),
        Option.map_some]

end Text

namespace Location

/-- The address of an entry in an archive. -/
def entryAddress (archive entry : String) : String :=
  "jar:file:" ++ String.ofList (Text.Percent.encode archive) ++ Source.entryMark ++
    String.ofList (Text.Percent.encode entry)

/-- The characters of the address of an entry. -/
theorem toList_entryAddress (archive entry : String) :
    (entryAddress archive entry).toList = "jar:".toList ++ ("file:".toList ++
      Text.Percent.encode archive ++ '!' :: '/' :: Text.Percent.encode entry) := by
  simp [entryAddress, Source.entryMark]

/-- What a text starts with is cut off from it. -/
theorem without?_append (start : String) (rest : List Char) :
    without? start (start.toList ++ rest) = some rest := by
  rw [without?, if_pos (List.isPrefixOf_iff_prefix.mpr (List.prefix_append _ _)), List.drop_left]

/-- The address of an entry tells the archive, and the entry as the address writes it. -/
theorem ofAddress_entryAddress (archive entry : String) :
    ofAddress (entryAddress archive entry).toList =
      (String.ofList (Text.Percent.encode entry), some archive) := by
  have apart : '!' ∉ "file:".toList ++ Text.Percent.encode archive := by
    rw [List.mem_append, not_or]
    exact ⟨by decide, fun member => (Text.Percent.plain_of_mem_encode member).2 (.head _)⟩
  have split := Text.partition?_append_mark (show '!' ≠ '/' by decide)
    (Text.partition?_eq_none (show '!' ∈ ['!', '/'] by decide) apart)
    (Text.Percent.encode entry)
  rw [toList_entryAddress, ofAddress, without?_append]
  simp only [split, Option.getD_some, without?_append, Text.Percent.decode_encode,
    String.ofList_toList]

/-- The address of an entry says where something is. -/
theorem isTelling_entryAddress (archive entry : String) :
    IsTelling (entryAddress archive entry) := by
  have first : (entryAddress archive entry).toList.head? = some 'j' := by
    rw [toList_entryAddress]
    rfl
  constructor
  · intro empty
    rw [empty] at first
    contradiction
  · intro absent
    have others : ∀ name ∈ absentSources, name.toList.head? ≠ some 'j' := by decide
    exact others _ absent first

/-- A printed address of an entry is read back exactly when its numbers are not too long and all
characters of the path of the entry are written plainly. -/
theorem ofText?_entry_iff {printed : Printed} {archive entry : String} (proper : printed.IsProper)
    (address : printed.address = entryAddress archive entry) :
    (∃ location, ofText? (String.ofList printed.written) = .ok (some location) ∧
        location.archive = some archive ∧ location.path = entry) ↔
      (∀ value ∈ printed.line, IsShort value) ∧ (∀ value ∈ printed.column, IsShort value) ∧
        ∀ c ∈ entry.toList, Text.Percent.isKept c = true := by
  have telling : IsTelling printed.address := address ▸ isTelling_entryAddress archive entry
  have written : String.ofList (Text.Percent.encode entry) = entry ↔
      ∀ c ∈ entry.toList, Text.Percent.isKept c = true := by
    rw [← Text.Percent.encode_eq_toList_iff, ← String.toList_inj, String.toList_ofList]
  simp only [Printed.ofText?_written_eq_ok_iff proper telling, address, ofAddress_entryAddress]
  constructor
  · rintro ⟨location, ⟨line, column, rfl⟩, -, path⟩
    exact ⟨line, column, written.mp path⟩
  · rintro ⟨line, column, kept⟩
    exact ⟨_, ⟨line, column, rfl⟩, rfl, written.mpr kept⟩

end Location
end EvalDesk
