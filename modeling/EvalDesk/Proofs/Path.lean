import EvalDesk.Path
import EvalDesk.Proofs.Placement.Lines
import EvalDesk.Source

/-!
# Paths and their texts

A path that was read from a text, and the normal path made of it, are read back from their texts as
they are. So two such paths are told apart by their texts, and the text of a path is that of its
normal path only when no name of it leads up. The path of an archive and that of an entry are found
again in the path that names both.
-/
namespace EvalDesk

namespace Text

/-- A part between marks does not have the mark. -/
theorem not_mem_of_mem_splitOn {mark : Char} {text part : List Char}
    (member : part ∈ splitOn mark text) : mark ∉ part := by
  induction text generalizing part with
  | nil =>
    simp only [splitOn, List.mem_singleton] at member
    simp [member]
  | cons c rest ih =>
    rw [splitOn] at member
    split at member
    · rcases List.mem_cons.mp member with rfl | later
      · exact List.not_mem_nil
      · exact ih later
    · rename_i other
      cases parts : splitOn mark rest with
      | nil => exact absurd parts (splitOn_ne_nil mark rest)
      | cons first others =>
        rw [parts] at member ih
        rcases List.mem_cons.mp member with rfl | later
        · rintro (_ | ⟨_, inside⟩)
          · exact other rfl
          · exact ih (.head _) inside
        · exact ih (.tail _ later)

/-- A text without the mark is its only part. -/
theorem splitOn_of_not_mem {mark : Char} {text : List Char} (plain : mark ∉ text) :
    splitOn mark text = [text] := by
  induction text with
  | nil => rfl
  | cons c rest ih =>
    simp only [List.mem_cons, not_or] at plain
    rw [splitOn, if_neg (Ne.symm plain.1), ih plain.2]
    rfl

/-- Parts without the mark are found again when they are joined by it. -/
theorem splitOn_intercalate {mark : Char} {parts : List (List Char)} (some_part : parts ≠ [])
    (plain : ∀ part ∈ parts, mark ∉ part) : splitOn mark ([mark].intercalate parts) = parts := by
  induction parts with
  | nil => exact absurd rfl some_part
  | cons part rest ih =>
    have alone := splitOn_of_not_mem (plain part (.head _))
    cases rest with
    | nil => rw [List.intercalate_singleton, alone]
    | cons next others =>
      rw [List.intercalate_cons_cons, List.append_assoc, List.singleton_append, splitOn_append,
        alone, ih (List.cons_ne_nil _ _) fun later member => plain later (.tail _ member)]
      rfl

/-- What stands before and after the first occurrence of a part makes up the text with it. -/
theorem append_of_partition? {mark text before after : List Char}
    (found : partition? mark text = some (before, after)) : before ++ (mark ++ after) = text := by
  induction text generalizing before after with
  | nil =>
    rw [partition?] at found
    split at found
    · rename_i empty
      cases found
      rw [List.isEmpty_iff.mp empty]
      rfl
    · contradiction
  | cons c rest ih =>
    rw [partition?] at found
    split at found
    · rename_i first
      cases found
      obtain ⟨behind, same⟩ := List.isPrefixOf_iff_prefix.mp first
      rw [← same, List.drop_left]
      rfl
    · obtain ⟨⟨front, behind⟩, inner, same⟩ := Option.map_eq_some_iff.mp found
      cases same
      rw [List.cons_append, ih inner]

end Text

namespace Path

/-- The names are those that can be read from a text: none is empty or that of the same directory,
and none has a slash. -/
def WellFormed (path : Path) : Prop :=
  ∀ name ∈ path.names, name.toList ≠ [] ∧ name.toList ≠ ['.'] ∧ '/' ∉ name.toList

/-- A path that is read from a text has such names. -/
theorem wellFormed_ofText (text : String) : (ofText text).WellFormed := by
  intro name member
  obtain ⟨part, kept, rfl⟩ := List.mem_map.mp (show name ∈ namesIn text.toList from member)
  obtain ⟨inside, named⟩ := List.mem_filter.mp kept
  obtain ⟨some_char, other⟩ := of_decide_eq_true named
  rw [String.toList_ofList]
  exact ⟨some_char, other, Text.not_mem_of_mem_splitOn inside⟩

/-- Climbing keeps some of the names. -/
theorem mem_of_mem_climb {reversed names : List String} {name : String}
    (member : name ∈ climb reversed names) : name ∈ reversed ∨ name ∈ names := by
  induction names generalizing reversed with
  | nil => exact .inl (List.mem_reverse.mp member)
  | cons next rest ih =>
    rw [climb] at member
    split at member
    · rcases ih member with before | behind
      · exact .inl (List.mem_of_mem_tail before)
      · exact .inr (.tail _ behind)
    · rcases ih member with before | behind
      · rcases List.mem_cons.mp before with rfl | before
        · exact .inr (.head _)
        · exact .inl before
      · exact .inr (.tail _ behind)

/-- The normal path of a path with such names has such names. -/
theorem WellFormed.normal {path : Path} (formed : path.WellFormed) : path.normal.WellFormed := by
  intro name member
  rcases mem_of_mem_climb member with nothing | inside
  · exact absurd nothing List.not_mem_nil
  · exact formed name inside

/-- The names are found again between the slashes that join them. -/
theorem WellFormed.namesIn {path : Path} (formed : path.WellFormed) (some_name : path.names ≠ []) :
    namesIn (['/'].intercalate (path.names.map String.toList)) = path.names := by
  have plain : ∀ part ∈ path.names.map String.toList, '/' ∉ part := by
    intro part member
    obtain ⟨name, inside, rfl⟩ := List.mem_map.mp member
    exact (formed name inside).2.2
  have all : (path.names.map String.toList).filter (fun part => part ≠ [] ∧ part ≠ ['.']) =
      path.names.map String.toList := by
    refine List.filter_eq_self.mpr fun part member => ?_
    obtain ⟨name, inside, rfl⟩ := List.mem_map.mp member
    obtain ⟨some_char, other, _⟩ := formed name inside
    simp [some_char, other]
  have joined : path.names.map String.toList ≠ [] := by simpa using some_name
  rw [Path.namesIn, Text.splitOn_intercalate joined plain, all, List.map_map]
  exact List.map_id'' (fun _ => String.ofList_toList) _

/-- A slash in front starts no further name. -/
theorem namesIn_slash (text : List Char) : namesIn ('/' :: text) = namesIn text := by
  simp [namesIn, Text.splitOn]

/-- Such names, joined, start with no slash. -/
theorem WellFormed.exists_intercalate_cons {root : Root} {name : String} {rest : List String}
    (formed : WellFormed ⟨root, name :: rest⟩) : ∃ c others,
      ['/'].intercalate ((name :: rest).map String.toList) = c :: others ∧ c ≠ '/' := by
  obtain ⟨some_char, _, plain⟩ := formed name (.head _)
  obtain ⟨c, behind, letters⟩ := List.exists_cons_of_ne_nil some_char
  have other : c ≠ '/' := fun same => plain (by rw [letters, same]; exact .head _)
  cases rest with
  | nil => exact ⟨c, behind, by simp [letters], other⟩
  | cons next more =>
    refine ⟨c, behind ++ ['/'] ++ ['/'].intercalate ((next :: more).map String.toList), ?_, other⟩
    rw [List.map_cons, List.map_cons, List.intercalate_cons_cons, letters]
    rfl

/-- A path with such names is read back from its text. -/
theorem ofText_text {path : Path} (formed : path.WellFormed) : ofText path.text = path := by
  obtain ⟨root, names⟩ := path
  cases names with
  | nil => cases root <;> decide
  | cons name rest =>
    have found := formed.namesIn (List.cons_ne_nil _ _)
    -- The joined names start with no slash, so the slashes in front are those of the root.
    obtain ⟨c, others, starts, other⟩ := formed.exists_intercalate_cons
    have written : (Path.text ⟨root, name :: rest⟩).toList = root.text.toList ++ c :: others := by
      rw [Path.text, if_neg (by simp), String.toList_append, String.toList_intercalate, ← starts]
      rfl
    have names : Path.namesIn (c :: others) = name :: rest := by
      rw [← starts]
      exact found
    have front : (root.text.toList ++ c :: others).takeWhile (· = '/') = root.text.toList := by
      cases root <;> simp [Root.text, other]
    rw [ofText, written, front]
    cases root with
    | relative => simpa [Root.text] using names
    | top =>
      have read : Path.namesIn ("/".toList ++ c :: others) = name :: rest :=
        (namesIn_slash _).trans names
      simp only [Root.text]
      rw [read]
      rfl
    | doubled =>
      have read : Path.namesIn ("//".toList ++ c :: others) = name :: rest :=
        (namesIn_slash _).trans ((namesIn_slash _).trans names)
      simp only [Root.text]
      rw [read]
      rfl

/-- A path that was read has the text of its normal path exactly when no name of it leads up. -/
theorem text_eq_normal_iff (text : String) :
    (ofText text).text = (ofText text).normal.text ↔ above ∉ (ofText text).names := by
  have formed := wellFormed_ofText text
  constructor
  · intro same
    have read := congrArg ofText same
    rw [ofText_text formed, ofText_text formed.normal] at read
    rw [read]
    exact above_not_mem_normal _
  · intro plain
    have kept := climb_of_plain [] (ofText text).names plain
    simp only [List.reverse_nil, List.nil_append] at kept
    rw [normal, kept]

end Path

/-- The path that names an archive and an entry is that of the two. -/
theorem Source.entryPath_of_splitEntry? {path archive entry : String}
    (split : splitEntry? path = some (archive, entry)) : entryPath archive entry = path := by
  obtain ⟨⟨before, after⟩, found, same⟩ := Option.map_eq_some_iff.mp split
  cases same
  apply String.toList_inj.mp
  simp only [entryPath, String.toList_append, String.toList_ofList, List.append_assoc]
  exact Text.append_of_partition? found

end EvalDesk
