import EvalDesk.Proofs.Disk
import EvalDesk.Proofs.Path

/-!
# Files that are written

A file can be written where a file is, and where nothing is while the directory of the path is
there. Then the same path names it with the bytes that were written, through whatever directories
the names of the path lead.
-/
namespace EvalDesk.Disk

/-- Nothing is at a path, but its directory is there. -/
structure Lacks (disk : Disk) (path : Path) : Prop where
  /-- Nothing is at the path. -/
  missing : disk.lookUp path.text = .error (.system .missing path.text)
  /-- Its directory is there. -/
  directory : disk.lookUp path.parent.text = .ok .directory

/-- What a path names is found, and the path can be given to the system. -/
theorem lookUp_eq_ok_iff {disk : Disk} {path : String} {node : Node} :
    disk.lookUp path = .ok node ↔
      ¬path.toList.contains '\x00' = true ∧ ∃ names, disk.find path = .ok (names, node) := by
  unfold lookUp
  split
  · rename_i null
    exact ⟨nofun, fun ⟨plain, _⟩ => absurd null plain⟩
  · rename_i plain
    rw [and_iff_right plain]
    cases found : disk.find path with
    | ok place =>
      obtain ⟨names, other⟩ := place
      simp
    | error error => simp

/-- What is found for a path is found along its names. -/
theorem find_eq_ok_iff {disk : Disk} {path : String} {found : List String × Node} :
    disk.find path = .ok found ↔
      path ≠ "" ∧ ¬longestPath < path.utf8ByteSize ∧
        disk.follow (disk.startNames path) .directory (writtenNames path) = .ok found := by
  unfold find
  split
  · rename_i empty
    simp [empty]
  · rename_i nonempty
    split
    · rename_i long
      simp [long]
    · rename_i short
      simp [nonempty, short]

/-! ## A file in place of another -/

/-- Where names lead to a file, it is a node of the tree, and another file that is put in its place
is found along the same names. -/
theorem follow_put {disk : Disk} {names path found : List String} {content : List UInt8}
    (followed : disk.follow names .directory path = .ok (found, .file content))
    (bytes : List UInt8) :
    disk.node? found = some (.file content) ∧
      (disk.put found (.file bytes)).follow names .directory path = .ok (found, .file bytes) := by
  induction path generalizing names with
  | nil => cases followed
  | cons name rest ih =>
    have isDirectory : ¬Node.directory ≠ .directory := fun other => other rfl
    rw [follow, if_neg isDirectory] at followed ⊢
    by_cases inside : name = "."
    · rw [if_pos inside] at followed ⊢
      exact ih followed
    rw [if_neg inside] at followed ⊢
    by_cases up : name = Path.above
    · rw [if_pos up] at followed ⊢
      exact ih followed
    rw [if_neg up] at followed ⊢
    by_cases long : longestName < name.utf8ByteSize
    · rw [if_pos long] at followed
      contradiction
    rw [if_neg long] at followed ⊢
    cases there : disk.node? (names ++ [name]) with
    | none =>
      rw [there] at followed
      cases followed
    | some inner =>
      rw [there] at followed
      cases inner with
      | directory =>
        -- The file lies further on, so the node here stays as it is.
        obtain ⟨last, again⟩ := ih followed
        have other : names ++ [name] ≠ found := by
          rintro rfl
          rw [there] at last
          cases last
        rw [node?_put_of_ne disk _ other, there]
        exact ⟨last, again⟩
      | file own =>
        cases rest with
        | nil =>
          cases followed
          rw [node?_put disk _ (by simp)]
          exact ⟨there, rfl⟩
        | cons next more => cases followed
      | archive entries =>
        cases rest with
        | nil => cases followed
        | cons next more => cases followed

/-- A file that is written where one is names the same path. -/
theorem write_of_file {disk : Disk} {path : Path} {content : List UInt8}
    (named : disk.lookUp path.text = .ok (.file content)) (bytes : List UInt8) :
    ∃ after, disk.write path bytes = .ok after ∧ after.lookUp path.text = .ok (.file bytes) := by
  obtain ⟨plain, names, found⟩ := lookUp_eq_ok_iff.mp named
  refine ⟨disk.put names (.file bytes), ?_, ?_⟩
  · rw [write, if_neg plain, found]
  · obtain ⟨nonempty, short, followed⟩ := find_eq_ok_iff.mp found
    refine lookUp_eq_ok_iff.mpr ⟨plain, names, find_eq_ok_iff.mpr ⟨nonempty, short, ?_⟩⟩
    exact (follow_put followed bytes).2

/-! ## A file where nothing was -/

/-- Names are followed one part after another. -/
theorem follow_append (disk : Disk) (names first second : List String) (node : Node) :
    disk.follow names node (first ++ second) =
      (disk.follow names node first).bind fun found => disk.follow found.1 found.2 second := by
  induction first generalizing names node with
  | nil => rfl
  | cons name rest ih =>
    rw [List.cons_append, follow, follow]
    split
    · rfl
    · split
      · exact ih _ _
      · split
        · exact ih _ _
        · split
          · rfl
          · split
            · rfl
            · exact ih _ _

/-- The names that a text writes between slashes. -/
def partNames (text : List Char) : List String :=
  ((Text.splitOn '/' text).filter (· ≠ [])).map String.ofList

/-- A name is written as itself. -/
theorem writtenNames_of_plain {name : String} (some_char : name.toList ≠ [])
    (plain : '/' ∉ name.toList) : writtenNames name = [name] := by
  have last : name.toList.getLast? ≠ some '/' := fun same => plain (List.mem_of_getLast? same)
  rw [writtenNames, if_neg last, Text.splitOn_of_not_mem plain]
  simp [some_char]

/-- A name behind a slash is written behind the names in front of it. -/
theorem writtenNames_slash {path name : String} {before : List Char}
    (text : path.toList = before ++ '/' :: name.toList) (some_char : name.toList ≠ [])
    (plain : '/' ∉ name.toList) : writtenNames path = partNames before ++ [name] := by
  have last : path.toList.getLast? ≠ some '/' := by
    obtain ⟨front, c, letters⟩ := (List.eq_nil_or_concat name.toList).resolve_left some_char
    rw [List.concat_eq_append] at letters
    have own : path.toList = before ++ '/' :: front ++ [c] := by rw [text, letters]; simp
    rw [own, List.getLast?_concat]
    rintro ⟨⟩
    exact plain (by rw [letters]; simp)
  rw [writtenNames, if_neg last, text, Text.splitOn_append, Text.splitOn_of_not_mem plain]
  simp [partNames, some_char]

/-- How a path and one below it are written: the lower one has the names of the upper one, which may
stand for the directory itself, and its own name behind them. -/
theorem exists_writtenNames_child (upper : Path) {name : String} (some_char : name.toList ≠ [])
    (plain : '/' ∉ name.toList) (filled : upper.text ≠ "") :
    ∃ parts dots, writtenNames (upper.child name).text = parts ++ [name] ∧
      writtenNames upper.text = parts ++ dots ∧ (dots = [] ∨ dots = ["."]) ∧
      ((upper.child name).text.toList.head? = some '/' ↔ upper.text.toList.head? = some '/') := by
  obtain ⟨root, names⟩ := upper
  have child : (Path.child ⟨root, names⟩ name).text =
      root.text ++ "/".intercalate (names ++ [name]) := if_neg (by simp [Path.child])
  by_cases some_name : names = []
  · subst some_name
    rw [child]
    cases root with
    | relative =>
      have text : Path.Root.relative.text ++ "/".intercalate ([] ++ [name]) = name :=
        String.toList_inj.mp (by simp [Path.Root.text])
      rw [text]
      refine ⟨[], ["."], writtenNames_of_plain some_char plain, by decide, .inr rfl, ?_⟩
      exact iff_of_false (fun first => plain (List.mem_of_head? first)) (by decide)
    | top =>
      have text : (Path.Root.top.text ++ "/".intercalate ([] ++ [name])).toList =
          [] ++ '/' :: name.toList := by simp [Path.Root.text]
      refine ⟨[], ["."], writtenNames_slash text some_char plain, by decide, .inr rfl, ?_⟩
      rw [text]
      exact iff_of_true rfl (by decide)
    | doubled =>
      have text : (Path.Root.doubled.text ++ "/".intercalate ([] ++ [name])).toList =
          ['/'] ++ '/' :: name.toList := by simp [Path.Root.text]
      refine ⟨[], ["."], writtenNames_slash text some_char plain, by decide, .inr rfl, ?_⟩
      rw [text]
      exact iff_of_true rfl (by decide)
  · have own : (Path.mk root names).text = root.text ++ "/".intercalate names :=
      if_neg (by simp [some_name])
    have text : (root.text ++ "/".intercalate (names ++ [name])).toList =
        (Path.mk root names).text.toList ++ '/' :: name.toList := by
      rw [String.intercalate_append_of_ne_nil some_name (List.cons_ne_nil _ _), own]
      simp
    rw [child]
    refine ⟨partNames (Path.mk root names).text.toList, _, writtenNames_slash text some_char plain,
      rfl, ?_, ?_⟩
    · split
      · exact .inr rfl
      · exact .inl rfl
    · have first : (Path.mk root names).text.toList ≠ [] := by simpa using filled
      obtain ⟨c, rest, letters⟩ := List.exists_cons_of_ne_nil first
      rw [text, letters]
      rfl

/-- A path below another one is below it. -/
theorem parent_child (upper : Path) (name : String) : (upper.child name).parent = upper := by
  simp [Path.parent, Path.child]

/-- The last name of a path below another one. -/
theorem name_child (upper : Path) (name : String) : (upper.child name).name = name := by
  simp [Path.name, Path.child]

/-- A path that cannot be looked up is not found. -/
theorem find_of_lookUp_error {disk : Disk} {path other : String} {error : SystemError}
    (lost : disk.lookUp path = .error (.system error other)) :
    ¬path.toList.contains '\x00' = true ∧ disk.find path = .error error := by
  unfold lookUp at lost
  split at lost
  · cases lost
  · rename_i plain
    refine ⟨plain, ?_⟩
    cases found : disk.find path with
    | ok place =>
      obtain ⟨names, node⟩ := place
      rw [found] at lost
      cases lost
    | error own =>
      rw [found] at lost
      cases lost
      rfl

/-- Names that end in that of the directory itself lead where they lead without it. -/
theorem follow_of_dots {disk : Disk} {start parts dots names : List String} {node : Node}
    (either : dots = [] ∨ dots = ["."])
    (followed : disk.follow start .directory (parts ++ dots) = .ok (names, node)) :
    disk.follow start .directory parts = .ok (names, node) := by
  rcases either with rfl | rfl
  · rwa [List.append_nil] at followed
  · rw [follow_append] at followed
    cases first : disk.follow start .directory parts with
    | error error =>
      rw [first] at followed
      cases followed
    | ok found =>
      rw [first] at followed
      change disk.follow found.1 found.2 ["."] = .ok (names, node) at followed
      rw [follow] at followed
      split at followed
      · cases followed
      · rw [if_pos rfl, follow] at followed
        exact followed

/-- A path of which nothing but the last name is missing leads up to this name. -/
theorem follow_of_lacks {disk : Disk} {upper : Path} {name : String}
    (some_char : name.toList ≠ []) (plain : '/' ∉ name.toList)
    (lacks : disk.Lacks (upper.child name)) :
    ∃ names parts, disk.find upper.text = .ok (names, .directory) ∧
      (upper.child name).text ≠ "" ∧ ¬longestPath < (upper.child name).text.utf8ByteSize ∧
      writtenNames (upper.child name).text = parts ++ [name] ∧
      disk.follow (disk.startNames (upper.child name).text) .directory parts =
        .ok (names, .directory) ∧
      disk.follow names .directory [name] = .error .missing := by
  obtain ⟨_, names, found⟩ := lookUp_eq_ok_iff.mp (parent_child upper name ▸ lacks.directory)
  obtain ⟨filled, _, followed⟩ := find_eq_ok_iff.mp found
  obtain ⟨_, lost⟩ := find_of_lookUp_error lacks.missing
  obtain ⟨parts, dots, lower, above, either, front⟩ :=
    exists_writtenNames_child upper some_char plain filled
  have start : disk.startNames upper.text = disk.startNames (upper.child name).text := by
    simp only [startNames, front]
  have nonempty : (upper.child name).text ≠ "" := by
    intro empty
    have none_written : writtenNames "" = [] := by decide
    rw [empty, none_written] at lower
    simp at lower
  rw [above, start] at followed
  have led := follow_of_dots either followed
  rw [find, if_neg nonempty] at lost
  split at lost
  · cases lost
  · rename_i short
    rw [lower, follow_append, led] at lost
    exact ⟨names, parts, found, nonempty, short, lower, led, lost⟩

/-- A name that leads nowhere is no special one and not too long, so it leads to whatever is put
there. -/
theorem follow_of_missing {disk : Disk} {names : List String} {name : String}
    (lost : disk.follow names .directory [name] = .error .missing) :
    disk.node? (names ++ [name]) = none ∧ ∀ (after : Disk) (node : Node),
      after.node? (names ++ [name]) = some node →
        after.follow names .directory [name] = .ok (names ++ [name], node) := by
  have isDirectory : ¬Node.directory ≠ .directory := fun other => other rfl
  rw [follow, if_neg isDirectory] at lost
  split at lost
  · cases lost
  · rename_i inside
    split at lost
    · cases lost
    · rename_i up
      split at lost
      · cases lost
      · rename_i short
        split at lost
        · rename_i absent
          refine ⟨absent, fun after node there => ?_⟩
          rw [follow, if_neg isDirectory, if_neg inside, if_neg up, if_neg short, there]
          rfl
        · cases lost

/-- A file that is written where nothing was, in a directory that is there, is named by the path. -/
theorem write_of_lacks {disk : Disk} {upper : Path} {name : String}
    (some_char : name.toList ≠ []) (plain : '/' ∉ name.toList)
    (lacks : disk.Lacks (upper.child name)) (bytes : List UInt8) :
    ∃ after, disk.write (upper.child name) bytes = .ok after ∧
      after.lookUp (upper.child name).text = .ok (.file bytes) := by
  obtain ⟨names, parts, found, nonempty, short, lower, led, lost⟩ :=
    follow_of_lacks some_char plain lacks
  obtain ⟨clear, missing⟩ := find_of_lookUp_error lacks.missing
  obtain ⟨absent, leads⟩ := follow_of_missing lost
  refine ⟨disk.put (names ++ [name]) (.file bytes), ?_, ?_⟩
  · rw [write, if_neg clear, missing]
    dsimp only
    rw [parent_child, name_child, found]
  · have grown := (grows_put (.file bytes) absent).follow led
    have last := leads _ _ (node?_put disk (.file bytes) (List.append_ne_nil_of_right_ne_nil names
      (List.cons_ne_nil name [])))
    have followed : (disk.put (names ++ [name]) (.file bytes)).follow
        (disk.startNames (upper.child name).text) .directory (parts ++ [name]) =
        .ok (names ++ [name], .file bytes) := by
      rw [follow_append, grown]
      exact last
    rw [← lower] at followed
    exact lookUp_eq_ok_iff.mpr ⟨clear, _, find_eq_ok_iff.mpr ⟨nonempty, short, followed⟩⟩

/-! ## Directories that are made again -/

/-- Directories that were made are not made again. -/
theorem makeDirectoriesFrom_again (disk : Disk) (names path : List String) :
    (disk.makeDirectoriesFrom names path).makeDirectoriesFrom names path =
      disk.makeDirectoriesFrom names path := by
  induction path generalizing disk names with
  | nil => rfl
  | cons name rest ih =>
    -- Where the first directory is there, the others are made below it in both runs.
    have below (made : Disk) (there : made.node? (names ++ [name]) = some .directory) :
        (made.makeDirectoriesFrom (names ++ [name]) rest).makeDirectoriesFrom names
          (name :: rest) = made.makeDirectoriesFrom (names ++ [name]) rest := by
      have kept := (grows_makeDirectoriesFrom made (names ++ [name]) rest).kept _ _ there
      rw [makeDirectoriesFrom, kept]
      exact ih made _
    cases there : disk.node? (names ++ [name]) with
    | none =>
      have made : disk.makeDirectoriesFrom names (name :: rest) =
          (disk.put (names ++ [name]) .directory).makeDirectoriesFrom (names ++ [name]) rest := by
        rw [makeDirectoriesFrom, there]
      rw [made]
      exact below _ (node?_put disk .directory (by simp))
    | some node =>
      cases node with
      | directory =>
        have made : disk.makeDirectoriesFrom names (name :: rest) =
            disk.makeDirectoriesFrom (names ++ [name]) rest := by
          rw [makeDirectoriesFrom, there]
        rw [made]
        exact below disk there
      | file _ | archive _ =>
        have made : disk.makeDirectoriesFrom names (name :: rest) = disk := by
          rw [makeDirectoriesFrom, there]
        rw [made, made]

/-- The directories that lead to a path are made once. -/
theorem makeDirectories_again (disk : Disk) (path : Path) :
    (disk.makeDirectories path).makeDirectories path = disk.makeDirectories path :=
  makeDirectoriesFrom_again disk [] path.names

end EvalDesk.Disk
