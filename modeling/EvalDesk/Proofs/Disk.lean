import EvalDesk.Disk

/-!
# File trees that grow

A tree grows when nodes are put where there were none. What a path named before it names after, so
making the directories that lead somewhere hides no file.
-/
namespace EvalDesk.Disk

/-- Every node of a tree is one of another, and relative paths start at the same place. -/
structure Grows (disk after : Disk) : Prop where
  /-- The working directory is the same. -/
  directory : after.directory = disk.directory
  /-- A node that was there is there. -/
  kept : ∀ names node, disk.node? names = some node → after.node? names = some node

/-- A tree that stays as it is grows. -/
theorem Grows.refl (disk : Disk) : Grows disk disk := ⟨rfl, fun _ _ found => found⟩

/-- A tree grows in steps. -/
theorem Grows.trans {disk middle after : Disk} (first : Grows disk middle)
    (second : Grows middle after) : Grows disk after :=
  ⟨second.directory.trans first.directory, fun names node found =>
    second.kept names node (first.kept names node found)⟩

/-- A tree grows when a node is put where there was none. -/
theorem grows_put {disk : Disk} {names : List String} (node : Node)
    (absent : disk.node? names = none) : Grows disk (disk.put names node) := by
  refine ⟨rfl, fun other found there => ?_⟩
  have different : other ≠ names := by
    rintro rfl
    rw [absent] at there
    contradiction
  rw [node?_put_of_ne disk node different, there]

/-- A tree grows when directories are made. -/
theorem grows_makeDirectoriesFrom (disk : Disk) (names path : List String) :
    Grows disk (disk.makeDirectoriesFrom names path) := by
  induction path generalizing disk names with
  | nil => exact .refl disk
  | cons name rest ih =>
    rw [makeDirectoriesFrom]
    split
    · rename_i absent
      exact (grows_put .directory absent).trans (ih _ _)
    · exact ih disk _
    · exact .refl disk

/-- A tree grows when the directories that lead to a path are made. -/
theorem grows_makeDirectories (disk : Disk) (path : Path) :
    Grows disk (disk.makeDirectories path) :=
  grows_makeDirectoriesFrom disk [] path.names

variable {disk after : Disk}

/-- Names that could be followed still lead to the same node. -/
theorem Grows.follow (grows : Grows disk after) {names path : List String} {node : Node}
    {found : List String × Node} (followed : disk.follow names node path = .ok found) :
    after.follow names node path = .ok found := by
  fun_induction Disk.follow disk names node path with
  | case1 names node => exact followed
  | case2 names node name rest isFile => cases followed
  | case3 names node rest isDirectory ih =>
    rw [Disk.follow, if_neg isDirectory, if_pos rfl]
    exact ih followed
  | case4 names node rest isDirectory inside ih =>
    rw [Disk.follow, if_neg isDirectory, if_neg inside, if_pos rfl]
    exact ih followed
  | case5 names node name rest isDirectory inside down long => cases followed
  | case6 names node name rest isDirectory inside down short absent => cases followed
  | case7 names node name rest isDirectory inside down short inner there ih =>
    rw [Disk.follow, if_neg isDirectory, if_neg inside, if_neg down, if_neg short,
      grows.kept _ _ there]
    exact ih followed

/-- A path that named a node still names it. -/
theorem Grows.lookUp (grows : Grows disk after) {path : String} {node : Node}
    (named : disk.lookUp path = .ok node) : after.lookUp path = .ok node := by
  unfold Disk.lookUp at named ⊢
  split at named
  · cases named
  · rename_i plain
    rw [if_neg plain]
    split at named
    · rename_i names inner found
      cases named
      unfold Disk.find at found ⊢
      split at found
      · cases found
      · rename_i nonempty
        rw [if_neg nonempty]
        split at found
        · cases found
        · rename_i short
          have start : after.startNames path = disk.startNames path := by
            rw [startNames, startNames, grows.directory]
          rw [if_neg short, start, grows.follow found]
    · cases named

/-- The text of a file is that of its bytes, with line ends made line feeds. -/
theorem readText_of_file {path : String} {content : List UInt8}
    (named : disk.lookUp path = .ok (.file content)) :
    disk.readText path =
      match Text.Utf8.decode content with
      | .ok text => .ok (String.ofList (Text.unifyLineEnds text.toList))
      | .error flaw => .error (.undecodable flaw) := by
  rw [readText, readBytes, named]
  rfl

end EvalDesk.Disk
