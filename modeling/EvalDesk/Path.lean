import EvalDesk.Text.Lines

/-!
# Paths

A path is a root, which a relative path does not have, and the names below it. Empty names and the
name for the same directory are left out when a path is read, so two spellings that differ only in
them are one path; the name for the directory above stays until the path is made normal.
-/
namespace EvalDesk

/-- Where a path starts. -/
inductive Path.Root where
  /-- At the working directory. -/
  | relative
  /-- At the top. -/
  | top
  /-- At the top, written with two slashes, which are kept. -/
  | doubled
  deriving DecidableEq, Repr

/-- The slashes in front of the names. -/
def Path.Root.text : Path.Root → String
  | .relative => ""
  | .top => "/"
  | .doubled => "//"

/-- A root and the names below it. -/
structure Path where
  /-- Where it starts. -/
  root : Path.Root
  /-- The names in order, none of them empty or a single point. -/
  names : List String
  deriving DecidableEq, Repr

namespace Path

/-- The name of the directory above. -/
def above : String := ".."

/-- The parts of a text between slashes that name something. -/
def namesIn (text : List Char) : List String :=
  ((Text.splitOn '/' text).filter fun part => part ≠ [] ∧ part ≠ ['.']).map String.ofList

/-- The path a text writes. -/
def ofText (text : String) : Path :=
  let chars := text.toList
  let root := match (chars.takeWhile (· = '/')).length with
    | 0 => Root.relative
    | 2 => Root.doubled
    | _ => Root.top
  ⟨root, namesIn chars⟩

/-- The text of a path; the empty relative path is a point. -/
def text (path : Path) : String :=
  if path.root = .relative ∧ path.names = [] then "."
  else path.root.text ++ "/".intercalate path.names

/-- The path does not depend on the working directory. -/
def isAbsolute (path : Path) : Bool := path.root ≠ .relative

/-- A path seen from another one. -/
def join (base path : Path) : Path :=
  if path.isAbsolute then path else ⟨base.root, base.names ++ path.names⟩

/-- A name below a path. -/
def child (path : Path) (name : String) : Path := ⟨path.root, path.names ++ [name]⟩

/-- The path without its last name. -/
def parent (path : Path) : Path := ⟨path.root, path.names.dropLast⟩

/-- The path itself and those of the directories above it, the nearest first. -/
def ancestors (path : Path) : List Path :=
  ((List.range (path.names.length + 1)).reverse).map fun count => ⟨path.root, path.names.take count⟩

/-- Names without those that lead up, after the reversed names above them; at the top there is
nothing above. -/
def climb (reversed : List String) : List String → List String
  | [] => reversed.reverse
  | name :: rest => if name = above then climb reversed.tail rest else climb (name :: reversed) rest

/-- An absolute path without names that lead up. -/
def normal (path : Path) : Path := ⟨path.root, climb [] path.names⟩

/-- The normal absolute path of a text seen from a directory. -/
def absolute (directory : Path) (text : String) : Path := (directory.join (ofText text)).normal

/-- The path itself, with the top written in one way. -/
def withSingleRoot (path : Path) : Path :=
  if path.root = .doubled then ⟨.top, path.names⟩ else path

/-- The last name, empty when there is none. -/
def name (path : Path) : String := path.names.getLastD ""

/-- The end of a name from its last point on; empty when the point is first or last in the name. -/
def suffixOf (name : List Char) : List Char :=
  let afterPoint := (name.reverse.takeWhile (· ≠ '.')).reverse
  let beforePoint := name.length - afterPoint.length - 1
  if afterPoint.length = name.length ∨ beforePoint = 0 ∨ afterPoint = [] then []
  else '.' :: afterPoint

/-- The suffix of the last name. -/
def suffix (path : Path) : String := String.ofList (suffixOf path.name.toList)

/-- Climbing leaves no name that leads up. -/
theorem above_not_mem_climb (reversed names : List String) (plain : above ∉ reversed) :
    above ∉ climb reversed names := by
  induction names generalizing reversed with
  | nil => simpa [climb] using plain
  | cons name rest ih =>
    simp only [climb]
    split
    · exact ih _ fun found => plain (List.mem_of_mem_tail found)
    · rename_i other
      exact ih _ (by simp [plain, Ne.symm other])

/-- A normal path has no name that leads up. -/
theorem above_not_mem_normal (path : Path) : above ∉ path.normal.names :=
  above_not_mem_climb [] path.names (by simp)

/-- Names that do not lead up are kept. -/
theorem climb_of_plain (reversed names : List String) (plain : above ∉ names) :
    climb reversed names = reversed.reverse ++ names := by
  induction names generalizing reversed with
  | nil => simp [climb]
  | cons name rest ih =>
    have other : ¬name = above := fun same => plain (by simp [same])
    have inner : above ∉ rest := fun found => plain (List.mem_cons_of_mem _ found)
    simp [climb, other, ih _ inner]

/-- Making a path normal twice changes nothing more. -/
theorem normal_normal (path : Path) : path.normal.normal = path.normal := by
  have kept := climb_of_plain [] path.normal.names (above_not_mem_normal path)
  simp only [List.reverse_nil, List.nil_append] at kept
  simp only [normal] at kept ⊢
  rw [kept]

end Path
end EvalDesk
