import ElmReport.FileTree.RealPath

/-!
# Files to check

A path that leads to a directory stands for the Elm files below it, in the order of their names; a
path that leads to a file stands for that file, whatever its name; every other path stands for
nothing. A path with the name of the directory of generated code among its names, as it is spelled,
is left out. Of what remains the real paths are taken.

No link is followed on the way down, but whether it leads to a directory is looked up. A link whose
target has a name that is too long cannot be looked up, and neither can a directory whose path has
become too long: the search fails then, whatever else lies there.

## Main definitions

* `Descendant`: what lies below a directory.
* `Entry.descendants`: all that lies below an entry, no link being followed.
* `FileTree.searchFailure?`: why something below a directory cannot be looked up.
* `FileTree.filesOf`: the files that a path stands for.
* `FileTree.selection`: the files that some paths stand for.

## Main results

* `Entry.descendants_file`, `Entry.descendants_link`: nothing lies below a file or a link.
* `FileTree.searchFailure?_file`: files are not looked up.
* `isSpelledClean_of_mem_spelled`: no spelled path goes through generated code.
-/

namespace ElmReport

/-! ### What lies below a directory -/

/-- What lies below a directory: the directory right above it, its name there, and its entry. -/
structure Descendant where
  directory : Path
  name : Text
  entry : Entry

namespace Descendant

/-- The path of what lies below a directory. -/
def path (d : Descendant) : Path := d.directory.child d.name

/-- The path in the words of the system, which puts the name behind the directory: a dot that stands
for the directory is kept. -/
def text (d : Descendant) : Text := Path.joinText d.directory.text d.name

end Descendant

namespace Entry

mutual

/-- All that lies below an entry with a path, a directory before what lies in it, no link being
followed. -/
def descendants (p : Path) : Entry → List Descendant
  | directory entries => descendantsIn p entries
  | file => []
  | link _ => []

/-- Some entries of a directory and all that lies below them. -/
def descendantsIn (p : Path) : List (Text × Entry) → List Descendant
  | [] => []
  | (name, e) :: es => ⟨p, name, e⟩ :: (e.descendants (p.child name) ++ descendantsIn p es)

end

/-- Nothing lies below a file. -/
@[simp] theorem descendants_file (p : Path) : descendants p file = [] := by
  rw [descendants]

/-- Nothing lies below a link. -/
@[simp] theorem descendants_link (p : Path) (target : Text) : descendants p (link target) = [] := by
  rw [descendants]

end Entry

namespace Batch

/-- The end of the name of an Elm file. -/
def elmEnding : Text := ".elm"

/-- Whether something has the name of an Elm file; links and directories may have one. -/
def isElmFile (d : Descendant) : Bool := elmEnding.isSuffixOf d.name

/-- The directory of generated code. -/
def generated : Text := "elm-stuff"

/-- Whether a path as it is spelled does not go through generated code. -/
def isSpelledClean (p : Path) : Bool := !p.names.contains generated

end Batch

namespace FileTree

open Batch

/-- Why something below a directory cannot be looked up. Files are not looked up. -/
def searchFailure? (t : FileTree) (d : Descendant) : Option Failure :=
  match d.entry with
  | .file => none
  | _ =>
    match t.status d.path with
    | .nameTooLong => some (.nameTooLong d.text)
    | _ => none

/-- Files are not looked up. -/
@[simp] theorem searchFailure?_file (t : FileTree) (p : Path) (name : Text) :
    t.searchFailure? ⟨p, name, .file⟩ = none := rfl

/-- The Elm files below a path that leads to an entry, links and directories with such names among
them. The first thing that cannot be looked up is a failure. -/
def elmFilesBelow (t : FileTree) (p : Path) (e : Entry) : Except Failure (List Path) :=
  match (e.descendants p).findSome? t.searchFailure? with
  | some failure => .error failure
  | none => .ok (Path.sort (((e.descendants p).filter isElmFile).map Descendant.path))

/-- The files that a path stands for. -/
def filesOf (t : FileTree) (p : Path) : Except Failure (List Path) :=
  match t.status p with
  | .entry _ (.directory entries) => t.elmFilesBelow p (.directory entries)
  | .entry _ .file => .ok [p]
  | .nameTooLong => .error (.nameTooLong p.text)
  | _ => .ok []

/-- The files that some paths stand for as they are spelled, without generated code. -/
def spelled (t : FileTree) (ps : List Path) : Except Failure (List Path) := do
  return (← ps.mapM t.filesOf).flatten.filter isSpelledClean

/-- The real paths of the files that some paths stand for. -/
def selection (t : FileTree) (ps : List Path) : Except Failure (List Path) := do
  (← t.spelled ps).mapM t.realPath

/-- No spelled path goes through generated code. -/
theorem isSpelledClean_of_mem_spelled {t : FileTree} {ps found : List Path}
    (h : t.spelled ps = .ok found) : ∀ p ∈ found, isSpelledClean p = true := by
  rw [spelled] at h
  cases hm : ps.mapM t.filesOf with
  | error e => simp [hm, bind, Except.bind] at h
  | ok files =>
    obtain rfl : files.flatten.filter isSpelledClean = found := by
      simpa [hm, bind, Except.bind, pure, Except.pure] using h
    exact fun p hp => (List.mem_filter.1 hp).2

end FileTree

end ElmReport
