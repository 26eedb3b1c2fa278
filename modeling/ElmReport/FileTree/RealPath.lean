import ElmReport.Failure
import ElmReport.FileTree.Basic

/-!
# Real paths

The real path of a path goes through no link. Its names are taken one by one: a link is replaced by
what its target stands for, a double dot takes the last name away, and a name that is not there is
kept. What a link stands for is found once and remembered. A link that is met while its own target
is being followed is a loop; the path is then put together from what is left of it.

## Main definitions

* `FileTree.Resolved`: what resolving some names comes to.
* `FileTree.resolve`: resolving names from a path on.
* `FileTree.realPath`: the real path of a path.

## Main results

* `FileTree.resolve_nil`: without names a path stands for itself.
* `FileTree.isAbsolute_grounded`: a real path starts at the root.
-/

namespace ElmReport.FileTree

/-- What resolving some names comes to: a path, a loop of links with a path in words, or a null
character. -/
inductive Resolved where
  | path (path : Path)
  | loop (words : Text)
  | nullCharacter

/-- The links met so far, each with what it stands for, or with nothing while that is being
found. -/
abbrev Known := List (Path × Option Path)

/-- Names with slashes between them. -/
def rest (names : List Text) : Text := Text.join [slash] names

/-- Where the target of a link starts whose directory is `place`. -/
def targetStart (place : Path) (target : Text) : Path :=
  if target.head? = some slash then .root else place

/-- Resolves names from a path without links on, with so many links left to follow one inside the
other. -/
def resolve (t : FileTree) (links : Nat) (known : Known) (place : Path) :
    List Text → Known × Resolved
  | [] => (known, .path place)
  | name :: names =>
    if !Path.isName name then t.resolve links known place names
    else if name = Path.doubleDot then t.resolve links known place.parent names
    else if .scalar '\x00' ∈ name then (known, .nullCharacter)
    else
      let next := place.child name
      match t.linkTarget? next with
      | none => t.resolve links known next names
      | some target =>
        match known.lookup next with
        | some (some found) => t.resolve links known found names
        | some none => (known, .loop (Path.joinText next.text (rest names)))
        | none =>
          match links with
          | 0 => (known, .loop (Path.joinText next.text (rest names)))
          | links + 1 =>
            match t.resolve links ((next, none) :: known) (targetStart place target)
                (Text.fields slash target) with
            | (known, .path found) =>
              t.resolve (links + 1) ((next, some found) :: known) found names
            | (known, .loop words) => (known, .loop (Path.joinText words (rest names)))
            | (known, .nullCharacter) => (known, .nullCharacter)
termination_by names => (links, names.length)

/-- Without names a path stands for itself. -/
theorem resolve_nil (t : FileTree) (links : Nat) (known : Known) (place : Path) :
    t.resolve links known place [] = (known, .path place) := by
  rw [resolve]

mutual

/-- The number of links in an entry. -/
def linkCount : Entry → Nat
  | .file => 0
  | .link _ => 1
  | .directory entries => linkCounts entries

/-- The number of links in some entries. -/
def linkCounts : List (Text × Entry) → Nat
  | [] => 0
  | (_, e) :: es => linkCount e + linkCounts es

end

/-- The most links that are followed one inside the other: each of them is met at most under two
names, one that starts at the workplace and one that starts at the root. -/
def maxNesting (t : FileTree) : Nat := 2 * linkCount t.root + 1

/-- A path as it starts at the root, without double dots. -/
def grounded (t : FileTree) (p : Path) : Path :=
  match p.anchor with
  | .here => ⟨.root, Path.collapse (t.workplace ++ p.names)⟩
  | a => ⟨a, Path.collapse p.names⟩

/-- A grounded path starts at the root. -/
theorem isAbsolute_grounded (t : FileTree) (p : Path) : (t.grounded p).isAbsolute = true := by
  obtain ⟨anchor, names⟩ := p
  cases anchor <;> rfl

/-- The path that a path starts from when it is resolved. -/
def resolveStart (p : Path) : Path := if p.isAbsolute then .root else ⟨.here, []⟩

/-- The real path of a path. A loop of links is a failure unless the path that it leaves leads
somewhere else. -/
def realPath (t : FileTree) (p : Path) : Except Failure Path :=
  let checked (found : Path) : Except Failure Path :=
    match t.status found with
    | .linkLoop => .error (.linkLoop found.text)
    | _ => .ok found
  match (t.resolve t.maxNesting [] (resolveStart p) p.names).2 with
  | .path found => checked (t.grounded found)
  | .loop words => checked (t.grounded (.ofText words))
  | .nullCharacter => .error .nullCharacter

end ElmReport.FileTree
