import ElmReport.FileTree.Path
import ElmReport.Text.Utf8

/-!
# File trees

A tree of directories with files and links in it, and the directory that somebody works in. A path
is walked name by name; a link on the way is followed up to a number of links. An empty name and a
single dot stay where they are, which has to be a directory.

## Main definitions

* `Entry`: a file, a link or a directory.
* `Entry.at?`, `Entry.insert`: looking up and putting in by names, without following links.
* `FileTree`: a root directory and the directory that somebody works in.
* `FileTree.walk`: where names lead to.
* `FileTree.status`: what a path leads to.

## Main results

* `Entry.at?_append`: looking up names goes step by step.
* `FileTree.walk_nil`: no name leads nowhere else.
-/

namespace ElmReport

/-- What stands under a name. -/
inductive Entry where
  | file
  | link (target : Text)
  | directory (entries : List (Text × Entry))
  deriving Inhabited

namespace Entry

/-- The entry of a name in a directory. -/
def find? (name : Text) : List (Text × Entry) → Option Entry
  | [] => none
  | e :: es => if e.1 = name then some e.2 else find? name es

/-- The entry that names lead to below an entry, no link being followed. -/
def at? : Entry → List Text → Option Entry
  | e, [] => some e
  | directory entries, name :: names => (find? name entries).bind fun e => e.at? names
  | _, _ :: _ => none
termination_by structural _ names => names

@[simp] theorem at?_nil (e : Entry) : e.at? [] = some e := by
  cases e <;> rfl

/-- Looking up names goes step by step. -/
theorem at?_append (e : Entry) (names more : List Text) :
    e.at? (names ++ more) = (e.at? names).bind fun f => f.at? more := by
  induction names generalizing e with
  | nil => simp
  | cons n ns ih =>
    cases e with
    | file => rfl
    | link => rfl
    | directory entries =>
      simp only [List.cons_append, at?, Option.bind_assoc]
      congr 1
      funext f
      exact ih f

/-- The entries with what stands under a name changed; the name is put at the end when it is new. -/
def update (name : Text) (f : Option Entry → Entry) : List (Text × Entry) → List (Text × Entry)
  | [] => [(name, f none)]
  | e :: es => if e.1 = name then (name, f (some e.2)) :: es else e :: update name f es

/-- Puts an entry under names, making directories on the way. A directory that is there stays when
a directory is put in its place. -/
def insert (new : Entry) : List Text → Option Entry → Entry
  | [], some (directory entries) =>
    match new with
    | directory _ => directory entries
    | _ => new
  | [], _ => new
  | name :: names, some (directory entries) => directory (update name (insert new names) entries)
  | name :: names, _ => directory [(name, insert new names none)]

end Entry

/-- A root directory and the names of the directory that somebody works in. -/
structure FileTree where
  root : Entry
  workplace : List Text

namespace FileTree

/-- What a path leads to: an entry with its place, nothing, a chain of links that is too long, or a
name or a path that is too long. -/
inductive Status where
  | entry (place : List Text) (entry : Entry)
  | missing
  | linkLoop
  | nameTooLong

namespace Status

/-- Whether a path leads to a directory. -/
def isDirectory : Status → Bool
  | entry _ (.directory _) => true
  | _ => false

/-- Whether a path leads to a file. -/
def isFile : Status → Bool
  | entry _ .file => true
  | _ => false

end Status

/-- The most links that are followed on the way. -/
def maxLinks : Nat := 40

/-- The most bytes of a name. -/
def maxNameBytes : Nat := 255

/-- The most bytes of a path. -/
def maxPathBytes : Nat := 4095

/-- The number of bytes of a text; a lone surrogate has none. -/
def byteCount (t : Text) : Nat :=
  ((t.filterMap CodePoint.scalar?).flatMap Utf8.encode).length

/-- Where a link starts whose directory is `place`. -/
def linkStart (place : List Text) (target : Text) : List Text :=
  if target.head? = some slash then [] else place

/-- Where names lead to from a place, with so many links left to follow. -/
def walk (root : Entry) (links : Nat) (place : List Text) : List Text → Status
  | [] =>
    match root.at? place with
    | some e => .entry place e
    | none => .missing
  | name :: names =>
    match root.at? place with
    | some (.directory entries) =>
      if !Path.isName name then walk root links place names
      else if name = Path.doubleDot then walk root links place.dropLast names
      else if maxNameBytes < byteCount name then .nameTooLong
      else
        match Entry.find? name entries with
        | none => .missing
        | some (.link target) =>
          match links with
          | 0 => .linkLoop
          | links + 1 =>
            walk root links (linkStart place target) (Text.fields slash target ++ names)
        | some _ => walk root links (place ++ [name]) names
    | _ => .missing
termination_by names => (links, names.length)

/-- No name leads nowhere else. -/
theorem walk_nil {root e : Entry} {place : List Text} (h : root.at? place = some e) (links : Nat) :
    walk root links place [] = .entry place e := by
  rw [walk, h]

/-- The place that a path starts at. -/
def start (t : FileTree) (p : Path) : List Text := if p.isAbsolute then [] else t.workplace

/-- Whether the system takes a text as a path: it holds no null character and no lone surrogate. -/
def isPathText (t : Text) : Bool :=
  t.all fun p => p != .scalar '\x00' && p.scalar?.isSome

/-- Whether a path has more bytes than the system takes. -/
def isTooLong (p : Path) : Bool := maxPathBytes < byteCount p.text

/-- What a path leads to. -/
def status (t : FileTree) (p : Path) : Status :=
  if !isPathText p.text then .missing
  else if isTooLong p then .nameTooLong
  else walk t.root maxLinks (t.start p) p.names

/-- The target of the link that a path leads to when its last name is not followed. A path that is
too long leads to no link. -/
def linkTarget? (t : FileTree) (p : Path) : Option Text :=
  if isTooLong p then none
  else
    match walk t.root maxLinks (t.start p) p.names.dropLast, p.names.getLast? with
    | .entry _ (.directory entries), some name =>
      match Entry.find? name entries with
      | some (.link target) => some target
      | _ => none
    | _, _ => none

/-- A tree with one more entry. -/
def insert (t : FileTree) (place : List Text) (e : Entry) : FileTree :=
  { t with root := Entry.insert e place (some t.root) }

end FileTree

end ElmReport
