import ElmReport.Text.Basic

/-!
# Paths

A path is a list of names with an anchor. Slashes part the names; empty names and single dots are
dropped when a path is read, and a double dot is a name like any other. A path that opens with
exactly two slashes keeps both of them; of every other number of slashes one is kept.

## Main definitions

* `Path`: an anchor and names.
* `Path.ofText`, `Path.text`: reading and writing a path.
* `Path.IsProper`: a path whose names are names.
* `Path.joinText`: a path in words put below another one.
* `Path.collapse`: names without dots, each double dot taking away the name before it.
* `Path.before`: the order of paths by their names.

## Main results

* `Path.isProper_ofText`: reading gives a proper path.
* `Path.not_before_nil`: no path comes before the empty one.
-/

namespace ElmReport

/-- The order of texts by their code points. -/
def Text.before (s t : Text) : Bool := s.lex t CodePoint.precedes

/-- The code point that parts the names of a path. -/
def slash : CodePoint := .scalar '/'

/-- Where a path starts: at some directory, at the root, or at the root written with two slashes. -/
inductive Anchor where
  | here
  | root
  | doubleRoot
  deriving DecidableEq, Repr

namespace Anchor

/-- The slashes of an anchor. -/
def text : Anchor → Text
  | here => []
  | root => "/"
  | doubleRoot => "//"

/-- The anchor of a text that opens with so many slashes. -/
def ofSlashes : Nat → Anchor
  | 0 => here
  | 2 => doubleRoot
  | _ => root

end Anchor

/-- A path: an anchor and names. -/
structure Path where
  anchor : Anchor
  names : List Text
  deriving DecidableEq, Repr

namespace Path

/-- The name that stays where it is. -/
def dot : Text := "."

/-- The name that goes up. -/
def doubleDot : Text := ".."

/-- Whether a piece between slashes is kept as a name. -/
def isName (t : Text) : Bool := t != [] && t != dot

/-- The path that a text stands for. -/
def ofText (t : Text) : Path where
  anchor := .ofSlashes (t.takeWhile (· == slash)).length
  names := (Text.fields slash t).filter isName

/-- A path in words; the empty path is a dot. -/
def text (p : Path) : Text :=
  match p.anchor, p.names with
  | .here, [] => dot
  | a, names => a.text ++ Text.join [slash] names

/-- Whether a path starts at the root. -/
def isAbsolute (p : Path) : Bool := p.anchor != .here

/-- A path that starts at the root has a slash in front. -/
theorem head?_text {p : Path} (h : p.isAbsolute = true) : p.text.head? = some slash := by
  obtain ⟨_ | _ | _, names⟩ := p
  · cases h
  · rfl
  · rfl

/-- A path whose names are neither empty nor single dots and hold no slash. -/
def IsProper (p : Path) : Prop := ∀ n ∈ p.names, isName n = true ∧ slash ∉ n

theorem slash_not_mem_of_mem_fields {t n : Text} (h : n ∈ Text.fields slash t) : slash ∉ n := by
  induction t generalizing n with
  | nil =>
    obtain rfl : n = [] := by simpa [Text.fields] using h
    exact List.not_mem_nil
  | cons c t ih =>
    rw [Text.fields] at h
    split at h
    · rcases List.mem_cons.1 h with rfl | h
      · exact List.not_mem_nil
      · exact ih h
    · next hc =>
      split at h
      · next hf => exact absurd hf (Text.fields_ne_nil slash t)
      · next f fs hf =>
        rcases List.mem_cons.1 h with rfl | h
        · have hn : slash ∉ f := ih (by simp [hf])
          simpa [List.mem_cons] using ⟨fun e => hc e.symm, hn⟩
        · exact ih (by simp [hf, h])

/-- Reading gives a proper path. -/
theorem isProper_ofText (t : Text) : (ofText t).IsProper := by
  intro n hn
  obtain ⟨hf, hk⟩ := List.mem_filter.1 hn
  exact ⟨hk, slash_not_mem_of_mem_fields hf⟩

/-- The root. -/
def root : Path := ⟨.root, []⟩

/-- The path of a name below a path. -/
def child (p : Path) (name : Text) : Path := { p with names := p.names ++ [name] }

@[simp] theorem names_child (p : Path) (name : Text) :
    (p.child name).names = p.names ++ [name] := rfl

/-- The path above a path. Nothing is above the root; above a path that only goes up is one more
step up. -/
def parent (p : Path) : Path :=
  match p.names.getLast? with
  | none => if p.isAbsolute then p else p.child doubleDot
  | some last =>
    if last = doubleDot then p.child doubleDot else { p with names := p.names.dropLast }

/-- A text put below another one with a slash between them; a text that opens with a slash stands
for itself. -/
def joinText (base t : Text) : Text :=
  if t.head? = some slash then t
  else if base.isEmpty || base.getLast? == some slash then base ++ t
  else base ++ slash :: t

/-! ### Taking double dots away -/

/-- Takes one more name: a double dot takes the last name away. -/
def collapseStep (names : List Text) (name : Text) : List Text :=
  if name = doubleDot then names.dropLast else names ++ [name]

/-- The names without double dots, each having taken away the name before it. -/
def collapse (names : List Text) : List Text := names.foldl collapseStep []

@[simp] theorem collapse_nil : collapse [] = [] := rfl

/-! ### Order -/

/-- The order of paths with the same anchor: by their names, one after the other. -/
def before (p q : Path) : Bool := p.names.lex q.names Text.before

/-- No path comes before the empty one. -/
theorem not_before_nil (p : Path) (a : Anchor) : p.before ⟨a, []⟩ = false := by
  simp [before]

/-- Paths in ascending order. -/
def sort (ps : List Path) : List Path := ps.mergeSort fun p q => !q.before p

end Path

end ElmReport
