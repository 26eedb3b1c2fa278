import ElmReport.Position

/-!
# Reports

The compiler reports its findings as JSON documents of two forms: the problems of several files, or
a single problem of the project.

## Main definitions

* `Fragment`: a piece of a message, plain or with a style.
* `Fragment.render`: the text of a message.
* `Problem`, `FileErrors`, `ProjectError`, `Report`: what a document says.

## Main results

* `Fragment.render_append`: the text of a message is the text of its parts.
-/

namespace ElmReport

/-- How a terminal would show a piece of a message. -/
structure Style where
  bold : Bool
  underline : Bool
  color : Option Text
  deriving DecidableEq, Repr

/-- A piece of a message. -/
inductive Fragment where
  | plain (text : Text)
  | styled (text : Text) (style : Style)
  deriving DecidableEq, Repr

namespace Fragment

/-- The text of a piece, whatever its style. -/
def text : Fragment → Text
  | plain t => t
  | styled t _ => t

/-- The text of a message: the texts of its pieces one after the other. -/
def render (message : List Fragment) : Text := message.flatMap text

@[simp] theorem render_nil : render [] = [] := rfl

@[simp] theorem render_cons (f : Fragment) (message : List Fragment) :
    render (f :: message) = f.text ++ render message := rfl

/-- The text of a message is the text of its parts. -/
theorem render_append (a b : List Fragment) : render (a ++ b) = render a ++ render b := by
  simp [render]

end Fragment

/-- A problem at a place of a file. -/
structure Problem where
  title : Text
  region : Region
  message : List Fragment
  deriving DecidableEq, Repr

/-- The problems of a file, which may have a module name. -/
structure FileErrors where
  path : Text
  name : Option Text
  problems : List Problem
  deriving DecidableEq, Repr

/-- A problem of the whole project, with or without a file and a place. -/
structure ProjectError where
  path : Option Text
  title : Text
  region : Option Region
  message : List Fragment
  deriving DecidableEq, Repr

/-- What a document says. -/
inductive Report where
  | compileErrors (files : List FileErrors)
  | projectError (error : ProjectError)
  deriving DecidableEq, Repr

end ElmReport
