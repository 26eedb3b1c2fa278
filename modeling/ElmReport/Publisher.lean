import ElmReport.Check

/-!
# Publishing diagnostics

When a document is saved its diagnostics are handed to a publisher, file by file. A publisher may
refuse a file, and may do so for any reason, in words of its own; the first file that it refuses is
the failure of the save, and those before it stay published. The publisher of an editor has room for
only so many files, and refuses every file when it is full.

## Main definitions

* `Outlet`: what handing over a file does to a publisher.
* `Outlet.publishAll`: publishing files one after the other.
* `Publisher`, `Publisher.outlet`: a publisher with room for only so many files.
* `Invoker.saveTo`, `Invoker.save`: the save of a document.

## Main results

* `Outlet.accepted_publishAll`: publishing accepts an initial part of the files.
* `Publisher.published_publishAll`: what is accepted stands at the end of what is published.
* `Invoker.save_none`: without a publisher nothing is checked.
-/

namespace ElmReport

/-! ### Publishers -/

/-- What handing over the diagnostics of a file does to a publisher in some state: it accepts them
or refuses them by a failure, and is in another state then. -/
structure Outlet (σ : Type) where
  offer : σ → FileDiagnostics → Except Failure Unit × σ

/-- What publishing some files comes to: those that were accepted, the failure by which the next one
was refused if one was, and the publisher after it. -/
structure Publication (σ : Type) where
  accepted : List FileDiagnostics
  outcome : Except Failure Unit
  state : σ

namespace Outlet

variable {σ : Type}

/-- Publishes files one after the other up to the first that is refused. -/
def publishAll (o : Outlet σ) (s : σ) : List FileDiagnostics → Publication σ
  | [] => ⟨[], .ok (), s⟩
  | f :: fs =>
    match o.offer s f with
    | (.error e, s') => ⟨[], .error e, s'⟩
    | (.ok (), s') =>
      let others := o.publishAll s' fs
      { others with accepted := f :: others.accepted }

/-- Nothing is published after a file that is refused. -/
theorem publishAll_of_error {o : Outlet σ} {s s' : σ} {f : FileDiagnostics} {e : Failure}
    (h : o.offer s f = (.error e, s')) (fs : List FileDiagnostics) :
    o.publishAll s (f :: fs) = ⟨[], .error e, s'⟩ := by
  rw [publishAll, h]

/-- After a file that is accepted come the others. -/
theorem publishAll_of_ok {o : Outlet σ} {s s' : σ} {f : FileDiagnostics}
    (h : o.offer s f = (.ok (), s')) (fs : List FileDiagnostics) :
    o.publishAll s (f :: fs) =
      { o.publishAll s' fs with accepted := f :: (o.publishAll s' fs).accepted } := by
  rw [publishAll, h]

/-- Publishing accepts an initial part of the files. -/
theorem accepted_publishAll (o : Outlet σ) (s : σ) (fs : List FileDiagnostics) :
    (o.publishAll s fs).accepted <+: fs := by
  induction fs generalizing s with
  | nil => exact List.prefix_rfl
  | cons f fs ih =>
    rcases h : o.offer s f with ⟨e | ⟨⟩, s'⟩
    · rw [publishAll_of_error h]
      exact List.nil_prefix
    · rw [publishAll_of_ok h]
      exact (List.prefix_cons_inj f).2 (ih s')

end Outlet

/-! ### Room for only so many files -/

/-- What is published so far, and how many files may be. -/
structure Publisher where
  capacity : Option Nat
  published : List FileDiagnostics := []

namespace Publisher

/-- Whether there is no room for one more file. -/
def isFull (p : Publisher) : Bool := p.capacity.any fun n => n ≤ p.published.length

/-- A publisher accepts files until it is full. -/
def outlet : Outlet Publisher where
  offer p f :=
    if p.isFull then (.error .publisherFull, p)
    else (.ok (), { p with published := p.published ++ [f] })

/-- What is accepted stands at the end of what is published. -/
theorem published_publishAll (p : Publisher) (fs : List FileDiagnostics) :
    (outlet.publishAll p fs).state.published =
      p.published ++ (outlet.publishAll p fs).accepted := by
  induction fs generalizing p with
  | nil => exact (List.append_nil _).symm
  | cons f fs ih =>
    by_cases h : p.isFull = true
    · have hoffer : outlet.offer p f = (.error .publisherFull, p) := if_pos h
      rw [Outlet.publishAll_of_error hoffer]
      exact (List.append_nil _).symm
    · have hoffer : outlet.offer p f = (.ok (), { p with published := p.published ++ [f] }) :=
        if_neg h
      rw [Outlet.publishAll_of_ok hoffer]
      exact (ih _).trans (List.append_assoc ..)

end Publisher

/-! ### Saves -/

/-- A save: its check, what was published of it, and the publisher after it. -/
structure Saved (σ : Type) where
  check : CheckRun (List FileDiagnostics)
  published : List FileDiagnostics
  publisher : σ

/-- The publisher after a save, and the check of the save. -/
structure SaveRun where
  publisher : Option Publisher
  check : CheckRun (List FileDiagnostics)

namespace Invoker

/-- The save of a document below a root: its diagnostics are published when its check succeeds. -/
def saveTo {σ : Type} (invoker : Invoker) (root uri : Text) (o : Outlet σ) (s : σ) : Saved σ :=
  let check := invoker.diagnose root uri
  match check.result with
  | .error _ => ⟨check, [], s⟩
  | .ok files =>
    let p := o.publishAll s files
    ⟨{ check with result := p.outcome.map fun _ => files }, p.accepted, p.state⟩

section

variable {σ : Type} {invoker : Invoker} {root uri : Text}

/-- A check that fails publishes nothing. -/
theorem saveTo_of_error {e : Failure} (h : (invoker.diagnose root uri).result = .error e)
    (o : Outlet σ) (s : σ) : invoker.saveTo root uri o s = ⟨invoker.diagnose root uri, [], s⟩ := by
  rw [saveTo, h]

/-- The files that a check finds are published. -/
theorem saveTo_of_ok {files : List FileDiagnostics}
    (h : (invoker.diagnose root uri).result = .ok files) (o : Outlet σ) (s : σ) :
    invoker.saveTo root uri o s =
      ⟨{ invoker.diagnose root uri with
          result := (o.publishAll s files).outcome.map fun _ => files },
        (o.publishAll s files).accepted, (o.publishAll s files).state⟩ := by
  rw [saveTo, h]

end

/-- The save of a document below a root, with a publisher or without one. -/
def save (invoker : Invoker) (root uri : Text) : Option Publisher → SaveRun
  | none => ⟨none, { result := .error .noPublisher }⟩
  | some p =>
    let saved := invoker.saveTo root uri Publisher.outlet p
    ⟨some saved.publisher, saved.check⟩

/-- Without a publisher nothing is checked. -/
theorem save_none (invoker : Invoker) (root uri : Text) :
    (invoker.save root uri none).check.asked = none := rfl

end Invoker

end ElmReport
