import ElmReport.Main
import ElmReport.Proofs.Batch.Printed
import ElmReport.Proofs.FileUri.Trip
import ElmReport.Proofs.Stream.Check

/-!
# Batch runs print everything or nothing

A batch run checks its files one after the other. What it prints has an entry for every file, in the
order of the files, and the entry of a file is what the check of this file finds by itself. The
first check that fails ends the run: nothing is printed, and the compiler is not called for the
files after it. The compiler may do something else every time that it is called, also when a file
is checked twice; so each file has its turn, with what the compiler does then.

## Main definitions

* `Turn`: a file, and what the compiler does in its turn.
* `Turn.check`, `Turn.result`, `Turn.calls`: the check of a file by itself.
* `FileChecks.ofTurns`: the checks of files one after the other.
* `Run.ofChecks`: the run that writes the results of checks.

## Main results

* `FileChecks.ofFiles_eq_ofTurns`: the checks of files are turns, with one compiler in all of them.
* `FileChecks.results_ofTurns`: the results are those of the turns by themselves.
* `FileChecks.calls_ofTurns_append`: the calls are those of the turns that succeed, one after the
  other.
* `Turn.result_of_toolUnavailable`: without a compiler there is an entry without diagnostics.
* `Run.printed_or_first_failure`: what is printed, and what is called.
-/

namespace ElmReport.Batch

/-- A file, and what the compiler does when it is called in the turn of the file. -/
structure Turn where
  path : Path
  named : Invoker

namespace Turn

variable (c : Compiler) (root : Text) (t : Turn)

/-- The check of the file by itself. -/
def check : CheckRun (List FileDiagnostics) :=
  FileChecks.diagnose { c with named := t.named }.invoker root t.path

/-- The file with the diagnostics that its check finds. -/
def result : Except Failure FileResult :=
  (t.check c root).result.map fun files => ⟨t.path, files⟩

/-- The calls of the compiler in the check of the file. -/
def calls : List Call := FileChecks.callsOf c root (t.check c root)

variable {c root t}

theorem result_eq_ok_iff {r : FileResult} :
    t.result c root = .ok r ↔ r.path = t.path ∧ (t.check c root).result = .ok r.files := by
  rw [result, Outcome.map_eq_ok_iff]
  constructor
  · rintro ⟨files, hfiles, rfl⟩
    exact ⟨rfl, hfiles⟩
  · rintro ⟨hpath, hfiles⟩
    exact ⟨r.files, hfiles, by rw [← hpath]⟩

theorem result_eq_error_iff {e : Failure} :
    t.result c root = .error e ↔ (t.check c root).result = .error e :=
  Outcome.map_eq_error_iff

/-- The results of turns report the files of the turns, in this order. -/
theorem map_path_of_forall₂ {ts : List Turn} {results : List FileResult}
    (h : List.Forall₂ (fun t r => t.result c root = .ok r) ts results) :
    results.map FileResult.path = ts.map Turn.path := by
  induction h with
  | nil => rfl
  | cons hr _ ih => rw [List.map_cons, List.map_cons, ih, (result_eq_ok_iff.1 hr).1]

/-- Without a compiler the check of a file finds nothing, but it does not fail. -/
theorem result_of_toolUnavailable {uri file executable : Text}
    (huri : FilePath.toUri t.path.text = .ok uri) (hfile : FilePath.ofUri uri = .ok file)
    (hlines : (t.named file root).lines = [])
    (hfailure : (t.named file root).failure = some (.toolUnavailable executable)) :
    t.result c root = .ok ⟨t.path, []⟩ := by
  have hdiagnose {invoker : Invoker} (hlines : (invoker file root).lines = [])
      (hfailure : (invoker file root).failure = some (.toolUnavailable executable)) :
      (invoker.diagnose root uri).result = .ok [] :=
    Invoker.diagnose_of_failure hfile (by simp [hlines]) hfailure
  refine result_eq_ok_iff.2 ⟨rfl, ?_⟩
  simp only [check, FileChecks.diagnose, huri]
  refine hdiagnose ?_ ?_
  · cases c.isUnnamed <;> simp [Compiler.invoker, hlines]
  · cases c.isUnnamed <;> simp [Compiler.invoker, hfailure, LineStream.unnamed, Failure.unnamed]

end Turn

namespace FileChecks

variable {c : Compiler} {root : Text}

/-- The checks of files one after the other up to the first that fails. -/
def ofTurns (c : Compiler) (root : Text) : List Turn → FileChecks
  | [] => ⟨.ok [], [], []⟩
  | t :: ts =>
    let check := t.check c root
    match check.result with
    | .error e => ⟨.error e, t.calls c root, check.notes⟩
    | .ok files =>
      let others := ofTurns c root ts
      { results := others.results.map (⟨t.path, files⟩ :: ·)
        calls := t.calls c root ++ others.calls
        notes := check.notes ++ .summary (summaryLine t.path files) :: others.notes }

/-- The checks of files are turns, with one compiler in all of them. -/
theorem ofFiles_eq_ofTurns (c : Compiler) (root : Text) (ps : List Path) :
    ofFiles c root ps = ofTurns c root (ps.map fun p => ⟨p, c.named⟩) := by
  induction ps with
  | nil => rfl
  | cons p ps ih =>
    simp only [ofFiles, List.map_cons, ofTurns, ih]
    rfl

/-- The results are those of the turns by themselves. -/
theorem results_ofTurns (c : Compiler) (root : Text) (ts : List Turn) :
    (ofTurns c root ts).results = ts.mapM (Turn.result c root) := by
  induction ts with
  | nil => rfl
  | cons t ts ih =>
    rw [List.mapM_cons, ofTurns, Turn.result]
    rcases (t.check c root).result with e | files
    · rfl
    · simp only [ih]
      rcases ts.mapM (Turn.result c root) with e | results <;> rfl

theorem results_ofTurns_of_forall₂ {ts : List Turn} {results : List FileResult}
    (h : List.Forall₂ (fun t r => t.result c root = .ok r) ts results) :
    (ofTurns c root ts).results = .ok results := by
  rw [results_ofTurns, Outcome.mapM_eq_ok_iff]
  exact h

/-- After a turn that succeeds come the other turns. -/
theorem calls_ofTurns_cons_of_ok {t : Turn} {r : FileResult} (h : t.result c root = .ok r)
    (ts : List Turn) :
    (ofTurns c root (t :: ts)).calls = t.calls c root ++ (ofTurns c root ts).calls := by
  obtain ⟨-, hfiles⟩ := Turn.result_eq_ok_iff.1 h
  simp only [ofTurns, hfiles]

/-- After a turn that fails comes none. -/
theorem calls_ofTurns_cons_of_error {t : Turn} {e : Failure} (h : t.result c root = .error e)
    (ts : List Turn) : (ofTurns c root (t :: ts)).calls = t.calls c root := by
  simp only [ofTurns, Turn.result_eq_error_iff.1 h]

/-- Turns that succeed leave the calls of the turns after them as they are. -/
theorem calls_ofTurns_append {before : List Turn}
    (h : ∀ t ∈ before, ∃ r, t.result c root = .ok r) (after : List Turn) :
    (ofTurns c root (before ++ after)).calls =
      before.flatMap (Turn.calls c root) ++ (ofTurns c root after).calls := by
  induction before with
  | nil => rfl
  | cons t before ih =>
    obtain ⟨⟨r, ht⟩, hbefore⟩ := List.forall_mem_cons.1 h
    rw [List.cons_append, calls_ofTurns_cons_of_ok ht, ih hbefore, List.flatMap_cons,
      List.append_assoc]

/-- When every turn succeeds, the compiler is called in every turn. -/
theorem calls_ofTurns_of_forall₂ {ts : List Turn} {results : List FileResult}
    (h : List.Forall₂ (fun t r => t.result c root = .ok r) ts results) :
    (ofTurns c root ts).calls = ts.flatMap (Turn.calls c root) := by
  have hall : ∀ t ∈ ts, ∃ r, t.result c root = .ok r :=
    Outcome.exists_mapM_eq_ok_iff.1 ⟨results, Outcome.mapM_eq_ok_iff.2 h⟩
  have hcalls := calls_ofTurns_append hall []
  rwa [List.append_nil, ofTurns, List.append_nil] at hcalls

end FileChecks

/-! ### Runs -/

namespace Run

/-- The run that writes the results of checks. -/
def ofChecks (a : Arguments) (checks : FileChecks) : Run where
  outcome :=
    match checks.results.bind (resultText (a.indent.orStandard Surroundings.standardIndent)) with
    | .error e => .failed e
    | .ok text => .written text
  calls := checks.calls
  notes := Note.atLeast (if a.verbose then .debug else .info) checks.notes

/-- A run that has a root and files writes the results of the turns of its files. -/
theorem check_eq_ofChecks {s : Surroundings} {a : Arguments} {root : Path} {ps : List Path}
    (h : s.targets a = .ok (root, ps)) :
    s.check a = ofChecks a (.ofTurns (s.compiler a) root.text
      (ps.map fun p => ⟨p, (s.compiler a).named⟩)) := by
  simp only [Surroundings.check, h, FileChecks.ofFiles_eq_ofTurns]
  rfl

theorem outcome_ofChecks_of_error {checks : FileChecks} {e : Failure}
    (h : checks.results = .error e) (a : Arguments) :
    (ofChecks a checks).outcome = .failed e := by
  simp only [ofChecks, h, Except.bind]

theorem outcome_ofChecks_of_ok {checks : FileChecks} {results : List FileResult}
    (h : checks.results = .ok results) {a : Arguments} {width : Int}
    (hwidth : a.indent.orStandard Surroundings.standardIndent = some width)
    (hlow : -widthBound ≤ width) (hhigh : width < widthBound)
    (hshort : ∀ r ∈ results, ∀ f ∈ r.files, f.IsShort Arguments.digitLimit) :
    (ofChecks a checks).outcome = .written (printed width results) := by
  simp only [ofChecks, h, hwidth, Except.bind, resultText_eq_ok hlow hhigh hshort]

theorem exists_outcome_ofChecks {checks : FileChecks} {results : List FileResult}
    (h : checks.results = .ok results) {a : Arguments}
    (hrefused : ∀ width, a.indent.orStandard Surroundings.standardIndent = some width →
      -widthBound ≤ width → width < widthBound →
      ¬ ∀ r ∈ results, ∀ f ∈ r.files, f.IsShort Arguments.digitLimit) :
    ∃ e, (ofChecks a checks).outcome = .failed e := by
  obtain ⟨e, he⟩ := exists_resultText_eq_error hrefused
  exact ⟨e, by simp only [ofChecks, h, Except.bind, he]⟩

theorem output_of_failed {run : Run} {e : Failure} (h : run.outcome = .failed e) :
    run.output.1 = [] := by
  simp only [output, h]

/-- **A run prints everything or nothing.** Either every check succeeds or there is a first that
fails. When all succeed, the compiler was called in every turn, and an array is printed that has an
entry for every file, in the order of the files, with what its check finds by itself; it is read
back from what is printed. For this the coordinates must be short and the indentation one that the
writer takes, and otherwise nothing is printed. When a check is the first to fail, its failure is
that of the run, nothing is printed, and the compiler was called in no turn after it. A check
without a compiler finds nothing and does not fail. -/
theorem printed_or_first_failure (c : Compiler) (a : Arguments) (root : Text) (ts : List Turn) :
    let run := ofChecks a (.ofTurns c root ts)
    ((∃ results, List.Forall₂ (fun t r => t.result c root = .ok r) ts results) ∨
      ∃ before t after e, ts = before ++ t :: after ∧
        (∀ u ∈ before, ∃ r, u.result c root = .ok r) ∧ t.result c root = .error e) ∧
    (∀ results, List.Forall₂ (fun t r => t.result c root = .ok r) ts results →
      run.calls = ts.flatMap (Turn.calls c root) ∧
      results.map FileResult.path = ts.map Turn.path ∧
      (∀ width, a.indent.orStandard Surroundings.standardIndent = some width →
        -widthBound ≤ width → width < widthBound →
        (∀ r ∈ results, ∀ f ∈ r.files, f.IsShort Arguments.digitLimit) →
        run.output.1 = (Json.list (results.map FileResult.toJson)).indented width.toNat 0 ++
          ("\n" : Text) ∧
        ∀ limits : Json.Limits, limits.digits = Arguments.digitLimit → 8 ≤ limits.depth →
          (∀ r ∈ results, r.path.text.IsUnpaired ∧ ∀ f ∈ r.files, f.HasUnpairedTexts) →
          Json.read limits run.output.1 = .ok (.list (results.map FileResult.toJson))) ∧
      ((∀ width, a.indent.orStandard Surroundings.standardIndent = some width →
        -widthBound ≤ width → width < widthBound →
        ¬ ∀ r ∈ results, ∀ f ∈ r.files, f.IsShort Arguments.digitLimit) →
        (∃ e, run.outcome = .failed e) ∧ run.output.1 = [])) ∧
    (∀ before t after e, ts = before ++ t :: after →
      (∀ u ∈ before, ∃ r, u.result c root = .ok r) → t.result c root = .error e →
      run.outcome = .failed e ∧ run.output.1 = [] ∧
        run.calls = (before ++ [t]).flatMap (Turn.calls c root)) ∧
    (∀ t ∈ ts, ∀ uri file executable, FilePath.toUri t.path.text = .ok uri →
      FilePath.ofUri uri = .ok file → (t.named file root).lines = [] →
      (t.named file root).failure = some (.toolUnavailable executable) →
      t.result c root = .ok ⟨t.path, []⟩) ∧
    ∀ (s : Surroundings) (path : Path) (ps : List Path), s.targets a = .ok (path, ps) →
      s.compiler a = c → path.text = root → ts = ps.map (fun p => ⟨p, c.named⟩) →
      s.check a = run := by
  intro run
  refine ⟨Outcome.exists_forall₂_or_first_error _ ts,
    fun results hresults => ⟨FileChecks.calls_ofTurns_of_forall₂ hresults, ?_, ?_, ?_⟩, ?_,
    fun t _ uri file executable => Turn.result_of_toolUnavailable, ?_⟩
  · exact Turn.map_path_of_forall₂ hresults
  · intro width hwidth hlow hhigh hshort
    have hok := FileChecks.results_ofTurns_of_forall₂ hresults
    have hprinted : run.output.1 = printed width results := by
      simp only [output, run, outcome_ofChecks_of_ok hok hwidth hlow hhigh hshort]
    refine ⟨hprinted, fun limits hdigits hdepth htexts => ?_⟩
    rw [hprinted]
    rw [← hdigits] at hshort
    exact read_printed (by rw [hdigits]; decide) hdepth hshort htexts width
  · intro hrefused
    obtain ⟨e, hfailed⟩ :=
      exists_outcome_ofChecks (FileChecks.results_ofTurns_of_forall₂ hresults) hrefused
    exact ⟨⟨e, hfailed⟩, output_of_failed hfailed⟩
  · rintro before t after e rfl hbefore ht
    have herror : (FileChecks.ofTurns c root (before ++ t :: after)).results = .error e := by
      rw [FileChecks.results_ofTurns]
      exact Outcome.mapM_append_eq_error hbefore ht after
    have hfailed : run.outcome = .failed e := outcome_ofChecks_of_error herror a
    refine ⟨hfailed, output_of_failed hfailed, ?_⟩
    rw [List.flatMap_append, List.flatMap_singleton,
      ← FileChecks.calls_ofTurns_cons_of_error ht after]
    exact FileChecks.calls_ofTurns_append hbefore (t :: after)
  · rintro s path ps htargets rfl rfl rfl
    exact check_eq_ofChecks htargets

/-- A file with a problem and a file without a compiler are printed; when the first of them is
checked again with a line that is none, nothing is printed, and the compiler is not called for the
other. -/
theorem printed_or_first_failure_three :
    let c : Compiler := ⟨{}, false, fun _ _ => { lines := [] }⟩
    let line : Text := ("\x7b\"type\":\"error\",\"path\":null," : Text) ++
      ("\"title\":\"T\",\"message\":[]\x7d" : Text)
    let found : Turn := ⟨⟨.root, ["w", "A.elm"]⟩, fun _ _ => { lines := [line] }⟩
    let absent : Turn := ⟨⟨.root, ["w", "B.elm"]⟩,
      Host.stream { launch := .refused ⟨SystemError.noSuchFile, [], none⟩, process := 0 } {}⟩
    let failing : Turn := ⟨⟨.root, ["w", "A.elm"]⟩, fun _ _ => { lines := ["?"] }⟩
    let a : Arguments := { paths := [] }
    let run := ofChecks a (.ofTurns c "/w" [found, absent])
    let run' := ofChecks a (.ofTurns c "/w" [found, failing, absent])
    (∃ group, run.calls.map (fun call => call.arguments[1]?) =
        [some ("/w/A.elm" : Text), some ("/w/B.elm" : Text)] ∧
      Json.read ⟨Arguments.digitLimit, 8⟩ run.output.1 =
        .ok (.list [.object [("file", .string "/w/A.elm"), ("groups", .list [group])],
          .object [("file", .string "/w/B.elm"), ("groups", .list [])]])) ∧
    ∃ e, run'.outcome = .failed e ∧ run'.output.1 = [] ∧
      run'.calls.map (fun call => call.arguments[1]?) =
        [some ("/w/A.elm" : Text), some ("/w/A.elm" : Text)] := by
  intro c line found absent failing a run run'
  let f : FileDiagnostics := ⟨"file:///w/A.elm", [⟨⟨⟨0, 0⟩, ⟨0, 0⟩⟩, "T - ", .error, "Elm"⟩]⟩
  have hfound : found.result c "/w" = .ok ⟨found.path, [f]⟩ := rfl
  have hzero : Int.natAbs 0 < 10 ^ Arguments.digitLimit := Nat.pow_pos (by decide)
  have hshort : f.IsShort Arguments.digitLimit :=
    List.forall_mem_singleton.2 ⟨⟨hzero, hzero⟩, hzero, hzero⟩
  have htexts : f.HasUnpairedTexts :=
    ⟨by decide, List.forall_mem_singleton.2 ⟨by decide, by decide⟩⟩
  obtain ⟨-, hprinted, -, hmissing, -⟩ := printed_or_first_failure c a "/w" [found, absent]
  have habsent : absent.result c "/w" = .ok ⟨absent.path, []⟩ :=
    hmissing absent (by simp) _ _ _ rfl rfl rfl rfl
  obtain ⟨hcalls, -, hwidths, -⟩ := hprinted _ (.cons hfound (.cons habsent .nil))
  obtain ⟨-, hread⟩ := hwidths 2 rfl (by decide) (by decide)
    (List.forall_mem_cons.2 ⟨List.forall_mem_singleton.2 hshort, by simp⟩)
  obtain ⟨-, -, hfirst, -⟩ := printed_or_first_failure c a "/w" [found, failing, absent]
  obtain ⟨hfailed, hnothing, hcalls'⟩ := hfirst [found] failing [absent] _ rfl
    (List.forall_mem_singleton.2 ⟨_, hfound⟩) rfl
  refine ⟨⟨f.toJson, ?_, ?_⟩, _, hfailed, hnothing, ?_⟩
  · rw [hcalls]
    rfl
  · exact hread _ rfl (Nat.le_refl 8) (List.forall_mem_cons.2
      ⟨⟨by decide, List.forall_mem_singleton.2 htexts⟩,
        List.forall_mem_singleton.2 ⟨by decide, nofun⟩⟩)
  · rw [hcalls']
    rfl

end Run

end ElmReport.Batch
