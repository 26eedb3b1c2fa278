import ElmReport.Batch.Run
import ElmReport.Proofs.Diagnostic.Writable

/-!
# What a summary counts

The diagnostics of some issues are counted after they have been parted by their files, and the
severity of a diagnostic is all that is left of the word that its issue came with. The counts are
still those of the issues: neither parting them nor forgetting the word adds or loses one. Whether a
file has errors is asked in another way than errors are counted, with the same outcome. Issues that
come from the lines of a report are never warnings.

## Main definitions

* `Issue.IsWarning`: the issues that are shown as warnings.

## Main results

* `countSeverity_map_diagnostic`: the diagnostics of a severity, by the words of their issues.
* `FileDiagnostics.hasErrors_iff_of_shows`: which files have errors.
* `issuesOfLines_not_isWarning`: the lines of a report hold no warnings.
* `Batch.summaryLine_counts`: what a summary says of some issues.
-/

namespace ElmReport

/-- An issue that comes with the word for a warning. -/
def Issue.IsWarning (i : Issue) : Prop := i.severity = ("warning" : Text)

instance : DecidablePred Issue.IsWarning := fun i =>
  inferInstanceAs (Decidable (i.severity = ("warning" : Text)))

/-! ### Severities -/

/-- An issue is shown as an error unless it comes with the word for a warning. -/
theorem Issue.severity_diagnostic (i : Issue) :
    i.diagnostic.severity = if i.IsWarning then .warning else .error := rfl

/-- The diagnostics of a severity are as many as the issues with a word for it. -/
theorem countSeverity_map_diagnostic (issues : List Issue) :
    countSeverity .warning (issues.map Issue.diagnostic) =
        issues.countP (fun i => i.IsWarning) ∧
      countSeverity .error (issues.map Issue.diagnostic) =
        issues.countP (fun i => ¬ i.IsWarning) := by
  simp only [countSeverity, List.countP_map]
  constructor
  · refine List.countP_congr fun i _ => ?_
    by_cases h : i.IsWarning <;> simp [Issue.severity_diagnostic, h]
  · refine List.countP_congr fun i _ => ?_
    by_cases h : i.IsWarning <;> simp [Issue.severity_diagnostic, h]

namespace FileDiagnostics

/-- A file that shows the issues of a path has errors exactly when one of them is no warning. -/
theorem hasErrors_iff_of_shows {root path : Text} {issues : List Issue} {f : FileDiagnostics}
    (h : f.diagnostics =
      (Issues.within path (issues.map (Issue.resolve root))).map Issue.diagnostic) :
    f.hasErrors = true ↔ ∃ i ∈ issues, resolvePath root i.file = path ∧ ¬ i.IsWarning := by
  rw [hasErrors, h, ElmReport.hasErrors_iff, (countSeverity_map_diagnostic _).2,
    List.countP_pos_iff]
  simp only [Issues.within, List.mem_filter, List.mem_map, decide_eq_true_eq]
  constructor
  · rintro ⟨_, ⟨⟨i, hi, rfl⟩, hpath⟩, hnot⟩
    exact ⟨i, hi, hpath, hnot⟩
  · rintro ⟨i, hi, hpath, hnot⟩
    exact ⟨i.resolve root, ⟨⟨i, hi, rfl⟩, hpath⟩, hnot⟩

/-- The diagnostics of all files are as many of each severity as there are issues with a word for
it. -/
theorem countSeverity_flatMap_diagnostics {root : Text} {issues : List Issue}
    {fs : List FileDiagnostics} (h : ofIssues root issues = .ok fs) :
    countSeverity .warning (fs.flatMap diagnostics) = issues.countP (fun i => i.IsWarning) ∧
      countSeverity .error (fs.flatMap diagnostics) = issues.countP (fun i => ¬ i.IsWarning) := by
  have hcount (s : Severity) : countSeverity s (fs.flatMap diagnostics) =
      countSeverity s ((issues.map (Issue.resolve root)).map Issue.diagnostic) :=
    (flatMap_diagnostics_perm h).countP_eq _
  obtain ⟨hwarnings, herrors⟩ := countSeverity_map_diagnostic (issues.map (Issue.resolve root))
  rw [hcount, hcount, hwarnings, herrors, List.countP_map, List.countP_map]
  exact ⟨rfl, rfl⟩

end FileDiagnostics

/-! ### Issues of lines -/

/-- No document holds warnings. -/
theorem Document.not_isWarning_of_mem_issues {fallback : Option Text} {d : Document} {i : Issue}
    (hi : i ∈ d.issues fallback) : ¬ i.IsWarning := by
  have hword : ¬ ("error" : Text) = ("warning" : Text) := by decide
  rcases d with (entries | e) | _ | _
  · obtain ⟨f, -, hf⟩ := List.mem_flatMap.1 hi
    obtain ⟨p, -, rfl⟩ := List.mem_map.1 hf
    exact hword
  · obtain rfl := List.mem_singleton.1 hi
    exact hword
  · cases hi
  · cases hi

/-- The lines of a report hold no warnings. -/
theorem issuesOfLines_not_isWarning {fallback : Option Text} {lines : List Text}
    {issues : List Issue} (h : issuesOfLines fallback lines = .ok issues) :
    ∀ i ∈ issues, ¬ i.IsWarning := by
  obtain ⟨hlines, rfl⟩ := issuesOfLines_eq_ok_iff.1 h
  intro i hi
  rcases (IssueFeed.mem_issues_takeAll_iff _ hlines).1 hi with hi | ⟨-, -, d, -, hi⟩
  · cases hi
  · exact d.not_isWarning_of_mem_issues hi

/-! ### Summaries -/

namespace Batch

/-- **What a summary counts.** When issues have diagnostics, these are as many warnings as there are
issues with the word for one, and as many errors as there are others. There is one file for every
path that an issue is resolved to, and it has errors exactly when an issue of this path is no
warning. A summary gives the number of these paths and both counts. Issues that come from the lines
of a report give no warnings, and every file has errors then. -/
theorem summaryLine_counts {root : Text} {issues : List Issue} {fs : List FileDiagnostics}
    (h : FileDiagnostics.ofIssues root issues = .ok fs) (checked : Path) :
    let shown := fs.flatMap FileDiagnostics.diagnostics
    let warnings := issues.countP fun i => i.IsWarning
    let errors := issues.countP fun i => ¬ i.IsWarning
    countSeverity .warning shown = warnings ∧ countSeverity .error shown = errors ∧
      errors + warnings = issues.length ∧
      (∃ paths : List Text, paths.Nodup ∧
        (∀ path, path ∈ paths ↔ ∃ i ∈ issues, resolvePath root i.file = path) ∧
        List.Forall₂ (fun path f => FilePath.toUri path = .ok f.uri ∧ (f.hasErrors = true ↔
          ∃ i ∈ issues, resolvePath root i.file = path ∧ ¬ i.IsWarning)) paths fs ∧
        summaryLine checked fs =
          checked.text ++ (": " : Text) ++ Text.ofNat paths.length ++ (" file(s), " : Text) ++
            Text.ofNat errors ++ (" error(s), " : Text) ++ Text.ofNat warnings ++
            (" warning(s)" : Text)) ∧
      ∀ fallback lines, issuesOfLines fallback lines = .ok issues →
        countSeverity .warning shown = 0 ∧ ∀ f ∈ fs, f.hasErrors = true := by
  intro shown warnings errors
  obtain ⟨hwarnings, herrors⟩ := FileDiagnostics.countSeverity_flatMap_diagnostics h
  let paths := Issues.files (issues.map (Issue.resolve root))
  have hmem (path : Text) : path ∈ paths ↔ ∃ i ∈ issues, resolvePath root i.file = path := by
    rw [Issues.mem_files]
    simp [Issue.resolve]
  have hfiles : List.Forall₂ (fun path f => FilePath.toUri path = .ok f.uri ∧
      (f.hasErrors = true ↔ ∃ i ∈ issues, resolvePath root i.file = path ∧ ¬ i.IsWarning))
      paths fs :=
    (FileDiagnostics.ofIssues_eq_ok_iff.1 h).imp fun _ _ hf =>
      ⟨hf.1, FileDiagnostics.hasErrors_iff_of_shows hf.2⟩
  refine ⟨hwarnings, herrors, ?_, ⟨paths, Issues.nodup_files _, hmem, hfiles, ?_⟩, ?_⟩
  · rw [Nat.add_comm, List.length_eq_countP_add_countP (fun i : Issue => i.IsWarning)]
    simp only [warnings, errors, decide_eq_true_eq]
  · rw [summaryLine, hwarnings, herrors, hfiles.length_eq]
  · intro fallback lines hlines
    have hnone := issuesOfLines_not_isWarning hlines
    refine ⟨?_, fun f hf => ?_⟩
    · rw [hwarnings, List.countP_eq_zero]
      simpa using hnone
    · obtain ⟨i, hi, hshows⟩ := FileDiagnostics.exists_issue_of_mem h hf
      exact (FileDiagnostics.hasErrors_iff_of_shows hshows).2 ⟨i, hi, rfl, hnone i hi⟩

/-- Two issues of a file that is named in two ways, one of them with a word that is not quite the
one for a warning, and a warning of another file between them. -/
theorem summaryLine_counts_two :
    let issues : List Issue :=
      [⟨"./A", .fileStart, "a", [], "error", "warning", []⟩,
        ⟨"/w/B", .fileStart, "b", [], "error", "warning", []⟩,
        ⟨"/w/A", .fileStart, "c", [], "error", "Warning", []⟩]
    ∃ fs, FileDiagnostics.ofIssues "/w" issues = .ok fs ∧
      countSeverity .warning (fs.flatMap FileDiagnostics.diagnostics) = 2 ∧
      countSeverity .error (fs.flatMap FileDiagnostics.diagnostics) = 1 ∧
      fs.map FileDiagnostics.hasErrors = [true, false] ∧
      summaryLine ⟨.root, ["w", "A"]⟩ fs = "/w/A: 2 file(s), 1 error(s), 2 warning(s)" := by
  intro issues
  have h : FileDiagnostics.ofIssues "/w" issues = .ok _ := rfl
  obtain ⟨hwarnings, herrors, -, ⟨paths, -, -, hfiles, hsummary⟩, -⟩ :=
    summaryLine_counts h ⟨.root, ["w", "A"]⟩
  have hpaths : paths.length = 2 := hfiles.length_eq
  have hcounts : issues.countP (fun i => i.IsWarning) = 2 ∧
      issues.countP (fun i => ¬ i.IsWarning) = 1 := ⟨rfl, rfl⟩
  refine ⟨_, h, hwarnings, herrors, rfl, ?_⟩
  rw [hsummary, hpaths, hcounts.1, hcounts.2]
  rfl

end Batch

end ElmReport
