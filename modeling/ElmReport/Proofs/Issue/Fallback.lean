import ElmReport.Proofs.Diagnostic.Writable
import ElmReport.Proofs.Report.Grammar

/-!
# Problems that name no file

A problem of the project may name no file, and then belongs to the file that was checked. Two runs
over the same lines that differ in this file only fail alike, and find the same issues but for the
files of such problems. Which problems these are is read off the JSON values of the lines: a path
that is given counts even when it is empty, and null counts as no path.

## Main definitions

* `Json.StatesPaths`: the paths that a document gives its problems.
* `Draft`: an issue whose file is still open.

## Main results

* `IssueFeed.takeAll_congr`: runs fail alike, whatever file the problems without a file belong to.
* `Document.exists_drafts`: the issues of a document are drafts with their files filled in.
* `issuesOfLines_fallback`: two runs compared, issue by issue.
-/

namespace ElmReport

/-! ### The paths of a document -/

namespace Json

/-- The path that the problems of a file are given, once for each of them. -/
inductive StatesEntryPaths : Json → List (Option Text) → Prop
  | entry {members : Members} {path : Text} {items : List Json}
      (hpath : members.get? "path" = some (.string path))
      (hitems : members.get? "problems" = some (.list items)) :
      StatesEntryPaths (.object members) (List.replicate items.length (some path))

/-- The paths that a document gives its problems, in their order. A problem of the project whose
path is absent or null is given none. -/
inductive StatesPaths : Json → List (Option Text) → Prop
  | compileErrors {members : Members} {entries : List Json} {paths : List (List (Option Text))}
      (hform : HasForm (.object members) .compileErrors)
      (hentries : members.get? "errors" = some (.list entries))
      (hpaths : List.Forall₂ StatesEntryPaths entries paths) :
      StatesPaths (.object members) paths.flatten
  | named {members : Members} {path : Text} (hform : HasForm (.object members) .projectError)
      (hpath : members.get? "path" = some (.string path)) :
      StatesPaths (.object members) [some path]
  | unnamed {members : Members} (hform : HasForm (.object members) .projectError)
      (hpath : members.get? "path" = none ∨ members.get? "path" = some .null) :
      StatesPaths (.object members) [none]
  | other {v : Json} (h : ∀ form, ¬ v.HasForm form) : StatesPaths v []

end Json

/-- An issue with the path that it is given, if any, in place of its file. -/
structure Draft where
  path : Option Text
  issue : Issue

/-- The issue of a draft, which belongs to `fallback` when it is given no path. -/
def Draft.fill (fallback : Option Text) (draft : Draft) : Issue :=
  { draft.issue with file := draft.path.getD (fallback.getD []) }

/-! ### The issues of a document -/

/-- The problems of a file are given the path of the file. -/
theorem Json.IsFileErrors.statesEntryPaths {v : Json} {f : FileErrors} (h : v.IsFileErrors f) :
    v.StatesEntryPaths (List.replicate f.problems.length (some f.path)) := by
  obtain ⟨hpath, -, hitems, hproblems⟩ := h
  rw [← hproblems.length_eq]
  exact .entry hpath hitems

/-- A problem of the project is given the path that it names, if any. -/
theorem Json.IsProjectError.statesPaths {v : Json} {e : ProjectError}
    (hform : v.HasForm .projectError) (h : v.IsProjectError e) : v.StatesPaths [e.path] := by
  obtain ⟨hpath, -, -, -, -⟩ := h
  rename_i members path title region text message
  generalize hvalue : members.get? "path" = value at hpath
  cases hpath with
  | absent => exact .unnamed hform (.inl hvalue)
  | null => exact .unnamed hform (.inr hvalue)
  | present htext =>
    obtain ⟨⟩ := htext
    exact .named hform hvalue

namespace Document

/-- A value that is decoded to no report claims no form. -/
theorem not_hasForm_of_report?_eq_none {v : Json} {d : Document} (h : ofJson v = .ok d)
    (hnone : d.report? = none) (form : Form) : ¬ v.HasForm form := by
  intro hform
  by_cases hr : ∃ r, v.IsReport r
  · obtain ⟨r, hr⟩ := hr
    rw [ofJson_of_isReport hr] at h
    obtain rfl := Except.ok.inj h
    exact nomatch hnone
  · obtain ⟨e, he⟩ := ofJson_of_not_isReport hform (not_exists.1 hr)
    exact nomatch he.symm.trans h

/-- The issues of a document are drafts with their files filled in, and the drafts are given the
paths that the document states. -/
theorem exists_drafts {v : Json} {d : Document} (h : ofJson v = .ok d) :
    ∃ drafts : List Draft, v.StatesPaths (drafts.map Draft.path) ∧
      ∀ fallback, d.issues fallback = drafts.map (Draft.fill fallback) := by
  cases d with
  | report r =>
    cases ofJson_eq_report_iff.1 h with
    | @compileErrors members entries files hform hentries hfiles =>
      let drafts (f : FileErrors) : List Draft :=
        f.problems.map fun p => ⟨some f.path, p.issue f.path⟩
      refine ⟨files.flatMap drafts, ?_, fun fallback => ?_⟩
      · have hpaths : (files.flatMap drafts).map Draft.path =
            (files.map fun f => List.replicate f.problems.length (some f.path)).flatten := by
          rw [List.map_flatMap, List.flatMap_def]
          congr 2
          funext f
          simp [drafts, Function.comp_def]
        rw [hpaths]
        exact .compileErrors hform hentries
          (List.forall₂_map_right_iff.2 (hfiles.imp fun _ _ hf => hf.statesEntryPaths))
      · rw [List.map_flatMap]
        refine congrArg files.flatMap (funext fun f => ?_)
        simp [drafts, FileErrors.issues, Draft.fill, Problem.issue]
    | @projectError v e hform he =>
      exact ⟨[⟨e.path, e.issue none⟩], he.statesPaths hform, fun fallback => rfl⟩
  | otherForm kind => exact ⟨[], .other (not_hasForm_of_report?_eq_none h rfl), fun _ => rfl⟩
  | noDocument => exact ⟨[], .other (not_hasForm_of_report?_eq_none h rfl), fun _ => rfl⟩

end Document

/-! ### Runs -/

namespace IssueFeed

/-- A line fails alike, and is noted alike, whatever file the problems without a file belong to. -/
theorem take_congr {f g : IssueFeed} (hseen : f.linesSeen = g.linesSeen) (line : Text) :
    (∀ e, (f.take line).outcome = .error e ↔ (g.take line).outcome = .error e) ∧
      (f.take line).notes = (g.take line).notes := by
  simp only [take, hseen]
  cases Document.ofLine (g.linesSeen + 1) line <;> simp

/-- Runs fail alike, at the same line, and with the same notes, whatever file the problems without a
file belong to. -/
theorem takeAll_congr {f g : IssueFeed} (hseen : f.linesSeen = g.linesSeen) (lines : List Text) :
    (f.takeAll lines).error = (g.takeAll lines).error ∧
      (f.takeAll lines).feed.linesSeen = (g.takeAll lines).feed.linesSeen ∧
      (f.takeAll lines).notes = (g.takeAll lines).notes := by
  induction lines generalizing f g with
  | nil => exact ⟨rfl, hseen, rfl⟩
  | cons line lines ih =>
    obtain ⟨herror, hnotes⟩ := take_congr hseen line
    have hseen' : (f.take line).feed.linesSeen = (g.take line).feed.linesSeen := by
      rw [linesSeen_take, linesSeen_take, hseen]
    rcases hf : (f.take line).outcome with e | new
    · have hg := (herror e).1 hf
      simp only [takeAll, hf, hg, true_and]
      exact ⟨hseen', hnotes⟩
    · rcases hg : (g.take line).outcome with e | new'
      · exact absurd ((herror e).2 hg) (by rw [hf]; simp)
      · simp only [takeAll, hf, hg, hnotes]
        obtain ⟨h, hs, hn⟩ := ih hseen'
        exact ⟨h, hs, by rw [hn]⟩

/-- What is gathered on lines that are all decoded are drafts with their files filled in, and the
drafts of a line are given the paths that its document states. -/
theorem exists_drafts_of_decodes {lines : List Text} (h : ∀ line ∈ lines, Document.Decodes line) :
    ∃ drafts : List (List Draft),
      List.Forall₂ (fun line ds => ∃ v, Json.read .ofReports line = .ok v ∧
        v.StatesPaths (ds.map Draft.path)) lines drafts ∧
      ∀ f : IssueFeed, (f.takeAll lines).feed.issues =
        f.issues ++ drafts.flatten.map (Draft.fill f.fallback) := by
  induction lines with
  | nil => exact ⟨[], .nil, fun f => by simp⟩
  | cons line lines ih =>
    obtain ⟨⟨d, hline⟩, hlines⟩ := List.forall_mem_cons.1 h
    obtain ⟨v, hread, hv⟩ := Document.ofLine_eq_ok_iff.1 hline
    obtain ⟨first, hpaths, hfirst⟩ := Document.exists_drafts hv
    obtain ⟨drafts, hdrafts, hissues⟩ := ih hlines
    refine ⟨first :: drafts, .cons ⟨v, hread, hpaths⟩ hdrafts, fun f => ?_⟩
    simp only [takeAll, f.take_of_ofLine hline, hissues, hfirst, List.flatten_cons, List.map_append,
      List.append_assoc]

end IssueFeed

/-- Lines fail by the error of the run over them. -/
theorem issuesOfLines_eq_error_iff {fallback : Option Text} {lines : List Text} {e : LineError} :
    issuesOfLines fallback lines = .error e ↔
      (IssueFeed.takeAll { fallback } lines).error = some e := by
  simp only [issuesOfLines]
  cases (IssueFeed.takeAll { fallback } lines).error <;> simp

/-- **The file of problems that name none influences nothing else.** Two runs over the same lines
fail by the same error at the same line, with the same notes. When they succeed they find issues
that agree place by place, except for the file of a problem of the project whose path is absent or
null, which is the one of the run. -/
theorem issuesOfLines_fallback (fallback fallback' : Option Text) (lines : List Text) :
    let run := IssueFeed.takeAll { fallback } lines
    let run' := IssueFeed.takeAll { fallback := fallback' } lines
    (∀ e, issuesOfLines fallback lines = .error e ↔ issuesOfLines fallback' lines = .error e) ∧
      run.feed.linesSeen = run'.feed.linesSeen ∧ run.notes = run'.notes ∧
      ∀ found found', issuesOfLines fallback lines = .ok found →
        issuesOfLines fallback' lines = .ok found' →
        ∃ paths : List (List (Option Text)),
          List.Forall₂ (fun line ps => ∃ v, Json.read .ofReports line = .ok v ∧ v.StatesPaths ps)
            lines paths ∧
          found.length = paths.flatten.length ∧ found'.length = paths.flatten.length ∧
          ∀ (n : Nat) (i i' : Issue) (path : Option Text), found[n]? = some i →
            found'[n]? = some i' → paths.flatten[n]? = some path →
            i.file = path.getD (fallback.getD []) ∧
              i' = { i with file := path.getD (fallback'.getD []) } := by
  intro run run'
  obtain ⟨herror, hseen, hnotes⟩ : run.error = run'.error ∧
      run.feed.linesSeen = run'.feed.linesSeen ∧ run.notes = run'.notes :=
    @IssueFeed.takeAll_congr { fallback } { fallback := fallback' } rfl lines
  refine ⟨fun e => ?_, hseen, hnotes, fun found found' h h' => ?_⟩
  · rw [issuesOfLines_eq_error_iff, issuesOfLines_eq_error_iff]
    exact iff_of_eq (congrArg (· = some e) herror)
  · obtain ⟨hlines, hfound⟩ := issuesOfLines_eq_ok_iff.1 h
    obtain ⟨-, hfound'⟩ := issuesOfLines_eq_ok_iff.1 h'
    obtain ⟨drafts, hdrafts, hissues⟩ := IssueFeed.exists_drafts_of_decodes hlines
    rw [hissues, List.nil_append] at hfound hfound'
    have hflatten : (drafts.map (List.map Draft.path)).flatten = drafts.flatten.map Draft.path :=
      List.map_flatten.symm
    refine ⟨drafts.map (List.map Draft.path), List.forall₂_map_right_iff.2 hdrafts, ?_, ?_, ?_⟩
    · rw [← hfound, hflatten, List.length_map, List.length_map]
    · rw [← hfound', hflatten, List.length_map, List.length_map]
    · intro n i i' path hi hi' hpath
      rw [← hfound, List.getElem?_map] at hi
      rw [← hfound', List.getElem?_map] at hi'
      rw [hflatten, List.getElem?_map] at hpath
      obtain ⟨draft, hdraft, rfl⟩ := Option.map_eq_some_iff.1 hi
      rw [hdraft] at hi' hpath
      obtain rfl := Option.some.inj hpath
      obtain rfl := Option.some.inj hi'
      exact ⟨rfl, rfl⟩

set_option maxRecDepth 2000 in
/-- Three problems of the project, with no path, with an empty path and with null for a path. -/
theorem issuesOfLines_fallback_three :
    let lines : List Text := ["\x7b\"type\":\"error\",\"title\":\"a\",\"message\":[]\x7d",
      "\x7b\"type\":\"error\",\"path\":\"\",\"title\":\"b\",\"message\":[]\x7d",
      "\x7b\"type\":\"error\",\"path\":null,\"title\":\"c\",\"message\":[]\x7d"]
    let issue (file title : Text) : Issue :=
      { file, region := .fileStart, overview := title, details := [] }
    let found := [issue "" "a", issue "" "b", issue "" "c"]
    let found' := [issue "/w/B" "a", issue "" "b", issue "/w/B" "c"]
    issuesOfLines none lines = .ok found ∧ issuesOfLines (some "/w/B") lines = .ok found' ∧
      ∃ paths : List (List (Option Text)),
        List.Forall₂ (fun line ps => ∃ v, Json.read .ofReports line = .ok v ∧ v.StatesPaths ps)
          lines paths ∧
        ∀ (n : Nat) (i i' : Issue) (path : Option Text), found[n]? = some i →
          found'[n]? = some i' → paths.flatten[n]? = some path →
          i.file = path.getD [] ∧ i' = { i with file := path.getD "/w/B" } := by
  intro lines issue found found'
  have h : issuesOfLines none lines = .ok found := rfl
  have h' : issuesOfLines (some "/w/B") lines = .ok found' := rfl
  obtain ⟨-, -, -, hissues⟩ := issuesOfLines_fallback none (some "/w/B") lines
  obtain ⟨paths, hpaths, -, -, hplaces⟩ := hissues found found' h h'
  exact ⟨h, h', paths, hpaths, hplaces⟩

end ElmReport
