import ElmReport.Batch.Run
import ElmReport.Proofs.FileUri.Kept

/-!
# The files that a batch run hands to the compiler

A batch run reports its results by the paths of its files, but it hands every path to the compiler
by way of its URI. There is one call of the compiler for every file whose check is reached, in the
order of the files, and it names the path that the URI of the file is read as. This is the path of
the file exactly when the path comes back from its URI.

## Main definitions

* `FileChecks.Names`: the calls that belong to a file.

## Main results

* `FileTree.isAbsolute_of_mem_selection`: the files of a run start at the root.
* `FileChecks.exists_callsOf_eq`: the check of a file calls the compiler once.
* `FileChecks.exists_forall₂_calls`: the calls and the results of the checks of files.
* `FileChecks.call_names_file_iff_isKept`: which file a call names.
* `Surroundings.exists_forall₂_calls_check`: the calls in a run.
-/

namespace ElmReport.FileTree

/-- The real path of a path starts at the root. -/
theorem isAbsolute_of_realPath {t : FileTree} {p q : Path} (h : t.realPath p = .ok q) :
    q.isAbsolute = true := by
  simp only [FileTree.realPath] at h
  split at h
  · split at h
    · cases h
    · exact Except.ok.inj h ▸ t.isAbsolute_grounded _
  · split at h
    · cases h
    · exact Except.ok.inj h ▸ t.isAbsolute_grounded _
  · cases h

/-- The files that a run checks start at the root. -/
theorem isAbsolute_of_mem_selection {t : FileTree} {ps found : List Path}
    (h : t.selection ps = .ok found) : ∀ p ∈ found, p.isAbsolute = true := by
  obtain ⟨files, -, hfound⟩ := Outcome.bind_eq_ok_iff.1 h
  intro p hp
  obtain ⟨q, -, hq⟩ := Outcome.exists_of_mem_mapM hfound hp
  exact isAbsolute_of_realPath hq

end ElmReport.FileTree

namespace ElmReport.Batch

/-- Without a shell the second argument of a call is its file. -/
theorem Compiler.getElem?_arguments_call {c : Compiler} (h : c.options.useShell = false)
    (file directory : Text) : (c.call file directory).arguments[1]? = some file := by
  simp [call, CompilerOptions.arguments, CompilerOptions.fileWord, h]

namespace FileChecks

/-- A call of the compiler for the path that the URI of a file is read as. -/
def Names (c : Compiler) (root : Text) (p : Path) (call : Call) : Prop :=
  ∃ u file, FilePath.toUri p.text = .ok u ∧ FilePath.ofUri u = .ok file ∧ call = c.call file root

/-- The check of a file whose path has no lone surrogates calls the compiler once. -/
theorem exists_callsOf_eq (c : Compiler) (root : Text) {p : Path} (h : p.text.IsScalar) :
    ∃ call, callsOf c root (diagnose c.invoker root p) = [call] ∧ Names c root p call := by
  obtain ⟨u, hu⟩ := FilePath.exists_toUri_of_isScalar h
  obtain ⟨host, -, hfile⟩ := FilePath.ofUri_of_toUri hu
  refine ⟨_, ?_, u, _, hu, hfile, rfl⟩
  simp only [callsOf, diagnose, hu, Invoker.diagnose, hfile, CheckRun.bind, Invoker.checkFile,
    Option.toList_some, List.map_cons, List.map_nil]

/-- The calls of the compiler are those for the files up to and with the first whose check fails,
and when none fails there is a result for every file. -/
theorem exists_forall₂_calls (c : Compiler) (root : Text) {ps : List Path}
    (h : ∀ p ∈ ps, p.text.IsScalar) :
    ∃ n ≤ ps.length, List.Forall₂ (Names c root) (ps.take n) (ofFiles c root ps).calls ∧
      (∀ results, (ofFiles c root ps).results = .ok results →
        n = ps.length ∧ results.map FileResult.path = ps) ∧
      ∀ e, (ofFiles c root ps).results = .error e → ∃ i p, n = i + 1 ∧ ps[i]? = some p ∧
        (diagnose c.invoker root p).result = .error e := by
  induction ps with
  | nil =>
    refine ⟨0, Nat.le_refl 0, .nil, fun results hresults => ⟨rfl, ?_⟩, fun e he => ?_⟩
    · obtain rfl := Except.ok.inj hresults
      rfl
    · cases he
  | cons p ps ih =>
    obtain ⟨hp, hps⟩ := List.forall_mem_cons.1 h
    obtain ⟨call, hcall, hnames⟩ := exists_callsOf_eq c root hp
    rcases hcheck : (diagnose c.invoker root p).result with e | files
    · simp only [ofFiles, hcheck, hcall]
      refine ⟨1, by simp, .cons hnames .nil, fun results hresults => ?_, fun e' he => ?_⟩
      · cases hresults
      · exact ⟨0, p, rfl, rfl, by rw [hcheck, Except.error.inj he]⟩
    · obtain ⟨n, hn, hcalls, hall, hfirst⟩ := ih hps
      simp only [ofFiles, hcheck, hcall]
      refine ⟨n + 1, Nat.succ_le_succ hn, .cons hnames hcalls, fun results hresults => ?_,
        fun e he => ?_⟩
      · obtain ⟨others, hothers, rfl⟩ := ElmReport.Outcome.map_eq_ok_iff.1 hresults
        obtain ⟨rfl, hpaths⟩ := hall others hothers
        exact ⟨rfl, by rw [List.map_cons, hpaths]⟩
      · obtain ⟨i, q, rfl, hq, hfails⟩ := hfirst e (ElmReport.Outcome.map_eq_error_iff.1 he)
        exact ⟨i + 1, q, rfl, by simpa using hq, hfails⟩

/-- A call names the path of its file exactly when this path comes back from its URI. -/
theorem Names.getElem?_arguments_iff {c : Compiler} {root : Text} {p : Path} {call : Call}
    (h : Names c root p call) (hshell : c.options.useShell = false) (hp : p.isAbsolute = true) :
    call.arguments[1]? = some p.text ↔ FilePath.IsKept p.text := by
  obtain ⟨u, file, hu, hfile, rfl⟩ := h
  rw [Compiler.getElem?_arguments_call hshell,
    ← FilePath.ofUri_eq_self_iff (Path.head?_text hp) hu, hfile, Option.some.injEq,
    Except.ok.injEq]

/-- **Which file a call names.** The checks of files whose paths start at the root call the compiler
once for every file, in the order of the files, up to and with the first whose check fails. When
none fails the results report the paths of the files. A call names the path that the URI of its file
is read as, and this is the path that is reported exactly when it comes back from its URI. -/
theorem call_names_file_iff_isKept {c : Compiler} {ps : List Path}
    (hshell : c.options.useShell = false) (hps : ∀ p ∈ ps, p.isAbsolute = true ∧ p.text.IsScalar)
    (root : Text) :
    let checks := ofFiles c root ps
    (∀ results : List FileResult, checks.results = .ok results →
      checks.calls.length = ps.length ∧ results.length = ps.length ∧
        ∀ (i : Nat) (r : FileResult), results[i]? = some r → ∃ p groups, ps[i]? = some p ∧
          r.toJson = .object [("file", .string p.text), ("groups", groups)]) ∧
    (∀ e, checks.results = .error e → ∃ (i : Nat) (p : Path), checks.calls.length = i + 1 ∧
      ps[i]? = some p ∧ (diagnose c.invoker root p).result = .error e) ∧
    ∀ (i : Nat) (call : Call), checks.calls[i]? = some call → ∃ p, ps[i]? = some p ∧
      Names c root p call ∧ (call.arguments[1]? = some p.text ↔ FilePath.IsKept p.text) := by
  intro checks
  obtain ⟨n, hn, hcalls, hall, hfirst⟩ := exists_forall₂_calls c root fun p hp => (hps p hp).2
  have hlength : checks.calls.length = n := by
    rw [← hcalls.length_eq, List.length_take, Nat.min_eq_left hn]
  refine ⟨fun results hresults => ?_, fun e he => ?_, fun i call hcall => ?_⟩
  · obtain ⟨rfl, hpaths⟩ := hall results hresults
    refine ⟨hlength, by rw [← hpaths, List.length_map], fun i r hr => ⟨r.path, _, ?_, rfl⟩⟩
    rw [← hpaths, List.getElem?_map, hr, Option.map_some]
  · obtain ⟨i, p, rfl, hp, hfails⟩ := hfirst e he
    exact ⟨i, p, hlength, hp, hfails⟩
  · obtain ⟨hi, rfl⟩ := List.getElem?_eq_some_iff.1 hcall
    have hi' : i < (ps.take n).length := hcalls.length_eq ▸ hi
    have hnames := hcalls.get hi' hi
    have hp : ps[i]? = some (ps.take n)[i] := by
      rw [List.getElem_take, List.getElem?_eq_getElem]
    refine ⟨_, hp, hnames, hnames.getElem?_arguments_iff hshell ?_⟩
    exact (hps _ (List.mem_of_getElem? hp)).1

/-- Of two files the compiler is called for the first, and for a file with a slash in place of the
backslash in the name of the second. -/
theorem call_names_file_iff_isKept_two :
    let c : Compiler := ⟨{}, false, fun _ _ => { lines := [] }⟩
    let p : Path := ⟨.root, ["w", "A b.elm"]⟩
    let q : Path := ⟨.root, ["w", "a\\b.elm"]⟩
    c.options.useShell = false ∧ FilePath.IsKept p.text ∧ ¬ FilePath.IsKept q.text ∧
      ∃ call call', (ofFiles c "/w" [p, q]).calls = [call, call'] ∧
        call.arguments[1]? = some p.text ∧ call'.arguments[1]? ≠ some q.text := by
  intro c p q
  have hp : FilePath.IsKept p.text := by
    refine .inl ⟨rfl, by decide, by decide, fun letter rest _ h => ?_⟩
    exact absurd (List.cons.inj (List.cons.inj (List.cons.inj h).2).2).1 (by decide)
  have hq : ¬ FilePath.IsKept q.text := by
    rintro (h | ⟨host, rest, h, -⟩)
    · exact h.noBackslash (by decide)
    · exact absurd (List.cons.inj (List.cons.inj h).2).1 (by decide)
  have hfiles : ∀ r ∈ [p, q], r.isAbsolute = true ∧ r.text.IsScalar :=
    List.forall_mem_cons.2 ⟨⟨rfl, Text.isScalar_ofString "/w/A b.elm"⟩,
      List.forall_mem_singleton.2 ⟨rfl, Text.isScalar_ofString "/w/a\\b.elm"⟩⟩
  obtain ⟨-, -, hcalls⟩ := call_names_file_iff_isKept (c := c) rfl hfiles "/w"
  obtain ⟨_, hfirst, -, hname⟩ := hcalls 0 _ rfl
  obtain ⟨_, hsecond, -, hname'⟩ := hcalls 1 _ rfl
  obtain rfl := Option.some.inj hfirst
  obtain rfl := Option.some.inj hsecond
  exact ⟨rfl, hp, hq, _, _, rfl, hname.2 hp, mt hname'.1 hq⟩

/-- The compiler is called for a file in a directory, and the result is reported for a file with a
backslash in its name. -/
theorem ofFiles_backslash :
    let c : Compiler := ⟨{}, false, fun _ _ => { lines := [] }⟩
    let checks := ofFiles c "/w" [⟨.root, ["w", "a\\b.elm"]⟩]
    checks.calls.map (fun call => call.arguments[1]?) = [some ("/w/a/b.elm" : Text)] ∧
      ∃ r, checks.results = .ok [r] ∧
        r.toJson = .object [("file", .string "/w/a\\b.elm"), ("groups", .list [])] :=
  ⟨rfl, _, rfl, rfl⟩

end FileChecks

/-! ### Runs -/

/-- The calls of the compiler in a run are those for its files up to the first whose check fails. -/
theorem Surroundings.exists_forall₂_calls_check {s : Surroundings} {a : Arguments} {root : Path}
    {ps : List Path} (htargets : s.targets a = .ok (root, ps)) (hps : ∀ p ∈ ps, p.text.IsScalar) :
    (∀ p ∈ ps, p.isAbsolute = true) ∧ ∃ n ≤ ps.length,
      List.Forall₂ (FileChecks.Names (s.compiler a) root.text) (ps.take n) (s.check a).calls := by
  constructor
  · obtain ⟨_, -, h⟩ := ElmReport.Outcome.bind_eq_ok_iff.1 htargets
    obtain ⟨files, hfiles, h⟩ := ElmReport.Outcome.bind_eq_ok_iff.1 h
    obtain ⟨-, rfl⟩ := Prod.mk.inj (ElmReport.Outcome.pure_eq_ok_iff.1 h)
    obtain ⟨selected, hselected, h⟩ := ElmReport.Outcome.bind_eq_ok_iff.1 hfiles
    split at h
    · cases h
    · obtain rfl := ElmReport.Outcome.pure_eq_ok_iff.1 h
      exact FileTree.isAbsolute_of_mem_selection (ElmReport.Outcome.mapError_eq_ok_iff.1 hselected)
  · obtain ⟨n, hn, hcalls, -⟩ := FileChecks.exists_forall₂_calls (s.compiler a) root.text hps
    refine ⟨n, hn, ?_⟩
    simpa only [check, htargets] using hcalls

end ElmReport.Batch
