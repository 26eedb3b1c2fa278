import ElmReport.Proofs.FileTree.Resolving
import ElmReport.Proofs.Outcome

/-!
# Generated code in a selection

Generated code is left out by the paths as they are spelled, but a selection holds real paths. A
real path goes through generated code although its spelled path does not when a link says so in its
target, or when the path is relative and the workplace lies in that generated code itself. There is
no other way, and each of these is one: from a workplace in generated code every file below can be
selected by its names, and so can a file by a link to it.

## Main definitions

* `FileTree.HasPlainNames`: no name in a tree holds a slash.
* `FileTree.IsStep`: the names that can be followed down a tree.
* `FileTree.LeadsToFile`: names that lead from the workplace down to a file.

## Main results

* `FileTree.generated_of_mem_selection`: how a real path comes by generated code.
* `FileTree.LeadsToFile.selection_eq`: the file that names from the workplace lead to.
* `FileTree.LeadsToFile.selection_link`: the file that a link in the workplace leads to.
* `FileTree.generated_mem_selection`: when generated code is selected.
-/

namespace ElmReport.FileTree

open Batch

/-! ### Spelled paths -/

/-- No name in a tree holds a slash. -/
def HasPlainNames (t : FileTree) : Prop := ∀ d ∈ t.root.descendants .root, slash ∉ d.name

instance (t : FileTree) : Decidable t.HasPlainNames :=
  inferInstanceAs (Decidable (∀ d ∈ t.root.descendants .root, slash ∉ d.name))

mutual

/-- The paths of what lies below a path start where it does, and their names are plain when all
names on the way are. -/
theorem plain_of_mem_descendants {p : Path} (hp : ∀ n ∈ p.names, slash ∉ n) : ∀ {e : Entry},
    (∀ d ∈ e.descendants p, slash ∉ d.name) →
      ∀ d ∈ e.descendants p, d.path.anchor = p.anchor ∧ ∀ n ∈ d.path.names, slash ∉ n
  | .directory entries, he => by
    rw [Entry.descendants] at he ⊢
    exact plain_of_mem_descendantsIn hp he
  | .file, _ => by simp
  | .link _, _ => by simp

theorem plain_of_mem_descendantsIn {p : Path} (hp : ∀ n ∈ p.names, slash ∉ n) :
    ∀ {entries : List (Text × Entry)}, (∀ d ∈ Entry.descendantsIn p entries, slash ∉ d.name) →
      ∀ d ∈ Entry.descendantsIn p entries,
        d.path.anchor = p.anchor ∧ ∀ n ∈ d.path.names, slash ∉ n
  | [], _ => by simp [Entry.descendantsIn]
  | (name, e) :: es, h => by
    rw [Entry.descendantsIn, List.forall_mem_cons, List.forall_mem_append] at h ⊢
    obtain ⟨hname, he, hes⟩ := h
    have hchild : ∀ n ∈ (p.child name).names, slash ∉ n :=
      List.forall_mem_append.2 ⟨hp, List.forall_mem_singleton.2 hname⟩
    exact ⟨⟨rfl, hchild⟩, plain_of_mem_descendants hchild he, plain_of_mem_descendantsIn hp hes⟩

end

/-- What a path leads to stands at its place in the tree. -/
theorem at?_of_status {t : FileTree} {p : Path} {place : List Text} {e : Entry}
    (h : t.status p = .entry place e) : t.root.at? place = some e := by
  rw [status] at h
  split_ifs at h
  exact at?_of_walk h

/-- The files that a path stands for start where it does, and their names are plain when those of
the path and of the tree are. -/
theorem plain_of_mem_filesOf {t : FileTree} (ht : t.HasPlainNames) {p : Path}
    (hp : ∀ n ∈ p.names, slash ∉ n) {files : List Path} (h : t.filesOf p = .ok files) :
    ∀ f ∈ files, f.anchor = p.anchor ∧ ∀ n ∈ f.names, slash ∉ n := by
  rw [filesOf] at h
  split at h
  · next place entries hstatus =>
    have hnames : ∀ d ∈ (Entry.directory entries).descendants p, slash ∉ d.name := by
      intro d hd
      obtain ⟨d', hd', hname, -⟩ :=
        Entry.exists_mem_descendants_of_at? (at?_of_status hstatus) hd .root
      exact hname ▸ ht d' hd'
    rw [elmFilesBelow] at h
    split at h
    · cases h
    · obtain rfl := Except.ok.inj h
      intro f hf
      rw [Path.sort, List.mem_mergeSort] at hf
      obtain ⟨d, hd, rfl⟩ := List.mem_map.1 hf
      exact plain_of_mem_descendants hp hnames d (List.mem_filter.1 hd).1
  · obtain rfl := Except.ok.inj h
    exact List.forall_mem_singleton.2 ⟨rfl, hp⟩
  · cases h
  · obtain rfl := Except.ok.inj h
    exact nofun

/-- Every path of a selection is the real path of a file that a path stands for, which does not go
through generated code as it is spelled. -/
theorem exists_of_mem_selection {t : FileTree} {ps found : List Path}
    (h : t.selection ps = .ok found) {q : Path} (hq : q ∈ found) :
    ∃ p ∈ ps, ∃ files, t.filesOf p = .ok files ∧
      ∃ f ∈ files, generated ∉ f.names ∧ t.realPath f = .ok q := by
  obtain ⟨spelled, hspelled, hreal⟩ := Outcome.bind_eq_ok_iff.1 h
  obtain ⟨f, hf, hq⟩ := Outcome.exists_of_mem_mapM hreal hq
  have hclean : generated ∉ f.names := by
    simpa [isSpelledClean] using isSpelledClean_of_mem_spelled hspelled f hf
  obtain ⟨lists, hlists, hfilter⟩ := Outcome.bind_eq_ok_iff.1 hspelled
  obtain rfl := Outcome.pure_eq_ok_iff.1 hfilter
  obtain ⟨files, hfiles, hf⟩ := List.mem_flatten.1 (List.mem_filter.1 hf).1
  obtain ⟨p, hp, hfilesOf⟩ := Outcome.exists_of_mem_mapM hlists hfiles
  exact ⟨p, hp, files, hfilesOf, f, hf, hclean, hq⟩

theorem leadsDown_generated : Path.LeadsDown generated := ⟨by decide, by decide, by decide⟩

/-- **How a real path comes by generated code.** When no link names generated code in its target,
all generated code that a selected path lies in is such that the workplace lies in it as well, and
some of the paths that were given are relative. -/
theorem generated_of_mem_selection {t : FileTree} (ht : t.HasPlainNames)
    (hlinks : ∀ target, t.HasLink target → generated ∉ Text.fields slash target)
    {ps found : List Path} (hps : ∀ p ∈ ps, p.IsProper) (h : t.selection ps = .ok found)
    {q : Path} (hq : q ∈ found) {above : List Text} (habove : above ++ [generated] <+: q.names) :
    (∃ p ∈ ps, p.isAbsolute = false) ∧ above ++ [generated] <+: Path.collapse t.workplace := by
  obtain ⟨p, hp, files, hfiles, f, hf, hclean, hreal⟩ := exists_of_mem_selection h hq
  obtain ⟨hanchor, hplain⟩ := plain_of_mem_filesOf ht (fun n hn => (hps p hp n hn).2) hfiles f hf
  have hnames : ∀ n ∈ f.names, generated ∉ Text.fields slash n := by
    intro n hn
    rw [Text.fields_of_not_mem (hplain n hn), List.mem_singleton]
    rintro rfl
    exact hclean hn
  obtain ⟨hrelative, hworkplace⟩ :=
    prefix_workplace_of_prefix_realPath leadsDown_generated hlinks hnames hreal habove
  refine ⟨⟨p, hp, ?_⟩, hworkplace⟩
  rwa [Path.isAbsolute, ← hanchor]

/-! ### Ways down -/

/-- A name that can be followed down a tree: it leads down, the system takes it, and it is not too
long. -/
structure IsStep (n : Text) : Prop extends Path.LeadsDown n where
  isPathText : isPathText n = true
  short : byteCount n ≤ maxNameBytes

instance (n : Text) : Decidable (IsStep n) :=
  decidable_of_iff (Path.isName n = true ∧ n ≠ Path.doubleDot ∧ slash ∉ n ∧ isPathText n = true ∧
      byteCount n ≤ maxNameBytes)
    ⟨fun ⟨hname, hup, hslash, htext, hshort⟩ => ⟨⟨hname, hup, hslash⟩, htext, hshort⟩,
      fun h => ⟨h.isName, h.ne_doubleDot, h.slash_not_mem, h.isPathText, h.short⟩⟩

theorem IsStep.null_not_mem {n : Text} (h : IsStep n) : .scalar '\x00' ∉ n := fun hmem =>
  absurd (List.all_eq_true.1 h.isPathText _ hmem) (by decide)

theorem IsStep.isTooLong_eq_false {n : Text} (h : IsStep n) : isTooLong ⟨.here, [n]⟩ = false := by
  have htext : (Path.mk .here [n]).text = n := by
    change Text.join [slash] [n] = n
    exact List.intercalate_singleton
  rw [isTooLong, htext]
  exact decide_eq_false (Nat.not_lt.2 (Nat.le_trans h.short (by decide)))

/-- Names that lead from the workplace down to a file, through directories only. -/
structure LeadsToFile (t : FileTree) (names : List Text) : Prop where
  file : t.root.at? (t.workplace ++ names) = some .file
  steps : ∀ n ∈ t.workplace ++ names, IsStep n
  short : byteCount (Path.mk .here names).text ≤ maxPathBytes

/-- Above what names lead to there is a directory. -/
theorem exists_directory_of_at? {root e : Entry} {place : List Text} {n : Text} {names : List Text}
    (h : root.at? (place ++ n :: names) = some e) :
    ∃ entries e', root.at? place = some (.directory entries) ∧ Entry.find? n entries = some e' ∧
      e'.at? names = some e := by
  rw [Entry.at?_append] at h
  obtain ⟨d, hplace, h⟩ := Option.bind_eq_some_iff.1 h
  cases d with
  | file => cases h
  | link => cases h
  | directory entries =>
    obtain ⟨e', hfind, h⟩ := Option.bind_eq_some_iff.1 h
    exact ⟨entries, e', hplace, hfind, h⟩

/-- What stands under a name is in the directory above. -/
theorem exists_find?_of_at? {root e : Entry} {place : List Text} {n : Text}
    (h : root.at? (place ++ [n]) = some e) :
    ∃ entries, root.at? place = some (.directory entries) ∧ Entry.find? n entries = some e := by
  obtain ⟨entries, e', hplace, hfind, hat⟩ := exists_directory_of_at? h
  rw [Entry.at?_nil] at hat
  exact ⟨entries, hplace, Option.some.inj hat ▸ hfind⟩

/-- There is no link on the way to something else. -/
theorem ne_link_of_at? {e e' : Entry} (he : ∀ target, e ≠ .link target) {names : List Text}
    (h : e'.at? names = some e) : ∀ target, e' ≠ .link target := by
  rintro target rfl
  cases names with
  | nil => exact he target (Option.some.inj h).symm
  | cons => cases h

/-- Names that can be followed lead to what stands under them. -/
theorem walk_of_at? {root e : Entry} (he : ∀ target, e ≠ .link target) (links : Nat)
    {place names : List Text} (hat : root.at? (place ++ names) = some e)
    (hsteps : ∀ n ∈ names, IsStep n) :
    walk root links place names = .entry (place ++ names) e := by
  induction names generalizing place with
  | nil =>
    rw [List.append_nil] at hat ⊢
    exact walk_nil hat links
  | cons n names ih =>
    obtain ⟨hn, hrest⟩ := List.forall_mem_cons.1 hsteps
    obtain ⟨entries, e', hplace, hfind, hat'⟩ := exists_directory_of_at? hat
    rw [List.append_cons] at hat
    have hwalk := ih hat hrest
    rw [List.append_cons, walk, hplace]
    simp only [hn.isName, hn.ne_doubleDot, Nat.not_lt.2 hn.short, hfind, Bool.not_true,
      Bool.false_eq_true, if_false]
    cases e' with
    | file => exact hwalk
    | directory => exact hwalk
    | link target => exact absurd rfl (ne_link_of_at? he hat' target)

/-- What stands under the last name of a path decides whether it is a link, when names that can be
followed lead there. -/
theorem linkTarget?_of_find? {t : FileTree} {names : List Text} {n : Text}
    {entries : List (Text × Entry)} {e : Entry}
    (hplace : t.root.at? (t.workplace ++ names) = some (.directory entries))
    (hfind : Entry.find? n entries = some e) (hsteps : ∀ n ∈ names, IsStep n) :
    ((∀ target, e ≠ .link target) → t.linkTarget? ⟨.here, names ++ [n]⟩ = none) ∧
      ∀ target, e = .link target → isTooLong ⟨.here, names ++ [n]⟩ = false →
        t.linkTarget? ⟨.here, names ++ [n]⟩ = some target := by
  have hwalk := walk_of_at? (e := .directory entries) nofun maxLinks hplace hsteps
  have hstart : t.start ⟨.here, names ++ [n]⟩ = t.workplace := rfl
  rw [linkTarget?, hstart]
  simp only [List.dropLast_concat, List.getLast?_concat, hwalk, hfind]
  constructor
  · intro he
    split_ifs
    · rfl
    · split
      · next target hentry => exact absurd (Option.some.inj hentry) (he target)
      · rfl
  · rintro target rfl hshort
    rw [hshort]
    rfl

/-- Names that can be followed resolve to themselves. -/
theorem resolve_of_at? {t : FileTree} {e : Entry} (he : ∀ target, e ≠ .link target) (links : Nat)
    (known : Known) {names more : List Text}
    (hat : t.root.at? (t.workplace ++ (names ++ more)) = some e)
    (hsteps : ∀ n ∈ names ++ more, IsStep n) :
    t.resolve links known ⟨.here, names⟩ more = (known, .path ⟨.here, names ++ more⟩) := by
  induction more generalizing names with
  | nil => rw [resolve_nil, List.append_nil]
  | cons n more ih =>
    obtain ⟨hnames, hmore⟩ := List.forall_mem_append.1 hsteps
    obtain ⟨hn, -⟩ := List.forall_mem_cons.1 hmore
    have hlink : t.linkTarget? ⟨.here, names ++ [n]⟩ = none := by
      rw [← List.append_assoc] at hat
      obtain ⟨entries, e', hplace, hfind, hat'⟩ := exists_directory_of_at? hat
      exact (linkTarget?_of_find? hplace hfind hnames).1 (ne_link_of_at? he hat')
    rw [List.append_cons] at hat hsteps
    have hrest := ih hat hsteps
    rw [List.append_cons, resolve]
    simp only [hn.isName, hn.ne_doubleDot, hn.null_not_mem, Path.child, hlink, Bool.not_true,
      Bool.false_eq_true, if_false]
    exact hrest

/-- Names without double dots stay as they are. -/
theorem collapse_of_not_mem {names : List Text} (h : Path.doubleDot ∉ names) :
    Path.collapse names = names := by
  have hfold (before : List Text) : names.foldl Path.collapseStep before = before ++ names := by
    induction names generalizing before with
    | nil => rw [List.foldl_nil, List.append_nil]
    | cons n names ih =>
      obtain ⟨hn, hrest⟩ := not_or.1 (List.mem_cons.not.1 h)
      rw [List.foldl_cons, Path.collapseStep, if_neg (Ne.symm hn), ih hrest, ← List.append_cons]
  exact hfold []

/-- Names at the root lead to no loop of links when they lead to something through directories
only. -/
theorem status_root_ne_linkLoop {t : FileTree} {e : Entry} (he : ∀ target, e ≠ .link target)
    {names : List Text} (hat : t.root.at? names = some e) (hsteps : ∀ n ∈ names, IsStep n) :
    t.status ⟨.root, names⟩ ≠ .linkLoop := by
  have hwalk : walk t.root maxLinks [] names = .entry names e := walk_of_at? he maxLinks hat hsteps
  have hstart : t.start ⟨.root, names⟩ = [] := rfl
  rw [status, hstart, hwalk]
  split_ifs <;> exact nofun

/-- A path that leads to a file and does not go through generated code as it is spelled is selected
by its real path. -/
theorem selection_of_status {t : FileTree} {p q : Path} {place : List Text}
    (h : t.status p = .entry place .file) (hclean : generated ∉ p.names)
    (hreal : t.realPath p = .ok q) : t.selection [p] = .ok [q] := by
  have hfiles : t.filesOf p = .ok [p] := by rw [filesOf, h]
  have hspelled : t.spelled [p] = .ok [p] := by
    have hkept : isSpelledClean p = true := by simpa [isSpelledClean] using hclean
    simp [spelled, hfiles, hkept, bind, Except.bind, pure, Except.pure]
  simp [selection, hspelled, hreal, bind, Except.bind, pure, Except.pure]

/-- A relative path of names that the system takes is a text that it takes. -/
theorem isPathText_text {names : List Text} (h : ∀ n ∈ names, isPathText n = true) :
    isPathText (Path.mk .here names).text = true := by
  have hjoin : isPathText (Text.join [slash] names) = true := by
    induction names with
    | nil => rfl
    | cons n names ih =>
      obtain ⟨hn, hrest⟩ := List.forall_mem_cons.1 h
      rcases names with _ | ⟨m, more⟩
      · rwa [Text.join, List.intercalate_singleton]
      · have hjoin : Text.join [slash] (n :: m :: more) =
            n ++ [slash] ++ Text.join [slash] (m :: more) := List.intercalate_cons_cons
        have hslash : isPathText [slash] = true := rfl
        rw [hjoin, isPathText, List.all_append, List.all_append, ← isPathText, ← isPathText,
          ← isPathText, hn, hslash, ih hrest]
        rfl
  rcases names with _ | ⟨n, more⟩
  · rfl
  · exact hjoin

/-! ### Files in generated code -/

namespace LeadsToFile

variable {t : FileTree} {names : List Text} (h : t.LeadsToFile names)

include h

theorem steps_names : ∀ n ∈ names, IsStep n := fun n hn => h.steps n (List.mem_append_right _ hn)

/-- Names that lead to a file walk there. -/
theorem walk_eq (links : Nat) :
    walk t.root links t.workplace names = .entry (t.workplace ++ names) .file :=
  walk_of_at? (e := .file) nofun links h.file h.steps_names

theorem status_eq : t.status ⟨.here, names⟩ = .entry (t.workplace ++ names) .file := by
  have hstart : t.start ⟨.here, names⟩ = t.workplace := rfl
  have htext := isPathText_text fun n hn => (h.steps_names n hn).isPathText
  have hshort : isTooLong (Path.mk .here names) = false := decide_eq_false (Nat.not_lt.2 h.short)
  rw [status, htext, hshort, hstart]
  exact h.walk_eq maxLinks

theorem resolve_eq (links : Nat) (known : Known) :
    t.resolve links known ⟨.here, []⟩ names = (known, .path ⟨.here, names⟩) :=
  resolve_of_at? (e := .file) nofun links known h.file h.steps_names

/-- A path that resolves to names that lead to a file has the real path with these names. -/
theorem realPath_eq {p : Path}
    (hp : (t.resolve t.maxNesting [] (resolveStart p) p.names).2 = .path ⟨.here, names⟩) :
    t.realPath p = .ok ⟨.root, t.workplace ++ names⟩ := by
  have hgrounded : t.grounded ⟨.here, names⟩ = ⟨.root, t.workplace ++ names⟩ := by
    rw [grounded, collapse_of_not_mem fun hup => (h.steps _ hup).ne_doubleDot rfl]
  have hloop := status_root_ne_linkLoop (e := .file) nofun h.file h.steps
  -- `hloop` decides which case of the status it is.
  simp only [realPath, hp, hgrounded]

/-- **From the workplace a file can be selected by its names**, also in generated code that the
workplace lies in. -/
theorem selection_eq (hclean : generated ∉ names) :
    t.selection [⟨.here, names⟩] = .ok [⟨.root, t.workplace ++ names⟩] :=
  selection_of_status h.status_eq hclean
    (h.realPath_eq (congrArg Prod.snd (h.resolve_eq t.maxNesting [])))

section Link

variable {name target : Text} (hnames : Text.fields slash target = names)
  (hlink : t.root.at? (t.workplace ++ [name]) = some (.link target)) (hname : IsStep name)

include hnames

/-- Where a link goes down from its directory it starts there. -/
theorem head?_ne_slash : target.head? ≠ some slash := by
  intro hhead
  obtain ⟨more, rfl⟩ := List.head?_eq_some_iff.1 hhead
  have hempty : ([] : Text) ∈ names := by
    rw [← hnames, Text.fields, if_pos rfl]
    exact List.mem_cons_self
  exact absurd (h.steps_names [] hempty).isName (by decide)

include hlink hname

theorem status_link : t.status ⟨.here, [name]⟩ = .entry (t.workplace ++ names) .file := by
  obtain ⟨entries, hplace, hfind⟩ := exists_find?_of_at? hlink
  have hstart : t.start ⟨.here, [name]⟩ = t.workplace := rfl
  have htext : isPathText (Path.mk .here [name]).text = true :=
    isPathText_text (List.forall_mem_singleton.2 hname.isPathText)
  have htarget : linkStart t.workplace target = t.workplace := if_neg (h.head?_ne_slash hnames)
  rw [status, htext, hname.isTooLong_eq_false, hstart]
  change walk t.root (39 + 1) t.workplace [name] = _
  rw [walk, hplace]
  simp only [hname.isName, hname.ne_doubleDot, Nat.not_lt.2 hname.short, hfind, htarget, hnames,
    Bool.not_true, Bool.false_eq_true, if_false, List.append_nil]
  exact h.walk_eq 39

theorem resolve_link :
    (t.resolve t.maxNesting [] ⟨.here, []⟩ [name]).2 = .path ⟨.here, names⟩ := by
  obtain ⟨entries, hplace, hfind⟩ := exists_find?_of_at? hlink
  rw [← t.workplace.append_nil] at hplace
  have hmeets : t.linkTarget? (Path.child ⟨.here, []⟩ name) = some target :=
    (linkTarget?_of_find? hplace hfind nofun).2 target rfl hname.isTooLong_eq_false
  have htarget : targetStart ⟨.here, []⟩ target = ⟨.here, []⟩ := if_neg (h.head?_ne_slash hnames)
  rw [maxNesting, resolve]
  simp only [hname.isName, hname.ne_doubleDot, hname.null_not_mem, hmeets, htarget, hnames,
    h.resolve_eq, List.lookup_nil, Bool.not_true, Bool.false_eq_true, if_false, resolve_nil]

/-- **A file can be selected by a link to it** in the workplace, also when the link goes through
generated code. -/
theorem selection_link (hclean : name ≠ generated) :
    t.selection [⟨.here, [name]⟩] = .ok [⟨.root, t.workplace ++ names⟩] :=
  selection_of_status (h.status_link hnames hlink hname)
    (fun hmem => hclean (List.mem_singleton.1 hmem).symm)
    (h.realPath_eq (h.resolve_link hnames hlink hname))

end Link

end LeadsToFile

/-! ### All ways to generated code -/

/-- **When generated code is selected.** A selected path goes through generated code only if a link
of the tree names generated code in its target, or some path that was given is relative and all the
generated code that the selected path lies in holds the workplace as well. Both happen: names that
lead from the workplace to a file select it, and so does a link in the workplace whose target they
are, as long as they do not go through generated code as they are spelled. -/
theorem generated_mem_selection {t : FileTree} (ht : t.HasPlainNames) :
    (∀ ps found : List Path, (∀ p ∈ ps, p.IsProper) → t.selection ps = .ok found →
      ∀ q ∈ found, generated ∈ q.names →
        (∃ target, t.HasLink target ∧ generated ∈ Text.fields slash target) ∨
          (∃ p ∈ ps, p.isAbsolute = false) ∧
            ∀ above, above ++ [generated] <+: q.names →
              above ++ [generated] <+: Path.collapse t.workplace) ∧
      ∀ names, t.LeadsToFile names →
        (generated ∉ names →
          t.selection [⟨.here, names⟩] = .ok [⟨.root, t.workplace ++ names⟩]) ∧
        ∀ name target, t.root.at? (t.workplace ++ [name]) = some (.link target) →
          Text.fields slash target = names → IsStep name → name ≠ generated →
            t.selection [⟨.here, [name]⟩] = .ok [⟨.root, t.workplace ++ names⟩] := by
  refine ⟨fun ps found hps h q hq hmem => ?_, fun names hleads => ⟨hleads.selection_eq, ?_⟩⟩
  · by_cases hlinks : ∃ target, t.HasLink target ∧ generated ∈ Text.fields slash target
    · exact .inl hlinks
    · have hclean : ∀ target, t.HasLink target → generated ∉ Text.fields slash target :=
        fun target hlink hnames => hlinks ⟨target, hlink, hnames⟩
      have hways {above : List Text} (habove : above ++ [generated] <+: q.names) :=
        generated_of_mem_selection ht hclean hps h hq habove
      obtain ⟨above, below, hsplit⟩ := List.append_of_mem hmem
      have habove : above ++ [generated] <+: q.names :=
        ⟨below, by rw [hsplit, List.append_assoc, List.singleton_append]⟩
      exact .inr ⟨(hways habove).1, fun _ h => (hways h).2⟩
  · intro name target hlink hnames hname hclean
    exact hleads.selection_link hnames hlink hname hclean

/-- From a workplace in generated code an absolute path selects no generated code, and the name of
a file does. -/
theorem generated_mem_selection_inside :
    let t : FileTree := ⟨.directory [("w", .directory [("A.elm", .file),
      ("elm-stuff", .directory [("q.elm", .file)])])], ["w", "elm-stuff"]⟩
    t.HasPlainNames ∧
      (∀ found, t.selection [Path.ofText "/w"] = .ok found → ∀ q ∈ found, generated ∉ q.names) ∧
      t.selection [Path.ofText "q.elm"] = .ok [⟨.root, ["w", "elm-stuff", "q.elm"]⟩] := by
  intro t
  have ht : t.HasPlainNames := by decide
  have hlinks (target : Text) : ¬ t.HasLink target := by
    rintro ⟨d, hd, hlink⟩
    simp only [t, Entry.descendants, Entry.descendantsIn, List.append_nil, List.nil_append,
      List.mem_cons, List.not_mem_nil, or_false] at hd
    rcases hd with rfl | rfl | rfl | rfl <;> cases hlink
  obtain ⟨honly, hways⟩ := generated_mem_selection ht
  have hproper : ∀ p ∈ [Path.ofText "/w"], p.IsProper :=
    List.forall_mem_singleton.2 (Path.isProper_ofText "/w")
  refine ⟨ht, fun found h q hq hmem => ?_, ?_⟩
  · rcases honly _ found hproper h q hq hmem with ⟨target, hlink, -⟩ | ⟨⟨p, hp, hhere⟩, -⟩
    · exact hlinks target hlink
    · obtain rfl := List.mem_singleton.1 hp
      cases hhere
  · exact (hways ["q.elm"] ⟨rfl, by decide, by decide⟩).1 (by decide)

/-- A link to generated code is selected by what it leads to, and so is a file of the generated code
that somebody works in, although neither goes through generated code as it is spelled. -/
theorem selection_generated :
    let root : Entry := .directory [("w", .directory [("L.elm", .link "elm-stuff/q.elm"),
      ("elm-stuff", .directory [("q.elm", .file)])])]
    let q : Path := ⟨.root, ["w", "elm-stuff", "q.elm"]⟩
    (FileTree.mk root ["w"]).selection [Path.ofText "L.elm"] = .ok [q] ∧
      (FileTree.mk root ["w", "elm-stuff"]).selection [Path.ofText "q.elm"] = .ok [q] ∧
      generated ∈ q.names := by
  intro root q
  have hlink : (FileTree.mk root ["w"]).LeadsToFile ["elm-stuff", "q.elm"] :=
    ⟨rfl, by decide, by decide⟩
  have hinside : (FileTree.mk root ["w", "elm-stuff"]).LeadsToFile ["q.elm"] :=
    ⟨rfl, by decide, by decide⟩
  exact ⟨hlink.selection_link rfl rfl (by decide) (by decide), hinside.selection_eq (by decide),
    by decide⟩

end ElmReport.FileTree
