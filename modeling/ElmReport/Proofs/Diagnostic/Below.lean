import ElmReport.FileTree.Path
import ElmReport.Proofs.Diagnostic.Writable
import ElmReport.Proofs.FileUri.Trip

/-!
# Files below a workspace

The compiler names a file of the workspace by a dot, a slash and its path in the workspace. The root
of the workspace takes the place of the dot, and the URI of what comes out is that of the file below
the root, unless the root is the root of the whole file tree: then the path opens with two slashes,
and its first name is taken for a host.

## Main definitions

* `Path.IsRooted`: the paths at the root whose names are parted by single slashes.

## Main results

* `FilePath.IsPosix.below`: what lies below a rooted path.
* `FilePath.IsPosix.ofText_of_toUri`, `FilePath.authority_ne_nil_of_slashes`: which URIs have an
  authority.
* `FileDiagnostics.exists_ofIssues_below`: where the diagnostics of a file below a root stand.
-/

namespace ElmReport

/-! ### Paths in words -/

namespace Path

/-- A path at the root whose names are not empty and hold no slash. -/
structure IsRooted (p : Path) : Prop where
  anchor : p.anchor = .root
  names : ∀ n ∈ p.names, n ≠ [] ∧ slash ∉ n

theorem IsRooted.text_eq {p : Path} (h : p.IsRooted) :
    p.text = slash :: Text.join [slash] p.names := by
  rw [text, h.anchor]
  rfl

/-- Names between slashes are something, unless there are none. -/
theorem join_ne_nil {n : Text} (hn : n ≠ []) (names : List Text) :
    Text.join [slash] (n :: names) ≠ [] := by
  rcases names with _ | ⟨m, ms⟩ <;> simp [Text.join, hn]

section

variable {names : List Text} (h : ∀ n ∈ names, n ≠ [] ∧ slash ∉ n)

include h

/-- Names between slashes do not open with a slash. -/
theorem head?_join_ne_slash : (Text.join [slash] names).head? ≠ some slash := by
  rcases names with _ | ⟨n, _ | ⟨m, ns⟩⟩
  · simp [Text.join]
  all_goals
    obtain ⟨hne, hslash⟩ := h n List.mem_cons_self
    obtain ⟨p, n, rfl⟩ := List.exists_cons_of_ne_nil hne
    have hp : p ≠ slash := fun hp => hslash (hp ▸ List.mem_cons_self)
    simpa [Text.join] using hp

/-- Names between slashes do not end with a slash. -/
theorem getLast?_join_ne_slash : (Text.join [slash] names).getLast? ≠ some slash := by
  induction names with
  | nil => simp [Text.join]
  | cons n names ih =>
    rcases names with _ | ⟨m, ns⟩
    · rw [Text.join, List.intercalate_singleton]
      exact fun hlast => (h n List.mem_cons_self).2 (List.mem_of_getLast? hlast)
    · have hrest := ih fun m hm => h m (List.mem_cons_of_mem _ hm)
      have hne := join_ne_nil (h m (by simp)).1 ns
      have hjoin : Text.join [slash] (n :: m :: ns) =
          n ++ [slash] ++ Text.join [slash] (m :: ns) := List.intercalate_cons_cons
      rwa [hjoin, List.getLast?_append_of_ne_nil _ hne]

end

/-- A path at the root that is not the root has one slash in front and none at its end. -/
theorem IsRooted.exists_text_eq {p : Path} (h : p.IsRooted) (hne : p ≠ root) :
    ∃ c t, p.text = slash :: c :: t ∧ c ≠ slash ∧ p.text.getLast? ≠ some slash := by
  have hnames : p.names ≠ [] := fun hnil => hne (by rw [root, ← h.anchor, ← hnil])
  obtain ⟨n, ns, hcons⟩ := List.exists_cons_of_ne_nil hnames
  have hn := (h.names n (hcons ▸ List.mem_cons_self)).1
  obtain ⟨c, t, ht⟩ := List.exists_cons_of_ne_nil (hcons ▸ join_ne_nil hn ns)
  have hhead := head?_join_ne_slash h.names
  have hlast := getLast?_join_ne_slash h.names
  rw [ht] at hhead hlast
  refine ⟨c, t, by rw [h.text_eq, ht], fun hc => hhead (congrArg some hc), ?_⟩
  rwa [h.text_eq, ht, List.getLast?_cons_cons]

/-- What lies below a path that is not the root is parted from it by a slash. -/
theorem IsRooted.joinText_eq {p : Path} (h : p.IsRooted) (hne : p ≠ root) {rel : Text}
    (hrel : rel.head? ≠ some slash) : joinText p.text rel = p.text ++ slash :: rel := by
  obtain ⟨c, t, htext, -, hlast⟩ := h.exists_text_eq hne
  rw [joinText, if_neg hrel, if_neg]
  simpa [htext] using hlast

end Path

namespace FilePath

/-- What lies below a rooted path is a rooted path, unless the former is the root. -/
theorem IsPosix.below {path rel : Text} (h : IsPosix path) (hlength : 2 ≤ path.length)
    (hrel : .scalar '\x5c' ∉ rel) : IsPosix (path ++ slash :: rel) := by
  obtain ⟨t, rfl⟩ := List.head?_eq_some_iff.1 h.rooted
  rcases t with _ | ⟨second, t⟩
  · simp at hlength
  have hback : .scalar '\x5c' ∉ slash :: rel := by simpa [slash] using hrel
  refine ⟨rfl, ?_, ?_, fun letter rest hletter heq => ?_⟩
  · rintro ⟨rest, heq⟩
    obtain ⟨rfl, -⟩ := List.cons.inj (List.cons.inj heq).2
    exact h.noHost ⟨t, rfl⟩
  · exact fun hmem => (List.mem_append.1 hmem).elim h.noBackslash hback
  · obtain ⟨rfl, hthird⟩ := List.cons.inj (List.cons.inj heq).2
    rcases t with _ | ⟨third, t⟩
    · exact absurd (List.cons.inj hthird).1 (by decide)
    · obtain ⟨rfl, -⟩ := List.cons.inj hthird
      exact h.noDrive _ t hletter rfl

/-! ### The URI of a file below a root -/

/-- Below a path that is not the root lies a path without a host. -/
theorem isPosix_below {root : Path} {rel : Text} (hroot : root.IsRooted) (hne : root ≠ Path.root)
    (hback : .scalar '\x5c' ∉ root.text)
    (hdrive : ∀ letter rest, letter.isAsciiLetter = true →
      root.text ≠ .scalar '/' :: letter :: .scalar ':' :: rest)
    (hrel : .scalar '\x5c' ∉ rel) : IsPosix (root.text ++ slash :: rel) := by
  obtain ⟨c, t, htext, hc, -⟩ := hroot.exists_text_eq hne
  have hposix : IsPosix root.text := by
    refine ⟨by rw [htext]; rfl, ?_, hback, hdrive⟩
    rw [htext]
    rintro ⟨rest, heq⟩
    exact hc (List.cons.inj (List.cons.inj heq).2).1.symm
  exact hposix.below (by simp [htext]) hrel

/-- The URI of a rooted path has no authority and is read as the path. -/
theorem IsPosix.ofText_of_toUri {path u : Text} (h : IsPosix path) (hu : toUri path = .ok u) :
    ∃ parts, UriParts.ofText u = .ok parts ∧ parts.authority = [] ∧ ofUri u = .ok path := by
  obtain ⟨host, written, hhost, -, hparts⟩ := exists_ofText_of_toUri hu
  rw [hostAndPath, h.normalize_eq, hostAndPathOfNormal_of_noHost h.noHost] at hhost
  exact ⟨_, hparts, Percent.encode_nil_eq_ok_iff.1 hhost, h.ofUri_eq hu⟩

/-- The URI of a path that opens with exactly two slashes has an authority. -/
theorem authority_ne_nil_of_slashes {t u : Text} (hne : t ≠ []) (hslash : t.head? ≠ some slash)
    (hback : .scalar '\x5c' ∉ t) (hu : toUri (("//" : Text) ++ t) = .ok u) :
    ∃ parts, UriParts.ofText u = .ok parts ∧ parts.authority ≠ [] := by
  obtain ⟨host, written, hhost, -, hparts⟩ := exists_ofText_of_toUri hu
  rw [hostAndPath, normalize_of_not_mem (backslash_not_mem_slashes.2 hback),
    hostAndPathOfNormal_slashes] at hhost
  have hname : (Text.cut slash t).1 ≠ [] := by
    obtain ⟨c, t, rfl⟩ := List.exists_cons_of_ne_nil hne
    have hc : (c != slash) = true := by simpa using hslash
    rw [Text.fst_cut, List.takeWhile_cons, if_pos hc]
    exact List.cons_ne_nil _ _
  refine ⟨_, hparts, fun hnil => Text.lower_ne_nil hname ?_⟩
  obtain rfl : host = [] := hnil
  exact List.eq_nil_of_length_eq_zero (Nat.le_zero.1 (Percent.length_le_of_encode hhost))

end FilePath

namespace FileDiagnostics

/-- **Where the diagnostics of a file below a root stand.** A file that is named by a dot, a slash
and its path below a root has a URI, and the diagnostics of its problems stand with this URI. Below
every root but that of the whole file tree the URI has no authority and is read as the path of the
file below the root. Below the root of the whole file tree it has an authority, as if the file were
on a host. -/
theorem exists_ofIssues_below {root : Path} {rel : Text} (hroot : root.IsRooted)
    (hdrive : ∀ letter rest, letter.isAsciiLetter = true →
      root.text ≠ .scalar '/' :: letter :: .scalar ':' :: rest)
    (hback : .scalar '\x5c' ∉ root.text ∧ .scalar '\x5c' ∉ rel)
    (hscalar : root.text.IsScalar ∧ rel.IsScalar) (hne : rel ≠ [])
    (hslash : rel.head? ≠ some slash) :
    let file := ("./" : Text) ++ rel
    ∃ u parts, FilePath.toUri (resolvePath root.text file) = .ok u ∧
      UriParts.ofText u = .ok parts ∧
      (root ≠ Path.root →
        parts.authority = [] ∧ FilePath.ofUri u = .ok (Path.joinText root.text rel)) ∧
      (root = Path.root → parts.authority ≠ []) ∧
      ∀ issues : List Issue, (∀ i ∈ issues, i.file.IsScalar) →
        ∃ files, ofIssues root.text issues = .ok files ∧
          ∀ i ∈ issues, i.file = file → ∃ f ∈ files, f.uri = u ∧ f.diagnostics =
            (Issues.within (resolvePath root.text file)
              (issues.map (Issue.resolve root.text))).map Issue.diagnostic := by
  intro file
  have hresolved : resolvePath root.text file = root.text ++ slash :: rel := rfl
  have hpath : (root.text ++ slash :: rel).IsScalar :=
    Text.isScalar_append.2 ⟨hscalar.1, Text.isScalar_cons.2 ⟨⟨'/', rfl⟩, hscalar.2⟩⟩
  obtain ⟨u, hu⟩ := FilePath.exists_toUri_of_isScalar hpath
  rw [hresolved]
  obtain ⟨parts, hparts, hbelow, habove⟩ : ∃ parts, UriParts.ofText u = .ok parts ∧
      (root ≠ Path.root →
        parts.authority = [] ∧ FilePath.ofUri u = .ok (Path.joinText root.text rel)) ∧
      (root = Path.root → parts.authority ≠ []) := by
    by_cases htree : root = Path.root
    · rw [htree] at hu
      obtain ⟨parts, hparts, hhost⟩ :=
        FilePath.authority_ne_nil_of_slashes hne hslash hback.2 hu
      exact ⟨parts, hparts, fun h => absurd htree h, fun _ => hhost⟩
    · have hposix := FilePath.isPosix_below hroot htree hback.1 hdrive hback.2
      obtain ⟨parts, hparts, hhost, hread⟩ := hposix.ofText_of_toUri hu
      rw [← hroot.joinText_eq htree hslash] at hread
      exact ⟨parts, hparts, fun _ => ⟨hhost, hread⟩, fun h => absurd h htree⟩
  refine ⟨u, parts, hu, hparts, hbelow, habove, fun issues hissues => ?_⟩
  obtain ⟨files, hfiles⟩ := exists_ofIssues_iff.2 fun i hi =>
    (isScalar_resolvePath_iff hscalar.1).2 (hissues i hi)
  refine ⟨files, hfiles, fun i hi hfile => ?_⟩
  obtain ⟨f, hf, huri, hshown⟩ := exists_of_mem_issues hfiles hi
  rw [hfile, hresolved] at huri hshown
  exact ⟨f, hf, Except.ok.inj (huri.symm.trans hu), hshown⟩

/-- A file below a directory, with a space in its name. -/
theorem exists_ofIssues_below_directory :
    let root : Path := ⟨.root, ["w", "src"]⟩
    let i : Issue := { file := "./A b.elm", region := .fileStart, overview := "T", details := [] }
    root.IsRooted ∧ root ≠ Path.root ∧ ∃ u files, ofIssues root.text [i] = .ok files ∧
      (∃ f ∈ files, f.uri = u) ∧ FilePath.ofUri u = .ok ("/w/src/A b.elm" : Text) := by
  intro root i
  have hroot : root.IsRooted := ⟨rfl, by decide⟩
  have hne : root ≠ Path.root := by decide
  have hdrive (letter : CodePoint) (rest : Text) (_ : letter.isAsciiLetter = true) :
      root.text ≠ .scalar '/' :: letter :: .scalar ':' :: rest := fun h =>
    absurd (List.cons.inj (List.cons.inj (List.cons.inj h).2).2).1 (by decide)
  have hscalar : root.text.IsScalar ∧ Text.IsScalar "A b.elm" :=
    ⟨Text.isScalar_ofString "/w/src", Text.isScalar_ofString _⟩
  have hfile : i.file.IsScalar := Text.isScalar_ofString _
  obtain ⟨u, parts, -, -, hbelow, -, hshown⟩ := exists_ofIssues_below hroot hdrive
    ⟨by decide, by decide⟩ hscalar (by decide) (by decide)
  obtain ⟨files, hfiles, hgroups⟩ := hshown [i] (List.forall_mem_singleton.2 hfile)
  obtain ⟨f, hf, huri, -⟩ := hgroups i (List.mem_singleton_self i) rfl
  exact ⟨hroot, hne, u, files, hfiles, ⟨f, hf, huri⟩, (hbelow hne).2⟩

/-- Below the root of the whole file tree the name of a file is taken for a host. -/
theorem ofIssues_below_root :
    let i : Issue := { file := "./A.elm", region := .fileStart, overview := "T", details := [] }
    Path.root.IsRooted ∧ resolvePath Path.root.text i.file = ("//A.elm" : Text) ∧
      (∃ f, ofIssues Path.root.text [i] = .ok [f] ∧ f.uri = ("file://a.elm/" : Text)) ∧
      (∃ parts, UriParts.ofText "file://a.elm/" = .ok parts ∧
        parts.authority = ("a.elm" : Text)) ∧
      FilePath.ofUri "file://a.elm/" ≠ .ok (Path.joinText Path.root.text "A.elm") :=
  ⟨⟨rfl, nofun⟩, rfl, ⟨_, rfl, rfl⟩, ⟨_, rfl, rfl⟩, by decide⟩

end FileDiagnostics

end ElmReport
