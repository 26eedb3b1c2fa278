import ElmReport.Proofs.FileUri.Reading
import ElmReport.Proofs.FileUri.RoundTrip

/-!
# Which paths share a URI

A path names a file: a host in small letters, which may be missing, and a path on it, which opens
with a slash and in which the letter of a drive is small. Backslashes and slashes name the same, and
so do a relative path and the rooted one. Every path names one file, and two paths have the same URI
exactly when they name the same file, so files that differ in any other way never share a URI.

## Main definitions

* `FilePath.Names`: the file that a path with slashes only names.

## Main results

* `FilePath.names_iff`: every path names one file, its host and its rooted path.
* `FilePath.toUri_eq_iff_names`: which paths have the same URI.
-/

namespace ElmReport.FilePath

open Percent

/-- The file that a path with slashes only names, as a host and a path on it. After two slashes the
host reaches to the next slash, and where none follows, the path on it is a single slash. -/
inductive Names : Text → Text × Text → Prop
  | host {a r : Text} (ha : .scalar '/' ∉ a) :
      Names (("//" : Text) ++ (a ++ .scalar '/' :: r)) (a.lower, .scalar '/' :: r)
  | bareHost {a : Text} (ha : .scalar '/' ∉ a) :
      Names (("//" : Text) ++ a) (a.lower, [.scalar '/'])
  | drive {t rest : Text} {letter : CodePoint} (hletter : letter.isAsciiLetter = true)
      (ht : t = letter :: .scalar ':' :: rest ∨ t = .scalar '/' :: letter :: .scalar ':' :: rest) :
      Names t ([], .scalar '/' :: letter.asciiLower :: .scalar ':' :: rest)
  | rooted {t : Text} (hslash : t.head? ≠ some (.scalar '/')) (hdrive : ¬ OpensWithDrive t) :
      Names (.scalar '/' :: t) ([], .scalar '/' :: t)
  | relative {t : Text} (hslash : t.head? ≠ some (.scalar '/')) (hdrive : ¬ OpensWithDrive t) :
      Names t ([], .scalar '/' :: t)

/-! ### Every path names one file -/

theorem exists_names (t : Text) : ∃ n, Names t n := by
  by_cases hhost : ("//" : Text) <+: t
  · obtain ⟨u, rfl⟩ := hhost
    by_cases hslash : .scalar '/' ∈ u
    · obtain ⟨a, r, rfl, ha⟩ := List.eq_append_cons_of_mem hslash
      exact ⟨_, .host ha⟩
    · exact ⟨_, .bareHost hslash⟩
  by_cases hslash : t.head? = some (.scalar '/')
  · obtain ⟨u, rfl⟩ := List.head?_eq_some_iff.1 hslash
    have hsecond : u.head? ≠ some (.scalar '/') := by
      intro h
      obtain ⟨v, rfl⟩ := List.head?_eq_some_iff.1 h
      exact hhost ⟨v, rfl⟩
    by_cases hdrive : OpensWithDrive u
    · obtain ⟨letter, rest, hletter, rfl⟩ := hdrive
      exact ⟨_, .drive hletter (.inr rfl)⟩
    · exact ⟨_, .rooted hsecond hdrive⟩
  · by_cases hdrive : OpensWithDrive t
    · obtain ⟨letter, rest, hletter, rfl⟩ := hdrive
      exact ⟨_, .drive hletter (.inl rfl)⟩
    · exact ⟨_, .relative hslash hdrive⟩

theorem Names.hostAndPathOfNormal_eq {t : Text} {n : Text × Text} (h : Names t n) :
    hostAndPathOfNormal t = n := by
  cases h with
  | host ha => exact hostAndPathOfNormal_of_host ha _
  | bareHost ha => exact hostAndPathOfNormal_of_bareHost ha
  | @drive _ rest letter hletter ht =>
    have hhead : (letter :: .scalar ':' :: rest).head? ≠ some (.scalar '/') :=
      fun h => CodePoint.ne_slash_of_isAsciiLetter hletter (Option.some.inj h)
    obtain ⟨hbare, hslash⟩ := hostAndPathOfNormal_of_head?_ne hhead
    rw [← lowerDrive_of_drive hletter]
    rcases ht with rfl | rfl
    · exact hbare
    · exact hslash
  | rooted hslash hdrive =>
    rw [(hostAndPathOfNormal_of_head?_ne hslash).2, lowerDrive_of_noDrive hdrive]
  | relative hslash hdrive =>
    rw [(hostAndPathOfNormal_of_head?_ne hslash).1, lowerDrive_of_noDrive hdrive]

/-- Every path names one file. -/
theorem names_iff {t : Text} {n : Text × Text} : Names t n ↔ hostAndPathOfNormal t = n := by
  refine ⟨Names.hostAndPathOfNormal_eq, ?_⟩
  rintro rfl
  obtain ⟨n, hn⟩ := exists_names t
  rwa [hn.hostAndPathOfNormal_eq]

/-! ### Paths with the same URI -/

/-- **Which paths have the same URI.** Two paths without lone surrogates have URIs, and these are
equal exactly when both paths name the same file. -/
theorem toUri_eq_iff_names {p q : Text} (hp : p.IsScalar) (hq : q.IsScalar) :
    ∃ u v, toUri p = .ok u ∧ toUri q = .ok v ∧
      (u = v ↔ ∃ n, Names (normalize p) n ∧ Names (normalize q) n) := by
  obtain ⟨u, hu⟩ := exists_toUri_of_isScalar hp
  obtain ⟨v, hv⟩ := exists_toUri_of_isScalar hq
  refine ⟨u, v, hu, hv, ?_⟩
  simp only [uri_eq_iff hu hv, names_iff, exists_eq_left']
  rw [eq_comm]
  rfl

/-- A share in capitals with backslashes has the URI of the share in small letters, and a drive in
capitals behind an empty host another than the drive alone. -/
theorem toUri_eq_iff_names_share :
    (∃ u, toUri "\\\\HOST\\a b" = .ok u ∧ toUri "//host/a b" = .ok u) ∧
      ∃ u v, toUri "///C:/x" = .ok u ∧ toUri "C:/x" = .ok v ∧ u ≠ v := by
  obtain ⟨u, v, hu, hv, hsame⟩ := toUri_eq_iff_names
    (Text.isScalar_ofString "\\\\HOST\\a b") (Text.isScalar_ofString "//host/a b")
  obtain ⟨u', v', hu', hv', hother⟩ := toUri_eq_iff_names
    (Text.isScalar_ofString "///C:/x") (Text.isScalar_ofString "C:/x")
  refine ⟨⟨v, hsame.2 ⟨("host", "/a b"), names_iff.2 rfl, names_iff.2 rfl⟩ ▸ hu, hv⟩,
    u', v', hu', hv', fun huri => ?_⟩
  obtain ⟨n, hleft, hright⟩ := hother.1 huri
  have hcapital : n = (([] : Text), ("/C:/x" : Text)) := (names_iff.1 hleft).symm
  have hsmall : n = (([] : Text), ("/c:/x" : Text)) := (names_iff.1 hright).symm
  exact absurd (hcapital.symm.trans hsmall) (by decide)

end ElmReport.FilePath
