import ElmReport.FileTree.Path
import ElmReport.Proofs.FileUri.Trip

/-!
# Paths that come back from their URI

A path at the root that is written as a URI and read again is often the same path, but a backslash
comes back as a slash, a drive without the slash in front of it, and a host in small letters and
encoded. The paths that come back as they are have none of these.

## Main definitions

* `FilePath.IsKept`: the paths at the root that come back as they are.

## Main results

* `FilePath.ofUri_eq_self_iff`: which paths at the root come back as they are.
-/

namespace ElmReport

namespace FilePath

open Percent

/-- A path at the root that comes back from its URI as it is: a path without backslashes, host and
drive, or one without backslashes on a plain host in small letters. -/
def IsKept (path : Text) : Prop :=
  IsPosix path ∨ ∃ host rest, path = ("//" : Text) ++ (host ++ .scalar '/' :: rest) ∧
    IsPlainHost host ∧ host.map CodePoint.asciiLower = host ∧ .scalar '\x5c' ∉ rest

/-- A path on a plain host in small letters is read as it was. -/
theorem ofUri_eq_of_plainHost {host rest u : Text} (h : IsPlainHost host)
    (hsmall : host.map CodePoint.asciiLower = host) (hback : .scalar '\x5c' ∉ rest)
    (hu : toUri (("//" : Text) ++ (host ++ .scalar '/' :: rest)) = .ok u) :
    ofUri u = .ok (("//" : Text) ++ (host ++ .scalar '/' :: rest)) := by
  have hnormal : .scalar '\x5c' ∉ ("//" : Text) ++ (host ++ .scalar '/' :: rest) := by
    have hhost : .scalar '\x5c' ∉ host := fun hmem => absurd (h.isUnreserved _ hmem) (by decide)
    exact backslash_not_mem_slashes.2 (by simpa [hhost] using hback)
  have hpath : hostAndPath (("//" : Text) ++ (host ++ .scalar '/' :: rest)) =
      (host.lower, .scalar '/' :: rest) := by
    rw [hostAndPath, normalize_of_not_mem hnormal, hostAndPathOfNormal_of_host h.slash_not_mem]
  have hread := ofUri_of_host hu h hpath
  rwa [hsmall] at hread

section

variable {path rest : Text}

/-- A path without a host that comes back is the rooted path of its URI. -/
theorem isPosix_of_ofParts_eq (hslash : path.head? = some slash)
    (hpath : hostAndPath path = ([], rest)) (h : ofParts [] rest = path) : IsPosix path := by
  obtain ⟨tail, htail⟩ := exists_slash_path path
  have hback := backslash_not_mem_path path
  rw [hpath] at htail hback
  obtain rfl : rest = .scalar '/' :: tail := htail
  have hdrive : drive? (.scalar '/' :: tail) = none := by
    rcases hdrive : drive? (.scalar '/' :: tail) with _ | ⟨letter, after⟩
    · rfl
    -- A drive loses the slash in front of it, and its letter is no slash.
    · obtain ⟨hletter, heq⟩ := (drive?_rooted_eq_some_iff (t := .scalar '/' :: tail)).1 hdrive
      obtain rfl : tail = letter :: .scalar ':' :: after := (List.cons.inj heq).2
      have hlost : path = letter :: .scalar ':' :: after := by
        rw [← h]
        simp [ofParts, hdrive]
      rw [hlost] at hslash
      exact absurd (Option.some.inj hslash) (CodePoint.ne_slash_of_isAsciiLetter hletter)
  have hkept : path = .scalar '/' :: tail := by
    rw [← h]
    simp [ofParts, hdrive]
  rw [← hkept] at hback hdrive
  refine ⟨by rw [hkept]; rfl, ?_, hback, fun letter after hletter heq => ?_⟩
  · rintro ⟨t, ht⟩
    rw [← ht] at hback
    refine hostAndPath_ofParts_of_slashes t hback ?_
    rw [ht, hkept, h, hpath, ← hkept]
  · cases hdrive.symm.trans (drive?_eq_some_iff.2 ⟨hletter, .inl heq⟩)

/-- A path that comes back with a host is on a plain host in small letters. -/
theorem isKept_of_ofParts_eq {host : Text} (hne : host ≠ [])
    (hhost : encode (hostAndPath path).1 = .ok host)
    (h : ofParts host (hostAndPath path).2 = path) : IsKept path := by
  obtain ⟨tail, htail⟩ := exists_slash_path path
  have hback := backslash_not_mem_path path
  have hslash := (encodes_of_encode hhost).slash_not_mem (slash_not_mem_host path)
  have hagain := hostAndPath_ofParts_of_host hne (isWritten_of_encode hhost) hslash
    (htail ▸ hback)
  rw [← htail, h] at hagain
  -- The host that the path names is no longer than its encoding, so nothing in it is encoded.
  rw [hagain] at hhost
  have hplain := isUnreserved_of_length_le hhost (by simp)
  have hsmall := Except.ok.inj ((encode_of_isUnreserved hplain).symm.trans hhost)
  rw [hsmall] at hplain
  refine .inr ⟨host, tail, ?_, ⟨hne, hplain, hslash⟩, hsmall, fun hmem => ?_⟩
  · rw [← h, htail]
    simp [ofParts, hne]
  · rw [htail] at hback
    exact hback (List.mem_cons_of_mem _ hmem)

end

/-- **Which paths come back.** A path at the root is read from its URI as it is exactly when it has
no backslashes and either neither host nor drive, or a plain host in small letters. -/
theorem ofUri_eq_self_iff {path u : Text} (hslash : path.head? = some slash)
    (hu : toUri path = .ok u) : ofUri u = .ok path ↔ IsKept path := by
  obtain ⟨host, hhost, hread⟩ := ofUri_of_toUri hu
  constructor
  · intro h
    have hparts := Except.ok.inj (hread.symm.trans h)
    by_cases hne : host = []
    · subst hne
      have hpath : hostAndPath path = ([], (hostAndPath path).2) :=
        Prod.ext (encode_injective hhost rfl) rfl
      exact .inl (isPosix_of_ofParts_eq hslash hpath hparts)
    · exact isKept_of_ofParts_eq hne hhost hparts
  · rintro (hposix | ⟨host, rest, rfl, hplain, hsmall, hback⟩)
    · exact hposix.ofUri_eq hu
    · exact ofUri_eq_of_plainHost hplain hsmall hback hu

end FilePath

end ElmReport
