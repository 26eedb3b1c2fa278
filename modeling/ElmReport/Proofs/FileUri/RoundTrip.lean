import ElmReport.Proofs.FileUri.Written

/-!
# From a path to its URI and back

The path of the URI of a path is the path with slashes only, rooted, except that a drive loses the
slash in front of it and gets a small letter, and a host gets small letters. A rooted path without
backslashes, host and drive comes back as it is, whatever code points it is made of.

## Main definitions

* `FilePath.restored`: what a path without a host comes back as.
* `FilePath.IsPlainHost`: the hosts that are written as they are, in small letters.
* `FilePath.IsPosix`: the rooted paths that come back unchanged.

## Main results

* `FilePath.ofUri_toUri`: what every path comes back as.
-/

namespace ElmReport

theorem Percent.isUnreserved_asciiLower {p : CodePoint} (h : isUnreserved p = true) :
    isUnreserved p.asciiLower = true :=
  CodePoint.of_forall_ascii (P := fun p => isUnreserved p = true → isUnreserved p.asciiLower = true)
    (by decide +kernel) (isAscii_of_isUnreserved h) h

namespace FilePath

open Percent

/-- What a path with slashes only and without a host comes back as: rooted, or without the slash in
front of a drive, which gets a small letter. -/
def restored (t : Text) : Text :=
  match rooted t with
  | .scalar '/' :: letter :: .scalar ':' :: rest =>
    if letter.isAsciiLetter then letter.asciiLower :: .scalar ':' :: rest else rooted t
  | _ => rooted t

/-- A host that is not empty and is made of ASCII letters, digits and the marks `_`, `.`, `-` and
`~` only. -/
structure IsPlainHost (host : Text) : Prop where
  ne_nil : host ≠ []
  isUnreserved : ∀ p ∈ host, Percent.isUnreserved p = true
  slash_not_mem : .scalar '/' ∉ host

/-- A path with one slash in front, without backslashes and without a drive. -/
structure IsPosix (path : Text) : Prop where
  rooted : path.head? = some (.scalar '/')
  noHost : ¬ ("//" : Text) <+: path
  noBackslash : .scalar '\x5c' ∉ path
  noDrive : ∀ letter rest, letter.isAsciiLetter = true →
    path ≠ .scalar '/' :: letter :: .scalar ':' :: rest

/-! ### Paths without a host -/

theorem drive?_rooted_eq_some_iff {t rest : Text} {letter : CodePoint} :
    drive? (rooted t) = some (letter, rest) ↔ letter.isAsciiLetter = true ∧
      rooted t = .scalar '/' :: letter :: .scalar ':' :: rest := by
  rw [drive?_eq_some_iff]
  refine and_congr_right fun hletter => or_iff_left fun h => ?_
  obtain ⟨tail, htail⟩ := exists_rooted_eq t
  exact CodePoint.ne_slash_of_isAsciiLetter hletter (List.cons.inj (h.symm.trans htail)).1

/-- Reading takes away the slash that writing has put in front of a drive. -/
theorem ofParts_lowerDrive_rooted (t : Text) : ofParts [] (lowerDrive (rooted t)) = restored t := by
  cases hdrive : drive? (rooted t) with
  | some found =>
    obtain ⟨letter, rest⟩ := found
    obtain ⟨hletter, hrooted⟩ := drive?_rooted_eq_some_iff.1 hdrive
    have hwritten : lowerDrive (rooted t) =
        .scalar '/' :: letter.asciiLower :: .scalar ':' :: rest := by
      rw [lowerDrive, hdrive]
    have hrestored : restored t = letter.asciiLower :: .scalar ':' :: rest := by
      simp [restored, hrooted, hletter]
    have hlower := drive?_slash (CodePoint.isAsciiLetter_asciiLower hletter) rest
    simp [hwritten, hrestored, ofParts, hlower]
  | none =>
    have hplain : restored t = rooted t := by
      unfold restored
      split
      · next letter rest hrooted =>
        split_ifs with hletter
        · have hsome := drive?_rooted_eq_some_iff.2 ⟨hletter, hrooted⟩
          cases hdrive.symm.trans hsome
        · rfl
      · rfl
    simp [lowerDrive, ofParts, hdrive, hplain]

theorem hostAndPathOfNormal_of_noHost {t : Text} (h : ¬ ("//" : Text) <+: t) :
    hostAndPathOfNormal t = ([], lowerDrive (rooted t)) := by
  rw [hostAndPathOfNormal.eq_def]
  split
  · next t => exact absurd ⟨t, rfl⟩ h
  · rfl

section

variable {t : Text} (h : t.head? ≠ some (.scalar '/'))

include h

theorem not_slashes_of_head?_ne : ¬ ("//" : Text) <+: t := by
  rintro ⟨u, rfl⟩
  exact h rfl

theorem not_slashes_slash : ¬ ("//" : Text) <+: .scalar '/' :: t := by
  rintro ⟨u, heq⟩
  rw [← (List.cons.inj heq).2] at h
  exact h rfl

/-- A relative path names what the rooted path names. -/
theorem hostAndPathOfNormal_of_head?_ne :
    hostAndPathOfNormal t = ([], lowerDrive (.scalar '/' :: t)) ∧
      hostAndPathOfNormal (.scalar '/' :: t) = ([], lowerDrive (.scalar '/' :: t)) := by
  rw [hostAndPathOfNormal_of_noHost (not_slashes_of_head?_ne h), rooted_of_head?_ne h,
    hostAndPathOfNormal_of_noHost (not_slashes_slash h)]
  exact ⟨rfl, rfl⟩

end

theorem ofUri_of_noHost {path u : Text} (hu : toUri path = .ok u)
    (h : ¬ ("//" : Text) <+: normalize path) : ofUri u = .ok (restored (normalize path)) := by
  obtain ⟨host, hhost, hread⟩ := ofUri_of_toUri hu
  rw [hostAndPath, hostAndPathOfNormal_of_noHost h] at hhost hread
  obtain rfl := encode_nil_eq_ok_iff.1 hhost
  rw [hread, ofParts_lowerDrive_rooted]

/-- A path without backslashes has slashes only. -/
theorem normalize_of_not_mem {path : Text} (h : .scalar '\x5c' ∉ path) : normalize path = path := by
  have hkeep (p : CodePoint) (hp : p ∈ path) :
      (if p = .scalar '\x5c' then .scalar '/' else p) = p := by
    rw [if_neg]
    rintro rfl
    exact h hp
  rw [normalize, Text.substitute, List.map_congr_left hkeep, List.map_id']

theorem backslash_not_mem_slashes {t : Text} :
    .scalar '\x5c' ∉ ("//" : Text) ++ t ↔ .scalar '\x5c' ∉ t := by
  simp [Text.ofString]

theorem IsPosix.normalize_eq {path : Text} (h : IsPosix path) : normalize path = path :=
  normalize_of_not_mem h.noBackslash

theorem IsPosix.restored_eq {path : Text} (h : IsPosix path) : restored path = path := by
  have hrooted : FilePath.rooted path = path := by
    unfold FilePath.rooted
    split
    · rfl
    · next hslash =>
      obtain ⟨tail, rfl⟩ := List.head?_eq_some_iff.1 h.rooted
      exact absurd rfl (hslash tail)
  rw [restored, hrooted]
  split
  · next letter rest => rw [if_neg fun hletter => h.noDrive letter rest hletter rfl]
  · rfl

/-- The URI of a rooted path without backslashes, host and drive is read as the path. -/
theorem IsPosix.ofUri_eq {path u : Text} (h : IsPosix path) (hu : toUri path = .ok u) :
    ofUri u = .ok path := by
  have hread := ofUri_of_noHost hu (h.normalize_eq.symm ▸ h.noHost)
  rwa [h.normalize_eq, h.restored_eq] at hread

/-! ### Paths with a host -/

theorem hostAndPathOfNormal_slashes (t : Text) : hostAndPathOfNormal (("//" : Text) ++ t) =
    ((Text.cut (.scalar '/') t).1.lower, .scalar '/' :: (Text.cut (.scalar '/') t).2.getD []) :=
  rfl

theorem hostAndPathOfNormal_of_host {host : Text} (h : .scalar '/' ∉ host) (rest : Text) :
    hostAndPathOfNormal (("//" : Text) ++ (host ++ .scalar '/' :: rest)) =
      (host.lower, .scalar '/' :: rest) := by
  rw [hostAndPathOfNormal_slashes, Text.cut_append_cons h, Option.getD_some]

theorem hostAndPathOfNormal_of_bareHost {host : Text} (h : .scalar '/' ∉ host) :
    hostAndPathOfNormal (("//" : Text) ++ host) = (host.lower, [.scalar '/']) := by
  rw [hostAndPathOfNormal_slashes, Text.cut_of_not_mem h, Option.getD_none]

/-- A plain host is written as it is, in small letters. -/
theorem IsPlainHost.encode_lower {host : Text} (h : IsPlainHost host) :
    Percent.encode host.lower = .ok (host.map CodePoint.asciiLower) := by
  have hascii (p : CodePoint) (hp : p ∈ host) : p.val < 0x80 :=
    isAscii_of_isUnreserved (h.isUnreserved p hp)
  rw [Text.lower_of_ascii hascii]
  apply encode_of_isUnreserved
  intro p hp
  obtain ⟨q, hq, rfl⟩ := List.mem_map.1 hp
  exact isUnreserved_asciiLower (h.isUnreserved q hq)

theorem ofUri_of_host {path u host rest : Text} (hu : toUri path = .ok u) (h : IsPlainHost host)
    (hpath : hostAndPath path = (host.lower, .scalar '/' :: rest)) :
    ofUri u =
      .ok (("//" : Text) ++ (host.map CodePoint.asciiLower ++ .scalar '/' :: rest)) := by
  obtain ⟨written, hwritten, hread⟩ := ofUri_of_toUri hu
  rw [hpath] at hwritten hread
  obtain rfl := Except.ok.inj (h.encode_lower.symm.trans hwritten)
  rw [hread, ofParts]
  simp [h.ne_nil]

/-! ### Every path -/

/-- **A path comes back from its URI**, with slashes only: without a host as `restored` says, and
with a plain host in small letters and the path on it unchanged. A rooted path without backslashes,
host and drive comes back as it is. -/
theorem ofUri_toUri {path : Text} (h : path.IsScalar) : ∃ u, toUri path = .ok u ∧
    (¬ ("//" : Text) <+: normalize path → ofUri u = .ok (restored (normalize path))) ∧
    (∀ host rest, IsPlainHost host →
      (normalize path = ("//" : Text) ++ (host ++ .scalar '/' :: rest) ∨
        normalize path = ("//" : Text) ++ host ∧ rest = []) →
      ofUri u = .ok (("//" : Text) ++ (host.map CodePoint.asciiLower ++ .scalar '/' :: rest))) ∧
    (IsPosix path → ofUri u = .ok path) := by
  obtain ⟨u, hu⟩ := exists_toUri_of_isScalar h
  refine ⟨u, hu, ofUri_of_noHost hu, ?_, ?_⟩
  · rintro host rest hhost (hnormal | ⟨hnormal, rfl⟩)
    · refine ofUri_of_host hu hhost ?_
      rw [hostAndPath, hnormal, hostAndPathOfNormal_of_host hhost.slash_not_mem]
    · refine ofUri_of_host hu hhost ?_
      rw [hostAndPath, hnormal, hostAndPathOfNormal_of_bareHost hhost.slash_not_mem]
  · intro hposix
    have hread := ofUri_of_noHost hu (hposix.normalize_eq.symm ▸ hposix.noHost)
    rwa [hposix.normalize_eq, hposix.restored_eq] at hread

/-- A drive with backslashes, a host with capitals, and a path with what a URI writes otherwise. -/
theorem ofUri_toUri_read :
    (∃ u, toUri ("C:\\a b" : Text) = .ok u ∧ ofUri u = .ok ("c:/a b" : Text)) ∧
    (∃ u, toUri ("//Host-1/A?" : Text) = .ok u ∧ ofUri u = .ok ("//host-1/A?" : Text)) ∧
    (∃ u, toUri ("/a%20#é\n" : Text) = .ok u ∧ ofUri u = .ok ("/a%20#é\n" : Text)) := by
  refine ⟨?_, ?_, ?_⟩
  · obtain ⟨u, hu, hplain, -⟩ := ofUri_toUri (Text.isScalar_ofString "C:\\a b")
    exact ⟨u, hu, hplain (by decide)⟩
  · obtain ⟨u, hu, -, hhost, -⟩ := ofUri_toUri (Text.isScalar_ofString "//Host-1/A?")
    exact ⟨u, hu, hhost "Host-1" "A?" ⟨by decide, by decide, by decide⟩ (.inl rfl)⟩
  · obtain ⟨u, hu, -, -, hposix⟩ := ofUri_toUri (Text.isScalar_ofString "/a%20#é\n")
    refine ⟨u, hu, hposix ⟨rfl, by decide, by decide, ?_⟩⟩
    rintro letter rest - hdrive
    exact absurd hdrive (by simp [Text.ofString])

end FilePath

end ElmReport
