import ElmReport.Proofs.FileUri.RoundTrip
import ElmReport.Proofs.FileUri.Scalar

/-!
# URIs on a trip through paths

A URI that was written is read as a path, and this path is written again. Reading decodes the path
of a URI but not its authority, so a host is encoded a second time, and comes back only if nothing
in it is encoded at all. Without a host the rooted path is taken for one with a host when it opens
with two slashes, and a drive behind an empty host keeps its capital letter on the first way only.
Every other URI comes back as it was.

## Main definitions

* `FilePath.ComesBack`: the hosts and rooted paths whose URI comes back.

## Main results

* `Percent.isUnreserved_of_length_le`: an encoding is longer than a text with reserved code points.
* `FilePath.toUri_ofUri_iff_comesBack`: which URIs come back from a trip through paths.
-/

namespace ElmReport

namespace Percent

/-! ### The length of an encoding -/

/-- A reserved scalar value takes up more than one code point. -/
theorem one_lt_length_of_reserved {c : Char} (hc : isUnreserved (.scalar c) = false) :
    1 < ((Utf8.encode c).flatMap encodeByte).length := by
  obtain ⟨b, bytes, hbytes⟩ := List.exists_cons_of_ne_nil (Utf8.encode_ne_nil c)
  have hb : b ∈ Utf8.encode c := hbytes ▸ List.mem_cons_self
  rw [hbytes, List.flatMap_cons, encodeByte_of_reserved (not_isUnreserved_of_mem_encode hc hb),
    List.length_append]
  exact Nat.lt_of_lt_of_le (by decide) (Nat.le_add_right 3 _)

theorem length_le_of_encode {t e : Text} (h : encode t = .ok e) : t.length ≤ e.length := by
  obtain ⟨cs, rfl⟩ := Text.isScalar_iff.1 (isScalar_of_encode h)
  rw [encode_map_scalar, Except.ok.injEq] at h
  subst h
  induction cs with
  | nil => exact Nat.le_refl 0
  | cons c cs ih =>
    have hc : 1 ≤ ((Utf8.encode c).flatMap encodeByte).length := by
      by_cases hself : isUnreserved (.scalar c) = true
      · rw [flatMap_encodeByte_of_isUnreserved hself, List.length_singleton]
      · exact (one_lt_length_of_reserved (by simpa using hself)).le
    simp only [List.map_cons, List.length_cons, List.flatMap_cons, List.length_append]
    omega

/-- A text that is no shorter than its encoding has nothing to encode. -/
theorem isUnreserved_of_length_le {t e : Text} (h : encode t = .ok e)
    (hlength : e.length ≤ t.length) : ∀ p ∈ t, isUnreserved p = true := by
  obtain ⟨cs, rfl⟩ := Text.isScalar_iff.1 (isScalar_of_encode h)
  rw [encode_map_scalar, Except.ok.injEq] at h
  subst h
  induction cs with
  | nil => simp
  | cons c cs ih =>
    have hrest := length_le_of_encode (encode_map_scalar cs)
    simp only [List.map_cons, List.length_cons, List.flatMap_cons, List.length_append] at hlength
    by_cases hself : isUnreserved (.scalar c) = true
    · rw [flatMap_encodeByte_of_isUnreserved hself, List.length_singleton] at hlength
      exact List.forall_mem_cons.2 ⟨hself, ih (by omega)⟩
    · have hlong := one_lt_length_of_reserved (by simpa using hself)
      omega

end Percent

namespace FilePath

open Percent

/-- A host and the rooted path on it whose URI comes back from a trip through paths: nothing in the
host is encoded, and without a host the path neither looks like one with a host nor opens with a
drive in capitals. -/
structure ComesBack (host path : Text) : Prop where
  plain : ∀ p ∈ host, isUnreserved p = true
  noHost : host = [] → ¬ ("//" : Text) <+: path
  smallDrive : host = [] → ∀ letter rest, letter.isAsciiLetter = true →
    path = .scalar '/' :: letter :: .scalar ':' :: rest → letter.asciiLower = letter

/-! ### Paths with slashes only -/

theorem backslash_not_mem_normalize (path : Text) : .scalar '\x5c' ∉ normalize path := by
  intro h
  obtain ⟨p, -, hp⟩ := List.mem_map.1 h
  split_ifs at hp with hback
  · exact absurd hp (by decide)
  · exact hback hp

/-- No backslash stands in the rooted path on a host. -/
theorem backslash_not_mem_path (path : Text) : .scalar '\x5c' ∉ (hostAndPath path).2 := by
  have hnormal := backslash_not_mem_normalize path
  rw [hostAndPath]
  generalize normalize path = normal at hnormal
  rw [hostAndPathOfNormal.eq_def]
  split
  · next t =>
    intro h
    rcases List.mem_cons.1 h with h | h
    · exact absurd h (by decide)
    · have ht := (Text.sublist_cut _ t).2.subset h
      exact hnormal (List.mem_cons_of_mem _ (List.mem_cons_of_mem _ ht))
  · have hrooted : .scalar '\x5c' ∉ rooted normal := by
      unfold rooted
      split
      · exact hnormal
      · simpa using hnormal
    rw [lowerDrive]
    split
    · next letter rest hdrive =>
      obtain ⟨hletter, hcons⟩ := drive?_rooted_eq_some_iff.1 hdrive
      rw [hcons] at hrooted
      have hsmall : CodePoint.scalar '\x5c' ≠ letter.asciiLower := fun h =>
        absurd (CodePoint.isAsciiLetter_asciiLower hletter) (by rw [← h]; decide)
      simp only [List.mem_cons, not_or] at hrooted ⊢
      exact ⟨hrooted.1, hsmall, hrooted.2.2⟩
    · exact hrooted

/-- The host that a path names is in small letters. -/
theorem map_asciiLower_host (path : Text) :
    (hostAndPath path).1.map CodePoint.asciiLower = (hostAndPath path).1 := by
  rw [hostAndPath, hostAndPathOfNormal.eq_def]
  split
  · exact Text.map_asciiLower_lower _
  · rfl

/-! ### The path of a URI, written again -/

section

variable {tail : Text}

/-- A path in which a host was encoded is written with the encoded host. -/
theorem hostAndPath_ofParts_of_host {host : Text} (hne : host ≠ [])
    (hhost : ∀ p ∈ host, IsWritten p) (hslash : .scalar '/' ∉ host)
    (htail : .scalar '\x5c' ∉ CodePoint.scalar '/' :: tail) :
    hostAndPath (ofParts host (.scalar '/' :: tail)) =
      (host.map CodePoint.asciiLower, .scalar '/' :: tail) := by
  have hback : .scalar '\x5c' ∉ host := fun h => absurd (hhost _ h) (by decide)
  have hparts : ofParts host (.scalar '/' :: tail) =
      ("//" : Text) ++ (host ++ .scalar '/' :: tail) := by
    simp [ofParts, hne]
  have hnormal : .scalar '\x5c' ∉ ("//" : Text) ++ (host ++ .scalar '/' :: tail) :=
    backslash_not_mem_slashes.2 fun hmem => (List.mem_append.1 hmem).elim hback htail
  rw [hparts, hostAndPath, normalize_of_not_mem hnormal, hostAndPathOfNormal_of_host hslash,
    Text.lower_of_ascii fun p hp => (hhost p hp).val_lt]

/-- A rooted path that opens with two slashes is taken for one with a host. -/
theorem hostAndPath_ofParts_of_slashes (t : Text)
    (hback : .scalar '\x5c' ∉ ("//" : Text) ++ t) :
    hostAndPath (ofParts [] (("//" : Text) ++ t)) ≠ ([], ("//" : Text) ++ t) := by
  have hdrive : drive? (("//" : Text) ++ t) = none :=
    drive?_slash_of_noDrive (not_opensWithDrive_slash t)
  have hparts : ofParts [] (("//" : Text) ++ t) = ("//" : Text) ++ t := by
    simp [ofParts, hdrive]
  rw [hparts, hostAndPath, normalize_of_not_mem hback, hostAndPathOfNormal_slashes]
  intro h
  -- The path on the host is at least one slash shorter.
  have hlength := congrArg List.length (Prod.mk.inj h).2
  have hle := (Text.sublist_cut (.scalar '/') t).2.length_le
  simp [Text.ofString] at hlength
  omega

/-- A rooted path that opens with a drive is written with a small letter. -/
theorem hostAndPath_ofParts_of_drive {letter : CodePoint} (hletter : letter.isAsciiLetter = true)
    (hback : .scalar '\x5c' ∉ CodePoint.scalar '/' :: letter :: .scalar ':' :: tail) :
    hostAndPath (ofParts [] (.scalar '/' :: letter :: .scalar ':' :: tail)) =
      ([], .scalar '/' :: letter.asciiLower :: .scalar ':' :: tail) := by
  have hparts : ofParts [] (.scalar '/' :: letter :: .scalar ':' :: tail) =
      letter :: .scalar ':' :: tail := by
    simp [ofParts, drive?_slash hletter]
  have hhead : (letter :: .scalar ':' :: tail).head? ≠ some (.scalar '/') :=
    fun h => CodePoint.ne_slash_of_isAsciiLetter hletter (Option.some.inj h)
  rw [hparts, hostAndPath, normalize_of_not_mem (fun h => hback (List.mem_cons_of_mem _ h)),
    (hostAndPathOfNormal_of_head?_ne hhead).1, lowerDrive_of_drive hletter]

/-- Every other rooted path is written as it is. -/
theorem hostAndPath_ofParts_of_plain (hback : .scalar '\x5c' ∉ CodePoint.scalar '/' :: tail)
    (hnoHost : ¬ ("//" : Text) <+: .scalar '/' :: tail)
    (hdrive : drive? (.scalar '/' :: tail) = none) :
    hostAndPath (ofParts [] (.scalar '/' :: tail)) = ([], .scalar '/' :: tail) := by
  have hparts : ofParts [] (.scalar '/' :: tail) = .scalar '/' :: tail := by
    simp [ofParts, hdrive]
  have hrooted : rooted (.scalar '/' :: tail) = .scalar '/' :: tail := rfl
  rw [hparts, hostAndPath, normalize_of_not_mem hback, hostAndPathOfNormal_of_noHost hnoHost,
    hrooted, lowerDrive, hdrive]

end

/-- Without a host the path of a URI is written as the same path, unless it looks like one with a
host or opens with a drive in capitals. -/
theorem hostAndPath_ofParts_iff_of_noHost {path rest : Text} (h : hostAndPath path = ([], rest)) :
    hostAndPath (ofParts [] rest) = ([], rest) ↔ ComesBack [] rest := by
  obtain ⟨tail, htail⟩ := exists_slash_path path
  have hback := backslash_not_mem_path path
  rw [h] at htail hback
  obtain rfl : rest = .scalar '/' :: tail := htail
  by_cases hslashes : ("//" : Text) <+: CodePoint.scalar '/' :: tail
  · refine iff_of_false ?_ fun h => h.noHost rfl hslashes
    obtain ⟨t, ht⟩ := hslashes
    rw [← ht] at hback ⊢
    exact hostAndPath_ofParts_of_slashes t hback
  rcases hdrive : drive? (.scalar '/' :: tail) with _ | ⟨letter, after⟩
  · refine iff_of_true (hostAndPath_ofParts_of_plain hback hslashes hdrive)
      ⟨nofun, fun _ => hslashes, fun _ letter after hletter heq => ?_⟩
    cases hdrive.symm.trans (drive?_eq_some_iff.2 ⟨hletter, .inl heq⟩)
  · obtain ⟨hletter, heq⟩ := (drive?_rooted_eq_some_iff (t := .scalar '/' :: tail)).1 hdrive
    obtain rfl : tail = letter :: .scalar ':' :: after := (List.cons.inj heq).2
    rw [hostAndPath_ofParts_of_drive hletter hback]
    constructor
    · intro h
      have hsmall := (List.cons.inj (List.cons.inj (Prod.mk.inj h).2).2).1
      refine ⟨nofun, fun _ => hslashes, fun _ letter' after' _ heq' => ?_⟩
      rwa [← (List.cons.inj (List.cons.inj heq').2).1]
    · intro h
      rw [h.smallDrive rfl letter after hletter rfl]

/-- With a host the path of a URI is written with the same host exactly when nothing in it was
encoded. -/
theorem hostAndPath_ofParts_iff_of_host {path host rest written : Text}
    (h : hostAndPath path = (host, rest)) (hne : host ≠ []) (hwritten : encode host = .ok written) :
    hostAndPath (ofParts written rest) = (host, rest) ↔ ComesBack host rest := by
  obtain ⟨tail, htail⟩ := exists_slash_path path
  have hback := backslash_not_mem_path path
  have hslash := slash_not_mem_host path
  have hsmall := map_asciiLower_host path
  rw [h] at htail hback hslash hsmall
  obtain rfl : rest = .scalar '/' :: tail := htail
  have hlength := length_le_of_encode hwritten
  have hne' : written ≠ [] := by
    rintro rfl
    exact hne (List.eq_nil_of_length_eq_zero (Nat.le_zero.1 hlength))
  rw [hostAndPath_ofParts_of_host hne' (isWritten_of_encode hwritten)
    ((encodes_of_encode hwritten).slash_not_mem hslash) hback]
  constructor
  · intro h
    have hlower := congrArg List.length (Prod.mk.inj h).1
    rw [List.length_map] at hlower
    exact ⟨isUnreserved_of_length_le hwritten hlower.le, fun h => absurd h hne,
      fun h => absurd h hne⟩
  · intro h
    obtain rfl := Except.ok.inj ((encode_of_isUnreserved h.plain).symm.trans hwritten)
    rw [hsmall]

/-! ### The trip -/

theorem isScalar_ofParts {host rest : Text} (hhost : ∀ p ∈ host, IsWritten p)
    (hrest : rest.IsScalar) : (ofParts host rest).IsScalar :=
  isScalar_ofParts_of_isScalar (Text.isScalar_of_ascii fun p hp => (hhost p hp).val_lt) hrest

theorem not_slashes_rooted {t : Text} (h : ¬ ("//" : Text) <+: t) :
    ¬ ("//" : Text) <+: rooted t := by
  unfold rooted
  split
  · exact h
  · next hrooted =>
    rintro ⟨rest, heq⟩
    exact hrooted rest (List.cons.inj heq).2.symm

theorem comesBack_lowerDrive_rooted {t : Text} (h : ¬ ("//" : Text) <+: t) :
    ComesBack [] (lowerDrive (rooted t)) := by
  rcases hdrive : drive? (rooted t) with _ | ⟨letter, rest⟩
  · rw [lowerDrive, hdrive]
    refine ⟨List.forall_mem_nil _, fun _ => not_slashes_rooted h,
      fun _ letter rest hletter heq => ?_⟩
    cases hdrive.symm.trans (drive?_rooted_eq_some_iff.2 ⟨hletter, heq⟩)
  · obtain ⟨hletter, -⟩ := drive?_rooted_eq_some_iff.1 hdrive
    rw [lowerDrive, hdrive]
    refine ⟨List.forall_mem_nil _, fun _ => ?_, fun _ small rest _ heq => ?_⟩
    · rintro ⟨rest, heq⟩
      exact CodePoint.ne_slash_of_isAsciiLetter (CodePoint.isAsciiLetter_asciiLower hletter)
        (List.cons.inj (List.cons.inj heq).2).1.symm
    · rw [← (List.cons.inj (List.cons.inj heq).2).1, CodePoint.asciiLower_asciiLower]

/-- **Which URIs come back.** A URI that was written is read as a path that has a URI, and this is
the same URI exactly when nothing in the host is encoded and, without a host, the path neither looks
like one with a host nor opens with a drive in capitals. In particular the URI of every path that
does not open with two slashes comes back. -/
theorem toUri_ofUri_iff_comesBack {path u : Text} (h : toUri path = .ok u) :
    ∃ q v, ofUri u = .ok q ∧ toUri q = .ok v ∧
      (v = u ↔ ComesBack (hostAndPath path).1 (hostAndPath path).2) ∧
      (¬ ("//" : Text) <+: normalize path → v = u) := by
  obtain ⟨written, hwritten, hread⟩ := ofUri_of_toUri h
  obtain ⟨-, _, -, hrest, -⟩ := toUri_eq_ok_iff.1 h
  obtain ⟨v, hv⟩ := exists_toUri_of_isScalar
    (isScalar_ofParts (isWritten_of_encode hwritten) (isScalar_of_encode hrest))
  have hiff : v = u ↔ ComesBack (hostAndPath path).1 (hostAndPath path).2 := by
    rw [uri_eq_iff hv h]
    rcases hpath : hostAndPath path with ⟨host, rest⟩
    rw [hpath] at hwritten
    by_cases hne : host = []
    · subst hne
      obtain rfl := encode_nil_eq_ok_iff.1 hwritten
      exact hostAndPath_ofParts_iff_of_noHost hpath
    · exact hostAndPath_ofParts_iff_of_host hpath hne hwritten
  refine ⟨_, v, hread, hv, hiff, fun hnoHost => hiff.2 ?_⟩
  rw [hostAndPath, hostAndPathOfNormal_of_noHost hnoHost]
  exact comesBack_lowerDrive_rooted hnoHost

/-- A drive in capitals and a host with capitals come back. -/
theorem toUri_ofUri_iff_comesBack_read :
    (∃ u q, toUri ("C:\\a b" : Text) = .ok u ∧ ofUri u = .ok q ∧ toUri q = .ok u) ∧
      ∃ u q, toUri ("//Host-1/A b" : Text) = .ok u ∧ ofUri u = .ok q ∧ toUri q = .ok u := by
  have hhost : hostAndPath "//Host-1/A b" = (("host-1" : Text), ("/A b" : Text)) := rfl
  have hback : ComesBack "host-1" "/A b" := ⟨by decide, nofun, nofun⟩
  obtain ⟨u, hu⟩ := exists_toUri_of_isScalar (Text.isScalar_ofString "C:\\a b")
  obtain ⟨u', hu'⟩ := exists_toUri_of_isScalar (Text.isScalar_ofString "//Host-1/A b")
  obtain ⟨q, v, hq, hv, -, hsame⟩ := toUri_ofUri_iff_comesBack hu
  obtain ⟨q', v', hq', hv', hsame', -⟩ := toUri_ofUri_iff_comesBack hu'
  rw [hhost] at hsame'
  obtain rfl := hsame (by decide)
  obtain rfl := hsame'.2 hback
  exact ⟨⟨_, q, hu, hq, hv⟩, _, q', hu', hq', hv'⟩

/-- The URI of a file on a share whose name holds a dollar sign does not come back. -/
theorem not_toUri_ofUri_share :
    ¬ ∀ path u : Text, toUri path = .ok u → ∃ q, ofUri u = .ok q ∧ toUri q = .ok u := by
  intro h
  obtain ⟨q, hq, hu⟩ := h "\\\\wsl$\\Ubuntu\\A.elm" "file://wsl%24/Ubuntu/A.elm" rfl
  have hread : ofUri "file://wsl%24/Ubuntu/A.elm" = .ok "//wsl%24/Ubuntu/A.elm" := rfl
  obtain rfl := Except.ok.inj (hread.symm.trans hq)
  have hwritten : toUri "//wsl%24/Ubuntu/A.elm" = .ok "file://wsl%2524/Ubuntu/A.elm" := rfl
  exact absurd (Except.ok.inj (hwritten.symm.trans hu)) (by decide)

end FilePath

end ElmReport
