import ElmReport.Batch.Selection
import Mathlib.Data.List.Basic

/-!
# Names that resolving comes across

Resolving a path takes its names, those of the workplace when the path is relative, and those in
the targets of the links on the way. No other name comes in, whatever is remembered of links, and
also not when a loop of links makes a path in words be read once more. So a name that leads down
and stands in none of them is not met.

## Main definitions

* `Path.LeadsDown`: a name that leads down.
* `Path.Avoids`, `Path.AvoidsInWords`: a path, and a path in words, without a name.
* `FileTree.Known.Avoids`, `FileTree.Resolved.Avoids`: what resolving remembers and comes to.
* `FileTree.HasLink`: the targets of the links of a tree.

## Main results

* `FileTree.hasLink_of_linkTarget?`: a link that is met is one of the tree.
* `FileTree.avoids_resolve`: resolving meets no other names.
* `FileTree.prefix_workplace_of_prefix_grounded`: a name on a real path without links to it.
-/

namespace ElmReport

/-- A name is not between slashes in the pieces of a text either. -/
theorem Text.not_mem_fields_of_mem_fields {name t n : Text} (h : name ∉ fields slash t)
    (hn : n ∈ fields slash t) : name ∉ fields slash n := by
  rw [fields_of_not_mem (Path.slash_not_mem_of_mem_fields hn), List.mem_singleton]
  rintro rfl
  exact h hn

/-! ### Paths without a name -/

namespace Path

/-- A name that leads down: neither empty nor a dot or a double dot, and without a slash. -/
structure LeadsDown (name : Text) : Prop where
  isName : isName name = true
  ne_doubleDot : name ≠ doubleDot
  slash_not_mem : slash ∉ name

/-- A path that a name does not stand in, also not between slashes in another name. It may be
relative only if `relative` holds. -/
structure Avoids (name : Text) (relative : Prop) (p : Path) : Prop where
  names : ∀ n ∈ p.names, name ∉ Text.fields slash n
  relative : p.isAbsolute = false → relative

/-- A path in words that a name does not stand in. It may be relative only if `relative` holds. -/
structure AvoidsInWords (name : Text) (relative : Prop) (words : Text) : Prop where
  fields : name ∉ Text.fields slash words
  relative : words.head? ≠ some slash → relative

variable {name : Text} {relative : Prop}

theorem LeadsDown.ne_nil (hname : LeadsDown name) : name ≠ [] := by
  rintro rfl
  exact absurd hname.isName (by decide)

theorem LeadsDown.ne_dot (hname : LeadsDown name) : name ≠ dot := by
  rintro rfl
  exact absurd hname.isName (by decide)

theorem Avoids.not_mem {p : Path} (h : p.Avoids name relative) (hname : LeadsDown name) :
    name ∉ p.names := by
  intro hmem
  refine h.names name hmem ?_
  rw [Text.fields_of_not_mem hname.slash_not_mem]
  exact List.mem_singleton_self name

theorem avoids_root : root.Avoids name relative := ⟨nofun, nofun⟩

theorem Avoids.child {p : Path} (h : p.Avoids name relative) {n : Text}
    (hn : name ∉ Text.fields slash n) : (p.child n).Avoids name relative := by
  refine ⟨fun m hm => ?_, h.relative⟩
  rcases List.mem_append.1 hm with hm | hm
  · exact h.names m hm
  · rwa [List.mem_singleton.1 hm]

theorem Avoids.parent {p : Path} (h : p.Avoids name relative) (hname : LeadsDown name) :
    p.parent.Avoids name relative := by
  have hup : (p.child doubleDot).Avoids name relative :=
    h.child fun hmem => hname.ne_doubleDot (List.mem_singleton.1 hmem)
  rw [Path.parent]
  split
  · split_ifs
    · exact h
    · exact hup
  · split_ifs
    · exact hup
    · exact ⟨fun n hn => h.names n (List.dropLast_subset _ hn), h.relative⟩

theorem not_mem_fields_join (hname : LeadsDown name) {names : List Text}
    (h : ∀ n ∈ names, name ∉ Text.fields slash n) :
    name ∉ Text.fields slash (Text.join [slash] names) := by
  rcases eq_or_ne names [] with rfl | hne
  · exact fun hmem => hname.ne_nil (List.mem_singleton.1 hmem)
  · rw [Text.fields_join slash hne]
    exact fun hmem => (List.mem_flatMap.1 hmem).elim fun n hn => h n hn.1 hn.2

/-- Words with a slash in front are read as a path that starts at the root. -/
theorem isAbsolute_ofText {words : Text} (h : words.head? = some slash) :
    (ofText words).isAbsolute = true := by
  obtain ⟨t, rfl⟩ := List.head?_eq_some_iff.1 h
  have hslashes : ((slash :: t).takeWhile (· == slash)).length =
      (t.takeWhile (· == slash)).length + 1 := by
    simp [List.takeWhile_cons_of_pos]
  rw [isAbsolute, ofText, hslashes]
  rcases (t.takeWhile (· == slash)).length with _ | _ | k <;> rfl

/-- Words that avoid a name are read as a path that does. -/
theorem avoids_ofText {words : Text} (h : AvoidsInWords name relative words) :
    (ofText words).Avoids name relative := by
  refine ⟨fun n hn => ?_, fun hhere => h.relative fun hhead => ?_⟩
  · exact Text.not_mem_fields_of_mem_fields h.fields (List.mem_filter.1 hn).1
  · exact Bool.eq_false_iff.1 hhere (isAbsolute_ofText hhead)

/-- A path that avoids a name does so in words. -/
theorem Avoids.inWords {p : Path} (h : p.Avoids name relative) (hname : LeadsDown name) :
    AvoidsInWords name relative p.text := by
  have hjoin := not_mem_fields_join hname h.names
  refine ⟨?_, fun hhead => h.relative (Bool.eq_false_iff.2 fun habs => hhead (head?_text habs))⟩
  obtain ⟨_ | _ | _, names⟩ := p
  · rcases names with _ | ⟨n, names⟩
    · exact fun hmem => hname.ne_dot (List.mem_singleton.1 hmem)
    · exact hjoin
  · exact List.not_mem_cons_of_ne_of_not_mem hname.ne_nil hjoin
  · exact List.not_mem_cons_of_ne_of_not_mem hname.ne_nil
      (List.not_mem_cons_of_ne_of_not_mem hname.ne_nil hjoin)

theorem avoidsInWords_append_slash {words more : Text}
    (hwords : name ∉ Text.fields slash words) (hmore : name ∉ Text.fields slash more)
    (hrelative : (words ++ slash :: more).head? ≠ some slash → relative) :
    AvoidsInWords name relative (words ++ slash :: more) := by
  refine ⟨?_, hrelative⟩
  rw [Text.fields_append_cons, List.mem_append, not_or]
  exact ⟨hwords, hmore⟩

/-- Words put below words that avoid a name avoid it when they do so themselves. -/
theorem avoidsInWords_joinText {words more : Text} (h : AvoidsInWords name relative words)
    (hmore : name ∉ Text.fields slash more) :
    AvoidsInWords name relative (joinText words more) := by
  rw [joinText]
  split_ifs with habs hsep
  · exact ⟨hmore, fun hhead => absurd habs hhead⟩
  · rcases Bool.or_eq_true_iff.1 hsep with hempty | hlast
    · obtain rfl := List.isEmpty_iff.1 hempty
      exact ⟨hmore, fun _ => h.relative nofun⟩
    · -- The slash at the end of the words parts them from what comes behind.
      obtain ⟨front, rfl⟩ := List.getLast?_eq_some_iff.1 (eq_of_beq hlast)
      have hfront : name ∉ Text.fields slash front := by
        have hfields := h.fields
        rw [Text.fields_append_cons, List.mem_append, not_or] at hfields
        exact hfields.1
      rw [List.append_assoc, List.singleton_append]
      refine avoidsInWords_append_slash hfront hmore fun hhead => h.relative ?_
      cases front <;> exact hhead
  · refine avoidsInWords_append_slash h.fields hmore fun hhead => h.relative fun hwords => hhead ?_
    obtain ⟨t, rfl⟩ := List.head?_eq_some_iff.1 hwords
    rfl

end Path

/-! ### The links of a tree -/

namespace Entry

/-- What stands under a name lies below its directory, with all that lies below it. -/
theorem descendants_of_find? {name : Text} {entries : List (Text × Entry)} {e : Entry}
    (h : find? name entries = some e) (p : Path) :
    ⟨p, name, e⟩ ∈ descendantsIn p entries ∧
      e.descendants (p.child name) ⊆ descendantsIn p entries := by
  induction entries with
  | nil => cases h
  | cons entry entries ih =>
    obtain ⟨name', e'⟩ := entry
    rw [find?] at h
    rw [descendantsIn]
    split_ifs at h with hname
    · obtain rfl : name' = name := hname
      obtain rfl := Option.some.inj h
      exact ⟨List.mem_cons_self, fun d hd => by simp [hd]⟩
    · obtain ⟨hmem, hsubset⟩ := ih h
      exact ⟨by simp [hmem], fun d hd => by simp [hsubset hd]⟩

mutual

/-- By which path the way down starts makes no difference to the names and entries below. -/
theorem exists_mem_descendants (p q : Path) : ∀ (e : Entry) {d : Descendant},
    d ∈ e.descendants p → ∃ d' ∈ e.descendants q, d'.name = d.name ∧ d'.entry = d.entry
  | directory entries, _, h => by
    rw [descendants] at h ⊢
    exact exists_mem_descendantsIn p q entries h
  | file, _, h => by simp at h
  | link _, _, h => by simp at h

theorem exists_mem_descendantsIn (p q : Path) : ∀ (entries : List (Text × Entry)) {d : Descendant},
    d ∈ descendantsIn p entries →
      ∃ d' ∈ descendantsIn q entries, d'.name = d.name ∧ d'.entry = d.entry
  | [], _, h => by simp [descendantsIn] at h
  | (name, e) :: es, d, h => by
    rw [descendantsIn, List.mem_cons, List.mem_append] at h
    rw [descendantsIn]
    rcases h with rfl | h | h
    · exact ⟨_, List.mem_cons_self, rfl, rfl⟩
    · obtain ⟨d', hd', hsame⟩ := exists_mem_descendants (p.child name) (q.child name) e h
      exact ⟨d', by simp [hd'], hsame⟩
    · obtain ⟨d', hd', hsame⟩ := exists_mem_descendantsIn p q es h
      exact ⟨d', by simp [hd'], hsame⟩

end

/-- What lies below something in an entry lies below this entry. -/
theorem exists_mem_descendants_of_at? {e f : Entry} {place : List Text} (h : e.at? place = some f)
    {p : Path} {d : Descendant} (hd : d ∈ f.descendants p) (q : Path) :
    ∃ d' ∈ e.descendants q, d'.name = d.name ∧ d'.entry = d.entry := by
  induction place generalizing e q with
  | nil =>
    rw [at?_nil] at h
    obtain rfl := Option.some.inj h
    exact exists_mem_descendants p q e hd
  | cons name names ih =>
    cases e with
    | file => cases h
    | link => cases h
    | directory entries =>
      obtain ⟨e', hfind, hat⟩ := Option.bind_eq_some_iff.1 h
      obtain ⟨d', hd', hsame⟩ := ih hat (q.child name)
      rw [descendants]
      exact ⟨d', (descendants_of_find? hfind q).2 hd', hsame⟩

end Entry

namespace FileTree

/-- A place that names lead to holds what they lead to. -/
theorem at?_of_walk {root e : Entry} {links : Nat} {place place' : List Text} {names : List Text}
    (h : walk root links place names = .entry place' e) : root.at? place' = some e := by
  fun_induction walk root links place names <;> simp_all

/-- The targets of the links of a tree. -/
def HasLink (t : FileTree) (target : Text) : Prop :=
  ∃ d ∈ t.root.descendants .root, d.entry = .link target

/-- A link that is met is one of the tree. -/
theorem hasLink_of_linkTarget? {t : FileTree} {p : Path} {target : Text}
    (h : t.linkTarget? p = some target) : t.HasLink target := by
  rw [linkTarget?] at h
  split_ifs at h
  split at h
  · next place entries name hwalk hlast =>
    split at h
    · next target' hfind =>
      obtain rfl := Option.some.inj h
      have hmem := (Entry.descendants_of_find? hfind .root).1
      obtain ⟨d, hd, -, hlink⟩ :=
        Entry.exists_mem_descendants_of_at? (f := .directory entries) (p := .root)
          (at?_of_walk hwalk) (by rwa [Entry.descendants]) .root
      exact ⟨d, hd, hlink⟩
    · cases h
  · cases h

/-! ### Resolving -/

open ElmReport.Path

/-- What is remembered of links stands for paths without a name. -/
def Known.Avoids (name : Text) (relative : Prop) (known : Known) : Prop :=
  ∀ link found, (link, some found) ∈ known → found.Avoids name relative

/-- What resolving comes to is without a name. -/
def Resolved.Avoids (name : Text) (relative : Prop) : Resolved → Prop
  | path p => p.Avoids name relative
  | loop words => AvoidsInWords name relative words
  | nullCharacter => True

variable {name : Text} {relative : Prop}

theorem Known.avoids_nil : Known.Avoids name relative [] := nofun

theorem Known.Avoids.of_lookup {known : Known} (h : Known.Avoids name relative known)
    {link found : Path} (hlookup : known.lookup link = some (some found)) :
    found.Avoids name relative := by
  obtain ⟨before, after, rfl, -⟩ := List.lookup_eq_some_iff.1 hlookup
  exact h link found (List.mem_append_right before List.mem_cons_self)

theorem Known.Avoids.cons_none {known : Known} (h : Known.Avoids name relative known)
    (link : Path) : Known.Avoids name relative ((link, none) :: known) := by
  intro link' found hmem
  rcases List.mem_cons.1 hmem with hnew | hmem
  · cases hnew
  · exact h link' found hmem

theorem Known.Avoids.cons_some {known : Known} (h : Known.Avoids name relative known)
    {found : Path} (hfound : found.Avoids name relative) (link : Path) :
    Known.Avoids name relative ((link, some found) :: known) := by
  intro link' found' hmem
  rcases List.mem_cons.1 hmem with hnew | hmem
  · cases hnew
    exact hfound
  · exact h link' found' hmem

theorem avoids_targetStart {place : Path} (h : place.Avoids name relative) (target : Text) :
    (targetStart place target).Avoids name relative := by
  rw [targetStart]
  split_ifs
  · exact avoids_root
  · exact h

/-- **Resolving meets no other names** than those it is given and those in the targets of links. -/
theorem avoids_resolve {t : FileTree} (hname : LeadsDown name)
    (hlinks : ∀ target, t.HasLink target → name ∉ Text.fields slash target) (links : Nat)
    {known : Known} (hknown : Known.Avoids name relative known) {place : Path}
    (hplace : place.Avoids name relative) {names : List Text}
    (hnames : ∀ n ∈ names, name ∉ Text.fields slash n) :
    Known.Avoids name relative (t.resolve links known place names).1 ∧
      Resolved.Avoids name relative (t.resolve links known place names).2 := by
  -- Of a loop a path in words is left, which names and slashes are put behind.
  have hloop {words : Text} (hwords : AvoidsInWords name relative words) {names : List Text}
      (hrest : ∀ n ∈ names, name ∉ Text.fields slash n) :
      Resolved.Avoids name relative (.loop (joinText words (rest names))) :=
    avoidsInWords_joinText hwords (not_mem_fields_join hname hrest)
  have htarget {p : Path} {target : Text} (h : t.linkTarget? p = some target) :
      ∀ n ∈ Text.fields slash target, name ∉ Text.fields slash n := fun n hn =>
    Text.not_mem_fields_of_mem_fields (hlinks target (hasLink_of_linkTarget? h)) hn
  fun_induction resolve t links known place names with
  | case1 => exact ⟨hknown, hplace⟩
  | case2 links known place n names hskip ih =>
    exact ih hknown hplace (List.forall_mem_cons.1 hnames).2
  | case3 links known place names hup ih =>
    exact ih hknown (hplace.parent hname) (List.forall_mem_cons.1 hnames).2
  | case4 => exact ⟨hknown, trivial⟩
  | case5 links known place n names hskip hup hnull next hlink ih =>
    obtain ⟨hn, hrest⟩ := List.forall_mem_cons.1 hnames
    exact ih hknown (hplace.child hn) hrest
  | case6 links known place n names hskip hup hnull next target hlink found hfound ih =>
    exact ih hknown (hknown.of_lookup hfound) (List.forall_mem_cons.1 hnames).2
  | case7 links known place n names hskip hup hnull next target hlink hopen =>
    obtain ⟨hn, hrest⟩ := List.forall_mem_cons.1 hnames
    exact ⟨hknown, hloop ((hplace.child hn).inWords hname) hrest⟩
  | case8 known place n names hskip hup hnull next target hlink hnew =>
    obtain ⟨hn, hrest⟩ := List.forall_mem_cons.1 hnames
    exact ⟨hknown, hloop ((hplace.child hn).inWords hname) hrest⟩
  | case9 known place n names hskip hup hnull next target hlink hnew links known' found hinner
      ihinner ih =>
    obtain ⟨hknown', hfound⟩ := ihinner (hknown.cons_none next) (avoids_targetStart hplace target)
      (htarget hlink)
    rw [hinner] at hknown' hfound
    exact ih (hknown'.cons_some hfound next) hfound (List.forall_mem_cons.1 hnames).2
  | case10 known place n names hskip hup hnull next target hlink hnew links known' words hinner
      ihinner =>
    obtain ⟨hknown', hwords⟩ := ihinner (hknown.cons_none next) (avoids_targetStart hplace target)
      (htarget hlink)
    rw [hinner] at hknown' hwords
    exact ⟨hknown', hloop hwords (List.forall_mem_cons.1 hnames).2⟩
  | case11 known place n names hskip hup hnull next target hlink hnew links known' hinner
      ihinner =>
    obtain ⟨hknown', -⟩ := ihinner (hknown.cons_none next) (avoids_targetStart hplace target)
      (htarget hlink)
    rw [hinner] at hknown'
    exact ⟨hknown', trivial⟩

/-! ### Real paths -/

/-- A way that ends with a name and is still there after one more name was there before, unless this
is the name it ends with. -/
theorem prefix_of_prefix_collapseStep {names above : List Text} {n : Text} (hn : name ≠ n)
    (h : above ++ [name] <+: collapseStep names n) : above ++ [name] <+: names := by
  rw [collapseStep] at h
  split_ifs at h
  · exact h.trans (List.dropLast_prefix names)
  · rcases List.prefix_concat_iff.1 h with heq | h
    · exact absurd (List.cons.inj (List.append_inj_right' heq rfl)).1 hn
    · exact h

theorem prefix_of_prefix_foldl {names more above : List Text} (hmore : name ∉ more)
    (h : above ++ [name] <+: more.foldl collapseStep names) : above ++ [name] <+: names := by
  induction more generalizing names with
  | nil => exact h
  | cons n more ih =>
    obtain ⟨hn, hmore⟩ := not_or.1 (List.mem_cons.not.1 hmore)
    exact prefix_of_prefix_collapseStep hn (ih hmore h)

/-- A path without a name comes by it at the root only when it is relative, and then by the names of
the workplace. -/
theorem prefix_workplace_of_prefix_grounded {t : FileTree} (hname : LeadsDown name) {p : Path}
    (hp : p.Avoids name relative) {above : List Text}
    (h : above ++ [name] <+: (t.grounded p).names) :
    relative ∧ above ++ [name] <+: collapse t.workplace := by
  have hnot := hp.not_mem hname
  have hstart (h : above ++ [name] <+: collapse p.names) : False := by
    have hnil := List.eq_nil_of_prefix_nil (prefix_of_prefix_foldl hnot h)
    exact List.append_ne_nil_of_right_ne_nil above (List.cons_ne_nil name []) hnil
  obtain ⟨_ | _ | _, names⟩ := p
  · refine ⟨hp.relative rfl, prefix_of_prefix_foldl hnot ?_⟩
    rwa [collapse, ← List.foldl_append]
  · exact (hstart h).elim
  · exact (hstart h).elim

theorem avoids_resolveStart (p : Path) :
    (resolveStart p).Avoids name (p.isAbsolute = false) := by
  rw [resolveStart]
  split_ifs with h
  · exact avoids_root
  · exact ⟨nofun, fun _ => Bool.eq_false_iff.2 h⟩

/-- **A name on a real path.** When the real path of a path goes through a name that stands neither
in the path nor in the target of a link, the path is relative, and the workplace lies below this
name as well. -/
theorem prefix_workplace_of_prefix_realPath {t : FileTree} (hname : LeadsDown name)
    (hlinks : ∀ target, t.HasLink target → name ∉ Text.fields slash target) {p q : Path}
    (hp : ∀ n ∈ p.names, name ∉ Text.fields slash n) (h : t.realPath p = .ok q)
    {above : List Text} (habove : above ++ [name] <+: q.names) :
    p.isAbsolute = false ∧ above ++ [name] <+: collapse t.workplace := by
  have hresolved := (avoids_resolve hname hlinks t.maxNesting Known.avoids_nil
    (avoids_resolveStart p) hp).2
  simp only [realPath] at h
  split at h
  · next found hfound =>
    rw [hfound] at hresolved
    split at h
    · cases h
    · obtain rfl := Except.ok.inj h
      exact prefix_workplace_of_prefix_grounded hname hresolved habove
  · next words hwords =>
    rw [hwords] at hresolved
    split at h
    · cases h
    · obtain rfl := Except.ok.inj h
      exact prefix_workplace_of_prefix_grounded hname (avoids_ofText hresolved) habove
  · cases h

end FileTree

end ElmReport
