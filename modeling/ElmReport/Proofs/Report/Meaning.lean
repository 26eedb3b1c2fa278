import ElmReport.Proofs.Issue.Feed
import ElmReport.Proofs.Json.Written
import ElmReport.Proofs.Report.Grammar

/-!
# What a report means

Two lines may look entirely different and still report the same problems. What counts of a document
are its paths, its titles, its regions and the texts of its messages. The order of members, members
that no one asks for, all but the last of repeated ones, the name of a module, the style of a piece
and the places where a message is cut into pieces do not count. Agreement in what counts is laid
down here on the trees of two lines, level by level, and documents that agree have the same issues.

## Main definitions

* `Json.AgreeUnder`: two trees agree in what counts under a name.
* `Json.SameRegion`, `Json.SameMessage`, `Json.SameProblem`, `Json.SameEntry`: agreement of the
  parts of a document.
* `Json.SameReport`: agreement of two documents.

## Main results

* `Json.MessageText.render_eq`: the text of a message does not depend on its pieces.
* `Json.SameReport.issues_eq`: documents that agree have the same issues.
* `Json.SameReport.refl`: every report agrees with itself.
* `Document.issues_eq_of_sameReport`: lines whose documents agree have the same issues.
-/

namespace ElmReport

namespace Json

/-! ### Agreement -/

/-- Two trees are the same text. -/
def SameText (v w : Json) : Prop := ∃ t, v = string t ∧ w = string t

/-- Two trees are the same integer. -/
def SameInteger (v w : Json) : Prop := ∃ n, v = integer n ∧ w = integer n

/-- Two trees are lists of the same length whose items agree place by place. -/
def SameItems (agree : Json → Json → Prop) (v w : Json) : Prop :=
  ∃ xs ys, v = list xs ∧ w = list ys ∧ List.Forall₂ agree xs ys

/-- Two trees agree in what counts under a name. -/
def AgreeUnder (agree : Json → Json → Prop) (name : Text) (v w : Json) : Prop :=
  ∃ x y, v.under? name = some x ∧ w.under? name = some y ∧ agree x y

/-- Nothing counts under a name: it is absent, or what counts is null. -/
def Lacks (name : Text) (v : Json) : Prop := v.under? name = none ∨ v.under? name = some null

/-- Two trees agree in what counts under a name, or nothing counts in both. -/
def AgreeUnderIfAny (agree : Json → Json → Prop) (name : Text) (v w : Json) : Prop :=
  (v.Lacks name ∧ w.Lacks name) ∨ AgreeUnder agree name v w

/-- Agreement of two positions. -/
structure SamePosition (v w : Json) : Prop where
  line : AgreeUnder SameInteger "line" v w
  column : AgreeUnder SameInteger "column" v w

/-- Agreement of two regions. -/
structure SameRegion (v w : Json) : Prop where
  start : AgreeUnder SamePosition "start" v w
  stop : AgreeUnder SamePosition "end" v w

/-- The text of a piece of a message. -/
inductive PieceText : Json → Text → Prop
  | plain (t : Text) : PieceText (string t) t
  | styled {v : Json} {t : Text} (h : v.under? "string" = some (string t)) : PieceText v t

/-- The text of a message: the texts of its pieces one after the other. -/
inductive MessageText : Json → Text → Prop
  | pieces {items : List Json} {texts : List Text} (h : List.Forall₂ PieceText items texts) :
      MessageText (list items) texts.flatten

/-- Agreement of two messages. -/
def SameMessage (v w : Json) : Prop := ∃ t, v.MessageText t ∧ w.MessageText t

/-- Agreement of two problems of files. -/
structure SameProblem (v w : Json) : Prop where
  title : AgreeUnder SameText "title" v w
  region : AgreeUnder SameRegion "region" v w
  message : AgreeUnder SameMessage "message" v w

/-- Agreement of the problems of two files. -/
structure SameEntry (v w : Json) : Prop where
  path : AgreeUnder SameText "path" v w
  problems : AgreeUnder (SameItems SameProblem) "problems" v w

/-- Agreement of two problems of the project. -/
structure SameProjectError (v w : Json) : Prop where
  path : AgreeUnderIfAny SameText "path" v w
  title : AgreeUnder SameText "title" v w
  region : AgreeUnderIfAny SameRegion "region" v w
  message : AgreeUnder SameMessage "message" v w

/-- A tree names a form as its type. -/
def NamesForm (form : Document.Form) (v : Json) : Prop := v.under? "type" = some (string form.tag)

/-- Agreement of two documents of the same form. -/
inductive SameReport : Json → Json → Prop
  | compileErrors {v w : Json} (hv : v.NamesForm .compileErrors) (hw : w.NamesForm .compileErrors)
      (h : AgreeUnder (SameItems SameEntry) "errors" v w) : SameReport v w
  | projectError {v w : Json} (hv : v.NamesForm .projectError) (hw : w.NamesForm .projectError)
      (h : SameProjectError v w) : SameReport v w

/-! ### What counts under a name -/

section

variable {v w x y : Json} {members members' : Members} {name : Text}

/-- What two objects have under a name is what their trees agree in. -/
theorem AgreeUnder.exists_settled {agree : Json → Json → Prop} (h : AgreeUnder agree name v w)
    (hv : v.settled = object members) (hw : w.settled = object members')
    (hx : members.get? name = some x) (hy : members'.get? name = some y) :
    ∃ x' y', agree x' y' ∧ x'.settled = x ∧ y'.settled = y := by
  obtain ⟨x', y', hx', hy', hagree⟩ := h
  rw [get?_settled hv, hx'] at hx
  rw [get?_settled hw, hy'] at hy
  exact ⟨x', y', hagree, Option.some.inj hx, Option.some.inj hy⟩

theorem SameText.settled_eq (h : SameText v w) : v.settled = w.settled := by
  obtain ⟨t, rfl, rfl⟩ := h
  rfl

theorem SameInteger.settled_eq (h : SameInteger v w) : v.settled = w.settled := by
  obtain ⟨n, rfl, rfl⟩ := h
  rfl

theorem AgreeUnder.text_eq (h : AgreeUnder SameText name v w) (hv : v.settled = object members)
    (hw : w.settled = object members') {t u : Text} (ht : members.get? name = some (string t))
    (hu : members'.get? name = some (string u)) : t = u := by
  obtain ⟨_, _, hsame, hx, hy⟩ := h.exists_settled hv hw ht hu
  exact string.inj (hx.symm.trans (hsame.settled_eq.trans hy))

theorem AgreeUnder.integer_eq (h : AgreeUnder SameInteger name v w)
    (hv : v.settled = object members) (hw : w.settled = object members') {m n : Int}
    (hm : members.get? name = some (integer m)) (hn : members'.get? name = some (integer n)) :
    m = n := by
  obtain ⟨_, _, hsame, hx, hy⟩ := h.exists_settled hv hw hm hn
  exact integer.inj (hx.symm.trans (hsame.settled_eq.trans hy))

/-- Where nothing counts, an optional part is missing. -/
theorem Lacks.eq_none {α : Type} {denotes : Json → α → Prop} (hnull : ∀ a, ¬ denotes null a)
    (h : v.Lacks name) (hv : v.settled = object members) {a : Option α}
    (ha : Members.Optionally denotes (members.get? name) a) : a = none := by
  rw [get?_settled hv] at ha
  rcases h with h | h
  · rw [h] at ha
    cases ha
    rfl
  · rw [h, Option.map_some, settled_null] at ha
    cases ha with
    | null => rfl
    | present ha => exact absurd ha (hnull _)

theorem exists_of_optionally {α : Type} {denotes : Json → α → Prop} {a : Option α}
    (h : Members.Optionally denotes (some x) a) (hx : x ≠ null) :
    ∃ b, a = some b ∧ denotes x b := by
  cases h with
  | null => exact absurd rfl hx
  | present h => exact ⟨_, rfl, h⟩

/-- An optional part is the same for trees that agree in it. -/
theorem AgreeUnderIfAny.eq {α : Type} {agree : Json → Json → Prop} {denotes : Json → α → Prop}
    (hnull : ∀ a, ¬ denotes null a)
    (hne : ∀ x y, agree x y → x.settled ≠ null ∧ y.settled ≠ null)
    (heq : ∀ x y a b, agree x y → denotes x.settled a → denotes y.settled b → a = b)
    (h : AgreeUnderIfAny agree name v w) (hv : v.settled = object members)
    (hw : w.settled = object members') {a b : Option α}
    (ha : Members.Optionally denotes (members.get? name) a)
    (hb : Members.Optionally denotes (members'.get? name) b) : a = b := by
  rcases h with ⟨hlacks, hlacks'⟩ | ⟨x, y, hx, hy, hagree⟩
  · rw [hlacks.eq_none hnull hv ha, hlacks'.eq_none hnull hw hb]
  · rw [get?_settled hv, hx, Option.map_some] at ha
    rw [get?_settled hw, hy, Option.map_some] at hb
    obtain ⟨hxnull, hynull⟩ := hne x y hagree
    obtain ⟨c, rfl, hc⟩ := exists_of_optionally ha hxnull
    obtain ⟨d, rfl, hd⟩ := exists_of_optionally hb hynull
    rw [heq x y c d hagree hc hd]

end

/-! ### The parts of a document -/

section

variable {v w : Json}

theorem SameText.eq {t u : Text} (h : SameText v w) (ht : v.settled.IsText t)
    (hu : w.settled.IsText u) : t = u :=
  string.inj ((isText_iff.1 ht).symm.trans (h.settled_eq.trans (isText_iff.1 hu)))

theorem SameText.ne_null (h : SameText v w) : v.settled ≠ null ∧ w.settled ≠ null := by
  obtain ⟨s, rfl, rfl⟩ := h
  simp

theorem SamePosition.eq {p q : Position} (h : SamePosition v w) (hp : v.settled.IsPosition p)
    (hq : w.settled.IsPosition q) : p = q := by
  generalize hv : v.settled = x at hp
  generalize hw : w.settled = y at hq
  obtain ⟨hline, hcolumn⟩ := hp
  obtain ⟨hline', hcolumn'⟩ := hq
  rw [h.line.integer_eq hv hw hline hline', h.column.integer_eq hv hw hcolumn hcolumn']

theorem SameRegion.eq {r r' : Region} (h : SameRegion v w) (hr : v.settled.IsRegion r)
    (hr' : w.settled.IsRegion r') : r = r' := by
  generalize hv : v.settled = x at hr
  generalize hw : w.settled = y at hr'
  obtain ⟨hstart, hp, hstop, hq⟩ := hr
  obtain ⟨hstart', hp', hstop', hq'⟩ := hr'
  obtain ⟨_, _, hsame, rfl, rfl⟩ := h.start.exists_settled hv hw hstart hstart'
  obtain ⟨_, _, hsame', rfl, rfl⟩ := h.stop.exists_settled hv hw hstop hstop'
  rw [hsame.eq hp hp', hsame'.eq hq hq']

theorem SameRegion.ne_null (h : SameRegion v w) : v.settled ≠ null ∧ w.settled ≠ null := by
  obtain ⟨_, _, hv, hw, -⟩ := h.start
  obtain ⟨pairs, rfl⟩ := exists_pairs_of_under? hv
  obtain ⟨pairs', rfl⟩ := exists_pairs_of_under? hw
  simp

theorem PieceText.text_eq {t : Text} {f : Fragment} (h : v.PieceText t)
    (hf : v.settled.IsFragment f) : f.text = t := by
  cases h with
  | plain =>
    rw [settled_string] at hf
    cases hf
    rfl
  | styled h =>
    generalize hv : v.settled = x at hf
    cases hf with
    | plain =>
      obtain ⟨pairs, rfl⟩ := exists_pairs_of_under? h
      rw [settled_object] at hv
      exact nomatch hv
    | styled htext =>
      rw [get?_settled hv, h, Option.map_some, settled_string] at htext
      exact (string.inj (Option.some.inj htext)).symm

/-- The text of a message does not depend on how it is cut into pieces, or on their styles. -/
theorem MessageText.render_eq {t : Text} {message : List Fragment} (h : v.MessageText t)
    (hm : v.settled.IsMessage message) : Fragment.render message = t := by
  obtain ⟨hpieces⟩ := h
  rename_i items texts
  rw [settled_list] at hm
  obtain ⟨hm⟩ := hm
  induction hpieces generalizing message with
  | nil =>
    cases hm
    rfl
  | cons hpiece _ ih =>
    obtain _ | ⟨hf, hm⟩ := hm
    rw [Fragment.render_cons, hpiece.text_eq hf, ih hm, List.flatten_cons]

theorem SameMessage.render_eq {m m' : List Fragment} (h : SameMessage v w)
    (hm : v.settled.IsMessage m) (hm' : w.settled.IsMessage m') :
    Fragment.render m = Fragment.render m' := by
  obtain ⟨t, ht, ht'⟩ := h
  rw [ht.render_eq hm, ht'.render_eq hm']

/-- Lists whose items agree stand for the same, item by item, if agreeing items do. -/
theorem map_eq_of_forall₂ {α β : Type} {agree : Json → Json → Prop} {denotes : Json → α → Prop}
    {f : α → β} (heq : ∀ x y a b, agree x y → denotes x.settled a → denotes y.settled b → f a = f b)
    {xs ys : List Json} {as bs : List α} (h : List.Forall₂ agree xs ys)
    (ha : List.Forall₂ denotes (xs.map settled) as)
    (hb : List.Forall₂ denotes (ys.map settled) bs) : as.map f = bs.map f := by
  induction h generalizing as bs with
  | nil =>
    cases ha
    cases hb
    rfl
  | cons hagree _ ih =>
    obtain _ | ⟨ha, has⟩ := ha
    obtain _ | ⟨hb, hbs⟩ := hb
    rw [List.map_cons, List.map_cons, heq _ _ _ _ hagree ha hb, ih has hbs]

theorem SameItems.map_eq {α β : Type} {agree : Json → Json → Prop} {denotes : Json → α → Prop}
    {f : α → β} (heq : ∀ x y a b, agree x y → denotes x.settled a → denotes y.settled b → f a = f b)
    {items items' : List Json} {as bs : List α} (h : SameItems agree v w)
    (hv : v.settled = list items) (hw : w.settled = list items')
    (ha : List.Forall₂ denotes items as) (hb : List.Forall₂ denotes items' bs) :
    as.map f = bs.map f := by
  obtain ⟨xs, ys, rfl, rfl, h⟩ := h
  rw [settled_list] at hv hw
  obtain rfl := list.inj hv
  obtain rfl := list.inj hw
  exact map_eq_of_forall₂ heq h ha hb

theorem SameProblem.issue_eq (file : Text) {p q : Problem} (h : SameProblem v w)
    (hp : v.settled.IsProblem p) (hq : w.settled.IsProblem q) : p.issue file = q.issue file := by
  generalize hv : v.settled = x at hp
  generalize hw : w.settled = y at hq
  obtain ⟨htitle, hplace, hregion, htext, hmessage⟩ := hp
  obtain ⟨htitle', hplace', hregion', htext', hmessage'⟩ := hq
  obtain ⟨_, _, hsame, rfl, rfl⟩ := h.region.exists_settled hv hw hplace hplace'
  obtain ⟨_, _, hsame', rfl, rfl⟩ := h.message.exists_settled hv hw htext htext'
  simp only [Problem.issue, h.title.text_eq hv hw htitle htitle', hsame.eq hregion hregion',
    hsame'.render_eq hmessage hmessage']

theorem SameEntry.issues_eq {f g : FileErrors} (h : SameEntry v w)
    (hf : v.settled.IsFileErrors f) (hg : w.settled.IsFileErrors g) : f.issues = g.issues := by
  generalize hv : v.settled = x at hf
  generalize hw : w.settled = y at hg
  obtain ⟨hpath, -, hitems, hproblems⟩ := hf
  obtain ⟨hpath', -, hitems', hproblems'⟩ := hg
  obtain ⟨_, _, hsame, hx, hy⟩ := h.problems.exists_settled hv hw hitems hitems'
  obtain rfl := h.path.text_eq hv hw hpath hpath'
  exact hsame.map_eq (fun x y p q hagree => hagree.issue_eq _) hx hy hproblems hproblems'

theorem SameProjectError.issue_eq (fallback : Option Text) {e e' : ProjectError}
    (h : SameProjectError v w) (he : v.settled.IsProjectError e)
    (he' : w.settled.IsProjectError e') : e.issue fallback = e'.issue fallback := by
  generalize hv : v.settled = x at he
  generalize hw : w.settled = y at he'
  obtain ⟨hpath, htitle, htext, hmessage, hregion⟩ := he
  obtain ⟨hpath', htitle', htext', hmessage', hregion'⟩ := he'
  obtain ⟨_, _, hsame, rfl, rfl⟩ := h.message.exists_settled hv hw htext htext'
  obtain rfl := h.path.eq (by rintro _ ⟨⟩) (fun _ _ => SameText.ne_null)
    (fun _ _ _ _ => SameText.eq) hv hw hpath hpath'
  obtain rfl := h.region.eq (by rintro _ ⟨⟩) (fun _ _ => SameRegion.ne_null)
    (fun _ _ _ _ => SameRegion.eq) hv hw hregion hregion'
  simp only [ProjectError.issue, h.title.text_eq hv hw htitle htitle',
    hsame.render_eq hmessage hmessage']

theorem NamesForm.hasForm {form : Document.Form} (h : v.NamesForm form) :
    v.settled.HasForm form := by
  obtain ⟨pairs, rfl⟩ := exists_pairs_of_under? h
  refine ⟨_, settled_object pairs, ?_⟩
  rw [get?_settled (settled_object pairs), h, Option.map_some, settled_string]

end

/-- Documents that agree have the same issues. -/
theorem SameReport.issues_eq {v w : Json} {r r' : Report} (h : SameReport v w)
    (hr : v.settled.IsReport r) (hr' : w.settled.IsReport r') (fallback : Option Text) :
    r.issues fallback = r'.issues fallback := by
  cases h with
  | compileErrors hnames hnames' h =>
    obtain ⟨members, entries, files, hv, hentries, hfiles, rfl⟩ :=
      hr.exists_of_compileErrors hnames.hasForm
    obtain ⟨members', entries', files', hw, hentries', hfiles', rfl⟩ :=
      hr'.exists_of_compileErrors hnames'.hasForm
    obtain ⟨_, _, hsame, hx, hy⟩ := h.exists_settled hv hw hentries hentries'
    rw [Report.issues, Report.issues, List.flatMap_def, List.flatMap_def,
      hsame.map_eq (fun _ _ _ _ => SameEntry.issues_eq) hx hy hfiles hfiles']
  | projectError hnames hnames' h =>
    obtain ⟨e, he, rfl⟩ := hr.exists_of_projectError hnames.hasForm
    obtain ⟨e', he', rfl⟩ := hr'.exists_of_projectError hnames'.hasForm
    rw [Report.issues, Report.issues, h.issue_eq fallback he he']

/-! ### Every report agrees with itself -/

section

variable {v x : Json} {members : Members} {name : Text}

theorem AgreeUnder.refl {agree : Json → Json → Prop} (hv : v.settled = object members)
    (hx : members.get? name = some x) (h : ∀ y, y.settled = x → agree y y) :
    AgreeUnder agree name v v := by
  rw [get?_settled hv, Option.map_eq_some_iff] at hx
  obtain ⟨y, hy, hsettled⟩ := hx
  exact ⟨y, y, hy, hy, h y hsettled⟩

theorem AgreeUnderIfAny.refl {α : Type} {agree : Json → Json → Prop} {denotes : Json → α → Prop}
    (hv : v.settled = object members) {a : Option α}
    (ha : Members.Optionally denotes (members.get? name) a)
    (h : ∀ y a, denotes y.settled a → agree y y) : AgreeUnderIfAny agree name v v := by
  generalize hx : members.get? name = value at ha
  cases ha with
  | absent =>
    rw [get?_settled hv, Option.map_eq_none_iff] at hx
    exact .inl ⟨.inl hx, .inl hx⟩
  | null =>
    rw [get?_settled hv, Option.map_eq_some_iff] at hx
    obtain ⟨y, hy, hnull⟩ := hx
    rw [eq_of_settled_eq hnull nofun nofun] at hy
    exact .inl ⟨.inr hy, .inr hy⟩
  | present ha => exact .inr (.refl hv hx fun y hy => h y _ (hy ▸ ha))

theorem SameText.refl {t : Text} (h : v.settled = string t) : SameText v v :=
  have hv := eq_of_settled_eq h nofun nofun
  ⟨t, hv, hv⟩

theorem SameInteger.refl {n : Int} (h : v.settled = integer n) : SameInteger v v :=
  have hv := eq_of_settled_eq h nofun nofun
  ⟨n, hv, hv⟩

theorem SameItems.refl {α : Type} {agree : Json → Json → Prop} {denotes : Json → α → Prop}
    {items : List Json} {as : List α} (hv : v.settled = list items)
    (ha : List.Forall₂ denotes items as) (h : ∀ y a, denotes y.settled a → agree y y) :
    SameItems agree v v := by
  obtain ⟨trees, rfl, rfl⟩ := exists_items_of_settled hv
  refine ⟨trees, trees, rfl, rfl, ?_⟩
  rw [List.forall₂_map_left_iff] at ha
  clear hv
  induction ha with
  | nil => exact .nil
  | cons hy _ ih => exact .cons (h _ _ hy) ih

theorem SamePosition.refl {p : Position} (h : v.settled.IsPosition p) : SamePosition v v := by
  generalize hv : v.settled = x at h
  obtain ⟨hline, hcolumn⟩ := h
  exact ⟨.refl hv hline fun _ => SameInteger.refl, .refl hv hcolumn fun _ => SameInteger.refl⟩

theorem SameRegion.refl {r : Region} (h : v.settled.IsRegion r) : SameRegion v v := by
  generalize hv : v.settled = x at h
  obtain ⟨hstart, hp, hstop, hq⟩ := h
  exact ⟨.refl hv hstart fun y hy => .refl (hy ▸ hp), .refl hv hstop fun y hy => .refl (hy ▸ hq)⟩

theorem PieceText.of_isFragment {f : Fragment} (h : v.settled.IsFragment f) :
    v.PieceText f.text := by
  generalize hv : v.settled = x at h
  cases h with
  | plain t =>
    rw [eq_of_settled_eq hv nofun nofun]
    exact .plain t
  | styled htext =>
    rw [get?_settled hv, Option.map_eq_some_iff] at htext
    obtain ⟨y, hy, hstring⟩ := htext
    rw [eq_of_settled_eq hstring nofun nofun] at hy
    exact .styled hy

theorem SameMessage.refl {m : List Fragment} (h : v.settled.IsMessage m) : SameMessage v v := by
  generalize hv : v.settled = x at h
  obtain ⟨hpieces⟩ := h
  obtain ⟨trees, rfl, rfl⟩ := exists_items_of_settled hv
  have htexts : List.Forall₂ PieceText trees (m.map Fragment.text) :=
    List.forall₂_map_right_iff.2
      ((List.forall₂_map_left_iff.1 hpieces).imp fun _ _ => PieceText.of_isFragment)
  exact ⟨_, .pieces htexts, .pieces htexts⟩

theorem SameProblem.refl {p : Problem} (h : v.settled.IsProblem p) : SameProblem v v := by
  generalize hv : v.settled = x at h
  obtain ⟨htitle, hplace, hregion, htext, hmessage⟩ := h
  exact ⟨.refl hv htitle fun _ => SameText.refl, .refl hv hplace fun y hy => .refl (hy ▸ hregion),
    .refl hv htext fun y hy => .refl (hy ▸ hmessage)⟩

theorem SameEntry.refl {f : FileErrors} (h : v.settled.IsFileErrors f) : SameEntry v v := by
  generalize hv : v.settled = x at h
  obtain ⟨hpath, -, hitems, hproblems⟩ := h
  exact ⟨.refl hv hpath fun _ => SameText.refl,
    .refl hv hitems fun _ hy => .refl hy hproblems fun _ _ => SameProblem.refl⟩

theorem SameProjectError.refl {e : ProjectError} (h : v.settled.IsProjectError e) :
    SameProjectError v v := by
  generalize hv : v.settled = x at h
  obtain ⟨hpath, htitle, htext, hmessage, hregion⟩ := h
  exact ⟨.refl hv hpath fun _ _ h => .refl (isText_iff.1 h),
    .refl hv htitle fun _ => SameText.refl, .refl hv hregion fun _ _ => SameRegion.refl,
    .refl hv htext fun y hy => .refl (hy ▸ hmessage)⟩

theorem HasForm.namesForm {form : Document.Form} (h : v.settled.HasForm form) :
    v.NamesForm form := by
  obtain ⟨members, hv, htype⟩ := h
  rw [get?_settled hv, Option.map_eq_some_iff] at htype
  obtain ⟨y, hy, hstring⟩ := htype
  rw [NamesForm, hy, eq_of_settled_eq hstring nofun nofun]

/-- Agreement asks for nothing that a report does not have. -/
theorem SameReport.refl {r : Report} (h : v.settled.IsReport r) : SameReport v v := by
  generalize hv : v.settled = x at h
  cases h with
  | compileErrors hform hentries hfiles =>
    have hnames : v.NamesForm .compileErrors := HasForm.namesForm (hv ▸ hform)
    exact .compileErrors hnames hnames
      (.refl hv hentries fun _ hy => .refl hy hfiles fun _ _ => SameEntry.refl)
  | projectError hform he =>
    have hnames : v.NamesForm .projectError := HasForm.namesForm (hv ▸ hform)
    exact .projectError hnames hnames (.refl (hv ▸ he))

end

end Json

/-- **Issues depend on what a report means only.** Two lines that are reports spell trees, each of
which agrees with itself. When the two agree with each other in what counts, the reports have the
same issues, whatever the file is that problems without one belong to. -/
theorem Document.issues_eq_of_sameReport {number number' : Int} {line line' : Text} {r r' : Report}
    (h : ofLine number line = .ok (.report r)) (h' : ofLine number' line' = .ok (.report r')) :
    (∃ tree, Json.IsTextOf .ofReports line tree ∧ tree.SameReport tree) ∧
      (∃ tree, Json.IsTextOf .ofReports line' tree ∧ tree.SameReport tree) ∧
      ∀ tree tree', Json.IsTextOf .ofReports line tree → Json.IsTextOf .ofReports line' tree' →
        tree.SameReport tree' → ∀ fallback, r.issues fallback = r'.issues fallback := by
  obtain ⟨v, hread, hv⟩ := ofLine_eq_ok_iff.1 h
  obtain ⟨w, hread', hw⟩ := ofLine_eq_ok_iff.1 h'
  refine ⟨?_, ?_, fun tree tree' htree htree' hsame fallback => ?_⟩
  · obtain ⟨tree, htree, rfl⟩ := Json.read_eq_ok_iff_exists_tree.1 hread
    exact ⟨tree, htree, .refl (ofJson_eq_report_iff.1 hv)⟩
  · obtain ⟨tree, htree, rfl⟩ := Json.read_eq_ok_iff_exists_tree.1 hread'
    exact ⟨tree, htree, .refl (ofJson_eq_report_iff.1 hw)⟩
  -- A text is read in one way only, so any of its trees settles to the value that was read.
  · have hsettled := Json.read_eq_ok_iff_exists_tree.2 ⟨tree, htree, rfl⟩
    have hsettled' := Json.read_eq_ok_iff_exists_tree.2 ⟨tree', htree', rfl⟩
    obtain rfl := Except.ok.inj (hread.symm.trans hsettled)
    obtain rfl := Except.ok.inj (hread'.symm.trans hsettled')
    exact hsame.issues_eq (ofJson_eq_report_iff.1 hv) (ofJson_eq_report_iff.1 hw) fallback

set_option maxRecDepth 4000 in
/-- The second line moves, repeats and adds members, writes null where the first has nothing, and
cuts the message into a styled and a plain piece. -/
theorem Document.issues_eq_of_sameReport_rearranged :
    let tree := Json.object [("type", .string "error"), ("title", .string "T"),
      ("message", .list [.string "ab"])]
    let tree' := Json.object [("message", .list []), ("x", .null), ("title", .string "T"),
      ("path", .null), ("type", .string "error"),
      ("message", .list [.object [("bold", .boolean true), ("string", .string "a")], .string "b"])]
    let r := Report.projectError ⟨none, "T", none, [.plain "ab"]⟩
    let r' := Report.projectError ⟨none, "T", none, [.styled "a" ⟨true, false, none⟩, .plain "b"]⟩
    let line' := CodePoint.scalar ' ' :: tree'.compact
    ofLine 1 tree.compact = .ok (.report r) ∧ ofLine 7 line' = .ok (.report r') ∧
      Json.IsTextOf .ofReports tree.compact tree ∧ Json.IsTextOf .ofReports line' tree' ∧
      tree.SameReport tree' ∧ ∀ fallback, r.issues fallback = r'.issues fallback := by
  intro tree tree' r r' line'
  have h : ofLine 1 tree.compact = .ok (.report r) := rfl
  have h' : ofLine 7 line' = .ok (.report r') := rfl
  have hstring (depth : Nat) (s : String) :
      Json.SpellsTree .ofReports depth (Json.string s).compact (.string s) :=
    (Json.Fits.string (Text.isUnpaired_of_isScalar (Text.isScalar_ofString s))).spellsTree_compact
  have htree : Json.IsTextOf .ofReports tree.compact tree := by
    refine ⟨[], tree.compact, [], rfl, Json.isBlanks_nil, Json.isBlanks_nil,
      Json.spellsTree_compact_object (by decide) ?_⟩
    simp only [List.forall_mem_cons, List.not_mem_nil, false_implies, implies_true, and_true]
    refine ⟨hstring _ _, hstring _ _, Json.spellsTree_compact_list ?_⟩
    simpa using hstring _ _
  have htree' : Json.IsTextOf .ofReports line' tree' := by
    refine ⟨[.scalar ' '], tree'.compact, [], rfl, by simp [Json.IsBlanks, Json.isJsonBlank],
      Json.isBlanks_nil, Json.spellsTree_compact_object (by decide) ?_⟩
    simp only [List.forall_mem_cons, List.not_mem_nil, false_implies, implies_true, and_true]
    refine ⟨Json.spellsTree_compact_list (by simp), Json.Fits.null.spellsTree_compact, hstring _ _,
      Json.Fits.null.spellsTree_compact, hstring _ _, Json.spellsTree_compact_list ?_⟩
    simp only [List.forall_mem_cons, List.not_mem_nil, false_implies, implies_true, and_true]
    refine ⟨Json.spellsTree_compact_object (by decide) ?_, hstring _ _⟩
    simp only [List.forall_mem_cons, List.not_mem_nil, false_implies, implies_true, and_true]
    exact ⟨(Json.Fits.boolean true).spellsTree_compact, hstring _ _⟩
  have hsame : tree.SameReport tree' := by
    refine .projectError rfl rfl ⟨.inl ⟨.inl rfl, .inr rfl⟩, ⟨_, _, rfl, rfl, _, rfl, rfl⟩,
      .inl ⟨.inl rfl, .inl rfl⟩, ⟨_, _, rfl, rfl, "ab", ?_, ?_⟩⟩
    · exact .pieces (.cons (.plain "ab") .nil)
    · exact .pieces (.cons (.styled (t := "a") rfl) (.cons (.plain "b") .nil))
  exact ⟨h, h', htree, htree', hsame,
    (Document.issues_eq_of_sameReport h h').2.2 tree tree' htree htree' hsame⟩

end ElmReport
