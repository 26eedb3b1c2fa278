import ElmReport.Compiler.Options
import Mathlib.Logic.Basic

/-!
# The command as a shell reads it

A shell parts a line into words at runs of spaces. A double quote starts and ends a stretch in which
spaces do not part words, and is no part of a word itself. Every other character stands for itself.

The command that checks a file names the file between double quotes, so the file is one word
whatever spaces it holds. Nothing else in the command is quoted: a shell reads the words that are
started without a shell exactly when the executable, the form of the report and the output are words
as they stand.

## Main definitions

* `Shell.words`: the words of a line.
* `Shell.IsWord`: the texts that are a word as they stand.

## Main results

* `Shell.words_join`: the words of texts with spaces between them.
* `Shell.words_eq_singleton_iff`: which texts without quotes are one word.
* `CompilerOptions.words_commandLine`: what a shell starts.
* `CompilerOptions.words_commandLine_eq_iff`: when this is what is started without a shell.
-/

namespace ElmReport

namespace Shell

/-- The space that parts words. -/
def space : CodePoint := .scalar ' '

/-- The double quote, which starts and ends a quoted stretch. -/
def quote : CodePoint := .scalar '\x22'

/-- The words of a text that goes on inside or outside of quotes, after the beginning of a word or
between words. -/
def wordsFrom (quoted : Bool) (word : Option Text) : Text → List Text
  | [] => word.toList
  | p :: t =>
    if p = quote then wordsFrom (!quoted) (some (word.getD [])) t
    else if p = space ∧ quoted = false then word.toList ++ wordsFrom false none t
    else wordsFrom quoted (some (word.getD [] ++ [p])) t

/-- The words of a line. -/
def words (line : Text) : List Text := wordsFrom false none line

/-- A text that is a word as it stands, when it holds no quotes. -/
def IsWord (t : Text) : Prop := t ≠ [] ∧ space ∉ t

/-! ### One code point -/

section

variable {quoted : Bool} {word : Option Text} {p : CodePoint} {t : Text}

theorem wordsFrom_quote : wordsFrom quoted word (quote :: t) =
    wordsFrom (!quoted) (some (word.getD [])) t := by
  rw [wordsFrom, if_pos rfl]

theorem wordsFrom_space : wordsFrom false word (space :: t) =
    word.toList ++ wordsFrom false none t := by
  rw [wordsFrom, if_neg (by decide), if_pos ⟨rfl, rfl⟩]

theorem wordsFrom_plain (hquote : p ≠ quote) (hspace : p ≠ space) :
    wordsFrom quoted word (p :: t) = wordsFrom quoted (some (word.getD [] ++ [p])) t := by
  rw [wordsFrom, if_neg hquote, if_neg fun h => hspace h.1]

theorem wordsFrom_quoted (hquote : p ≠ quote) : wordsFrom true word (p :: t) =
    wordsFrom true (some (word.getD [] ++ [p])) t := by
  rw [wordsFrom, if_neg hquote, if_neg fun h => nomatch h.2]

end

/-! ### Texts without quotes -/

/-- Without quotes a space parts the words before it from those after it. -/
theorem wordsFrom_append_space (word : Option Text) {t : Text} (h : quote ∉ t) (rest : Text) :
    wordsFrom false word (t ++ space :: rest) = wordsFrom false word t ++ words rest := by
  induction t generalizing word with
  | nil => exact wordsFrom_space
  | cons p t ih =>
    obtain ⟨hp, ht⟩ := not_or.1 (List.mem_cons.not.1 h)
    by_cases hspace : p = space
    · subst hspace
      rw [List.cons_append, wordsFrom_space, wordsFrom_space, ih none ht, List.append_assoc]
    · rw [List.cons_append, wordsFrom_plain (Ne.symm hp) hspace,
        wordsFrom_plain (Ne.symm hp) hspace, ih _ ht]

/-- A text without quotes and spaces goes on with a word. -/
theorem wordsFrom_of_not_mem (word : Text) {t : Text} (hquote : quote ∉ t) (hspace : space ∉ t) :
    wordsFrom false (some word) t = [word ++ t] := by
  induction t generalizing word with
  | nil => simp [wordsFrom]
  | cons p t ih =>
    obtain ⟨hp, ht⟩ := not_or.1 (List.mem_cons.not.1 hquote)
    obtain ⟨hp', ht'⟩ := not_or.1 (List.mem_cons.not.1 hspace)
    rw [wordsFrom_plain (Ne.symm hp) (Ne.symm hp'), ih _ ht ht']
    simp

/-- A word that has begun is not empty, and without quotes no word holds a space. -/
theorem isWord_of_mem_wordsFrom {word : Option Text} {t w : Text} (hquote : quote ∉ t)
    (hword : ∀ v, word = some v → IsWord v) (hw : w ∈ wordsFrom false word t) : IsWord w := by
  induction t generalizing word with
  | nil => exact hword w (Option.mem_toList.1 hw)
  | cons p t ih =>
    obtain ⟨hp, ht⟩ := not_or.1 (List.mem_cons.not.1 hquote)
    by_cases hspace : p = space
    · subst hspace
      rw [wordsFrom_space] at hw
      rcases List.mem_append.1 hw with hw | hw
      · exact hword w (Option.mem_toList.1 hw)
      · refine ih ht ?_ hw
        rintro v ⟨⟩
    · rw [wordsFrom_plain (Ne.symm hp) hspace] at hw
      refine ih ht (fun v hv => ?_) hw
      obtain rfl := Option.some.inj hv
      refine ⟨by simp, fun hmem => ?_⟩
      rcases List.mem_append.1 hmem with hmem | hmem
      · rcases word with _ | u
        · cases hmem
        · exact (hword u rfl).2 hmem
      · exact hspace (List.mem_singleton.1 hmem).symm

theorem isWord_of_mem_words {t w : Text} (h : quote ∉ t) (hw : w ∈ words t) : IsWord w := by
  refine isWord_of_mem_wordsFrom h ?_ hw
  rintro v ⟨⟩

/-- Without quotes a text is one word exactly when it is a word as it stands. -/
theorem words_eq_singleton_iff {t : Text} (h : quote ∉ t) : words t = [t] ↔ IsWord t := by
  constructor
  · intro ht
    have hmem : t ∈ words t := by rw [ht, List.mem_singleton]
    exact isWord_of_mem_words h hmem
  · rintro ⟨hne, hspace⟩
    obtain ⟨p, t, rfl⟩ := List.exists_cons_of_ne_nil hne
    obtain ⟨hp, ht⟩ := not_or.1 (List.mem_cons.not.1 h)
    obtain ⟨hp', ht'⟩ := not_or.1 (List.mem_cons.not.1 hspace)
    rw [words, wordsFrom_plain (Ne.symm hp) (Ne.symm hp'), wordsFrom_of_not_mem _ ht ht']
    rfl

/-- A text without quotes opens a list of words only if it is a word as it stands, when the words
after it are one that stands by itself and others. -/
theorem isWord_of_words_append {t next : Text} {rest rest' : List Text} (hquote : quote ∉ t)
    (hnext : words next = [next]) (h : words t ++ next :: rest = t :: rest') : IsWord t := by
  rcases hwords : words t with _ | ⟨w, ws⟩
  · rw [hwords] at h
    obtain rfl := (List.cons.inj h).1
    rw [hnext] at hwords
    cases hwords
  · rw [hwords] at h
    obtain rfl := (List.cons.inj h).1
    have hmem : w ∈ words w := by rw [hwords]; exact List.mem_cons_self
    exact isWord_of_mem_words hquote hmem

/-! ### Quoted texts -/

/-- Inside of quotes every other code point goes on with the word. -/
theorem wordsFrom_true_append (word : Text) {t : Text} (h : quote ∉ t) (rest : Text) :
    wordsFrom true (some word) (t ++ rest) = wordsFrom true (some (word ++ t)) rest := by
  induction t generalizing word with
  | nil => simp
  | cons p t ih =>
    obtain ⟨hp, ht⟩ := not_or.1 (List.mem_cons.not.1 h)
    rw [List.cons_append, wordsFrom_quoted (Ne.symm hp), ih _ ht]
    simp

/-- A text between quotes is one word, whatever spaces it holds, and also when it is empty. -/
theorem words_quoted_append {t : Text} (h : quote ∉ t) (rest : Text) :
    words (quote :: (t ++ quote :: rest)) = wordsFrom false (some t) rest := by
  rw [words, wordsFrom_quote, Option.getD_none, Bool.not_false, wordsFrom_true_append _ h,
    wordsFrom_quote]
  rfl

/-! ### Texts with spaces between them -/

/-- A text whose words are not changed by what follows a space. -/
def IsClosed (t : Text) : Prop := ∀ rest, words (t ++ space :: rest) = words t ++ words rest

theorem isClosed_of_not_mem {t : Text} (h : quote ∉ t) : IsClosed t :=
  wordsFrom_append_space none h

theorem isClosed_quoted {t : Text} (h : quote ∉ t) : IsClosed (quote :: (t ++ [quote])) := by
  intro rest
  have hcons : quote :: (t ++ [quote]) ++ space :: rest =
      quote :: (t ++ quote :: space :: rest) := by simp
  rw [hcons, words_quoted_append h, words_quoted_append h, wordsFrom_space]
  rfl

/-- The words of texts with spaces between them are the words of one text after the other. -/
theorem words_join {ts : List Text} (h : ∀ t ∈ ts, IsClosed t) :
    words (Text.join " " ts) = ts.flatMap words := by
  induction ts with
  | nil => rfl
  | cons t ts ih =>
    obtain ⟨ht, hts⟩ := List.forall_mem_cons.1 h
    rcases ts with _ | ⟨u, us⟩
    · simp [Text.join]
    · have hjoin : Text.join " " (t :: u :: us) = t ++ space :: Text.join " " (u :: us) :=
        List.intercalate_cons_cons.trans (by simp [Text.join, Text.ofString, space])
      rw [hjoin, ht, ih hts, List.flatMap_cons (x := t)]

end Shell

namespace CompilerOptions

open Shell

/-- The options without a shell. -/
def direct (o : CompilerOptions) : CompilerOptions := { o with useShell := false }

/-- None of the texts that a user chooses for a command holds a quote. -/
structure IsUnquoted (o : CompilerOptions) (file : Text) : Prop where
  executable : quote ∉ o.executable
  report : quote ∉ o.report
  output : quote ∉ o.output
  file : quote ∉ file

/-- **What a shell starts.** The file is one word, and so are the words of the command that are
always the same. Everything else falls apart into the words that it is made of. -/
theorem words_commandLine {o : CompilerOptions} {file : Text} (hshell : o.useShell = true)
    (h : o.IsUnquoted file) :
    words (o.commandLine file) = words o.executable ++ ("make" : Text) :: file ::
      ("--report" : Text) :: (words o.report ++ ("--output" : Text) :: words o.output) := by
  have hclosed : ∀ t ∈ o.arguments file, IsClosed t := by
    simp only [arguments, fileWord, hshell, if_true, List.forall_mem_cons]
    exact ⟨isClosed_of_not_mem h.executable, isClosed_of_not_mem (by decide),
      isClosed_quoted h.file, isClosed_of_not_mem (by decide), isClosed_of_not_mem h.report,
      isClosed_of_not_mem (by decide), isClosed_of_not_mem h.output, List.forall_mem_nil _⟩
  have hfile : words (o.fileWord file) = [file] := by
    rw [fileWord, if_pos hshell]
    exact words_quoted_append h.file []
  have hmake : words "make" = [("make" : Text)] := rfl
  have hreport : words "--report" = [("--report" : Text)] := rfl
  have houtput : words "--output" = [("--output" : Text)] := rfl
  rw [commandLine, words_join hclosed]
  simp [arguments, hfile, hmake, hreport, houtput]

/-- **When a shell starts what is started without one.** A command of which no part holds a quote
falls apart into the words that are started without a shell, exactly when its executable, the form
of its report and its output are words as they stand: they are not empty and hold no spaces. The
file may be any. -/
theorem words_commandLine_eq_iff {o : CompilerOptions} {file : Text} (hshell : o.useShell = true)
    (h : o.IsUnquoted file) :
    words (o.commandLine file) = o.direct.arguments file ↔
      IsWord o.executable ∧ IsWord o.report ∧ IsWord o.output := by
  rw [words_commandLine hshell h]
  have harguments : o.direct.arguments file =
      o.executable :: ("make" : Text) :: file :: ("--report" : Text) :: o.report ::
        ("--output" : Text) :: [o.output] := rfl
  rw [harguments, ← words_eq_singleton_iff h.executable, ← words_eq_singleton_iff h.report,
    ← words_eq_singleton_iff h.output]
  constructor
  · intro heq
    have hexecutable := (words_eq_singleton_iff h.executable).2
      (isWord_of_words_append h.executable rfl heq)
    rw [hexecutable] at heq
    have heq : words o.report ++ ("--output" : Text) :: words o.output =
        o.report :: ("--output" : Text) :: [o.output] := by simpa using heq
    have hreport := (words_eq_singleton_iff h.report).2
      (isWord_of_words_append h.report rfl heq)
    rw [hreport] at heq
    exact ⟨hexecutable, hreport, by simpa using heq⟩
  · rintro ⟨hexecutable, hreport, houtput⟩
    rw [hexecutable, hreport, houtput]
    rfl

/-- A file with spaces in its name, and the options of a platform that starts programs through a
shell. -/
theorem words_commandLine_eq_iff_standard :
    let o := forPlatform "win32"
    let file : Text := "C:\\My App\\A.elm"
    o.useShell = true ∧ o.IsUnquoted file ∧
      words (o.commandLine file) =
        [("elm" : Text), "make", file, "--report", "json", "--output", "/dev/null"] := by
  intro o file
  have hshell : o.useShell = true := by decide
  have hquotes : o.IsUnquoted file := ⟨by decide, by decide, by decide, by decide⟩
  have hwords : IsWord o.executable ∧ IsWord o.report ∧ IsWord o.output :=
    ⟨⟨by decide, by decide⟩, ⟨by decide, by decide⟩, by decide, by decide⟩
  exact ⟨hshell, hquotes, (words_commandLine_eq_iff hshell hquotes).2 hwords⟩

/-- A shell does not start an executable with a space in its name. -/
theorem words_commandLine_spaced :
    let o : CompilerOptions := { executable := "my elm", useShell := true }
    o.IsUnquoted "A.elm" ∧
      words (o.commandLine "A.elm") =
        [("my" : Text), "elm", "make", "A.elm", "--report", "json", "--output", "/dev/null"] ∧
      words (o.commandLine "A.elm") ≠ o.direct.arguments "A.elm" :=
  ⟨⟨by decide, by decide, by decide, by decide⟩, rfl, by decide⟩

end CompilerOptions

end ElmReport
