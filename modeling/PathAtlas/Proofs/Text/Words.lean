/-
# Words and lines

Cutting at separators puts a text into pieces, one more than there are separators.  Lines are all
pieces between line feeds, so lines that were joined are found again (`lines_intercalate`).  Words
are the pieces between blanks that hold anything, and how many blanks there are does not matter: a
text is laid out in words (`Laid`), and these are the words that are found (`laid_iff`).

`Laid` is an inductive predicate with blanks as wide as one likes, which is how a line is described
that a program has printed.  It holds of every list of characters and some list of words
(`exists_laid`), so a theorem about texts that are laid out in words leaves no text aside.
-/
import Mathlib.Data.List.Basic
import PathAtlas.Text.Blank

namespace PathAtlas.Text

/-! ## 1. Pieces -/

theorem pieces_eq_splitOnP (p : Char → Bool) (cs : List Char) : pieces p cs = cs.splitOnP p := by
  induction cs with
  | nil => rfl
  | cons c cs ih =>
    rw [pieces, List.splitOnP_cons_eq_if_modifyHead, ih]
    cases hrest : cs.splitOnP p with
    | nil => exact absurd hrest (List.splitOnP_ne_nil p cs)
    | cons w ws => rfl

variable {p : Char → Bool} {c : Char} {cs : List Char}

theorem pieces_ne_nil (p : Char → Bool) (cs : List Char) : pieces p cs ≠ [] := by
  rw [pieces_eq_splitOnP]
  exact List.splitOnP_ne_nil p cs

/-- A text is cut at a separator. -/
theorem pieces_append_cons (hc : p c = true) (xs ys : List Char) :
    pieces p (xs ++ c :: ys) = pieces p xs ++ pieces p ys := by
  simp only [pieces_eq_splitOnP]
  exact List.splitOnP_append_cons xs ys hc

theorem pieces_of_forall (h : ∀ c ∈ cs, p c = false) : pieces p cs = [cs] := by
  rw [pieces_eq_splitOnP, List.splitOnP_eq_singleton h]

/-- What is no separator goes to the last piece. -/
theorem pieces_concat (hc : p c = false) (cs : List Char) :
    ∃ front last,
      pieces p cs = front ++ [last] ∧ pieces p (cs ++ [c]) = front ++ [last ++ [c]] := by
  induction cs with
  | nil => exact ⟨[], [], rfl, pieces_of_forall (by simpa using hc)⟩
  | cons d cs ih =>
    obtain ⟨front, last, hcs, hconcat⟩ := ih
    rw [List.cons_append, pieces, pieces, hcs, hconcat]
    cases hd : p d with
    | true => exact ⟨[] :: front, last, rfl, rfl⟩
    | false =>
      cases front with
      | nil => exact ⟨[], d :: last, rfl, rfl⟩
      | cons w front => exact ⟨(d :: w) :: front, last, rfl, rfl⟩

/-! ## 2. Lines -/

/-- **Joined lines** are found again. -/
theorem lines_intercalate {ls : List (List Char)} (hne : ls ≠ []) (h : ∀ l ∈ ls, '\n' ∉ l) :
    lines (['\n'].intercalate ls) = ls := by
  rw [lines, pieces_eq_splitOnP]
  exact List.splitOn_intercalate '\n' h hne

/-! ## 3. Words -/

theorem words_append_cons (hc : isBlank c = true) (xs ys : List Char) :
    words (xs ++ c :: ys) = words xs ++ words ys := by
  rw [words, pieces_append_cons hc, List.filter_append, words, words]

theorem words_cons_of_blank (hc : isBlank c = true) (cs : List Char) : words (c :: cs) = words cs :=
  words_append_cons hc [] cs

theorem words_blank_append {gap : List Char} (h : ∀ c ∈ gap, isBlank c = true) (cs : List Char) :
    words (gap ++ cs) = words cs := by
  induction gap with
  | nil => rfl
  | cons c gap ih =>
    obtain ⟨hc, hgap⟩ := List.forall_mem_cons.mp h
    rw [List.cons_append, words_cons_of_blank hc, ih hgap]

theorem words_of_blank {gap : List Char} (h : ∀ c ∈ gap, isBlank c = true) : words gap = [] := by
  have hgap := words_blank_append h []
  rwa [List.append_nil] at hgap

theorem words_append_blank {gap : List Char} (h : ∀ c ∈ gap, isBlank c = true) (cs : List Char) :
    words (cs ++ gap) = words cs := by
  cases gap with
  | nil => rw [List.append_nil]
  | cons c gap =>
    obtain ⟨hc, hgap⟩ := List.forall_mem_cons.mp h
    rw [words_append_cons hc, words_of_blank hgap, List.append_nil]

/-- A row of letters without a blank is one word. -/
theorem words_of_solid {w : List Char} (hne : w ≠ []) (h : ∀ c ∈ w, isBlank c = false) :
    words w = [w] := by
  rw [words, pieces_of_forall h]
  simp [hne]

/-- A text with its words: blanks stand before, between and behind them. -/
inductive Laid : List Char → List (List Char) → Prop
  | blank {gap} (hgap : ∀ c ∈ gap, isBlank c = true) : Laid gap []
  | word {gap w rest ws} (hgap : ∀ c ∈ gap, isBlank c = true) (hne : w ≠ [])
      (hsolid : ∀ c ∈ w, isBlank c = false) (hends : ∀ c ∈ rest.head?, isBlank c = true)
      (hrest : Laid rest ws) : Laid (gap ++ w ++ rest) (w :: ws)

/-- **The words of a text** are found, whatever blanks are between them. -/
theorem Laid.words_eq {ws : List (List Char)} (h : Laid cs ws) : words cs = ws := by
  induction h with
  | blank hgap => exact words_of_blank hgap
  | @word gap w rest ws hgap hne hsolid hends _ ih =>
    rw [List.append_assoc, words_blank_append hgap]
    cases rest with
    | nil => rw [List.append_nil, words_of_solid hne hsolid, ← ih]; rfl
    | cons c rest =>
      have hc : isBlank c = true := hends c rfl
      rw [words_append_cons hc, words_of_solid hne hsolid, ← ih, words_cons_of_blank hc]
      rfl

/-- Every text has its words. -/
theorem exists_laid (cs : List Char) : ∃ ws, Laid cs ws := by
  induction cs with
  | nil => exact ⟨[], .blank (by simp)⟩
  | cons c cs ih =>
    obtain ⟨ws, hlaid⟩ := ih
    cases hc : isBlank c with
    | true =>
      cases hlaid with
      | blank hgap => exact ⟨[], .blank (List.forall_mem_cons.mpr ⟨hc, hgap⟩)⟩
      | word hgap hne hsolid hends hrest =>
        exact ⟨_, .word (List.forall_mem_cons.mpr ⟨hc, hgap⟩) hne hsolid hends hrest⟩
    | false =>
      -- the letter begins the first word that follows, or is a word by itself before a gap
      have hgrown : ∀ {w rest ws}, (∀ c ∈ w, isBlank c = false) →
          (∀ b ∈ rest.head?, isBlank b = true) → Laid rest ws →
            Laid (c :: w ++ rest) ((c :: w) :: ws) :=
        fun hsolid hends hrest => Laid.word (List.forall_mem_nil _) (List.cons_ne_nil _ _)
          (List.forall_mem_cons.mpr ⟨hc, hsolid⟩) hends hrest
      cases hlaid with
      | blank hgap =>
        exact ⟨_, hgrown (w := []) (List.forall_mem_nil _)
          (fun b hb => hgap b (List.mem_of_head? hb)) (.blank hgap)⟩
      | @word gap w rest ws hgap hne hsolid hends hrest =>
        cases gap with
        | nil => exact ⟨_, hgrown hsolid hends hrest⟩
        | cons b gap =>
          refine ⟨_, hgrown (w := []) (List.forall_mem_nil _) (fun b' hb' => ?_)
            (.word hgap hne hsolid hends hrest)⟩
          obtain rfl : b = b' := Option.some.inj hb'
          exact hgap b List.mem_cons_self

/-- **Every text** is laid out in its words and in no others. -/
theorem laid_iff {ws : List (List Char)} : Laid cs ws ↔ words cs = ws := by
  refine ⟨Laid.words_eq, ?_⟩
  rintro rfl
  obtain ⟨ws, hlaid⟩ := exists_laid cs
  exact hlaid.words_eq.symm ▸ hlaid

theorem Laid.ne_nil {ws : List (List Char)} (h : Laid cs ws) : ∀ w ∈ ws, w ≠ [] := by
  rw [← h.words_eq]
  intro w hw
  simpa using (List.mem_filter.mp hw).2

end PathAtlas.Text
