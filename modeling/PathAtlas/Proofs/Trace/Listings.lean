/-
# Listings and their rows

A line of a listing is known by its words.  It shows a row, which is an answer or a silence, or it
shows nothing: it is blank, it has one word, or it begins with no number (`Spells`).  A listing is a
header and such lines.  What is cut off around the whole text is the front of the header or blanks
behind the last word, so that no line is lost or joined with another one (`hops_eq`), and the trace
has the steps of the rows and no others (`trace_shows_rows`).

The grammar is complete in the sense that `Spells` decides every line by its words, and a reading
fault is met only where a word is no number.  Such a fault is of the kind that is passed over
(`isUnusableValue_of_readWhole`, `isUnusableValue_of_readDecimal`), so no line can end the reading
of a listing.
-/
import Mathlib.Data.List.Forall2
import Mathlib.Data.List.Induction
import Mathlib.Data.List.ReduceOption
import Mathlib.Data.List.TakeWhile
import PathAtlas.Proofs.Outcome
import PathAtlas.Proofs.Text.Words
import PathAtlas.Trace.Listing

namespace PathAtlas

open Text

/-! ## 1. Numbers that cannot be read -/

namespace Text

variable {s : String} {fault : Fault}

/-- A text that spells no whole number is an unusable value and nothing worse. -/
theorem isUnusableValue_of_readWhole (h : readWhole s = .error fault) :
    fault.isUnusableValue = true := by
  unfold readWhole at h
  simp only at h
  split at h
  · cases h; rfl
  · cases h; rfl
  · split at h
    · cases h; rfl
    · split at h
      · cases h
      · cases h; rfl

theorem isUnusableValue_of_readDecimal (h : readDecimal s = .error fault) :
    fault.isUnusableValue = true := by
  unfold readDecimal at h
  split at h
  · cases h
  · cases h; rfl

end Text

namespace Listing

/-! ## 2. Rows -/

/-- What a line shows of a step. -/
inductive Row where
  | answered (ttl : Int) (address : String) (latency : Float)
  | silent (ttl : Int)

namespace Row

/-- The number of the step. -/
def ttl : Row → Int
  | answered ttl _ _ => ttl
  | silent ttl => ttl

/-- Who answered. -/
def address? : Row → Option String
  | answered _ address _ => some address
  | silent _ => none

/-- How long the answer took. -/
def latency? : Row → Option Float
  | answered _ _ latency => some latency
  | silent _ => none

/-- A step as a row shows it: the only probe was answered, or it was lost. -/
structure Shows (row : Row) (hop : Hop Float) : Prop where
  ttl : hop.ttl = .whole row.ttl
  address : hop.address = row.address?
  average : hop.average = row.latency?
  best : hop.best = row.latency?
  worst : hop.worst = row.latency?
  loss : hop.loss = if row.address?.isSome then 0.0 else 100.0
  sent : hop.sent = .whole 1
  received : hop.received = .whole (if row.address?.isSome then 1 else 0)

/-- The step that is made of a row. -/
def hop : Row → Hop Float
  | answered ttl address latency => Listing.answered ttl address latency
  | silent ttl => Listing.silent ttl

theorem shows_hop {row : Row} (h : ∀ address ∈ row.address?, address ≠ "" ∧ address ≠ wildcard) :
    row.Shows row.hop := by
  cases row with
  | answered ttl address latency =>
    have haddress : Hop.address (Listing.answered ttl address latency) = some address := by
      simp [Hop.address, Hop.responder, Hop.answers, Listing.answered, h address rfl]
    exact ⟨rfl, haddress, rfl, rfl, rfl, rfl, rfl, rfl⟩
  | silent ttl => exact ⟨rfl, rfl, rfl, rfl, rfl, rfl, rfl, rfl⟩

end Row

/-- What a line of some words shows: a row, or nothing. -/
inductive Spells : List String → Option Row → Prop
  | answered {number address figure ttl latency} (hnumber : readWhole number = .ok ttl)
      (haddress : address ≠ wildcard) (hfigure : readDecimal figure = .ok latency) :
      Spells [number, address, figure, unit] (some (.answered ttl address latency))
  | silent {number words ttl} (hnumber : readWhole number = .ok ttl) (hstar : wildcard ∈ words)
      (hunit : words.getLast? ≠ some unit) : Spells (number :: words) (some (.silent ttl))
  | blank : Spells [] none
  | single (word) : Spells [word] none
  | unnumbered {word words} (hword : Fails (readWhole word)) : Spells (word :: words) none

section Lines

variable {words : List String} {row : Option Row}

/-- The words of a line give the step that they spell. -/
theorem Spells.hopOfWords_eq (h : Spells words row) : hopOfWords words = row.map Row.hop := by
  cases h with
  | @answered number address figure ttl latency hnumber _ hfigure =>
    simp [hopOfWords, hnumber, hfigure, Row.hop]
  | @silent number words ttl hnumber hstar hunit =>
    cases words with
    | nil => cases hstar
    | cons word words =>
      have hstar' : (number :: word :: words).contains wildcard = true :=
        List.contains_iff_mem.mpr (List.mem_cons_of_mem _ hstar)
      have hunit' : ((number :: word :: words).getLast? == some unit) = false := by
        rw [List.getLast?_cons_cons]
        exact beq_eq_false_iff_ne.mpr hunit
      rw [hopOfWords, hnumber]
      simp only [hunit', hstar', Bool.false_and, Bool.false_eq_true, if_false, if_true]
      rfl
  | blank => rfl
  | single word => rfl
  | @unnumbered word words hword =>
    obtain ⟨fault, hword⟩ := hword
    cases words with
    | nil => rfl
    | cons address rest => rw [hopOfWords, hword]; rfl

/-- An address is a word of its line and not the wildcard. -/
theorem Spells.address (h : Spells words row) :
    ∀ r ∈ row, ∀ address ∈ r.address?, address ∈ words ∧ address ≠ wildcard := by
  cases h with
  | answered _ haddress _ =>
    rintro r ⟨⟩ address ⟨⟩
    exact ⟨by simp, haddress⟩
  | silent _ _ _ =>
    rintro r ⟨⟩ address ⟨⟩
  | _ => rintro r ⟨⟩

/-- A line, laid out in words, and what it shows. -/
structure Line (line : String) (row : Option Row) : Prop where
  unbroken : '\n' ∉ line.toList
  spelled : ∃ words : List String, Laid line.toList (words.map String.toList) ∧ Spells words row

/-- A first line that is not blank. -/
structure Header (line : String) : Prop where
  unbroken : '\n' ∉ line.toList
  solid : ∃ c ∈ line.toList, isBlank c = false

variable {line : String}

theorem Line.hopOfLine_eq (h : Line line row) : hopOfLine line.toList = row.map Row.hop := by
  obtain ⟨words, hlaid, hspells⟩ := h.spelled
  rw [hopOfLine, hlaid.words_eq, List.map_map, ← hspells.hopOfWords_eq]
  simp

theorem Line.shows (h : Line line row) : ∀ r ∈ row, r.Shows r.hop := by
  obtain ⟨words, hlaid, hspells⟩ := h.spelled
  intro r hr
  refine Row.shows_hop fun address haddress => ?_
  obtain ⟨hword, hne⟩ := hspells.address r hr address haddress
  refine ⟨?_, hne⟩
  rintro rfl
  exact hlaid.ne_nil _ (List.mem_map_of_mem hword) rfl

end Lines

/-! ## 3. Whole listings -/

/-- The steps of the lines behind the first one. -/
def stepsBelow (cs : List Char) : List (Hop Float) := ((lines cs).drop 1).filterMap hopOfLine

/-- A blank behind a text brings no step and changes none. -/
theorem stepsBelow_concat {c : Char} (hc : isBlank c = true) (cs : List Char) :
    stepsBelow (cs ++ [c]) = stepsBelow cs := by
  rw [stepsBelow, stepsBelow]
  by_cases hfeed : c = '\n'
  · have hlines : lines (cs ++ [c]) = lines cs ++ [[]] :=
      pieces_append_cons (p := (· == '\n')) (beq_iff_eq.mpr hfeed) cs []
    obtain ⟨first, rest, hcons⟩ := List.exists_cons_of_ne_nil (pieces_ne_nil (· == '\n') cs)
    rw [hlines, lines, hcons, List.cons_append, List.drop_one, List.drop_one, List.tail_cons,
      List.tail_cons, List.filterMap_append]
    exact List.append_nil _
  · obtain ⟨front, last, hlines, hconcat⟩ :=
      pieces_concat (p := (· == '\n')) (beq_eq_false_iff_ne.mpr hfeed) cs
    have hlast : hopOfLine (last ++ [c]) = hopOfLine last := by
      rw [hopOfLine, words_append_blank (by simpa using hc), hopOfLine]
    rw [lines, lines, hlines, hconcat]
    cases front with
    | nil => rfl
    | cons first front =>
      rw [List.cons_append, List.cons_append, List.drop_one, List.drop_one, List.tail_cons,
        List.tail_cons, List.filterMap_append, List.filterMap_append, List.filterMap_cons,
        List.filterMap_cons, hlast]

/-- Nor does what is cut off at the end of a text. -/
theorem stepsBelow_trimRightBy (cs : List Char) :
    stepsBelow (trimRightBy isBlank cs) = stepsBelow cs := by
  induction cs using List.reverseRecOn with
  | nil => rfl
  | append_singleton cs c ih =>
    rw [trimRightBy, List.reverse_concat, List.dropWhile_cons]
    split
    · rename_i hc
      rw [stepsBelow_concat hc, ← ih, trimRightBy]
    · rw [List.reverse_cons, List.reverse_reverse]

/-- What is cut off at the front of a text with a header is part of the header. -/
theorem dropWhile_header {header : String} (h : Header header) (rest : List Char) :
    (header.toList ++ rest).dropWhile isBlank = header.toList.dropWhile isBlank ++ rest := by
  obtain ⟨c, hc, hsolid⟩ := h.solid
  have hne : header.toList.dropWhile isBlank ≠ [] := by
    intro hnil
    have hblank := List.dropWhile_eq_nil_iff.mp hnil c hc
    rw [hsolid] at hblank
    cases hblank
  rw [List.dropWhile_append, if_neg (by simpa using hne)]

section Listings

variable {header : String} {ls : List String} {rows : List (Option Row)}

/-- **The lines of a listing** are read one by one. -/
theorem hops_eq_filterMap (hheader : Header header) (hls : ∀ line ∈ ls, '\n' ∉ line.toList) :
    hops ("\n".intercalate (header :: ls)) = ls.filterMap fun line => hopOfLine line.toList := by
  have hjoined : ∃ rest, ∀ first : List Char,
      ['\n'].intercalate (first :: ls.map String.toList) = first ++ rest := by
    cases ls with
    | nil => exact ⟨[], fun first => by simp⟩
    | cons line ls =>
      exact ⟨['\n'] ++ ['\n'].intercalate (line.toList :: ls.map String.toList), fun first => by
        rw [List.map_cons, List.intercalate_cons_cons, List.append_assoc]⟩
  obtain ⟨rest, hjoined⟩ := hjoined
  have hlines : lines (header.toList.dropWhile isBlank ++ rest)
      = header.toList.dropWhile isBlank :: ls.map String.toList := by
    rw [← hjoined, lines_intercalate (List.cons_ne_nil _ _)]
    intro line hline
    rcases List.mem_cons.mp hline with rfl | hline
    · exact fun hfeed => hheader.unbroken ((List.dropWhile_sublist _).subset hfeed)
    · obtain ⟨line, hmem, rfl⟩ := List.mem_map.mp hline
      exact hls line hmem
  have htext : ("\n".intercalate (header :: ls)).toList = header.toList ++ rest := by
    rw [String.toList_intercalate, List.map_cons]
    exact hjoined _
  show stepsBelow (trimRightBy isBlank (List.dropWhile isBlank _)) = _
  rw [htext, dropWhile_header hheader, stepsBelow_trimRightBy, stepsBelow, hlines, List.drop_one,
    List.tail_cons, List.filterMap_map]
  rfl

theorem filterMap_hopOfLine_eq (h : List.Forall₂ Line ls rows) :
    ls.filterMap (fun line => hopOfLine line.toList) = rows.reduceOption.map Row.hop := by
  induction h with
  | nil => rfl
  | @cons line row ls rows hline _ ih =>
    rw [List.filterMap_cons, hline.hopOfLine_eq, ih]
    cases row <;> rfl

/-- **The steps of a listing** are those of its rows. -/
theorem hops_eq (hheader : Header header) (hls : List.Forall₂ Line ls rows) :
    hops ("\n".intercalate (header :: ls)) = rows.reduceOption.map Row.hop := by
  have hunbroken : ∀ line ∈ ls, '\n' ∉ line.toList :=
    ((List.forall₂_and_left _ _).mp (hls.imp fun _ _ h => ⟨h.unbroken, h⟩)).1
  rw [hops_eq_filterMap hheader hunbroken, filterMap_hopOfLine_eq hls]

/-- Rows are shown by the steps that are made of them. -/
theorem forall₂_shows (hls : List.Forall₂ Line ls rows) :
    List.Forall₂ Row.Shows rows.reduceOption (rows.reduceOption.map Row.hop) := by
  induction hls with
  | nil => exact .nil
  | @cons line row ls rows hline _ ih =>
    cases row with
    | none => exact ih
    | some r => exact .cons (hline.shows r rfl) ih

end Listings

/-! ## 4. Traces -/

section Traces

variable {output source target : String} {time : Float}

/-- There is no trace without steps. -/
theorem trace_eq_none_iff : trace output source target time = none ↔ hops output = [] := by
  rw [trace]
  cases hops output <;> simp

theorem trace_eq_some_iff {t : Trace Float} : trace output source target time = some t ↔
    hops output ≠ [] ∧ t = { source, target, hops := hops output, time } := by
  rw [trace]
  cases hops output with
  | nil => simp
  | cons hop rest => simp [eq_comm]

end Traces

/-- **A listing has the trace of its rows.**  Below a header that is not blank, each line that is
laid out as an answer or a silence gives one step, in its place, and the lines that show nothing
give none; there is no trace just when no line shows a row.  Whatever the text is, a word that
spells no number is passed over: reading it meets no other fault. -/
theorem trace_shows_rows (source target : String) (time : Float) :
    (∀ (header : String) (ls : List String) (rows : List (Option Row)),
      Header header → List.Forall₂ Line ls rows →
        let listing := "\n".intercalate (header :: ls)
        (trace listing source target time = none ↔ ∀ row ∈ rows, row = none) ∧
          ∀ t, trace listing source target time = some t →
            t.source = source ∧ t.target = target ∧ t.time = time ∧
              List.Forall₂ Row.Shows rows.reduceOption t.hops) ∧
      ∀ word fault, (readWhole word = .error fault ∨ readDecimal word = .error fault) →
        fault.isUnusableValue = true := by
  refine ⟨fun header ls rows hheader hls => ?_, fun word fault h => ?_⟩
  · have hhops := hops_eq hheader hls
    constructor
    · rw [trace_eq_none_iff, hhops, List.map_eq_nil_iff]
      exact List.filterMap_eq_nil_iff
    · intro t ht
      obtain ⟨-, rfl⟩ := trace_eq_some_iff.mp ht
      exact ⟨rfl, rfl, rfl, hhops ▸ forall₂_shows hls⟩
  · rcases h with h | h
    · exact isUnusableValue_of_readWhole h
    · exact isUnusableValue_of_readDecimal h

/-- The lines below a header: an answer, three lines that show nothing, and a silence. -/
def printed : List String := [" 1  10.0.0.1\t1.5 ms", "", "  note", "to 10.0.0.9 ms", "2 * * * "]

theorem line_printed : List.Forall₂ Line printed
    [some (.answered 1 "10.0.0.1" 1.5), none, none, none, some (.silent 2)] := by
  have hline : ∀ {line row} (words : List String), '\n' ∉ line.toList →
      Text.words line.toList = words.map String.toList → Spells words row → Line line row :=
    fun words hunbroken hwords hspells => ⟨hunbroken, words, laid_iff.mpr hwords, hspells⟩
  refine .cons (hline ["1", "10.0.0.1", "1.5", "ms"] (by decide) (by decide +kernel) ?_)
    (.cons (hline [] (by decide) (by decide +kernel) .blank)
    (.cons (hline ["note"] (by decide) (by decide +kernel) (.single _))
    (.cons (hline ["to", "10.0.0.9", "ms"] (by decide) (by decide +kernel) ?_)
    (.cons (hline ["2", "*", "*", "*"] (by decide) (by decide +kernel) ?_) .nil))))
  · exact .answered (by decide +kernel) (by decide) (by decide +kernel)
  · exact .unnumbered ⟨.notWhole "to", by decide +kernel⟩
  · exact .silent (by decide +kernel) (by decide) (by decide)

theorem trace_shows_rows_printed :
    ∃ t, trace ("\n".intercalate ("route to 10.0.0.9" :: printed)) "7" "10.0.0.9" 5 = some t ∧
      t.source = "7" ∧ t.target = "10.0.0.9" ∧ t.time = 5 ∧
      List.Forall₂ Row.Shows [.answered 1 "10.0.0.1" 1.5, .silent 2] t.hops := by
  have hheader : Header "route to 10.0.0.9" := ⟨by decide, 'r', by decide, by decide⟩
  obtain ⟨hlistings, -⟩ := trace_shows_rows "7" "10.0.0.9" 5
  obtain ⟨hnone, hsome⟩ := hlistings _ printed _ hheader line_printed
  cases ht : trace ("\n".intercalate ("route to 10.0.0.9" :: printed)) "7" "10.0.0.9" 5 with
  | none => exact absurd (hnone.mp ht (some (.silent 2)) (by simp)) (by simp)
  | some t => exact ⟨t, rfl, hsome t ht⟩

end Listing

end PathAtlas
