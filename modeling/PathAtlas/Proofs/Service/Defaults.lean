/-
# Settings and their defaults

Settings are laid over the defaults section by section, so a value can be followed along its row of
keys (`Json.at?`).  Where the document misses a key, the default stays (`at?_mergeValue_of_omits`),
and anywhere else the document has its way (`at?_mergeValue`).  What is merged stays as it is when
the same document is laid over it once more (`mergeValue_again`).

A section that is left empty is null, and null is a value like any other: it replaces the section of
the defaults with all that is in it.  So the settings have a value at every row of keys of the
defaults just when the document leaves none of their sections empty (`load_completes_iff`).
-/
import Mathlib.Data.List.Nodup
import PathAtlas.Service.Settings

namespace PathAtlas

/-! ## 1. Rows of keys -/

namespace Json

/-- The value that a row of keys leads to, from mapping to mapping. -/
def at? : Json → List String → Option Json
  | doc, [] => some doc
  | doc, key :: path => (doc.get? key).bind fun v => v.at? path

/-- Whether a value is a mapping, which has further keys below it. -/
def IsSection : Json → Prop
  | .mapping _ => True
  | _ => False

mutual

/-- No section of a document has a key twice. -/
def Distinct : Json → Prop
  | .mapping es => (es.map Prod.fst).Nodup ∧ DistinctEntries es
  | _ => True

/-- No section in the values of some entries has a key twice. -/
def DistinctEntries : List (String × Json) → Prop
  | [] => True
  | (_, v) :: es => v.Distinct ∧ DistinctEntries es

end

/-- A document lacks a key on the way along a row of keys. -/
inductive Omits : Json → List String → Prop
  | here {es key path} (missing : lookUp key es = none) : Omits (.mapping es) (key :: path)
  | inside {es key path v} (found : lookUp key es = some v) (rest : Omits v path) :
    Omits (.mapping es) (key :: path)

/-- A document leaves a section empty on the way along a row of keys. -/
inductive LeavesEmpty : Json → List String → Prop
  | here {key path} : LeavesEmpty .null (key :: path)
  | inside {es key path v} (found : lookUp key es = some v) (rest : LeavesEmpty v path) :
    LeavesEmpty (.mapping es) (key :: path)

theorem at?_mapping_cons (es : List (String × Json)) (key : String) (path : List String) :
    (mapping es).at? (key :: path) = (lookUp key es).bind fun v => v.at? path := rfl

/-- Rows of keys lead on through mappings alone. -/
theorem at?_cons_eq_some {doc : Json} {key : String} {path : List String} {v : Json}
    (h : doc.at? (key :: path) = some v) :
    ∃ es w, doc = mapping es ∧ lookUp key es = some w ∧ w.at? path = some v := by
  cases doc with
  | mapping es =>
    obtain ⟨w, hw, hv⟩ := Option.bind_eq_some_iff.mp h
    exact ⟨es, w, rfl, hw, hv⟩
  | _ => cases h

theorem LeavesEmpty.at?_eq_none {doc : Json} {path : List String} (h : LeavesEmpty doc path) :
    doc.at? path = none := by
  induction h with
  | here => rfl
  | inside found _ ih => rw [at?_mapping_cons, found, Option.bind_some, ih]

/-- A key that is there is not the one that is missing. -/
theorem omits_of_lookUp {es : List (String × Json)} {key : String} {path : List String} {v : Json}
    (found : lookUp key es = some v) : Omits (.mapping es) (key :: path) ↔ Omits v path := by
  constructor
  · rintro (missing | ⟨found', rest⟩)
    · exact absurd (found.symm.trans missing) (Option.some_ne_none _)
    · exact Option.some.inj (found.symm.trans found') ▸ rest
  · exact .inside found

theorem LeavesEmpty.not_omits {doc : Json} {path : List String} (h : LeavesEmpty doc path) :
    ¬ Omits doc path := by
  induction h with
  | here => exact nofun
  | inside found _ ih => rwa [omits_of_lookUp found]

theorem lookUp_eq_none_iff {key : String} {es : List (String × Json)} :
    lookUp key es = none ↔ key ∉ es.map Prod.fst := by
  induction es with
  | nil => simp [lookUp]
  | cons e es ih =>
    by_cases hk : e.1 = key
    · simp [lookUp, hk]
    · simp [lookUp, hk, Ne.symm hk, ih]

/-- Entries without a key twice are found by their keys. -/
theorem lookUp_of_mem {es : List (String × Json)} (h : (es.map Prod.fst).Nodup)
    {e : String × Json} (he : e ∈ es) : lookUp e.1 es = some e.2 := by
  induction es with
  | nil => cases he
  | cons e' es ih =>
    obtain ⟨hfresh, hrest⟩ := List.nodup_cons.mp h
    rcases List.mem_cons.mp he with rfl | he
    · rw [lookUp, if_pos rfl]
    · have hne : e'.1 ≠ e.1 := fun heq => hfresh (heq ▸ List.mem_map_of_mem he)
      rw [lookUp, if_neg hne, ih hrest he]

/-- A value that is found is an entry. -/
theorem mem_of_lookUp {key : String} {v : Json} {es : List (String × Json)}
    (h : lookUp key es = some v) : (key, v) ∈ es := by
  induction es with
  | nil => cases h
  | cons e es ih =>
    by_cases hk : e.1 = key
    · rw [lookUp, if_pos hk] at h
      exact List.mem_cons.mpr (.inl (Prod.ext hk.symm (Option.some.inj h).symm))
    · rw [lookUp, if_neg hk] at h
      exact List.mem_cons_of_mem _ (ih h)

/-- A key that is given the value it has keeps all entries as they are. -/
theorem put_of_lookUp {key : String} {v : Json} {es : List (String × Json)}
    (h : lookUp key es = some v) : put key v es = es := by
  induction es with
  | nil => cases h
  | cons e es ih =>
    by_cases hk : e.1 = key
    · rw [lookUp, if_pos hk] at h
      rw [put, if_pos hk, ← Option.some.inj h]
    · rw [lookUp, if_neg hk] at h
      rw [put, if_neg hk, ih h]

/-- What a mapping leaves empty is in one of its values. -/
theorem LeavesEmpty.exists_mem {es : List (String × Json)} {path : List String}
    (h : LeavesEmpty (.mapping es) path) : ∃ e ∈ es, ∃ rest, LeavesEmpty e.2 rest := by
  cases h with
  | inside found rest => exact ⟨_, mem_of_lookUp found, _, rest⟩

theorem distinct_of_mem {es : List (String × Json)} (h : DistinctEntries es)
    {e : String × Json} (he : e ∈ es) : e.2.Distinct := by
  induction es with
  | nil => cases he
  | cons e' es ih =>
    obtain ⟨hfirst, hrest⟩ := h
    rcases List.mem_cons.mp he with rfl | he
    · exact hfirst
    · exact ih hrest he

end Json

namespace Service

open Json

/-! ## 2. One value over another -/

theorem mergeValue_mapping (base es : List (String × Json)) :
    mergeValue (some (.mapping base)) (.mapping es) = .mapping (mergeEntries base es) := by
  rw [mergeValue]

/-- A value that is no mapping replaces what was there. -/
theorem mergeValue_of_not_isSection {v : Json} (h : ¬ v.IsSection) (b : Option Json) :
    mergeValue b v = v := by
  unfold mergeValue
  split
  · exact absurd trivial h
  · rfl

/-- What was no mapping is replaced. -/
theorem mergeValue_over {b : Json} (h : ¬ b.IsSection) (v : Json) : mergeValue (some b) v = v := by
  unfold mergeValue
  split
  · rename_i heq
    obtain rfl := Option.some.inj heq
    exact absurd trivial h
  · rfl

theorem mergeValue_none (v : Json) : mergeValue none v = v := by
  unfold mergeValue
  rfl

variable {es : List (String × Json)}

/-- **Merged entries** are known key by key. -/
theorem lookUp_mergeEntries (h : (es.map Prod.fst).Nodup) (base : List (String × Json))
    (key : String) :
    lookUp key (mergeEntries base es)
      = (lookUp key es).elim (lookUp key base) fun v => some (mergeValue (lookUp key base) v) := by
  induction es generalizing base with
  | nil => rw [mergeEntries]; rfl
  | cons e es ih =>
    obtain ⟨k, v⟩ := e
    obtain ⟨hfresh, hrest⟩ := List.nodup_cons.mp h
    rw [mergeEntries, ih hrest]
    by_cases hk : k = key
    · subst hk
      rw [lookUp_eq_none_iff.mpr hfresh, lookUp, if_pos rfl]
      exact lookUp_put_self ..
    · rw [lookUp_put_of_ne (Ne.symm hk), lookUp, if_neg hk]

/-- Entries that change nothing one by one change nothing at all. -/
theorem mergeEntries_eq_self {base : List (String × Json)}
    (h : ∀ e ∈ es, ∃ w, lookUp e.1 base = some w ∧ mergeValue (some w) e.2 = w) :
    mergeEntries base es = base := by
  induction es with
  | nil => rw [mergeEntries]
  | cons e es ih =>
    obtain ⟨w, hw, hsame⟩ := h e List.mem_cons_self
    rw [mergeEntries, hw, hsame, put_of_lookUp hw]
    exact ih fun e he => h e (List.mem_cons_of_mem _ he)

/-- A mapping is laid over another one, or takes the place of what was there. -/
theorem mergeValue_mapping_cases (b : Option Json) (es : List (String × Json)) :
    mergeValue b (.mapping es) = .mapping es ∨
      ∃ base, mergeValue b (.mapping es) = .mapping (mergeEntries base es) := by
  cases b with
  | none => exact .inl (mergeValue_none _)
  | some w =>
    cases w with
    | mapping base => exact .inr ⟨base, mergeValue_mapping base es⟩
    | _ => exact .inl (mergeValue_over id _)

mutual

/-- **Merging once more** changes nothing. -/
theorem mergeValue_again : ∀ v : Json, v.Distinct → ∀ b : Option Json,
    mergeValue (some (mergeValue b v)) v = mergeValue b v
  | .mapping es, ⟨hnodup, hvalues⟩, b => by
    have hagain := mergeEntries_again es hvalues
    rcases mergeValue_mapping_cases b es with hreplaced | ⟨base, hmerged⟩
    · -- the mapping is laid over itself
      rw [hreplaced, mergeValue_mapping]
      refine congrArg mapping (mergeEntries_eq_self fun e he => ⟨e.2, lookUp_of_mem hnodup he, ?_⟩)
      have hself := hagain e he none
      rwa [mergeValue_none] at hself
    · rw [hmerged, mergeValue_mapping]
      refine congrArg mapping (mergeEntries_eq_self fun e he =>
        ⟨mergeValue (lookUp e.1 base) e.2, ?_, hagain e he _⟩)
      rw [lookUp_mergeEntries hnodup, lookUp_of_mem hnodup he]
      rfl
  | .null, _, b | .bool _, _, b | .whole _, _, b | .decimal _, _, b | .text _, _, b
  | .list _, _, b => by rw [mergeValue_of_not_isSection id, mergeValue_of_not_isSection id]

theorem mergeEntries_again : ∀ es : List (String × Json), DistinctEntries es → ∀ e ∈ es,
    ∀ b : Option Json, mergeValue (some (mergeValue b e.2)) e.2 = mergeValue b e.2
  | [], _, _, he, _ => by cases he
  | (_, v) :: es, ⟨hv, hes⟩, e, he, b => by
    rcases List.mem_cons.mp he with rfl | he
    · exact mergeValue_again v hv b
    · exact mergeEntries_again es hes e he b

end

/-! ## 3. Following a row of keys -/

variable {b doc value : Json} {path : List String}

/-- **What a document does not say** is as it was. -/
theorem at?_mergeValue_of_omits (hdoc : doc.Distinct) (h : Omits doc path)
    (hvalue : b.at? path = some value) : (mergeValue (some b) doc).at? path = some value := by
  induction h generalizing b with
  | here missing =>
    obtain ⟨bs, w, rfl, hw, hrest⟩ := at?_cons_eq_some hvalue
    rw [mergeValue_mapping, at?_mapping_cons, lookUp_mergeEntries hdoc.1, missing]
    exact (congrArg (Option.bind · _) hw).trans hrest
  | inside found _ ih =>
    obtain ⟨bs, w, rfl, hw, hrest⟩ := at?_cons_eq_some hvalue
    rw [mergeValue_mapping, at?_mapping_cons, lookUp_mergeEntries hdoc.1, found, hw]
    exact ih (distinct_of_mem hdoc.2 (mem_of_lookUp found)) hrest

/-- **What a document says** takes the place of a value that is no section. -/
theorem at?_mergeValue (hdoc : doc.Distinct) (h : ¬ Omits doc path)
    (hvalue : b.at? path = some value) (hplain : ¬ value.IsSection) :
    (mergeValue (some b) doc).at? path = doc.at? path := by
  induction path generalizing b doc with
  | nil =>
    obtain rfl := Option.some.inj hvalue
    rw [mergeValue_over hplain]
  | cons key path ih =>
    cases doc with
    | mapping es =>
      obtain ⟨bs, w, rfl, hw, hrest⟩ := at?_cons_eq_some hvalue
      rw [mergeValue_mapping, at?_mapping_cons, at?_mapping_cons, lookUp_mergeEntries hdoc.1, hw]
      cases hfound : lookUp key es with
      | none => exact absurd (.here hfound) h
      | some v =>
        exact ih (distinct_of_mem hdoc.2 (mem_of_lookUp hfound))
          (fun homits => h ((omits_of_lookUp hfound).mpr homits)) hrest
    | _ => rw [mergeValue_of_not_isSection id]

/-! ## 4. Settings -/

/-- A value of a document at a row of keys that is no section. -/
structure Leaf (doc : Json) (path : List String) (value : Json) : Prop where
  found : doc.at? path = some value
  plain : ¬ value.IsSection

/-- What settings should be made of a document: the defaults wherever it says nothing, be it that a
key is missing or that a section is left empty, and elsewhere what it says. -/
structure Completes (doc settings : Json) : Prop where
  filled : ∀ path value, Leaf defaults path value → Omits doc path ∨ LeavesEmpty doc path →
    settings.at? path = some value
  kept : ∀ path value, Leaf defaults path value → ¬ (Omits doc path ∨ LeavesEmpty doc path) →
    settings.at? path = doc.at? path
  steady : merge settings doc = .ok settings

theorem load_mapping (es : List (String × Json)) :
    load (.mapping es) = .ok (mergeValue (some defaults) (.mapping es)) := by
  cases es with
  | nil => rw [defaults, mergeValue_mapping, mergeEntries]; rfl
  | cons e es => rw [defaults, mergeValue_mapping]; rfl

/-- **Settings and defaults.**  Every mapping without a key twice gives settings, and laying it over
them once more changes nothing.  A value of the defaults stays where the document lacks a key on the
way to it, and everywhere else there is what the document has, which is nothing below a section that
it leaves empty.  So settings are complete just when no section of the defaults is left empty. -/
theorem load_completes_iff (es : List (String × Json)) (h : (mapping es).Distinct) :
    ∃ settings, load (.mapping es) = .ok settings ∧
      merge settings (.mapping es) = .ok settings ∧
      (∀ path value, Leaf defaults path value →
        (Omits (.mapping es) path → settings.at? path = some value) ∧
        (¬ Omits (.mapping es) path → settings.at? path = (mapping es).at? path) ∧
        (LeavesEmpty (.mapping es) path → settings.at? path = none)) ∧
      (Completes (.mapping es) settings ↔
        ∀ path value, Leaf defaults path value → ¬ LeavesEmpty (.mapping es) path) := by
  have hsteady : merge (mergeValue (some defaults) (.mapping es)) (.mapping es)
      = .ok (mergeValue (some defaults) (.mapping es)) := by
    have hagain := mergeValue_again (.mapping es) h (some defaults)
    rw [defaults, mergeValue_mapping] at hagain ⊢
    rw [mergeValue_mapping] at hagain
    cases es with
    | nil => rfl
    | cons e es => exact congrArg Except.ok hagain
  have hvalues : ∀ path value, Leaf defaults path value →
      (Omits (.mapping es) path →
        (mergeValue (some defaults) (.mapping es)).at? path = some value) ∧
      (¬ Omits (.mapping es) path →
        (mergeValue (some defaults) (.mapping es)).at? path = (mapping es).at? path) ∧
      (LeavesEmpty (.mapping es) path →
        (mergeValue (some defaults) (.mapping es)).at? path = none) := by
    intro path value hleaf
    refine ⟨fun homits => at?_mergeValue_of_omits h homits hleaf.found,
      fun homits => at?_mergeValue h homits hleaf.found hleaf.plain, fun hempty => ?_⟩
    rw [at?_mergeValue h hempty.not_omits hleaf.found hleaf.plain, hempty.at?_eq_none]
  refine ⟨_, load_mapping es, hsteady, hvalues, fun hcompletes path value hleaf hempty => ?_,
    fun hnever => ⟨fun path value hleaf hsilent => ?_, fun path value hleaf hsays => ?_, hsteady⟩⟩
  · have hdefault := hcompletes.filled path value hleaf (.inr hempty)
    rw [(hvalues path value hleaf).2.2 hempty] at hdefault
    cases hdefault
  · exact (hvalues path value hleaf).1 (hsilent.resolve_right (hnever path value hleaf))
  · exact (hvalues path value hleaf).2.1 fun homits => hsays (.inl homits)

/-- A document that says how many records are kept in the window, and nothing else. -/
def smallWindow : List (String × Json) :=
  [("mapserver", .mapping [("window", .mapping [("max_records", .whole 10)])])]

theorem distinct_smallWindow : (mapping smallWindow).Distinct := by
  simp [smallWindow, Distinct, DistinctEntries]

/-- No section of these settings is null. -/
theorem not_leavesEmpty_smallWindow (path : List String) :
    ¬ LeavesEmpty (.mapping smallWindow) path := by
  intro h
  obtain ⟨server, hserver, _, h⟩ := h.exists_mem
  obtain rfl := List.mem_singleton.mp hserver
  obtain ⟨window, hwindow, _, h⟩ := h.exists_mem
  obtain rfl := List.mem_singleton.mp hwindow
  obtain ⟨count, hcount, _, h⟩ := h.exists_mem
  obtain rfl := List.mem_singleton.mp hcount
  cases h

theorem load_completes_iff_smallWindow :
    (mapping smallWindow).Distinct ∧ ∃ settings, load (.mapping smallWindow) = .ok settings ∧
      Completes (.mapping smallWindow) settings ∧
      settings.at? ["mapserver", "window", "lookback_seconds"] = some (.whole 3600) ∧
      settings.at? ["mapserver", "window", "max_records"] = some (.whole 10) := by
  obtain ⟨settings, hload, -, hvalues, hcompletes⟩ :=
    load_completes_iff smallWindow distinct_smallWindow
  obtain ⟨hdefault, -, -⟩ :=
    hvalues ["mapserver", "window", "lookback_seconds"] (.whole 3600) ⟨rfl, id⟩
  obtain ⟨-, hsaid, -⟩ := hvalues ["mapserver", "window", "max_records"] (.whole 5000) ⟨rfl, id⟩
  refine ⟨distinct_smallWindow, settings, hload,
    hcompletes.mpr fun path _ _ => not_leavesEmpty_smallWindow path,
    hdefault (.inside rfl (.inside rfl (.here rfl))), hsaid ?_⟩
  rw [smallWindow, omits_of_lookUp rfl, omits_of_lookUp rfl, omits_of_lookUp rfl]
  exact nofun

/-- A document with a section of the defaults that is left empty. -/
def emptyWindow : List (String × Json) := [("mapserver", .mapping [("window", .null)])]

/-- **A section that is left empty** takes its defaults away. -/
theorem load_emptyWindow :
    Leaf defaults ["mapserver", "window", "lookback_seconds"] (.whole 3600) ∧
      LeavesEmpty (.mapping emptyWindow) ["mapserver", "window", "lookback_seconds"] ∧
      ∃ settings, load (.mapping emptyWindow) = .ok settings ∧
        settings.at? ["mapserver", "window", "lookback_seconds"] = none ∧
        ¬ Completes (.mapping emptyWindow) settings := by
  have hleaf : Leaf defaults ["mapserver", "window", "lookback_seconds"] (.whole 3600) := ⟨rfl, id⟩
  have hempty : LeavesEmpty (.mapping emptyWindow) ["mapserver", "window", "lookback_seconds"] :=
    .inside rfl (.inside rfl .here)
  have hnone : (mergeValue (some defaults) (.mapping emptyWindow)).at?
      ["mapserver", "window", "lookback_seconds"] = none := by decide
  refine ⟨hleaf, hempty, _, load_mapping _, hnone, fun hcompletes => ?_⟩
  rw [hcompletes.filled _ _ hleaf (.inr hempty)] at hnone
  cases hnone

end Service

end PathAtlas
