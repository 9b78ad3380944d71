/-
# The host name of a node

A host name is kept as the probe wrote it.  That should be a text, but nothing makes sure of it,
and a node whose visits bring several names takes the least of them.  Texts have an order and so
do numbers, and a number may be written in several ways (`1`, `1.0` and true are one value).

* `fails_leastName_iff`: there is a least name unless a text meets a number;
* `leastName_eq_ok`:     it is one of the names, and none is below it;
* `leastName_alike`:     the order of the names decides at most which writing of it is kept.

Only the first one has an answer for numbers that are not finite (`Nameable`).  Infinity still has
its place, but nothing is below or above what is not a number, so the others leave both out
(`Ranked`).
-/
import Mathlib.Algebra.Order.Ring.Rat
import Mathlib.Data.String.Basic
import Mathlib.Data.Sum.Order
import PathAtlas.Proofs.Outcome
import PathAtlas.Proofs.Topology.Drafts

namespace PathAtlas

namespace Json

/-! ## 1. Values with an order -/

/-- A host name as it should be: a text, or null when there is none. -/
def IsName : Json → Prop
  | null | text _ => True
  | _ => False

instance : DecidablePred IsName
  | null | text _ => .isTrue trivial
  | bool _ | whole _ | decimal _ | list _ | mapping _ => .isFalse id

/-- If the value is a number, then a finite one. -/
def IsFinite (v : Json) : Prop := v.isNumber = true → ∃ q, v.rational? = some q

def isText : Json → Bool
  | text _ => true
  | _ => false

/-- A text or a number, finite or not. -/
def Nameable (v : Json) : Prop := v.isText = true ∨ v.isNumber = true

/-- A text or a finite number. -/
def Ranked (v : Json) : Prop := v.isText = true ∨ ∃ q, v.rational? = some q

/-- Where a value stands: a text by its letters, a number by its exact value. -/
def rank : Json → String ⊕ₗ Rat
  | text s => Sum.inlₗ s
  | v => Sum.inrₗ (v.rational?.getD 0)

/-- The same value, perhaps written in another way. -/
def Alike (a b : Json) : Prop := a = b ∨ a.same b = true

theorem isText_eq_false {v : Json} (h : v.isNumber = true) : v.isText = false := by
  cases v <;> first | rfl | simp [isNumber] at h

theorem isNumber_of_rational? {v : Json} {q : Rat} (h : v.rational? = some q) :
    v.isNumber = true ∧ v.isText = false := by
  cases v <;> simp_all [rational?, isNumber, isText]

/-- What can be in a set and is finite has a rank. -/
theorem IsFinite.ranked {v : Json} (h : v.IsFinite) (hpresent : v.isPresent = true)
    (hname : v.checkName = .ok ()) : v.Ranked := by
  cases v with
  | null => simp [isPresent] at hpresent
  | text s => exact .inl rfl
  | bool b => exact .inr (h rfl)
  | whole n => exact .inr (h rfl)
  | decimal x => exact .inr (h rfl)
  | list xs => simp [checkName] at hname
  | mapping es => simp [checkName] at hname

theorem Ranked.nameable {v : Json} (h : v.Ranked) : v.Nameable :=
  h.imp_right fun ⟨_, hq⟩ => (isNumber_of_rational? hq).1

/-- What can be in a set and is present has one of the two kinds. -/
theorem checkName_eq_ok_iff {v : Json} (hpresent : v.isPresent = true) :
    v.checkName = .ok () ↔ v.Nameable := by
  cases v <;> simp_all [isPresent, checkName, Nameable, isText, isNumber]

/-- Alike names are equal when they are as they should be. -/
theorem Alike.eq {a b : Json} (h : a.Alike b) (ha : a.IsName) (hb : b.IsName) : a = b := by
  rcases h with h | h
  · exact h
  · cases a <;> cases b <;> simp_all [IsName, same, isNumber]

theorem precedes_of_isText_eq_false {a : Json} (h : a.isText = false) (b : Json) :
    a.precedes b
      = if a.isNumber && b.isNumber then .ok (a.numberBelow b)
        else .error (.noOrder "<" a.kind b.kind) := by
  cases a <;> first | rfl | simp [isText] at h

theorem same_of_isNumber {a : Json} (h : a.isNumber = true) (b : Json) :
    a.same b = (a.isNumber && b.isNumber && a.numberSame b) := by
  cases a <;> first | rfl | simp [isNumber] at h

theorem rank_of_rational? {v : Json} {q : Rat} (h : v.rational? = some q) :
    v.rank = Sum.inrₗ q := by
  have hrank : v.rank = Sum.inrₗ (v.rational?.getD 0) := by
    cases v <;> first | rfl | simp [rational?] at h
  rw [hrank, h]
  rfl

/-- Values of one kind are compared by rank. -/
theorem precedes_eq {a b : Json} (ha : a.Ranked) (hb : b.Ranked) (h : a.isText = b.isText) :
    a.precedes b = .ok (decide (a.rank < b.rank)) := by
  rcases ha with ha | ⟨p, hp⟩
  · cases a <;> simp [isText] at ha
    cases b <;> simp [isText] at h
    simp only [precedes, rank, Sum.Lex.inl_lt_inl_iff]
  · obtain ⟨hnum, htext⟩ := isNumber_of_rational? hp
    rcases hb with hb | ⟨q, hq⟩
    · exact absurd (htext ▸ h ▸ hb) (by simp)
    · rw [precedes_of_isText_eq_false htext, rank_of_rational? hp, rank_of_rational? hq]
      simp [hnum, (isNumber_of_rational? hq).1, numberBelow, hp, hq]

/-- Two names can be compared unless one is a text and the other a number. -/
theorem fails_precedes_iff {a b : Json} (ha : a.Nameable) (hb : b.Nameable) :
    Fails (a.precedes b) ↔ a.isText ≠ b.isText := by
  cases ha' : a.isText with
  | true =>
    cases a <;> simp [isText] at ha'
    cases b <;> simp [isText, precedes, isNumber]
  | false =>
    have hnumber : a.isNumber = true := ha.resolve_left (by simp [ha'])
    rw [precedes_of_isText_eq_false ha']
    cases hb' : b.isText with
    | true =>
      cases b <;> simp [isText] at hb'
      simp [isNumber]
    | false => simp [hnumber, hb.resolve_left (by simp [hb'])]

/-- Values that are the same are of one kind. -/
theorem isText_eq_of_same {a b : Json} (h : a.same b = true) : a.isText = b.isText := by
  cases a <;> cases b <;> first | rfl | simp [same, isNumber] at h

/-- Values are the same when they have the same rank. -/
theorem same_iff {a b : Json} (ha : a.Ranked) (hb : b.Ranked) :
    a.same b = true ↔ a.rank = b.rank := by
  rcases ha with ha | ⟨p, hp⟩
  · cases a <;> simp [isText] at ha
    cases b <;> simp [same, isNumber, rank]
  · obtain ⟨hnum, htext⟩ := isNumber_of_rational? hp
    rw [same_of_isNumber hnum, rank_of_rational? hp]
    rcases hb with hb | ⟨q, hq⟩
    · cases b <;> simp_all [isText, isNumber, rank]
    · rw [rank_of_rational? hq]
      simp [hnum, (isNumber_of_rational? hq).1, numberSame, hp, hq]

end Json

namespace Topology

/-! ## 2. Each name once -/

/-- What is kept was seen before, or is a name that is present. -/
theorem mem_namesOnce {x : Json} :
    ∀ {names seen : List Json}, x ∈ namesOnce seen names →
      x ∈ seen ∨ x ∈ names ∧ x.isPresent = true
  | [], seen, h => .inl (by simpa [namesOnce] using h)
  | name :: names, seen, h => by
    rw [namesOnce] at h
    split at h
    · rename_i hname
      rcases mem_namesOnce h with h | ⟨h, hx⟩
      · rcases List.mem_cons.mp h with rfl | h
        · exact .inr ⟨by simp, (Bool.and_eq_true _ _ ▸ hname).1⟩
        · exact .inl h
      · exact .inr ⟨List.mem_cons_of_mem _ h, hx⟩
    · rcases mem_namesOnce h with h | ⟨h, hx⟩
      · exact .inl h
      · exact .inr ⟨List.mem_cons_of_mem _ h, hx⟩

/-- Every name that is present is kept, or another one that agrees with it in what names of the same
value have in common. -/
theorem exists_mem_namesOnce {κ : Type} {key : Json → κ} (good : Json → Prop)
    (hkey : ∀ a b, good a → good b → a.same b = true → key a = key b) {x : Json} :
    ∀ {names seen : List Json}, (∀ n ∈ names, n.isPresent = true → good n) →
      (∀ n ∈ seen, good n) → (x ∈ seen ∨ x ∈ names ∧ x.isPresent = true) →
      ∃ y ∈ namesOnce seen names, key y = key x
  | [], seen, _, _, h => by
    rcases h with h | ⟨h, -⟩
    · exact ⟨x, by simpa [namesOnce] using h, rfl⟩
    · simp at h
  | name :: names, seen, hnames, hseen, h => by
    have hrest : ∀ n ∈ names, n.isPresent = true → good n :=
      fun n hn => hnames n (List.mem_cons_of_mem _ hn)
    rw [namesOnce]
    split
    · rename_i hname
      have hpresent : name.isPresent = true := (Bool.and_eq_true _ _ ▸ hname).1
      refine exists_mem_namesOnce good hkey hrest ?_ ?_
      · intro n hn
        rcases List.mem_cons.mp hn with rfl | hn
        · exact hnames _ (by simp) hpresent
        · exact hseen n hn
      · rcases h with h | ⟨h, hx⟩
        · exact .inl (List.mem_cons_of_mem _ h)
        · rcases List.mem_cons.mp h with rfl | h
          · exact .inl (by simp)
          · exact .inr ⟨h, hx⟩
    · rename_i hname
      rcases h with h | ⟨h, hx⟩
      · exact exists_mem_namesOnce good hkey hrest hseen (.inl h)
      · rcases List.mem_cons.mp h with rfl | h
        · -- the name was passed over, so one of the same value is there already
          obtain ⟨y, hy, hsame⟩ : ∃ y ∈ seen, x.same y = true := by simpa [hx] using hname
          obtain ⟨z, hz, hzy⟩ := exists_mem_namesOnce good hkey hrest hseen (x := y) (.inl hy)
          exact ⟨z, hz, hzy.trans (hkey x y (hnames x (by simp) hx) (hseen y hy) hsame).symm⟩
        · exact exists_mem_namesOnce good hkey hrest hseen (.inr ⟨h, hx⟩)

theorem mem_namesOnce_nil {x : Json} {names : List Json} (h : x ∈ namesOnce [] names) :
    x ∈ names ∧ x.isPresent = true :=
  (mem_namesOnce h).resolve_left (by simp)

/-- Of every kind that is present a name is kept. -/
theorem exists_kind_namesOnce {x : Json} {names : List Json} (h : x ∈ names)
    (hpresent : x.isPresent = true) : ∃ y ∈ namesOnce [] names, y.isText = x.isText :=
  exists_mem_namesOnce (fun _ => True) (fun _ _ _ _ => Json.isText_eq_of_same)
    (fun _ _ _ => trivial) (fun _ _ => trivial) (.inr ⟨h, hpresent⟩)

theorem exists_rank_namesOnce {x : Json} {names : List Json}
    (hr : ∀ n ∈ names, n.isPresent = true → n.Ranked) (h : x ∈ names)
    (hpresent : x.isPresent = true) : ∃ y ∈ namesOnce [] names, y.rank = x.rank :=
  exists_mem_namesOnce Json.Ranked (fun _ _ ha hb => (Json.same_iff ha hb).mp) hr
    (by simp) (.inr ⟨h, hpresent⟩)

/-! ## 3. The least name -/

/-- The search ends at a name that has none below it. -/
theorem leastAfter_eq_ok :
    ∀ {names : List Json} {best m : Json}, (∀ n ∈ best :: names, n.Ranked) →
      leastAfter best names = .ok m → m ∈ best :: names ∧ ∀ n ∈ best :: names, m.rank ≤ n.rank
  | [], best, m, _, h => by
    obtain rfl : best = m := Except.ok.inj h
    simp
  | name :: names, best, m, hr, h => by
    have hbest := hr best (by simp)
    have hname := hr name (by simp)
    rw [leastAfter] at h
    obtain ⟨lower, hlower, h⟩ := bind_eq_ok.mp h
    have hkind : name.isText = best.isText := by
      by_contra hne
      obtain ⟨fault, hfault⟩ := (Json.fails_precedes_iff hname.nameable hbest.nameable).mpr hne
      simp [hfault] at hlower
    rw [Json.precedes_eq hname hbest hkind] at hlower
    obtain rfl := Except.ok.inj hlower
    obtain ⟨hmem, hle⟩ := leastAfter_eq_ok (by
      intro n hn
      rcases List.mem_cons.mp hn with rfl | hn
      · split
        · exact hname
        · exact hbest
      · exact hr n (by simp [hn])) h
    have hstart := hle _ (List.mem_cons_self)
    split at hmem
    · rename_i hlt
      rw [if_pos hlt] at hstart
      refine ⟨List.mem_cons_of_mem _ hmem, fun n hn => ?_⟩
      rcases List.mem_cons.mp hn with rfl | hn
      · exact hstart.trans (le_of_lt (of_decide_eq_true hlt))
      · rcases List.mem_cons.mp hn with rfl | hn
        · exact hstart
        · exact hle n (List.mem_cons_of_mem _ hn)
    · rename_i hnlt
      rw [if_neg hnlt] at hstart
      have hge : best.rank ≤ name.rank := not_lt.mp (by simpa using hnlt)
      refine ⟨?_, fun n hn => ?_⟩
      · rcases List.mem_cons.mp hmem with rfl | hmem
        · simp
        · simp [hmem]
      · rcases List.mem_cons.mp hn with rfl | hn
        · exact hstart
        · rcases List.mem_cons.mp hn with rfl | hn
          · exact hstart.trans hge
          · exact hle n (List.mem_cons_of_mem _ hn)

/-- The search fails when a text meets a number. -/
theorem fails_leastAfter_iff :
    ∀ {names : List Json} {best : Json}, (∀ n ∈ best :: names, n.Nameable) →
      (Fails (leastAfter best names) ↔ ∃ n ∈ names, n.isText ≠ best.isText)
  | [], best, _ => by simp [leastAfter]
  | name :: names, best, hr => by
    have hbest := hr best (by simp)
    have hname := hr name (by simp)
    rw [leastAfter, fails_bind, List.exists_mem_cons_iff, Json.fails_precedes_iff hname hbest]
    by_cases hkind : name.isText = best.isText
    · obtain ⟨lower, hlower⟩ :=
        not_fails_iff.mp fun hf => (Json.fails_precedes_iff hname hbest).mp hf hkind
      have hnext : (if lower = true then name else best).isText = best.isText := by
        split
        · exact hkind
        · rfl
      have ih : Fails (leastAfter (if lower = true then name else best) names)
          ↔ ∃ n ∈ names, n.isText ≠ best.isText := by
        rw [fails_leastAfter_iff, hnext]
        intro n hn
        rcases List.mem_cons.mp hn with rfl | hn
        · split
          · exact hname
          · exact hbest
        · exact hr n (by simp [hn])
      simp [hlower, ih, hkind]
    · simp [hkind]

section LeastName

variable {names names' : List Json} {m m' : Json}

/-- **There is a least name unless a text meets a number.** -/
theorem fails_leastName_iff (hr : ∀ n ∈ names, n.isPresent = true → n.Nameable) :
    Fails (leastName names) ↔
      ∃ x ∈ names, ∃ y ∈ names, x.isPresent = true ∧ y.isPresent = true ∧ x.isText ≠ y.isText := by
  unfold leastName leastOf
  split
  · rename_i hnil
    simp only [not_fails_ok, false_iff]
    rintro ⟨x, hx, -, -, hpresent, -⟩
    obtain ⟨y, hy, -⟩ := exists_kind_namesOnce hx hpresent
    simp [hnil] at hy
  · rename_i first rest hcons
    have hmem : ∀ {x}, x ∈ first :: rest → x ∈ names ∧ x.isPresent = true :=
      fun hx => mem_namesOnce_nil (hcons ▸ hx)
    rw [fails_leastAfter_iff fun n hn => hr n (hmem hn).1 (hmem hn).2]
    constructor
    · rintro ⟨n, hn, hne⟩
      obtain ⟨hn, hpn⟩ := hmem (List.mem_cons_of_mem _ hn)
      obtain ⟨hf, hpf⟩ := hmem (List.mem_cons_self (a := first) (l := rest))
      exact ⟨n, hn, first, hf, hpn, hpf, hne⟩
    · rintro ⟨x, hx, y, hy, hpx, hpy, hne⟩
      obtain ⟨x', hx', hxkind⟩ := exists_kind_namesOnce hx hpx
      obtain ⟨y', hy', hykind⟩ := exists_kind_namesOnce hy hpy
      rw [← hxkind, ← hykind] at hne
      rw [hcons] at hx' hy'
      by_cases hxf : x'.isText = first.isText
      · rcases List.mem_cons.mp hy' with rfl | hy'
        · exact absurd hxf hne
        · exact ⟨y', hy', fun e => hne (hxf.trans e.symm)⟩
      · rcases List.mem_cons.mp hx' with rfl | hx'
        · exact absurd rfl hxf
        · exact ⟨x', hx', hxf⟩

/-- **The least name** is null when no name is present, and else one of them that has none below
it. -/
theorem leastName_eq_ok (hr : ∀ n ∈ names, n.isPresent = true → n.Ranked)
    (h : leastName names = .ok m) :
    (m = .null ∧ ∀ n ∈ names, n.isPresent = false) ∨
      m ∈ names ∧ m.isPresent = true ∧ ∀ n ∈ names, n.isPresent = true → m.rank ≤ n.rank := by
  unfold leastName leastOf at h
  split at h
  · rename_i hnil
    refine .inl ⟨(Except.ok.inj h).symm, fun n hn => ?_⟩
    by_contra hpresent
    obtain ⟨y, hy, -⟩ := exists_rank_namesOnce hr hn (by simpa using hpresent)
    simp [hnil] at hy
  · rename_i first rest hcons
    have hmem : ∀ {x}, x ∈ first :: rest → x ∈ names ∧ x.isPresent = true :=
      fun hx => mem_namesOnce_nil (hcons ▸ hx)
    obtain ⟨hm, hle⟩ := leastAfter_eq_ok (fun n hn => hr n (hmem hn).1 (hmem hn).2) h
    refine .inr ⟨(hmem hm).1, (hmem hm).2, fun n hn hpresent => ?_⟩
    obtain ⟨y, hy, hrank⟩ := exists_rank_namesOnce hr hn hpresent
    exact hrank ▸ hle y (hcons ▸ hy)

/-- **The order of the names** decides at most how the least one is written. -/
theorem leastName_alike (h : names.Perm names')
    (hr : ∀ n ∈ names, n.isPresent = true → n.Ranked) (hm : leastName names = .ok m)
    (hm' : leastName names' = .ok m') : m.Alike m' ∧ m.isPresent = m'.isPresent := by
  have hr' : ∀ n ∈ names', n.isPresent = true → n.Ranked := fun n hn => hr n (h.mem_iff.mpr hn)
  rcases leastName_eq_ok hr hm with ⟨rfl, hnone⟩ | ⟨hmem, hp, hle⟩
  · rcases leastName_eq_ok hr' hm' with ⟨rfl, -⟩ | ⟨hmem', hp', -⟩
    · exact ⟨.inl rfl, rfl⟩
    · simp [hnone m' (h.mem_iff.mpr hmem')] at hp'
  · rcases leastName_eq_ok hr' hm' with ⟨rfl, hnone⟩ | ⟨hmem', hp', hle'⟩
    · simp [hnone m (h.mem_iff.mp hmem)] at hp
    · have hrank : m.rank = m'.rank :=
        le_antisymm (hle m' (h.mem_iff.mpr hmem') hp') (hle' m (h.mem_iff.mp hmem) hp)
      exact ⟨.inr ((Json.same_iff (hr m hmem hp) (hr' m' hmem' hp')).mpr hrank), hp.trans hp'.symm⟩

theorem ranked_of_isName (h : ∀ n ∈ names, n.IsName) :
    ∀ n ∈ names, n.isPresent = true → n.Ranked := by
  intro n hn hpresent
  have hname := h n hn
  cases n <;> simp_all [Json.IsName, Json.isPresent, Json.Ranked, Json.isText]

/-- Among names as they should be there is always a least one, and it is one itself. -/
theorem leastName_isName (h : ∀ n ∈ names, n.IsName) :
    ∃ m, leastName names = .ok m ∧ m.IsName := by
  have hok : ¬ Fails (leastName names) := by
    rw [fails_leastName_iff fun n hn hpresent => (ranked_of_isName h n hn hpresent).nameable]
    rintro ⟨x, hx, y, hy, hpx, hpy, hne⟩
    have hname := h x hx
    have hname' := h y hy
    cases x <;> cases y <;> simp_all [Json.IsName, Json.isPresent, Json.isText]
  obtain ⟨m, hm⟩ := not_fails_iff.mp hok
  rcases leastName_eq_ok (ranked_of_isName h) hm with ⟨rfl, -⟩ | ⟨hmem, -⟩
  · exact ⟨.null, hm, trivial⟩
  · exact ⟨m, hm, h m hmem⟩

end LeastName

end Topology

end PathAtlas
