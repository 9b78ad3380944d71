/-
# Numbers within texts

A number that is written out holds digits and nothing else (`notMem_toString`).  So where any other
character stands in front of the last number of a text, the text can be taken apart there
(`append_cons_inj`), whatever comes before.

The silent hops of a source have names of this form, with a source that may hold any characters
and a depth behind the last colon.  That two such names agree only when source and depth do rests
on the lemma here.
-/
import Std.Data.String.ToNat

namespace PathAtlas.Text

/-- Two lists that end in a separator and a rest without it are the same only part by part. -/
theorem append_cons_inj {β : Type} {sep : β} {xs xs' ys ys' : List β} (h : sep ∉ ys)
    (h' : sep ∉ ys') : xs ++ sep :: ys = xs' ++ sep :: ys' ↔ xs = xs' ∧ ys = ys' := by
  constructor
  · intro e
    rcases List.append_eq_append_iff.mp e with ⟨zs, rfl, hz⟩ | ⟨zs, rfl, hz⟩
    · cases zs with
      | nil => simpa using hz
      | cons z zs => exact absurd (by simp [(List.cons.inj hz).2]) h
    · cases zs with
      | nil => simpa [eq_comm] using hz
      | cons z zs => exact absurd (by simp [(List.cons.inj hz).2]) h'
  · rintro ⟨rfl, rfl⟩
    rfl

/-- What is no digit does not occur in a number. -/
theorem notMem_toString {c : Char} (hc : c.isDigit = false) (n : Nat) :
    c ∉ (toString n).toList := by
  intro h
  have hdigit : c ∈ Nat.toDigits 10 n := by
    rw [← Nat.toList_repr]
    exact h
  rw [Nat.isDigit_of_mem_toDigits (by decide) (by decide) hdigit] at hc
  cases hc

/-- A text that ends in a separator and a number is known part by part. -/
theorem append_toString_inj (sep : String) {s s' : String} {c : Char} (hsep : sep.toList = [c])
    (hc : c.isDigit = false) {n n' : Nat} :
    s ++ sep ++ toString n = s' ++ sep ++ toString n' ↔ s = s' ∧ n = n' := by
  constructor
  · intro h
    have h := congrArg String.toList h
    simp only [String.toList_append, hsep, List.append_assoc, List.singleton_append] at h
    obtain ⟨hs, hn⟩ := (append_cons_inj (notMem_toString hc n) (notMem_toString hc n')).mp h
    exact ⟨String.toList_inj.mp hs, Nat.repr_injective (String.toList_inj.mp hn)⟩
  · rintro ⟨rfl, rfl⟩
    rfl

end PathAtlas.Text
