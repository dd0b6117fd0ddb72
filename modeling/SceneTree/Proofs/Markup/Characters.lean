import SceneTree.Markup.Scan
import SceneTree.Text.Blank

/-!
# Which characters begin what

No character belongs to two of the alphabets that digits, names and blanks are made of, so one character settles what
begins with it.
-/

namespace SceneTree

namespace Text.Ranges

/-- The ranges that do not lie below a range, if none of them meets it. -/
def above? (p : Nat × Nat) : Ranges → Option Ranges
  | [] => some []
  | q :: s => if q.2 < p.1 then above? p s else if p.2 < q.1 then some (q :: s) else none

/-- Whether two sets have no code point in common. Each of them is gone through once. -/
def apart : Ranges → Ranges → Bool
  | [], _ => true
  | p :: r, s =>
    match above? p s with
    | some s => apart r s
    | none => false

theorem has_of_above? {p : Nat × Nat} {s s' : Ranges} {n : Nat} (h : above? p s = some s') (hp : p.1 ≤ n)
    (hs : s.has n = true) : s'.has n = true ∧ p.2 < n := by
  induction s with
  | nil => cases hs
  | cons q s ih =>
    obtain ⟨first, last⟩ := q
    rw [has] at hs
    by_cases hfirst : n < first
    · rw [if_pos hfirst] at hs
      cases hs
    · rw [above?] at h
      rw [if_neg hfirst] at hs
      split at h
      · next hbelow =>
        have hlast : ¬ n ≤ last := by
          simp only at hbelow
          omega
        rw [decide_eq_false hlast, Bool.false_or] at hs
        exact ih h hs
      · split at h
        · next habove =>
          cases h
          refine ⟨by rw [has, if_neg hfirst, hs], ?_⟩
          simp only at habove
          omega
        · cases h

theorem not_has_of_apart {r s : Ranges} {n : Nat} (h : apart r s = true) (hr : r.has n = true) : s.has n = false := by
  rw [Bool.eq_false_iff]
  intro hs
  induction r generalizing s with
  | nil => cases hr
  | cons p r ih =>
    obtain ⟨first, last⟩ := p
    rw [apart] at h
    rw [has] at hr
    split at h
    · next s' habove =>
      by_cases hfirst : n < first
      · rw [if_pos hfirst] at hr
        cases hr
      · obtain ⟨hs', hlast⟩ := has_of_above? habove (Nat.le_of_not_lt hfirst) hs
        rw [if_neg hfirst, decide_eq_false (Nat.not_le.mpr hlast), Bool.false_or] at hr
        exact ih h hr hs'
    · cases h

end Text.Ranges

namespace Markup
open Text (isDigit isBlank)

theorem isBlank_of_isDigit {c : Char} (h : isDigit c) : isBlank c = false := by
  have hapart : Text.digitRanges.apart Text.blankRanges = true := by decide +kernel
  exact Text.Ranges.not_has_of_apart hapart h

theorem not_isDigit_of_beginsName {c : Char} (h : beginsName c = true) : isDigit c = false := by
  have hapart : Text.letterRanges.apart Text.digitRanges = true := by decide +kernel
  simp only [beginsName, Bool.or_eq_true, decide_eq_true_eq] at h
  rcases h with h | rfl
  · exact Text.Ranges.not_has_of_apart hapart h
  · decide

/-- A character that digits or names begin with begins none of the parts that are looked for before them. -/
structure IsPlain (c : Char) : Prop where
  isGap : isGap c = false
  ne : c ≠ '\n' ∧ c ≠ '#' ∧ c ≠ '"' ∧ c ≠ '\''

theorem IsPlain.of_begins {c : Char} (h : isDigit c = true ∨ beginsName c = true) : IsPlain c := by
  have hnone : ∀ d : Char, isDigit d = false → beginsName d = false → c ≠ d := by
    rintro d hdigit hname rfl
    rcases h with h | h
    · rw [hdigit] at h
      cases h
    · rw [hname] at h
      cases h
  refine ⟨?_, hnone _ (by decide) (by decide), hnone _ (by decide) (by decide), hnone _ (by decide) (by decide),
    hnone _ (by decide) (by decide)⟩
  simp only [Markup.isGap, Bool.or_eq_false_iff, decide_eq_false_iff_not]
  exact ⟨⟨⟨hnone _ (by decide +kernel) (by decide +kernel), hnone _ (by decide) (by decide)⟩,
    hnone _ (by decide) (by decide)⟩, hnone _ (by decide) (by decide)⟩

theorem IsPlain.of_beginsNumber {c : Char} {rest : List Char} (h : beginsNumber c rest = true) : IsPlain c := by
  by_cases hc : isDigit c = true
  · exact .of_begins (.inl hc)
  · have hsign : c = '-' ∨ c = '.' := by
      simp only [beginsNumber, hc, Bool.false_or, Bool.or_eq_true, Bool.and_eq_true, decide_eq_true_eq] at h
      rcases h with h | h
      · exact h.1
      · exact .inl h.1
    rcases hsign with rfl | rfl <;> exact ⟨by decide, by decide⟩

theorem beginsNumber_of_beginsName {c : Char} (h : beginsName c = true) (rest : List Char) :
    beginsNumber c rest = false := by
  have hne : ∀ d : Char, beginsName d = false → c ≠ d := by
    rintro d hd rfl
    rw [h] at hd
    cases hd
  simp [beginsNumber, not_isDigit_of_beginsName h, hne '-' (by decide), hne '.' (by decide)]

end Markup

end SceneTree
