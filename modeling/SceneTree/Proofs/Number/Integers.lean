import Mathlib.Data.List.Induction
import SceneTree.Proofs.Markup.Numerals

/-!
# How integers are written

An integer is written with decimal digits of any script, between two of which a single underscore may stand. A sign may
stand before them, and blanks around it all.
-/

namespace SceneTree.Numeral
open Text (decimalValue? isBlank)

/-- Decimal digits with their values. A single underscore may stand between two of them. -/
inductive Digits : List Char → List Nat → Prop
  | single {c : Char} {d : Nat} (h : decimalValue? c = some d) : Digits [c] [d]
  | next {c : Char} {d : Nat} {rest : List Char} {values : List Nat} (h : decimalValue? c = some d)
    (hrest : Digits rest values) : Digits (c :: rest) (d :: values)
  | underscore {c : Char} {d : Nat} {rest : List Char} {values : List Nat} (h : decimalValue? c = some d)
    (hrest : Digits rest values) : Digits (c :: '_' :: rest) (d :: values)

/-- A text writes an integer. -/
def Writes (text : List Char) (n : Int) : Prop :=
  ∃ before sign digits after values, text = before ++ (sign ++ digits) ++ after ∧
    (∀ c ∈ before ++ after, isBlank c = true) ∧ Digits digits values ∧ values.length ≤ digitLimit ∧
    ((sign = [] ∨ sign = ['+']) ∧ n = (values.foldl (fun m d => 10 * m + d) 0 : Nat) ∨
      sign = ['-'] ∧ n = -((values.foldl (fun m d => 10 * m + d) 0 : Nat) : Int))

/-- What is no decimal digit stays as it is. -/
theorem normalized_of_none {c : Char} (h : decimalValue? c = none) : normalized c = c := by
  rw [normalized]
  split
  · rfl
  · rw [h]

/-- What becomes a digit of ASCII is a decimal digit. -/
theorem isAsciiDigit_normalized_iff {c : Char} : isAsciiDigit (normalized c) = true ↔ ∃ d, decimalValue? c = some d := by
  cases h : decimalValue? c with
  | some d =>
    have hd : ∀ d ≤ 9, isAsciiDigit (Nat.digitChar d) = true := by decide
    rw [Markup.normalized_of_decimal h]
    exact iff_of_true (hd d (Text.decimalValue?_le h)) ⟨d, rfl⟩
  | none =>
    rw [normalized_of_none h, Markup.isAsciiDigit_iff]
    refine iff_of_false (fun hdigit => ?_) (by simp)
    have hall : ∀ n < 128, 48 ≤ n → n ≤ 57 → (decimalValue? (Char.ofNat n)).isSome = true := by decide +kernel
    have hsome := hall c.toNat (by omega) hdigit.1 hdigit.2
    rw [Char.ofNat_toNat, h] at hsome
    nomatch hsome

/-- A decimal digit becomes a digit of ASCII. -/
theorem isAsciiDigit_normalized {c : Char} {d : Nat} (h : decimalValue? c = some d) :
    isAsciiDigit (normalized c) = true := isAsciiDigit_normalized_iff.mpr ⟨d, h⟩

/-- What becomes something else than a digit of ASCII is that already. -/
theorem eq_of_normalized_eq {c c' : Char} (h : normalized c = c') (hc : isAsciiDigit c' = false) : c = c' := by
  cases hd : decimalValue? c with
  | some d =>
    have hdigit := isAsciiDigit_normalized hd
    rw [h, hc] at hdigit
    nomatch hdigit
  | none => rw [← h, normalized_of_none hd]

/-- What is no underscore stands anywhere. -/
theorem underscoresInside_cons {b : Bool} {c : Char} {rest : List Char} (h : c ≠ '_') :
    underscoresInside b (c :: rest) = underscoresInside (isAsciiDigit c) rest := by
  rw [underscoresInside]
  exact h

/-- An underscore stands between two digits. -/
theorem underscoresInside_underscore (b : Bool) (rest : List Char) :
    underscoresInside b ('_' :: rest) = (b && rest.head?.any isAsciiDigit && underscoresInside false rest) := by
  cases rest <;> rfl

/-- Behind a digit an underscore may stand. -/
theorem underscoresInside_digit {b : Bool} {c : Char} {rest : List Char} (h : isAsciiDigit c = true) :
    underscoresInside b (c :: rest) = underscoresInside true rest := by
  rw [underscoresInside_cons, h]
  rintro rfl
  exact absurd h (by decide)

/-- An underscore stays as it is. -/
theorem normalized_underscore : normalized '_' = '_' := by decide

namespace Digits

variable {digits : List Char} {values : List Nat}

/-- Digits begin with a digit. -/
theorem exists_cons (h : Digits digits values) : ∃ c rest, digits = c :: rest ∧ isAsciiDigit (normalized c) = true := by
  cases h with
  | single h | next h | underscore h => exact ⟨_, _, rfl, isAsciiDigit_normalized h⟩

/-- The values of digits are at most nine. -/
theorem le_nine (h : Digits digits values) : ∀ d ∈ values, d ≤ 9 := by
  induction h with
  | single h => simpa using Text.decimalValue?_le h
  | next h _ ih | underscore h _ ih => simpa using ⟨Text.decimalValue?_le h, ih⟩

/-- Digits become those of ASCII, one for each value, besides the underscores. -/
theorem filter_normalized (h : Digits digits values) :
    (digits.map normalized).filter isAsciiDigit = values.map Nat.digitChar := by
  have hmark : isAsciiDigit '_' = false := by decide
  induction h with
  | single h =>
    rw [List.map_singleton, List.filter_cons_of_pos (isAsciiDigit_normalized h), List.filter_nil,
      Markup.normalized_of_decimal h, List.map_singleton]
  | next h _ ih =>
    rw [List.map_cons, List.filter_cons_of_pos (isAsciiDigit_normalized h), ih, Markup.normalized_of_decimal h,
      List.map_cons]
  | underscore h _ ih =>
    rw [List.map_cons, List.filter_cons_of_pos (isAsciiDigit_normalized h), List.map_cons, normalized_underscore,
      List.filter_cons_of_neg (by simp [hmark]), ih, Markup.normalized_of_decimal h, List.map_cons]

/-- The number that digits make is that of their values. -/
theorem ofDigits_eq (h : Digits digits values) :
    ofDigits ((digits.map normalized).filter isAsciiDigit) = values.foldl (fun m d => 10 * m + d) 0 := by
  rw [h.filter_normalized, Markup.ofDigits_map_digitChar h.le_nine]

/-- There is nothing in digits besides digits and underscores. -/
theorem all_run (h : Digits digits values) :
    ∀ c ∈ digits.map normalized, (isAsciiDigit c || c == '_') = true := by
  induction h with
  | single h => simp [isAsciiDigit_normalized h]
  | next h _ ih => simpa [isAsciiDigit_normalized h] using ih
  | underscore h _ ih => simpa [isAsciiDigit_normalized h, normalized_underscore] using ih

/-- Every underscore of digits stands between two of them. -/
theorem inside (h : Digits digits values) : underscoresInside false (digits.map normalized) = true := by
  induction h with
  | single h => rw [List.map_singleton, underscoresInside_digit (isAsciiDigit_normalized h), underscoresInside]
  | next h hrest ih =>
    obtain ⟨c, rest, rfl, hc⟩ := hrest.exists_cons
    rw [List.map_cons, underscoresInside_digit hc] at ih
    rw [List.map_cons, List.map_cons, underscoresInside_digit (isAsciiDigit_normalized h), underscoresInside_digit hc, ih]
  | underscore h hrest ih =>
    obtain ⟨c, rest, rfl, hc⟩ := hrest.exists_cons
    rw [List.map_cons] at ih
    rw [List.map_cons, List.map_cons, underscoresInside_digit (isAsciiDigit_normalized h), normalized_underscore,
      underscoresInside_underscore, List.map_cons, ih, List.head?_cons, Option.any_some, hc]
    rfl

/-- No underscore comes first. -/
theorem exists_decimal {c : Char} {rest : List Char} (hc : (isAsciiDigit (normalized c) || normalized c == '_') = true)
    (hinside : underscoresInside false (normalized c :: rest) = true) : ∃ d, decimalValue? c = some d := by
  rcases Bool.or_eq_true_iff.mp hc with hdigit | hmark
  · exact isAsciiDigit_normalized_iff.mp hdigit
  · rw [eq_of_beq hmark, underscoresInside_underscore] at hinside
    nomatch hinside

/-- Digits and underscores are well written if every underscore stands between two digits. -/
theorem exists_of_inside (hne : digits ≠ []) (hall : ∀ c ∈ digits.map normalized, (isAsciiDigit c || c == '_') = true)
    (hinside : underscoresInside false (digits.map normalized) = true) : ∃ values, Digits digits values := by
  induction digits using List.twoStepInduction with
  | nil => exact absurd rfl hne
  | singleton c =>
    obtain ⟨d, hd⟩ := exists_decimal (hall _ List.mem_cons_self) hinside
    exact ⟨[d], .single hd⟩
  | cons_cons c c' rest ih ih' =>
    obtain ⟨hfirst, hrest⟩ := List.forall_mem_cons.mp hall
    obtain ⟨d, hd⟩ := exists_decimal hfirst hinside
    rw [List.map_cons, List.map_cons, underscoresInside_digit (isAsciiDigit_normalized hd)] at hinside
    by_cases hmark : normalized c' = '_'
    · obtain rfl := eq_of_normalized_eq hmark (by decide)
      rw [hmark, underscoresInside_underscore, Bool.true_and, Bool.and_eq_true] at hinside
      have hmore : rest ≠ [] := by
        rintro rfl
        nomatch hinside.1
      obtain ⟨values, hvalues⟩ := ih hmore (List.forall_mem_cons.mp hrest).2 hinside.2
      exact ⟨d :: values, .underscore hd hvalues⟩
    · rw [underscoresInside_cons hmark, ← underscoresInside_cons (b := false) hmark] at hinside
      obtain ⟨values, hvalues⟩ := ih' c' nofun hrest hinside
      exact ⟨d :: values, .next hd hvalues⟩

end Digits

/-- What is left of a text without the blanks around it. -/
theorem exists_trimmed (text : List Char) : ∃ before core after, text = before ++ core ++ after ∧
    (∀ c ∈ before ++ after, isBlank c = true) ∧ trimmed text = core.map normalized := by
  have hfront := List.takeWhile_append_dropWhile (p := isBlank) (l := text)
  have hback := List.takeWhile_append_dropWhile (p := isBlank) (l := (text.dropWhile isBlank).reverse)
  refine ⟨text.takeWhile isBlank, ((text.dropWhile isBlank).reverse.dropWhile isBlank).reverse,
    ((text.dropWhile isBlank).reverse.takeWhile isBlank).reverse, ?_, ?_, rfl⟩
  · rw [List.append_assoc, ← List.reverse_append, hback, List.reverse_reverse, hfront]
  · intro c hc
    rcases List.mem_append.mp hc with hc | hc
    · exact List.mem_takeWhile_imp hc
    · exact List.mem_takeWhile_imp (List.mem_reverse.mp hc)

/-- A sign is split off. -/
theorem of_signed_eq {core body : List Char} {negative : Bool} (h : signed (core.map normalized) = (negative, body)) :
    ∃ sign digits, core = sign ++ digits ∧ body = digits.map normalized ∧
      (negative = false ∧ (sign = [] ∨ sign = ['+']) ∨ negative = true ∧ sign = ['-']) := by
  unfold signed at h
  split at h
  · rename_i rest hcore
    obtain ⟨c, digits, rfl, hc, rfl⟩ := List.map_eq_cons_iff.mp hcore
    obtain ⟨rfl, rfl⟩ := Prod.mk.inj h
    obtain rfl := eq_of_normalized_eq hc (by decide)
    exact ⟨['-'], digits, rfl, rfl, .inr ⟨rfl, rfl⟩⟩
  · rename_i rest hcore
    obtain ⟨c, digits, rfl, hc, rfl⟩ := List.map_eq_cons_iff.mp hcore
    obtain ⟨rfl, rfl⟩ := Prod.mk.inj h
    obtain rfl := eq_of_normalized_eq hc (by decide)
    exact ⟨['+'], digits, rfl, rfl, .inl ⟨rfl, .inr rfl⟩⟩
  · obtain ⟨rfl, rfl⟩ := Prod.mk.inj h
    exact ⟨[], core, rfl, rfl, .inl ⟨rfl, .inl rfl⟩⟩

/-- What stands in a run of digits and underscores is all of a text that is no longer than the run. -/
theorem takeWhile_eq_of_length {p : Char → Bool} {text : List Char}
    (h : ¬(text.takeWhile p).length < text.length) : text.takeWhile p = text :=
  (List.takeWhile_prefix p).eq_of_length
    (Nat.le_antisymm (List.takeWhile_prefix p).length_le (Nat.le_of_not_lt h))

/-- A text that an integer is read from writes it. -/
theorem writes_of_readInteger {text : List Char} {n : Int} (h : readInteger text = .ok n) : Writes text n := by
  obtain ⟨before, core, after, htext, hblank, htrimmed⟩ := exists_trimmed text
  rw [readInteger, htrimmed] at h
  rcases hsigned : signed (core.map normalized) with ⟨negative, body⟩
  obtain ⟨sign, digits, rfl, rfl, hsign⟩ := of_signed_eq hsigned
  simp only [hsigned] at h
  split at h
  · cases h
  · rename_i hwritten
    split at h
    · cases h
    · rename_i hfew
      split at h
      · cases h
      · rename_i hwhole
        have hrun := takeWhile_eq_of_length hwhole
        rw [hrun] at hwritten hfew h
        simp only [Bool.or_eq_true, Bool.not_eq_true', not_or, Bool.not_eq_false, List.isEmpty_iff] at hwritten
        have hne : digits ≠ [] := by
          rintro rfl
          exact hwritten.1 rfl
        obtain ⟨values, hvalues⟩ :=
          Digits.exists_of_inside hne (List.takeWhile_eq_self_iff.mp hrun) hwritten.2
        rw [hvalues.filter_normalized, List.length_map] at hfew
        rw [hvalues.ofDigits_eq] at h
        obtain rfl := Except.ok.inj h
        refine ⟨before, sign, digits, after, values, htext, hblank, hvalues, Nat.le_of_not_lt hfew, ?_⟩
        rcases hsign with ⟨rfl, hsign⟩ | ⟨rfl, hsign⟩
        · exact .inl ⟨hsign, rfl⟩
        · exact .inr ⟨hsign, rfl⟩

/-- A decimal digit is a digit. -/
theorem isDigit_of_decimal {c : Char} {d : Nat} (h : decimalValue? c = some d) : Text.isDigit c = true := by
  have hall : ∀ start ∈ Text.decimalZeros, ∀ k < 10, Text.digitRanges.has (start + k) = true := by decide +kernel
  obtain ⟨start, hfound, -⟩ := Option.map_eq_some_iff.mp h
  have hbounds := List.find?_some hfound
  simp only [Bool.and_eq_true, decide_eq_true_eq] at hbounds
  have hdigit := hall start (List.mem_of_find?_eq_some hfound) (c.toNat - start) (by omega)
  rwa [Nat.add_sub_cancel' hbounds.1] at hdigit

/-- There are no blanks in digits. -/
theorem Digits.not_isBlank {digits : List Char} {values : List Nat} (h : Digits digits values) :
    ∀ c ∈ digits, isBlank c = false := by
  have hmark : isBlank '_' = false := by decide
  induction h with
  | single h => simpa using Markup.isBlank_of_isDigit (isDigit_of_decimal h)
  | next h _ ih => simpa using ⟨Markup.isBlank_of_isDigit (isDigit_of_decimal h), ih⟩
  | underscore h _ ih => simpa [hmark] using ⟨Markup.isBlank_of_isDigit (isDigit_of_decimal h), ih⟩

/-- Blanks around a text without any are taken off. -/
theorem trimmed_eq {before core after : List Char} (hblank : ∀ c ∈ before ++ after, isBlank c = true)
    (hcore : ∀ c ∈ core, isBlank c = false) (hne : core ≠ []) :
    trimmed (before ++ core ++ after) = core.map normalized := by
  obtain ⟨hbefore, hafter⟩ := List.forall_mem_append.mp hblank
  have hfront : (before ++ (core ++ after)).dropWhile isBlank = core ++ after := by
    rw [List.dropWhile_append_of_pos hbefore]
    obtain ⟨c, rest, rfl⟩ := List.exists_cons_of_ne_nil hne
    rw [List.cons_append, List.dropWhile_cons_of_neg (by simp [hcore c List.mem_cons_self])]
  have hback : (core ++ after).reverse.dropWhile isBlank = core.reverse := by
    rw [List.reverse_append, List.dropWhile_append_of_pos fun c hc => hafter c (List.mem_reverse.mp hc)]
    exact Markup.dropWhile_eq_self fun c hc => hcore c (List.mem_reverse.mp hc)
  rw [trimmed, List.append_assoc, hfront, hback, List.reverse_reverse]

/-- Digits alone have no sign. -/
theorem Digits.signed_eq {digits : List Char} {values : List Nat} (h : Digits digits values) :
    signed (digits.map normalized) = (false, digits.map normalized) := by
  obtain ⟨c, rest, rfl, hc⟩ := h.exists_cons
  refine Markup.signed_of_head fun c' hc' => ?_
  obtain rfl := Option.some.inj hc'
  constructor <;> intro heq
  · rw [heq] at hc
    exact absurd hc (by decide)
  · rw [heq] at hc
    exact absurd hc (by decide)

/-- The number that digits write behind a sign. -/
theorem readInteger_of_signed {text digits : List Char} {values : List Nat} (negative : Bool)
    (hsigned : signed (trimmed text) = (negative, digits.map normalized)) (h : Digits digits values)
    (hfew : values.length ≤ digitLimit) :
    readInteger text = .ok (if negative then -((values.foldl (fun m d => 10 * m + d) 0 : Nat) : Int)
      else (values.foldl (fun m d => 10 * m + d) 0 : Nat)) := by
  have hrun : (digits.map normalized).takeWhile (fun c => isAsciiDigit c || c == '_') = digits.map normalized :=
    List.takeWhile_eq_self_iff.mpr h.all_run
  have hlength : ((digits.map normalized).filter isAsciiDigit).length = values.length := by
    rw [h.filter_normalized, List.length_map]
  have hsome : ((digits.map normalized).filter isAsciiDigit).isEmpty = false := by
    obtain ⟨c, rest, rfl, hc⟩ := h.exists_cons
    rw [List.map_cons, List.filter_cons_of_pos hc, List.isEmpty_cons]
  simp only [readInteger, hsigned, hrun, hlength, hsome, h.inside, h.ofDigits_eq, Bool.not_true, Bool.or_self,
    Bool.false_eq_true, if_false, if_neg (Nat.not_lt_of_le hfew), Nat.lt_irrefl]

/-- An integer is read from just the texts that write it. -/
theorem readInteger_eq_ok_iff {text : List Char} {n : Int} : readInteger text = .ok n ↔ Writes text n := by
  refine ⟨writes_of_readInteger, ?_⟩
  rintro ⟨before, sign, digits, after, values, rfl, hblank, hdigits, hfew, hsign⟩
  have hne : sign ++ digits ≠ [] := by
    obtain ⟨c, rest, rfl, -⟩ := hdigits.exists_cons
    simp
  have htrimmed (hfree : ∀ c ∈ sign, isBlank c = false) :
      trimmed (before ++ (sign ++ digits) ++ after) = (sign ++ digits).map normalized :=
    trimmed_eq hblank (List.forall_mem_append.mpr ⟨hfree, hdigits.not_isBlank⟩) hne
  rcases hsign with ⟨rfl | rfl, rfl⟩ | ⟨rfl, rfl⟩
  · refine readInteger_of_signed false ?_ hdigits hfew
    rw [htrimmed (List.forall_mem_nil _)]
    exact hdigits.signed_eq
  · refine readInteger_of_signed false ?_ hdigits hfew
    rw [htrimmed (List.forall_mem_singleton.mpr (by decide))]
    rfl
  · refine readInteger_of_signed true ?_ hdigits hfew
    rw [htrimmed (List.forall_mem_singleton.mpr (by decide))]
    rfl

/-- A text writes one integer at most. -/
theorem Writes.unique {text : List Char} {m n : Int} (h : Writes text m) (h' : Writes text n) : n = m :=
  Except.ok.inj ((readInteger_eq_ok_iff.mpr h').symm.trans (readInteger_eq_ok_iff.mpr h))

end SceneTree.Numeral
