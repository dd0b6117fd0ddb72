import Mathlib
import SceneTree.Markup.Grammar
import SceneTree.Proofs.Markup.Characters

/-!
# What numbers denote

A number is perhaps a sign, then digits of any script with at most one point among them. It denotes a value if all its
digits are decimal ones and, where there is no point, not too many.
-/

namespace SceneTree.Markup
open Text (isDigit isBlank decimalValue?)

/-- A number as it is written: perhaps a sign, digits, and perhaps a point and further digits. -/
structure Written (text : List Char) (negative : Bool) (whole : List Char) (fraction : Option (List Char)) : Prop where
  eq_append : text = (if negative then ['-'] else []) ++ (whole ++ fraction.elim [] ('.' :: ·))
  isDigit_of_mem : ∀ c ∈ whole ++ fraction.getD [], isDigit c
  ne_nil : whole ++ fraction.getD [] ≠ []

/-- Whether a number denotes a value. -/
structure Converts (text : List Char) : Prop where
  isDecimal : ∀ c ∈ text, isDigit c → (decimalValue? c).isSome
  few : '.' ∉ text → text.countP isDigit ≤ Numeral.digitLimit

/-- The values of the digits of a number, in their order. -/
def digitValues (text : List Char) : List Nat := text.filterMap decimalValue?

/-- What stands after the point. -/
def afterPoint (text : List Char) : List Char := (text.dropWhile (· != '.')).tail

/-- The value of a number: with a point the floating-point number that its digits write, otherwise the integer. -/
def denoted (text : List Char) : Value :=
  let negative := text.head? = some '-'
  if '.' ∈ text then
    .float (Numeral.ofScientific negative ((digitValues text).map Nat.digitChar) (-(afterPoint text).length))
  else
    let n : Nat := (digitValues text).foldl (fun n d => 10 * n + d) 0
    .int (if negative then -(n : Int) else n)

/-- A digit of ASCII is decimal. -/
theorem isSome_decimalValue?_of_ascii {c : Char} (hc : isDigit c) (h : c.toNat < 128) : (decimalValue? c).isSome := by
  have hall : ∀ n < 128, isDigit (Char.ofNat n) = true → (decimalValue? (Char.ofNat n)).isSome := by decide +kernel
  have := hall c.toNat h
  rw [Char.ofNat_toNat] at this
  exact this hc

/-- A decimal digit becomes that of ASCII. -/
theorem normalized_of_decimal {c : Char} {d : Nat} (h : decimalValue? c = some d) :
    Numeral.normalized c = Nat.digitChar d := by
  have hchar : ∀ d ≤ 9, Char.ofNat (48 + d) = Nat.digitChar d := by decide
  have hle := Text.decimalValue?_le h
  rw [Numeral.normalized]
  split
  · next hascii =>
    obtain ⟨start, hz, rfl⟩ := Option.map_eq_some_iff.mp h
    have hmem := List.mem_of_find?_eq_some hz
    have hbounds := List.find?_some hz
    simp only [Bool.and_eq_true, decide_eq_true_eq] at hbounds
    have hstart : start = 0x30 := by
      have : ∀ s ∈ Text.decimalZeros, s = 0x30 ∨ 128 ≤ s := by decide
      rcases this start hmem with rfl | hge
      · rfl
      · omega
    subst hstart
    rw [← hchar _ hle]
    have : 48 + (c.toNat - 48) = c.toNat := by omega
    rw [this, Char.ofNat_toNat]
  · rw [h]
    exact hchar d hle

/-- A digit that is no decimal one stays as it is, beyond ASCII. -/
theorem normalized_of_not_decimal {c : Char} (hc : isDigit c) (h : decimalValue? c = none) :
    128 ≤ (Numeral.normalized c).toNat := by
  by_cases hascii : c.toNat < 128
  · have := isSome_decimalValue?_of_ascii hc hascii
    rw [h] at this
    cases this
  · rw [Numeral.normalized, if_neg hascii, h]
    exact Nat.le_of_not_lt hascii

theorem isAsciiDigit_iff {c : Char} : Numeral.isAsciiDigit c = true ↔ 48 ≤ c.toNat ∧ c.toNat ≤ 57 := by
  rw [Numeral.isAsciiDigit, Bool.and_eq_true, decide_eq_true_eq, decide_eq_true_eq, Char.le_def, Char.le_def,
    UInt32.le_iff_toNat_le, UInt32.le_iff_toNat_le]
  rfl

/-- What a digit becomes: a digit of ASCII exactly if it is decimal, and never a sign of another sort. -/
theorem isAsciiDigit_normalized {c : Char} (hc : isDigit c) :
    Numeral.isAsciiDigit (Numeral.normalized c) = (decimalValue? c).isSome := by
  cases h : decimalValue? c with
  | some d =>
    have hd : ∀ d ≤ 9, Numeral.isAsciiDigit (Nat.digitChar d) = true := by decide
    rw [normalized_of_decimal h]
    exact hd d (Text.decimalValue?_le h)
  | none =>
    have hle := normalized_of_not_decimal hc h
    rw [Option.isSome_none, Bool.eq_false_iff, ne_eq, isAsciiDigit_iff]
    omega

theorem normalized_ne {c c' : Char} (hc : isDigit c) (hascii : c'.toNat < 128)
    (hdigit : Numeral.isAsciiDigit c' = false) : Numeral.normalized c ≠ c' := by
  rintro rfl
  cases h : decimalValue? c with
  | some d =>
    rw [isAsciiDigit_normalized hc, h] at hdigit
    cases hdigit
  | none => exact absurd hascii (Nat.not_lt_of_le (normalized_of_not_decimal hc h))

variable {text whole : List Char} {negative : Bool} {fraction : Option (List Char)}

/-- A number begins with its sign, a digit or a point, and holds nothing else. -/
theorem Written.cases_of_mem (h : Written text negative whole fraction) {c : Char} (hc : c ∈ text) :
    c = '-' ∨ c = '.' ∨ isDigit c := by
  obtain ⟨rfl, hdigit, -⟩ := h
  rcases List.mem_append.mp hc with hc | hc
  · cases negative with
    | true => exact .inl (by simpa using hc)
    | false => cases hc
  · rcases List.mem_append.mp hc with hc | hc
    · exact .inr (.inr (hdigit c (List.mem_append_left _ hc)))
    · cases fraction with
      | none => cases hc
      | some f =>
        rcases List.mem_cons.mp hc with rfl | hc
        · exact .inr (.inl rfl)
        · exact .inr (.inr (hdigit c (List.mem_append_right _ hc)))

theorem dropWhile_eq_self {p : Char → Bool} {text : List Char} (h : ∀ c ∈ text, p c = false) :
    text.dropWhile p = text := by
  cases text with
  | nil => rfl
  | cons c rest => exact List.dropWhile_cons_of_neg (by simp [h c List.mem_cons_self])

/-- Nothing is taken from a number when it is trimmed. -/
theorem Written.trimmed (h : Written text negative whole fraction) :
    Numeral.trimmed text = text.map Numeral.normalized := by
  have hblank : ∀ c ∈ text, isBlank c = false := by
    intro c hc
    rcases h.cases_of_mem hc with rfl | rfl | hc
    · rfl
    · rfl
    · exact isBlank_of_isDigit hc
  rw [Numeral.trimmed, dropWhile_eq_self hblank, dropWhile_eq_self fun c hc => hblank c (List.mem_reverse.mp hc),
    List.reverse_reverse]

theorem Written.not_mem_underscore (h : Written text negative whole fraction) : '_' ∉ Numeral.trimmed text := by
  rw [h.trimmed]
  intro hmem
  obtain ⟨c, hc, heq⟩ := List.mem_map.mp hmem
  rcases h.cases_of_mem hc with rfl | rfl | hc
  · revert heq; decide
  · revert heq; decide
  · exact normalized_ne hc (by decide) rfl heq

theorem signed_of_head {body : List Char} (h : ∀ c ∈ body.head?, c ≠ '-' ∧ c ≠ '+') :
    Numeral.signed body = (false, body) := by
  cases body with
  | nil => rfl
  | cons c rest => 
    obtain ⟨h1, h2⟩ := h c rfl
    simp [Numeral.signed, h1, h2]

/-- The sign of a number, and what stands after it. -/
theorem Written.signed (h : Written text negative whole fraction) :
    Numeral.signed (Numeral.trimmed text) =
      (negative, whole.map Numeral.normalized ++ fraction.elim [] fun f => '.' :: f.map Numeral.normalized) := by
  have heq : text.map Numeral.normalized = (if negative then ['-'] else []) ++
      (whole.map Numeral.normalized ++ fraction.elim [] fun f => '.' :: f.map Numeral.normalized) := by
    have hsign : Numeral.normalized '-' = '-' := rfl
    have hpoint : Numeral.normalized '.' = '.' := rfl
    rw [h.eq_append]
    cases negative <;> cases fraction <;> simp [hsign, hpoint]
  rw [h.trimmed, heq]
  cases negative with
  | true => rfl
  | false =>
    refine signed_of_head fun c hc => ?_
    match whole, fraction with
    | c' :: _, _ =>
      obtain rfl : Numeral.normalized c' = c := by simpa using hc
      have hdigit := h.isDigit_of_mem c' (by simp)
      exact ⟨normalized_ne hdigit (by decide) rfl, normalized_ne hdigit (by decide) rfl⟩
    | [], some f =>
      obtain rfl : '.' = c := by simpa using hc
      decide
    | [], none => simp at hc

/-- Where there are no underscores, none stands in a wrong place. -/
theorem underscoresInside_of_not_mem {text : List Char} (h : '_' ∉ text) (afterDigit : Bool) :
    Numeral.underscoresInside afterDigit text = true := by
  induction text generalizing afterDigit with
  | nil => rw [Numeral.underscoresInside]
  | cons c rest ih =>
    obtain ⟨hc, hrest⟩ := List.ne_and_not_mem_of_not_mem_cons h
    rw [Numeral.underscoresInside]
    · exact ih hrest _
    · exact fun he => hc he.symm

/-- Digits that are all decimal become those of ASCII. -/
theorem map_normalized {digits : List Char} (h : ∀ c ∈ digits, (decimalValue? c).isSome) :
    digits.map Numeral.normalized = (digitValues digits).map Nat.digitChar := by
  induction digits with
  | nil => rfl
  | cons c rest ih =>
    obtain ⟨d, hd⟩ := Option.isSome_iff_exists.mp (h c List.mem_cons_self)
    rw [List.map_cons, ih fun c hc => h c (List.mem_cons_of_mem _ hc), normalized_of_decimal hd, digitValues,
      digitValues, List.filterMap_cons_some hd, List.map_cons]

/-- The number that digits of ASCII write. -/
theorem ofDigits_map_digitChar {values : List Nat} (h : ∀ d ∈ values, d ≤ 9) :
    Numeral.ofDigits (values.map Nat.digitChar) = values.foldl (fun n d => 10 * n + d) 0 := by
  have hd : ∀ d ≤ 9, (Nat.digitChar d).toNat - 48 = d := by decide
  rw [Numeral.ofDigits, List.foldl_map]
  exact List.foldl_rel rfl fun d hmem n n' heq => by rw [heq, hd d (h d hmem)]

theorem digitValues_le {digits : List Char} {d : Nat} (h : d ∈ digitValues digits) : d ≤ 9 := by
  obtain ⟨c, -, hc⟩ := List.mem_filterMap.mp h
  exact Text.decimalValue?_le hc

/-- Decimal digits are read as those of ASCII. -/
theorem isAsciiDigit_map_normalized {digits : List Char} (hd : ∀ c ∈ digits, isDigit c)
    (h : ∀ c ∈ digits, (decimalValue? c).isSome) :
    ∀ c ∈ digits.map Numeral.normalized, Numeral.isAsciiDigit c = true := by
  intro c hc
  obtain ⟨c', hc', rfl⟩ := List.mem_map.mp hc
  rw [isAsciiDigit_normalized (hd c' hc'), h c' hc']

/-- The number that decimal digits make is that of their values. -/
theorem ofDigits_map_normalized {digits : List Char} (h : ∀ c ∈ digits, (decimalValue? c).isSome) :
    Numeral.ofDigits (digits.map Numeral.normalized) = (digitValues digits).foldl (fun n d => 10 * n + d) 0 := by
  rw [map_normalized h, ofDigits_map_digitChar fun d hd => digitValues_le hd]

/-- A digit that is no decimal one ends a run of digits of ASCII. -/
theorem exists_dropWhile_isAsciiDigit {digits : List Char} (hd : ∀ c ∈ digits, isDigit c)
    (h : ¬∀ c ∈ digits, (decimalValue? c).isSome) (more : List Char) :
    ∃ c rest, (digits.map Numeral.normalized ++ more).dropWhile Numeral.isAsciiDigit = c :: rest ∧ 128 ≤ c.toNat := by
  induction digits with
  | nil => exact absurd (fun c hc => nomatch hc) h
  | cons c rest ih =>
    have hc := hd c List.mem_cons_self
    rw [List.map_cons, List.cons_append]
    cases hdecimal : decimalValue? c with
    | none =>
      refine ⟨_, _, List.dropWhile_cons_of_neg ?_, normalized_of_not_decimal hc hdecimal⟩
      simp [isAsciiDigit_normalized hc, hdecimal]
    | some d =>
      rw [List.dropWhile_cons_of_pos (by rw [isAsciiDigit_normalized hc, hdecimal]; rfl)]
      refine ih (fun c hc => hd c (List.mem_cons_of_mem _ hc)) fun hall => h fun c' hc' => ?_
      rcases List.mem_cons.mp hc' with rfl | hc'
      · simp [hdecimal]
      · exact hall c' hc'

/-- A whole number is read exactly if its digits are decimal and not too many. -/
theorem Written.readInteger (h : Written text negative whole none) (n : Int) :
    Numeral.readInteger text = .ok n ↔
      ((∀ c ∈ whole, (decimalValue? c).isSome) ∧ whole.length ≤ Numeral.digitLimit) ∧
        n = let value : Nat := (digitValues whole).foldl (fun n d => 10 * n + d) 0
          if negative then -(value : Int) else value := by
  have hdigits : ∀ c ∈ whole, isDigit c := fun c hc => h.isDigit_of_mem c (List.mem_append_left _ hc)
  have hne : whole ≠ [] := by simpa using h.ne_nil
  have hsigned := h.signed
  rw [Option.elim_none, List.append_nil] at hsigned
  rw [Numeral.readInteger, hsigned]
  by_cases hall : ∀ c ∈ whole, (decimalValue? c).isSome
  · have hdecimal := isAsciiDigit_map_normalized hdigits hall
    have hrun : (whole.map Numeral.normalized).takeWhile (fun c => Numeral.isAsciiDigit c || c == '_') =
        whole.map Numeral.normalized :=
      List.takeWhile_eq_self_iff.mpr fun c hc => by rw [hdecimal c hc, Bool.true_or]
    have hfilter : (whole.map Numeral.normalized).filter Numeral.isAsciiDigit = whole.map Numeral.normalized :=
      List.filter_eq_self.mpr hdecimal
    have hinside : Numeral.underscoresInside false (whole.map Numeral.normalized) = true := by
      refine underscoresInside_of_not_mem (fun hmem => ?_) false
      obtain ⟨c, hc, heq⟩ := List.mem_map.mp hmem
      exact normalized_ne (hdigits c hc) (by decide) rfl heq
    have hvalue := ofDigits_map_normalized hall
    have hempty : (whole.map Numeral.normalized).isEmpty = false := by simpa using hne
    simp only [hrun, hfilter, hvalue, hinside, hempty, Bool.not_true, Bool.or_self, Bool.false_eq_true, if_false,
      List.length_map, Nat.lt_irrefl]
    by_cases hmany : Numeral.digitLimit < whole.length
    · rw [if_pos hmany]
      exact ⟨(nomatch ·), fun hok => absurd hok.1.2 (Nat.not_le_of_lt hmany)⟩
    · rw [if_neg hmany]
      exact ⟨fun hok => ⟨⟨hall, Nat.le_of_not_lt hmany⟩, (Except.ok.inj hok).symm⟩, fun hok => by rw [hok.2]⟩
  · have hlt : ((whole.map Numeral.normalized).takeWhile fun c => Numeral.isAsciiDigit c || c == '_').length <
        (whole.map Numeral.normalized).length := by
      refine Nat.lt_of_le_of_ne (List.takeWhile_prefix _).length_le fun heq => hall fun c hc => ?_
      have hself := (List.takeWhile_prefix _).eq_of_length heq
      have hread := List.takeWhile_eq_self_iff.mp hself _ (List.mem_map_of_mem hc)
      rwa [isAsciiDigit_normalized (hdigits c hc),
        beq_eq_false_iff_ne.mpr (normalized_ne (hdigits c hc) (by decide) rfl), Bool.or_false] at hread
    simp only [if_pos hlt]
    constructor
    · intro hok
      split at hok
      · cases hok
      · split at hok <;> cases hok
    · exact fun hok => absurd hok.1.1 hall

/-- No digit and no point is a small letter of a word. -/
theorem asciiLower_ne {c c' : Char} (hc : c = '.' ∨ isDigit c) (h : 97 ≤ c'.toNat ∧ c'.toNat ≤ 122) :
    Numeral.asciiLower (Numeral.normalized c) ≠ c' := by
  have hcapital : ∀ c : Char, ('A' ≤ c && c ≤ 'Z') = true ↔ 65 ≤ c.toNat ∧ c.toNat ≤ 90 := by
    intro c
    rw [Bool.and_eq_true, decide_eq_true_eq, decide_eq_true_eq, Char.le_def, Char.le_def, UInt32.le_iff_toNat_le,
      UInt32.le_iff_toNat_le]
    rfl
  rcases hc with rfl | hc
  · rintro rfl
    revert h
    decide
  · have hsame : Numeral.asciiLower (Numeral.normalized c) = Numeral.normalized c := by
      rw [Numeral.asciiLower, if_neg]
      intro hbetween
      rw [hcapital] at hbetween
      cases hdecimal : decimalValue? c with
      | some d =>
        have := isAsciiDigit_normalized hc
        rw [hdecimal, Option.isSome_some, isAsciiDigit_iff] at this
        omega
      | none =>
        have := normalized_of_not_decimal hc hdecimal
        omega
    rw [hsame]
    refine normalized_ne hc (by omega) ?_
    rw [Bool.eq_false_iff, ne_eq, isAsciiDigit_iff]
    omega

/-- A number is no word. -/
theorem Written.word_ne {f : List Char} (h : Written text negative whole (some f)) (word : String) {c : Char}
    {rest : List Char} (hword : word.toList = c :: rest) (hc : 97 ≤ c.toNat ∧ c.toNat ≤ 122) :
    String.ofList ((whole.map Numeral.normalized ++ '.' :: f.map Numeral.normalized).map Numeral.asciiLower) ≠
      word := by
  rintro rfl
  rw [String.toList_ofList] at hword
  match whole, h with
  | [], h => exact asciiLower_ne (.inl rfl) hc (List.cons.inj hword).1
  | c' :: _, h =>
    exact asciiLower_ne (.inr (h.isDigit_of_mem c' (List.mem_append_left _ List.mem_cons_self))) hc
      (List.cons.inj hword).1

/-- What begins outside of ASCII is no exponent. -/
theorem readExponent?_of_le {c : Char} (hc : 128 ≤ c.toNat) (rest : List Char) :
    Numeral.readExponent? (c :: rest) = none := by
  have hlower : c ≠ 'e' := by rintro rfl; revert hc; decide
  have hupper : c ≠ 'E' := by rintro rfl; revert hc; decide
  rw [Numeral.readExponent?]
  simp [hlower, hupper]

/-- The digits of a number with a point, read as those of ASCII. -/
theorem readUnsigned?_normalized {whole f : List Char} (hdigits : ∀ c ∈ whole ++ f, isDigit c) (hne : whole ++ f ≠ []) :
    Numeral.readUnsigned? negative (whole.map Numeral.normalized ++ '.' :: f.map Numeral.normalized) =
      if ∀ c ∈ whole ++ f, (decimalValue? c).isSome then
        some (Numeral.ofScientific negative ((digitValues (whole ++ f)).map Nat.digitChar) (-f.length))
      else none := by
  have hpoint : Numeral.isAsciiDigit '.' = false := rfl
  obtain ⟨hwhole, hf⟩ := List.forall_mem_append.mp hdigits
  rw [Numeral.readUnsigned?]
  by_cases hall : ∀ c ∈ whole, (decimalValue? c).isSome
  · have hrun := isAsciiDigit_map_normalized hwhole hall
    have htake : (whole.map Numeral.normalized ++ '.' :: f.map Numeral.normalized).takeWhile Numeral.isAsciiDigit =
        whole.map Numeral.normalized := by
      rw [List.takeWhile_append_of_pos hrun, List.takeWhile_cons_of_neg (by simp [hpoint]),
        List.append_nil]
    have hdrop : (whole.map Numeral.normalized ++ '.' :: f.map Numeral.normalized).dropWhile Numeral.isAsciiDigit =
        '.' :: f.map Numeral.normalized := by
      rw [List.dropWhile_append_of_pos hrun, List.dropWhile_cons_of_neg (by simp [hpoint])]
    simp only [htake, hdrop]
    by_cases hall' : ∀ c ∈ f, (decimalValue? c).isSome
    · have hall'' : ∀ c ∈ whole ++ f, (decimalValue? c).isSome := List.forall_mem_append.mpr ⟨hall, hall'⟩
      have hrun' := isAsciiDigit_map_normalized hf hall'
      rw [if_pos hall'', List.takeWhile_eq_self_iff.mpr hrun', List.dropWhile_eq_nil_iff.mpr hrun',
        ← List.map_append, map_normalized hall'', List.length_map, if_neg, Numeral.readExponent?, Option.map_some,
        Int.zero_sub]
      simpa [← List.append_eq_nil_iff] using hne
    · obtain ⟨c, rest, hc, hle⟩ := exists_dropWhile_isAsciiDigit hf hall' []
      rw [List.append_nil] at hc
      rw [if_neg fun h => hall' (List.forall_mem_append.mp h).2, hc, readExponent?_of_le hle rest]
      split <;> rfl
  · obtain ⟨c, rest, hc, hle⟩ := exists_dropWhile_isAsciiDigit hwhole hall ('.' :: f.map Numeral.normalized)
    have hdot : c ≠ '.' := by rintro rfl; revert hle; decide
    rw [if_neg fun h => hall (List.forall_mem_append.mp h).1, hc]
    split
    next fraction tail hmatch =>
      have htail : tail = c :: rest := by
        split at hmatch
        · next heq => exact absurd (List.cons.inj heq).1 hdot
        · exact (Prod.mk.inj hmatch).2.symm
      rw [htail, readExponent?_of_le hle rest]
      split <;> rfl

/-- A number with a point is read exactly if its digits are decimal. -/
theorem Written.readDecimal? {f : List Char} (h : Written text negative whole (some f)) :
    Numeral.readDecimal? text =
      if ∀ c ∈ whole ++ f, (decimalValue? c).isSome then
        some (.number (Numeral.ofScientific negative ((digitValues (whole ++ f)).map Nat.digitChar) (-f.length)))
      else none := by
  have hfilter : (Numeral.trimmed text).filter (· != '_') = Numeral.trimmed text := by
    rw [List.filter_eq_self]
    exact fun c hc => bne_iff_ne.mpr fun heq => h.not_mem_underscore (heq ▸ hc)
  have hinf := h.word_ne "inf" rfl (by decide)
  have hinfinity := h.word_ne "infinity" rfl (by decide)
  have hnan := h.word_ne "nan" rfl (by decide)
  rw [Numeral.readDecimal?, underscoresInside_of_not_mem h.not_mem_underscore, hfilter, h.signed]
  simp only [Bool.not_true, Bool.false_eq_true, if_false, Option.elim_some, hinf, hinfinity, hnan, decide_false,
    Bool.or_self]
  rw [readUnsigned?_normalized (f := f) h.isDigit_of_mem h.ne_nil]
  split <;> rfl

theorem decimalValue?_sign : decimalValue? '-' = none := by decide

theorem decimalValue?_point : decimalValue? '.' = none := by decide

/-- The digits of a number are those before and after its point. -/
theorem Written.digitValues (h : Written text negative whole fraction) :
    digitValues text = Markup.digitValues (whole ++ fraction.getD []) := by
  rw [h.eq_append]
  cases negative <;> cases fraction <;> simp [Markup.digitValues, decimalValue?_sign, decimalValue?_point]

theorem isDigit_sign : isDigit '-' = false := by decide

theorem isDigit_point : isDigit '.' = false := by decide

/-- The digits of a number stand before and after its point. -/
theorem Written.mem_iff (h : Written text negative whole fraction) {c : Char} :
    c ∈ whole ++ fraction.getD [] ↔ c ∈ text ∧ isDigit c := by
  constructor
  · intro hc
    refine ⟨?_, h.isDigit_of_mem c hc⟩
    rw [h.eq_append]
    cases fraction with
    | none => exact List.mem_append_right _ hc
    | some f =>
      rcases List.mem_append.mp hc with hc | hc
      · exact List.mem_append_right _ (List.mem_append_left _ hc)
      · exact List.mem_append_right _ (List.mem_append_right _ (List.mem_cons_of_mem _ hc))
  · rintro ⟨hc, hdigit⟩
    rw [h.eq_append] at hc
    rcases List.mem_append.mp hc with hc | hc
    · cases negative with
      | true =>
        rw [List.mem_singleton.mp hc, isDigit_sign] at hdigit
        cases hdigit
      | false => cases hc
    · cases fraction with
      | none => exact hc
      | some f =>
        rcases List.mem_append.mp hc with hc | hc
        · exact List.mem_append_left _ hc
        · rcases List.mem_cons.mp hc with rfl | hc
          · rw [isDigit_point] at hdigit
            cases hdigit
          · exact List.mem_append_right _ hc

/-- All the digits of a number are decimal. -/
theorem Written.isDecimal_iff (h : Written text negative whole fraction) :
    (∀ c ∈ text, isDigit c → (decimalValue? c).isSome) ↔ ∀ c ∈ whole ++ fraction.getD [], (decimalValue? c).isSome :=
  ⟨fun hall c hc => hall c (h.mem_iff.mp hc).1 (h.mem_iff.mp hc).2, fun hall c hc hd => hall c (h.mem_iff.mpr ⟨hc, hd⟩)⟩

/-- A number begins with its sign. -/
theorem Written.head?_eq_iff (h : Written text negative whole fraction) : text.head? = some '-' ↔ negative = true := by
  cases negative with
  | true => simp [h.eq_append]
  | false =>
    have hne : ∀ c ∈ whole, c ≠ '-' := by
      rintro c hc rfl
      have := h.isDigit_of_mem '-' (List.mem_append_left _ hc)
      rw [isDigit_sign] at this
      cases this
    rw [h.eq_append]
    cases whole with
    | nil => cases fraction <;> simp
    | cons c rest => simpa using hne c List.mem_cons_self

/-- Without a point there is no part after it. -/
theorem Written.mem_point_iff (h : Written text negative whole fraction) : '.' ∈ text ↔ fraction.isSome := by
  have hne : '.' ∉ whole := by
    intro hc
    have := h.isDigit_of_mem '.' (List.mem_append_left _ hc)
    rw [isDigit_point] at this
    cases this
  rw [h.eq_append]
  cases negative <;> cases fraction <;> simp [hne]

/-- What stands after the point. -/
theorem Written.afterPoint {f : List Char} (h : Written text negative whole (some f)) : afterPoint text = f := by
  have hne : ∀ c ∈ (if negative then ['-'] else []) ++ whole, (c != '.') = true := by
    intro c hc
    rw [bne_iff_ne]
    rintro rfl
    rcases List.mem_append.mp hc with hc | hc
    · cases negative <;> simp at hc
    · have := h.isDigit_of_mem '.' (List.mem_append_left _ hc)
      rw [isDigit_point] at this
      cases this
  rw [Markup.afterPoint, h.eq_append, ← List.append_assoc, List.dropWhile_append_of_pos hne]
  rfl

/-- Without a point, the digits of a number stand before it. -/
theorem Written.countP (h : Written text negative whole none) : text.countP isDigit = whole.length := by
  have hall : whole.countP isDigit = whole.length :=
    List.countP_eq_length.mpr fun c hc => h.isDigit_of_mem c (List.mem_append_left _ hc)
  rw [h.eq_append]
  cases negative <;> simp [hall, isDigit_sign]

/-- A number denotes its value, if it converts, and otherwise nothing. -/
theorem Written.numberValue_eq_ok_iff (h : Written text negative whole fraction) (v : Value) :
    numberValue (String.ofList text) = .ok v ↔ Converts text ∧ v = denoted text := by
  have hdigits := h.digitValues
  have hdecimal := h.isDecimal_iff
  have hpoint := h.mem_point_iff
  have hsign : decide (text.head? = some '-') = negative := by
    rw [Bool.eq_iff_iff, decide_eq_true_iff]
    exact h.head?_eq_iff
  rw [numberValue, String.toList_ofList]
  cases fraction with
  | none =>
    have hnot : '.' ∉ text := by simp [hpoint]
    have hread := h.readInteger
    simp only [Option.getD_none, List.append_nil] at hdigits hdecimal
    have hconverts : Converts text ↔ (∀ c ∈ whole, (decimalValue? c).isSome) ∧ whole.length ≤ Numeral.digitLimit :=
      ⟨fun hc => ⟨hdecimal.mp hc.isDecimal, h.countP ▸ hc.few hnot⟩,
        fun hc => ⟨hdecimal.mpr hc.1, fun _ => h.countP.symm ▸ hc.2⟩⟩
    rw [if_neg (by simpa using hnot), denoted, if_neg hnot, hdigits, hconverts]
    cases hn : Numeral.readInteger text with
    | ok n =>
      obtain ⟨hc, hvalue⟩ := (hread n).mp hn
      simp only [h.head?_eq_iff]
      rw [hvalue]
      exact ⟨fun hok => ⟨hc, (Except.ok.inj hok).symm⟩, fun ⟨_, hv⟩ => by rw [hv]⟩
    | error fault =>
      refine ⟨(nomatch ·), fun ⟨hc, _⟩ => ?_⟩
      rw [(hread _).mpr ⟨hc, rfl⟩] at hn
      cases hn
  | some f =>
    have hmem : '.' ∈ text := by simp [hpoint]
    simp only [Option.getD_some] at hdigits hdecimal
    rw [if_pos (by simpa using hmem), h.readDecimal?, denoted, if_pos hmem, hdigits, h.afterPoint, hsign]
    by_cases hall : ∀ c ∈ whole ++ f, (decimalValue? c).isSome
    · rw [if_pos hall]
      have hconverts : Converts text := ⟨hdecimal.mpr hall, fun hnot => absurd hmem hnot⟩
      exact ⟨fun hok => ⟨hconverts, (Except.ok.inj hok).symm⟩, fun ⟨_, hv⟩ => by rw [hv]⟩
    · rw [if_neg hall]
      exact ⟨(nomatch ·), fun ⟨hc, _⟩ => absurd (hdecimal.mp hc.isDecimal) hall⟩

end SceneTree.Markup