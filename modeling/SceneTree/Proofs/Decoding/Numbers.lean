import Mathlib.Data.Nat.Digits.Defs
import SceneTree.JsonText.Writer
import SceneTree.Proofs.Decoding.Reader

/-!
# Numbers are read as they are written

A number of JSON ends where a character follows that could not belong to it. The texts of integers and of decimals are
such numbers: no digit stands after a zero at their beginning, and every point has digits on both sides.
-/

namespace SceneTree.JsonText
open Numeral (isAsciiDigit)

/-! ## Reading a number -/

/-- A text does not go on with anything that could belong to a number before it. -/
def EndsNumber (rest : List Char) : Prop := ∀ c ∈ rest.head?, isAsciiDigit c = false ∧ c ≠ '.' ∧ c ≠ 'e' ∧ c ≠ 'E'

/-- Digits, at least one. -/
structure IsDigits (digits : List Char) : Prop where
  ne_nil : digits ≠ []
  digits : ∀ c ∈ digits, isAsciiDigit c = true

/-- The digits of a number before the point: none stand after a zero at the beginning. -/
structure IsWhole (whole : List Char) : Prop extends IsDigits whole where
  zero : whole.head? = some '0' → whole = ['0']

/-- A fraction, or nothing. -/
def IsFraction (fraction : List Char) : Prop := fraction = [] ∨ ∃ digits, IsDigits digits ∧ fraction = '.' :: digits

/-- An exponent with a sign, or nothing. -/
def IsExponent (exponent : List Char) : Prop :=
  exponent = [] ∨ ∃ sign digits, (sign = '-' ∨ sign = '+') ∧ IsDigits digits ∧ exponent = 'e' :: sign :: digits

/-- A number without a sign: digits, perhaps a point with digits, and perhaps an exponent. -/
inductive IsUnsigned : List Char → Prop where
  | mk {whole fraction exponent : List Char} (hw : IsWhole whole) (hf : IsFraction fraction)
    (hx : IsExponent exponent) : IsUnsigned (whole ++ (fraction ++ exponent))

/-- A number as JSON has it, perhaps with a minus sign. -/
inductive IsNumber : List Char → Prop where
  | mk (negative : Bool) {text : List Char} (h : IsUnsigned text) :
    IsNumber ((if negative then ['-'] else []) ++ text)

variable {digits whole fraction exponent text rest : List Char}

theorem digitsOf_append (hd : ∀ c ∈ digits, isAsciiDigit c = true) (hr : ∀ c ∈ rest.head?, isAsciiDigit c = false) :
    digitsOf (digits ++ rest) = (digits, rest) := by
  have hrest : rest.takeWhile isAsciiDigit = [] ∧ rest.dropWhile isAsciiDigit = rest := by
    cases rest with
    | nil => exact ⟨rfl, rfl⟩
    | cons c rest =>
      have hc := hr c rfl
      simp [hc]
  rw [digitsOf, List.takeWhile_append_of_pos hd, List.dropWhile_append_of_pos hd, hrest.1, hrest.2, List.append_nil]

/-- The digits before the point are read up to what is no digit. -/
theorem IsWhole.read (h : IsWhole whole) (hr : ∀ c ∈ rest.head?, isAsciiDigit c = false) :
    readWhole? (whole ++ rest) = some (whole, rest) := by
  have hspan := digitsOf_append h.digits hr
  by_cases hz : whole.head? = some '0'
  · rw [h.zero hz]
    rfl
  · rw [readWhole?, hspan]
    · simp [h.ne_nil]
    · intro after hafter
      cases hw : whole with
      | nil => exact h.ne_nil hw
      | cons c cs =>
        rw [hw, List.cons_append] at hafter
        exact hz (by rw [hw, (List.cons.inj hafter).1]; rfl)

/-- A fraction is read up to what is neither a digit nor a point. -/
theorem IsFraction.read (h : IsFraction fraction) (hr : ∀ c ∈ rest.head?, isAsciiDigit c = false ∧ c ≠ '.') :
    readFraction (fraction ++ rest) = (fraction, rest) := by
  obtain rfl | ⟨digits, hd, rfl⟩ := h
  · rw [List.nil_append, readFraction]
    rintro after rfl
    exact (hr '.' rfl).2 rfl
  · rw [List.cons_append, readFraction, digitsOf_append hd.digits fun c hc => (hr c hc).1]
    simp [hd.ne_nil]

/-- An exponent is read up to what could not belong to it. -/
theorem IsExponent.read (h : IsExponent exponent) (hr : EndsNumber rest) :
    readExponent (exponent ++ rest) = (exponent, rest) := by
  obtain rfl | ⟨sign, digits, hs, hd, rfl⟩ := h
  · cases rest with
    | nil => rfl
    | cons c rest =>
      obtain ⟨-, -, hsmall, hcapital⟩ := hr c rfl
      simp [readExponent, hsmall, hcapital]
  · have hspan := digitsOf_append hd.digits fun c hc => (hr c hc).1
    have hsign : readExponentSign (sign :: (digits ++ rest)) = ([sign], digits ++ rest) := by
      rcases hs with rfl | rfl <;> rfl
    simp [readExponent, hsign, hspan, hd.ne_nil]

/-- The number at the beginning is read, whatever follows that could not belong to it. -/
theorem IsNumber.read (h : IsNumber text) (hr : EndsNumber rest) : readNumber? (text ++ rest) = some (text, rest) := by
  obtain ⟨negative, hw, hf, hx⟩ := h
  rename_i whole fraction exponent
  have hexponent : ∀ c ∈ (exponent ++ rest).head?, isAsciiDigit c = false ∧ c ≠ '.' := by
    obtain rfl | ⟨sign, digits, -, -, rfl⟩ := hx
    · exact fun c hc => ⟨(hr c hc).1, (hr c hc).2.1⟩
    · rintro c ⟨⟩
      decide
  have hfraction : ∀ c ∈ (fraction ++ (exponent ++ rest)).head?, isAsciiDigit c = false := by
    obtain rfl | ⟨digits, -, rfl⟩ := hf
    · exact fun c hc => (hexponent c hc).1
    · rintro c ⟨⟩
      decide
  have hsign : readSign ((if negative then ['-'] else []) ++ (whole ++ (fraction ++ (exponent ++ rest)))) =
      (if negative then ['-'] else [], whole ++ (fraction ++ (exponent ++ rest))) := by
    cases negative with
    | true => rfl
    | false =>
      rw [readSign]
      · rfl
      · intro after hafter
        cases hwhole : whole with
        | nil => exact hw.ne_nil hwhole
        | cons c cs =>
          rw [hwhole] at hafter
          obtain rfl := (List.cons.inj hafter).1
          have hdigit := hw.digits '-' (by rw [hwhole]; exact List.mem_cons_self)
          exact absurd hdigit (by decide)
  have happend : (if negative then ['-'] else []) ++ (whole ++ (fraction ++ exponent)) ++ rest =
      (if negative then ['-'] else []) ++ (whole ++ (fraction ++ (exponent ++ rest))) := by
    simp only [List.append_assoc]
  rw [happend, readNumber?, hsign]
  simp only [Option.bind_eq_bind, hw.read hfraction, Option.bind_some, hf.read hexponent, hx.read hr, List.append_assoc]

/-- A number begins with a digit, perhaps after a sign. -/
theorem IsNumber.exists_cons (h : IsNumber text) :
    ∃ c tail, isAsciiDigit c = true ∧ (text = c :: tail ∨ text = '-' :: c :: tail) := by
  obtain ⟨negative, hw, -, -⟩ := h
  rename_i whole fraction exponent
  cases hwhole : whole with
  | nil => exact absurd hwhole hw.ne_nil
  | cons c cs =>
    refine ⟨c, cs ++ (fraction ++ exponent), hw.digits c (by rw [hwhole]; exact List.mem_cons_self), ?_⟩
    cases negative with
    | true => exact .inr rfl
    | false => exact .inl rfl

/-- A number is no word and is read as itself. -/
theorem IsNumber.readPlain (h : IsNumber text) (hr : EndsNumber rest) :
    readPlain? (text ++ rest) = some (.number (String.ofList text), rest) := by
  have hwords : (words.find? fun p => p.1.toList.isPrefixOf (text ++ rest)) = none := by
    obtain ⟨c, tail, hc, htext⟩ := h.exists_cons
    have hne : ∀ letter ∈ ['n', 't', 'f', 'N', 'I', '-'], letter ≠ c := by
      rintro letter hl rfl
      have hno : ∀ letter ∈ ['n', 't', 'f', 'N', 'I', '-'], isAsciiDigit letter = false := by simp [isAsciiDigit]
      rw [hno letter hl] at hc
      cases hc
    simp only [List.forall_mem_cons] at hne
    obtain ⟨hn, ht, hf, hN, hI, hsign, -⟩ := hne
    rcases htext with rfl | rfl
    · simp [words, List.isPrefixOf, hn, ht, hf, hN, hI, hsign]
    · simp [words, List.isPrefixOf, hI]
  rw [readPlain?, hwords, h.read hr]
  rfl

/-! ## Integers -/

theorem isAsciiDigit_of_isDigit {c : Char} (h : c.isDigit = true) : isAsciiDigit c = true := by
  simpa [Char.isDigit, isAsciiDigit, Char.le_def] using h

/-- The decimal digits of a number that is not zero do not begin with a zero. -/
theorem head?_toDigits_ne {n : Nat} (h : 0 < n) : (Nat.toDigits 10 n).head? ≠ some '0' := by
  induction n using Nat.strong_induction_on with
  | _ n ih =>
    rw [Nat.toDigits_eq_if (by decide)]
    split
    · next hsmall =>
      have hall : ∀ n < 10, 0 < n → [Nat.digitChar n].head? ≠ some '0' := by decide
      exact hall n hsmall h
    · have hne : Nat.toDigits 10 (n / 10) ≠ [] := Nat.toDigits_ne_nil
      rw [List.head?_append, Option.or_of_isSome (List.isSome_head?.mpr hne)]
      exact ih (n / 10) (by omega) (by omega)

/-- The decimal digits of a number can stand before a point. -/
theorem isWhole_repr (n : Nat) : IsWhole (Nat.repr n).toList := by
  rw [Nat.repr_eq_ofList_toDigits, String.toList_ofList]
  refine ⟨⟨Nat.toDigits_ne_nil, fun c hc => ?_⟩, fun hzero => ?_⟩
  · exact isAsciiDigit_of_isDigit (Nat.isDigit_of_mem_toDigits (by decide) (by decide) hc)
  · rcases Nat.eq_zero_or_pos n with rfl | hpos
    · rfl
    · exact absurd hzero (head?_toDigits_ne hpos)

/-- The digits of a number are a zero only if the number is. -/
theorem eq_zero_of_repr_eq {n : Nat} (h : (Nat.repr n).toList = ['0']) : n = 0 := by
  rcases Nat.eq_zero_or_pos n with rfl | hpos
  · rfl
  · rw [Nat.repr_eq_ofList_toDigits, String.toList_ofList] at h
    exact absurd (by rw [h]; rfl) (head?_toDigits_ne hpos)

/-- Digits that can stand before a point are a number. -/
theorem IsWhole.isUnsigned (h : IsWhole whole) : IsUnsigned whole := by
  have hunsigned := IsUnsigned.mk h (.inl rfl) (.inl rfl)
  rwa [List.append_nil, List.append_nil] at hunsigned

/-- The text of an integer is a number. -/
theorem isNumber_toString (n : Int) : IsNumber (toString n).toList := by
  cases n with
  | ofNat n => exact .mk false (isWhole_repr n).isUnsigned
  | negSucc n =>
    have htext : (toString (Int.negSucc n)).toList = ['-'] ++ (Nat.repr (n + 1)).toList := by
      change ("-" ++ Nat.repr (n + 1)).toList = _
      rw [String.toList_append]
      rfl
    rw [htext]
    exact .mk true (isWhole_repr (n + 1)).isUnsigned

/-! ## Decimals -/

/-- A zero alone stands before a point. -/
theorem isWhole_zero : IsWhole ['0'] := ⟨⟨List.cons_ne_nil _ _, List.forall_mem_singleton.mpr rfl⟩, fun _ => rfl⟩

/-- Digits with a point among them are a number, if they are a zero only where the point stands after it. -/
theorem isUnsigned_positional (h : IsWhole digits) {point : Int} (hz : digits = ['0'] → point = 1) :
    IsUnsigned (DecimalLayout.positional digits point) := by
  have hzeros (n : Nat) : ∀ c ∈ List.replicate n '0', isAsciiDigit c = true := by
    intro c hc
    rw [List.eq_of_mem_replicate hc]
    rfl
  unfold DecimalLayout.positional
  split
  · -- all digits stand after the point
    have hfraction : IsDigits (List.replicate point.natAbs '0' ++ digits) :=
      ⟨by simp [h.ne_nil], List.forall_mem_append.mpr ⟨hzeros _, h.digits⟩⟩
    have hunsigned := IsUnsigned.mk isWhole_zero (.inr ⟨_, hfraction, rfl⟩) (.inl rfl)
    rwa [List.append_nil] at hunsigned
  · next hpositive =>
    split
    · -- all digits stand before the point
      have hwhole : IsWhole (digits ++ List.replicate (point.natAbs - digits.length) '0') := by
        refine ⟨⟨by simp [h.ne_nil], List.forall_mem_append.mpr ⟨h.digits, hzeros _⟩⟩, fun hzero => ?_⟩
        rw [List.head?_append, Option.or_of_isSome (List.isSome_head?.mpr h.ne_nil)] at hzero
        have hdigits := h.zero hzero
        rw [hdigits, hz hdigits]
        rfl
      have hunsigned := IsUnsigned.mk hwhole (.inr ⟨_, isWhole_zero.toIsDigits, rfl⟩) (.inl rfl)
      rwa [List.append_nil] at hunsigned
    · next hshort =>
      -- the point stands between two digits
      have hwhole : IsWhole (digits.take point.natAbs) := by
        refine ⟨⟨?_, fun c hc => h.digits c (List.mem_of_mem_take hc)⟩, fun hzero => ?_⟩
        · rw [Ne, List.take_eq_nil_iff, not_or]
          exact ⟨by omega, h.ne_nil⟩
        · rw [List.head?_take, if_neg (by omega)] at hzero
          have hdigits := h.zero hzero
          rw [hdigits, hz hdigits] at hshort
          exact absurd (Nat.le_refl 1) hshort
      have hfraction : IsDigits (digits.drop point.natAbs) := by
        refine ⟨?_, fun c hc => h.digits c (List.mem_of_mem_drop hc)⟩
        rw [Ne, List.drop_eq_nil_iff]
        exact hshort
      have hunsigned := IsUnsigned.mk hwhole (.inr ⟨_, hfraction, rfl⟩) (.inl rfl)
      rwa [List.append_nil] at hunsigned

/-- Digits with an exponent are a number. -/
theorem isUnsigned_scientific (layout : DecimalLayout) (h : IsWhole digits) (exponent : Int) :
    IsUnsigned (layout.scientific digits exponent) := by
  have hexponent : IsDigits (List.replicate (layout.exponentDigits - (Nat.repr exponent.natAbs).toList.length) '0' ++
      (Nat.repr exponent.natAbs).toList) := by
    refine ⟨by simp, List.forall_mem_append.mpr ⟨fun c hc => ?_, ?_⟩⟩
    · rw [List.eq_of_mem_replicate hc]
      rfl
    · exact (isWhole_repr exponent.natAbs).digits
  have hsign : (if exponent < 0 then '-' else '+') = '-' ∨ (if exponent < 0 then '-' else '+') = '+' := by
    split
    · exact .inl rfl
    · exact .inr rfl
  cases digits with
  | nil => exact absurd rfl h.ne_nil
  | cons c cs =>
    obtain ⟨hc, hcs⟩ := List.forall_mem_cons.mp h.digits
    have hwhole : IsWhole [c] := ⟨⟨by simp, List.forall_mem_singleton.mpr hc⟩, fun hzero => by
      rw [Option.some.inj hzero]⟩
    have hfraction : IsFraction (if (c :: cs).length ≤ 1 then [] else '.' :: cs) := by
      split
      · exact .inl rfl
      · next hlong => exact .inr ⟨cs, ⟨fun hnil => hlong (by rw [hnil]; exact Nat.le_refl 1), hcs⟩, rfl⟩
    have hunsigned := IsUnsigned.mk hwhole hfraction (.inr ⟨_, _, hsign, hexponent, rfl⟩)
    rwa [← List.append_assoc] at hunsigned

/-- The text of a decimal is a number, if its digits are a zero only where it has no exponent. -/
theorem isNumber_write (layout : DecimalLayout) (negative : Bool) {d : Decimal} (h : d.digits = 0 → d.exponent = 0) :
    IsNumber (layout.write negative d) := by
  have hwhole := isWhole_repr d.digits
  have hzero : (Nat.repr d.digits).toList = ['0'] → ((Nat.repr d.digits).toList.length : Int) + d.exponent = 1 := by
    intro hdigits
    rw [hdigits, h (eq_zero_of_repr_eq hdigits)]
    rfl
  have hmagnitude : IsUnsigned (if layout.leastPoint ≤ (Nat.repr d.digits).toList.length + d.exponent &&
      (Nat.repr d.digits).toList.length + d.exponent ≤ layout.greatestPoint then
        DecimalLayout.positional (Nat.repr d.digits).toList ((Nat.repr d.digits).toList.length + d.exponent)
      else layout.scientific (Nat.repr d.digits).toList ((Nat.repr d.digits).toList.length + d.exponent - 1)) := by
    split
    · exact isUnsigned_positional hwhole hzero
    · exact isUnsigned_scientific layout hwhole _
  have hnumber := IsNumber.mk negative hmagnitude
  unfold DecimalLayout.write
  cases negative with
  | true => exact hnumber
  | false => exact hnumber

end SceneTree.JsonText
