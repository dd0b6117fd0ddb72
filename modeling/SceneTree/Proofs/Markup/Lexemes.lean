import SceneTree.Proofs.Markup.Parts
import SceneTree.Proofs.Markup.Printing

/-!
# Written parts are scanned

What is written for a text, an integer, a sign or a word is scanned as one token, whatever follows, if only a word or an
integer does not go on with it.
-/

namespace SceneTree.Markup

/-- A text is scanned, from any place on, into tokens with a property. -/
def Scans (text : List Char) (P : List Token → Prop) : Prop :=
  ∀ position, ∃ tokens, scanFrom position text = .ok tokens ∧ P tokens

/-- Some tokens with one property and then some with another. -/
def Then (P Q : List Token → Prop) (tokens : List Token) : Prop := ∃ a b, tokens = a ++ b ∧ P a ∧ Q b

/-- One token of a kind with a text. -/
def One (kind : TokenKind) (text : String) (tokens : List Token) : Prop :=
  ∃ t : Token, tokens = [t] ∧ t.kind = kind ∧ t.text = text

/-- A token that stands at the beginning of a text is scanned first. -/
theorem scans_token {part rest what : List Char} {kind : TokenKind} {Q : List Token → Prop}
    (hpart : Stands part rest (some (kind, what))) (h : Scans rest Q) :
    Scans (part ++ rest) (Then (One kind (String.ofList what)) Q) := by
  obtain ⟨c, text, rfl⟩ := List.exists_cons_of_ne_nil hpart.ne_nil
  intro position
  obtain ⟨tokens, htokens, hq⟩ := h (position.afterAll (c :: text))
  refine ⟨⟨kind, String.ofList what, position⟩ :: tokens, ?_, [_], tokens, rfl, ⟨_, rfl, rfl, rfl⟩, hq⟩
  rw [List.cons_append, scanFrom, lexeme_of_stands hpart]
  simp only [List.take_left, List.drop_left, htokens]
  rfl

theorem scans_sign (sign : Sign) {rest : List Char} {Q : List Token → Prop} (h : Scans rest Q) :
    Scans (sign.char :: rest) (Then (One (.sign sign) (String.ofList [sign.char])) Q) :=
  scans_token (.sign sign) h

theorem scans_newline {rest : List Char} {Q : List Token → Prop} (h : Scans rest Q) :
    Scans ('\n' :: rest) (Then (One .newline "\n") Q) :=
  scans_token .newline h

theorem scans_blank {rest : List Char} {Q : List Token → Prop} (h : Scans rest Q) : Scans (' ' :: rest) Q := by
  intro position
  obtain ⟨tokens, htokens, hq⟩ := h (position.afterAll [' '])
  refine ⟨tokens, ?_, hq⟩
  rw [scanFrom, show lexeme ' ' rest = .ok (none, 0) from rfl]
  simp only [List.take_zero, List.drop_zero, htokens]
  rfl

/-! ### Strings -/

/-- What may stand between two quotes for a text. A character stands for itself, with a backslash or without one, but
the quote, the line break and the backslash need one; behind a backslash `n`, `r` and `t` stand for the line break, the
carriage return and the tabulator. -/
inductive Escapes (quote : Char) : (what body : List Char) → Prop
  | nil : Escapes quote [] []
  | plain {c : Char} {what body : List Char} (hc : c ≠ quote ∧ c ≠ '\n' ∧ c ≠ '\\') (h : Escapes quote what body) :
    Escapes quote (c :: what) (c :: body)
  | newline {what body : List Char} (h : Escapes quote what body) :
    Escapes quote ('\n' :: what) ('\\' :: 'n' :: body)
  | carriageReturn {what body : List Char} (h : Escapes quote what body) :
    Escapes quote ('\r' :: what) ('\\' :: 'r' :: body)
  | tabulator {what body : List Char} (h : Escapes quote what body) :
    Escapes quote ('\t' :: what) ('\\' :: 't' :: body)
  | itself {c : Char} {what body : List Char} (hc : c ≠ 'n' ∧ c ≠ 'r' ∧ c ≠ 't') (h : Escapes quote what body) :
    Escapes quote (c :: what) ('\\' :: c :: body)

theorem escaped_eq_self {c : Char} (h : c ≠ 'n' ∧ c ≠ 'r' ∧ c ≠ 't') : escaped c = c := by
  obtain ⟨hn, hr, ht⟩ := h
  unfold escaped
  split
  · exact absurd rfl hn
  · exact absurd rfl hr
  · exact absurd rfl ht
  · rfl

theorem Escapes.isInside {quote : Char} {what body : List Char} (h : Escapes quote what body) : IsInside quote body := by
  induction h with
  | nil => exact .nil
  | plain hc _ ih => exact .plain hc ih
  | newline _ ih | carriageReturn _ ih | tabulator _ ih | itself _ _ ih => exact .escaped ih

theorem Escapes.unescape_eq {quote : Char} {what body : List Char} (h : Escapes quote what body) :
    unescape body = what := by
  induction h with
  | nil => rfl
  | plain hc _ ih =>
    rw [unescape, ih]
    exact fun _ _ heq => absurd heq hc.2.2
  | newline _ ih | carriageReturn _ ih | tabulator _ ih => rw [unescape, ih]; rfl
  | itself hc _ ih => rw [unescape, ih, escaped_eq_self hc]

/-- What stands for a character between quotes: the quote, the backslash and the line break have a backslash, and
everything else stands as it is. -/
def escapeFor (quote c : Char) : List Char :=
  if c = quote ∨ c = '\\' then ['\\', c] else if c = '\n' then ['\\', 'n'] else [c]

/-- Every text may be written between two quotes. -/
theorem escapes_flatMap_escapeFor {quote : Char} (hquote : quote = '"' ∨ quote = '\'') (what : List Char) :
    Escapes quote what (what.flatMap (escapeFor quote)) := by
  induction what with
  | nil => exact .nil
  | cons c what ih =>
    rw [List.flatMap_cons, escapeFor]
    split
    · next h =>
      refine .itself ?_ ih
      rcases h with rfl | rfl
      · rcases hquote with rfl | rfl <;> decide
      · decide
    · next h =>
      obtain ⟨hne, hslash⟩ := not_or.mp h
      split
      · next hnewline =>
        subst hnewline
        exact .newline ih
      · next hnewline => exact .plain ⟨hne, hnewline, hslash⟩ ih

/-- A text between quotes stands for itself, whatever it holds. -/
theorem Escapes.stands {quote : Char} {what body : List Char} (h : Escapes quote what body)
    (hquote : quote = '"' ∨ quote = '\'') (rest : List Char) :
    Stands (quote :: (body ++ [quote])) rest (some (.string, what)) := by
  have hstands : Stands (quote :: (body ++ [quote])) rest (some (.string, unescape body)) := .string hquote h.isInside
  rwa [h.unescape_eq] at hstands

/-- A text between quotes is scanned as the string that it is, whatever it holds. -/
theorem scans_text (s : String) {rest : List Char} {Q : List Token → Prop} (h : Scans rest Q) :
    Scans (writtenText s ++ rest) (Then (One .string s) Q) := by
  have hbody : Escapes '"' s.toList (s.toList.flatMap escape) := escapes_flatMap_escapeFor (.inl rfl) s.toList
  have := scans_token (hbody.stands (.inl rfl) rest) h
  rwa [String.ofList_toList] at this

/-! ### Words and numbers -/

/-- Whether neither a name nor a number goes on with what a text begins with. -/
def Apart (text : List Char) : Prop := ∀ c ∈ text.head?, continuesName c = false ∧ Text.isDigit c = false ∧ c ≠ '.'

/-- Whether a text is a name, and is read as one. -/
def isWord : List Char → Bool
  | [] => false
  | c :: rest =>
    beginsName c && !(isGap c || c = '\n' || c = '#' || c = '"' || c = '\'' || Text.isDigit c || c = '-' || c = '.') &&
      rest.all continuesName

theorem isName_of_isWord {word : List Char} (h : isWord word) : IsName word := by
  cases word with
  | nil => cases h
  | cons c rest =>
    simp only [isWord, Bool.and_eq_true, List.all_eq_true] at h
    exact ⟨h.1.1, h.2⟩

/-- A word is scanned as a keyword or a name. -/
theorem scans_word (word : List Char) {rest : List Char} {Q : List Token → Prop} (hword : isWord word)
    (hrest : Apart rest) (h : Scans rest Q) :
    Scans (word ++ rest)
      (Then (One (if keywords.contains (String.ofList word) then .keyword else .name) (String.ofList word)) Q) :=
  scans_token (.name (isName_of_isWord hword) fun c hc => (hrest c hc).1) h

/-- A number is scanned as it is written. -/
theorem scans_number {text whole : List Char} {negative : Bool} {fraction : Option (List Char)} {rest : List Char}
    {Q : List Token → Prop} (hwritten : Written text negative whole fraction) (hrest : Apart rest) (h : Scans rest Q) :
    Scans (text ++ rest) (Then (One .number (String.ofList text)) Q) :=
  scans_token (.number hwritten fun c hc => ⟨(hrest c hc).2.1, fun _ => (hrest c hc).2.2⟩) h

/-- What a digit of a written integer is. -/
structure IsPlainDigit (c : Char) : Prop where
  isDigit : Text.isDigit c = true
  decimalValue? : Text.decimalValue? c = some (c.toNat - 48)
  isGap : isGap c = false
  ne : c ≠ '\n' ∧ c ≠ '#' ∧ c ≠ '"' ∧ c ≠ '\'' ∧ c ≠ '.'

theorem isPlainDigit_of_mem_toDigits {n : Nat} {c : Char} (h : c ∈ Nat.toDigits 10 n) : IsPlainDigit c := by
  have hall : ∀ n < 58, 48 ≤ n → Text.isDigit (Char.ofNat n) = true ∧
      Text.decimalValue? (Char.ofNat n) = some ((Char.ofNat n).toNat - 48) ∧ isGap (Char.ofNat n) = false ∧
      Char.ofNat n ≠ '\n' ∧ Char.ofNat n ≠ '#' ∧ Char.ofNat n ≠ '"' ∧ Char.ofNat n ≠ '\'' ∧ Char.ofNat n ≠ '.' := by
    decide
  have hascii : 48 ≤ c.toNat ∧ c.toNat < 58 := by
    have := Nat.isDigit_of_mem_toDigits (by decide) (by decide) h
    rw [Char.isDigit, Bool.and_eq_true, decide_eq_true_eq, decide_eq_true_eq, ge_iff_le, UInt32.le_iff_toNat_le,
      UInt32.le_iff_toNat_le] at this
    exact ⟨this.1, Nat.lt_succ_of_le this.2⟩
  obtain ⟨hdigit, hvalue, hgap, hne⟩ := hall c.toNat hascii.2 hascii.1
  rw [Char.ofNat_toNat] at hdigit hvalue hgap hne
  exact ⟨hdigit, hvalue, hgap, hne⟩

/-- An integer is written like a number. -/
theorem written_writtenInteger (n : Int) :
    Written (writtenInteger n) (decide (n < 0)) (Nat.toDigits 10 n.natAbs) none where
  eq_append := by simp [writtenInteger]
  isDigit_of_mem c hc := (isPlainDigit_of_mem_toDigits (by simpa using hc)).isDigit
  ne_nil := by simp [Nat.toDigits_ne_nil]

/-- The digits of a natural number write it. -/
theorem foldl_digitValues_toDigits (n : Nat) :
    (digitValues (Nat.toDigits 10 n)).foldl (fun n d => 10 * n + d) 0 = n := by
  have hvalues : ∀ digits : List Char, (∀ c ∈ digits, IsPlainDigit c) →
      digitValues digits = digits.map fun c => c.toNat - 48 := by
    intro digits hd
    rw [digitValues, ← List.filterMap_eq_map]
    exact List.filterMap_congr fun c hc => (hd c hc).decimalValue?
  rw [hvalues _ fun c hc => isPlainDigit_of_mem_toDigits hc, List.foldl_map]
  exact Nat.ofDigitChars_ten_toDigits

/-- A written integer denotes the integer, if it has not too many digits. -/
theorem numberValue_writtenInteger {n : Int} (h : IsWritable (.int n)) :
    numberValue (String.ofList (writtenInteger n)) = .ok (.int n) := by
  have hw := written_writtenInteger n
  rw [hw.numberValue_eq_ok_iff]
  have hpoint : '.' ∉ writtenInteger n := by simp [hw.mem_point_iff]
  refine ⟨⟨?_, fun _ => ?_⟩, ?_⟩
  · rw [hw.isDecimal_iff]
    intro c hc
    rw [(isPlainDigit_of_mem_toDigits (by simpa using hc)).decimalValue?]
    rfl
  · rw [hw.countP]
    simpa [IsWritable] using h
  · have hdigits := hw.digitValues
    rw [Option.getD_none, List.append_nil] at hdigits
    rw [denoted, if_neg hpoint, hdigits, foldl_digitValues_toDigits]
    simp only [hw.head?_eq_iff, decide_eq_true_eq]
    congr 1
    split <;> omega

/-- An integer is scanned as a number. -/
theorem scans_integer (n : Int) {rest : List Char} {Q : List Token → Prop} (hrest : Apart rest) (h : Scans rest Q) :
    Scans (writtenInteger n ++ rest) (Then (One .number (String.ofList (writtenInteger n))) Q) :=
  scans_number (written_writtenInteger n) hrest h

theorem Scans.imp {text : List Char} {P Q : List Token → Prop} (h : Scans text P) (himp : ∀ ts, P ts → Q ts) :
    Scans text Q := by
  intro position
  obtain ⟨tokens, htokens, hp⟩ := h position
  exact ⟨tokens, htokens, himp tokens hp⟩

theorem apart_nil : Apart [] := fun _ hc => nomatch hc

theorem apart_of_sign (sign : Sign) (rest : List Char) : Apart (sign.char :: rest) := by
  intro c hc
  obtain rfl : sign.char = c := by simpa using hc
  cases sign <;> decide

theorem apart_blank (rest : List Char) : Apart (' ' :: rest) := by
  intro c hc
  obtain rfl : ' ' = c := by simpa using hc
  decide

theorem apart_newline (rest : List Char) : Apart ('\n' :: rest) := by
  intro c hc
  obtain rfl : '\n' = c := by simpa using hc
  decide

end SceneTree.Markup
