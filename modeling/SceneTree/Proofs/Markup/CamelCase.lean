import SceneTree.Proofs.Markup.Names

/-!
# Names in camel case

The words of a field's name are joined by underscores. Where an author runs them together, each but the first with a
capital, the field is still found: every capital gives back the underscore before it. A name without capitals means
itself.
-/

namespace SceneTree.Markup

variable {c : Char} {name text word : List Char} {words : List (List Char)}

/-- A small letter of ASCII. -/
def isSmall (c : Char) : Bool := 'a' ≤ c && c ≤ 'z'

/-- A small letter, a digit or an underscore: what names without capitals are made of. -/
def isLabelChar (c : Char) : Bool := isSmall c || Numeral.isAsciiDigit c || c == '_'

/-- A small letter and then small letters and digits. -/
def IsNameWord : List Char → Prop
  | [] => False
  | c :: rest => isSmall c = true ∧ ∀ d ∈ rest, isSmall d = true ∨ Numeral.isAsciiDigit d = true

/-- A word with a capital. -/
def capitalized : List Char → List Char
  | [] => []
  | c :: rest => c.toUpper :: rest

/-- Words with underscores between them. -/
def snakeCase (words : List (List Char)) : List Char := ['_'].intercalate words

/-- Words run together, each but the first with a capital. -/
def camelCase : List (List Char) → List Char
  | [] => []
  | word :: words => word ++ words.flatMap capitalized

/-- A text of ASCII characters. -/
def IsAscii (text : List Char) : Prop := ∀ c ∈ text, c.toNat < 128

/-! ### Characters -/

theorem of_ascii {P : Char → Prop} (h : ∀ n < 128, P (Char.ofNat n)) (hc : c.toNat < 128) : P c :=
  Char.ofNat_toNat c ▸ h c.toNat hc

theorem toNat_lt_of_isLabelChar (h : isLabelChar c = true) : c.toNat < 128 := by
  simp only [isLabelChar, isSmall, Numeral.isAsciiDigit, Bool.or_eq_true, Bool.and_eq_true, decide_eq_true_eq,
    beq_iff_eq, Char.le_def, UInt32.le_iff_toNat_le] at h
  rcases h with (⟨-, h⟩ | ⟨-, h⟩) | rfl
  · exact Nat.lt_of_le_of_lt h (by decide)
  · exact Nat.lt_of_le_of_lt h (by decide)
  · decide

theorem isLabelChar_of_isSmall (h : isSmall c = true) : isLabelChar c = true := by simp [isLabelChar, h]

theorem not_isCapital_of_isLabelChar (h : isLabelChar c = true) : isCapital c = false :=
  of_ascii (P := fun c => isLabelChar c = true → isCapital c = false) (by decide +kernel) (toNat_lt_of_isLabelChar h) h

/-- Without capitals, lower case changes nothing. -/
theorem map_asciiLower_of_no_capital (h : ∀ c ∈ text, isCapital c = false) : text.map Numeral.asciiLower = text := by
  calc text.map Numeral.asciiLower
    _ = text.map id := List.map_congr_left fun c hc => by
      rw [Numeral.asciiLower, if_neg]
      · rfl
      · simpa [isCapital] using h c hc
    _ = text := List.map_id _

/-- The capital of a small letter comes back as that letter. -/
theorem toUpper_facts (h : isSmall c = true) :
    isCapital c.toUpper = true ∧ Numeral.asciiLower c.toUpper = c ∧ c.toUpper.toNat < 128 :=
  of_ascii (P := fun c => isSmall c = true →
      isCapital c.toUpper = true ∧ Numeral.asciiLower c.toUpper = c ∧ c.toUpper.toNat < 128)
    (by decide +kernel) (toNat_lt_of_isLabelChar (isLabelChar_of_isSmall h)) h

/-- The small letter of a character of ASCII is one of ASCII, no capital, and an underscore for an underscore only. -/
theorem asciiLower_facts (h : c.toNat < 128) :
    (Numeral.asciiLower c).toNat < 128 ∧ isCapital (Numeral.asciiLower c) = false ∧
      (Numeral.asciiLower c = '_' ↔ c = '_') :=
  of_ascii (P := fun c => (Numeral.asciiLower c).toNat < 128 ∧ isCapital (Numeral.asciiLower c) = false ∧
    (Numeral.asciiLower c = '_' ↔ c = '_')) (by decide +kernel) h

/-! ### Underscores before capitals -/

theorem parted_append (text text' : List Char) : parted (text ++ text') = parted text ++ parted text' :=
  List.flatMap_append

theorem parted_cons_of_capital (h : isCapital c = true) (text : List Char) :
    parted (c :: text) = '_' :: c :: parted text := by
  rw [parted, List.flatMap_cons, if_pos h]
  rfl

theorem parted_of_no_capital (h : ∀ c ∈ text, isCapital c = false) : parted text = text := by
  induction text with
  | nil => rfl
  | cons c rest ih =>
    rw [parted, List.flatMap_cons, if_neg (by simp [h c List.mem_cons_self])]
    exact congrArg (c :: ·) (ih fun d hd => h d (List.mem_cons_of_mem _ hd))

theorem isAscii_parted (h : IsAscii text) : IsAscii (parted text) := by
  intro c hc
  obtain ⟨d, hd, hc⟩ := List.mem_flatMap.mp hc
  split at hc
  · rcases List.mem_pair.mp hc with rfl | rfl
    · decide
    · exact h _ hd
  · exact List.mem_singleton.mp hc ▸ h d hd

/-- Underscores are all that is put in. -/
theorem filter_parted (text : List Char) : (parted text).filter (· ≠ '_') = text.filter (· ≠ '_') := by
  induction text with
  | nil => rfl
  | cons c rest ih =>
    cases hc : isCapital c with
    | true =>
      rw [parted_cons_of_capital hc, List.filter_cons_of_neg (by simp), List.filter_cons, ih, List.filter_cons]
    | false =>
      rw [parted, List.flatMap_cons, if_neg (by simp [hc]), List.singleton_append, List.filter_cons, List.filter_cons]
      rw [parted] at ih
      rw [ih]

/-! ### Names -/

theorem attributeName_of_ascii (h : IsAscii (c :: text)) :
    IsAscii (c :: parted text) ∧ attributeName (c :: text) = (c :: parted text).map Numeral.asciiLower := by
  have hparted : IsAscii (c :: parted text) :=
    List.forall_mem_cons.mpr ⟨h c List.mem_cons_self, isAscii_parted fun d hd => h d (List.mem_cons_of_mem _ hd)⟩
  exact ⟨hparted, lower_of_ascii (List.all_eq_true.mpr fun d hd => decide_eq_true (hparted d hd))⟩

/-- What an ASCII name means has no capitals. -/
theorem not_isCapital_of_attributeName (h : IsAscii name) :
    IsAscii (attributeName name) ∧ ∀ c ∈ attributeName name, isCapital c = false := by
  cases name with
  | nil => exact ⟨fun _ hc => absurd hc List.not_mem_nil, fun _ hc => absurd hc List.not_mem_nil⟩
  | cons c text =>
    obtain ⟨hparted, heq⟩ := attributeName_of_ascii h
    rw [heq]
    exact ⟨List.forall_mem_map.mpr fun d hd => (asciiLower_facts (hparted d hd)).1,
      List.forall_mem_map.mpr fun d hd => (asciiLower_facts (hparted d hd)).2.1⟩

/-- A name without capitals means itself. -/
theorem attributeName_of_no_capital (h : IsAscii name) (hc : ∀ c ∈ name, isCapital c = false) :
    attributeName name = name := by
  cases name with
  | nil => rfl
  | cons c text =>
    rw [(attributeName_of_ascii h).2, parted_of_no_capital fun d hd => hc d (List.mem_cons_of_mem _ hd),
      map_asciiLower_of_no_capital hc]

/-- The letters and digits of a name are those of what it means, in lower case. -/
theorem filter_attributeName (h : IsAscii name) :
    (attributeName name).filter (· ≠ '_') = (Text.lower name).filter (· ≠ '_') := by
  cases name with
  | nil => rfl
  | cons c text =>
    have hfilter : ∀ {text : List Char}, IsAscii text →
        (text.map Numeral.asciiLower).filter (· ≠ '_') = (text.filter (· ≠ '_')).map Numeral.asciiLower := by
      intro text hascii
      rw [List.filter_map]
      refine congrArg _ (List.filter_congr fun d hd => ?_)
      simp [(asciiLower_facts (hascii d hd)).2.2]
    obtain ⟨hparted, heq⟩ := attributeName_of_ascii h
    rw [heq, lower_of_ascii (List.all_eq_true.mpr fun d hd => decide_eq_true (h d hd)), hfilter hparted, hfilter h,
      List.filter_cons, filter_parted, List.filter_cons]

/-! ### Words -/

theorem IsNameWord.all_isLabelChar (h : IsNameWord word) : ∀ c ∈ word, isLabelChar c = true := by
  match word, h with
  | c :: rest, ⟨hc, hrest⟩ =>
    refine List.forall_mem_cons.mpr ⟨isLabelChar_of_isSmall hc, fun d hd => ?_⟩
    rcases hrest d hd with h | h <;> simp [isLabelChar, h]

theorem snakeCase_cons (word : List Char) (words : List (List Char)) :
    snakeCase (word :: words) = word ++ words.flatMap ('_' :: ·) := by
  induction words generalizing word with
  | nil => rw [snakeCase, List.intercalate_singleton, List.flatMap_nil, List.append_nil]
  | cons next words ih =>
    rw [snakeCase, List.intercalate_cons_cons, ← snakeCase, ih, List.flatMap_cons, List.append_assoc]
    rfl

theorem all_isLabelChar_snakeCase (h : ∀ word ∈ words, IsNameWord word) :
    ∀ c ∈ snakeCase words, isLabelChar c = true := by
  cases words with
  | nil => exact fun _ hc => absurd hc List.not_mem_nil
  | cons word words =>
    rw [snakeCase_cons]
    intro c hc
    rcases List.mem_append.mp hc with hc | hc
    · exact (h word List.mem_cons_self).all_isLabelChar c hc
    · obtain ⟨next, hnext, hc⟩ := List.mem_flatMap.mp hc
      rcases List.mem_cons.mp hc with rfl | hc
      · rfl
      · exact (h next (List.mem_cons_of_mem _ hnext)).all_isLabelChar c hc

/-- The capital of a word gives back the underscore before it. -/
theorem IsNameWord.lower_parted (h : IsNameWord word) :
    (parted (capitalized word)).map Numeral.asciiLower = '_' :: word ∧ IsAscii (capitalized word) := by
  match word, h with
  | c :: rest, h =>
    obtain ⟨hcapital, hlower, hascii⟩ := toUpper_facts h.1
    have hrest : ∀ d ∈ rest, isLabelChar d = true := fun d hd => h.all_isLabelChar d (List.mem_cons_of_mem _ hd)
    refine ⟨?_, List.forall_mem_cons.mpr ⟨hascii, fun d hd => toNat_lt_of_isLabelChar (hrest d hd)⟩⟩
    have hsmall : ∀ d ∈ rest, isCapital d = false := fun d hd => not_isCapital_of_isLabelChar (hrest d hd)
    rw [capitalized, parted_cons_of_capital hcapital, parted_of_no_capital hsmall, List.map_cons, List.map_cons, hlower,
      map_asciiLower_of_no_capital hsmall]
    rfl

theorem lower_parted_flatMap (h : ∀ word ∈ words, IsNameWord word) :
    (parted (words.flatMap capitalized)).map Numeral.asciiLower = words.flatMap ('_' :: ·) := by
  induction words with
  | nil => rfl
  | cons word words ih =>
    rw [List.flatMap_cons, parted_append, List.map_append, (h word List.mem_cons_self).lower_parted.1,
      ih fun next hnext => h next (List.mem_cons_of_mem _ hnext), List.flatMap_cons]

/-- Words that run together mean the same words with underscores between them. -/
theorem attributeName_camelCase (h : ∀ word ∈ words, IsNameWord word) :
    attributeName (camelCase words) = snakeCase words := by
  match words, h with
  | [], _ => rfl
  | [] :: _, h => exact (h [] List.mem_cons_self).elim
  | (c :: rest) :: words, h =>
    have hword := h (c :: rest) List.mem_cons_self
    have hwords : ∀ word ∈ words, IsNameWord word := fun word hw => h word (List.mem_cons_of_mem _ hw)
    have hlabel : ∀ d ∈ c :: rest, isLabelChar d = true := hword.all_isLabelChar
    have hascii : IsAscii (c :: (rest ++ words.flatMap capitalized)) := by
      rw [← List.cons_append]
      intro d hd
      rcases List.mem_append.mp hd with hd | hd
      · exact toNat_lt_of_isLabelChar (hlabel d hd)
      · obtain ⟨word, hw, hd⟩ := List.mem_flatMap.mp hd
        exact (hwords word hw).lower_parted.2 d hd
    have hsmall : ∀ d ∈ c :: rest, isCapital d = false := fun d hd => not_isCapital_of_isLabelChar (hlabel d hd)
    calc attributeName (camelCase ((c :: rest) :: words))
      _ = (c :: parted (rest ++ words.flatMap capitalized)).map Numeral.asciiLower := (attributeName_of_ascii hascii).2
      _ = ((c :: rest) ++ parted (words.flatMap capitalized)).map Numeral.asciiLower := by
        rw [parted_append, parted_of_no_capital fun d hd => hsmall d (List.mem_cons_of_mem _ hd), List.cons_append]
      _ = (c :: rest) ++ words.flatMap ('_' :: ·) := by
        rw [List.map_append, lower_parted_flatMap hwords, map_asciiLower_of_no_capital hsmall]
      _ = snakeCase ((c :: rest) :: words) := (snakeCase_cons _ _).symm

/-- Small words are the name of the same field whether underscores join them or they run together with capitals. Of any
ASCII name, what it means is a name of the same field, and it has the letters and digits of the name in lower case. -/
theorem attributeName_spellings :
    (∀ words : List (List Char), (∀ word ∈ words, IsNameWord word) →
        attributeName (snakeCase words) = snakeCase words ∧ attributeName (camelCase words) = snakeCase words) ∧
      ∀ name, IsAscii name → attributeName (attributeName name) = attributeName name ∧
        (attributeName name).filter (· ≠ '_') = (Text.lower name).filter (· ≠ '_') := by
  refine ⟨fun words h => ⟨?_, attributeName_camelCase h⟩, fun name h => ⟨?_, filter_attributeName h⟩⟩
  · have hlabel := all_isLabelChar_snakeCase h
    exact attributeName_of_no_capital (fun c hc => toNat_lt_of_isLabelChar (hlabel c hc))
      fun c hc => not_isCapital_of_isLabelChar (hlabel c hc)
  · obtain ⟨hascii, hcapital⟩ := not_isCapital_of_attributeName h
    exact attributeName_of_no_capital hascii hcapital

/-- Words with a digit and with a single letter, and a name in which capitals and underscores meet. -/
theorem attributeName_spellings_mixed :
    (∀ word ∈ [['u', 's', 'e', '2'], ['x'], ['l', 'o', 'c', 'a', 'l']], IsNameWord word) ∧
      attributeName "use2XLocal".toList = "use2_x_local".toList ∧
      attributeName "use2_x_local".toList = "use2_x_local".toList ∧
      IsAscii "__XMLUrl_A".toList ∧ attributeName "__XMLUrl_A".toList = "___x_m_l_url__a".toList ∧
      attributeName "___x_m_l_url__a".toList = "___x_m_l_url__a".toList := by
  have hwords : ∀ word ∈ [['u', 's', 'e', '2'], ['x'], ['l', 'o', 'c', 'a', 'l']], IsNameWord word := by
    simp [IsNameWord, isSmall, Numeral.isAsciiDigit]
  have hascii : IsAscii "__XMLUrl_A".toList := by simp [IsAscii]
  have hname : attributeName "__XMLUrl_A".toList = "___x_m_l_url__a".toList := by decide +kernel
  obtain ⟨hsnake, hcamel⟩ := attributeName_spellings.1 _ hwords
  obtain ⟨hagain, -⟩ := attributeName_spellings.2 _ hascii
  rw [hname] at hagain
  exact ⟨hwords, hcamel, hsnake, hascii, hname, hagain⟩

end SceneTree.Markup
