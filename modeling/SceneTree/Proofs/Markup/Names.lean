import SceneTree.Proofs.Markup.Lexemes

/-!
# Written names

The names of the fields, in both spellings, and those of the kinds are words that mean them.
-/

namespace SceneTree.Markup

/-- In ASCII only the capitals have small letters. -/
theorem lower_of_ascii {text : List Char} (h : text.all fun c => c.toNat < 128) :
    Text.lower text = text.map Numeral.asciiLower := by
  replace h : ∀ c ∈ text, c.toNat < 128 := fun c hc => of_decide_eq_true (List.all_eq_true.mp h c hc)
  have hbeyond : ∀ run ∈ Text.caseRuns.tail, 128 ≤ run.first := by decide +kernel
  have hcode : ∀ c : Char, c.toNat < 128 → Char.ofNat (Text.lowerCode c.toNat) = Numeral.asciiLower c := by
    intro c hc
    have hnone : Text.caseRuns.tail.find? (fun run => run.first ≤ c.toNat && c.toNat ≤ run.last &&
        (c.toNat - run.first) % run.stride = 0) = none := by
      rw [List.find?_eq_none]
      intro run hrun hin
      simp only [Bool.and_eq_true, decide_eq_true_eq] at hin
      have := hbeyond run hrun
      omega
    have hcapital : ('A' ≤ c && c ≤ 'Z') = true ↔ 65 ≤ c.toNat ∧ c.toNat ≤ 90 := by
      rw [Bool.and_eq_true, decide_eq_true_eq, decide_eq_true_eq, Char.le_def, Char.le_def, UInt32.le_iff_toNat_le,
        UInt32.le_iff_toNat_le]
      rfl
    rw [Text.lowerCode, show Text.caseRuns = ⟨0x41, 0x5A, 1, 32⟩ :: Text.caseRuns.tail from rfl, List.find?_cons, hnone,
      Numeral.asciiLower]
    by_cases hbetween : 65 ≤ c.toNat ∧ c.toNat ≤ 90
    · rw [if_pos (hcapital.mpr hbetween)]
      have hshift : ((c.toNat : Int) + 32).toNat = c.toNat + 32 := by omega
      simp [hbetween.1, hbetween.2, Nat.mod_one, hshift]
    · rw [if_neg (mt hcapital.mp hbetween)]
      have : (decide (65 ≤ c.toNat) && decide (c.toNat ≤ 90)) = false := by simpa using hbetween
      simp [this]
  have hfrom : ∀ before, Text.lowerFrom before text = text.map Numeral.asciiLower := by
    induction text with
    | nil => exact fun _ => rfl
    | cons c rest ih =>
      intro before
      have hc := h c List.mem_cons_self
      have hdot : c ≠ '\u0130' := by rintro rfl; revert hc; decide
      have hsigma : c ≠ '\u03A3' := by rintro rfl; revert hc; decide
      rw [Text.lowerFrom, ih fun c hc => h c (List.mem_cons_of_mem _ hc), Text.lowerChar, if_neg hdot, if_neg hsigma,
        hcode c hc]
      rfl
  exact hfrom []

/-- The name of a field is a word in both spellings, and its words are those of the label. -/
theorem nameOf_facts (spelling : Spelling) (field : Field) :
    isWord (spelling.nameOf field) = true ∧ keywords.contains (String.ofList (spelling.nameOf field)) = false ∧
      (spelling.nameOf field).head?.any isCapital = false ∧
      ((parted (spelling.nameOf field)).all fun c => c.toNat < 128) ∧
      (parted (spelling.nameOf field)).map Numeral.asciiLower = field.label.toList := by
  have hall : ∀ spelling ∈ [Spelling.underscores, .capitals], ∀ field ∈ Field.all,
      isWord (spelling.nameOf field) = true ∧ keywords.contains (String.ofList (spelling.nameOf field)) = false ∧
        (spelling.nameOf field).head?.any isCapital = false ∧
        ((parted (spelling.nameOf field)).all fun c => c.toNat < 128) ∧
        (parted (spelling.nameOf field)).map Numeral.asciiLower = field.label.toList := by
    decide +kernel
  exact hall spelling (by cases spelling <;> simp) field (Field.mem_all field)

theorem ofLabel?_label (field : Field) : Field.ofLabel? field.label = some field := by
  have hall : ∀ field ∈ Field.all, Field.ofLabel? field.label = some field := by decide +kernel
  exact hall field (Field.mem_all field)

/-- The name of a field means the field, in both spellings. -/
theorem attributeField?_nameOf (spelling : Spelling) (field : Field) :
    attributeField? (String.ofList (spelling.nameOf field)) = some field := by
  obtain ⟨hword, -, hcapital, hascii, hlower⟩ := nameOf_facts spelling field
  rw [attributeField?, String.toList_ofList]
  match hname : spelling.nameOf field with
  | [] =>
    rw [hname] at hword
    cases hword
  | c :: rest =>
    rw [hname] at hascii hlower hcapital
    have hparted : parted (c :: rest) = c :: parted rest := by
      rw [parted, List.flatMap_cons, if_neg (by simpa using hcapital)]
      rfl
    rw [attributeName, ← hparted, lower_of_ascii hascii, hlower, String.ofList_toList, ofLabel?_label]

/-- The name of a kind that markup has words for is such a word. -/
theorem name_facts {kind : Kind} (h : kind ∈ Kind.words.map (·.2)) :
    isWord kind.name.toList = true ∧ keywords.contains kind.name = false ∧
      Kind.ofWord? (String.ofList (Text.lower kind.name.toList)) = some kind := by
  have hall : ∀ kind ∈ Kind.words.map (·.2), isWord kind.name.toList = true ∧ keywords.contains kind.name = false ∧
      (kind.name.toList.all fun c => c.toNat < 128) ∧
      Kind.ofWord? (String.ofList (kind.name.toList.map Numeral.asciiLower)) = some kind := by decide +kernel
  obtain ⟨hword, hkeyword, hascii, hkind⟩ := hall kind h
  exact ⟨hword, hkeyword, lower_of_ascii hascii ▸ hkind⟩

end SceneTree.Markup
