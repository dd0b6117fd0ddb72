import Mathlib.Data.List.Basic
import Mathlib.Data.List.TakeWhile
import SceneTree.CommandLine.Arguments
import SceneTree.Proofs.Number.Integers

/-!
# What arguments say

The usage of the command as a relation: `Says` goes through the arguments from the front and has their operands, which
are all that is no option, and the text of the indentation that is given last. It knows nothing of words or of the runs
of operands between the options. Arguments say what the words say that they are taken for (`Says.words`,
`WordsSay.says`), and one thing at most (`Says.unique`).
-/

namespace SceneTree.CommandLine

/-! ### Single arguments -/

/-- The name of an option, in full. -/
def Flag.longName : Flag → List Char
  | .help => ['-', '-', 'h', 'e', 'l', 'p']
  | .indent => ['-', '-', 'i', 'n', 'd', 'e', 'n', 't']
  | .verbose => ['-', '-', 'v', 'e', 'r', 'b', 'o', 's', 'e']

/-- The name of an option, in full or cut short behind its first letter or a later one. -/
def Abbreviates (name : List Char) (flag : Flag) : Prop := 3 ≤ name.length ∧ name <+: flag.longName

/-- A minus sign and a decimal number, perhaps before a line break. -/
def IsNegativeNumber (text : List Char) : Prop :=
  ∃ whole fraction last, text = '-' :: (whole ++ fraction ++ last) ∧ (last = [] ∨ last = ['\n']) ∧
    (∀ c ∈ whole, (Text.decimalValue? c).isSome = true) ∧
    (fraction = [] ∧ whole ≠ [] ∨
      ∃ digits, fraction = '.' :: digits ∧ digits ≠ [] ∧ ∀ c ∈ digits, (Text.decimalValue? c).isSome = true)

/-- Whether an argument begins like an option: with `-h`, or with two minus signs and any part of the name of an option,
behind which is nothing or an equals sign. -/
def BeginsOption (text : List Char) : Prop :=
  ['-', 'h'] <+: text ∨
    ∃ name flag, 2 ≤ name.length ∧ name <+: Flag.longName flag ∧ (text = name ∨ ∃ value, text = name ++ '=' :: value)

/-- Whether an argument is an operand: what begins with a minus sign is one only if it does not begin like an option,
and is the sign alone, has a space in it or is a number. -/
def IsOperand (text : List Char) : Prop :=
  ¬ BeginsOption text ∧ (text.head? = some '-' → text = ['-'] ∨ ' ' ∈ text ∨ IsNegativeNumber text)

/-- Arguments say operands and an indentation, or none. -/
inductive Says : List String → (operands : List String) → (indentation : Option (List Char)) → Prop
  | nil : Says [] [] none
  | endOfOptions (rest : List String) : Says ("--" :: rest) rest none
  | operand {text : String} {rest operands : List String} {indentation : Option (List Char)}
    (h : IsOperand text.toList) (hrest : Says rest operands indentation) :
    Says (text :: rest) (text :: operands) indentation
  | verbose {text : String} {rest operands : List String} {indentation : Option (List Char)}
    (h : Abbreviates text.toList .verbose) (hrest : Says rest operands indentation) :
    Says (text :: rest) operands indentation
  | indent {text value : String} {rest operands : List String} {indentation : Option (List Char)}
    (h : Abbreviates text.toList .indent) (hvalue : IsOperand value.toList) (hrest : Says rest operands indentation) :
    Says (text :: value :: rest) operands (indentation.or (some value.toList))
  | indentIs {text : String} {name value : List Char} {rest operands : List String}
    {indentation : Option (List Char)} (htext : text.toList = name ++ '=' :: value) (h : Abbreviates name .indent)
    (hrest : Says rest operands indentation) : Says (text :: rest) operands (indentation.or (some value))

/-- The text of an indentation writes its number of spaces; none is given where there is no text. -/
def Indents : Option (List Char) → Option Int → Prop
  | none, indent => indent = none
  | some text, indent => ∃ width, indent = some width ∧ Numeral.Writes text width

/-- Arguments ask for an input to be compiled to an output with an indentation. -/
def Asks (arguments : List String) (input output : String) (indent : Option Int) : Prop :=
  ∃ indentation, Says arguments [input, output] indentation ∧ Indents indentation indent

/-! ### Numbers and names -/

/-- The digits at the beginning of a text are all of it that comes before what begins with no digit. -/
theorem dropWhile_decimals {whole fraction : List Char} (hwhole : ∀ c ∈ whole, (Text.decimalValue? c).isSome = true)
    (hfraction : ∀ c ∈ fraction.head?, (Text.decimalValue? c).isSome = false) :
    (whole ++ fraction).dropWhile (fun c => (Text.decimalValue? c).isSome) = fraction := by
  rw [List.dropWhile_append_of_pos hwhole]
  cases fraction with
  | nil => rfl
  | cons c rest => simp [hfraction c rfl]

/-- A line break at the end of a text is taken off. -/
theorem withoutBreak_eq {body last : List Char} (hlast : last = [] ∨ last = ['\n']) (hbody : body.getLast? ≠ some '\n') :
    (if (body ++ last).getLast? = some '\n' then (body ++ last).dropLast else body ++ last) = body := by
  rcases hlast with rfl | rfl
  · rw [List.append_nil, if_neg hbody]
  · rw [List.getLast?_append, List.getLast?_singleton, Option.some_or, if_pos rfl, List.dropLast_concat]

/-- What a text is once a line break at its end is taken off, and the line break. -/
theorem exists_withoutBreak (text : List Char) : ∃ last, (last = [] ∨ last = ['\n']) ∧
    text = (if text.getLast? = some '\n' then text.dropLast else text) ++ last := by
  by_cases h : text.getLast? = some '\n'
  · rw [if_pos h]
    exact ⟨['\n'], .inr rfl, (List.dropLast_append_getLast? _ h).symm⟩
  · rw [if_neg h]
    exact ⟨[], .inl rfl, (List.append_nil _).symm⟩

/-- Whether a text is a negative number is found by taking off its sign, then a line break at its end, then digits as
far as they go. -/
theorem isNegativeNumber_iff {text : List Char} : isNegativeNumber text = true ↔ IsNegativeNumber text := by
  constructor
  · intro h
    unfold isNegativeNumber at h
    split at h
    · rename_i rest
      obtain ⟨last, hlast, hrest⟩ := exists_withoutBreak rest
      generalize (if rest.getLast? = some '\n' then rest.dropLast else rest) = body at h hrest
      have hparts := List.takeWhile_append_dropWhile (p := fun c => (Text.decimalValue? c).isSome) (l := body)
      have hwhole (c : Char) (hc : c ∈ body.takeWhile fun c => (Text.decimalValue? c).isSome) :
          (Text.decimalValue? c).isSome = true := List.mem_takeWhile_imp (p := fun c => (Text.decimalValue? c).isSome) hc
      refine ⟨_, _, last, by rw [hparts, hrest], hlast, hwhole, ?_⟩
      simp only at h
      split at h
      · rename_i hnone
        rw [hnone, List.append_nil] at hparts
        refine .inl ⟨hnone, ?_⟩
        rw [hparts]
        simpa using h
      · rename_i digits hdigits
        simp only [Bool.and_eq_true, Bool.not_eq_true', List.isEmpty_eq_false_iff, List.all_eq_true] at h
        exact .inr ⟨digits, hdigits, h.1, h.2⟩
      · nomatch h
    · nomatch h
  · rintro ⟨whole, fraction, last, rfl, hlast, hwhole, hfraction⟩
    have hends : (whole ++ fraction).getLast? ≠ some '\n' := by
      intro hbreak
      have hdigit : (Text.decimalValue? '\n').isSome = false := by decide
      rcases List.mem_append.mp (List.mem_of_getLast? hbreak) with hmem | hmem
      · exact absurd (hwhole _ hmem) (by simp [hdigit])
      · rcases hfraction with ⟨rfl, -⟩ | ⟨digits, rfl, -, hall⟩
        · nomatch hmem
        · rcases List.mem_cons.mp hmem with heq | hmem
          · exact absurd heq (by decide)
          · exact absurd (hall _ hmem) (by simp [hdigit])
    have hhead : ∀ c ∈ fraction.head?, (Text.decimalValue? c).isSome = false := by
      rintro c hc
      rcases hfraction with ⟨rfl, -⟩ | ⟨digits, rfl, -⟩
      · nomatch hc
      · obtain rfl := Option.some.inj hc
        decide
    simp only [isNegativeNumber, withoutBreak_eq hlast hends, dropWhile_decimals hwhole hhead]
    rcases hfraction with ⟨rfl, hne⟩ | ⟨digits, rfl, hne, hall⟩
    · simpa using hne
    · simpa [hne] using hall

theorem not_mem_longName (flag : Flag) : '=' ∉ flag.longName := by cases flag <;> decide

/-- Each character of a text without an equals sign is another one. -/
theorem bne_equals_of_not_mem {text : List Char} (h : '=' ∉ text) : ∀ c ∈ text, (c != '=') = true :=
  fun _ hc => bne_iff_ne.mpr (ne_of_mem_of_not_mem hc h)

/-- A text without an equals sign is not parted. -/
theorem splitAtEquals_of_not_mem {text : List Char} (h : '=' ∉ text) : splitAtEquals text = (text, none) := by
  have hdrop : text.dropWhile (· != '=') = [] := List.dropWhile_eq_nil_iff.mpr (bne_equals_of_not_mem h)
  rw [splitAtEquals, hdrop]

/-- A text is parted at its first equals sign. -/
theorem splitAtEquals_append {name : List Char} (h : '=' ∉ name) (value : List Char) :
    splitAtEquals (name ++ '=' :: value) = (name, some value) := by
  have hall := bne_equals_of_not_mem h
  simp [splitAtEquals, List.dropWhile_append_of_pos hall, List.takeWhile_append_of_pos hall]

/-- A text has no equals sign or a first one. -/
theorem splitAtEquals_cases (text : List Char) :
    splitAtEquals text = (text, none) ∨
      ∃ name value, text = name ++ '=' :: value ∧ splitAtEquals text = (name, some value) := by
  by_cases h : '=' ∈ text
  · obtain ⟨name, value, rfl, hname⟩ := List.eq_append_cons_of_mem h
    exact .inr ⟨name, value, rfl, splitAtEquals_append hname value⟩
  · exact .inl (splitAtEquals_of_not_mem h)

namespace Flag

variable {name : List Char} {flag : Flag}

/-- An option begins with a text if its name does. -/
theorem mem_startingWith : flag ∈ startingWith name ↔ name <+: flag.longName := by
  cases flag <;> simp [startingWith, longNames, longName, List.isPrefixOf_iff_prefix]

/-- The name of an option that is cut short is that of no other. -/
theorem startingWith_of_abbreviates (h : Abbreviates name flag) : startingWith name = [flag] := by
  obtain ⟨hlength, hprefix⟩ := h
  have hall : ∀ k < 10, 3 ≤ k → startingWith (flag.longName.take k) = [flag] := by cases flag <;> decide
  have hlong : flag.longName.length < 10 := by cases flag <;> decide
  have heq := hall name.length (Nat.lt_of_le_of_lt hprefix.length_le hlong) hlength
  rwa [← List.prefix_iff_eq_take.mp hprefix] at heq

/-- What only one option begins with is its name cut short. -/
theorem abbreviates_of_startingWith (h : startingWith name = [flag]) : Abbreviates name flag := by
  have hprefix : name <+: flag.longName := mem_startingWith.mp (by rw [h]; exact List.mem_singleton_self flag)
  refine ⟨?_, hprefix⟩
  by_contra hshort
  have hall : ∀ k < 3, (startingWith (flag.longName.take k)).length = 3 := by cases flag <;> decide
  have hthree := hall name.length (Nat.lt_of_not_le hshort)
  rw [← List.prefix_iff_eq_take.mp hprefix, h] at hthree
  simp at hthree

/-- The name of an option is its name cut short behind the last letter. -/
theorem abbreviates_of_lookup (h : longNames.lookup (String.ofList name) = some flag) : Abbreviates name flag := by
  obtain ⟨before, after, heq, -⟩ := List.lookup_eq_some_iff.mp h
  have hmem : (String.ofList name, flag) ∈ longNames := by
    rw [heq]
    exact List.mem_append_right _ List.mem_cons_self
  have hname : name = flag.longName := by
    have hall : ∀ p ∈ longNames, p.1.toList = p.2.longName := by decide
    simpa using hall _ hmem
  rw [hname]
  exact ⟨by cases flag <;> decide, List.prefix_refl _⟩

/-- What the name of an option begins with has two minus signs, if it is not too short. -/
theorem exists_of_prefix (hlength : 2 ≤ name.length) (h : name <+: flag.longName) :
    ∃ more, name = '-' :: '-' :: more := by
  obtain ⟨rest, hrest⟩ := h
  match name, hlength with
  | a :: b :: more, _ =>
    have hdashes : ∃ tail, flag.longName = '-' :: '-' :: tail := by cases flag <;> exact ⟨_, rfl⟩
    obtain ⟨tail, htail⟩ := hdashes
    simp only [htail, List.cons_append, List.cons.injEq] at hrest
    obtain ⟨rfl, rfl, -⟩ := hrest
    exact ⟨more, rfl⟩

end Flag

/-- An argument with a space in it and a number are operands if they do not begin like an option. -/
theorem otherWord_eq_positional_iff {text : List Char} {operand : String} :
    otherWord text = .positional operand ↔
      operand = String.ofList text ∧ (IsNegativeNumber text ∨ ' ' ∈ text) := by
  unfold otherWord
  split
  · rename_i h
    simp only [Bool.or_eq_true, isNegativeNumber_iff, List.contains_iff_mem] at h
    simp only [Word.positional.injEq, h, and_true, eq_comm]
  · rename_i h
    simp only [Bool.or_eq_true, isNegativeNumber_iff, List.contains_iff_mem] at h
    simp [h]

/-- What begins like an option has at least two characters. -/
theorem BeginsOption.exists {text : List Char} (h : BeginsOption text) :
    ∃ c rest, text = '-' :: c :: rest ∧ (c = '-' ∨ c = 'h') := by
  rcases h with ⟨rest, rfl⟩ | ⟨name, flag, hlength, hname, htext⟩
  · exact ⟨'h', rest, rfl, .inr rfl⟩
  · obtain ⟨more, rfl⟩ := Flag.exists_of_prefix hlength hname
    rcases htext with rfl | ⟨value, rfl⟩
    · exact ⟨'-', more, rfl, .inl rfl⟩
    · exact ⟨'-', more ++ '=' :: value, rfl, .inl rfl⟩

/-- Two minus signs alone begin like any option. -/
theorem beginsOption_dashes_alone : BeginsOption ['-', '-'] :=
  .inr ⟨['-', '-'], .help, Nat.le_refl 2, by decide, .inl rfl⟩

/-- What begins with two minus signs begins like an option if the part before an equals sign does. -/
theorem beginsOption_dashes {rest : List Char} :
    BeginsOption ('-' :: '-' :: rest) ↔ ∃ flag, flag ∈ Flag.startingWith (splitAtEquals ('-' :: '-' :: rest)).1 := by
  simp only [Flag.mem_startingWith]
  constructor
  · rintro (hh | ⟨name, flag, -, hname, htext⟩)
    · simp at hh
    · refine ⟨flag, ?_⟩
      have hfree : '=' ∉ name := fun hmem => not_mem_longName flag (hname.subset hmem)
      rcases htext with htext | ⟨value, htext⟩
      · rwa [htext, splitAtEquals_of_not_mem hfree]
      · rwa [htext, splitAtEquals_append hfree]
  · rintro ⟨flag, hname⟩
    rcases splitAtEquals_cases ('-' :: '-' :: rest) with hparts | ⟨name, value, htext, hparts⟩
    · rw [hparts] at hname
      exact .inr ⟨_, flag, by simp, hname, .inl rfl⟩
    · rw [hparts] at hname
      refine .inr ⟨name, flag, ?_, hname, .inr ⟨value, htext⟩⟩
      match name, htext with
      | [], htext => simp at htext
      | [c], htext => simp at htext
      | _ :: _ :: _, _ => simp

/-- What an argument is taken for, by how it begins. -/
inductive Classified (text : List Char) : Option Word → Prop
  | endOfOptions (h : text = ['-', '-']) : Classified text (some .endOfOptions)
  | long {flag : Flag} (h : Abbreviates (splitAtEquals text).1 flag) :
    Classified text (some (.long flag (splitAtEquals text).2))
  | ambiguous (h : ∀ flag, ¬Abbreviates (splitAtEquals text).1 flag) (hbegins : BeginsOption text) :
    Classified text none
  | help (h : ['-', 'h'] <+: text) : Classified text (some (.long .help none))
  | cluster (letters : List Char) (h : ['-', 'h'] <+: text) : Classified text (some (.cluster letters))
  | other (hminus : text.head? = some '-') (hlong : text ≠ ['-']) (hbegins : ¬BeginsOption text) :
    Classified text (some (otherWord text))
  | plain (hplain : text.head? = some '-' → text = ['-']) (hbegins : ¬BeginsOption text) :
    Classified text (some (.positional (String.ofList text)))

/-- Every argument is taken for something by how it begins. -/
theorem classified (text : List Char) : Classified text (classify? text) := by
  unfold classify?
  split
  · exact .endOfOptions rfl
  · rename_i rest _
    simp only
    split
    · rename_i flag hlookup
      exact .long (Flag.abbreviates_of_lookup hlookup)
    · split
      · rename_i flag hstart
        exact .long (Flag.abbreviates_of_startingWith hstart)
      · rename_i hstart
        exact .other rfl (by simp) (by simp [beginsOption_dashes, hstart])
      · rename_i hnone hsome
        refine .ambiguous (fun flag h => hnone flag (Flag.startingWith_of_abbreviates h)) ?_
        exact beginsOption_dashes.mpr (List.exists_mem_of_ne_nil _ hsome)
  · exact .help (List.prefix_refl _)
  · exact .cluster _ (List.prefix_append ['-', 'h'] _)
  · exact .cluster _ (List.prefix_append ['-', 'h'] _)
  · refine .plain (fun _ => rfl) fun h => ?_
    obtain ⟨c, rest, heq, -⟩ := h.exists
    simp at heq
  · rename_i hdash _ _ hh hlong
    refine .other rfl (by simpa using hlong) fun h => ?_
    obtain ⟨c, rest, heq, rfl | rfl⟩ := h.exists
    · exact hdash rest (List.cons.inj heq).2
    · exact hh rest (List.cons.inj heq).2
  · rename_i hminus
    refine .plain (fun h => ?_) fun h => ?_
    · obtain ⟨tail, rfl⟩ := List.head?_eq_some_iff.mp h
      exact absurd rfl (hminus tail)
    · obtain ⟨c, rest, rfl, -⟩ := h.exists
      exact absurd rfl (hminus (c :: rest))

/-- What an option is named by it begins like. -/
theorem beginsOption_of_abbreviates {text : List Char} {flag : Flag} (h : Abbreviates (splitAtEquals text).1 flag) :
    BeginsOption text := by
  rcases splitAtEquals_cases text with hparts | ⟨name, value, htext, hparts⟩
  · rw [hparts] at h
    exact .inr ⟨text, flag, Nat.le_of_succ_le h.1, h.2, .inl rfl⟩
  · rw [hparts] at h
    exact .inr ⟨name, flag, Nat.le_of_succ_le h.1, h.2, .inr ⟨value, htext⟩⟩

/-- The short option is not named like a long one. -/
theorem not_abbreviates_of_dash_h {text : List Char} {flag : Flag} (h : ['-', 'h'] <+: text) :
    ¬Abbreviates (splitAtEquals text).1 flag := by
  rintro ⟨hlength, hname⟩
  obtain ⟨more, hmore⟩ := Flag.exists_of_prefix (Nat.le_of_succ_le hlength) hname
  obtain ⟨rest, rfl⟩ := h
  rcases splitAtEquals_cases (['-', 'h'] ++ rest) with hparts | ⟨name, value, htext, hparts⟩
  · rw [hparts] at hmore
    simp at hmore
  · rw [hparts] at hmore
    simp only at hmore
    rw [hmore] at htext
    simp at htext

/-- An option is known by its name, and has what follows an equals sign for its value. -/
theorem Classified.of_abbreviates {text : List Char} {word : Option Word} {flag : Flag} (h : Classified text word)
    (hname : Abbreviates (splitAtEquals text).1 flag) : word = some (.long flag (splitAtEquals text).2) := by
  have hbegins := beginsOption_of_abbreviates hname
  cases h with
  | endOfOptions h =>
    subst h
    exact absurd hname.1 (by decide)
  | long h =>
    have hstart := Flag.startingWith_of_abbreviates h
    rw [Flag.startingWith_of_abbreviates hname, List.singleton_inj] at hstart
    rw [hstart]
  | ambiguous h => exact absurd hname (h flag)
  | help h | cluster _ h => exact absurd hname (not_abbreviates_of_dash_h h)
  | other _ _ h | plain _ h => exact absurd hbegins h

/-- Operands are what is taken for something to go by its position. -/
theorem Classified.eq_positional_iff {text : List Char} {word : Option Word} {operand : String}
    (h : Classified text word) : word = some (.positional operand) ↔ operand = String.ofList text ∧ IsOperand text := by
  unfold IsOperand
  cases h with
  | endOfOptions h =>
    simp [h, beginsOption_dashes_alone]
  | long h => simp [beginsOption_of_abbreviates h]
  | ambiguous _ hbegins => simp [hbegins]
  | help h | cluster _ h => simp [show BeginsOption text from .inl h]
  | other hminus hlong hbegins => simp [otherWord_eq_positional_iff, hminus, hlong, hbegins, or_comm]
  | plain hplain hbegins =>
    have hoperand : text.head? = some '-' → text = ['-'] ∨ ' ' ∈ text ∨ IsNegativeNumber text :=
      fun h => .inl (hplain h)
    constructor
    · intro heq
      exact ⟨(Word.positional.inj (Option.some.inj heq)).symm, hbegins, hoperand⟩
    · rintro ⟨rfl, -⟩
      rfl

/-- An operand by itself. -/
theorem classify?_of_isOperand {text : String} (h : IsOperand text.toList) :
    classify? text.toList = some (.positional text) :=
  (classified _).eq_positional_iff.mpr ⟨String.ofList_toList.symm, h⟩

/-- The name of an option, and the option with a value. -/
theorem classify?_of_name {name : List Char} {flag : Flag} (h : Abbreviates name flag) :
    classify? name = some (.long flag none) ∧ ∀ value, classify? (name ++ '=' :: value) = some (.long flag (some value)) := by
  have hfree : '=' ∉ name := fun hmem => not_mem_longName flag (h.2.subset hmem)
  have hlong (text : List Char) (value : Option (List Char)) (hparts : splitAtEquals text = (name, value)) :
      classify? text = some (.long flag value) := by
    have hname : Abbreviates (splitAtEquals text).1 flag := by rwa [hparts]
    rw [(classified text).of_abbreviates hname, hparts]
  exact ⟨hlong _ _ (splitAtEquals_of_not_mem hfree), fun value => hlong _ _ (splitAtEquals_append hfree value)⟩

/-- Words say operands and an indentation, or none. -/
inductive WordsSay : List Word → (operands : List String) → (indentation : Option (List Char)) → Prop
  | nil : WordsSay [] [] none
  | endOfOptions {words : List Word} {operands : List String} {indentation : Option (List Char)}
    (h : WordsSay words operands indentation) : WordsSay (.endOfOptions :: words) operands indentation
  | positional (text : String) {words : List Word} {operands : List String} {indentation : Option (List Char)}
    (h : WordsSay words operands indentation) : WordsSay (.positional text :: words) (text :: operands) indentation
  | verbose {words : List Word} {operands : List String} {indentation : Option (List Char)}
    (h : WordsSay words operands indentation) : WordsSay (.long .verbose none :: words) operands indentation
  | indent (value : String) {words : List Word} {operands : List String} {indentation : Option (List Char)}
    (h : WordsSay words operands indentation) :
    WordsSay (.long .indent none :: .positional value :: words) operands (indentation.or (some value.toList))
  | indentIs (value : List Char) {words : List Word} {operands : List String} {indentation : Option (List Char)}
    (h : WordsSay words operands indentation) :
    WordsSay (.long .indent (some value) :: words) operands (indentation.or (some value))

namespace WordsSay

variable {words : List Word} {operands others : List String} {indentation other : Option (List Char)}

/-- Words say one thing at most. -/
theorem unique (h : WordsSay words operands indentation) (h' : WordsSay words others other) :
    others = operands ∧ other = indentation := by
  induction h generalizing others other with
  | nil =>
    cases h'
    exact ⟨rfl, rfl⟩
  | endOfOptions _ ih =>
    cases h' with
    | endOfOptions h' => exact ih h'
  | positional _ _ ih =>
    cases h' with
    | positional _ h' =>
      obtain ⟨rfl, rfl⟩ := ih h'
      exact ⟨rfl, rfl⟩
  | verbose _ ih =>
    cases h' with
    | verbose h' => exact ih h'
  | indent _ _ ih =>
    cases h' with
    | indent _ h' =>
      obtain ⟨rfl, rfl⟩ := ih h'
      exact ⟨rfl, rfl⟩
  | indentIs _ _ ih =>
    cases h' with
    | indentIs _ h' =>
      obtain ⟨rfl, rfl⟩ := ih h'
      exact ⟨rfl, rfl⟩

/-- What goes by its position alone says itself. -/
theorem map_positional (texts : List String) : WordsSay (texts.map .positional) texts none := by
  induction texts with
  | nil => exact .nil
  | cons text rest ih => exact .positional text ih

end WordsSay

/-- What some arguments are, from what the first one is. -/
theorem classifyAll?_cons (text : String) (rest : List String) :
    classifyAll? (text :: rest) = (classify? text.toList).bind fun word =>
      if word = .endOfOptions then some (word :: rest.map .positional) else (classifyAll? rest).map (word :: ·) := by
  rw [classifyAll?]
  cases classify? text.toList with
  | none => rfl
  | some word => cases word <;> cases classifyAll? rest <;> simp

/-- Before the end of the options each argument is a word. -/
theorem classifyAll?_cons_of_ne {text : String} {rest : List String} {word : Word} {words : List Word}
    (hword : classify? text.toList = some word) (hne : word ≠ .endOfOptions) (hrest : classifyAll? rest = some words) :
    classifyAll? (text :: rest) = some (word :: words) := by
  rw [classifyAll?_cons, hword, Option.bind_some, if_neg hne, hrest, Option.map_some]

/-- What arguments say, the words say that they are taken for. -/
theorem Says.words {arguments operands : List String} {indentation : Option (List Char)}
    (h : Says arguments operands indentation) :
    ∃ words, classifyAll? arguments = some words ∧ WordsSay words operands indentation := by
  induction h with
  | nil => exact ⟨[], rfl, .nil⟩
  | endOfOptions rest =>
    refine ⟨_, ?_, .endOfOptions (.map_positional rest)⟩
    rw [classifyAll?_cons]
    rfl
  | operand h _ ih =>
    obtain ⟨words, hwords, hsay⟩ := ih
    exact ⟨_, classifyAll?_cons_of_ne (classify?_of_isOperand h) nofun hwords, .positional _ hsay⟩
  | verbose h _ ih =>
    obtain ⟨words, hwords, hsay⟩ := ih
    exact ⟨_, classifyAll?_cons_of_ne (classify?_of_name h).1 nofun hwords, .verbose hsay⟩
  | indent h hvalue _ ih =>
    obtain ⟨words, hwords, hsay⟩ := ih
    have hvalues := classifyAll?_cons_of_ne (classify?_of_isOperand hvalue) nofun hwords
    exact ⟨_, classifyAll?_cons_of_ne (classify?_of_name h).1 nofun hvalues, .indent _ hsay⟩
  | indentIs htext h _ ih =>
    obtain ⟨words, hwords, hsay⟩ := ih
    have hclass := (congrArg classify? htext).trans ((classify?_of_name h).2 _)
    exact ⟨_, classifyAll?_cons_of_ne hclass nofun hwords, .indentIs _ hsay⟩

/-- Arguments say one thing at most. -/
theorem Says.unique {arguments operands others : List String} {indentation other : Option (List Char)}
    (h : Says arguments operands indentation) (h' : Says arguments others other) :
    others = operands ∧ other = indentation := by
  obtain ⟨words, hwords, hsay⟩ := h.words
  obtain ⟨words', hwords', hsay'⟩ := h'.words
  obtain rfl := Option.some.inj (hwords.symm.trans hwords')
  exact hsay.unique hsay'

/-- An indentation is one number of spaces at most. -/
theorem Indents.unique {indentation : Option (List Char)} {indent other : Option Int} (h : Indents indentation indent)
    (h' : Indents indentation other) : other = indent := by
  cases indentation with
  | none => exact Eq.trans h' h.symm
  | some text =>
    obtain ⟨width, rfl, hwidth⟩ := h
    obtain ⟨width', rfl, hwidth'⟩ := h'
    rw [hwidth.unique hwidth']

/-- Arguments ask for one thing at most. -/
theorem Asks.unique {arguments : List String} {input output input' output' : String} {indent other : Option Int}
    (h : Asks arguments input output indent) (h' : Asks arguments input' output' other) :
    input' = input ∧ output' = output ∧ other = indent := by
  obtain ⟨indentation, hsays, hindents⟩ := h
  obtain ⟨indentation', hsays', hindents'⟩ := h'
  obtain ⟨hoperands, rfl⟩ := hsays.unique hsays'
  simp only [List.cons.injEq, and_true] at hoperands
  exact ⟨hoperands.1, hoperands.2, hindents.unique hindents'⟩

end SceneTree.CommandLine
