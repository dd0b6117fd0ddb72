import Mathlib.Data.List.DropRight
import SceneTree.Proofs.Attempt
import SceneTree.Proofs.Markup.Extents

/-!
# The parts of a text

A text that can be scanned falls into parts: blanks, comments and tokens. Each part goes on as far as it can, so what
stands at a place is settled by the text from there on. Scanning gives the tokens among the parts, and where it fails,
no part begins.
-/

namespace SceneTree.Markup
open Text (isDigit)

/-- Whether a text is a name: a character that names begin with, and further ones that they go on with. -/
def IsName : List Char → Prop
  | [] => False
  | c :: more => beginsName c = true ∧ ∀ d ∈ more, continuesName d = true

/-- What stands at a place where `part` is written before `rest`: the kind and the text of a token, or nothing where
the part is a blank or a comment. A part goes on as far as it can. -/
inductive Stands : (part rest : List Char) → Option (TokenKind × List Char) → Prop
  | gap {c : Char} {rest : List Char} (hc : isGap c = true) : Stands [c] rest none
  | comment {body rest : List Char} (hbody : '\n' ∉ body) (hrest : ∀ c ∈ rest.head?, c = '\n') :
    Stands ('#' :: body) rest none
  | newline {rest : List Char} : Stands ['\n'] rest (some (.newline, ['\n']))
  | string {quote : Char} {inner rest : List Char} (hquote : quote = '"' ∨ quote = '\'')
    (hinner : IsInside quote inner) : Stands (quote :: (inner ++ [quote])) rest (some (.string, unescape inner))
  | number {part rest whole : List Char} {negative : Bool} {fraction : Option (List Char)}
    (hwritten : Written part negative whole fraction)
    (hrest : ∀ c ∈ rest.head?, isDigit c = false ∧ ('.' ∉ part → c ≠ '.')) : Stands part rest (some (.number, part))
  | name {part rest : List Char} (hname : IsName part) (hrest : ∀ c ∈ rest.head?, continuesName c = false) :
    Stands part rest (some (if keywords.contains (String.ofList part) then .keyword else .name, part))
  | sign {rest : List Char} (sign : Sign) : Stands [sign.char] rest (some (.sign sign, [sign.char]))

theorem Stands.ne_nil {part rest : List Char} {found : Option (TokenKind × List Char)} (h : Stands part rest found) :
    part ≠ [] := by
  cases h with
  | number hwritten => exact hwritten.text_ne_nil
  | name hname =>
    rintro rfl
    exact hname
  | _ => exact List.cons_ne_nil _ _

/-- What stands at a place is found there. -/
theorem lexeme_of_stands {c : Char} {body rest : List Char} {found : Option (TokenKind × List Char)}
    (h : Stands (c :: body) rest found) : lexeme c (body ++ rest) = .ok (found, body.length) := by
  generalize hpart : c :: body = part at h
  cases h with
  | gap hc =>
    obtain ⟨rfl, rfl⟩ := List.cons.inj hpart
    simp [lexeme, hc]
  | comment hbody hrest =>
    obtain ⟨rfl, rfl⟩ := List.cons.inj hpart
    have htake : (body ++ rest).takeWhile (· != '\n') = body := by
      rw [List.takeWhile_append_of_pos fun d hd => by rw [bne_iff_ne]; rintro rfl; exact hbody hd]
      cases rest with
      | nil => simp
      | cons d rest => rw [hrest d rfl, List.takeWhile_cons_of_neg (by decide), List.append_nil]
    rw [lexeme, if_neg (by decide), if_neg (by decide), if_pos rfl, htake]
  | newline =>
    obtain ⟨rfl, rfl⟩ := List.cons.inj hpart
    rfl
  | @string quote inner rest hquote hinner =>
    obtain ⟨rfl, rfl⟩ := List.cons.inj hpart
    have hslash : c ≠ '\\' := by rcases hquote with rfl | rfl <;> decide
    have hbody := stringBody?_of_isInside hslash hinner rest
    have hgap : isGap c = false := by rcases hquote with rfl | rfl <;> decide
    have hne : c ≠ '\n' ∧ c ≠ '#' := by rcases hquote with rfl | rfl <;> decide
    rw [List.append_assoc, List.singleton_append]
    simp [lexeme, hgap, hne, hquote, hbody]
  | number hwritten hrest =>
    subst hpart
    obtain ⟨hbegins, hreads⟩ := hwritten.reads hrest
    have hplain : IsPlain c := .of_beginsNumber hbegins
    simp [lexeme, hplain.isGap, hplain.ne, hbegins, hreads]
  | name hname hrest =>
    subst hpart
    obtain ⟨hbegins, hmore⟩ := hname
    have hplain : IsPlain c := .of_begins (.inr hbegins)
    have htake : (body ++ rest).takeWhile continuesName = body := by
      rw [List.takeWhile_append_of_pos hmore]
      cases rest with
      | nil => simp
      | cons d rest => rw [List.takeWhile_cons_of_neg (by simp [hrest d rfl]), List.append_nil]
    have hnumber := beginsNumber_of_beginsName hbegins (body ++ rest)
    simp [lexeme, hplain.isGap, hplain.ne, hnumber, hbegins, htake]
  | sign sign =>
    obtain ⟨rfl, rfl⟩ := List.cons.inj hpart
    cases sign <;> rfl

theorem eq_false_of_mem_head?_dropWhile {p : Char → Bool} {text : List Char} {c : Char}
    (h : c ∈ (text.dropWhile p).head?) : p c = false := by
  have hnot := List.head?_dropWhile_not p text
  rwa [Option.mem_def.mp h] at hnot

/-- What is found at a place stands there. -/
theorem stands_of_lexeme {c : Char} {text : List Char} {found : Option (TokenKind × List Char)} {more : Nat}
    (h : lexeme c text = .ok (found, more)) :
    ∃ body rest, text = body ++ rest ∧ body.length = more ∧ Stands (c :: body) rest found := by
  rw [lexeme] at h
  split at h
  · next hgap =>
    cases h
    exact ⟨[], text, rfl, rfl, .gap hgap⟩
  split at h
  · next hnewline =>
    cases h
    subst hnewline
    exact ⟨[], text, rfl, rfl, .newline⟩
  split at h
  · next hcomment =>
    cases h
    subst hcomment
    refine ⟨_, _, List.takeWhile_append_dropWhile.symm, rfl, .comment (fun hmem => ?_) fun d hd => ?_⟩
    · simpa using List.mem_takeWhile_imp hmem
    · simpa using eq_false_of_mem_head?_dropWhile hd
  split at h
  · next hquote =>
    split at h
    · next inner hinner =>
      cases h
      obtain ⟨hinside, rest, rfl⟩ := isInside_of_stringBody? hinner
      exact ⟨inner ++ [c], rest, by simp, by simp, .string (by simpa using hquote) hinside⟩
    · cases h
  split at h
  · next hbegins =>
    cases h
    obtain ⟨negative, whole, fraction, hwritten⟩ := exists_written hbegins
    obtain ⟨rest, heq, hrest⟩ := exists_numberRun (c = '.') text
    refine ⟨_, rest, heq, rfl, .number hwritten fun d hd => ⟨(hrest d hd).1, fun hpoint => (hrest d hd).2 ?_ ?_⟩⟩
    · simpa using fun hc : c = '.' => hpoint (hc ▸ List.mem_cons_self)
    · exact fun hmem => hpoint (List.mem_cons_of_mem _ hmem)
  split at h
  · next hname =>
    cases h
    refine ⟨_, _, List.takeWhile_append_dropWhile.symm, rfl, .name ⟨hname, fun d hd => ?_⟩ fun d hd => ?_⟩
    · exact List.mem_takeWhile_imp hd
    · exact eq_false_of_mem_head?_dropWhile hd
  split at h
  · next sign hsign =>
    cases h
    rw [← Sign.char_of_ofChar? hsign]
    exact ⟨[], text, rfl, rfl, .sign sign⟩
  · cases h

/-- Where nothing is found no part stands; a string is not closed, or else it is not for want of its closing quote. -/
theorem of_lexeme_eq_error {c : Char} {text : List Char} {cause : ScanCause} (h : lexeme c text = .error cause) :
    (∀ part rest found, c :: text = part ++ rest → ¬ Stands part rest found) ∧
      (cause = .unclosedString ∧ (c = '"' ∨ c = '\'') ∧ IsUnclosed c text ∨
        cause = .unexpected c ∧ ¬ (c = '"' ∨ c = '\'')) := by
  constructor
  · intro part rest found heq hstands
    obtain ⟨d, body, rfl⟩ := List.exists_cons_of_ne_nil hstands.ne_nil
    obtain ⟨rfl, rfl⟩ : c = d ∧ text = body ++ rest := by simpa using heq
    rw [lexeme_of_stands hstands] at h
    cases h
  · rw [lexeme] at h
    split at h
    · cases h
    split at h
    · cases h
    split at h
    · cases h
    split at h
    · next hquote =>
      have hquote : c = '"' ∨ c = '\'' := by simpa using hquote
      split at h
      · cases h
      · next hnone =>
        cases h
        exact .inl ⟨rfl, hquote, isUnclosed_of_stringBody? hnone⟩
    next hquote =>
    split at h
    · cases h
    split at h
    · cases h
    split at h
    · cases h
    · cases h
      exact .inr ⟨rfl, by simpa using hquote⟩

/-- The place behind a text: one line more than the text has line breaks, and one column more than characters stand after
the last of them. -/
def Position.behind (text : List Char) : Position :=
  ⟨1 + text.count '\n', 1 + (text.rtakeWhile (· != '\n')).length⟩

theorem afterAll_behind (before text : List Char) :
    (Position.behind before).afterAll text = .behind (before ++ text) := by
  induction text generalizing before with
  | nil => simp
  | cons c text ih =>
    have hafter : (Position.behind before).after c = .behind (before ++ [c]) := by
      by_cases hc : c = '\n'
      · simp [Position.after, Position.behind, hc, Nat.add_assoc]
      · simp [Position.after, Position.behind, hc, Nat.add_assoc]
    rw [Position.afterAll_cons, hafter, ih, List.append_assoc, List.singleton_append]

/-- An interval of a text: the characters from one number up to another, counted from zero. -/
structure Interval where
  start : Nat
  stop : Nat
  deriving DecidableEq, Repr

instance : Membership Nat Interval := ⟨fun i k => i.start ≤ k ∧ k < i.stop⟩

/-- After `before` the text `text` falls into parts in front of `rest`. The tokens among the parts stand in the
intervals. -/
inductive Parts : (before text rest : List Char) → List (Token × Interval) → Prop
  | nil {before rest : List Char} : Parts before [] rest []
  | skip {before part text rest : List Char} {found : List (Token × Interval)}
    (hpart : Stands part (text ++ rest) none) (h : Parts (before ++ part) text rest found) :
    Parts before (part ++ text) rest found
  | token {before part text rest what : List Char} {kind : TokenKind} {found : List (Token × Interval)}
    (hpart : Stands part (text ++ rest) (some (kind, what))) (h : Parts (before ++ part) text rest found) :
    Parts before (part ++ text) rest
      ((⟨kind, String.ofList what, .behind before⟩, ⟨before.length, before.length + part.length⟩) :: found)

theorem Position.start_eq_behind : Position.start = .behind [] := rfl

/-- Parts of a text and then those of what follows it. -/
theorem Parts.append {before text text' rest : List Char} {found found' : List (Token × Interval)}
    (h : Parts before text (text' ++ rest) found) (h' : Parts (before ++ text) text' rest found') :
    Parts before (text ++ text') rest (found ++ found') := by
  generalize hrest : text' ++ rest = rest' at h
  induction h with
  | nil => simpa using h'
  | skip hpart _ ih =>
    subst hrest
    rw [List.append_assoc]
    refine .skip (by rwa [List.append_assoc]) (ih (by rwa [List.append_assoc]) rfl)
  | token hpart _ ih =>
    subst hrest
    rw [List.append_assoc, List.cons_append]
    refine .token (by rwa [List.append_assoc]) (ih (by rwa [List.append_assoc]) rfl)

/-! ### Scanning -/

/-- The tokens among the parts of a text are scanned. -/
theorem Parts.scanFrom_eq_ok {before text : List Char} {found : List (Token × Interval)}
    (h : Parts before text [] found) :
    scanFrom (.behind before) text = .ok (found.map (·.1) ++ [⟨.ending, "", .behind (before ++ text)⟩]) := by
  generalize hrest : ([] : List Char) = rest at h
  induction h with
  | nil =>
    rw [scanFrom, List.append_nil]
    rfl
  | @skip before part text rest found hpart _ ih =>
    subst hrest
    obtain ⟨c, body, rfl⟩ := List.exists_cons_of_ne_nil hpart.ne_nil
    rw [List.append_nil] at hpart
    rw [List.cons_append, scanFrom, lexeme_of_stands hpart]
    simp only [List.take_left, List.drop_left, afterAll_behind, ih rfl]
    rw [List.append_assoc]
    rfl
  | @token before part text rest what kind found hpart _ ih =>
    subst hrest
    obtain ⟨c, body, rfl⟩ := List.exists_cons_of_ne_nil hpart.ne_nil
    rw [List.append_nil] at hpart
    rw [List.cons_append, scanFrom, lexeme_of_stands hpart]
    simp only [List.take_left, List.drop_left, afterAll_behind, ih rfl]
    rw [List.append_assoc]
    rfl

/-- What is scanned from a text are the tokens among its parts. -/
theorem exists_parts_of_scanFrom_eq_ok {before text : List Char} {tokens : List Token}
    (h : scanFrom (.behind before) text = .ok tokens) :
    ∃ found, Parts before text [] found ∧
      tokens = found.map (·.1) ++ [⟨.ending, "", .behind (before ++ text)⟩] := by
  generalize hposition : Position.behind before = position at h
  fun_induction scanFrom position text generalizing before tokens with
  | case1 position =>
    cases h
    subst hposition
    exact ⟨[], .nil, by simp⟩
  | case2 => cases h
  | case3 position c text found more hfound ih =>
    subst hposition
    obtain ⟨tokens, htokens, h⟩ := Outcome.bind_eq_ok_iff.mp h
    obtain ⟨body, rest, rfl, rfl, hstands⟩ := stands_of_lexeme hfound
    rw [List.take_left, List.drop_left, afterAll_behind] at ih htokens
    obtain ⟨parts, hparts, rfl⟩ := ih rfl htokens
    rw [← List.append_nil rest] at hstands
    rw [List.append_assoc] at h
    match found with
    | none =>
      cases h
      exact ⟨parts, .skip hstands hparts, rfl⟩
    | some (kind, what) =>
      cases h
      exact ⟨_ :: parts, .token hstands hparts, rfl⟩

/-- Where scanning fails, the text falls into parts up to a place where none is found. -/
theorem exists_parts_of_scanFrom_eq_error {before text : List Char} {fault : ScanFault}
    (h : scanFrom (.behind before) text = .error fault) :
    ∃ done c rest found, text = done ++ c :: rest ∧ Parts before done (c :: rest) found ∧
      lexeme c rest = .error fault.cause ∧ fault.position = .behind (before ++ done) := by
  generalize hposition : Position.behind before = position at h
  fun_induction scanFrom position text generalizing before with
  | case1 => cases h
  | case2 position c rest cause hcause =>
    cases h
    exact ⟨[], c, rest, [], rfl, .nil, hcause, by rw [List.append_nil, hposition]⟩
  | case3 position c text found more hfound ih =>
    subst hposition
    obtain ⟨body, rest, rfl, rfl, hstands⟩ := stands_of_lexeme hfound
    rw [List.take_left, List.drop_left, afterAll_behind] at ih h
    rcases Outcome.bind_eq_error_iff.mp h with h | ⟨_, -, h⟩
    · obtain ⟨done, d, rest, parts, rfl, hparts, hcause, hplace⟩ := ih rfl h
      rw [List.append_assoc] at hplace
      match found with
      | none =>
        exact ⟨c :: body ++ done, d, rest, parts, by simp, .skip hstands hparts, hcause, hplace⟩
      | some (kind, what) =>
        exact ⟨c :: body ++ done, d, rest, _ :: parts, by simp, .token hstands hparts, hcause, hplace⟩
    · match found with
      | none => cases h
      | some _ => cases h

end SceneTree.Markup
