import SceneTree.Proofs.Markup.Lexemes

/-!
# What is written is read back

A token may be written in many ways, and any blanks may stand between two tokens, and a comment in front of a line
break. Whatever the layout, the tokens that are scanned are those that were written.
-/

namespace SceneTree.Markup

/-! ### Tokens as they are written -/

/-- How a token of a kind with a text may be written. -/
inductive Renders : TokenKind → (text written : List Char) → Prop
  | newline : Renders .newline ['\n'] ['\n']
  | name {text : List Char} (hname : IsName text) (hkeyword : String.ofList text ∉ keywords) : Renders .name text text
  | keyword {text : List Char} (hkeyword : String.ofList text ∈ keywords) : Renders .keyword text text
  | number {text whole : List Char} {negative : Bool} {fraction : Option (List Char)}
    (hwritten : Written text negative whole fraction) : Renders .number text text
  | string {quote : Char} {text body : List Char} (hquote : quote = '"' ∨ quote = '\'')
    (hbody : Escapes quote text body) : Renders .string text (quote :: (body ++ [quote]))
  | sign (sign : Sign) : Renders (.sign sign) [sign.char] [sign.char]

theorem isName_of_mem_keywords {text : List Char} (h : String.ofList text ∈ keywords) : IsName text := by
  have hword : ∀ word ∈ keywords, isWord word.toList = true := by decide +kernel
  have := hword _ h
  rw [String.toList_ofList] at this
  exact isName_of_isWord this

theorem Renders.eq_of_newline {text written : List Char} (h : Renders .newline text written) : written = ['\n'] := by
  cases h
  rfl

/-- A written token stands where it is written, if a blank, a comment or nothing comes behind it. -/
theorem Renders.stands {kind : TokenKind} {text written rest : List Char} (h : Renders kind text written)
    (hrest : Apart rest) : Stands written rest (some (kind, text)) := by
  cases h with
  | newline => exact .newline
  | name hname hkeyword =>
    have hstands := Stands.name hname fun c hc => (hrest c hc).1
    rwa [if_neg (by simpa using hkeyword)] at hstands
  | keyword hkeyword =>
    have hstands := Stands.name (isName_of_mem_keywords hkeyword) fun c hc => (hrest c hc).1
    rwa [if_pos (by simpa using hkeyword)] at hstands
  | number hwritten => exact .number hwritten fun c hc => ⟨(hrest c hc).2.1, fun _ => (hrest c hc).2.2⟩
  | string hquote hbody => exact hbody.stands hquote rest
  | sign sign => exact .sign sign

/-! ### Layouts -/

/-- What stands in front of a token or of the end: blanks, and then perhaps a comment. -/
structure Gap where
  blanks : List Char
  comment : Option (List Char)
  isGap_of_mem : ∀ c ∈ blanks, isGap c = true
  not_mem_comment : ∀ body ∈ comment, '\n' ∉ body

/-- A gap as it is written. -/
def Gap.written (g : Gap) : List Char := g.blanks ++ g.comment.elim [] ('#' :: ·)

/-- A token as it is written behind a gap. A comment may only stand in front of a line break. -/
structure Placed where
  gap : Gap
  kind : TokenKind
  text : String
  written : List Char
  renders : Renders kind text.toList written
  kind_of_comment : gap.comment.isSome → kind = .newline

/-- A text of tokens in their places and a gap behind them. -/
def laidOut (placed : List Placed) (last : Gap) : List Char :=
  placed.flatMap (fun p => p.gap.written ++ p.written) ++ last.written

theorem Gap.of_mem_head? {g : Gap} {c : Char} (h : c ∈ g.written.head?) : isGap c = true ∨ c = '#' := by
  obtain ⟨blanks, comment, hgap, hcomment⟩ := g
  cases blanks with
  | nil =>
    cases comment with
    | none => cases h
    | some body =>
      cases h
      exact .inr rfl
  | cons d blanks =>
    cases h
    exact .inl (hgap _ List.mem_cons_self)

/-- Neither a name nor a number goes on with a blank or a comment. -/
theorem apart_of_gap {text : List Char} (h : ∀ c ∈ text.head?, isGap c = true ∨ c = '#') : Apart text := by
  intro c hc
  rcases h c hc with hgap | rfl
  · simp only [isGap, Bool.or_eq_true, decide_eq_true_eq] at hgap
    rcases hgap with ((rfl | rfl) | rfl) | rfl
    · decide +kernel
    · decide
    · decide
    · decide
  · decide

/-- Tokens with gaps between them begin, behind another token, with a gap. -/
theorem apart_laidOut {placed : List Placed} {last : Gap} (h : ∀ p ∈ placed, p.gap.written ≠ []) :
    Apart (laidOut placed last) := by
  refine apart_of_gap fun c hc => ?_
  cases placed with
  | nil => exact last.of_mem_head? hc
  | cons p placed =>
    obtain ⟨d, more, hmore⟩ := List.exists_cons_of_ne_nil (h p List.mem_cons_self)
    have hd : d ∈ p.gap.written.head? := by rw [hmore]; rfl
    have heq : d = c := by simpa [laidOut, hmore] using hc
    exact heq ▸ p.gap.of_mem_head? hd

theorem parts_of_blanks {blanks : List Char} (h : ∀ c ∈ blanks, isGap c = true) (before rest : List Char) :
    Parts before blanks rest [] := by
  induction blanks generalizing before with
  | nil => exact .nil
  | cons c blanks ih =>
    have hparts : Parts before ([c] ++ blanks) rest [] :=
      .skip (.gap (h c List.mem_cons_self)) (ih (fun d hd => h d (List.mem_cons_of_mem _ hd)) _)
    exact hparts

/-- A gap has no tokens among its parts. -/
theorem Gap.parts (g : Gap) (before : List Char) {rest : List Char}
    (hrest : g.comment.isSome → ∀ c ∈ rest.head?, c = '\n') : Parts before g.written rest [] := by
  obtain ⟨blanks, comment, hgap, hcomment⟩ := g
  rw [written]
  cases comment with
  | none =>
    rw [Option.elim_none, List.append_nil]
    exact parts_of_blanks hgap before rest
  | some body =>
    have hpart : Parts (before ++ blanks) ('#' :: body ++ []) rest [] :=
      .skip (.comment (hcomment body rfl) (hrest rfl)) .nil
    rw [List.append_nil] at hpart
    exact (parts_of_blanks hgap before _).append hpart

/-- Tokens in their places are the tokens among the parts of the text. -/
theorem exists_parts_laidOut {placed : List Placed} (last : Gap) (h : ∀ p ∈ placed.tail, p.gap.written ≠ [])
    (before : List Char) :
    ∃ found, Parts before (laidOut placed last) [] found ∧
      found.map (fun p => (p.1.kind, p.1.text)) = placed.map fun p => (p.kind, p.text) := by
  induction placed generalizing before with
  | nil => exact ⟨[], last.parts before nofun, rfl⟩
  | cons p placed ih =>
    obtain ⟨found, hparts, heq⟩ := ih (fun q hq => h q (List.mem_of_mem_tail hq)) (before ++ p.gap.written ++ p.written)
    have hstands : Stands p.written (laidOut placed last ++ []) (some (p.kind, p.text.toList)) := by
      rw [List.append_nil]
      exact p.renders.stands (apart_laidOut h)
    -- A comment ends at the line break that the token is.
    have hgap : Parts before p.gap.written (p.written ++ laidOut placed last ++ []) [] := by
      refine p.gap.parts before fun hcomment c hc => ?_
      have hrenders := p.renders
      rw [p.kind_of_comment hcomment] at hrenders
      rw [hrenders.eq_of_newline] at hc
      simpa using hc.symm
    have hall := hgap.append (.token hstands hparts)
    have hassoc : p.gap.written ++ (p.written ++ laidOut placed last) = laidOut (p :: placed) last := by
      simp only [laidOut, List.flatMap_cons, List.append_assoc]
    rw [hassoc] at hall
    refine ⟨_, hall, ?_⟩
    rw [List.nil_append, List.map_cons, List.map_cons, heq, String.ofList_toList]

/-- The tokens of a text are those that were written, if between any two of them stands a blank or a comment. Any text
can be written as a string, with a backslash in front of every quote, backslash and line break. -/
theorem scan_laidOut (placed : List Placed) (last : Gap) (h : ∀ p ∈ placed.tail, p.gap.written ≠ []) :
    (∃ tokens, scan (String.ofList (laidOut placed last)) = .ok tokens ∧
      tokens.map (fun t => (t.kind, t.text)) = placed.map (fun p => (p.kind, p.text)) ++ [(.ending, "")]) ∧
    ∀ quote, quote = '"' ∨ quote = '\'' → ∀ text,
      Renders .string text (quote :: (text.flatMap (escapeFor quote) ++ [quote])) := by
  refine ⟨?_, fun quote hquote text => .string hquote (escapes_flatMap_escapeFor hquote text)⟩
  obtain ⟨found, hparts, heq⟩ := exists_parts_laidOut last h []
  refine ⟨_, by rw [scan, String.toList_ofList, Position.start_eq_behind, hparts.scanFrom_eq_ok], ?_⟩
  rw [List.map_append, List.map_map, ← heq]
  rfl

/-- An assignment with a comment behind it, and a line with a number and a text of two lines between single quotes. -/
def assignment : List Placed :=
  [⟨⟨[], none, nofun, nofun⟩, .name, "x", ['x'], .name ⟨by decide +kernel, nofun⟩ (by decide), nofun⟩,
    ⟨⟨[' '], none, by simp [isGap], nofun⟩, .sign .equals, "=", ['='], .sign .equals, nofun⟩,
    ⟨⟨['\t', ' '], none, by simp [isGap], nofun⟩, .string, "a#b", ['"', 'a', '#', 'b', '"'],
      @Renders.string '"' _ ['a', '#', 'b'] (.inl rfl) (escapes_flatMap_escapeFor (.inl rfl) _), nofun⟩,
    ⟨⟨[' '], some ['!', '"'], by simp [isGap], by simp⟩, .newline, "\n", ['\n'], .newline, fun _ => rfl⟩,
    ⟨⟨['\ufeff'], none, by simp [isGap], nofun⟩, .number, "-.5", ['-', '.', '5'],
      @Renders.number _ [] true (some ['5']) ⟨rfl, by simp; decide +kernel, by decide⟩, nofun⟩,
    ⟨⟨['\r'], none, by simp [isGap], nofun⟩, .string, "it's\n\\",
      ['\'', 'i', 't', '\\', '\'', 's', '\\', 'n', '\\', '\\', '\''],
      @Renders.string '\'' _ ['i', 't', '\\', '\'', 's', '\\', 'n', '\\', '\\'] (.inr rfl)
        (escapes_flatMap_escapeFor (.inr rfl) _), nofun⟩]

theorem scan_laidOut_assignment :
    (∀ p ∈ assignment.tail, p.gap.written ≠ []) ∧
      ∃ tokens, scan "x =\t \"a#b\" #!\"\n\ufeff-.5\r'it\\'s\\n\\\\'" = .ok tokens ∧
        tokens.map (fun t => (t.kind, t.text)) =
          [(.name, "x"), (.sign .equals, "="), (.string, "a#b"), (.newline, "\n"), (.number, "-.5"),
            (.string, "it's\n\\"), (.ending, "")] := by
  have hseparate : ∀ p ∈ assignment.tail, p.gap.written ≠ [] := by simp [assignment, Gap.written]
  have hscan := (scan_laidOut assignment ⟨[], none, nofun, nofun⟩ hseparate).1
  refine ⟨hseparate, ?_⟩
  simpa [assignment, laidOut, Gap.written] using hscan

end SceneTree.Markup
