import SceneTree.Proofs.Markup.Numerals

/-!
# How far strings and numbers go

What is read as the inside of a string or as a number is written like one, and whatever is written like one is read, up
to where it goes on no further.
-/

namespace SceneTree.Markup
open Text (isDigit)

/-! ### Strings -/

/-- What may stand between two quotes: neither the quote nor a line break nor a backslash, but any character after a
backslash. -/
inductive IsInside (quote : Char) : List Char → Prop
  | nil : IsInside quote []
  | plain {c : Char} {rest : List Char} (hc : c ≠ quote ∧ c ≠ '\n' ∧ c ≠ '\\') (h : IsInside quote rest) :
    IsInside quote (c :: rest)
  | escaped {c : Char} {rest : List Char} (h : IsInside quote rest) : IsInside quote ('\\' :: c :: rest)

/-- What may stand after a quote that is not closed: up to the end, to a backslash at the end or to a line break. -/
def IsUnclosed (quote : Char) (text : List Char) : Prop :=
  ∃ inner rest, text = inner ++ rest ∧ IsInside quote inner ∧ (rest = [] ∨ rest = ['\\'] ∨ ∃ r, rest = '\n' :: r)

theorem stringBody?_of_isInside {quote : Char} (hslash : quote ≠ '\\') {inner : List Char} (h : IsInside quote inner)
    (rest : List Char) : stringBody? quote (inner ++ quote :: rest) = some inner := by
  induction h with
  | nil =>
    rw [List.nil_append, stringBody?.eq_def]
    simp
  | plain hc _ ih =>
    rw [List.cons_append, stringBody?.eq_def]
    simp [hc, ih]
  | escaped _ ih =>
    rw [List.cons_append, List.cons_append, stringBody?.eq_def]
    simp [hslash.symm, ih]

theorem isInside_of_stringBody? {quote : Char} {text inner : List Char} (h : stringBody? quote text = some inner) :
    IsInside quote inner ∧ ∃ rest, text = inner ++ quote :: rest := by
  fun_induction stringBody? quote text generalizing inner with
  | case1 => cases h
  | case2 rest =>
    cases h
    exact ⟨.nil, rest, rfl⟩
  | case3 => cases h
  | case4 => cases h
  | case5 d rest hquote hnewline ih =>
    obtain ⟨body, hbody, rfl⟩ := Option.map_eq_some_iff.mp h
    obtain ⟨hinside, rest', rfl⟩ := ih hbody
    exact ⟨.escaped hinside, rest', rfl⟩
  | case6 c rest hquote hnewline hslash ih =>
    obtain ⟨body, hbody, rfl⟩ := Option.map_eq_some_iff.mp h
    obtain ⟨hinside, rest', rfl⟩ := ih hbody
    exact ⟨.plain ⟨hquote, hnewline, hslash⟩ hinside, rest', rfl⟩

theorem isUnclosed_of_stringBody? {quote : Char} {text : List Char} (h : stringBody? quote text = none) :
    IsUnclosed quote text := by
  fun_induction stringBody? quote text with
  | case1 => exact ⟨[], [], rfl, .nil, .inl rfl⟩
  | case2 => cases h
  | case3 rest => exact ⟨[], _, rfl, .nil, .inr (.inr ⟨rest, rfl⟩)⟩
  | case4 => exact ⟨[], _, rfl, .nil, .inr (.inl rfl)⟩
  | case5 d rest hquote hnewline ih =>
    obtain ⟨inner, rest', rfl, hinside, hrest⟩ := ih (Option.map_eq_none_iff.mp h)
    exact ⟨_, rest', rfl, .escaped hinside, hrest⟩
  | case6 c rest hquote hnewline hslash ih =>
    obtain ⟨inner, rest', rfl, hinside, hrest⟩ := ih (Option.map_eq_none_iff.mp h)
    exact ⟨_, rest', rfl, .plain ⟨hquote, hnewline, hslash⟩ hinside, hrest⟩

/-! ### Numbers -/

/-- After a point, digits go on with digits. -/
theorem numberRun_true (text : List Char) : numberRun true text = text.takeWhile isDigit := by
  induction text with
  | nil => rfl
  | cons c rest ih =>
    rw [numberRun, List.takeWhile_cons, Bool.not_true, Bool.and_false, ih]
    rfl

/-- Digits go on with digits, and perhaps with a point and further digits. -/
theorem exists_numberRun_false (text : List Char) :
    ∃ whole fraction, numberRun false text = whole ++ Option.elim fraction [] ('.' :: ·) ∧
      (∀ c ∈ whole ++ fraction.getD [], isDigit c) ∧ (digitNext text → whole ≠ []) := by
  induction text with
  | nil => exact ⟨[], none, rfl, fun c hc => absurd hc List.not_mem_nil, fun h => absurd h (by simp [digitNext])⟩
  | cons c rest ih =>
    obtain ⟨whole, fraction, heq, hdigit, -⟩ := ih
    rw [numberRun]
    by_cases hc : isDigit c
    · refine ⟨c :: whole, fraction, by rw [if_pos hc, heq]; rfl, fun c' hc' => ?_, fun _ => List.cons_ne_nil _ _⟩
      rcases List.mem_cons.mp hc' with rfl | hc'
      · exact hc
      · exact hdigit c' hc'
    · rw [if_neg hc]
      by_cases hpoint : c = '.'
      · refine ⟨[], some (rest.takeWhile isDigit), ?_, fun c' hc' => List.mem_takeWhile_imp hc',
          fun hnext => absurd hnext hc⟩
        rw [hpoint, numberRun_true]
        rfl
      · exact ⟨[], none, by simp [hpoint], fun c hc => absurd hc List.not_mem_nil, fun hnext => absurd hnext hc⟩

theorem takeWhile_ne_nil_of_digitNext {text : List Char} (h : digitNext text) : text.takeWhile isDigit ≠ [] := by
  cases text with
  | nil => cases h
  | cons c rest =>
    rw [List.takeWhile_cons_of_pos (p := isDigit) h]
    exact List.cons_ne_nil _ _

/-- Where a number begins, what is read is written like one. -/
theorem exists_written {c : Char} {rest : List Char} (h : beginsNumber c rest) :
    ∃ negative whole fraction, Written (c :: numberRest c rest) negative whole fraction := by
  obtain ⟨whole, fraction, heq, hdigit, hnext⟩ := exists_numberRun_false rest
  have hfraction : ∀ text : List Char, digitNext text → ∀ c ∈ ([] : List Char) ++ text.takeWhile isDigit, isDigit c :=
    fun text _ c hc => List.mem_takeWhile_imp hc
  rw [beginsNumber.eq_def] at h
  simp only [Bool.or_eq_true, Bool.and_eq_true, decide_eq_true_eq] at h
  rcases h with (hc | ⟨rfl | rfl, hdigits⟩) | ⟨rfl, hdigits⟩
  · have hne : decide (c = '.') = false := by
      rw [decide_eq_false_iff_not]
      rintro rfl
      rw [isDigit_point] at hc
      cases hc
    refine ⟨false, c :: whole, fraction, ?_, fun c' hc' => ?_, List.cons_ne_nil _ _⟩
    · rw [numberRest, hne, heq]
      rfl
    · rcases List.mem_cons.mp hc' with rfl | hc'
      · exact hc
      · exact hdigit c' hc'
  · refine ⟨true, whole, fraction, ?_, hdigit, by simp [hnext hdigits]⟩
    rw [numberRest, show decide ('-' = '.') = false from rfl, heq]
    rfl
  · refine ⟨false, [], some (rest.takeWhile isDigit), ?_, hfraction rest hdigits, takeWhile_ne_nil_of_digitNext hdigits⟩
    rw [numberRest, show decide ('.' = '.') = true from rfl, numberRun_true]
    rfl
  · split at hdigits
    · next rest =>
      refine ⟨true, [], some (rest.takeWhile isDigit), ?_, hfraction rest hdigits,
        takeWhile_ne_nil_of_digitNext hdigits⟩
      rw [numberRest, show decide ('-' = '.') = false from rfl, numberRun, isDigit_point, numberRun_true]
      rfl
    · cases hdigits


/-- Digits with at most one point among them go on as far as they can. -/
theorem exists_numberRun (pointSeen : Bool) (text : List Char) :
    ∃ rest, text = numberRun pointSeen text ++ rest ∧
      ∀ c ∈ rest.head?, isDigit c = false ∧ (pointSeen = false → '.' ∉ numberRun pointSeen text → c ≠ '.') := by
  induction text generalizing pointSeen with
  | nil => exact ⟨[], rfl, nofun⟩
  | cons c text ih =>
    by_cases hc : isDigit c = true
    · obtain ⟨rest, heq, hrest⟩ := ih pointSeen
      rw [numberRun, if_pos hc]
      refine ⟨rest, by rw [List.cons_append, ← heq], fun d hd => ⟨(hrest d hd).1, fun hseen hpoint => ?_⟩⟩
      exact (hrest d hd).2 hseen fun hmem => hpoint (List.mem_cons_of_mem _ hmem)
    · by_cases hpoint : (decide (c = '.') && !pointSeen) = true
      · obtain ⟨rest, heq, hrest⟩ := ih true
        rw [numberRun, if_neg hc, if_pos hpoint]
        refine ⟨rest, by rw [List.cons_append, ← heq], fun d hd => ⟨(hrest d hd).1, fun _ hnone => ?_⟩⟩
        simp only [Bool.and_eq_true, decide_eq_true_eq] at hpoint
        exact absurd (hpoint.1 ▸ List.mem_cons_self) hnone
      · rw [numberRun, if_neg hc, if_neg hpoint]
        refine ⟨c :: text, rfl, fun d hd => ?_⟩
        obtain rfl : c = d := by simpa using hd
        refine ⟨by simpa using hc, fun hseen _ heq => hpoint ?_⟩
        simp [heq, hseen]

/-- Digits that nothing continues are read as they are. -/
theorem numberRun_digits {digits rest : List Char} (hdigits : ∀ c ∈ digits, isDigit c = true)
    (hrest : ∀ c ∈ rest.head?, isDigit c = false) : numberRun true (digits ++ rest) = digits := by
  rw [numberRun_true, List.takeWhile_append_of_pos hdigits]
  cases rest with
  | nil => simp
  | cons c rest =>
    have hc := hrest c rfl
    rw [List.takeWhile_cons_of_neg (by simp [hc]), List.append_nil]

/-- Digits and perhaps a point among them that nothing continues are read as they are. -/
theorem numberRun_written {whole rest : List Char} {fraction : Option (List Char)}
    (hdigits : ∀ c ∈ whole ++ fraction.getD [], isDigit c = true)
    (hrest : ∀ c ∈ rest.head?, isDigit c = false ∧ (fraction = none → c ≠ '.')) :
    numberRun false (whole ++ fraction.elim [] ('.' :: ·) ++ rest) = whole ++ fraction.elim [] ('.' :: ·) := by
  induction whole with
  | nil =>
    cases fraction with
    | none =>
      cases rest with
      | nil => rfl
      | cons c rest =>
        obtain ⟨hc, hpoint⟩ := hrest c rfl
        simp [numberRun, hc, hpoint rfl]
    | some digits =>
      have hrun : numberRun true (digits ++ rest) = digits :=
        numberRun_digits (by simpa using hdigits) fun c hc => (hrest c hc).1
      simp [numberRun, isDigit_point, hrun]
  | cons c whole ih =>
    rw [List.cons_append, List.cons_append, numberRun, if_pos (hdigits c (by simp)),
      ih fun c hc => hdigits c (List.mem_cons_of_mem _ hc)]

/-- A number without digits before its point has some after it. -/
theorem exists_eq_some_cons {fraction : Option (List Char)} (h : [] ++ fraction.getD [] ≠ []) :
    ∃ d digits, fraction = some (d :: digits) := by
  cases fraction with
  | none => exact absurd rfl h
  | some f =>
    cases f with
    | nil => exact absurd rfl h
    | cons d digits => exact ⟨d, digits, rfl⟩

theorem Written.text_ne_nil {text whole : List Char} {negative : Bool} {fraction : Option (List Char)}
    (h : Written text negative whole fraction) : text ≠ [] := by
  intro hnil
  have heq := h.eq_append
  rw [hnil, eq_comm, List.append_eq_nil_iff, List.append_eq_nil_iff] at heq
  obtain ⟨-, rfl, hfraction⟩ := heq
  obtain ⟨d, digits, rfl⟩ := exists_eq_some_cons h.ne_nil
  cases hfraction

/-- Where a number is written that nothing continues, it begins there and is read as it is written. -/
theorem Written.reads {c : Char} {body rest whole : List Char} {negative : Bool} {fraction : Option (List Char)}
    (h : Written (c :: body) negative whole fraction)
    (hrest : ∀ d ∈ rest.head?, isDigit d = false ∧ ('.' ∉ c :: body → d ≠ '.')) :
    beginsNumber c (body ++ rest) = true ∧ numberRest c (body ++ rest) = body := by
  have hstop : ∀ d ∈ rest.head?, isDigit d = false ∧ (fraction = none → d ≠ '.') := by
    intro d hd
    refine ⟨(hrest d hd).1, fun hnone => (hrest d hd).2 ?_⟩
    simp [h.mem_point_iff, hnone]
  obtain ⟨heq, hdigits, hne⟩ := h
  -- The number begins with its sign, with its first digit or, if no digit stands before it, with its point.
  cases negative with
  | true =>
    obtain ⟨rfl, rfl⟩ := List.cons.inj heq
    refine ⟨?_, numberRun_written hdigits hstop⟩
    cases whole with
    | cons d whole =>
      have hd := hdigits d (by simp)
      simp [beginsNumber, digitNext, hd]
    | nil =>
      obtain ⟨d, digits, rfl⟩ := exists_eq_some_cons hne
      have hd := hdigits d (by simp)
      simp [beginsNumber, digitNext, hd]
  | false =>
    cases whole with
    | cons d whole =>
      obtain ⟨rfl, rfl⟩ := List.cons.inj heq
      have hc := hdigits c (by simp)
      have hpoint : c ≠ '.' := by
        rintro rfl
        rw [isDigit_point] at hc
        cases hc
      rw [numberRest, decide_eq_false hpoint]
      exact ⟨by simp [beginsNumber, hc], numberRun_written (fun c hc => hdigits c (List.mem_cons_of_mem _ hc)) hstop⟩
    | nil =>
      obtain ⟨d, digits, rfl⟩ := exists_eq_some_cons hne
      obtain ⟨rfl, rfl⟩ := List.cons.inj heq
      have hd := hdigits d (by simp)
      exact ⟨by simp [beginsNumber, digitNext, hd], numberRun_digits hdigits fun c hc => (hstop c hc).1⟩

end SceneTree.Markup
