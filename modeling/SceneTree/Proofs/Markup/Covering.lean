import SceneTree.Proofs.Markup.Parts

/-!
# Tokens cover a text

The tokens that a text is scanned into stand in intervals of it, one after another. What stands outside the intervals are
blanks and comments, and every token knows the place where its interval begins. Where scanning fails, this holds of the
text in front of the place that the fault names, and there begins nothing that a text is made of.
-/

namespace SceneTree.Markup

/-- What stands in an interval of a text. -/
def Interval.of (i : Interval) (whole : List Char) : List Char := (whole.take i.stop).drop i.start

/-- Whether the `k`-th character of a text belongs to a comment. A comment begins at a `#`, from the `lo`-th character
on, that none of the intervals holds, and goes on up to the next line break or to the end. -/
def InComment (whole : List Char) (lo : Nat) (taken : List Interval) (k : Nat) : Prop :=
  ∃ h, lo ≤ h ∧ h ≤ k ∧ whole[h]? = some '#' ∧ (∀ i ∈ taken, h ∉ i) ∧ ∀ j, h ≤ j → j ≤ k → ∃ c ∈ whole[j]?, c ≠ '\n'

/-- Tokens and their intervals cover a region of a text. -/
structure Covers (whole : List Char) (region : Interval) (found : List (Token × Interval)) : Prop where
  ordered : found.Pairwise fun p q => p.2.stop ≤ q.2.start
  within : ∀ p ∈ found, region.start ≤ p.2.start ∧ p.2.start < p.2.stop ∧ p.2.stop ≤ region.stop
  /-- A token knows the place where its interval begins. -/
  position : ∀ p ∈ found, p.1.position = .behind (whole.take p.2.start)
  stands : ∀ p ∈ found, Stands (p.2.of whole) (whole.drop p.2.stop) (some (p.1.kind, p.1.text.toList))
  /-- What is no string is written as it is. -/
  spelled : ∀ p ∈ found, p.1.kind ≠ .string → p.1.text.toList = p.2.of whole
  /-- A string is written between a quote and the next one that no backslash stands before. -/
  quoted : ∀ p ∈ found, p.1.kind = .string → ∃ quote inner, (quote = '"' ∨ quote = '\'') ∧ IsInside quote inner ∧
    p.2.of whole = quote :: (inner ++ [quote]) ∧ p.1.text.toList = unescape inner
  /-- What belongs to no token is a blank or belongs to a comment. -/
  skipped : ∀ k ∈ region, (∀ p ∈ found, k ∉ p.2) →
    (∃ c ∈ whole[k]?, isGap c = true) ∨ InComment whole region.start (found.map (·.2)) k
  /-- Comments end where the region does, and belong to no token. -/
  commented : ∀ k ≤ region.stop, InComment whole region.start (found.map (·.2)) k →
    k < region.stop ∧ ∀ p ∈ found, k ∉ p.2

/-! ### Characters of a part -/

section
variable {before part rest : List Char}

theorem getElem?_part {k : Nat} (hle : before.length ≤ k) (hlt : k < (before ++ part).length) :
    (before ++ part ++ rest)[k]? = part[k - before.length]? := by
  rw [List.getElem?_append_left hlt, List.getElem?_append_right hle]

theorem getElem?_behind : (before ++ part ++ rest)[(before ++ part).length]? = rest.head? := by
  rw [List.getElem?_append_right (Nat.le_refl _), Nat.sub_self, ← List.head?_eq_getElem?]

theorem of_part : Interval.of ⟨before.length, (before ++ part).length⟩ (before ++ part ++ rest) = part := by
  rw [Interval.of, List.take_left, List.drop_left]

end

/-- What leaves no token is a blank, or a comment up to a line break or the end. -/
theorem Stands.of_none {part rest : List Char} (h : Stands part rest none) :
    (∃ c, part = [c] ∧ isGap c = true) ∨
      part.head? = some '#' ∧ '\n' ∉ part ∧ ∀ c ∈ rest.head?, c = '\n' := by
  cases h with
  | gap hc => exact .inl ⟨_, rfl, hc⟩
  | comment hbody hrest =>
    refine .inr ⟨rfl, fun hmem => ?_, hrest⟩
    rcases List.mem_cons.mp hmem with heq | hmem
    · exact absurd heq (by decide)
    · exact hbody hmem

/-- What leaves a token that is no string is its text. -/
theorem Stands.eq_text {part rest text : List Char} {kind : TokenKind} (h : Stands part rest (some (kind, text)))
    (hkind : kind ≠ .string) : text = part := by
  cases h with
  | string => exact absurd rfl hkind
  | _ => rfl

/-- What leaves a string stands between two quotes. -/
theorem Stands.exists_quote {part rest text : List Char} {kind : TokenKind}
    (h : Stands part rest (some (kind, text))) (hkind : kind = .string) :
    ∃ quote inner, (quote = '"' ∨ quote = '\'') ∧ IsInside quote inner ∧ part = quote :: (inner ++ [quote]) ∧
      text = unescape inner := by
  cases h with
  | string hquote hinner => exact ⟨_, _, hquote, hinner, rfl, rfl⟩
  | name =>
    split at hkind <;> cases hkind
  | _ => cases hkind

/-! ### From part to part -/

theorem Covers.nil {before rest : List Char} (hrest : rest.head? ≠ some '#') :
    Covers (before ++ rest) ⟨before.length, before.length⟩ [] where
  ordered := .nil
  within := nofun
  position := nofun
  stands := nofun
  spelled := nofun
  quoted := nofun
  skipped k hk := by
    have : before.length ≤ k ∧ k < before.length := hk
    omega
  commented k hle := by
    rintro ⟨h, hlo, hk, hhash, -⟩
    obtain rfl : h = before.length := by
      have : k ≤ before.length := hle
      have : before.length ≤ h := hlo
      omega
    rw [List.getElem?_append_right (Nat.le_refl _), Nat.sub_self, ← List.head?_eq_getElem?] at hhash
    exact absurd hhash hrest

/-- A blank or a comment in front of a region leaves it covered. -/
theorem Covers.skip {before part rest : List Char} {hi : Nat} {found : List (Token × Interval)}
    (hpart : Stands part rest none) (hhi : (before ++ part).length ≤ hi)
    (h : Covers (before ++ part ++ rest) ⟨(before ++ part).length, hi⟩ found) :
    Covers (before ++ part ++ rest) ⟨before.length, hi⟩ found := by
  have hlen : before.length ≤ (before ++ part).length := by simp
  have hlater : ∀ p ∈ found, (before ++ part).length ≤ p.2.start := fun p hp => (h.within p hp).1
  -- No interval holds a character of the part.
  have houtside : ∀ k < (before ++ part).length, ∀ p ∈ found, k ∉ p.2 := by
    intro k hk p hp hmem
    have hstart : p.2.start ≤ k := hmem.1
    have := hlater p hp
    omega
  refine ⟨h.ordered, fun p hp => ?_, h.position, h.stands, h.spelled, h.quoted, fun k hk hnone => ?_,
    fun k hk hcomment => ?_⟩
  · obtain ⟨hstart, hrest⟩ := h.within p hp
    exact ⟨Nat.le_trans hlen hstart, hrest⟩
  · by_cases hpartial : (before ++ part).length ≤ k
    · rcases h.skipped k ⟨hpartial, hk.2⟩ hnone with hgap | ⟨start, hlo, hmore⟩
      · exact .inl hgap
      · exact .inr ⟨start, Nat.le_trans hlen hlo, hmore⟩
    · have hle : before.length ≤ k := hk.1
      have hlt : k < (before ++ part).length := by omega
      rcases hpart.of_none with ⟨c, rfl, hc⟩ | ⟨hhead, hbreak, -⟩
      · have hzero : k - before.length = 0 := by
          rw [List.length_append, List.length_singleton] at hlt
          omega
        refine .inl ⟨c, ?_, hc⟩
        rw [getElem?_part hle hlt, hzero]
        rfl
      · refine .inr ⟨before.length, Nat.le_refl _, hle, ?_, ?_, fun j hj hjk => ?_⟩
        · rw [getElem?_part (Nat.le_refl _) (by omega), Nat.sub_self, ← List.head?_eq_getElem?, hhead]
        · intro i hi
          obtain ⟨p, hp, rfl⟩ := List.mem_map.mp hi
          exact houtside _ (by omega) p hp
        · have hj' : j - before.length < part.length := by
            rw [List.length_append] at hlt
            omega
          rw [getElem?_part hj (by omega), List.getElem?_eq_getElem hj']
          refine ⟨_, rfl, fun heq => hbreak ?_⟩
          rw [← heq]
          exact List.getElem_mem hj'
  · obtain ⟨start, hlo, hstart, hhash, hfree, hline⟩ := hcomment
    by_cases hpartial : (before ++ part).length ≤ start
    · exact h.commented k hk ⟨start, hpartial, hstart, hhash, hfree, hline⟩
    · have hstartlt : start < (before ++ part).length := by omega
      have hlt : k < (before ++ part).length := by
        by_contra hge
        obtain ⟨c, hc, hne⟩ := hline (before ++ part).length (by omega) (by omega)
        rw [getElem?_behind] at hc
        rw [getElem?_part hlo hstartlt] at hhash
        rcases hpart.of_none with ⟨d, rfl, hd⟩ | ⟨-, -, hrest⟩
        · obtain rfl : '#' = d := by simpa using List.mem_of_getElem? hhash
          cases hd
        · exact hne (hrest c hc)
      exact ⟨Nat.lt_of_lt_of_le hlt hhi, houtside k hlt⟩

/-- A token in front of a region covers its own interval. -/
theorem Covers.token {before part rest what : List Char} {kind : TokenKind} {hi : Nat}
    {found : List (Token × Interval)} (hpart : Stands part rest (some (kind, what)))
    (hhi : (before ++ part).length ≤ hi)
    (h : Covers (before ++ part ++ rest) ⟨(before ++ part).length, hi⟩ found) :
    Covers (before ++ part ++ rest) ⟨before.length, hi⟩
      ((⟨kind, String.ofList what, .behind before⟩, ⟨before.length, (before ++ part).length⟩) :: found) := by
  have hlen : before.length < (before ++ part).length := by
    have := List.length_pos_iff.mpr hpart.ne_nil
    rw [List.length_append]
    omega
  refine ⟨?_, ?_, ?_, ?_, ?_, ?_, fun k hk hnone => ?_, fun k hk hcomment => ?_⟩
  · exact List.pairwise_cons.mpr ⟨fun p hp => (h.within p hp).1, h.ordered⟩
  · refine List.forall_mem_cons.mpr ⟨⟨Nat.le_refl _, hlen, hhi⟩, fun p hp => ?_⟩
    obtain ⟨hstart, hrest⟩ := h.within p hp
    exact ⟨Nat.le_trans (Nat.le_of_lt hlen) hstart, hrest⟩
  · refine List.forall_mem_cons.mpr ⟨?_, h.position⟩
    rw [List.append_assoc, List.take_left]
  · refine List.forall_mem_cons.mpr ⟨?_, h.stands⟩
    rw [of_part, List.drop_left, String.toList_ofList]
    exact hpart
  · refine List.forall_mem_cons.mpr ⟨fun hkind => ?_, h.spelled⟩
    rw [of_part, String.toList_ofList]
    exact hpart.eq_text hkind
  · refine List.forall_mem_cons.mpr ⟨fun hkind => ?_, h.quoted⟩
    rw [of_part, String.toList_ofList]
    exact hpart.exists_quote hkind
  · obtain ⟨hown, hnone⟩ := List.forall_mem_cons.mp hnone
    have hle : (before ++ part).length ≤ k := Nat.le_of_not_lt fun hlt => hown ⟨hk.1, hlt⟩
    rcases h.skipped k ⟨hle, hk.2⟩ hnone with hgap | ⟨start, hlo, hstart, hhash, hfree, hline⟩
    · exact .inl hgap
    · refine .inr ⟨start, Nat.le_trans (Nat.le_of_lt hlen) hlo, hstart, hhash, ?_, hline⟩
      refine List.forall_mem_cons.mpr ⟨fun hmem => ?_, hfree⟩
      exact absurd hmem.2 (Nat.not_lt.mpr hlo)
  · obtain ⟨start, hlo, hstart, hhash, hfree, hline⟩ := hcomment
    obtain ⟨hown, hfree⟩ := List.forall_mem_cons.mp hfree
    have hle : (before ++ part).length ≤ start := Nat.le_of_not_lt fun hlt => hown ⟨hlo, hlt⟩
    obtain ⟨hlt, houtside⟩ := h.commented k hk ⟨start, hle, hstart, hhash, hfree, hline⟩
    refine ⟨hlt, List.forall_mem_cons.mpr ⟨fun hmem => ?_, houtside⟩⟩
    have hkl : k < (before ++ part).length := hmem.2
    omega

/-- The tokens among the parts of a text cover it, if no comment begins behind it. -/
theorem Parts.covers {before text rest : List Char} {found : List (Token × Interval)}
    (h : Parts before text rest found) (hrest : rest.head? ≠ some '#') :
    Covers (before ++ text ++ rest) ⟨before.length, (before ++ text).length⟩ found := by
  induction h with
  | nil =>
    rw [List.append_nil]
    exact .nil hrest
  | @skip before part text rest found hpart _ ih =>
    have hcovers := ih hrest
    rw [List.append_assoc (before ++ part)] at hcovers
    rw [← List.append_assoc, List.append_assoc (before ++ part)]
    exact hcovers.skip hpart (by simp)
  | @token before part text rest what kind found hpart _ ih =>
    have hcovers := ih hrest
    rw [List.append_assoc (before ++ part)] at hcovers
    rw [← List.append_assoc, List.append_assoc (before ++ part), ← List.length_append]
    exact hcovers.token hpart (by simp)

/-! ### Scanning -/

/-- A scan stops at the `k`-th character of a text. -/
structure StopsAt (whole : List Char) (k : Nat) (fault : ScanFault) : Prop where
  /-- What stands before the character is covered by tokens. -/
  covers : ∃ found, Covers whole ⟨0, k⟩ found
  /-- No part begins at the character. -/
  nothing : ∀ part rest found, whole.drop k = part ++ rest → ¬ Stands part rest found
  /-- The character is the quote of a string that is not closed, or it is no quote at all. -/
  cause : ∃ c rest, whole.drop k = c :: rest ∧
    (fault.cause = .unclosedString ∧ (c = '"' ∨ c = '\'') ∧ IsUnclosed c rest ∨
      fault.cause = .unexpected c ∧ ¬ (c = '"' ∨ c = '\''))
  /-- The fault is about the place of the character. -/
  position : fault.position = .behind (whole.take k)
  /-- The wording of the fault ends with the line and the column. -/
  message : ∃ reason, fault.message =
    reason ++ " at line " ++ toString fault.position.line ++ ", column " ++ toString fault.position.column ++ "."

theorem ScanFault.exists_message_eq (fault : ScanFault) : ∃ reason, fault.message =
    reason ++ " at line " ++ toString fault.position.line ++ ", column " ++ toString fault.position.column ++ "." := by
  have hjoin : ∀ reason : String, reason ++ " at " ++ fault.position.toText ++ "." =
      reason ++ " at line " ++ toString fault.position.line ++ ", column " ++ toString fault.position.column ++ "." := by
    intro reason
    have hat : " at " ++ "line " = " at line " := rfl
    rw [Position.toText, ← hat]
    simp only [String.append_assoc]
  rw [message]
  split
  · exact ⟨_, hjoin _⟩
  · have hat : "Unterminated string literal at " = "Unterminated string literal" ++ " at " := rfl
    exact ⟨_, hat ▸ hjoin _⟩

theorem covers_of_scan_eq_ok {text : String} {tokens : List Token} (h : scan text = .ok tokens) :
    ∃ found, tokens = found.map (·.1) ++ [⟨.ending, "", .behind text.toList⟩] ∧
      Covers text.toList ⟨0, text.toList.length⟩ found := by
  rw [scan, Position.start_eq_behind] at h
  obtain ⟨found, hparts, rfl⟩ := exists_parts_of_scanFrom_eq_ok h
  have hcovers := hparts.covers nofun
  rw [List.append_nil] at hcovers
  exact ⟨found, rfl, hcovers⟩

theorem stopsAt_of_scan_eq_error {text : String} {fault : ScanFault} (h : scan text = .error fault) :
    ∃ k, StopsAt text.toList k fault := by
  rw [scan, Position.start_eq_behind] at h
  obtain ⟨done, c, rest, found, heq, hparts, hcause, hposition⟩ := exists_parts_of_scanFrom_eq_error h
  obtain ⟨hnothing, hreason⟩ := of_lexeme_eq_error hcause
  have hdrop : text.toList.drop done.length = c :: rest := by rw [heq, List.drop_left]
  -- A comment would have begun at a `#`.
  have hrest : (c :: rest).head? ≠ some '#' := by
    intro hhead
    obtain rfl : c = '#' := by simpa using hhead
    cases hcause
  have hcovers := hparts.covers hrest
  rw [List.nil_append, ← heq] at hcovers
  refine ⟨done.length, ⟨found, hcovers⟩, fun part rest' what hsplit => ?_, ⟨c, rest, hdrop, hreason⟩, ?_,
    fault.exists_message_eq⟩
  · rw [hdrop] at hsplit
    exact hnothing part rest' what hsplit
  · rw [hposition, heq, List.take_left, List.nil_append]

/-- If a text is scanned, its tokens but for the ending cover it, and the ending stands behind it. Otherwise the scan
stops at a character of the text, and the fault names the place of the character. -/
theorem scan_covers (text : String) :
    match scan text with
    | .ok tokens => ∃ found, tokens = found.map (·.1) ++ [⟨.ending, "", .behind text.toList⟩] ∧
        Covers text.toList ⟨0, text.toList.length⟩ found
    | .error fault => ∃ k, StopsAt text.toList k fault := by
  cases h : scan text with
  | ok tokens => exact covers_of_scan_eq_ok h
  | error fault => exact stopsAt_of_scan_eq_error h

end SceneTree.Markup
