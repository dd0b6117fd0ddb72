import SceneTree.Proofs.Markup.Acceptance
import SceneTree.Proofs.Node.Build

/-!
# How reading fails

Most faults of reading have a wording and a place in the text. Three have none: that the tokens stop without an ending,
which never happens, and two that come from numbers. A number whose digits are no decimal ones, or too many, is a token
all the same and denotes nothing; and an integer beyond every floating-point number can be neither halved nor taken for
a font size.
-/

namespace SceneTree.Markup

/-- Whether a fault of the grammar has a wording and a place. -/
def GrammarFault.isOwn : GrammarFault → Bool
  | .tooLarge | .unreadableNumber | .exhausted => false
  | _ => true

/-- Whether a fault of reading has a wording and a place. -/
def MarkupFault.isOwn : MarkupFault → Bool
  | .scan _ => true
  | .grammar fault => fault.isOwn

/-- A fault that a number among some tokens explains. -/
inductive Trips (tokens : List Token) : GrammarFault → Prop where
  | unreadable {t : Token} (ht : t ∈ tokens) (hk : t.kind = .number) (hv : ∀ v, numberValue t.text ≠ .ok v) :
      Trips tokens .unreadableNumber
  | oversized {t : Token} {n : Int} (ht : t ∈ tokens) (hk : t.kind = .number) (hv : numberValue t.text = .ok (.int n))
      (hn : Oversized n) : Trips tokens .tooLarge

/-- A fault that is worded, or that a number among some tokens explains. -/
def Accounted (tokens : List Token) (fault : GrammarFault) : Prop := fault.isOwn = true ∨ Trips tokens fault

theorem Trips.mono {tokens tokens' : List Token} {fault : GrammarFault} (h : Trips tokens fault)
    (hsub : tokens ⊆ tokens') : Trips tokens' fault := by
  cases h with
  | unreadable ht hk hv => exact .unreadable (hsub ht) hk hv
  | oversized ht hk hv hn => exact .oversized (hsub ht) hk hv hn

theorem Accounted.mono {tokens tokens' : List Token} {fault : GrammarFault} (h : Accounted tokens fault)
    (hsub : tokens ⊆ tokens') : Accounted tokens' fault := h.imp_right fun ht => ht.mono hsub

/-- A number without a value cannot be read. -/
theorem unreadable_of_numberValue {text : String} {fault : GrammarFault} (h : numberValue text = .error fault) :
    fault = .unreadableNumber ∧ ∀ v, numberValue text ≠ .ok v := by
  refine ⟨?_, fun v hv => by rw [h] at hv; cases hv⟩
  rw [numberValue] at h
  split at h
  all_goals
    split at h
    · cases h
    · cases h
      rfl

/-! ### The ending is never passed -/

/-- An ending stands at the end. -/
def Finished (tokens : List Token) : Prop := ∃ e ∈ tokens.getLast?, e.kind = .ending

/-- Some tokens do not stop with an ending. -/
def Unfinished (ts : List Token) : Prop := ∀ t ∈ ts.getLast?, t.kind ≠ .ending

theorem not_finished_nil : ¬ Finished [] := fun ⟨_, h, _⟩ => nomatch h

/-- What follows tokens without an ending has one. -/
theorem Finished.of_append {ts left : List Token} (h : Finished (ts ++ left)) (hts : Unfinished ts) :
    Finished left := by
  obtain ⟨e, he, hk⟩ := h
  rw [List.getLast?_append] at he
  cases hl : left.getLast? with
  | none =>
    rw [hl, Option.none_or] at he
    exact absurd hk (hts e he)
  | some last =>
    rw [hl, Option.some_or] at he
    exact ⟨e, hl ▸ he, hk⟩

theorem unfinished_singleton {t : Token} (h : t.kind ≠ .ending) : Unfinished [t] := by
  intro t' ht'
  rw [List.getLast?_singleton, Option.mem_some_iff] at ht'
  exact ht' ▸ h

theorem Unfinished.append {ts ts' : List Token} (h : Unfinished ts) (h' : Unfinished ts') : Unfinished (ts ++ ts') := by
  intro t ht
  rw [List.getLast?_append] at ht
  cases hl : ts'.getLast? with
  | none =>
    rw [hl, Option.none_or] at ht
    exact h t ht
  | some last =>
    rw [hl, Option.some_or] at ht
    exact h' t (hl ▸ ht)

theorem Unfinished.cons {t : Token} {ts : List Token} (ht : t.kind ≠ .ending) (h : Unfinished ts) :
    Unfinished (t :: ts) :=
  (unfinished_singleton ht).append h

theorem unfinished_of_forall {ts : List Token} (h : ∀ t ∈ ts, t.kind ≠ .ending) : Unfinished ts :=
  fun t ht => h t (List.mem_of_getLast? ht)

/-- What stands between two signs does not stop with an ending. -/
theorem unfinished_enclosed {o c : Token} (ns ts : List Token) (hc : c.kind ≠ .ending) :
    Unfinished (o :: (ns ++ (ts ++ [c]))) := by
  intro t ht
  have hlast : (o :: (ns ++ (ts ++ [c]))).getLast? = some c := by
    rw [← List.append_assoc, ← List.cons_append]
    exact List.getLast?_concat
  rw [hlast, Option.mem_some_iff] at ht
  exact ht ▸ hc

theorem Finished.tail {t : Token} {rest : List Token} (h : Finished (t :: rest)) (ht : t.kind ≠ .ending) :
    Finished rest :=
  h.of_append (unfinished_singleton ht)

theorem Finished.afterNewlines {tokens : List Token} (h : Finished tokens) : Finished (afterNewlines tokens) := by
  obtain ⟨ns, hn, heq⟩ := exists_newlines tokens
  rw [heq] at h
  exact h.of_append (unfinished_of_forall fun t ht => by rw [hn t ht]; nofun)

theorem afterNewlines_subset (tokens : List Token) : afterNewlines tokens ⊆ tokens :=
  (List.dropWhile_sublist _).subset

theorem IsValue.unfinished {ts : List Token} {v : Value} (h : IsValue ts v) : Unfinished ts := by
  cases h with
  | string hk | keyword hk => exact unfinished_singleton (by rw [hk]; nofun)
  | number hk _ => exact unfinished_singleton (by rw [hk]; nofun)
  | list _ _ _ hc | map _ _ _ hc => exact unfinished_enclosed _ _ (by rw [hc]; nofun)

/-- An integer is written as a number. -/
theorem IsValue.number_of_int {ts : List Token} {n : Int} (h : IsValue ts (.int n)) :
    ∃ t, ts = [t] ∧ t.kind = .number ∧ numberValue t.text = .ok (.int n) := by
  generalize hv : Value.int n = v at h
  cases h with
  | number hk hvalue => exact ⟨_, rfl, hk, hv ▸ hvalue⟩
  | @keyword t _ =>
    rw [keywordValue] at hv
    split at hv
    · cases hv
    · split at hv <;> cases hv
  | _ => cases hv

theorem IsAttributes.unfinished {kind : Kind} {ts : List Token} {given : List (Field × Value)}
    (h : IsAttributes kind ts given) : Unfinished ts := by
  induction h with
  | none => exact fun _ ht => nomatch ht
  | bare hk _ _ _ ih => exact ih.cons (by rw [hk]; nofun)
  | valued hk _ _ he hv _ ih => exact ((hv.unfinished.append ih).cons (by rw [he]; nofun)).cons (by rw [hk]; nofun)

theorem IsHeader.unfinished {ts : List Token} {node : Node} (h : IsHeader ts node) : Unfinished ts := by
  obtain ⟨hk, _, ha, _, _⟩ := h
  exact ha.unfinished.cons (by rw [hk]; nofun)

theorem IsNode.unfinished {ts : List Token} {tree : Tree Unit} (h : IsNode ts tree) : Unfinished ts := by
  cases h with
  | bare hh => exact hh.unfinished
  | block hh hb =>
    obtain ⟨_, _, _, hc⟩ := hb
    exact hh.unfinished.append (unfinished_enclosed _ _ (by rw [hc]; nofun))

theorem IsItem.unfinished {ts : List Token} {tree : Tree Unit} (h : IsItem ts tree) : Unfinished ts := by
  cases h with
  | node hn => exact hn.unfinished
  | value hv => exact hv.unfinished

/-! ### Numbers on nodes -/

/-- An integer that is given on a node was written as a number. -/
theorem IsAttributes.exists_number {kind : Kind} {ts : List Token} {given : List (Field × Value)}
    (h : IsAttributes kind ts given) {field : Field} {n : Int} (hn : (field, .int n) ∈ given) :
    ∃ t ∈ ts, t.kind = .number ∧ numberValue t.text = .ok (.int n) := by
  induction h with
  | none => exact absurd hn List.not_mem_nil
  | bare hk hf hh hr ih =>
    obtain ⟨t, ht, h⟩ := ih (by simpa using hn)
    exact ⟨t, List.mem_cons_of_mem _ ht, h⟩
  | @valued t e ts rest field' v given hk hf hh he hv hr ih =>
    rcases List.mem_cons.mp hn with heq | hn
    · obtain ⟨rfl, rfl⟩ := Prod.mk.inj heq
      obtain ⟨t', rfl, h⟩ := hv.number_of_int
      exact ⟨t', by simp, h⟩
    · obtain ⟨t', ht', h⟩ := ih hn
      exact ⟨t', by simp [ht'], h⟩

mutual

/-- A value fails with a fault of its own, or because of a number. -/
theorem accounted_of_parseValue (tokens : List Token) (hf : Finished tokens) {fault : GrammarFault}
    (h : plain (parseValue tokens) = .error fault) : Accounted tokens fault := by
  match tokens with
  | [] => exact absurd hf not_finished_nil
  | t :: rest =>
    rw [plain_parseValue] at h
    match hk : t.kind with
    | .string | .keyword =>
      rw [hk] at h
      cases h
    | .number =>
      rw [hk] at h
      rcases Outcome.bind_eq_error_iff.mp h with h | ⟨v, -, h⟩
      · obtain ⟨rfl, hv⟩ := unreadable_of_numberValue h
        exact .inr (.unreadable List.mem_cons_self hk hv)
      · cases h
    | .sign .openBracket =>
      rw [hk] at h
      rcases Outcome.bind_eq_error_iff.mp h with h | ⟨_, -, h⟩
      · have hlt : (afterNewlines rest).length < (t :: rest).length :=
          Nat.lt_succ_of_le (length_afterNewlines_le rest)
        have hrest := (hf.tail (by rw [hk]; nofun)).afterNewlines
        exact (accounted_of_parseItems (afterNewlines rest) hrest h).mono
          (List.Subset.trans (afterNewlines_subset rest) (List.subset_cons_self t rest))
      · cases h
    | .sign .openBrace =>
      rw [hk] at h
      rcases Outcome.bind_eq_error_iff.mp h with h | ⟨_, -, h⟩
      · have hlt : (afterNewlines rest).length < (t :: rest).length :=
          Nat.lt_succ_of_le (length_afterNewlines_le rest)
        have hrest := (hf.tail (by rw [hk]; nofun)).afterNewlines
        exact (accounted_of_parsePairs (afterNewlines rest) hrest h).mono
          (List.Subset.trans (afterNewlines_subset rest) (List.subset_cons_self t rest))
      · cases h
    | .newline | .name | .ending | .sign .closeBrace | .sign .closeBracket | .sign .comma | .sign .equals
    | .sign .colon =>
      rw [hk] at h
      cases h
      exact .inl rfl
termination_by (tokens.length, 0)

/-- The items of a list fail with a fault of their own, or because of a number. -/
theorem accounted_of_parseItems (tokens : List Token) (hf : Finished tokens) {fault : GrammarFault}
    (h : plain (parseItems tokens) = .error fault) : Accounted tokens fault := by
  match tokens with
  | [] => exact absurd hf not_finished_nil
  | t :: rest =>
    rw [plain_parseItems] at h
    split at h
    · cases h
    · rcases Outcome.bind_eq_error_iff.mp h with h | ⟨⟨v, left⟩, hv, h⟩
      · exact accounted_of_parseValue (t :: rest) hf h
      · obtain ⟨ts, hts, hvalue⟩ := isValue_of_parseValue (t :: rest) hv
        have hleft := ((hts ▸ hf).of_append hvalue.unfinished).afterNewlines
        obtain ⟨ns, hn, hnl⟩ := exists_newlines left
        match hl : afterNewlines left with
        | [] => exact absurd (hl ▸ hleft) not_finished_nil
        | t' :: rest' =>
          simp only [hl] at h hleft hnl
          split at h
          · next hc =>
            rcases Outcome.bind_eq_error_iff.mp h with h | ⟨_, -, h⟩
            · have hlt : (afterNewlines rest').length < (t :: rest).length := length_afterNewlines_lt hts hnl
              refine (accounted_of_parseItems (afterNewlines rest') (hleft.tail (by rw [hc]; nofun)).afterNewlines
                h).mono (List.Subset.trans (afterNewlines_subset rest') ?_)
              intro x hx
              rw [hts, hnl]
              simp [hx]
            · cases h
          · split at h <;> cases h
            exact .inl rfl
termination_by (tokens.length, 1)

/-- The entries of a map fail with a fault of their own, or because of a number. -/
theorem accounted_of_parsePairs (tokens : List Token) (hf : Finished tokens) {fault : GrammarFault}
    (h : plain (parsePairs tokens) = .error fault) : Accounted tokens fault := by
  match tokens with
  | [] => exact absurd hf not_finished_nil
  | t :: rest =>
    rw [plain_parsePairs] at h
    split at h
    · cases h
    · split at h
      case isFalse =>
        cases h
        exact .inl rfl
      case isTrue hk =>
        have hrest := hf.tail (by rcases hk with hk | hk <;> rw [hk] <;> nofun)
        cases rest with
        | nil => exact absurd hrest not_finished_nil
        | cons c rest =>
          simp only at h
          split at h
          case isFalse =>
            cases h
            exact .inl rfl
          case isTrue hcolon =>
            have hrest := hrest.tail (by rw [hcolon]; nofun)
            have hshort : rest.length < (t :: c :: rest).length := by
              simp only [List.length_cons]
              omega
            rcases Outcome.bind_eq_error_iff.mp h with h | ⟨⟨v, left⟩, hv, h⟩
            · exact (accounted_of_parseValue rest hrest h).mono (by simp)
            · obtain ⟨ts, hts, hvalue⟩ := isValue_of_parseValue rest hv
              have hleft := ((hts ▸ hrest).of_append hvalue.unfinished).afterNewlines
              obtain ⟨ns, hn, hnl⟩ := exists_newlines left
              match hl : afterNewlines left with
              | [] => exact absurd (hl ▸ hleft) not_finished_nil
              | t' :: rest' =>
                simp only [hl] at h hleft hnl
                split at h
                · next hc =>
                  rcases Outcome.bind_eq_error_iff.mp h with h | ⟨_, -, h⟩
                  · have hlt : (afterNewlines rest').length < (t :: c :: rest).length :=
                      (length_afterNewlines_lt hts hnl).trans hshort
                    refine (accounted_of_parsePairs (afterNewlines rest')
                      (hleft.tail (by rw [hc]; nofun)).afterNewlines h).mono
                        (List.Subset.trans (afterNewlines_subset rest') ?_)
                    intro x hx
                    rw [hts, hnl]
                    simp [hx]
                  · cases h
                · split at h <;> cases h
                  exact .inl rfl
termination_by (tokens.length, 1)

end

/-- The attributes of a node fail with a fault of their own, or because of a number. -/
theorem accounted_of_parseAttributes (word : String) (kind : Kind) (given : List (Field × Value)) (tokens : List Token)
    (hf : Finished tokens) {fault : GrammarFault}
    (h : plain (parseAttributes word kind given tokens) = .error fault) : Accounted tokens fault := by
  match tokens with
  | [] => exact absurd hf not_finished_nil
  | t :: rest =>
    rw [plain_parseAttributes] at h
    split at h
    case isFalse => cases h
    case isTrue hk =>
      have hrest := hf.tail (by rw [hk]; nofun)
      cases hfield : (attributeField? t.text).filter kind.hasField with
      | none =>
        simp only [hfield] at h
        cases h
        exact .inl rfl
      | some field =>
        simp only [hfield] at h
        split at h
        case isTrue =>
          cases h
          exact .inl rfl
        case isFalse =>
          cases rest with
          | nil => exact absurd hrest not_finished_nil
          | cons e rest =>
            simp only at h
            split at h
            case isTrue he =>
              have hrest := hrest.tail (by rw [he]; nofun)
              rcases Outcome.bind_eq_error_iff.mp h with h | ⟨⟨v, left⟩, hv, h⟩
              · exact (accounted_of_parseValue rest hrest h).mono (by simp)
              · obtain ⟨ts, hts, hvalue⟩ := isValue_of_parseValue rest hv
                have hlt : left.length < (t :: e :: rest).length := by
                  simp only [hts, List.length_cons, List.length_append]
                  omega
                refine (accounted_of_parseAttributes word kind _ left ((hts ▸ hrest).of_append hvalue.unfinished)
                  h).mono ?_
                intro x hx
                rw [hts]
                simp [hx]
            case isFalse =>
              have hlt : (e :: rest).length < (t :: e :: rest).length := Nat.lt_succ_self _
              exact (accounted_of_parseAttributes word kind _ (e :: rest) hrest h).mono (List.subset_cons_self t _)
termination_by tokens.length

/-- A node is not made of what was written on it because of a fault of its own, or because of a number. -/
theorem accounted_of_buildAt {word : Token} {kind : Kind} {ts : List Token} {given : List (Field × Value)}
    (ha : IsAttributes kind ts given) {fault : GrammarFault} (h : buildAt word kind given = .error fault) :
    Accounted ts fault := by
  rw [buildAt] at h
  split at h
  · cases h
  · next hbuild =>
    cases h
    obtain ⟨field, n, hgiven, hn⟩ := Node.int_of_build hbuild
    obtain ⟨t, ht, hk, hv⟩ := ha.exists_number hgiven
    exact .inr (.oversized ht hk hv hn)
  · cases h
    exact .inl rfl

mutual

/-- A node fails with a fault of its own, or because of a number. -/
theorem accounted_of_parseNode (tokens : List Token) (hf : Finished tokens) {fault : GrammarFault}
    (h : plain (parseNode tokens) = .error fault) : Accounted tokens fault := by
  match tokens with
  | [] => exact absurd hf not_finished_nil
  | t :: rest =>
    rw [plain_parseNode] at h
    split at h
    case isFalse =>
      cases h
      exact .inl rfl
    case isTrue hk =>
      have hrest := hf.tail (by rw [hk]; nofun)
      cases hw : Kind.ofWord? (String.ofList (Text.lower t.text.toList)) with
      | none =>
        simp only [hw] at h
        cases h
        exact .inl rfl
      | some kind =>
        simp only [hw] at h
        rcases Outcome.bind_eq_error_iff.mp h with h | ⟨⟨given, left⟩, hgiven, h⟩
        · exact (accounted_of_parseAttributes t.text kind [] rest hrest h).mono (List.subset_cons_self t rest)
        · obtain ⟨ts, more, hts, heq, hmore, -⟩ := isAttributes_of_parseAttributes t.text kind [] rest hgiven
          obtain rfl : given = more := heq
          have hleft := (hts ▸ hrest).of_append hmore.unfinished
          have hbuilt {fault : GrammarFault} (h : buildAt t kind given = .error fault) :
              Accounted (t :: rest) fault :=
            (accounted_of_buildAt hmore h).mono (by rw [hts]; simp)
          cases left with
          | nil => exact absurd hleft not_finished_nil
          | cons b left =>
            simp only at h
            split at h
            case isTrue hb =>
              rcases Outcome.bind_eq_error_iff.mp h with h | ⟨_, -, h⟩
              · have hlt : left.length < (t :: rest).length := by
                  simp only [hts, List.length_cons, List.length_append]
                  omega
                refine (accounted_of_parseBody t.text left (hleft.tail (by rw [hb]; nofun)) h).mono ?_
                intro x hx
                rw [hts]
                simp [hx]
              · rcases Outcome.bind_eq_error_iff.mp h with h | ⟨_, -, h⟩
                · exact hbuilt h
                · cases h
            case isFalse =>
              split at h
              case isTrue =>
                rcases Outcome.bind_eq_error_iff.mp h with h | ⟨_, -, h⟩
                · exact hbuilt h
                · cases h
              case isFalse =>
                cases h
                exact .inl rfl
termination_by (tokens.length, 0)

/-- The items of a block fail with a fault of their own, or because of a number. -/
theorem accounted_of_parseBody (word : String) (tokens : List Token) (hf : Finished tokens) {fault : GrammarFault}
    (h : plain (parseBody word tokens) = .error fault) : Accounted tokens fault := by
  rw [plain_parseBody] at h
  have hf' := hf.afterNewlines
  match hl : afterNewlines tokens with
  | [] => exact absurd (hl ▸ hf') not_finished_nil
  | t :: rest =>
    have hle : (t :: rest).length ≤ tokens.length := hl ▸ length_afterNewlines_le tokens
    have hsub : t :: rest ⊆ tokens := hl ▸ afterNewlines_subset tokens
    simp only [hl] at h hf'
    split at h
    case isTrue =>
      cases h
      exact .inl rfl
    case isFalse =>
      split at h
      case isTrue => cases h
      case isFalse =>
        rcases Outcome.bind_eq_error_iff.mp h with h | ⟨⟨item, left⟩, hitem, h⟩
        · rw [plainItem] at h
          split at h
          case isTrue => exact (accounted_of_parseNode (t :: rest) hf' h).mono hsub
          case isFalse =>
            cases hv : plain (parseValue (t :: rest)) with
            | error fault' =>
              rw [hv] at h
              cases h
              exact (accounted_of_parseValue (t :: rest) hf' hv).mono hsub
            | ok r =>
              rw [hv] at h
              cases h
        · obtain ⟨ts, hts, hi⟩ := isItem_of_plainItem hitem
          have hshort := length_lt_of_plainItem hitem
          have hleft := (hts ▸ hf').of_append hi.unfinished
          cases left with
          | nil => exact absurd hleft not_finished_nil
          | cons b left =>
            simp only at h
            split at h
            case isFalse =>
              cases h
              exact .inl rfl
            case isTrue hb =>
              rcases Outcome.bind_eq_error_iff.mp h with h | ⟨_, -, h⟩
              · have hlt : (b :: left).length < tokens.length := by omega
                refine (accounted_of_parseBody word (b :: left) hleft h).mono (List.Subset.trans ?_ hsub)
                intro x hx
                rw [hts]
                simp [hx]
              · cases h
termination_by (tokens.length, 1)
decreasing_by
  · rcases Nat.lt_or_eq_of_le hle with hlt | heq
    · exact Prod.Lex.left _ _ hlt
    · rw [heq]
      exact Prod.Lex.right _ Nat.zero_lt_one
  · exact Prod.Lex.left _ _ hlt

end

/-- A document fails with a fault of its own, or because of a number. -/
theorem accounted_of_parse {tokens : List Token} (hf : Finished tokens) {fault : GrammarFault}
    (h : parse tokens = .error fault) : Accounted tokens fault := by
  have hf' := hf.afterNewlines
  rw [parse] at h
  match hl : afterNewlines tokens with
  | [] => exact absurd (hl ▸ hf') not_finished_nil
  | t :: rest =>
    have hsub : t :: rest ⊆ tokens := hl ▸ afterNewlines_subset tokens
    simp only [hl] at h hf'
    split at h
    case isTrue =>
      cases h
      exact .inl rfl
    case isFalse =>
      rcases Outcome.bind_eq_error_iff.mp h with h | ⟨⟨tree, left, _⟩, hnode, h⟩
      · exact (accounted_of_parseNode (t :: rest) hf' (congrArg plain h)).mono hsub
      · obtain ⟨ts, hts, hi⟩ := isNode_of_parseNode (t :: rest) (congrArg plain hnode)
        have hleft := ((hts ▸ hf').of_append hi.unfinished).afterNewlines
        match hl' : afterNewlines left with
        | [] => exact absurd (hl' ▸ hleft) not_finished_nil
        | e :: _ =>
          simp only [hl'] at h
          split at h <;> cases h
          exact .inl rfl

/-- Reading a text fails with a fault that has a wording, or because of a number in the text: one with a digit that is
no decimal one, or with more digits than an integer may have, or an integer that is too large to compute with. -/
theorem accounted_of_read {text : String} {fault : MarkupFault} (h : read text = .error fault) :
    fault.isOwn = true ∨
      ∃ tokens, scan text = .ok tokens ∧ ∃ t ∈ tokens, t.kind = .number ∧
        (¬ Converts t.text.toList ∧ fault = .grammar .unreadableNumber ∨
          Converts t.text.toList ∧ (∃ n, denoted t.text.toList = .int n ∧ Oversized n) ∧
            fault = .grammar .tooLarge) := by
  rw [read] at h
  split at h
  · cases h
    exact .inl rfl
  · next tokens hscan =>
    cases hparse : parse tokens with
    | ok tree =>
      rw [hparse] at h
      cases h
    | error fault =>
      rw [hparse] at h
      cases h
      obtain ⟨init, e, htokens, he, -⟩ := scan_eq_append hscan
      have hf : Finished tokens := ⟨e, by rw [htokens, List.getLast?_concat]; rfl, he⟩
      refine (accounted_of_parse hf hparse).imp_right fun htrips => ⟨tokens, hscan, ?_⟩
      have hvalue : ∀ t ∈ tokens, t.kind = .number → ∀ v, numberValue t.text = .ok v ↔
          Converts t.text.toList ∧ v = denoted t.text.toList := fun t ht hk => numberValue_eq_ok_iff_of_scan hscan ht hk
      cases htrips with
      | @unreadable t ht hk hv =>
        refine ⟨t, ht, hk, .inl ⟨fun hc => ?_, rfl⟩⟩
        exact hv _ ((hvalue t ht hk _).mpr ⟨hc, rfl⟩)
      | @oversized t n ht hk hv hn =>
        obtain ⟨hc, hdenoted⟩ := (hvalue t ht hk _).mp hv
        exact ⟨t, ht, hk, .inr ⟨hc, ⟨n, hdenoted.symm, hn⟩, rfl⟩⟩

set_option maxRecDepth 10000 in
/-- A speed with a raised digit after a decimal one: the number is what cannot be read. -/
theorem accounted_of_read_raisedDigit :
    read "project speed=3²" = .error (.grammar .unreadableNumber) ∧
      ∃ tokens, scan "project speed=3²" = .ok tokens ∧ ∃ t ∈ tokens, t.kind = .number ∧ ¬ Converts t.text.toList := by
  have hread : read "project speed=3²" = .error (.grammar .unreadableNumber) := by cbv
  refine ⟨hread, ?_⟩
  rcases accounted_of_read hread with hown | ⟨tokens, hscan, t, ht, hk, ⟨hc, -⟩ | ⟨-, -, hfault⟩⟩
  · cases hown
  · exact ⟨tokens, hscan, t, ht, hk, hc⟩
  · cases hfault

set_option maxRecDepth 10000 in
/-- A raised digit alone begins a number, and reading fails without a wording. -/
theorem read_raisedDigit : ∃ fault, read "project speed=²" = .error fault ∧ fault.isOwn = false := by
  refine ⟨.grammar .unreadableNumber, ?_, rfl⟩
  cbv

end SceneTree.Markup
