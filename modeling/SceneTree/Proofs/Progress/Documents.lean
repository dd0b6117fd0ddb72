import SceneTree.Proofs.Progress.Nodes
import SceneTree.Proofs.Progress.TextWalk

/-!
# Reading comes to an end

The walks over texts and over tokens are never stopped: with one more turn than there are characters or tokens, they
come to what scanning and parsing come to. So no character and no token is read behind the last, the ending is not
passed, every turn of a loop reads something, and every routine has read something when it is called again.
-/

namespace SceneTree.Markup

namespace TokenWalk

variable {α : Type} {calls : Calls} {bound : Nat} {tokens : List Token}

/-- A document is read as the parser reads it. -/
theorem document_eq (h : EndsOnce tokens) (hlt : tokens.length < bound) :
    (document bound).outcome tokens = (parse tokens).mapError .fault := by
  have hshort := length_afterNewlines_le tokens
  have hended := h.afterNewlines
  have hnone : Above [] tokens.length := List.forall_mem_nil _
  rw [Walk.outcome, document, called_eq (hnone.clear .document), Walk.bind_of_ok (newlines_eq h hlt), parse]
  obtain ⟨t, rest, hl⟩ := hended.exists_cons
  rw [hl] at hshort hended ⊢
  dsimp only
  by_cases hending : t.kind = .ending
  · rw [Walk.bind_of_ok (check_of_eq hending), if_pos hending]
    rfl
  rw [Walk.bind_of_ok (check_of_ne hending), if_neg Bool.false_ne_true, if_neg hending]
  have hnode : TokenWalk.node bound [(.document, tokens.length)] (t :: rest) =
      (plain (parseNode (t :: rest))).mapError .fault :=
    node_eq hended (Nat.lt_of_le_of_lt hshort hlt) (hnone.clear_cons hshort (by decide))
  cases hp : parseNode (t :: rest) with
  | error fault =>
    rw [hp] at hnode
    rw [Walk.bind_of_error hnode]
    rfl
  | ok read =>
    obtain ⟨root, left, hlen⟩ := read
    rw [hp] at hnode
    rw [Walk.bind_of_ok hnode]
    have hleft : EndsOnce left := endsOnce_of_parseNode hended (congrArg plain hp)
    rw [Walk.bind_of_ok (newlines_eq hleft (Nat.lt_trans hlen (Nat.lt_of_le_of_lt hshort hlt)))]
    dsimp only [bind, Except.bind]
    obtain ⟨e, behind, hl'⟩ := hleft.afterNewlines.exists_cons
    rw [hl']
    dsimp only
    by_cases he : e.kind = .ending
    · rw [if_pos he, check_of_eq he]
      rfl
    · rw [if_neg he, check_of_ne he]
      rfl

/-! ### What routines come to -/

/-- A walk comes to what was computed, be it a result or a fault. So it is not stopped; nor do the tokens run out. -/
def ComesTo (walk : TokenWalk α) (tokens : List Token) (r : Except GrammarFault (α × List Token)) : Prop :=
  walk tokens = r.mapError .fault ∧ r ≠ .error .exhausted

/-- A key of a map, as the parser reads it. -/
def plainKey : List Token → Except GrammarFault (String × List Token)
  | [] => .error .exhausted
  | t :: rest =>
    if t.kind = .name ∨ t.kind = .string then .ok (t.text, rest) else .error (.expected .key t.position)

theorem ne_exhausted {tokens' : List Token} {r : Except GrammarFault α}
    (h : ∀ {fault}, r = .error fault → Accounted tokens' fault) : r ≠ .error .exhausted := by
  intro hr
  rcases h hr with h | h <;> cases h

theorem comesTo_map (h : EndsOnce tokens) (hlt : tokens.length < bound) (hc : Above calls tokens.length) :
    (map (TokenWalk.value bound) bound calls).ComesTo tokens
      ((plain (parsePairs (afterNewlines tokens))).map fun (pairs, left) => (Entries.ofPairs pairs, left)) := by
  refine ⟨map_eq (agrees_value bound) h hlt hc, ?_⟩
  have hne := ne_exhausted (accounted_of_parsePairs (afterNewlines tokens) h.finished.afterNewlines)
  cases hp : plain (parsePairs (afterNewlines tokens)) with
  | error fault =>
    rw [hp] at hne
    exact fun heq => hne (congrArg _ (Except.error.inj heq))
  | ok => exact fun heq => by cases heq

theorem comesTo_key (h : EndsOnce tokens) (hc : Clear .name calls tokens.length) :
    (key calls).ComesTo tokens (plainKey tokens) := by
  obtain ⟨t, rest, rfl⟩ := h.exists_cons
  by_cases hk : t.kind = .name ∨ t.kind = .string
  · rw [plainKey, if_pos hk]
    exact ⟨key_of_mem hk hc, fun heq => by cases heq⟩
  · rw [plainKey, if_neg hk]
    exact ⟨key_of_not_mem hk hc, fun heq => by cases heq⟩

end TokenWalk

open TokenWalk

/-- Scanning and parsing come to an end, and never go behind the end of what they read. A text is walked over in at most
one turn more than it has characters; its tokens stop with an ending, and have no other one. Every routine walks over
such tokens without being stopped: no token is read behind the last, the ending is not passed, every turn of a loop
reads a token, and so does every routine before it is called again. What the walks come to is what scanning and parsing
come to. -/
theorem reading_ends :
    (∀ (text : String) (bound : Nat), text.length < bound →
      (TextWalk.tokens bound bound []).outcome ⟨.start, text.toList⟩ = (scan text).mapError .fault) ∧
    (∀ (text : String) (tokens : List Token), scan text = .ok tokens → EndsOnce tokens) ∧
    ∀ (tokens : List Token) (bound : Nat), EndsOnce tokens → tokens.length < bound →
      (document bound).outcome tokens = (parse tokens).mapError .fault ∧ parse tokens ≠ .error .exhausted ∧
      (node bound []).ComesTo tokens (plain (parseNode tokens)) ∧
      (∀ word, (body (node bound) bound word []).ComesTo tokens (plain (parseBody word tokens))) ∧
      (value bound []).ComesTo tokens (plain (parseValue tokens)) ∧
      (list (value bound) bound []).ComesTo tokens (plain (parseItems (afterNewlines tokens))) ∧
      (map (value bound) bound []).ComesTo tokens
        ((plain (parsePairs (afterNewlines tokens))).map fun (pairs, left) => (Entries.ofPairs pairs, left)) ∧
      (key []).ComesTo tokens (plainKey tokens) ∧
      (newlines bound).ComesTo tokens (.ok ((), afterNewlines tokens)) := by
  refine ⟨fun text bound h => ?_, fun text tokens => endsOnce_of_scan, fun tokens bound h hlt => ?_⟩
  · rw [TextWalk.tokens_eq .start text.toList [] h h, scan]
    cases scanFrom .start text.toList <;> rfl
  · have hf := h.finished
    have hnone : Above [] tokens.length := List.forall_mem_nil _
    exact ⟨document_eq h hlt, ne_exhausted (accounted_of_parse hf),
      ⟨node_eq h hlt (hnone.clear _), ne_exhausted (accounted_of_parseNode tokens hf)⟩,
      fun word => ⟨body_eq (agrees_node bound) h hlt hnone, ne_exhausted (accounted_of_parseBody word tokens hf)⟩,
      ⟨value_eq h hlt (hnone.clear _), ne_exhausted (accounted_of_parseValue tokens hf)⟩,
      ⟨list_eq (agrees_value bound) h hlt hnone, ne_exhausted (accounted_of_parseItems _ hf.afterNewlines)⟩,
      comesTo_map h hlt hnone, comesTo_key h (hnone.clear _), newlines_eq h hlt, fun heq => by cases heq⟩

set_option maxRecDepth 10000 in
/-- A block that is not closed: the walk comes to the ending and does not pass it. -/
theorem reading_ends_openBlock :
    ∃ tokens, scan "scene \x7b\n" = .ok tokens ∧ tokens.length < 5 ∧
      (document 5).outcome tokens = .error (.fault (.expected (.blockEnd "scene") ⟨2, 1⟩)) := by
  have hscan : scan "scene \x7b\n" = .ok [⟨.name, "scene", ⟨1, 1⟩⟩, ⟨.sign .openBrace, "\x7b", ⟨1, 7⟩⟩,
      ⟨.newline, "\n", ⟨1, 8⟩⟩, ⟨.ending, "", ⟨2, 1⟩⟩] := by cbv
  have hparse : parse [⟨.name, "scene", ⟨1, 1⟩⟩, ⟨.sign .openBrace, "\x7b", ⟨1, 7⟩⟩, ⟨.newline, "\n", ⟨1, 8⟩⟩,
      ⟨.ending, "", ⟨2, 1⟩⟩] = .error (.expected (.blockEnd "scene") ⟨2, 1⟩) := by cbv
  have houtcome := (reading_ends.2.2 _ 5 (reading_ends.2.1 _ _ hscan) (by decide)).1
  rw [hparse] at houtcome
  exact ⟨_, hscan, by decide, houtcome⟩

end SceneTree.Markup
