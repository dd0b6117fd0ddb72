import SceneTree.Proofs.Markup.Completeness
import SceneTree.Proofs.Markup.Scanning

/-!
# The grammar is what is accepted

For the tokens of a text, the parser returns a tree exactly if they derive from the rule of documents, and then the one
that the derivation denotes.
-/

namespace SceneTree.Markup

variable {text : String} {tokens : List Token}

/-- What the tokens of a text are parsed to derives from them. -/
theorem isDocument_of_scan {tree : Tree Unit} (hscan : scan text = .ok tokens) (h : parse tokens = .ok tree) :
    IsDocument tokens tree := by
  obtain ⟨init, e, rfl, he, hinit⟩ := scan_eq_append hscan
  exact isDocument_of_parse (fun t ht => (hinit t ht).1) h

/-- The tree that a text describes derives from the rule of nodes. -/
theorem isNode_of_read {tree : Tree Unit} (h : read text = .ok tree) : ∃ ts, IsNode ts tree := by
  rw [read] at h
  split at h
  · cases h
  · next tokens hscan =>
    cases hparse : parse tokens with
    | error fault =>
      rw [hparse] at h
      cases h
    | ok tree' =>
      rw [hparse] at h
      cases h
      obtain ⟨_, hn, _, _⟩ := isDocument_of_scan hscan hparse
      exact ⟨_, hn⟩

/-- A text whose tokens derive from the rule of documents describes the tree that they denote. -/
theorem read_of_isDocument {tree : Tree Unit} (hscan : scan text = .ok tokens) (h : IsDocument tokens tree) :
    read text = .ok tree := by
  rw [read, hscan]
  exact congrArg (Except.mapError MarkupFault.grammar) (parse_of_isDocument h)

/-- A number among the tokens of a text denotes its value exactly if its digits are decimal and, without a point, not
too many. -/
theorem numberValue_eq_ok_iff_of_scan (h : scan text = .ok tokens) {t : Token} (ht : t ∈ tokens) (hk : t.kind = .number)
    (v : Value) : numberValue t.text = .ok v ↔ Converts t.text.toList ∧ v = denoted t.text.toList := by
  obtain ⟨init, e, rfl, he, hinit⟩ := scan_eq_append h
  rcases List.mem_append.mp ht with ht | ht
  · obtain ⟨negative, whole, fraction, hwritten⟩ := (hinit t ht).2 hk
    have := hwritten.numberValue_eq_ok_iff v
    rwa [String.ofList_toList] at this
  · rw [List.mem_singleton.mp ht, he] at hk
    cases hk

/-- The tokens of a text make up a tree exactly if they derive from the grammar as that tree, in which a number denotes
its value exactly if its digits are decimal and, without a point, not more than an integer may have. -/
theorem parse_eq_ok_iff_isDocument {text : String} {tokens : List Token} (h : scan text = .ok tokens) :
    (∀ tree, parse tokens = .ok tree ↔ IsDocument tokens tree) ∧
      ∀ t ∈ tokens, t.kind = .number → ∀ v,
        numberValue t.text = .ok v ↔ Converts t.text.toList ∧ v = denoted t.text.toList :=
  ⟨fun _ => ⟨isDocument_of_scan h, parse_of_isDocument⟩, fun _ ht hk => numberValue_eq_ok_iff_of_scan h ht hk⟩

/-- The tokens of a scene. -/
def sceneTokens : List Token :=
  [⟨.name, "scene", ⟨1, 1⟩⟩, ⟨.name, "name", ⟨1, 7⟩⟩, ⟨.sign .equals, "=", ⟨1, 11⟩⟩, ⟨.number, "-12", ⟨1, 12⟩⟩,
    ⟨.sign .openBrace, "\x7b", ⟨1, 16⟩⟩, ⟨.newline, "\n", ⟨1, 17⟩⟩, ⟨.sign .openBracket, "[", ⟨2, 1⟩⟩,
    ⟨.keyword, "true", ⟨2, 2⟩⟩, ⟨.sign .comma, ",", ⟨2, 6⟩⟩, ⟨.sign .closeBracket, "]", ⟨2, 7⟩⟩,
    ⟨.sign .closeBrace, "\x7d", ⟨2, 8⟩⟩, ⟨.ending, "", ⟨2, 9⟩⟩]

set_option maxRecDepth 10000 in
/-- A scene with a number for its name and a list in its block. -/
theorem isDocument_sceneTokens :
    scan "scene name=-12 \x7b\n[true,]\x7d" = .ok sceneTokens ∧
      (∃ node : Node, node.get .name = .int (-12) ∧
        IsDocument sceneTokens (.node () node [.literal (.list [.bool true])])) ∧
      Converts "-12".toList ∧ denoted "-12".toList = .int (-12) := by
  have hscan : scan "scene name=-12 \x7b\n[true,]\x7d" = .ok sceneTokens := by cbv
  obtain ⟨hparse, hnumber⟩ := parse_eq_ok_iff_isDocument hscan
  have hread : numberValue "-12" = .ok (.int (-12)) := rfl
  obtain ⟨hconverts, hdenoted⟩ := (hnumber ⟨.number, "-12", ⟨1, 12⟩⟩ (by simp [sceneTokens]) rfl (.int (-12))).mp hread
  refine ⟨hscan, ⟨⟨.scene, fun field => ([(.name, .int (-12))].lookup field).getD (Kind.scene.defaultOf field)⟩, rfl,
    (hparse _).mp ?_⟩, hconverts, hdenoted.symm⟩
  cbv

end SceneTree.Markup
