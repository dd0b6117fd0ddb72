import SceneTree.Proofs.Markup.Covering

/-!
# What a text is scanned into

The ending stands after all other tokens and nowhere else, and what is scanned as a number is written like one.
-/

namespace SceneTree.Markup

/-- What stands at a place is no ending, and if it is a number it is written like one. -/
theorem Stands.of_some {part rest text : List Char} {kind : TokenKind} (h : Stands part rest (some (kind, text))) :
    kind ≠ .ending ∧ (kind = .number → ∃ negative whole fraction, Written text negative whole fraction) := by
  cases h with
  | number hwritten => exact ⟨nofun, fun _ => ⟨_, _, _, hwritten⟩⟩
  | name =>
    split
    · exact ⟨nofun, nofun⟩
    · exact ⟨nofun, nofun⟩
  | _ => exact ⟨nofun, nofun⟩

/-- The ending stands after all other tokens. -/
theorem scan_eq_append {text : String} {tokens : List Token} (h : scan text = .ok tokens) :
    ∃ init e, tokens = init ++ [e] ∧ e.kind = .ending ∧ ∀ t ∈ init, t.kind ≠ .ending ∧
      (t.kind = .number → ∃ negative whole fraction, Written t.text.toList negative whole fraction) := by
  obtain ⟨found, rfl, hcovers⟩ := covers_of_scan_eq_ok h
  refine ⟨_, _, rfl, rfl, fun t ht => ?_⟩
  obtain ⟨p, hp, rfl⟩ := List.mem_map.mp ht
  exact (hcovers.stands p hp).of_some

end SceneTree.Markup
