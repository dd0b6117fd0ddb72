import Mathlib.Data.List.Basic

/-!
# Patterns

A pattern is tried at every place of a text, from the beginning. At one place it may match in several ways, and these
are tried in order: a repetition takes as many characters as there are, and then gives them back one at a time. The end
of a text is also found before a line break that ends it.
-/

namespace SceneTree.Text

/-- What a text is searched for. -/
inductive Pattern where
  /-- One character of a class. -/
  | one (accepts : Char → Bool)
  /-- Characters of a class, rather more of them than fewer. -/
  | many (accepts : Char → Bool)
  /-- What matches is remembered. -/
  | group (inside : Pattern)
  | ending
  | next (first second : Pattern)

/-- How a pattern matches at a place: what it takes, what it leaves, and what is remembered. -/
structure Match where
  taken : List Char
  rest : List Char
  remembered : Option (List Char)

/-- Whether a text ends here, perhaps with a line break. -/
def atEnd (text : List Char) : Bool := text = [] || text = ['\n']

namespace Pattern

/-- The beginnings of a text in a class, the longest first, each with what follows it. -/
def runs (accepts : Char → Bool) : List Char → List (List Char × List Char)
  | [] => [([], [])]
  | c :: rest =>
    (if accepts c then (runs accepts rest).map fun (taken, left) => (c :: taken, left) else []) ++ [([], c :: rest)]

/-- The ways in which a pattern matches at the beginning of a text, in order. -/
def ways : Pattern → List Char → List Match
  | one _, [] => []
  | one accepts, c :: rest => if accepts c then [⟨[c], rest, none⟩] else []
  | many accepts, text => (runs accepts text).map fun (taken, left) => ⟨taken, left, none⟩
  | group inside, text => (inside.ways text).map fun m => { m with remembered := some m.taken }
  | ending, text => if atEnd text then [⟨[], text, none⟩] else []
  | next first second, text =>
    (first.ways text).flatMap fun m =>
      (second.ways m.rest).map fun m' => ⟨m.taken ++ m'.taken, m'.rest, m'.remembered.or m.remembered⟩

/-- The first way in which a pattern matches at the first place of a text where it does. -/
def search (pattern : Pattern) (text : List Char) : Option Match :=
  match (pattern.ways text).head? with
  | some m => some m
  | none =>
    match text with
    | [] => none
    | _ :: rest => search pattern rest

/-- The only run that reaches the end of a text is all of it: where a run stops before the line break at the end, one
that takes it comes first. -/
theorem find?_runs {accepts : Char → Bool} (hbreak : accepts '\n' = true) (text : List Char) :
    (runs accepts text).find? (fun run => atEnd run.2) = if text.all accepts then some (text, []) else none := by
  induction text with
  | nil => rfl
  | cons c rest ih =>
    have hhere : rest.all accepts = false ∨ accepts c = false → atEnd (c :: rest) = false := by
      intro h
      rw [atEnd, Bool.or_eq_false_iff, decide_eq_false_iff_not, decide_eq_false_iff_not]
      refine ⟨nofun, fun heq => ?_⟩
      obtain ⟨rfl, rfl⟩ := List.cons.inj heq
      rcases h with h | h
      · cases h
      · rw [hbreak] at h
        cases h
    rw [runs, List.find?_append, List.all_cons]
    cases hc : accepts c with
    | false => simp [hhere (.inr hc)]
    | true =>
      rw [if_pos rfl, List.find?_map, Bool.true_and]
      have hsame : ((fun run : List Char × List Char => atEnd run.2) ∘ fun (taken, left) => (c :: taken, left)) =
          fun run => atEnd run.2 := rfl
      rw [hsame, ih]
      cases hrest : rest.all accepts with
      | true => rfl
      | false => simp [hhere (.inl hrest)]

/-- Characters of a class up to the end match if all of the text is in the class, and then they are remembered. -/
theorem head?_ways_toEnd {accepts : Char → Bool} (hbreak : accepts '\n' = true) (text : List Char) :
    ((next (group (many accepts)) ending).ways text).head? =
      if text.all accepts then some ⟨text, [], some text⟩ else none := by
  have hways : (next (group (many accepts)) ending).ways text =
      (runs accepts text).flatMap fun run => if atEnd run.2 then [⟨run.1, run.2, some run.1⟩] else [] := by
    simp only [ways, List.map_map, List.flatMap_map]
    congr 1
    funext ⟨taken, left⟩
    by_cases h : atEnd left <;> simp [h]
  have hhead : ∀ rs : List (List Char × List Char),
      (rs.flatMap fun run => if atEnd run.2 then [(⟨run.1, run.2, some run.1⟩ : Match)] else []).head? =
        (rs.find? fun run => atEnd run.2).map fun run => ⟨run.1, run.2, some run.1⟩ := by
    intro rs
    induction rs with
    | nil => rfl
    | cons run rs ih =>
      rw [List.flatMap_cons, List.find?_cons]
      cases h : atEnd run.2 with
      | true => rfl
      | false => exact ih
  rw [hways, hhead, find?_runs hbreak]
  split <;> rfl

end Pattern

end SceneTree.Text
