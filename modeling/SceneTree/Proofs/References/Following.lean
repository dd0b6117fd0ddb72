import SceneTree.Proofs.References.Settled
import SceneTree.Proofs.Translation.Compiled

/-!
# What can go wrong besides

The layout of a tree is compared with that of the settled tree. The former comes to what the latter comes to, unless it
fails because some name finds nothing. `Follows` says so of computations one by one: it passes from values to
the scripts that they stand in, from these to objects and functions, and so to the whole layout.
-/

namespace SceneTree

namespace Outcome

variable {α β : Type} {bad : Fault → Prop}

/-- The first computation comes to the same as the second, or fails for one of some reasons. -/
def Follows (bad : Fault → Prop) (x y : Except Fault α) : Prop := x = y ∨ ∃ fault, bad fault ∧ x = .error fault

theorem Follows.refl (bad : Fault → Prop) (x : Except Fault α) : Follows bad x x := .inl rfl

/-- Computations in a row follow others in a row. -/
theorem Follows.bind {x y : Except Fault α} {f g : α → Except Fault β} (h : Follows bad x y)
    (hf : ∀ a, Follows bad (f a) (g a)) : Follows bad (x >>= f) (y >>= g) := by
  rcases h with rfl | ⟨fault, hbad, rfl⟩
  · cases x with
    | error fault => exact .refl bad _
    | ok a => exact hf a
  · exact .inr ⟨fault, hbad, rfl⟩

/-- Computations on some items follow computations on others. -/
theorem Follows.mapM {γ : Type} {f : α → Except Fault γ} {g : β → Except Fault γ} {as : List α} {bs : List β}
    (h : List.Forall₂ (fun a b => Follows bad (f a) (g b)) as bs) : Follows bad (as.mapM f) (bs.mapM g) := by
  induction h with
  | nil => exact .refl bad _
  | cons hab _ ih =>
    rw [List.mapM_cons, List.mapM_cons]
    exact hab.bind fun _ => ih.bind fun _ => .refl bad _

end Outcome

open Outcome (Follows)

namespace Attempt

variable {σ α β : Type} {bad : Fault → Prop}

/-- An attempt follows another, whatever states the two start from. -/
def Follows (bad : Fault → Prop) (x y : Attempt σ α) : Prop := ∀ s s', Outcome.Follows bad (x s).1 (y s').1

theorem Follows.pure (a : α) : Follows bad (pure a : Attempt σ α) (pure a) := fun _ _ => .refl bad _

theorem Follows.ofExcept (x : Except Fault α) : Follows bad (ofExcept x : Attempt σ α) (ofExcept x) :=
  fun _ _ => .refl bad x

/-- Attempts in a row follow others in a row. -/
theorem Follows.bind {x y : Attempt σ α} {f g : α → Attempt σ β} (h : x.Follows bad y)
    (hf : ∀ a, (f a).Follows bad (g a)) : (x >>= f).Follows bad (y >>= g) := by
  intro s s'
  have ho := h s s'
  rw [bind_apply, bind_apply]
  generalize x s = r at ho ⊢
  generalize y s' = r' at ho ⊢
  obtain ⟨outcome, s₁⟩ := r
  obtain ⟨outcome', s₁'⟩ := r'
  rcases ho with he | ⟨fault, hbad, he⟩
  · obtain rfl : outcome = outcome' := he
    cases outcome with
    | error fault => exact .refl bad _
    | ok a => exact hf a s₁ s₁'
  · obtain rfl : outcome = .error fault := he
    exact .inr ⟨fault, hbad, rfl⟩

/-- What mirrors an attempt follows it. -/
theorem Mirrors.follows {I : σ → Prop} {x y : Attempt σ α} (h : x.Mirrors I y) : x.Follows bad y := by
  intro s s'
  rw [h.outcome s s']
  exact .refl bad _

end Attempt

namespace Value

variable {bad : Fault → Prop}

/-- The encoding of a value follows that of another. -/
def Follows (bad : Fault → Prop) (v w : Value) : Prop := (encode v).Follows bad (encode w)

/-- Given values follow themselves. -/
theorem Follows.self {v : Value} (h : v.isGiven = true) : Follows bad v v :=
  (Reads.self (I := fun _ => True) h : (encode v).Mirrors _ (encode v)).follows

theorem encodeItems_follows {vs ws : List Value} (h : List.Forall₂ (Follows bad) vs ws) :
    (encodeItems vs).Follows bad (encodeItems ws) := by
  induction h with
  | nil =>
    rw [encodeItems]
    exact .pure []
  | cons h _ ih =>
    rw [encodeItems, encodeItems]
    exact .bind h fun v => .bind ih fun vs => .pure (v :: vs)

/-- Slots follow others if their items do. -/
theorem Follows.slot {vs ws : List Value} (h : List.Forall₂ (Follows bad) vs ws) :
    Follows bad (.slot vs) (.slot ws) := by
  unfold Follows
  rw [encode, encode]
  exact .bind (encodeItems_follows h) fun items => .pure (Value.list items)

/-- Scripts follow others if their parameters and their statements do. -/
theorem Follows.script (head : ScriptHead) {params params' statements statements' : Value}
    (hp : Follows bad params params') (hs : Follows bad statements statements') :
    Follows bad (head.toRecord params statements) (head.toRecord params' statements') := by
  unfold Follows ScriptHead.toRecord
  rw [encode, encode]
  exact .bind hp fun _ => .bind hs fun _ => .bind (.ofExcept _) fun _ => .pure _

/-- The text of a script follows that of another if the script does. -/
theorem Follows.dump {v w : Value} (h : Follows bad v w) : v.dump.Follows bad w.dump := .bind h fun _ => .ofExcept _

/-- A lookup of a given candidate that is plain follows what it finds; one that finds nothing fails. -/
theorem Follows.lookup {label : Nat} {kind : String} {name : Value} {cs : Candidates}
    (hplain : ∀ p ∈ cs, p.1.isJson = true) (hbad : cs.firstNamed? name = none → bad (.unresolved kind name)) :
    Follows bad (.lookup (.given label) kind name cs) ((cs.firstNamed? name).getD .null) := by
  intro s s'
  rw [encode, readLookup, Candidates.resolve]
  cases hf : cs.firstNamed? name with
  | none => exact .inr ⟨_, hbad hf, rfl⟩
  | some id =>
    obtain ⟨p, hp, rfl⟩ := Option.map_eq_some_iff.mp hf
    rw [Option.getD_some, encode_of_isJson _ (hplain p (List.mem_of_find?_eq_some hp))]
    exact .refl bad _

end Value

/-- Parts of scripts follow others. -/
structure Parts.Follows (bad : Fault → Prop) (parts parts' : Parts) : Prop where
  statements : List.Forall₂ (Value.Follows bad) parts.statements parts'.statements
  params : List.Forall₂ (Value.Follows bad) parts.params parts'.params

theorem Parts.Follows.none (bad : Fault → Prop) : Parts.none.Follows bad .none := ⟨.nil, .nil⟩

theorem Parts.Follows.append {bad : Fault → Prop} {a a' b b' : Parts} (ha : a.Follows bad a') (hb : b.Follows bad b') :
    (a.append b).Follows bad (a'.append b') :=
  ⟨List.rel_append ha.statements hb.statements, List.rel_append ha.params hb.params⟩

/-- What settling needs to know of a node: a named parameter holds nothing, its name may mean plain ids only, and it is
one of some bad names if it finds nothing. All else is given. -/
structure Branch.Settles (bad : Fault → Prop) (names₀ : Names) (above : List Branch) (b : Branch) : Prop where
  kind : b.kind ≠ .namedParam
  empty : b.kind.isNamedParam = true → b.children = []
  plain : ∀ p ∈ b.candidates (Branch.namesBelowAll names₀ above), p.1.isJson = true
  lost : ∀ p, b.unresolved? (Branch.namesBelowAll names₀ above) = some p → bad (.unresolved p.1 p.2)
  given : (b.node.paramValue (Tree.literals b.children)).isGiven = true

section

open Branch

variable {bad : Fault → Prop} {names names' names₀ : Names} {b : Branch} {above : List Branch} {inner inner' : Parts}
  {forest : List (Tree Value)}

/-- What a named parameter gives follows the plain value that stands for it. -/
theorem Branch.Settles.lookup (h : b.Settles bad names₀ above) (hk : b.kind.isNamedParam = true) :
    Value.Follows bad (b.lookup (namesBelowAll names₀ above)) (b.meant (namesBelowAll names₀ above)) :=
  Value.Follows.lookup h.plain fun hn => h.lost _ (if_pos ⟨hk, hn⟩)

/-- A value that a plain parameter holds is its value. -/
theorem Node.paramValue_holding (v : Value) : (Node.holding v).paramValue [] = v := by
  unfold paramValue paramValues holding
  simp only [if_true]
  cases v <;> rfl

/-- What a named parameter gives. -/
theorem Branch.parts_of_named (hk : b.kind.isNamedParam = true) (hb : b.kind ≠ .namedParam) :
    b.parts names inner = ⟨[], [b.lookup names]⟩ := by
  unfold Branch.parts
  generalize b.kind = kind at hk hb
  match kind with
  | .variableParam | .objectParam | .pictureParam | .soundParam => rfl
  | .namedParam => exact absurd rfl hb

/-- What a node gives follows what it gives when it is settled, if that is so for what is inside it. -/
theorem Branch.Settles.parts (h : b.Settles bad names₀ above) (hnames : names = namesBelowAll names₀ above)
    (names' : Names) (hinner : b.kind.isObject = false → inner.Follows bad inner') :
    (b.parts names inner).Follows bad ((b.settled names).parts names' inner') := by
  cases hk : b.kind.isNamedParam with
  | true =>
    rw [parts_of_named hk h.kind, settled_of_named hk]
    change Parts.Follows bad _ ⟨[], [(Node.holding (b.meant names)).paramValue []]⟩
    rw [Node.paramValue_holding, hnames]
    exact ⟨.nil, .cons (h.lookup hk) .nil⟩
  | false =>
    have hliterals : Tree.literals (b.settled names).children = Tree.literals b.children := by
      rw [children_settled h.empty, Tree.literals_settleAll]
    rw [settled_of_not_named hk] at hliterals ⊢
    unfold Branch.parts Branch.kind at *
    match hb : b.node.kind with
    | .fragment | .project | .scene => exact hinner (by rw [hb]; rfl)
    | .statement =>
      have hinner := hinner (by rw [hb]; rfl)
      exact ⟨.cons (.slot hinner.params) hinner.statements, .nil⟩
    | .script =>
      have hinner := hinner (by rw [hb]; rfl)
      exact ⟨.nil, .cons (.script _ (.slot hinner.params) (.slot hinner.statements)) .nil⟩
    | .param =>
      simp only [hliterals]
      exact ⟨.nil, .cons (.self h.given) .nil⟩
    | .variableParam | .objectParam | .pictureParam | .soundParam | .namedParam =>
      rw [hb] at hk
      cases hk
    | .node | .object | .sprite | .textBox | .picture | .sound | .variable | .message | .function | .localVariable
    | .table => exact .none bad

/-- What trees give follows what they give when they are settled. -/
theorem Tree.partsOf_follows (h : EverywhereIn (Branch.Settles bad names₀) above forest)
    (hnames : names = namesBelowAll names₀ above) :
    (partsOf names forest).Follows bad (partsOf names' (settleAll names forest forest)) := by
  induction forest using forest_induction generalizing above names names' with
  | nil =>
    rw [settleAll_nil]
    exact .none bad
  | literal v rest ih =>
    rw [settleAll_literal]
    exact (Parts.Follows.none bad).append (ih ((everywhereIn_literal v).mp h) hnames)
  | node b rest ihc ihr =>
    obtain ⟨hb, hc, hr⟩ := everywhereIn_node.mp h
    rw [settleAll_node]
    refine Parts.Follows.append ?_ (ihr hr hnames)
    refine hb.parts hnames names' fun hk => ?_
    rw [children_settled hb.empty, namesBelow_of_not_isObject hk]
    exact ihc hc (by rw [hnames]; exact (namesBelow_of_not_isObject hk).symm)

end

/-- An object is another one but for its script, which follows that of the other. -/
structure ObjectPlan.Follows (bad : Fault → Prop) (plan plan' : ObjectPlan) : Prop where
  head : plan.toObjectHead = plan'.toObjectHead
  entity : plan.entity = plan'.entity
  pictures : plan.pictures = plan'.pictures
  sounds : plan.sounds = plan'.sounds
  script : List.Forall₂ (Value.Follows bad) plan.script plan'.script

/-- A function is another one but for its content, which follows that of the other. -/
structure FunctionPlan.Follows (bad : Fault → Prop) (plan plan' : FunctionPlan) : Prop where
  head : plan.toFunctionHead = plan'.toFunctionHead
  locals : plan.locals = plan'.locals
  content : List.Forall₂ (Value.Follows bad) plan.content plan'.content

/-- A plan is another one but for scripts and contents, which follow those of the other. -/
structure Plan.Follows (bad : Fault → Prop) (plan plan' : Plan) : Prop where
  head : plan.head = plan'.head
  scenes : plan.scenes = plan'.scenes
  objects : List.Forall₂ (ObjectPlan.Follows bad) plan.objects plan'.objects
  globals : plan.globals = plan'.globals
  messages : plan.messages = plan'.messages
  functions : List.Forall₂ (FunctionPlan.Follows bad) plan.functions plan'.functions
  tables : plan.tables = plan'.tables

section

variable {bad : Fault → Prop}

theorem ObjectPlan.Follows.layout {plan plan' : ObjectPlan} (h : plan.Follows bad plan') :
    Outcome.Follows bad plan.layout plan'.layout := by
  unfold ObjectPlan.layout
  rw [h.head, h.entity, h.pictures, h.sounds]
  exact .bind ((Value.Follows.slot h.script).dump [] []) fun _ => .refl bad _

theorem FunctionPlan.Follows.layout {plan plan' : FunctionPlan} (h : plan.Follows bad plan') :
    Outcome.Follows bad plan.layout plan'.layout := by
  unfold FunctionPlan.layout
  rw [h.head, h.locals]
  exact .bind ((Value.Follows.slot h.content).dump [] []) fun _ => .refl bad _

/-- The layout of a plan follows that of another if the plan does. -/
theorem Plan.Follows.layout {plan plan' : Plan} (h : plan.Follows bad plan') :
    Outcome.Follows bad plan.layout plan'.layout := by
  unfold Plan.layout
  rw [h.head, h.scenes, h.globals, h.messages, h.tables]
  refine .bind (.mapM (h.objects.imp fun _ _ ho => ho.layout)) fun _ => ?_
  exact .bind (.mapM (h.functions.imp fun _ _ hf => hf.layout)) fun _ => .refl bad _

end

section

open Branch

variable {bad : Fault → Prop} {names₀ names' : Names} {b : Branch} {above : List Branch} {forest : List (Tree Value)}

/-- An object follows what it is when it is settled. -/
theorem Branch.object_follows (hk : b.kind.isObject = true)
    (hc : Tree.EverywhereIn (Branch.Settles bad names₀) (b :: above) b.children) (scene : Value) :
    (b.object names₀ scene).Follows bad ((b.settled (namesBelowAll names₀ above)).object names' scene) := by
  have hempty : Tree.EverywhereIn (fun _ b => b.kind.isNamedParam = true → b.children = []) (b :: above) b.children :=
    hc.mp fun _ _ hb => hb.empty
  have hnot : b.kind.isNamedParam = false := by cases hb : b.kind <;> rw [hb] at hk <;> first | rfl | cases hk
  obtain ⟨hpictures, hsounds, hselected, -⟩ := pictures_settled hempty (b.namesBelow (namesBelowAll names₀ above))
  have hbelow : b.namesBelow names₀ = namesBelowAll names₀ (b :: above) := (namesBelow_namesBelowAll hk).symm
  rw [settled_of_not_named hnot]
  refine ⟨?_, rfl, hpictures.symm, hsounds.symm, ?_⟩
  · simp only [Branch.object, hselected]
  · change List.Forall₂ _ (Tree.partsOf (b.namesBelow names₀) b.children).statements _
    rw [hbelow]
    exact (Tree.partsOf_follows hc rfl).statements

/-- A function follows what it is when it is settled. -/
theorem Branch.function_follows (hk : b.kind = .function)
    (hc : Tree.EverywhereIn (Branch.Settles bad names₀) (b :: above) b.children) :
    (b.function (namesBelowAll names₀ above)).Follows bad
      ((b.settled (namesBelowAll names₀ above)).function names') := by
  have hempty : Tree.EverywhereIn (fun _ b => b.kind.isNamedParam = true → b.children = []) (b :: above) b.children :=
    hc.mp fun _ _ hb => hb.empty
  have hnot : b.kind.isNamedParam = false := by rw [hk]; rfl
  obtain ⟨-, -, -, hlocals⟩ := pictures_settled hempty (b.namesBelow (namesBelowAll names₀ above))
  have hbelow : Tree.partsOf (namesBelowAll names₀ above) b.children =
      Tree.partsOf (namesBelowAll names₀ (b :: above)) b.children :=
    congrArg (Tree.partsOf · b.children) (namesBelow_of_not_isObject (by rw [hk]; rfl)).symm
  rw [settled_of_not_named hnot]
  refine ⟨rfl, hlocals.symm, ?_⟩
  change List.Forall₂ _ (Tree.partsOf (namesBelowAll names₀ above) b.children).statements _
  rw [hbelow]
  exact (Tree.partsOf_follows hc rfl).statements

/-- What a tree says follows what it says when it has been settled. -/
theorem Tree.plan_follows (h : EverywhereIn (Branch.Settles bad (names forest)) [] forest) :
    (plan forest).Follows bad (plan (settleAll (names forest) forest forest)) := by
  have hempty : EverywhereIn (fun _ b => b.kind.isNamedParam = true → b.children = []) [] forest :=
    h.mp fun _ _ hb => hb.empty
  have heach : ∀ {α : Type} (piece : Branch → Option α), (∀ b ts, piece { b with children := ts } = piece b) →
      (∀ b, b.kind.isParam = true → piece b = none) →
      each piece forest = each piece (settleAll (names forest) forest forest) :=
    fun piece hpiece hparam => (each_settleAll hpiece hparam hempty (names forest)).symm
  have hselected : ∀ b : Branch, b.kind.isParam = true → b.selectedObject? = none := by
    intro b hk
    refine if_neg fun hs => ?_
    rw [Kind.not_isObject_of_isParam hk] at hs
    cases hs.1
  refine ⟨?_, ?_, ?_, ?_, ?_, ?_, ?_⟩
  · change head forest = head _
    unfold head
    rw [heach Branch.project? (fun _ _ => rfl) fun _ hk => if_neg (Kind.ne_of_isParam hk rfl),
      heach Branch.selectedObject? (fun _ _ => rfl) hselected]
  · exact heach Branch.scene? (fun _ _ => rfl) fun _ hk => if_neg (Kind.ne_of_isParam hk rfl)
  · refine h.forall₂_gatherOf (Q := fun c c' _ => c = c') (fun _ _ hb => hb.empty) ?_ ?_ rfl
    · rintro c _ above b rfl hk
      rw [settled_of_not_named hk]
      rfl
    · rintro c _ above b rfl hb hc
      unfold Branch.object?
      cases hk : b.kind.isObject with
      | true =>
        rw [isObject_settled, hk, if_pos rfl, if_pos rfl]
        exact .some (object_follows hk hc c)
      | false =>
        rw [isObject_settled, hk, if_neg Bool.false_ne_true, if_neg Bool.false_ne_true]
        exact .none
  · have hglobal : ∀ owner (b : Branch), b.kind.isParam = true → Branch.global? owner b = none :=
      fun _ _ hk => if_neg (Kind.ne_of_isParam hk rfl)
    exact (gatherOf_settleAll (fun _ _ _ => rfl) (fun _ _ _ => rfl) hglobal hempty (names forest) .null).symm
  · exact heach Branch.message? (fun _ _ => rfl) fun _ hk => if_neg (Kind.ne_of_isParam hk rfl)
  · refine h.forall₂_gatherOf (Q := fun c _ above => c = namesBelowAll (names forest) above) (fun _ _ hb => hb.empty)
      ?_ ?_ rfl
    · rintro c _ above b rfl hk
      rfl
    · rintro c c' above b rfl hb hc
      unfold Branch.function?
      by_cases hk : b.kind = .function
      · rw [if_pos hk, if_pos ((kind_settled_eq_iff rfl).mpr hk)]
        exact .some (function_follows hk hc)
      · rw [if_neg hk, if_neg fun he => hk ((kind_settled_eq_iff rfl).mp he)]
        exact .none
  · exact heach Branch.table? (fun _ _ => rfl) fun _ hk => by rw [Branch.table?, if_neg (Kind.ne_of_isParam hk rfl)]

end

end SceneTree
