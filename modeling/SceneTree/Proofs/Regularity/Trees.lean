import SceneTree.Proofs.Markup.Acceptance
import SceneTree.Proofs.Node.Build
import SceneTree.Proofs.Regularity.Values

/-!
# Regular trees

What is read from a text is regular throughout: the values that were written, the defaults of nodes, and what nodes
compute from these.
-/

namespace SceneTree

/-- Whether a value is one that fields start from. -/
def Value.isInitial : Value → Bool
  | .null | .bool _ | .str _ | .list [] | .map [] => true
  | .int n => n.natAbs < 100
  | _ => false

/-- Whether a field starts from such a value, if it need not be given. -/
def FieldDefault.isInitial : FieldDefault → Bool
  | .required => true
  | .value v => v.isInitial

theorem Value.regular_of_isInitial {v : Value} (h : v.isInitial = true) : v.Regular := by
  match v with
  | .null => exact .null
  | .bool b => exact .bool b
  | .str s => exact .str s
  | .int n =>
    have hn : n.natAbs < 10 ^ 2 := by simpa [isInitial] using h
    exact .int (Numeral.isShortInteger_iff.mpr (Nat.lt_of_lt_of_le hn
      (Nat.pow_le_pow_right (by decide) (by decide))))
  | .list [] => exact .list (List.forall_mem_nil _)
  | .map [] => exact @Value.Regular.object [] List.nodup_nil (List.forall_mem_nil _)

namespace Node

/-- All the values of a node are regular. -/
def Regular (node : Node) : Prop := ∀ field, (node.get field).Regular

variable {node node' : Node}

/-- The defaults of all kinds are regular. -/
theorem regular_defaultOf (kind : Kind) (field : Field) : (kind.defaultOf field).Regular := by
  have hall : kind.fields.all (fun p => p.2.isInitial) = true := by cases kind <;> decide
  rw [Kind.defaultOf.eq_def]
  split
  · exact .str _
  · exact .str _
  · next v _ _ hlookup =>
    obtain ⟨before, after, heq, -⟩ := List.lookup_eq_some_iff.mp hlookup
    have hv := List.all_eq_true.mp hall _ (heq ▸ List.mem_append_right before List.mem_cons_self)
    exact Value.regular_of_isInitial hv
  · exact .null

theorem Regular.set (h : node.Regular) (field : Field) {v : Value} (hv : v.Regular) : (node.set field v).Regular := by
  intro f
  by_cases hf : f = field
  · rw [hf, get_set_self]
    exact hv
  · rw [get_set_of_ne node v hf]
    exact h f

theorem Regular.setDefault (h : node.Regular) (field : Field) {v : Value} (hv : v.Regular) :
    (node.setDefault field v).Regular := by
  rw [Node.setDefault]
  split
  · exact h.set field hv
  · exact h

theorem Regular.withHalf (h : node.Regular) {field whole : Field} (hn : node.withHalf field whole = .ok node') :
    node'.Regular := by
  rw [Node.withHalf] at hn
  split at hn
  · obtain ⟨v, hv, hn⟩ := Outcome.bind_eq_ok_iff.mp hn
    cases hn
    exact h.set field ((h whole).half hv)
  · cases hn
    exact h

theorem Regular.withTextBoxDefaults (h : node.Regular) (hn : node.withTextBoxDefaults = .ok node') :
    node'.Regular := by
  have hlast {node : Node} (h : node.Regular) :
      ((((((node.setDefault .colour (.str "#000000")).setDefault .textAlign (.int 0)).setDefault .lineBreak
        (.bool false)).setDefault .bgColor (.str "#ffffff")).setDefault .underLine (.bool false)).setDefault .strike
        (.bool false)).Regular :=
    (((((h.setDefault _ (.str _)).setDefault _ (Value.regular_of_isInitial rfl)).setDefault _ (.bool _)).setDefault _
      (.str _)).setDefault _ (.bool _)).setDefault _ (.bool _)
  have hfirst : ((node.setDefault .text (.str defaultText)).setDefault .fontSize defaultFontSize).Regular :=
    (h.setDefault _ (.str _)).setDefault _ (Value.regular_of_isInitial rfl)
  rw [Node.withTextBoxDefaults] at hn
  simp only at hn
  split at hn
  · obtain ⟨size, -, hn⟩ := Outcome.bind_eq_ok_iff.mp hn
    cases hn
    exact hlast (hfirst.set _ (.str _))
  · cases hn
    exact hlast hfirst

/-- What a node of regular values computes is regular. -/
theorem Regular.complete (h : node.Regular) (hn : node.complete = .ok node') : node'.Regular := by
  have hobject (hn : node.completeObject = .ok node') : node'.Regular := by
    rw [completeObject_eq] at hn
    split at hn
    · cases hn
    · split at hn
      · cases hn
      · obtain ⟨node₁, h₁, hn⟩ := Outcome.bind_eq_ok_iff.mp hn
        obtain ⟨node₂, h₂, hn⟩ := Outcome.bind_eq_ok_iff.mp hn
        have h₂ := (h.withHalf h₁).withHalf h₂
        split at hn
        · exact h₂.withTextBoxDefaults hn
        · cases hn
          exact h₂
  rw [Node.complete] at hn
  split at hn
  · exact hobject hn
  · exact hobject hn
  · exact hobject hn
  · rw [completePicture] at hn
    have hthumb := h.setDefault .thumbUrl (h .fileurl)
    split at hn
    · obtain ⟨found, -, hn⟩ := Outcome.bind_eq_ok_iff.mp hn
      cases hn
      exact hthumb.set _ (.str _)
    · cases hn
      exact hthumb
  · rw [completeSound] at hn
    split at hn
    · obtain ⟨found, -, hn⟩ := Outcome.bind_eq_ok_iff.mp hn
      cases hn
      exact h.set _ (.str _)
    · cases hn
      exact h
  · rw [completeFunction] at hn
    split at hn
    · cases hn
      exact h
    · cases hn
  · cases hn
    exact h

/-- A node that is built of regular values is regular. -/
theorem regular_of_build {kind : Kind} {given : List (Field × Value)} (hg : ∀ p ∈ given, p.2.Regular)
    (h : build kind given = .ok node) : node.Regular := by
  rw [build] at h
  split at h
  · cases h
  · split at h
    · cases h
    · refine Regular.complete (fun field => ?_) h
      change ((given.lookup field).getD (kind.defaultOf field)).Regular
      cases hl : given.lookup field with
      | none => exact regular_defaultOf kind field
      | some v =>
        obtain ⟨before, after, rfl, -⟩ := List.lookup_eq_some_iff.mp hl
        exact hg (field, v) (by simp)

end Node

namespace Tree

variable {ι : Type}

mutual

/-- All values in a tree are regular. -/
def Regular : Tree ι → Prop
  | .node _ data children => data.Regular ∧ AllRegular children
  | .literal v => v.Regular

/-- All values in some trees are regular. -/
def AllRegular : List (Tree ι) → Prop
  | [] => True
  | t :: rest => Regular t ∧ AllRegular rest

end

end Tree

namespace Markup

/-- What a number denotes is regular. -/
theorem regular_of_numberValue {text : String} {v : Value} (h : numberValue text = .ok v) : v.Regular := by
  rw [numberValue] at h
  split at h
  · split at h
    · next hx =>
      cases h
      exact .float (Numeral.bounded_of_readDecimal? hx)
    · cases h
  · split at h
    · next hn =>
      cases h
      exact .int (Numeral.isShortInteger_of_readInteger hn)
    · cases h

/-- The map of some entries is regular if their values are. -/
theorem regular_mapOf {pairs : List (String × Value)} (h : ∀ p ∈ pairs, p.2.Regular) : (mapOf pairs).Regular := by
  have hmap : mapOf pairs = Value.object ((pairs.map (·.1)).eraseDups.map fun key =>
      (key, (pairs.reverse.lookup key).getD .null)) := by
    rw [mapOf, Value.object, List.map_map]
    rfl
  rw [hmap]
  refine .object ?_ fun p hp => ?_
  · rw [List.map_map]
    exact (List.map_id _).symm ▸ nodup_eraseDups _
  · obtain ⟨key, -, rfl⟩ := List.mem_map.mp hp
    cases hl : pairs.reverse.lookup key with
    | none => exact .null
    | some v =>
      obtain ⟨before, after, heq, -⟩ := List.lookup_eq_some_iff.mp hl
      exact h (key, v) (List.mem_reverse.mp (by simp [heq]))

mutual

/-- What derives from the rule of values denotes a regular value. -/
theorem IsValue.regular {ts : List Token} {v : Value} (h : IsValue ts v) : v.Regular := by
  match h with
  | .string _ => exact .str _
  | .number _ hv => exact regular_of_numberValue hv
  | @IsValue.keyword t _ =>
    rw [keywordValue]
    split
    · exact .bool _
    · split
      · exact .bool _
      · exact .null
  | .list _ _ hi _ => exact .list hi.regular
  | .map _ _ hi _ => exact regular_mapOf hi.regular

theorem IsItems.regular {ts : List Token} {vs : List Value} (h : IsItems ts vs) : ∀ v ∈ vs, v.Regular := by
  match h with
  | .none => exact List.forall_mem_nil _
  | .some hv _ hr => exact List.forall_mem_cons.mpr ⟨hv.regular, hr.regular⟩

theorem IsMoreItems.regular {ts : List Token} {vs : List Value} (h : IsMoreItems ts vs) : ∀ v ∈ vs, v.Regular := by
  match h with
  | .none => exact List.forall_mem_nil _
  | .comma _ _ => exact List.forall_mem_nil _
  | .more _ _ hv _ hr => exact List.forall_mem_cons.mpr ⟨hv.regular, hr.regular⟩

theorem IsEntries.regular {ts : List Token} {pairs : List (String × Value)} (h : IsEntries ts pairs) :
    ∀ p ∈ pairs, p.2.Regular := by
  match h with
  | .none => exact List.forall_mem_nil _
  | .some _ _ hv _ hr => exact List.forall_mem_cons.mpr ⟨hv.regular, hr.regular⟩

theorem IsMoreEntries.regular {ts : List Token} {pairs : List (String × Value)} (h : IsMoreEntries ts pairs) :
    ∀ p ∈ pairs, p.2.Regular := by
  match h with
  | .none => exact List.forall_mem_nil _
  | .comma _ _ => exact List.forall_mem_nil _
  | .more _ _ _ _ hv _ hr => exact List.forall_mem_cons.mpr ⟨hv.regular, hr.regular⟩

end

/-- Attributes give regular values. -/
theorem IsAttributes.regular {kind : Kind} {ts : List Token} {given : List (Field × Value)}
    (h : IsAttributes kind ts given) : ∀ p ∈ given, p.2.Regular := by
  induction h with
  | none => exact List.forall_mem_nil _
  | bare _ _ _ _ ih => exact List.forall_mem_cons.mpr ⟨.bool _, ih⟩
  | valued _ _ _ _ hv _ ih => exact List.forall_mem_cons.mpr ⟨hv.regular, ih⟩

theorem IsHeader.regular {ts : List Token} {node : Node} (h : IsHeader ts node) : node.Regular := by
  obtain ⟨_, _, ha, _, hb⟩ := h
  exact Node.regular_of_build ha.regular hb

mutual

/-- What derives from the rule of nodes is a regular tree. -/
theorem IsNode.regular {ts : List Token} {tree : Tree Unit} (h : IsNode ts tree) : tree.Regular := by
  match h with
  | .bare hh => exact ⟨hh.regular, trivial⟩
  | .block hh hb => exact ⟨hh.regular, hb.regular⟩

theorem IsBody.regular {ts : List Token} {children : List (Tree Unit)} (h : IsBody ts children) :
    Tree.AllRegular children := by
  match h with
  | .block _ _ hi _ => exact hi.regular

theorem IsChildren.regular {ts : List Token} {children : List (Tree Unit)} (h : IsChildren ts children) :
    Tree.AllRegular children := by
  match h with
  | .none => trivial
  | .some hi hr _ => exact ⟨hi.regular, hr.regular⟩

theorem IsItem.regular {ts : List Token} {tree : Tree Unit} (h : IsItem ts tree) : tree.Regular := by
  match h with
  | .node hn => exact hn.regular
  | .value hv => exact hv.regular

theorem IsMoreChildren.regular {ts : List Token} {children : List (Tree Unit)} (h : IsMoreChildren ts children) :
    Tree.AllRegular children := by
  match h with
  | .none => trivial
  | .more _ _ hi hr => exact ⟨hi.regular, hr.regular⟩

end

/-- The tree that a text describes is regular. -/
theorem regular_of_read {text : String} {tree : Tree Unit} (h : read text = .ok tree) : tree.Regular := by
  obtain ⟨_, hn⟩ := isNode_of_read h
  exact hn.regular

end Markup

namespace Tree

variable {ι : Type}

mutual

/-- Numbers on the nodes of a regular tree leave it regular. -/
theorem Regular.numbered : {tree : Tree Unit} → tree.Regular → ∀ next, (tree.numbered next).1.Regular
  | .node _ _ _, h, next => ⟨h.1, AllRegular.numbered h.2 (next + 1)⟩
  | .literal _, h, _ => h

theorem AllRegular.numbered : {forest : List (Tree Unit)} → AllRegular forest →
    ∀ next, AllRegular (allNumbered next forest).1
  | [], _, _ => trivial
  | _ :: _, h, next => ⟨Regular.numbered h.1 next, AllRegular.numbered h.2 _⟩

end

mutual

/-- The nodes of a regular tree are regular. -/
theorem Regular.of_mem_nodes : {tree : Tree ι} → tree.Regular → ∀ n ∈ tree.nodes, n.2.Regular
  | .node _ _ _, h => by
    rw [nodes]
    exact List.forall_mem_cons.mpr ⟨h.1, AllRegular.of_mem_nodesOf h.2⟩
  | .literal _, _ => by
    rw [nodes]
    exact List.forall_mem_nil _

theorem AllRegular.of_mem_nodesOf : {forest : List (Tree ι)} → AllRegular forest → ∀ n ∈ nodesOf forest, n.2.Regular
  | [], _ => by
    rw [nodesOf]
    exact List.forall_mem_nil _
  | _ :: _, h => by
    rw [nodesOf]
    exact List.forall_mem_append.mpr ⟨Regular.of_mem_nodes h.1, AllRegular.of_mem_nodesOf h.2⟩

end

mutual

/-- Numbers on nodes leave what is on the nodes. -/
theorem nodes_numbered (next : Nat) : (tree : Tree Unit) →
    (tree.numbered next).1.nodes.map (·.2) = tree.nodes.map (·.2)
  | .node _ _ children => by
    rw [Tree.numbered, nodes, nodes, List.map_cons, List.map_cons, nodesOf_allNumbered]
  | .literal _ => rfl

theorem nodesOf_allNumbered (next : Nat) : (forest : List (Tree Unit)) →
    (nodesOf (allNumbered next forest).1).map (·.2) = (nodesOf forest).map (·.2)
  | [] => rfl
  | t :: rest => by
    rw [allNumbered, nodesOf, nodesOf, List.map_append, List.map_append, nodes_numbered, nodesOf_allNumbered]

end

/-- A node of a numbered tree is one of the tree, but for its number. -/
theorem exists_of_mem_numbered {next : Nat} {tree : Tree Unit} {n : Nat × Node}
    (h : n ∈ (tree.numbered next).1.nodes) : ∃ n' ∈ tree.nodes, n'.2 = n.2 := by
  rw [← List.mem_map, ← nodes_numbered next]
  exact List.mem_map_of_mem h

mutual

/-- All values in a regular tree are given. -/
theorem Regular.given : {tree : Tree ι} → tree.Regular → tree.Given
  | .node _ _ _, h => by
    rw [Given]
    exact ⟨fun field => Value.isGiven_of_isJson _ (h.1 field).isJson, AllRegular.given h.2⟩
  | .literal _, h => by
    rw [Given]
    exact Value.isGiven_of_isJson _ (Value.Regular.isJson h)

theorem AllRegular.given : {forest : List (Tree ι)} → AllRegular forest → AllGiven forest
  | [], _ => by
    rw [AllGiven]
    trivial
  | _ :: _, h => by
    rw [AllGiven]
    exact ⟨Regular.given h.1, AllRegular.given h.2⟩

end

mutual

/-- The nodes of a tree are numbered one after the other. -/
theorem marks_numbered (next : Nat) : (tree : Tree Unit) →
    (tree.numbered next).1.nodes.map (·.1) = List.range' next tree.nodes.length ∧
      (tree.numbered next).2 = next + tree.nodes.length
  | .node _ _ children => by
    obtain ⟨hmarks, hafter⟩ := marks_allNumbered (next + 1) children
    rw [Tree.numbered, nodes, nodes, List.map_cons, hmarks, List.length_cons, List.range'_succ, hafter]
    exact ⟨rfl, by omega⟩
  | .literal _ => by
    rw [Tree.numbered, nodes, nodes]
    exact ⟨rfl, rfl⟩

theorem marks_allNumbered (next : Nat) : (forest : List (Tree Unit)) →
    (nodesOf (allNumbered next forest).1).map (·.1) = List.range' next (nodesOf forest).length ∧
      (allNumbered next forest).2 = next + (nodesOf forest).length
  | [] => by
    rw [allNumbered, nodesOf, nodesOf]
    exact ⟨rfl, rfl⟩
  | t :: rest => by
    obtain ⟨hmarks, hafter⟩ := marks_numbered next t
    obtain ⟨hmarks', hafter'⟩ := marks_allNumbered (t.numbered next).2 rest
    rw [allNumbered, nodesOf, nodesOf, List.map_append, List.length_append, hmarks, hmarks', hafter', hafter]
    refine ⟨?_, by omega⟩
    rw [List.range'_append_1]

end

/-- No two nodes of a numbered tree have the same number. -/
theorem nodup_marks_numbered (next : Nat) (tree : Tree Unit) : ((tree.numbered next).1.nodes.map (·.1)).Nodup := by
  rw [(marks_numbered next tree).1]
  exact List.nodup_range'

end Tree

end SceneTree
