import Mathlib.Data.List.Nodup
import SceneTree.Proofs.Markup.Completeness
import SceneTree.Proofs.Markup.Names

/-!
# Written trees are read back

What is written for a part is scanned into tokens that derive from the rule of that part and denote it. With what the
parser makes of derived tokens, every tree that can be written is read back from its text.
-/

namespace SceneTree.Markup

theorem apart_moreItems (vs : List Value) (rest : List Char) : Apart (writtenMoreItems vs ++ rest) := by
  cases vs with
  | nil => exact apart_of_sign .closeBracket _
  | cons v vs => exact apart_of_sign .comma _

theorem apart_moreEntries (entries : List (Value × Value)) (rest : List Char) :
    Apart (writtenMoreEntries entries ++ rest) := by
  cases entries with
  | nil => exact apart_of_sign .closeBrace _
  | cons entry entries => exact apart_of_sign .comma _

theorem newlines_nil : Newlines [] := fun _ h => absurd h List.not_mem_nil

/-- Some tokens with a property, and then a sign. -/
def Ended (P : List Token → Prop) (sign : Sign) (tokens : List Token) : Prop :=
  ∃ ts c, tokens = ts ++ [c] ∧ c.kind = .sign sign ∧ P ts

/-- A key that is not there yet goes to the end. -/
theorem put_keyed {pairs : List (String × Value)} {key : String} (h : key ∉ pairs.map (·.1)) (v : Value) :
    Entries.put (keyed pairs) (.str key) v = keyed (pairs ++ [(key, v)]) := by
  induction pairs with
  | nil => rfl
  | cons pair pairs ih =>
    obtain ⟨hne, hnot⟩ := List.ne_and_not_mem_of_not_mem_cons h
    rw [keyed, List.map_cons, Entries.put, if_neg (by simpa [Value.same] using hne.symm)]
    exact congrArg _ (ih hnot)

/-- A map whose keys are different texts is the map of its entries. -/
theorem mapOf_of_nodup {pairs : List (String × Value)} (h : (pairs.map (·.1)).Nodup) :
    mapOf pairs = .map (keyed pairs) := by
  rw [← map_ofPairs_keyed]
  congr 1
  induction pairs using List.reverseRecOn with
  | nil => rfl
  | append_singleton pairs pair ih =>
    obtain ⟨key, v⟩ := pair
    rw [List.map_append, List.nodup_append] at h
    have hput : Entries.ofPairs (keyed (pairs ++ [(key, v)])) = (Entries.ofPairs (keyed pairs)).put (.str key) v := by
      simp [Entries.ofPairs, keyed]
    rw [hput, ih h.1, put_keyed]
    exact fun hmem => h.2.2 key hmem key (by simp) rfl

/-- Some tokens derive from the rule of entries, which are those of a map. -/
def EntriesOf (rule : List Token → List (String × Value) → Prop) (entries : List (Value × Value)) (ts : List Token) :
    Prop :=
  ∃ pairs, entries = keyed pairs ∧ rule ts pairs

mutual

/-- A written value is scanned into tokens that derive from the rule of values and denote it. -/
theorem scans_written (v : Value) (hv : IsWritable v) {rest : List Char} {Q : List Token → Prop} (hrest : Apart rest)
    (h : Scans rest Q) : Scans (written v ++ rest) (Then (IsValue · v) Q) := by
  match v, hv with
  | .null, _ =>
    refine (scans_word ['n', 'u', 'l', 'l'] (by decide) hrest h).imp ?_
    rintro _ ⟨_, b, rfl, ⟨t, rfl, hk, ht⟩, hq⟩
    have hvalue := IsValue.keyword hk
    rw [ht] at hvalue
    exact ⟨_, b, rfl, hvalue, hq⟩
  | .bool true, _ =>
    refine (scans_word ['t', 'r', 'u', 'e'] (by decide) hrest h).imp ?_
    rintro _ ⟨_, b, rfl, ⟨t, rfl, hk, ht⟩, hq⟩
    have hvalue := IsValue.keyword hk
    rw [ht] at hvalue
    exact ⟨_, b, rfl, hvalue, hq⟩
  | .bool false, _ =>
    refine (scans_word ['f', 'a', 'l', 's', 'e'] (by decide) hrest h).imp ?_
    rintro _ ⟨_, b, rfl, ⟨t, rfl, hk, ht⟩, hq⟩
    have hvalue := IsValue.keyword hk
    rw [ht] at hvalue
    exact ⟨_, b, rfl, hvalue, hq⟩
  | .int n, hv =>
    refine (scans_integer n hrest h).imp ?_
    rintro _ ⟨_, b, rfl, ⟨t, rfl, hk, ht⟩, hq⟩
    exact ⟨_, b, rfl, .number hk (ht ▸ numberValue_writtenInteger hv), hq⟩
  | .str s, _ =>
    refine (scans_text s h).imp ?_
    rintro _ ⟨_, b, rfl, ⟨t, rfl, hk, rfl⟩, hq⟩
    exact ⟨_, b, rfl, .string hk, hq⟩
  | .list items, hv =>
    refine (scans_sign .openBracket (scans_items items hv h)).imp ?_
    rintro _ ⟨_, _, rfl, ⟨o, rfl, ho, -⟩, _, b, rfl, ⟨ts, c, rfl, hc, hi⟩, hq⟩
    exact ⟨_, b, by simp, .list ho newlines_nil hi hc, hq⟩
  | .map entries, ⟨hd, hv⟩ =>
    refine (scans_sign .openBrace (scans_entries entries hv h)).imp ?_
    rintro _ ⟨_, _, rfl, ⟨o, rfl, ho, -⟩, _, b, rfl, ⟨ts, c, rfl, hc, pairs, rfl, hi⟩, hq⟩
    have hkeys : (keyed pairs).map (·.1) = (pairs.map (·.1)).map Value.str := by simp [keyed, Function.comp_def]
    have hnodup : (pairs.map (·.1)).Nodup := List.Nodup.of_map Value.str (hkeys ▸ hd)
    rw [← mapOf_of_nodup hnodup]
    exact ⟨_, b, by simp, .map ho newlines_nil hi hc, hq⟩

/-- The written items of a list are scanned into tokens that derive from their rule, and a closing bracket. -/
theorem scans_items (vs : List Value) (hvs : AreWritable vs) {rest : List Char} {Q : List Token → Prop}
    (h : Scans rest Q) : Scans (writtenItems vs ++ rest) (Then (Ended (IsItems · vs) .closeBracket) Q) := by
  match vs, hvs with
  | [], _ =>
    refine (scans_sign .closeBracket h).imp ?_
    rintro _ ⟨_, b, rfl, ⟨c, rfl, hc, -⟩, hq⟩
    exact ⟨_, b, rfl, ⟨[], c, rfl, hc, .none⟩, hq⟩
  | v :: vs, ⟨hv, hvs⟩ =>
    rw [writtenItems, List.append_assoc]
    refine (scans_written v hv (apart_moreItems vs rest) (scans_moreItems vs hvs h)).imp ?_
    rintro _ ⟨ts, _, rfl, hvalue, _, b, rfl, ⟨ts', c, rfl, hc, hi⟩, hq⟩
    exact ⟨_, b, by simp, ⟨_, c, rfl, hc, .some hvalue newlines_nil hi⟩, hq⟩

theorem scans_moreItems (vs : List Value) (hvs : AreWritable vs) {rest : List Char} {Q : List Token → Prop}
    (h : Scans rest Q) : Scans (writtenMoreItems vs ++ rest) (Then (Ended (IsMoreItems · vs) .closeBracket) Q) := by
  match vs, hvs with
  | [], _ =>
    refine (scans_sign .closeBracket h).imp ?_
    rintro _ ⟨_, b, rfl, ⟨c, rfl, hc, -⟩, hq⟩
    exact ⟨_, b, rfl, ⟨[], c, rfl, hc, .none⟩, hq⟩
  | v :: vs, ⟨hv, hvs⟩ =>
    rw [writtenMoreItems, List.cons_append, List.cons_append, List.append_assoc]
    refine (scans_sign .comma (scans_blank
      (scans_written v hv (apart_moreItems vs rest) (scans_moreItems vs hvs h)))).imp ?_
    rintro _ ⟨_, _, rfl, ⟨s, rfl, hs, -⟩, ts, _, rfl, hvalue, _, b, rfl, ⟨ts', c, rfl, hc, hi⟩, hq⟩
    exact ⟨_, b, by simp, ⟨_, c, rfl, hc, .more hs newlines_nil hvalue newlines_nil hi⟩, hq⟩

/-- The written entries of a map are scanned into tokens that derive from their rule, and a closing brace. -/
theorem scans_entries (entries : List (Value × Value)) (hv : EntriesAreWritable entries) {rest : List Char}
    {Q : List Token → Prop} (h : Scans rest Q) :
    Scans (writtenEntries entries ++ rest) (Then (Ended (EntriesOf IsEntries entries) .closeBrace) Q) := by
  match entries, hv with
  | [], _ =>
    refine (scans_sign .closeBrace h).imp ?_
    rintro _ ⟨_, b, rfl, ⟨c, rfl, hc, -⟩, hq⟩
    exact ⟨_, b, rfl, ⟨[], c, rfl, hc, [], rfl, .none⟩, hq⟩
  | (.str s, v) :: entries, ⟨hv, hentries⟩ =>
    rw [writtenEntries, written, List.append_assoc, List.cons_append, List.cons_append, List.append_assoc]
    refine (scans_text s (scans_sign .colon (scans_blank
      (scans_written v hv (apart_moreEntries entries rest) (scans_moreEntries entries hentries h))))).imp ?_
    rintro _ ⟨_, _, rfl, ⟨k, rfl, hk, rfl⟩, _, _, rfl, ⟨m, rfl, hm, -⟩, ts, _, rfl, hvalue, _, b, rfl,
      ⟨ts', c, rfl, hc, pairs, rfl, hi⟩, hq⟩
    exact ⟨_, b, by simp, ⟨_, c, rfl, hc, _, rfl, .some (.inr hk) hm hvalue newlines_nil hi⟩, hq⟩

theorem scans_moreEntries (entries : List (Value × Value)) (hv : EntriesAreWritable entries) {rest : List Char}
    {Q : List Token → Prop} (h : Scans rest Q) :
    Scans (writtenMoreEntries entries ++ rest) (Then (Ended (EntriesOf IsMoreEntries entries) .closeBrace) Q) := by
  match entries, hv with
  | [], _ =>
    refine (scans_sign .closeBrace h).imp ?_
    rintro _ ⟨_, b, rfl, ⟨c, rfl, hc, -⟩, hq⟩
    exact ⟨_, b, rfl, ⟨[], c, rfl, hc, [], rfl, .none⟩, hq⟩
  | (.str s, v) :: entries, ⟨hv, hentries⟩ =>
    rw [writtenMoreEntries, written, List.cons_append, List.cons_append, List.append_assoc, List.cons_append,
      List.cons_append, List.append_assoc]
    refine (scans_sign .comma (scans_blank (scans_text s (scans_sign .colon (scans_blank
      (scans_written v hv (apart_moreEntries entries rest) (scans_moreEntries entries hentries h))))))).imp ?_
    rintro _ ⟨_, _, rfl, ⟨s', rfl, hs, -⟩, _, _, rfl, ⟨k, rfl, hk, rfl⟩, _, _, rfl, ⟨m, rfl, hm, -⟩, ts, _, rfl, hvalue,
      _, b, rfl, ⟨ts', c, rfl, hc, pairs, rfl, hi⟩, hq⟩
    exact ⟨_, b, by simp, ⟨_, c, rfl, hc, _, rfl, .more hs newlines_nil (.inr hk) hm hvalue newlines_nil hi⟩, hq⟩

end

theorem apart_attributes (spelling : Spelling) (given : List (Field × Value)) {rest : List Char} (h : Apart rest) :
    Apart (writtenAttributes spelling given ++ rest) := by
  cases given with
  | nil => exact h
  | cons pair given => exact apart_blank _

theorem apart_block (spelling : Spelling) (children : List (Tree (List (Field × Value)))) {rest : List Char}
    (h : Apart rest) : Apart (writtenBlock spelling children ++ rest) := by
  cases children with
  | nil => exact h
  | cons child children => exact apart_blank _

theorem apart_children (spelling : Spelling) (children : List (Tree (List (Field × Value)))) (rest : List Char) :
    Apart (writtenChildren spelling children ++ rest) := by
  cases children with
  | nil => exact apart_newline _
  | cons child children => exact apart_newline _

/-- Written attributes are scanned into tokens that derive from their rule. -/
theorem scans_attributes (spelling : Spelling) {kind : Kind} (given : List (Field × Value))
    (hh : ∀ pair ∈ given, kind.hasField pair.1 = true) (hw : ∀ pair ∈ given, IsWritable pair.2) {rest : List Char}
    {Q : List Token → Prop} (hrest : Apart rest) (h : Scans rest Q) :
    Scans (writtenAttributes spelling given ++ rest) (Then (IsAttributes kind · given) Q) := by
  induction given with
  | nil => exact h.imp fun ts hq => ⟨[], ts, rfl, .none, hq⟩
  | cons pair given ih =>
    obtain ⟨field, v⟩ := pair
    obtain ⟨hword, hkeyword, -⟩ := nameOf_facts spelling field
    rw [writtenAttributes, List.cons_append, List.append_assoc, List.cons_append, List.append_assoc]
    have hmore := ih (fun pair hp => hh pair (List.mem_cons_of_mem _ hp)) fun pair hp =>
      hw pair (List.mem_cons_of_mem _ hp)
    refine (scans_blank (scans_word _ hword (apart_of_sign .equals _) (scans_sign .equals
      (scans_written v (hw (field, v) List.mem_cons_self) (apart_attributes spelling given hrest) hmore)))).imp ?_
    rintro _ ⟨_, _, rfl, ⟨t, rfl, hk, ht⟩, _, _, rfl, ⟨e, rfl, he, -⟩, ts, _, rfl, hvalue, ts', b, rfl, hattributes, hq⟩
    rw [hkeyword] at hk
    have hfield : attributeField? t.text = some field := ht ▸ attributeField?_nameOf spelling field
    exact ⟨_, b, by simp, .valued hk hfield (hh (field, v) List.mem_cons_self) he hvalue hattributes, hq⟩

/-- Nothing, where there are no children, or else what derives from the rule of blocks. -/
def IsBlock (children : List (Tree Unit)) (ts : List Token) : Prop := ts = [] ∧ children = [] ∨ IsBody ts children

/-- What ends a block: further items, newlines and a closing brace. -/
def IsBlockEnd (children : List (Tree Unit)) (ts : List Token) : Prop :=
  ∃ more ns c, ts = more ++ (ns ++ [c]) ∧ IsMoreChildren more children ∧ Newlines ns ∧ c.kind = .sign .closeBrace

/-- A node can be made of the values given on it only if its kind has their fields. -/
theorem hasField_of_build {kind : Kind} {given : List (Field × Value)} {node : Node}
    (h : Node.build kind given = .ok node) : ∀ pair ∈ given, kind.hasField pair.1 = true := by
  rw [Node.build] at h
  split at h
  · cases h
  · next hall =>
    intro pair hp
    have := List.any_eq_false.mp (Bool.not_eq_true _ ▸ hall) pair hp
    simpa using this

/-- A written node is scanned into tokens that derive from the rule of nodes, if its block is one of blocks. -/
theorem scans_node (spelling : Spelling) {given : List (Field × Value)} {node : Node}
    {children : List (Tree (List (Field × Value)))} (h : TreeIsWritable (.node given node children)) {rest : List Char}
    {Q : List Token → Prop} (hrest : Apart rest)
    (hblock : Scans (writtenBlock spelling children ++ rest) (Then (IsBlock (allUnmarked children)) Q)) :
    Scans (writtenTree spelling (.node given node children) ++ rest)
      (Then (IsNode · (unmarked (.node given node children))) Q) := by
  obtain ⟨hkind, hd, hw, hbuild, -⟩ := h
  obtain ⟨hword, hkeyword, hofWord⟩ := name_facts hkind
  have hapart := apart_block spelling children hrest
  rw [writtenTree, List.append_assoc, List.append_assoc]
  refine (scans_word _ hword (apart_attributes spelling given hapart)
    (scans_attributes spelling given (hasField_of_build hbuild) hw hapart hblock)).imp ?_
  rintro _ ⟨_, _, rfl, ⟨t, rfl, hk, ht⟩, ts, _, rfl, hattributes, bs, b, rfl, hbody, hq⟩
  rw [String.ofList_toList] at hk ht
  rw [hkeyword] at hk
  have hheader : IsHeader (t :: ts) node := .header hk (ht ▸ hofWord) hattributes hd hbuild
  rcases hbody with ⟨rfl, hnil⟩ | hbody
  · refine ⟨t :: ts, b, by simp, ?_, hq⟩
    rw [unmarked, hnil]
    exact .bare hheader
  · exact ⟨t :: ts ++ bs, b, by simp, .block hheader hbody, hq⟩

mutual

/-- A written tree is scanned into tokens that derive from the rule of items. -/
theorem scans_item (spelling : Spelling) (tree : Tree (List (Field × Value))) (hw : TreeIsWritable tree)
    {rest : List Char} {Q : List Token → Prop} (hrest : Apart rest) (h : Scans rest Q) :
    Scans (writtenTree spelling tree ++ rest) (Then (IsItem · (unmarked tree)) Q) := by
  match tree, hw with
  | .node given node children, hw =>
    refine (scans_node spelling hw hrest (scans_block spelling children hw.2.2.2.2 h)).imp ?_
    rintro _ ⟨ts, b, rfl, hnode, hq⟩
    exact ⟨ts, b, rfl, .node hnode, hq⟩
  | .literal v, hw =>
    refine (scans_written v hw hrest h).imp ?_
    rintro _ ⟨ts, b, rfl, hvalue, hq⟩
    exact ⟨ts, b, rfl, .value hvalue, hq⟩

/-- A written block is scanned into tokens that derive from the rule of blocks. -/
theorem scans_block (spelling : Spelling) (children : List (Tree (List (Field × Value))))
    (hw : TreesAreWritable children) {rest : List Char} {Q : List Token → Prop} (h : Scans rest Q) :
    Scans (writtenBlock spelling children ++ rest) (Then (IsBlock (allUnmarked children)) Q) := by
  match children, hw with
  | [], _ => exact h.imp fun ts hq => ⟨[], ts, rfl, .inl ⟨rfl, rfl⟩, hq⟩
  | child :: children, ⟨hchild, hchildren⟩ =>
    rw [writtenBlock, List.cons_append, List.cons_append, List.cons_append, List.append_assoc]
    refine (scans_blank (scans_sign .openBrace (scans_newline (scans_item spelling child hchild
      (apart_children spelling children rest) (scans_children spelling children hchildren h))))).imp ?_
    rintro _ ⟨_, _, rfl, ⟨o, rfl, ho, -⟩, _, _, rfl, ⟨n, rfl, hn, -⟩, ts, _, rfl, hitem, _, b, rfl,
      ⟨more, ns, c, rfl, hmore, hns, hc⟩, hq⟩
    have hnewline : Newlines [n] := fun t ht => by rw [List.mem_singleton.mp ht, hn]
    exact ⟨_, b, by simp, .inr (.block ho hnewline (.some hitem hmore hns) hc), hq⟩

/-- Further written children are scanned into tokens that derive from their rule, a newline and a closing brace. -/
theorem scans_children (spelling : Spelling) (children : List (Tree (List (Field × Value))))
    (hw : TreesAreWritable children) {rest : List Char} {Q : List Token → Prop} (h : Scans rest Q) :
    Scans (writtenChildren spelling children ++ rest) (Then (IsBlockEnd (allUnmarked children)) Q) := by
  match children, hw with
  | [], _ =>
    refine (scans_newline (scans_sign .closeBrace h)).imp ?_
    rintro _ ⟨_, _, rfl, ⟨n, rfl, hn, -⟩, _, b, rfl, ⟨c, rfl, hc, -⟩, hq⟩
    exact ⟨[n, c], b, rfl, ⟨[], [n], c, rfl, .none, fun t ht => by rw [List.mem_singleton.mp ht, hn], hc⟩, hq⟩
  | child :: children, ⟨hchild, hchildren⟩ =>
    rw [writtenChildren, List.cons_append, List.append_assoc]
    refine (scans_newline (scans_item spelling child hchild (apart_children spelling children rest)
      (scans_children spelling children hchildren h))).imp ?_
    rintro _ ⟨_, _, rfl, ⟨n, rfl, hn, -⟩, ts, _, rfl, hitem, _, b, rfl, ⟨more, ns, c, rfl, hmore, hns, hc⟩, hq⟩
    exact ⟨_, b, by simp, ⟨_, ns, c, rfl, .more hn newlines_nil hitem hmore, hns, hc⟩, hq⟩

end

theorem scans_nil : Scans [] fun ts => ∃ e : Token, ts = [e] ∧ e.kind = .ending := by
  intro position
  exact ⟨_, by rw [scanFrom], _, rfl, rfl⟩

/-- A text whose tokens derive from the rule of nodes up to the end is read as what they derive. -/
theorem read_of_scans {text : List Char} {tree : Tree Unit}
    (h : Scans text (Then (IsNode · tree) fun ts => ∃ e : Token, ts = [e] ∧ e.kind = .ending)) :
    read (String.ofList text) = .ok tree := by
  obtain ⟨tokens, hscan, ts, _, rfl, hnode, e, rfl, he⟩ := h .start
  have hdocument : IsDocument (ts ++ [e]) tree :=
    @IsDocument.document [] ts [] e _ newlines_nil hnode newlines_nil he
  rw [read, scan, String.toList_ofList, hscan]
  simp only [parse_of_isDocument hdocument]
  rfl

/-- A node that can be written, with everything below it, is read back from its text in both spellings of the attribute
names: the nodes are of the same kinds and have the same values, given or not, and the children stand in their order. -/
theorem read_print (spelling : Spelling) (given : List (Field × Value)) (node : Node)
    (children : List (Tree (List (Field × Value)))) (h : TreeIsWritable (.node given node children)) :
    read (print spelling (.node given node children)) = .ok (unmarked (.node given node children)) := by
  have hscans := scans_node spelling h apart_nil (scans_block spelling children h.2.2.2.2 scans_nil)
  rw [List.append_nil] at hscans
  exact read_of_scans hscans

/-- What is given on a variable with a cloud date: a name with a quote, a backslash, a line break and signs, and a map.
-/
def cloudVariableGiven : List (Field × Value) :=
  [(.name, .str "a \" \\ \n \ufeff # \x7b"), (.isCloud, .bool true),
    (.value, .map [(.str "k", .list [.int (-12), .null]), (.str "", .str "")])]

/-- A variable with a literal below it. -/
def cloudVariable : Tree (List (Field × Value)) :=
  .node cloudVariableGiven
    ⟨.variable, fun field => (cloudVariableGiven.lookup field).getD (Kind.variable.defaultOf field)⟩ [.literal (.int 7)]

theorem read_print_cloudVariable :
    TreeIsWritable cloudVariable ∧ read (print .capitals cloudVariable) = .ok (unmarked cloudVariable) := by
  have h : TreeIsWritable cloudVariable := by
    refine ⟨by decide, by decide, ?_, rfl, ?_, trivial⟩
    · have hdigits : (Nat.toDigits 10 (-12 : Int).natAbs).length ≤ Numeral.digitLimit := by decide
      simpa [cloudVariableGiven, IsWritable, AreWritable, EntriesAreWritable] using hdigits
    · show (Nat.toDigits 10 (7 : Int).natAbs).length ≤ Numeral.digitLimit
      decide
  exact ⟨h, read_print .capitals _ _ _ h⟩

end SceneTree.Markup
