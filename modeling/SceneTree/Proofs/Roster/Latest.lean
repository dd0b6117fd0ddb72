import Mathlib.Data.List.InsertIdx
import SceneTree.Proofs.Value.Equivalence
import SceneTree.Roster.Basic

/-!
# What a roster keeps

Of all contributions that were made to a roster it keeps the last one of each token, in the order in which these came.
The tokens need not be told apart by identity: it is enough that being the same token is an equivalence among the ones
that are used, as it is among values.
-/

namespace SceneTree

namespace Roster

variable {τ α : Type} [BEq τ]

/-- The contributions after which their token does not contribute again. -/
def latest : List (τ × α) → List (τ × α)
  | [] => []
  | c :: rest => if rest.any (fun d => c.1 == d.1) then latest rest else c :: latest rest

/-- No two entries have the same token. -/
def Distinct (r : Roster τ α) : Prop := r.entries.Pairwise fun a b => (a.1 == b.1) = false

/-- Some contributions do not concern an entry. -/
def untouched (cs : List (τ × α)) (e : τ × α) : Bool := !cs.any fun c => e.1 == c.1

theorem distinct_empty : (empty : Roster τ α).Distinct := List.Pairwise.nil

theorem untouched_cons (c : τ × α) (cs : List (τ × α)) (e : τ × α) :
    untouched (c :: cs) e = (!(e.1 == c.1) && untouched cs e) := by
  simp only [untouched, List.any_cons, Bool.not_or]

/-- The latest of some contributions are among them. -/
theorem mem_of_mem_latest {cs : List (τ × α)} {c : τ × α} (h : c ∈ latest cs) : c ∈ cs := by
  induction cs with
  | nil => exact h
  | cons d rest ih =>
    rw [latest] at h
    split at h
    · exact List.mem_cons_of_mem _ (ih h)
    · rcases List.mem_cons.mp h with rfl | h
      · exact List.mem_cons_self
      · exact List.mem_cons_of_mem _ (ih h)

/-- The latest contributions when there is one more: it takes the place of the one of its token. -/
theorem latest_append (cs : List (τ × α)) (c : τ × α) :
    latest (cs ++ [c]) = (latest cs).filter (fun d => !(d.1 == c.1)) ++ [c] := by
  induction cs with
  | nil => rfl
  | cons d rest ih =>
    rw [List.cons_append, latest, latest, List.any_append, ih, List.any_cons, List.any_nil, Bool.or_false]
    cases hany : rest.any fun e => d.1 == e.1 with
    | true => simp
    | false =>
      cases hd : d.1 == c.1 <;> simp [hd]

/-- The positions of contributions after which their token does not contribute again. -/
def latestPositions : List (τ × α) → List Nat
  | [] => []
  | c :: rest =>
    let later := (latestPositions rest).map (· + 1)
    if rest.any (fun d => c.1 == d.1) then later else 0 :: later

theorem pairwise_latestPositions (cs : List (τ × α)) : (latestPositions cs).Pairwise (· < ·) := by
  induction cs with
  | nil => exact List.Pairwise.nil
  | cons c rest ih =>
    have hlater : ((latestPositions rest).map (· + 1)).Pairwise (· < ·) :=
      List.pairwise_map.mpr (ih.imp fun h => Nat.succ_lt_succ h)
    simp only [latestPositions]
    split
    · exact hlater
    · refine List.pairwise_cons.mpr ⟨fun i hi => ?_, hlater⟩
      obtain ⟨j, -, rfl⟩ := List.mem_map.mp hi
      exact Nat.succ_pos j

/-- The latest contributions stand at their positions. -/
theorem latest_eq_filterMap (cs : List (τ × α)) : latest cs = (latestPositions cs).filterMap (cs[·]?) := by
  induction cs with
  | nil => rfl
  | cons c rest ih =>
    have hlater : ((latestPositions rest).map (· + 1)).filterMap ((c :: rest)[·]?) = latest rest := by
      rw [List.filterMap_map, ih]
      rfl
    simp only [latest, latestPositions]
    split
    · exact hlater.symm
    · rw [List.filterMap_cons, List.getElem?_cons_zero, hlater]

/-- The position of a contribution is one of the latest just when the token does not contribute after it. -/
theorem mem_latestPositions_iff {cs : List (τ × α)} {i : Nat} :
    i ∈ latestPositions cs ↔
      ∃ c, cs[i]? = some c ∧ ∀ j d, i < j → cs[j]? = some d → (c.1 == d.1) = false := by
  induction cs generalizing i with
  | nil => simp [latestPositions]
  | cons e rest ih =>
    cases i with
    | zero =>
      have hzero : 0 ∈ latestPositions (e :: rest) ↔ rest.any (fun d => e.1 == d.1) = false := by
        simp only [latestPositions]
        split
        · rename_i hany
          simp [hany]
        · rename_i hany
          simpa using hany
      rw [hzero, List.any_eq_false]
      simp only [List.getElem?_cons_zero, Option.some_inj, exists_eq_left']
      constructor
      · intro h j d hj hd
        obtain ⟨j, rfl⟩ := Nat.exists_eq_succ_of_ne_zero (Nat.ne_of_gt hj)
        exact Bool.eq_false_iff.mpr (h d (List.mem_of_getElem? (by simpa using hd)))
      · intro h d hd
        obtain ⟨j, hj⟩ := List.mem_iff_getElem?.mp hd
        rw [h (j + 1) d (Nat.succ_pos j) (by simpa using hj)]
        exact Bool.false_ne_true
    | succ i =>
      have hsucc : i + 1 ∈ latestPositions (e :: rest) ↔ i ∈ latestPositions rest := by
        simp only [latestPositions]
        split <;> simp
      rw [hsucc, ih]
      refine exists_congr fun c => and_congr (by simp) ⟨fun h j d hj hd => ?_, fun h j d hj hd => ?_⟩
      · obtain ⟨j, rfl⟩ := Nat.exists_eq_succ_of_ne_zero (Nat.ne_of_gt (Nat.zero_lt_of_lt hj))
        exact h j d (Nat.lt_of_succ_lt_succ hj) (by simpa using hd)
      · exact h (j + 1) d (Nat.succ_lt_succ hj) (by simpa using hd)

section

/- `P` are the tokens that may be used: those that are the same as a third one are the same. -/
variable {P : τ → Prop} (hjoin : ∀ {a b t : τ}, P b → (a == t) = true → (b == t) = true → (a == b) = true)

include hjoin

/-- What a token takes back is every entry that has it: there is at most one. -/
theorem entries_retract_of_distinct {r : Roster τ α} (hdistinct : r.Distinct) (hP : ∀ e ∈ r.entries, P e.1) (token : τ) :
    (r.retract token).entries = r.entries.filter fun e => !(e.1 == token) := by
  rw [Distinct] at hdistinct
  rw [entries_retract]
  generalize r.entries = entries at hdistinct hP
  induction entries with
  | nil => rfl
  | cons e rest ih =>
    obtain ⟨hfirst, hrest⟩ := List.pairwise_cons.mp hdistinct
    have hP' : ∀ e ∈ rest, P e.1 := fun e he => hP e (List.mem_cons_of_mem _ he)
    by_cases he : (e.1 == token) = true
    · have hothers : rest.filter (fun e => !(e.1 == token)) = rest := by
        refine List.filter_eq_self.mpr fun d hd => ?_
        rw [Bool.not_eq_true', Bool.eq_false_iff]
        intro hdt
        have hed := hfirst d hd
        rw [hjoin (hP' d hd) he hdt] at hed
        cases hed
      rw [List.eraseP_cons, he, List.filter_cons_of_neg (by simp [he]), hothers, cond_true]
    · rw [List.eraseP_cons, Bool.eq_false_iff.mpr he, List.filter_cons_of_pos (by simp [he]), ih hrest hP', cond_false]

/-- After a contribution no two entries have the same token. -/
theorem Distinct.insert {r : Roster τ α} (hdistinct : r.Distinct) (hP : ∀ e ∈ r.entries, P e.1) (token : τ)
    (value : α) : (r.insert token value).Distinct := by
  rw [Distinct, entries_insert, ← entries_retract, entries_retract_of_distinct hjoin hdistinct hP]
  refine List.pairwise_append.mpr ⟨hdistinct.filter _, List.pairwise_singleton _ _, fun a ha b hb => ?_⟩
  obtain rfl := List.mem_singleton.mp hb
  simpa using (List.mem_filter.mp ha).2

/-- What a run of contributions makes of a roster: the entries that none of them concerns, in their order, and the
latest of the contributions. -/
theorem entries_foldl_insert (cs : List (τ × α)) (hcs : ∀ c ∈ cs, P c.1) (r : Roster τ α) (hdistinct : r.Distinct)
    (hP : ∀ e ∈ r.entries, P e.1) :
    (cs.foldl (fun r (token, value) => r.insert token value) r).Distinct ∧
      (cs.foldl (fun r (token, value) => r.insert token value) r).entries =
        r.entries.filter (untouched cs) ++ latest cs := by
  induction cs generalizing r with
  | nil =>
    refine ⟨hdistinct, ?_⟩
    rw [latest, List.append_nil, List.foldl_nil]
    exact (List.filter_eq_self.mpr fun _ _ => rfl).symm
  | cons c rest ih =>
    have hentries : (r.insert c.1 c.2).entries = r.entries.filter (fun e => !(e.1 == c.1)) ++ [c] := by
      rw [entries_insert, ← entries_retract, entries_retract_of_distinct hjoin hdistinct hP]
    have hP' : ∀ e ∈ (r.insert c.1 c.2).entries, P e.1 := by
      intro e he
      rw [hentries, List.mem_append, List.mem_singleton] at he
      rcases he with he | rfl
      · exact hP e (List.mem_filter.mp he).1
      · exact hcs _ List.mem_cons_self
    obtain ⟨hd, he⟩ := ih (fun c hc => hcs c (List.mem_cons_of_mem _ hc)) (r.insert c.1 c.2)
      (hdistinct.insert hjoin hP c.1 c.2) hP'
    refine ⟨hd, he.trans ?_⟩
    have huntouched : r.entries.filter (untouched (c :: rest)) =
        (r.entries.filter fun e => !(e.1 == c.1)).filter (untouched rest) := by
      rw [List.filter_filter]
      exact List.filter_congr fun e _ => by rw [untouched_cons, Bool.and_comm]
    have hlatest : [c].filter (untouched rest) ++ latest rest = latest (c :: rest) := by
      rw [latest]
      cases h : rest.any fun d => c.1 == d.1 <;> simp [untouched, h]
    rw [hentries, List.filter_append, List.append_assoc, hlatest, huntouched]

end

section

variable [LawfulBEq τ] {r : Roster τ α}

/-- Tokens that are the same only if they are identical are distinct in the usual sense. -/
theorem distinct_iff_nodup : r.Distinct ↔ r.tokens.Nodup := by
  rw [Distinct, tokens_eq, List.Nodup, List.pairwise_map]
  simp only [beq_eq_false_iff_ne]

/-- After a contribution the entries are those of the other tokens and the new one. -/
theorem entries_insert_of_nodup (h : r.tokens.Nodup) (token : τ) (value : α) :
    (r.insert token value).entries = r.entries.filter (fun e => !(e.1 == token)) ++ [(token, value)] := by
  have hjoin {a b t : τ} (_ : True) (ha : (a == t) = true) (hb : (b == t) = true) : (a == b) = true := by
    rw [beq_iff_eq] at *
    rw [ha, hb]
  rw [entries_insert, ← entries_retract,
    entries_retract_of_distinct hjoin (distinct_iff_nodup.mpr h) fun _ _ => trivial]

/-- A token that contributes again still has one entry. -/
theorem nodup_tokens_insert (h : r.tokens.Nodup) (token : τ) (value : α) : (r.insert token value).tokens.Nodup := by
  rw [tokens_eq, entries_insert_of_nodup h, List.map_append, List.nodup_append]
  rw [tokens_eq] at h
  refine ⟨(List.filter_sublist.map _).nodup h, List.pairwise_singleton _ _, fun t ht u hu htu => ?_⟩
  obtain ⟨e, he, rfl⟩ := List.mem_map.mp ht
  have hne := (List.mem_filter.mp he).2
  rw [htu, List.mem_singleton.mp hu] at hne
  simp at hne

end

/-- A contribution edits the tokens and the values alike: at the position of the token, if it has one, and at the
end. -/
theorem columns_insert {r : Roster τ α} {token : τ} {value : α} {i : Nat} {t : τ} (ht : r.tokens[i]? = some t)
    (hsame : (t == token) = true) (hfirst : ∀ j u, j < i → r.tokens[j]? = some u → (u == token) = false) :
    (r.insert token value).tokens = r.tokens.eraseIdx i ++ [token] ∧
      (r.insert token value).values = r.values.eraseIdx i ++ [value] := by
  have hfind : r.tokens.findIdx? (· == token) = some i := by
    obtain ⟨hi, rfl⟩ := List.getElem?_eq_some_iff.mp ht
    refine List.findIdx?_eq_some_iff_getElem.mpr ⟨hi, hsame, fun j hj => ?_⟩
    simpa using hfirst j _ hj (List.getElem?_eq_getElem (Nat.lt_trans hj hi))
  simp only [insert, retract, hfind, push, eraseAt, and_self]

/-- The token of every contribution is that of one of the latest. -/
theorem exists_mem_latest (hself : ∀ t : τ, (t == t) = true)
    (htrans : ∀ {a b c : τ}, (a == b) = true → (b == c) = true → (a == c) = true) {cs : List (τ × α)} :
    ∀ c ∈ cs, ∃ d ∈ latest cs, (c.1 == d.1) = true := by
  induction cs with
  | nil => exact fun _ hc => absurd hc List.not_mem_nil
  | cons e rest ih =>
    intro c hc
    rw [latest]
    rcases List.mem_cons.mp hc with rfl | hc
    · split
      · rename_i hany
        obtain ⟨d, hd, hcd⟩ := List.any_eq_true.mp hany
        obtain ⟨d', hd', hdd⟩ := ih d hd
        exact ⟨d', hd', htrans hcd hdd⟩
      · exact ⟨c, List.mem_cons_self, hself c.1⟩
    · obtain ⟨d, hd, hcd⟩ := ih c hc
      split
      · exact ⟨d, hd, hcd⟩
      · exact ⟨d, List.mem_cons_of_mem _ hd, hcd⟩

/-- Values without repeated keys can be tokens. -/
theorem entries_ofList {cs : List (Value × α)} (hkeyed : ∀ c ∈ cs, c.1.Keyed) :
    (ofList cs).Distinct ∧ (ofList cs).entries = latest cs :=
  entries_foldl_insert (P := Value.Keyed) Value.same_of_same_of_same cs hkeyed empty distinct_empty
    fun _ he => absurd he List.not_mem_nil

/-- A roster whose tokens are values holds the last contribution of each token, in the order of these: its tokens and
values are those of the contributions after which the same token does not come again. A contribution of a further token
goes to the end, and one of a token that is there takes the entry at its position out of both columns first. -/
theorem ofList_keeps_latest {cs : List (Value × α)} (hkeyed : ∀ c ∈ cs, c.1.Keyed) :
    let r := ofList cs
    r.tokens.Pairwise (fun t u => t.same u = false) ∧ r.tokens.length = r.values.length ∧
      (∀ c ∈ cs, ∃ t ∈ r.tokens, c.1.same t = true) ∧
      (∃ positions : List Nat, positions.Pairwise (· < ·) ∧
        (∀ i, i ∈ positions ↔
          ∃ c, cs[i]? = some c ∧ ∀ j d, i < j → cs[j]? = some d → c.1.same d.1 = false) ∧
        r.tokens = positions.filterMap (fun i => cs[i]?.map (·.1)) ∧
        r.values = positions.filterMap (fun i => cs[i]?.map (·.2))) ∧
      ∀ token value,
        ((∀ t ∈ r.tokens, t.same token = false) →
          (r.insert token value).tokens = r.tokens ++ [token] ∧
            (r.insert token value).values = r.values ++ [value]) ∧
        ∀ i t, r.tokens[i]? = some t → t.same token = true →
          (r.insert token value).tokens = r.tokens.eraseIdx i ++ [token] ∧
            (r.insert token value).values = r.values.eraseIdx i ++ [value] := by
  intro r
  obtain ⟨hdistinct, hentries⟩ := entries_ofList hkeyed
  have hapart : r.tokens.Pairwise fun t u => t.same u = false := by
    rw [tokens_eq]
    exact List.pairwise_map.mpr hdistinct
  refine ⟨hapart, r.aligned, fun c hc => ?_, ⟨latestPositions cs, pairwise_latestPositions cs,
    fun i => mem_latestPositions_iff, ?_, ?_⟩, fun token value => ⟨fun hnew => ?_, fun i t ht hsame => ?_⟩⟩
  · obtain ⟨d, hd, hcd⟩ := exists_mem_latest Value.same_self (fun h h' => Value.same_trans _ h h') c hc
    rw [← hentries] at hd
    exact ⟨d.1, mem_tokens.mpr ⟨d, hd, rfl⟩, hcd⟩
  · rw [r.tokens_eq, hentries, latest_eq_filterMap, List.map_filterMap]
  · rw [r.values_eq, hentries, latest_eq_filterMap, List.map_filterMap]
  · have happend := insert_of_not_mem r token value fun e he => hnew e.1 (mem_tokens.mpr ⟨e, he, rfl⟩)
    simp only [tokens_eq, values_eq, happend, List.map_append, List.map_cons, List.map_nil, and_self]
  · refine columns_insert ht hsame fun j u hj hu => Bool.eq_false_iff.mpr fun hut => ?_
    -- A token before it would be the same as it.
    have htkeyed : t.Keyed := by
      obtain ⟨e, he, rfl⟩ := mem_tokens.mp (List.mem_of_getElem? ht)
      rw [hentries] at he
      exact hkeyed e (mem_of_mem_latest he)
    have hne := List.pairwise_iff_getElem.mp hapart j i (List.getElem?_eq_some_iff.mp hu).1
      (List.getElem?_eq_some_iff.mp ht).1 hj
    rw [(List.getElem?_eq_some_iff.mp hu).2, (List.getElem?_eq_some_iff.mp ht).2,
      Value.same_of_same_of_same htkeyed hut hsame] at hne
    cases hne

/-- Contributions of one number as an integer, a truth value and a floating-point number, and of one map with its
entries in two orders. -/
def mixedContributions : List (Value × Nat) :=
  [(.int 1, 0), (.str "x", 1), (.map [(.int 1, .null), (.str "k", .null)], 2), (.bool true, 3),
    (.map [(.str "k", .null), (.bool true, .null)], 4), (.float (.finite false 1 0), 5)]

theorem ofList_keeps_latest_mixed :
    (∀ c ∈ mixedContributions, c.1.Keyed) ∧ (ofList mixedContributions).values = [1, 4, 5] ∧
      ((ofList mixedContributions).insert (.str "x") 6).values = [4, 5, 6] := by
  have hkeyed : ∀ c ∈ mixedContributions, c.1.Keyed := by
    have hmap : Entries.Distinct [(.int 1, .null), (.str "k", .null)] := by
      simp [Entries.Distinct, Value.same, Value.sameNumber, Value.sameNumber.sameInt]
    have hmap' : Entries.Distinct [(.str "k", .null), (.bool true, .null)] := by
      simp [Entries.Distinct, Value.same, Value.sameNumber]
    simp [mixedContributions, Value.Keyed, Value.EntriesKeyed, hmap, hmap']
  have hvalues : (ofList mixedContributions).values = [1, 4, 5] := by decide +kernel
  obtain ⟨-, -, -, -, hstep⟩ := ofList_keeps_latest hkeyed
  have hagain := ((hstep (.str "x") 6).2 0 (.str "x") (by with_unfolding_all rfl) (by with_unfolding_all rfl)).2
  rw [hvalues] at hagain
  exact ⟨hkeyed, hvalues, hagain⟩

end Roster

end SceneTree
