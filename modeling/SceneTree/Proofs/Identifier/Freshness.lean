import SceneTree.Proofs.Identifier.Counting

/-!
# New ids are new

A new id is what the first draw spells that spells no id in use, however many draws that takes. So an id that was drawn
or reserved once is never drawn again. A source that counts finds a new id after no more draws in vain than ids of the
length are in use.
-/

namespace SceneTree

namespace Entropy

/-- A source of the same bytes, of which an id may take at least so many draws in vain. -/
def patient (source : Entropy) (patience : Nat) : Entropy := { source with patience := patience }

theorem draw_patient (source : Entropy) (patience n : Nat) :
    (source.patient patience).draw n = ((source.draw n).1, (source.draw n).2.patient patience) := by
  unfold draw patient
  split <;> rfl

theorem after_patient (source : Entropy) (patience n draws : Nat) :
    (source.patient patience).after n draws = (source.after n draws).patient patience := by
  induction draws generalizing source with
  | zero => rfl
  | succ draws ih => rw [after, after, draw_patient, ih]

@[simp] theorem spelled_patient (source : Entropy) (patience n number : Nat) :
    (source.patient patience).spelled n number = source.spelled n number := by
  rw [spelled, spelled, after_patient, draw_patient]

end Entropy

namespace IdSupply

/-- What a supply of ids may be asked for. -/
inductive Request where
  | next (length : Int)
  | reserve (id : Value)

/-- What became of a request. -/
inductive Event where
  | drawn (id : String)
  | reserved (id : Value)
  | failed (fault : Fault)

/-- The id that is in use because of an event. -/
def Event.id? : Event → Option Value
  | .drawn id => some (.str id)
  | .reserved id => some id
  | .failed _ => none

/-- Serves a request. -/
def serve (supply : IdSupply) : Request → Event × IdSupply
  | .next length =>
    match supply.pool.next supply.source length with
    | (.ok id, pool, source) => (.drawn id, ⟨pool, source⟩)
    | (.error fault, pool, source) => (.failed fault, ⟨pool, source⟩)
  | .reserve id => (.reserved id, { supply with pool := supply.pool.reserve id })

/-- What becomes of some requests, one after the other. -/
def events : IdSupply → List Request → List Event
  | _, [] => []
  | supply, q :: rest => (supply.serve q).1 :: events (supply.serve q).2 rest

variable {supply : IdSupply}

/-- An id that is drawn was not in use, and is so afterwards like a reserved one and all that was in use before. -/
structure Serves (supply : IdSupply) (event : Event) (supply' : IdSupply) : Prop where
  unused : ∀ id, event = .drawn id → supply.pool.contains (.str id) = false
  used : ∀ s, event.id? = some (.str s) → supply'.pool.contains (.str s) = true
  kept : ∀ s, supply.pool.contains (.str s) = true → supply'.pool.contains (.str s) = true

theorem serves (supply : IdSupply) (q : Request) : Serves supply (supply.serve q).1 (supply.serve q).2 := by
  cases q with
  | reserve id =>
    refine ⟨nofun, fun s hs => ?_, fun s hs => IdPool.contains_reserve_of_contains _ hs⟩
    obtain rfl := Option.some.inj hs
    exact IdPool.contains_reserve _ _ (Value.beq_str_iff.mpr rfl)
  | next length =>
    rcases hnext : supply.pool.next supply.source length with ⟨fault | id, pool, source⟩
    · obtain rfl := IdPool.of_next_eq_error hnext
      simp only [serve, hnext]
      exact ⟨nofun, nofun, fun s hs => hs⟩
    · obtain ⟨hunused, rfl⟩ := IdPool.of_next_eq_ok hnext
      simp only [serve, hnext]
      refine ⟨fun id' hid => ?_, fun s hs => ?_, fun s hs => IdPool.contains_reserve_of_contains _ hs⟩
      · cases hid
        exact hunused
      · cases hs
        exact IdPool.contains_reserve _ _ (Value.beq_str_iff.mpr rfl)

/-- An id that is drawn at any time was not in use at the beginning. -/
theorem not_contains_of_drawn {requests : List Request} {id : String} (h : .drawn id ∈ supply.events requests) :
    supply.pool.contains (.str id) = false := by
  induction requests generalizing supply with
  | nil => cases h
  | cons q rest ih =>
    have hserves := serves supply q
    rcases List.mem_cons.mp h with h | h
    · exact hserves.unused id h.symm
    · rw [Bool.eq_false_iff]
      intro hused
      have hlater := ih h
      rw [hserves.kept id hused] at hlater
      cases hlater

/-- An id that is drawn is none that was drawn or reserved before. -/
theorem pairwise_events (supply : IdSupply) (requests : List Request) :
    (supply.events requests).Pairwise fun earlier later =>
      ∀ id, later = .drawn id → earlier.id? ≠ some (.str id) := by
  induction requests generalizing supply with
  | nil => exact List.Pairwise.nil
  | cons q rest ih =>
    refine List.pairwise_cons.mpr ⟨fun later hlater id hid hearlier => ?_, ih _⟩
    have hunused := not_contains_of_drawn (hid ▸ hlater)
    rw [(serves supply q).used id hearlier] at hunused
    cases hunused

end IdSupply

/-- An id of no characters is refused, and nothing is drawn. For any other length what the first draw of an unused id
spells is given, if the source is tried that often, and just that is put in use; where no id is given, all that were
tried are in use. So whatever is asked for in whatever order, an id that is drawn was not in use at the beginning, not
drawn before and not reserved before. When the draws spell numbers in a row, at most as many are in vain as ids of the
length are in use, if these are not all there are. -/
theorem next_draws_unused (pool : IdPool) (source : Entropy) (length : Int) (requests : List IdSupply.Request) :
    let n := length.toNat
    (length ≤ 0 → pool.next source length = (.error (.idLength length), pool, source)) ∧
      (0 < length →
        (∀ k, pool.FirstUnused source n k → ∀ patience, k ≤ patience →
          pool.next (source.patient patience) length = (.ok (source.spelled n k),
            ⟨pool.issued ++ [.str (source.spelled n k)]⟩, (source.patient patience).after n (k + 1))) ∧
        (∀ outcome pool' source', pool.next source length = (outcome, pool', source') →
          (∃ k, pool.FirstUnused source n k ∧ outcome = .ok (source.spelled n k) ∧
              pool' = ⟨pool.issued ++ [.str (source.spelled n k)]⟩ ∧ source' = source.after n (k + 1)) ∨
            outcome = .error .noFreshId ∧ pool' = pool ∧
              ∀ i ≤ source.patience, pool.contains (.str (source.spelled n i)) = true) ∧
        ∀ first, (∀ i, source.spelled n i = IdPool.counted n (first + i)) → (pool.idsOfLength n).ncard < 36 ^ n →
          ∃ k ≤ (pool.idsOfLength n).ncard, pool.FirstUnused source n k ∧
            pool.next source length = (.ok (source.spelled n k),
              ⟨pool.issued ++ [.str (source.spelled n k)]⟩, source.after n (k + 1))) ∧
      (∀ id, .drawn id ∈ IdSupply.events ⟨pool, source⟩ requests → pool.contains (.str id) = false) ∧
      (IdSupply.events ⟨pool, source⟩ requests).Pairwise fun earlier later =>
        ∀ id, later = .drawn id → earlier.id? ≠ some (.str id) := by
  intro n
  refine ⟨fun hle => ?_, fun hpos => ⟨fun k hfirst patience hk => ?_, fun outcome pool' source' h => ?_,
    fun first hcounts hleft => ?_⟩, fun id => IdSupply.not_contains_of_drawn, IdSupply.pairwise_events _ _⟩
  · rw [IdPool.next, if_pos hle]
  · have hpatient : pool.FirstUnused (source.patient patience) n k :=
      ⟨by simpa using hfirst.used, by simpa using hfirst.unused⟩
    rw [hpatient.next hpos (by simp only [IdPool.attempts, Entropy.patient]; omega),
      IdPool.reserve_of_not_contains hpatient.unused, Entropy.spelled_patient]
  · rcases IdPool.next_cases h with ⟨hle, -⟩ | ⟨-, k, hfirst, ho, hp, hs⟩ | ⟨-, ho, hp, hused⟩
    · omega
    · rw [IdPool.reserve_of_not_contains hfirst.unused] at hp
      exact .inl ⟨k, hfirst, ho, hp, hs⟩
    · exact .inr ⟨ho, hp, fun i hi => hused i (by rw [IdPool.attempts]; omega)⟩
  · obtain ⟨i, hi, hunused⟩ := IdPool.exists_counted_unused hleft first
    rw [← hcounts] at hunused
    obtain ⟨k, hk, hfirst⟩ := IdPool.exists_firstUnused hunused
    have hle := (IdPool.ncard_idsOfLength_le pool n).2
    refine ⟨k, hk.trans hi, hfirst, ?_⟩
    rw [hfirst.next hpos (by rw [IdPool.attempts]; omega), IdPool.reserve_of_not_contains hfirst.unused]

/-- A pool in which the first two ids that a counting source spells are in use, and one of another length. -/
def startedPool : IdPool := ⟨[.str "00", .str "entry", .str "01"]⟩

theorem next_draws_unused_counting :
    (∀ i, (Entropy.counting []).spelled 2 i = IdPool.counted 2 (0 + i)) ∧ (startedPool.idsOfLength 2).ncard < 36 ^ 2 ∧
      ∃ k ≤ (startedPool.idsOfLength 2).ncard, startedPool.FirstUnused (Entropy.counting []) 2 k ∧
        startedPool.next (Entropy.counting []) 2 = (.ok ((Entropy.counting []).spelled 2 k),
          ⟨startedPool.issued ++ [.str ((Entropy.counting []).spelled 2 k)]⟩,
          (Entropy.counting []).after 2 (k + 1)) := by
  have hcounts : ∀ i, (Entropy.counting []).spelled 2 i = IdPool.counted 2 (0 + i) :=
    Entropy.spelled_of_short rfl (by decide)
  have hleft : (startedPool.idsOfLength 2).ncard < 36 ^ 2 :=
    Nat.lt_of_le_of_lt (IdPool.ncard_idsOfLength_le startedPool 2).2 (by decide)
  obtain ⟨-, hpositive, -⟩ := next_draws_unused startedPool (Entropy.counting []) 2 []
  exact ⟨hcounts, hleft, (hpositive (by decide)).2.2 0 hcounts hleft⟩

end SceneTree
