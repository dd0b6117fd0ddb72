import Mathlib.Data.Nat.ModEq
import Mathlib.Data.Set.Card
import SceneTree.Proofs.Evaluation.Ownership

/-!
# Sources that count

A source that counts spells different ids in as many draws as there are ids of a length. So no more of them are in vain
than ids of the length are in use, and a new one is found as long as there is one.
-/

namespace SceneTree

namespace IdPool

/-- The id that a source that counts spells in the draw of a number. -/
def counted (length number : Nat) : String := spell ((List.range length).map (Entropy.counterByte number length))

theorem letter_injective {a b : Nat} (ha : a < 36) (hb : b < 36)
    (h : letter (UInt8.ofNat a) = letter (UInt8.ofNat b)) : a = b := by
  have hall : ∀ a b : Fin 36, letter (UInt8.ofNat a) = letter (UInt8.ofNat b) → a = b := by decide +kernel
  exact congrArg Fin.val (hall ⟨a, ha⟩ ⟨b, hb⟩ h)

/-- Numbers with the same last digits are the same as far as these digits go. -/
theorem mod_pow_eq_of_digits {length m n : Nat} (h : ∀ k < length, m / 36 ^ k % 36 = n / 36 ^ k % 36) :
    m % 36 ^ length = n % 36 ^ length := by
  induction length with
  | zero => rw [Nat.pow_zero, Nat.mod_one, Nat.mod_one]
  | succ length ih =>
    rw [Nat.mod_pow_succ, Nat.mod_pow_succ, ih fun k hk => h k (Nat.lt_succ_of_lt hk), h length (Nat.lt_succ_self _)]

/-- Draws spell the same id only when all digits of their numbers that count are the same. -/
theorem mod_eq_of_counted_eq {length m n : Nat} (h : counted length m = counted length n) :
    m % 36 ^ length = n % 36 ^ length := by
  refine mod_pow_eq_of_digits fun k hk => ?_
  have hletters : (List.range length).map (fun i => letter (Entropy.counterByte m length i)) =
      (List.range length).map (fun i => letter (Entropy.counterByte n length i)) := by
    simpa [counted, spell] using congrArg String.toList h
  have hat := (List.map_inj_left.mp hletters) (length - 1 - k) (List.mem_range.mpr (by omega))
  have hk' : length - 1 - (length - 1 - k) = k := by omega
  unfold Entropy.counterByte at hat
  rw [hk'] at hat
  exact letter_injective (Nat.mod_lt _ (by decide)) (Nat.mod_lt _ (by decide)) hat

/-- Draws in a row of a counting source spell different ids, as many as there are. -/
theorem nodup_counted {length k : Nat} (hk : k ≤ 36 ^ length) (first : Nat) :
    ((List.range k).map fun i => Value.str (counted length (first + i))).Nodup := by
  refine List.Nodup.map_on ?_ List.nodup_range
  intro i hi j hj h
  have hmod : first + i ≡ first + j [MOD 36 ^ length] := mod_eq_of_counted_eq (Value.str.inj h)
  exact (Nat.ModEq.add_left_cancel' first hmod).eq_of_lt_of_lt (Nat.lt_of_lt_of_le (List.mem_range.mp hi) hk)
    (Nat.lt_of_lt_of_le (List.mem_range.mp hj) hk)

/-- The ids of a length that can be drawn and are in use. -/
def idsOfLength (pool : IdPool) (n : Nat) : Set String :=
  {s | s.length = n ∧ (∀ c ∈ s.toList, c ∈ alphabet) ∧ pool.contains (.str s) = true}

variable {pool pool' : IdPool} {source source' : Entropy} {n first : Nat}

theorem mem_issued_of_contains {s : String} (h : pool.contains (.str s) = true) : .str s ∈ pool.issued := by
  obtain ⟨v, hv, heq⟩ := List.any_eq_true.mp h
  rwa [Value.beq_str_iff.mp heq] at hv

/-- There are no more ids of a length in use than ids. -/
theorem ncard_idsOfLength_le (pool : IdPool) (n : Nat) :
    (pool.idsOfLength n).Finite ∧ (pool.idsOfLength n).ncard ≤ pool.issued.length := by
  classical
  have himage : Value.str '' pool.idsOfLength n ⊆ (pool.issued.toFinset : Set Value) := by
    rintro _ ⟨s, hs, rfl⟩
    simpa using mem_issued_of_contains hs.2.2
  have hinj : Function.Injective Value.str := fun s t h => Value.str.inj h
  refine ⟨Set.Finite.of_finite_image (pool.issued.toFinset.finite_toSet.subset himage) hinj.injOn, ?_⟩
  calc (pool.idsOfLength n).ncard = (Value.str '' pool.idsOfLength n).ncard := (Set.ncard_image_of_injective _ hinj).symm
    _ ≤ (pool.issued.toFinset : Set Value).ncard := Set.ncard_le_ncard himage pool.issued.toFinset.finite_toSet
    _ = pool.issued.toFinset.card := Set.ncard_coe_finset _
    _ ≤ pool.issued.length := List.toFinset_card_le _

theorem letter_mem_alphabet (b : UInt8) : letter b ∈ alphabet := by
  have hlt : b.toNat % 36 < alphabet.length := Nat.mod_lt _ (by decide)
  rw [letter, List.getD_eq_getElem?_getD, List.getElem?_eq_getElem hlt, Option.getD_some]
  exact List.getElem_mem hlt

/-- What a counting source spells is one of the ids of the length. -/
theorem counted_mem_idsOfLength {number : Nat} (h : pool.contains (.str (counted n number)) = true) :
    counted n number ∈ pool.idsOfLength n := by
  refine ⟨by simp [counted, spell], fun c hc => ?_, h⟩
  rw [counted, spell, String.toList_ofList] at hc
  obtain ⟨b, -, rfl⟩ := List.mem_map.mp hc
  exact letter_mem_alphabet b

/-- Among one more numbers in a row than ids of a length are in use, one spells an unused id, unless these are all there
are. -/
theorem exists_counted_unused (hleft : (pool.idsOfLength n).ncard < 36 ^ n) (first : Nat) :
    ∃ i ≤ (pool.idsOfLength n).ncard, pool.contains (.str (counted n (first + i))) = false := by
  by_contra hnone
  have hused : ∀ i ≤ (pool.idsOfLength n).ncard, pool.contains (.str (counted n (first + i))) = true := by
    intro i hi
    by_contra hunused
    exact hnone ⟨i, hi, by simpa using hunused⟩
  have hinj : Set.InjOn (fun i => counted n (first + i)) (Finset.range ((pool.idsOfLength n).ncard + 1)) := by
    intro i hi j hj h
    exact List.inj_on_of_nodup_map (nodup_counted hleft first) (by simpa using hi) (by simpa using hj)
      (congrArg Value.str h)
  have hin : (((Finset.range ((pool.idsOfLength n).ncard + 1)).image fun i => counted n (first + i) : Finset String) :
      Set String) ⊆ pool.idsOfLength n := by
    intro s hs
    simp only [Finset.coe_image, Finset.coe_range, Set.mem_image, Set.mem_Iio] at hs
    obtain ⟨i, hi, rfl⟩ := hs
    exact counted_mem_idsOfLength (hused i (Nat.le_of_lt_succ hi))
  have hcard := Set.ncard_le_ncard hin (ncard_idsOfLength_le pool n).1
  rw [Set.ncard_coe_finset, Finset.card_image_of_injOn hinj, Finset.card_range] at hcard
  omega

end IdPool

namespace Entropy

variable {source : Entropy} {n : Nat}

/-- A source that counts and has no recorded bytes left for a draw spells numbers in a row. -/
theorem spelled_of_short (hl : source.later = counterByte) (hs : source.recorded.length < n) (number : Nat) :
    source.spelled n number = IdPool.counted n (source.drawn + number) := by
  induction number generalizing source with
  | zero =>
    rw [spelled, after, draw, if_neg (Nat.not_le.mpr hs), hl]
    rfl
  | succ number ih =>
    have hdraw : (source.draw n).2 = { source with recorded := [], drawn := source.drawn + 1 } := by
      rw [draw, if_neg (Nat.not_le.mpr hs)]
    have hnext : (source.draw n).2.spelled n number = IdPool.counted n ((source.draw n).2.drawn + number) :=
      ih (by rw [hdraw]; exact hl) (by rw [hdraw]; exact Nat.lt_of_le_of_lt (Nat.zero_le _) hs)
    rw [spelled, after]
    rw [spelled] at hnext
    rw [hnext, hdraw, Nat.add_assoc, Nat.add_comm 1]

/-- A source that counts spells numbers in a row when its recorded bytes are used up. -/
theorem exists_spelled_eq_counted (hl : source.later = counterByte) (hpos : 0 < n) :
    ∃ first, ∀ i, source.spelled n (source.recorded.length + i) = IdPool.counted n (first + i) := by
  induction hlength : source.recorded.length using Nat.strongRecOn generalizing source with
  | ind length ih =>
    by_cases hs : source.recorded.length < n
    · refine ⟨source.drawn + length, fun i => ?_⟩
      rw [spelled_of_short hl hs, Nat.add_assoc]
    · have hdraw : (source.draw n).2 = { source with recorded := source.recorded.drop n } := by
        rw [draw, if_pos (Nat.not_lt.mp hs)]
      have hrest : (source.draw n).2.recorded.length = length - n := by simp [hdraw, hlength]
      obtain ⟨first, hfirst⟩ := ih (length - n) (by omega) (by rw [hdraw]; exact hl) hrest
      refine ⟨first + (n - 1), fun i => ?_⟩
      -- One draw takes away `n` bytes.
      have hnumber : length + i = (length - n + (n - 1 + i)) + 1 := by omega
      rw [hnumber, Nat.add_assoc first]
      exact hfirst (n - 1 + i)

end Entropy

namespace IdPool

variable {pool pool' : IdPool} {source source' : Entropy}

/-- A counting source finds no new id only when all ids of the length are in use. -/
theorem le_of_next_eq_noFreshId {length : Int}
    (h : pool.next source length = (.error .noFreshId, pool', source')) (hl : source.later = Entropy.counterByte) :
    36 ^ length.toNat ≤ pool.issued.length := by
  rcases next_cases h with ⟨-, ho, -⟩ | ⟨-, k, -, ho, -⟩ | ⟨hpos, -, -, hused⟩
  · cases ho
  · cases ho
  · by_contra hlt
    have hle := (ncard_idsOfLength_le pool length.toNat).2
    have hn : 0 < length.toNat := by omega
    obtain ⟨first, hfirst⟩ := Entropy.exists_spelled_eq_counted hl hn
    have hleft : (pool.idsOfLength length.toNat).ncard < 36 ^ length.toNat := by omega
    obtain ⟨i, hi, hunused⟩ := exists_counted_unused hleft first
    have huse := hused (source.recorded.length + i) (by rw [attempts]; omega)
    rw [hfirst, hunused] at huse
    cases huse

end IdPool

end SceneTree
