import Mathlib.Algebra.BigOperators.Group.Finset.Basic
import Mathlib.Algebra.BigOperators.Group.Finset.Piecewise
import Mathlib.Algebra.Order.BigOperators.Group.Multiset
import Mathlib.Data.Multiset.Bind
import SceneTree.Proofs.Translation.Scripts

/-!
# What is inside places of scripts

The items of a place are those that it holds and, at any depth, those that the places inside these hold. No place of a
document is in two places, so that nothing is found twice by going down from the objects and the functions.
-/

namespace SceneTree

namespace Item

/-- The places inside an item. -/
def places : Item → List Nat
  | .block parts => [parts]
  | .script _ params statements => [params, statements]
  | _ => []

/-- The id of an item that is a script. -/
def scriptId? : Item → Option Value
  | .script head _ _ => some head.id
  | _ => none

end Item

namespace Cells

variable {α M : Type} [AddCommMonoid M] {cells : Cells α} {g : α → M} {i : Nat}

/-- What all things come to together. -/
def sum (g : α → M) (cells : Cells α) : M := ∑ i ∈ Finset.range cells.size, ((cells.get? i).map g).getD 0

/-- A new thing adds what it comes to. -/
theorem sum_add (g : α → M) (cells : Cells α) (a : α) : (cells.add a).sum g = cells.sum g + g a := by
  unfold sum
  rw [size_add, Finset.sum_range_succ, get?_add_self]
  congr 1
  refine Finset.sum_congr rfl fun i hi => ?_
  rw [get?_add_of_ne _ _ (Nat.ne_of_lt (Finset.mem_range.mp hi))]

/-- A change of one thing adds what it adds to that thing. -/
theorem sum_modify {a : α} {f : α → α} {m : M} (hi : cells.get? i = some a) (hf : g (f a) = g a + m) :
    (cells.modify i f).sum g = cells.sum g + m := by
  have hlt : i < cells.size := isSome_get?_iff.mp (by rw [hi]; rfl)
  have hterm : ∀ j, (((cells.modify i f).get? j).map g).getD 0 =
      ((cells.get? j).map g).getD 0 + if i = j then m else 0 := by
    intro j
    by_cases hij : i = j
    · subst hij
      simp only [get?_modify_self, hi, Option.map_some, Option.getD_some, if_true, hf]
    · rw [get?_modify_of_ne _ _ (Ne.symm hij), if_neg hij, add_zero]
  unfold sum
  rw [size_modify, Finset.sum_congr rfl fun j _ => hterm j, Finset.sum_add_distrib, Finset.sum_ite_eq,
    if_pos (Finset.mem_range.mpr hlt)]

/-- A change that leaves what things come to alone. -/
theorem sum_modify_of_eq {f : α → α} (h : ∀ a, g (f a) = g a) (i : Nat) : (cells.modify i f).sum g = cells.sum g := by
  unfold sum
  rw [size_modify]
  exact Finset.sum_congr rfl fun j _ => by rw [map_get?_modify cells i h j]

/-- Things taken out in the order of their numbers come to the same. -/
theorem sum_coe_flatMap {β : Type} (g : α → List β) (cells : Cells α) :
    (((List.range cells.size).filterMap cells.get?).flatMap g : Multiset β) =
      cells.sum fun a => (g a : Multiset β) := by
  have hlist : ∀ is : List Nat, ((is.filterMap cells.get?).flatMap g : Multiset β) =
      (is.map fun i => ((cells.get? i).map fun a => (g a : Multiset β)).getD 0).sum := by
    intro is
    induction is with
    | nil => rfl
    | cons i rest ih =>
      rw [List.filterMap_cons, List.map_cons, List.sum_cons]
      cases cells.get? i with
      | none => exact ih.trans (zero_add _).symm
      | some a =>
        rw [List.flatMap_cons, ← Multiset.coe_add, ih]
        rfl
  exact hlist _

end Cells

/-- More things together lead to more. -/
theorem bind_mono {α β : Type} {s t : Multiset α} (h : s ≤ t) (f : α → Multiset β) : s.bind f ≤ t.bind f := by
  obtain ⟨u, rfl⟩ := Multiset.le_iff_exists_add.mp h
  rw [Multiset.add_bind]
  exact Multiset.le_add_right _ _

namespace Document

/-- The items of a place, down to a depth: those that it holds, each followed by those inside it. -/
def itemsWithin (doc : Document) : (depth : Nat) → (place : Nat) → List Item
  | 0, _ => []
  | depth + 1, place =>
    (doc.held place).flatMap fun item => item :: item.places.flatMap (doc.itemsWithin depth)

/-- The places that come right inside a place. -/
def placesIn (doc : Document) (place : Nat) : Multiset Nat := (doc.held place).flatMap Item.places

/-- A place and those inside it, down to a depth. -/
def placesWithin (doc : Document) : (depth : Nat) → (place : Nat) → Multiset Nat
  | 0, _ => 0
  | depth + 1, place => {place} + (doc.placesIn place).bind (doc.placesWithin depth)

/-- The items of a place are those that it and the places inside it hold. -/
theorem coe_itemsWithin (doc : Document) (depth place : Nat) :
    (doc.itemsWithin depth place : Multiset Item) =
      (doc.placesWithin depth place).bind fun p => (doc.held p : Multiset Item) := by
  induction depth generalizing place with
  | zero => rfl
  | succ depth ih =>
    have hitems : ∀ items : List Item,
        ((items.flatMap fun item => item :: item.places.flatMap (doc.itemsWithin depth) : List Item) : Multiset Item) =
          items + ((items.flatMap Item.places : List Nat) : Multiset Nat).bind fun p =>
            (doc.itemsWithin depth p : Multiset Item) := by
      intro items
      induction items with
      | nil => rfl
      | cons item rest ihr =>
        rw [List.flatMap_cons, List.flatMap_cons, ← Multiset.coe_add, ihr, ← Multiset.coe_add, Multiset.add_bind,
          ← Multiset.coe_bind, ← Multiset.cons_coe, ← Multiset.cons_coe]
        simp only [Multiset.cons_add]
        rw [add_left_comm]
        congr 1
        rw [← Multiset.coe_bind, add_left_comm]
    rw [itemsWithin, hitems, placesWithin, Multiset.add_bind, Multiset.singleton_bind, Multiset.bind_assoc]
    congr 1
    exact Multiset.bind_congr fun p _ => ih p

theorem bind_placesWithin_zero (doc : Document) (places : Multiset Nat) : places.bind (doc.placesWithin 0) = 0 :=
  Multiset.bind_zero places

/-- Going down from some places leads to these and to what is found from the places right inside them. -/
theorem bind_placesWithin (doc : Document) (depth : Nat) (places : Multiset Nat) :
    places.bind (doc.placesWithin (depth + 1)) =
      places + (places.bind doc.placesIn).bind (doc.placesWithin depth) := by
  have hone : places.bind (fun p => {p}) = places := by
    rw [Multiset.bind_singleton, Multiset.map_id']
  simp only [placesWithin]
  rw [Multiset.bind_add, hone, Multiset.bind_assoc]

/-- Going down leads to the places that one started from and to those right inside the places that were found before. -/
theorem placesIn_bind_placesWithin (doc : Document) (depth : Nat) (places : Multiset Nat) :
    places.bind (doc.placesWithin (depth + 1)) = places + (places.bind (doc.placesWithin depth)).bind doc.placesIn := by
  induction depth generalizing places with
  | zero =>
    rw [bind_placesWithin, bind_placesWithin_zero, bind_placesWithin_zero, Multiset.zero_bind]
  | succ depth ih => rw [bind_placesWithin, ih, ← Multiset.add_bind, ← bind_placesWithin]

/-- No place is found twice if none is both one that one started from and inside another, nor inside two. -/
theorem placesWithin_le {doc : Document} {places all : Multiset Nat} (h : places + all.bind doc.placesIn ≤ all)
    (depth : Nat) : places.bind (doc.placesWithin depth) ≤ all := by
  induction depth with
  | zero =>
    rw [bind_placesWithin_zero]
    exact Multiset.zero_le all
  | succ depth ih =>
    rw [placesIn_bind_placesWithin]
    exact (add_le_add_right (bind_mono ih doc.placesIn) places).trans h

end Document

end SceneTree
