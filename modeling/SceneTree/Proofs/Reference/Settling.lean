import SceneTree.Reference.Registry

/-!
# References settle once

A registry is asked in any order to take in references, to change its list and to read references. A reading searches
the list as long as no earlier one of the same reference has found anything, and from then on it repeats what was found,
whatever has become of the list. Readings of other references play no part in it.
-/

namespace SceneTree

namespace Candidates

variable {candidates : Candidates} {name : Value}

/-- What is found is the id of a candidate of the name, and no earlier candidate has it. -/
theorem firstNamed?_eq_some_iff {id : Value} :
    candidates.firstNamed? name = some id ↔
      ∃ earlier n later, candidates = earlier ++ (id, n) :: later ∧ n.equals name = true ∧
        ∀ c ∈ earlier, c.2.equals name = false := by
  simp only [firstNamed?, Option.map_eq_some_iff, List.find?_eq_some_iff_append]
  constructor
  · rintro ⟨⟨id', n⟩, ⟨hn, earlier, later, heq, hearlier⟩, rfl⟩
    exact ⟨earlier, n, later, heq, hn, fun c hc => by simpa using hearlier c hc⟩
  · rintro ⟨earlier, n, later, heq, hn, hearlier⟩
    exact ⟨(id, n), ⟨hn, earlier, later, heq, fun c hc => by simpa using hearlier c hc⟩, rfl⟩

/-- Nothing is found just when no candidate has the name. -/
theorem firstNamed?_eq_none_iff : candidates.firstNamed? name = none ↔ ∀ c ∈ candidates, c.2.equals name = false := by
  simp [firstNamed?]

end Candidates

namespace Reference

variable {ref : Reference} {id : Value}

/-- What a reading gives, and what it makes of the reference, while some candidates are there. -/
def among (ref : Reference) (candidates : Candidates) : Except Fault Value × Reference :=
  Id.run (ref.resolve (pure candidates))

/-- A reference that has found an id gives it, and stays as it is. -/
theorem among_of_found (h : ref.found = some id) (candidates : Candidates) : ref.among candidates = (.ok id, ref) := by
  simp [among, resolve, h]

/-- A reference that has found nothing looks for its name: it keeps the id that it finds, and stays open if there is
none. -/
theorem among_of_open (h : ref.found = none) (candidates : Candidates) :
    ref.among candidates =
      match candidates.firstNamed? ref.name with
      | some id => (.ok id, { ref with found := some id })
      | none => (.error (.unresolved ref.kind ref.name), ref) := by
  cases hid : candidates.firstNamed? ref.name <;> simp [among, resolve, h, Candidates.resolve, hid]

/-- After a reading that succeeds the reference has found what the reading gave. -/
theorem found_of_among_eq_ok {candidates : Candidates} (h : (ref.among candidates).1 = .ok id) :
    (ref.among candidates).2.found = some id := by
  cases hfound : ref.found with
  | some id' =>
    rw [among_of_found hfound] at h ⊢
    cases h
    exact hfound
  | none =>
    rw [among_of_open hfound] at h ⊢
    cases hid : candidates.firstNamed? ref.name with
    | none => simp [hid] at h
    | some id' =>
      rw [hid] at h
      cases h
      rfl

/-- After a reading that fails the reference is what it was. -/
theorem among_eq_of_error {candidates : Candidates} {fault : Fault} (h : (ref.among candidates).1 = .error fault) :
    (ref.among candidates).2 = ref := by
  cases hfound : ref.found with
  | some id => simp [among_of_found hfound]
  | none =>
    rw [among_of_open hfound] at h ⊢
    cases hid : candidates.firstNamed? ref.name with
    | none => rfl
    | some id => simp [hid] at h

/-- A reading asks for the candidates once if the reference has found nothing, and not at all if it has. -/
theorem resolve_search (ref : Reference) (r : Registry) :
    ref.resolve Registry.search r =
      (ref.among r.candidates, if ref.found.isSome then r else { r with reads := r.reads + 1 }) := by
  cases hfound : ref.found with
  | some id =>
    rw [among_of_found hfound]
    simp only [resolve, hfound]
    rfl
  | none =>
    have hsearch (f : Candidates → StateM Registry (Except Fault Value × Reference)) :
        (Registry.search >>= f) r = f r.candidates { r with reads := r.reads + 1 } := rfl
    rw [among_of_open hfound]
    simp only [resolve, hfound, hsearch, Candidates.resolve]
    cases r.candidates.firstNamed? ref.name <;> rfl

end Reference

namespace Registry

/-- What a registry may be asked for. -/
inductive Request where
  | refer (key kind : String) (name : Value)
  | add (id name : Value)
  | remove (i : Int)
  | clear
  | resolve (key : String)

namespace Request

/-- The key that a request puts a new reference under. -/
def referred? : Request → Option String
  | .refer key _ _ => some key
  | _ => none

/-- The key whose reference a request reads. -/
def read? : Request → Option String
  | .resolve key => some key
  | _ => none

/-- Whether a request is anything but the reading of another reference than that of a key. -/
def leaves (key : String) (q : Request) : Bool := q.read?.all (· == key)

end Request

/-- The registry after a request. One that fails changes nothing but the number of searches. -/
def after (r : Registry) : Request → Registry
  | .refer key kind name => r.refer key kind name
  | .add id name => r.add id name
  | .remove i => (r.remove i).toOption.getD r
  | .clear => r.clear
  | .resolve key => (r.resolve key).2

/-- The registry after some requests. -/
def afterAll (r : Registry) (requests : List Request) : Registry := requests.foldl after r

/-- What the readings of the reference under a key give in the course of some requests. -/
def readings (key : String) : Registry → List Request → List (Except Fault Value)
  | _, [] => []
  | r, q :: rest =>
    if q.read? = some key then (r.resolve key).1 :: readings key (r.after q) rest else readings key (r.after q) rest

variable {r s : Registry} {key : String} {ref : Reference}

@[simp] theorem afterAll_nil (r : Registry) : r.afterAll [] = r := rfl

@[simp] theorem afterAll_cons (r : Registry) (q : Request) (rest : List Request) :
    r.afterAll (q :: rest) = (r.after q).afterAll rest := rfl

theorem get?_refer_self (r : Registry) (key kind : String) (name : Value) :
    (r.refer key kind name).get? key = some (.ofName kind name) := by
  simp [get?, refer]

theorem get?_refer_of_ne {k : String} (h : k ≠ key) (kind : String) (name : Value) :
    (r.refer k kind name).get? key = r.get? key := by
  simp [get?, refer, List.lookup_cons, beq_false_of_ne h.symm]

/-- A reading gives what the reference of the key gives, and searches the list if that has found nothing yet. -/
theorem resolve_of_get? (h : r.get? key = some ref) :
    r.resolve key = ((ref.among r.candidates).1,
      { r with
        references := (key, (ref.among r.candidates).2) :: r.references
        reads := if ref.found.isSome then r.reads else r.reads + 1 }) := by
  simp only [resolve, h, ref.resolve_search r]
  cases ref.found <;> rfl

theorem resolve_of_get?_eq_none (h : r.get? key = none) : r.resolve key = (.error .noField, r) := by
  simp [resolve, h]

@[simp] theorem candidates_resolve (r : Registry) (key : String) : (r.resolve key).2.candidates = r.candidates := by
  cases h : r.get? key with
  | none => rw [resolve_of_get?_eq_none h]
  | some ref => rw [resolve_of_get? h]

theorem get?_resolve_self (h : r.get? key = some ref) :
    (r.resolve key).2.get? key = some (ref.among r.candidates).2 := by
  simp [resolve_of_get? h, get?]

/-- A reading concerns no reference but its own. -/
theorem get?_resolve_of_ne {k : String} (h : k ≠ key) : (r.resolve k).2.get? key = r.get? key := by
  cases hk : r.get? k with
  | none => rw [resolve_of_get?_eq_none hk]
  | some ref => simp [resolve_of_get? hk, get?, List.lookup_cons, beq_false_of_ne h.symm]

/-- A request changes the reference under a key only by reading it or by putting a new one there. -/
theorem get?_after {q : Request} (hrefer : q.referred? ≠ some key) (hread : q.read? ≠ some key) :
    (r.after q).get? key = r.get? key := by
  cases q with
  | refer k kind name => exact get?_refer_of_ne (fun h => hrefer (congrArg some h)) kind name
  | add id name => rfl
  | remove i =>
    simp only [after, remove]
    cases Access.remove r.candidates i <;> rfl
  | clear => rfl
  | resolve k => exact get?_resolve_of_ne fun h => hread (congrArg some h)

/-- What a reference has found it keeps, as long as no new one comes under its key. -/
theorem get?_afterAll_of_found {requests : List Request} {id : Value} (hkept : ∀ q ∈ requests, q.referred? ≠ some key)
    (h : r.get? key = some ref) (hfound : ref.found = some id) : (r.afterAll requests).get? key = some ref := by
  induction requests generalizing r with
  | nil => exact h
  | cons q rest ih =>
    refine ih (fun q hq => hkept q (List.mem_cons_of_mem _ hq)) ?_
    by_cases hread : q.read? = some key
    · cases q with
      | resolve k =>
        obtain rfl : k = key := by simpa [Request.read?] using hread
        rw [after, get?_resolve_self h, Reference.among_of_found hfound]
      | _ => simp [Request.read?] at hread
    · rw [get?_after (hkept q List.mem_cons_self) hread, h]

/-- A reference is as open after some requests as it was before if no reading of it succeeded, and has found what a
reading gave otherwise. -/
theorem get?_afterAll {requests : List Request} (hkept : ∀ q ∈ requests, q.referred? ≠ some key)
    (h : r.get? key = some ref) :
    ((∀ id, .ok id ∉ r.readings key requests) → (r.afterAll requests).get? key = some ref) ∧
      ∀ id, .ok id ∈ r.readings key requests →
        ∃ ref', (r.afterAll requests).get? key = some ref' ∧ ref'.found = some id := by
  induction requests generalizing r ref with
  | nil => exact ⟨fun _ => h, fun id hid => absurd hid List.not_mem_nil⟩
  | cons q rest ih =>
    have hrest : ∀ q ∈ rest, q.referred? ≠ some key := fun q hq => hkept q (List.mem_cons_of_mem _ hq)
    rw [readings, afterAll_cons]
    by_cases hread : q.read? = some key
    · rw [if_pos hread]
      have hq : q = .resolve key := by
        cases q with
        | resolve k => rw [Option.some.inj hread]
        | _ => cases hread
      subst hq
      have hself : (r.after (.resolve key)).get? key = some (ref.among r.candidates).2 := get?_resolve_self h
      have houtcome : (r.resolve key).1 = (ref.among r.candidates).1 := by rw [resolve_of_get? h]
      obtain ⟨hopen, hfound⟩ := ih hrest hself
      constructor
      · intro hnone
        have hfail : ∀ id, (ref.among r.candidates).1 ≠ .ok id := by
          intro id hid
          exact hnone id (by rw [houtcome, hid]; exact List.mem_cons_self)
        rw [hopen fun id hid => hnone id (List.mem_cons_of_mem _ hid)]
        cases ho : (ref.among r.candidates).1 with
        | ok id => exact absurd ho (hfail id)
        | error fault => rw [Reference.among_eq_of_error ho]
      · intro id hid
        rcases List.mem_cons.mp hid with hid | hid
        · have hkeeps := Reference.found_of_among_eq_ok (houtcome.symm.trans hid.symm)
          exact ⟨_, get?_afterAll_of_found hrest hself hkeeps, hkeeps⟩
        · exact hfound id hid
    · rw [if_neg hread]
      refine ih hrest ?_
      rw [get?_after (hkept q List.mem_cons_self) hread, h]

/-- Two registries have the same list and the same reference under a key. -/
structure Agree (key : String) (r s : Registry) : Prop where
  candidates : r.candidates = s.candidates
  get? : r.get? key = s.get? key

namespace Agree

theorem refl (key : String) (r : Registry) : Agree key r r := ⟨rfl, rfl⟩

/-- Registries that agree give the same at a reading. -/
theorem resolve_eq (h : Agree key r s) : (r.resolve key).1 = (s.resolve key).1 := by
  cases hr : r.get? key with
  | none =>
    have hs := h.get?.symm.trans hr
    simp [resolve, hr, hs]
  | some ref => rw [resolve_of_get? hr, resolve_of_get? (h.get?.symm.trans hr), h.candidates]

/-- Registries that agree still do so when both are asked for the same. -/
theorem after (h : Agree key r s) (q : Request) : Agree key (r.after q) (s.after q) := by
  cases q with
  | refer k kind name =>
    refine ⟨h.candidates, ?_⟩
    by_cases hk : k = key
    · subst hk
      simp only [Registry.after, get?_refer_self]
    · simp only [Registry.after, get?_refer_of_ne hk, h.get?]
  | add id name => exact ⟨by simp [Registry.after, add, h.candidates], h.get?⟩
  | remove i =>
    simp only [Registry.after, remove, h.candidates]
    cases Access.remove s.candidates i with
    | error fault => exact h
    | ok candidates => exact ⟨rfl, h.get?⟩
  | clear => exact ⟨rfl, h.get?⟩
  | resolve k =>
    refine ⟨by simp only [Registry.after, candidates_resolve, h.candidates], ?_⟩
    by_cases hk : k = key
    · subst hk
      cases hr : r.get? k with
      | none =>
        have hs := h.get?.symm.trans hr
        simp only [Registry.after, resolve, hr, hs]
      | some ref =>
        simp only [Registry.after, get?_resolve_self hr, get?_resolve_self (h.get?.symm.trans hr), h.candidates]
    · simp only [Registry.after, get?_resolve_of_ne hk, h.get?]

/-- The reading of another reference leaves a registry in agreement. -/
theorem skip (h : Agree key r s) {q : Request} (hq : q.leaves key = false) : Agree key (r.after q) s := by
  cases q with
  | resolve k =>
    have hk : k ≠ key := by simpa [Request.leaves, Request.read?] using hq
    refine ⟨by simp only [Registry.after, candidates_resolve, h.candidates], ?_⟩
    simp only [Registry.after, get?_resolve_of_ne hk, h.get?]
  | _ => cases hq

/-- What is asked for from other references makes no difference to a reference. -/
theorem without_others (h : Agree key r s) (requests : List Request) :
    r.readings key requests = s.readings key (requests.filter (·.leaves key)) ∧
      Agree key (r.afterAll requests) (s.afterAll (requests.filter (·.leaves key))) := by
  induction requests generalizing r s with
  | nil => exact ⟨rfl, h⟩
  | cons q rest ih =>
    by_cases hq : q.leaves key = true
    · obtain ⟨hreadings, hagree⟩ := ih (h.after q)
      rw [List.filter_cons_of_pos hq, readings, readings, hreadings, h.resolve_eq]
      exact ⟨rfl, hagree⟩
    · have hskip := h.skip (Bool.eq_false_iff.mpr hq)
      have hread : q.read? ≠ some key := fun hread => hq (by simp [Request.leaves, hread])
      rw [List.filter_cons_of_neg hq, readings, if_neg hread, afterAll_cons]
      exact ih hskip

end Agree

/-- A reference that came into a registry at any time is read after any further requests. If no reading of it has
succeeded, the list is searched once, and the id of its first candidate of the name is given, or else the fault that
names what was looked for; if one has, its id is given again and nothing is searched. Without the readings of other
references, before the reference came and after, all its readings give the same. -/
theorem resolve_settles (earlier requests : List Request) (key kind : String) (name : Value)
    (hkept : ∀ q ∈ requests, q.referred? ≠ some key) :
    let made := (empty.afterAll earlier).refer key kind name
    let r := made.afterAll requests
    let alone := (empty.afterAll (earlier.filter (·.leaves key))).refer key kind name
    ((∀ id, .ok id ∉ made.readings key requests) →
      (r.resolve key).2.reads = r.reads + 1 ∧
        ((∃ before id n after, r.candidates = before ++ (id, n) :: after ∧ n.equals name = true ∧
            (∀ c ∈ before, c.2.equals name = false) ∧ (r.resolve key).1 = .ok id) ∨
          (∀ c ∈ r.candidates, c.2.equals name = false) ∧ (r.resolve key).1 = .error (.unresolved kind name))) ∧
      (∀ id, .ok id ∈ made.readings key requests → (r.resolve key).1 = .ok id ∧ (r.resolve key).2.reads = r.reads) ∧
      (r.resolve key).2.candidates = r.candidates ∧
      made.readings key requests = alone.readings key (requests.filter (·.leaves key)) ∧
      (r.resolve key).1 = ((alone.afterAll (requests.filter (·.leaves key))).resolve key).1 := by
  intro made r alone
  have hmade : made.get? key = some (.ofName kind name) := get?_refer_self _ key kind name
  obtain ⟨hopen, hfound⟩ := get?_afterAll hkept hmade
  have hagree : Agree key made alone := ((Agree.refl key empty).without_others earlier).2.after (.refer key kind name)
  obtain ⟨hreadings, hafter⟩ := hagree.without_others requests
  refine ⟨fun hnone => ?_, fun id hid => ?_, candidates_resolve r key, hreadings, hafter.resolve_eq⟩
  · have href : r.get? key = some (.ofName kind name) := hopen hnone
    rw [resolve_of_get? href, Reference.among_of_open rfl]
    refine ⟨rfl, ?_⟩
    cases hid : r.candidates.firstNamed? name with
    | some id =>
      obtain ⟨before, n, after, heq, hn, hbefore⟩ := Candidates.firstNamed?_eq_some_iff.mp hid
      exact .inl ⟨before, id, n, after, heq, hn, hbefore, by simp [Reference.ofName, hid]⟩
    | none => exact .inr ⟨Candidates.firstNamed?_eq_none_iff.mp hid, by simp [Reference.ofName, hid]⟩
  · obtain ⟨ref, href, hrefound⟩ := hfound id hid
    have href : r.get? key = some ref := href
    rw [resolve_of_get? href, Reference.among_of_found hrefound]
    exact ⟨rfl, by simp [hrefound]⟩

/-- A reference that is read in vain, then finds a candidate without an id, and is read again when that candidate is gone
and another of its name has come. -/
def changingRequests : List Request :=
  [.resolve "ref", .add .null (.str "x"), .resolve "other", .resolve "ref", .clear, .add (.str "b") (.str "x")]

theorem resolve_settles_changing :
    let made := (empty.afterAll [.refer "other" "Object" (.str "x")]).refer "ref" "Variable" (.str "x")
    let r := made.afterAll changingRequests
    (∀ q ∈ changingRequests, q.referred? ≠ some "ref") ∧
      made.readings "ref" changingRequests = [.error (.unresolved "Variable" (.str "x")), .ok .null] ∧
      (r.resolve "ref").1 = .ok .null ∧ (r.resolve "ref").2.reads = r.reads := by
  intro made r
  have hkept : ∀ q ∈ changingRequests, q.referred? ≠ some "ref" := by
    simp [changingRequests, Request.referred?]
  have hreadings : made.readings "ref" changingRequests =
      [.error (.unresolved "Variable" (.str "x")), .ok .null] := by
    with_unfolding_all rfl
  obtain ⟨-, hagain, -⟩ :=
    resolve_settles [.refer "other" "Object" (.str "x")] changingRequests "ref" "Variable" (.str "x") hkept
  refine ⟨hkept, hreadings, hagain .null ?_⟩
  rw [hreadings]
  simp

end Registry

end SceneTree
