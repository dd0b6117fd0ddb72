/-!
# Rosters

A roster is an ordered collection in which every contributor has at most one entry: the value that it contributed last,
known by the token of the contributor. Contributing again takes the earlier entry back, wherever it stands, and puts the
new one at the end. Tokens and values stand in two columns, and what is taken back is taken out of both at one position.
-/

namespace SceneTree

/-- Tokens in order, and the values of their contributors. -/
structure Roster (τ α : Type) where
  tokens : List τ
  values : List α
  aligned : tokens.length = values.length
  deriving Repr

namespace Roster

variable {τ α : Type}

/-- The roster without entries. -/
def empty : Roster τ α := ⟨[], [], rfl⟩

instance : Inhabited (Roster τ α) := ⟨empty⟩

/-- The entries in order: each token with its value. -/
def entries (r : Roster τ α) : List (τ × α) := r.tokens.zip r.values

/-- The number of entries. -/
def size (r : Roster τ α) : Nat := r.values.length

/-- Takes the entry at a position out of both columns. -/
def eraseAt (r : Roster τ α) (i : Nat) : Roster τ α :=
  ⟨r.tokens.eraseIdx i, r.values.eraseIdx i, by simp only [List.length_eraseIdx, r.aligned]⟩

/-- Takes back the entry of a token, if it has one. -/
def retract [BEq τ] (r : Roster τ α) (token : τ) : Roster τ α :=
  match r.tokens.findIdx? (· == token) with
  | some i => r.eraseAt i
  | none => r

/-- Puts an entry at the end of both columns. -/
def push (r : Roster τ α) (token : τ) (value : α) : Roster τ α :=
  ⟨r.tokens ++ [token], r.values ++ [value], by simp only [List.length_append, List.length_singleton, r.aligned]⟩

/-- Makes a value the entry of a token, at the end. -/
def insert [BEq τ] (r : Roster τ α) (token : τ) (value : α) : Roster τ α := (r.retract token).push token value

/-- The roster that some contributions make, in their order. -/
def ofList [BEq τ] (contributions : List (τ × α)) : Roster τ α :=
  contributions.foldl (fun r (token, value) => r.insert token value) empty

/-- The tokens are those of the entries. -/
theorem tokens_eq (r : Roster τ α) : r.tokens = r.entries.map (·.1) :=
  (List.map_fst_zip (Nat.le_of_eq r.aligned)).symm

/-- The values are those of the entries. -/
theorem values_eq (r : Roster τ α) : r.values = r.entries.map (·.2) :=
  (List.map_snd_zip (Nat.le_of_eq r.aligned.symm)).symm

/-- Every token is that of an entry. -/
theorem mem_tokens {r : Roster τ α} {t : τ} : t ∈ r.tokens ↔ ∃ e ∈ r.entries, e.1 = t := by
  rw [tokens_eq, List.mem_map]

/-- Every value is that of an entry. -/
theorem mem_values {r : Roster τ α} {a : α} : a ∈ r.values ↔ ∃ e ∈ r.entries, e.2 = a := by
  rw [values_eq, List.mem_map]

theorem mem_values_of_mem {r : Roster τ α} {e : τ × α} (h : e ∈ r.entries) : e.2 ∈ r.values :=
  mem_values.mpr ⟨e, h, rfl⟩

/-- A roster is known by its entries. -/
@[ext] theorem ext_entries {r s : Roster τ α} (h : r.entries = s.entries) : r = s := by
  have htokens : r.tokens = s.tokens := by rw [tokens_eq, tokens_eq, h]
  have hvalues : r.values = s.values := by rw [values_eq, values_eq, h]
  cases r
  cases s
  subst htokens
  subst hvalues
  rfl

@[simp] theorem entries_empty : (empty : Roster τ α).entries = [] := rfl

@[simp] theorem entries_push (r : Roster τ α) (token : τ) (value : α) :
    (r.push token value).entries = r.entries ++ [(token, value)] :=
  List.zip_append r.aligned

/-- What is taken out of both columns at one position is one entry. -/
@[simp] theorem entries_eraseAt (r : Roster τ α) (i : Nat) : (r.eraseAt i).entries = r.entries.eraseIdx i := by
  obtain ⟨tokens, values, haligned⟩ := r
  simp only [entries, eraseAt]
  induction tokens generalizing values i with
  | nil => rfl
  | cons token tokens ih =>
    cases values with
    | nil => cases haligned
    | cons value values =>
      cases i with
      | zero => rfl
      | succ i => exact congrArg ((token, value) :: ·) (ih i values (Nat.succ.inj haligned))

/-- What a token takes back is the first entry that has it. -/
@[simp] theorem entries_retract [BEq τ] (r : Roster τ α) (token : τ) :
    (r.retract token).entries = r.entries.eraseP fun e => e.1 == token := by
  have hfind : r.tokens.findIdx? (· == token) = r.entries.findIdx? fun e => e.1 == token := by
    rw [tokens_eq, List.findIdx?_map]
    rfl
  rw [List.eraseP_eq_eraseIdx, retract, hfind]
  cases r.entries.findIdx? fun e => e.1 == token with
  | none => rfl
  | some i => exact entries_eraseAt r i

/-- A contribution takes the first entry of its token out and goes to the end. -/
@[simp] theorem entries_insert [BEq τ] (r : Roster τ α) (token : τ) (value : α) :
    (r.insert token value).entries = (r.entries.eraseP fun e => e.1 == token) ++ [(token, value)] := by
  rw [insert, entries_push, entries_retract]

/-- The entries after a contribution are the new one and some of those before. -/
theorem of_mem_insert [BEq τ] {r : Roster τ α} {token : τ} {value : α} {e : τ × α}
    (h : e ∈ (r.insert token value).entries) : e ∈ r.entries ∨ e = (token, value) := by
  rw [entries_insert, List.mem_append, List.mem_singleton] at h
  exact h.imp_left List.mem_of_mem_eraseP

theorem mem_insert_self [BEq τ] (r : Roster τ α) (token : τ) (value : α) :
    (token, value) ∈ (r.insert token value).entries := by
  rw [entries_insert]
  exact List.mem_append_right _ (List.mem_singleton_self _)

/-- A contribution leaves the entries of the other tokens. -/
theorem mem_insert_of_ne [BEq τ] {r : Roster τ α} {token : τ} {value : α} {e : τ × α} (h : e ∈ r.entries)
    (hne : (e.1 == token) = false) : e ∈ (r.insert token value).entries := by
  rw [entries_insert]
  exact List.mem_append_left _ ((List.mem_eraseP_of_neg (by simp [hne])).mpr h)

/-- The values after a contribution are the new one and some of those before. -/
theorem mem_values_insert [BEq τ] {r : Roster τ α} {token : τ} {value a : α}
    (h : a ∈ (r.insert token value).values) : a ∈ r.values ∨ a = value := by
  obtain ⟨e, he, rfl⟩ := mem_values.mp h
  rcases of_mem_insert he with he | rfl
  · exact .inl (mem_values_of_mem he)
  · exact .inr rfl

/-- A new contributor's entry goes after all others, and nothing else changes. -/
theorem insert_of_not_mem [BEq τ] (r : Roster τ α) (token : τ) (value : α)
    (h : ∀ e ∈ r.entries, (e.1 == token) = false) : (r.insert token value).entries = r.entries ++ [(token, value)] := by
  rw [entries_insert, List.eraseP_of_forall_not fun e he => by simp [h e he]]

end Roster

end SceneTree
