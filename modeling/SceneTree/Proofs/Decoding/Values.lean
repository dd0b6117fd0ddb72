import SceneTree.Proofs.Decoding.Numbers
import SceneTree.Proofs.Decoding.Shortest

/-!
# Values are read as they are written

Whatever its layout, the text of a regular value is read as the one value of JSON that it is. What is read before and
after an item is the same in all layouts but for blanks, and a number ends where a blank, a comma or a bracket stands.
-/

namespace SceneTree

namespace Value

mutual

/-- A value as one of JSON, if it is one; a tuple is an array, and only texts are keys. -/
def toJson? : Value → Option Json
  | .null => some .null
  | .bool b => some (.bool b)
  | .int n => some (.number (toString n))
  | .float x => some (.number (String.ofList (JsonText.number x)))
  | .notANumber _ => some (.number "NaN")
  | .str s => some (.string s)
  | .list items | .tuple items => (toJsons? items).map .array
  | .map entries => (toJsonEntries? entries).map .object
  | _ => none

/-- Some values as values of JSON. -/
def toJsons? : List Value → Option (List Json)
  | [] => some []
  | v :: rest => do some ((← toJson? v) :: (← toJsons? rest))

/-- The entries of a map as those of an object. -/
def toJsonEntries? : List (Value × Value) → Option (List (String × Json))
  | [] => some []
  | (.str key, v) :: rest => do some ((key, ← toJson? v) :: (← toJsonEntries? rest))
  | _ :: _ => none

end

end Value

namespace JsonText

variable {chars rest : List Char} {j : Json} {layout : Layout} {level : Nat}

/-- A text is read as a value, whatever follows that could not belong to a number at its end. -/
structure Reads (chars : List Char) (j : Json) : Prop where
  begins : ∃ c tail, chars = c :: tail ∧ isBlank c = false ∧ c ≠ ']' ∧ c ≠ '\x7d'
  value : ∀ {fuel : Nat} {rest : List Char}, 2 * chars.length ≤ fuel → EndsNumber rest →
    readValue? fuel (chars ++ rest) = some (j, rest)

/-- Blanks before a text that begins with none are skipped. -/
theorem skip_append {blanks : List Char} (hb : ∀ c ∈ blanks, isBlank c = true)
    (hc : ∀ c ∈ chars.head?, isBlank c = false) : skip (blanks ++ chars) = chars := by
  rw [skip, List.dropWhile_append_of_pos hb]
  cases chars with
  | nil => rfl
  | cons c tail => rw [List.dropWhile_cons, hc c rfl, if_neg (by decide)]

/-- What begins with none of the signs of texts, arrays and objects is a word or a number. -/
theorem readValue?_of_plain {c : Char} {tail : List Char} {fuel : Nat} (hq : c ≠ '"') (hb : c ≠ '[') (ho : c ≠ '\x7b') :
    readValue? (fuel + 1) (c :: tail) = readPlain? (c :: tail) := by
  rw [readValue?]
  · rintro _ ⟨⟩
    exact hq rfl
  · rintro _ ⟨⟩
    exact hb rfl
  · rintro _ ⟨⟩
    exact ho rfl

/-- A word is read as what it stands for. -/
theorem reads_word : ∀ p ∈ words, Reads p.1.toList p.2 := by
  have hword {c : Char} {tail : List Char} {j : Json} (hc : c ≠ '"' ∧ c ≠ '[' ∧ c ≠ '\x7b')
      (hbegins : isBlank c = false ∧ c ≠ ']' ∧ c ≠ '\x7d')
      (hplain : ∀ rest, readPlain? (c :: tail ++ rest) = some (j, rest)) : Reads (c :: tail) j := by
    refine ⟨⟨c, tail, rfl, hbegins⟩, ?_⟩
    intro fuel rest hfuel _
    obtain ⟨fuel, rfl⟩ : ∃ fuel', fuel = fuel' + 1 := ⟨fuel - 1, by simp at hfuel; omega⟩
    rw [← hplain rest]
    exact readValue?_of_plain hc.1 hc.2.1 hc.2.2
  simp only [words, List.forall_mem_cons]
  exact ⟨hword (by decide) (by decide) fun _ => rfl, hword (by decide) (by decide) fun _ => rfl,
    hword (by decide) (by decide) fun _ => rfl, hword (by decide) (by decide) fun _ => rfl,
    hword (by decide) (by decide) fun _ => rfl, hword (by decide) (by decide) fun _ => rfl, List.forall_mem_nil _⟩

/-- A number is read as itself. -/
theorem IsNumber.reads (h : IsNumber chars) : Reads chars (.number (String.ofList chars)) := by
  obtain ⟨c, tail, hbegins, hc⟩ : ∃ c tail, chars = c :: tail ∧
      c ∉ ['"', '[', '\x7b', ']', '\x7d', ' ', '\n', '\r', '\t'] := by
    have hno : ∀ c ∈ ['"', '[', '\x7b', ']', '\x7d', ' ', '\n', '\r', '\t'], Numeral.isAsciiDigit c = false := by
      simp [Numeral.isAsciiDigit]
    obtain ⟨d, tail, hd, rfl | rfl⟩ := h.exists_cons
    · refine ⟨d, tail, rfl, fun hmem => ?_⟩
      rw [hno d hmem] at hd
      cases hd
    · exact ⟨'-', d :: tail, rfl, by decide⟩
  simp only [List.mem_cons, not_or] at hc
  obtain ⟨hq, hb, ho, hcb, hco, h₁, h₂, h₃, h₄, -⟩ := hc
  refine ⟨⟨c, tail, hbegins, by simp [isBlank, h₁, h₂, h₃, h₄], hcb, hco⟩, ?_⟩
  intro fuel rest hfuel hr
  obtain ⟨fuel, rfl⟩ : ∃ fuel', fuel = fuel' + 1 := ⟨fuel - 1, by simp [hbegins] at hfuel; omega⟩
  rw [← h.readPlain hr, hbegins]
  exact readValue?_of_plain hq hb ho

/-- A text between quotes is read as that text. -/
theorem reads_quoted (text : List Char) : Reads (quoted text) (.string (String.ofList text)) := by
  refine ⟨⟨'"', _, rfl, by decide, by decide, by decide⟩, ?_⟩
  intro fuel rest hfuel _
  obtain ⟨fuel, rfl⟩ : ∃ fuel', fuel = fuel' + 1 := ⟨fuel - 1, by simp [quoted] at hfuel; omega⟩
  have happend : quoted text ++ rest = '"' :: (text.flatMap quotedChar ++ '"' :: rest) := by simp [quoted]
  rw [happend, readValue?, readString?_quoted]
  rfl

/-! ## Layouts -/

theorem isBlank_of_mem_newLine {width : Int} {c : Char} (h : c ∈ Layout.newLine width level) : isBlank c = true := by
  rcases List.mem_cons.mp h with rfl | h
  · rfl
  · rw [List.eq_of_mem_replicate h]
    rfl

/-- Nothing but blanks stands at the beginning and at the end of an array or object. -/
theorem isBlank_of_mem_opening : ∀ c ∈ layout.opening level, isBlank c = true := by
  cases layout with
  | indented width => exact fun c => isBlank_of_mem_newLine
  | _ => exact List.forall_mem_nil _

theorem isBlank_of_mem_closing : ∀ c ∈ layout.closing level, isBlank c = true := by
  cases layout with
  | indented width => exact fun c => isBlank_of_mem_newLine
  | _ => exact List.forall_mem_nil _

/-- Two items stand apart by a comma and blanks. -/
theorem exists_separator (layout : Layout) (level : Nat) :
    ∃ blanks, layout.separator level = ',' :: blanks ∧ ∀ c ∈ blanks, isBlank c = true := by
  cases layout with
  | compact => exact ⟨[], rfl, List.forall_mem_nil _⟩
  | spaced => exact ⟨[' '], rfl, List.forall_mem_singleton.mpr rfl⟩
  | indented width => exact ⟨_, rfl, fun c => isBlank_of_mem_newLine⟩

/-- A key and its value stand apart by a colon and blanks. -/
theorem exists_colon (layout : Layout) :
    ∃ blanks, layout.colon = ':' :: blanks ∧ ∀ c ∈ blanks, isBlank c = true := by
  cases layout with
  | compact => exact ⟨[], rfl, List.forall_mem_nil _⟩
  | _ => exact ⟨[' '], rfl, List.forall_mem_singleton.mpr rfl⟩

/-- Blanks and a sign end every number. -/
theorem endsNumber_of_blanks {blanks : List Char} {c : Char} (hb : ∀ c ∈ blanks, isBlank c = true)
    (hc : c = ',' ∨ c = ']' ∨ c = '\x7d') : EndsNumber (blanks ++ c :: rest) := by
  cases blanks with
  | nil =>
    rintro c' ⟨⟩
    rcases hc with rfl | rfl | rfl <;> decide
  | cons b blanks =>
    rintro c' ⟨⟩
    have hblank := hb b List.mem_cons_self
    simp only [isBlank, Bool.or_eq_true, decide_eq_true_eq] at hblank
    rcases hblank with ((rfl | rfl) | rfl) | rfl <;> decide

theorem endsNumber_comma (rest : List Char) : EndsNumber (',' :: rest) := by
  rintro c ⟨⟩
  decide

/-! ## Arrays -/

/-- The last item of an array is read, and the bracket after it. -/
theorem readItems?_last {fuel : Nat} {blanks : List Char} (h : Reads chars j) (hf : 2 * chars.length ≤ fuel)
    (hb : ∀ c ∈ blanks, isBlank c = true) :
    readItems? (fuel + 1) (chars ++ (blanks ++ ']' :: rest)) = some ([j], rest) := by
  rw [readItems?, h.value hf (endsNumber_of_blanks hb (.inr (.inl rfl)))]
  have hskip : skip (blanks ++ ']' :: rest) = ']' :: rest := skip_append hb (by rintro c ⟨⟩; rfl)
  simp only [Option.bind_eq_bind, Option.bind_some, hskip]

/-- An item of an array is read, and then those after the comma. -/
theorem readItems?_next {fuel : Nat} {blanks tail : List Char} {js : List Json} (h : Reads chars j)
    (hf : 2 * chars.length ≤ fuel) (hb : ∀ c ∈ blanks, isBlank c = true) (hc : ∀ c ∈ tail.head?, isBlank c = false)
    (ht : readItems? fuel tail = some (js, rest)) :
    readItems? (fuel + 1) (chars ++ (',' :: (blanks ++ tail))) = some (j :: js, rest) := by
  rw [readItems?, h.value hf (endsNumber_comma _)]
  have hcomma : skip (',' :: (blanks ++ tail)) = ',' :: (blanks ++ tail) := rfl
  simp only [Option.bind_eq_bind, Option.bind_some, hcomma, skip_append hb hc, ht]

/-- The items of an array are read one by one up to the bracket after them. -/
theorem readItems?_written {items : List Value} {js : List Json} (hne : items ≠ [])
    (h : ∀ v ∈ items, ∀ chars j, v.toJson? = some j → write layout level v = .ok chars → Reads chars j)
    (hj : Value.toJsons? items = some js) (hw : writeItems layout level items = .ok chars) :
    (∃ c tail, chars = c :: tail ∧ isBlank c = false ∧ c ≠ ']') ∧
      ∀ {fuel : Nat} {blanks rest : List Char}, 2 * chars.length + 1 ≤ fuel → (∀ c ∈ blanks, isBlank c = true) →
        readItems? fuel (chars ++ (blanks ++ ']' :: rest)) = some (js, rest) := by
  induction items generalizing chars js with
  | nil => exact absurd rfl hne
  | cons v items ih =>
    obtain ⟨hv, hitems⟩ := List.forall_mem_cons.mp h
    simp only [Value.toJsons?, Option.bind_eq_bind, Option.bind_eq_some_iff, Option.some.injEq] at hj
    obtain ⟨j, hj, js, hjs, rfl⟩ := hj
    cases items with
    | nil =>
      rw [writeItems] at hw
      have hreads := hv chars j hj hw
      obtain rfl := Option.some.inj hjs
      obtain ⟨c, tail, hbegins, hblank, hbracket, -⟩ := hreads.begins
      refine ⟨⟨c, tail, hbegins, hblank, hbracket⟩, ?_⟩
      intro fuel blanks rest hf hb
      obtain ⟨fuel, rfl⟩ : ∃ fuel', fuel = fuel' + 1 := ⟨fuel - 1, by omega⟩
      exact readItems?_last hreads (by omega) hb
    | cons w items =>
      rw [writeItems] at hw
      · obtain ⟨head, hhead, hw⟩ := Outcome.bind_eq_ok_iff.mp hw
        obtain ⟨tail, htail, hw⟩ := Outcome.bind_eq_ok_iff.mp hw
        obtain rfl := Except.ok.inj hw
        have hreads := hv head j hj hhead
        obtain ⟨⟨c', tail', hbegins', hblank', -⟩, hrest⟩ := ih (List.cons_ne_nil _ _) hitems hjs htail
        obtain ⟨c, after, hbegins, hblank, hbracket, -⟩ := hreads.begins
        obtain ⟨gap, hgap, hgaps⟩ := exists_separator layout level
        rw [hgap]
        refine ⟨⟨c, after ++ (',' :: gap ++ tail), by rw [hbegins]; simp, hblank, hbracket⟩, ?_⟩
        intro fuel blanks rest hf hb
        obtain ⟨fuel, rfl⟩ : ∃ fuel', fuel = fuel' + 1 := ⟨fuel - 1, by omega⟩
        simp only [List.length_append, List.length_cons] at hf
        have happend : head ++ (',' :: gap) ++ tail ++ (blanks ++ ']' :: rest) =
            head ++ (',' :: (gap ++ (tail ++ (blanks ++ ']' :: rest)))) := by simp
        rw [happend]
        refine readItems?_next hreads (by omega) hgaps ?_ (hrest (by omega) hb)
        rw [hbegins']
        rintro _ ⟨⟩
        exact hblank'
      · nofun

/-! ## Objects -/

/-- The first entry of an object is read, and then what follows its value decides. -/
theorem readEntries?_entry {fuel : Nat} {gap : List Char} {read? : Option (List (String × Json) × List Char)}
    (key : String) (h : Reads chars j) (hf : 2 * chars.length ≤ fuel) (hg : ∀ c ∈ gap, isBlank c = true)
    (hr : EndsNumber rest)
    (hread : (match skip rest with
      | ',' :: rest => do
        let (pairs, rest) ← readEntries? fuel (skip rest)
        some ((key, j) :: pairs, rest)
      | '\x7d' :: rest => some ([(key, j)], rest)
      | _ => none) = read?) :
    readEntries? (fuel + 1) (quoted key.toList ++ ':' :: (gap ++ (chars ++ rest))) = read? := by
  obtain ⟨c, tail, hbegins, hblank, -⟩ := h.begins
  have hvalue : skip (gap ++ (chars ++ rest)) = chars ++ rest :=
    skip_append hg (by rw [hbegins]; rintro _ ⟨⟩; exact hblank)
  have hcolon : skip (':' :: (gap ++ (chars ++ rest))) = ':' :: (gap ++ (chars ++ rest)) := rfl
  have happend : quoted key.toList ++ ':' :: (gap ++ (chars ++ rest)) =
      '"' :: (key.toList.flatMap quotedChar ++ '"' :: ':' :: (gap ++ (chars ++ rest))) := by simp [quoted]
  rw [happend, readEntries?, readString?_quoted]
  simp only [Option.bind_eq_bind, Option.bind_some, hcolon, hvalue, h.value hf hr, String.ofList_toList]
  exact hread

/-- The last entry of an object is read, and the brace after it. -/
theorem readEntries?_last {fuel : Nat} {gap blanks : List Char} (key : String) (rest : List Char)
    (h : Reads chars j) (hf : 2 * chars.length ≤ fuel) (hg : ∀ c ∈ gap, isBlank c = true)
    (hb : ∀ c ∈ blanks, isBlank c = true) :
    readEntries? (fuel + 1) (quoted key.toList ++ ':' :: (gap ++ (chars ++ (blanks ++ '\x7d' :: rest)))) =
      some ([(key, j)], rest) := by
  have hskip : skip (blanks ++ '\x7d' :: rest) = '\x7d' :: rest := skip_append hb (by rintro c ⟨⟩; rfl)
  exact readEntries?_entry key h hf hg (endsNumber_of_blanks hb (.inr (.inr rfl))) (by simp only [hskip])

/-- An entry of an object is read, and then those after the comma. -/
theorem readEntries?_next {fuel : Nat} {gap blanks tail : List Char} {pairs : List (String × Json)} (key : String)
    (h : Reads chars j) (hf : 2 * chars.length ≤ fuel) (hg : ∀ c ∈ gap, isBlank c = true)
    (hb : ∀ c ∈ blanks, isBlank c = true) (hc : ∀ c ∈ tail.head?, isBlank c = false)
    (ht : readEntries? fuel tail = some (pairs, rest)) :
    readEntries? (fuel + 1) (quoted key.toList ++ ':' :: (gap ++ (chars ++ ',' :: (blanks ++ tail)))) =
      some ((key, j) :: pairs, rest) := by
  have hcomma : skip (',' :: (blanks ++ tail)) = ',' :: (blanks ++ tail) := rfl
  exact readEntries?_entry key h hf hg (endsNumber_comma _)
    (by simp only [hcomma, skip_append hb hc, ht, Option.bind_eq_bind, Option.bind_some])

/-- The entries of an object are read one by one up to the brace after them. -/
theorem readEntries?_written {entries : List (String × Value)} {pairs : List (String × Json)} (hne : entries ≠ [])
    (h : ∀ p ∈ entries, ∀ chars j, p.2.toJson? = some j → write layout level p.2 = .ok chars → Reads chars j)
    (hj : Value.toJsonEntries? (entries.map fun (key, v) => (.str key, v)) = some pairs)
    (hw : writeEntries layout level (entries.map fun (key, v) => (.str key, v)) = .ok chars) :
    (∃ tail, chars = '"' :: tail) ∧
      ∀ {fuel : Nat} {blanks rest : List Char}, 2 * chars.length + 1 ≤ fuel → (∀ c ∈ blanks, isBlank c = true) →
        readEntries? fuel (chars ++ (blanks ++ '\x7d' :: rest)) = some (pairs, rest) := by
  induction entries generalizing chars pairs with
  | nil => exact absurd rfl hne
  | cons p entries ih =>
    obtain ⟨key, v⟩ := p
    obtain ⟨hv, hentries⟩ := List.forall_mem_cons.mp h
    simp only [List.map_cons, Value.toJsonEntries?, Option.bind_eq_bind, Option.bind_eq_some_iff,
      Option.some.injEq] at hj
    obtain ⟨j, hj, pairs, hpairs, rfl⟩ := hj
    rw [List.map_cons, writeEntries, keyText] at hw
    obtain ⟨_, hkey, hw⟩ := Outcome.bind_eq_ok_iff.mp hw
    obtain rfl := Except.ok.inj hkey
    obtain ⟨value, hvalue, hw⟩ := Outcome.bind_eq_ok_iff.mp hw
    obtain ⟨tail, htail, hw⟩ := Outcome.bind_eq_ok_iff.mp hw
    obtain rfl := Except.ok.inj hw
    have hreads := hv value j hj hvalue
    obtain ⟨gap, hcolon, hgap⟩ := exists_colon layout
    refine ⟨⟨_, rfl⟩, ?_⟩
    intro fuel blanks rest hf hb
    obtain ⟨fuel, rfl⟩ : ∃ fuel', fuel = fuel' + 1 := ⟨fuel - 1, by omega⟩
    rw [hcolon] at hf ⊢
    simp only [List.length_append, List.length_cons] at hf
    have hlong : 2 * value.length ≤ fuel := by omega
    cases entries with
    | nil =>
      obtain rfl := Option.some.inj hpairs
      obtain rfl := Except.ok.inj htail
      have hlast := readEntries?_last key rest hreads hlong hgap hb
      simpa using hlast
    | cons q entries =>
      obtain ⟨⟨tail', hbegins⟩, hrest⟩ := ih (List.cons_ne_nil _ _) hentries hpairs htail
      obtain ⟨comma, hcomma, hcommas⟩ := exists_separator layout level
      rw [List.map_cons, List.isEmpty_cons, if_neg (by decide), hcomma] at hf ⊢
      have hquote : ∀ c ∈ (tail ++ (blanks ++ '\x7d' :: rest)).head?, isBlank c = false := by
        rw [hbegins]
        rintro c ⟨⟩
        rfl
      have htail : readEntries? fuel (tail ++ (blanks ++ '\x7d' :: rest)) = some (pairs, rest) :=
        hrest (by simp only [List.length_cons] at hf; omega) hb
      have hnext := readEntries?_next key hreads hlong hgap hcommas hquote htail
      simpa using hnext

/-! ## Values -/

/-- A new key goes to the end of an object. -/
theorem put_of_not_mem {entries : List (String × Json)} {key : String} (h : key ∉ entries.map (·.1)) :
    Json.put entries key j = entries ++ [(key, j)] := by
  induction entries with
  | nil => rfl
  | cons p entries ih =>
    rw [List.map_cons, List.mem_cons, not_or] at h
    rw [Json.put, if_neg fun he => h.1 he.symm, ih h.2, List.cons_append]

/-- Entries whose keys are new go to the end of an object one after the other. -/
theorem foldl_put_of_nodup (entries : List (String × Json)) {pairs : List (String × Json)}
    (h : ((entries ++ pairs).map (·.1)).Nodup) :
    pairs.foldl (fun entries (key, j) => Json.put entries key j) entries = entries ++ pairs := by
  induction pairs generalizing entries with
  | nil => simp
  | cons p pairs ih =>
    obtain ⟨key, j⟩ := p
    have happend : entries ++ (key, j) :: pairs = entries ++ [(key, j)] ++ pairs := by simp
    have hkey : key ∉ entries.map (·.1) := by
      rw [List.map_append, List.nodup_append] at h
      exact fun hmem => h.2.2 key hmem key (by simp) rfl
    simp only [List.foldl_cons, put_of_not_mem hkey, ih _ (happend ▸ h), happend]

/-- Entries whose keys are different make up the object that has them all. -/
theorem ofPairs_of_nodup {pairs : List (String × Json)} (h : (pairs.map (·.1)).Nodup) :
    Json.ofPairs pairs = .object pairs := by
  rw [Json.ofPairs, foldl_put_of_nodup [] h, List.nil_append]

/-- The keys of an object are those of the map that it comes from. -/
theorem keys_of_toJsonEntries? {entries : List (String × Value)} {pairs : List (String × Json)}
    (h : Value.toJsonEntries? (entries.map fun (key, v) => (.str key, v)) = some pairs) :
    pairs.map (·.1) = entries.map (·.1) := by
  induction entries generalizing pairs with
  | nil =>
    obtain rfl := Option.some.inj h
    rfl
  | cons p entries ih =>
    simp only [List.map_cons, Value.toJsonEntries?, Option.bind_eq_bind, Option.bind_eq_some_iff,
      Option.some.injEq] at h
    obtain ⟨j, -, pairs, hpairs, rfl⟩ := h
    rw [List.map_cons, List.map_cons, ih hpairs]

/-- An array is read as its items are. -/
theorem reads_list {items : List Value} (h : ∀ v ∈ items, ∀ level chars j, v.toJson? = some j →
    write layout level v = .ok chars → Reads chars j) (hj : (Value.list items).toJson? = some j)
    (hw : write layout level (.list items) = .ok chars) : Reads chars j := by
  rw [Value.toJson?] at hj
  obtain ⟨js, hjs, rfl⟩ := Option.map_eq_some_iff.mp hj
  cases items with
  | nil =>
    obtain rfl := Option.some.inj hjs
    rw [write] at hw
    obtain rfl := Except.ok.inj hw
    refine ⟨⟨'[', _, rfl, by decide⟩, ?_⟩
    intro fuel rest hf _
    obtain ⟨fuel, rfl⟩ : ∃ fuel', fuel = fuel' + 1 := ⟨fuel - 1, by simp at hf; omega⟩
    rfl
  | cons v items =>
    rw [write] at hw
    · obtain ⟨inner, hinner, hw⟩ := Outcome.bind_eq_ok_iff.mp hw
      obtain rfl := Except.ok.inj hw
      obtain ⟨⟨c, tail, hbegins, hblank, hbracket⟩, hitems⟩ :=
        readItems?_written (List.cons_ne_nil v items) (fun w hw => h w hw (level + 1)) hjs hinner
      refine ⟨⟨'[', _, rfl, by decide⟩, ?_⟩
      intro fuel rest hf _
      simp only [List.length_cons, List.length_append] at hf
      obtain ⟨fuel, rfl⟩ : ∃ fuel', fuel = fuel' + 1 := ⟨fuel - 1, by omega⟩
      have hskip : skip (layout.opening (level + 1) ++ (inner ++ (layout.closing level ++ ']' :: rest))) =
          inner ++ (layout.closing level ++ ']' :: rest) :=
        skip_append isBlank_of_mem_opening (by rw [hbegins]; rintro _ ⟨⟩; exact hblank)
      have happend : '[' :: (layout.opening (level + 1) ++ inner ++ layout.closing level ++ [']']) ++ rest =
          '[' :: (layout.opening (level + 1) ++ (inner ++ (layout.closing level ++ ']' :: rest))) := by simp
      rw [happend, readValue?, hskip]
      split
      · next after hafter =>
        rw [hbegins] at hafter
        exact absurd (List.cons.inj hafter).1 hbracket
      · rw [hitems (by omega) isBlank_of_mem_closing]
        rfl
    · nofun

/-- An object whose keys are different is read as its entries are. -/
theorem reads_object {entries : List (String × Value)} (hd : (entries.map (·.1)).Nodup)
    (h : ∀ p ∈ entries, ∀ level chars j, p.2.toJson? = some j → write layout level p.2 = .ok chars → Reads chars j)
    (hj : (Value.object entries).toJson? = some j) (hw : write layout level (.object entries) = .ok chars) :
    Reads chars j := by
  rw [Value.object, Value.toJson?] at hj
  obtain ⟨pairs, hpairs, rfl⟩ := Option.map_eq_some_iff.mp hj
  rw [← ofPairs_of_nodup ((keys_of_toJsonEntries? hpairs).symm ▸ hd)]
  cases entries with
  | nil =>
    obtain rfl := Option.some.inj hpairs
    rw [Value.object, List.map_nil, write] at hw
    obtain rfl := Except.ok.inj hw
    refine ⟨⟨'\x7b', _, rfl, by decide⟩, ?_⟩
    intro fuel rest hf _
    obtain ⟨fuel, rfl⟩ : ∃ fuel', fuel = fuel' + 1 := ⟨fuel - 1, by simp at hf; omega⟩
    rfl
  | cons p entries =>
    rw [Value.object, List.map_cons, write] at hw
    · obtain ⟨inner, hinner, hw⟩ := Outcome.bind_eq_ok_iff.mp hw
      obtain rfl := Except.ok.inj hw
      obtain ⟨⟨tail, hbegins⟩, hentries⟩ :=
        readEntries?_written (List.cons_ne_nil p entries) (fun q hq => h q hq (level + 1)) hpairs hinner
      refine ⟨⟨'\x7b', _, rfl, by decide⟩, ?_⟩
      intro fuel rest hf _
      simp only [List.length_cons, List.length_append] at hf
      obtain ⟨fuel, rfl⟩ : ∃ fuel', fuel = fuel' + 1 := ⟨fuel - 1, by omega⟩
      have hskip : skip (layout.opening (level + 1) ++ (inner ++ (layout.closing level ++ '\x7d' :: rest))) =
          inner ++ (layout.closing level ++ '\x7d' :: rest) :=
        skip_append isBlank_of_mem_opening (by rw [hbegins]; rintro _ ⟨⟩; rfl)
      have happend : '\x7b' :: (layout.opening (level + 1) ++ inner ++ layout.closing level ++ ['\x7d']) ++ rest =
          '\x7b' :: (layout.opening (level + 1) ++ (inner ++ (layout.closing level ++ '\x7d' :: rest))) := by simp
      rw [happend, readValue?, hskip]
      split
      · next after hafter =>
        rw [hbegins] at hafter
        exact absurd (List.cons.inj hafter).1 (by decide)
      · rw [hentries (by omega) isBlank_of_mem_closing]
        rfl
    · nofun

/-- The text of a number of the format is read as that text. -/
theorem reads_number {x : Binary64} (h : x.Bounded) : Reads (number x) (.number (String.ofList (number x))) := by
  cases x with
  | infinite negative =>
    cases negative with
    | true => exact reads_word ("-Infinity", .number "-Infinity") (by simp [words])
    | false => exact reads_word ("Infinity", .number "Infinity") (by simp [words])
  | finite negative mantissa exponent =>
    have htext : number (.finite negative mantissa exponent) =
        Binary64.layout.write negative (Binary64.shortest negative mantissa exponent) := by
      rw [number]
      · exact String.toList_ofList
      · simp
    rw [htext]
    exact (isNumber_write Binary64.layout negative (Binary64.exponent_shortest negative h)).reads

/-- However a regular value is laid out, it is read as the value of JSON that it is. -/
theorem reads_of_regular {v : Value} (h : v.Regular) : ∀ level chars j, v.toJson? = some j →
    write layout level v = .ok chars → Reads chars j := by
  -- what stands without items is one word or number
  have hplain {v : Value} {text : List Char} {i : Json} (hv : v.toJson? = some i) (ht : plain v = .ok text)
      (hwrite : ∀ level, write layout level v = plain v) (hr : Reads text i) :
      ∀ level chars j, v.toJson? = some j → write layout level v = .ok chars → Reads chars j := by
    intro level chars j hj hw
    rw [hwrite, ht] at hw
    rw [hv] at hj
    obtain rfl := Option.some.inj hj
    obtain rfl := Except.ok.inj hw
    exact hr
  induction h with
  | null =>
    refine hplain rfl rfl (fun _ => ?_) (reads_word ("null", .null) (by simp [words]))
    rw [write] <;> simp
  | bool b =>
    have hr : Reads (if b then "true".toList else "false".toList) (.bool b) := by
      cases b with
      | true => exact reads_word ("true", .bool true) (by simp [words])
      | false => exact reads_word ("false", .bool false) (by simp [words])
    refine hplain rfl rfl (fun _ => ?_) hr
    rw [write] <;> simp
  | @int n h =>
    have hr : Reads (toString n).toList (.number (toString n)) := by
      have := (isNumber_toString n).reads
      rwa [String.ofList_toList] at this
    refine hplain rfl (by rw [plain, if_pos h]) (fun _ => ?_) hr
    rw [write] <;> simp
  | float h =>
    refine hplain rfl rfl (fun _ => ?_) (reads_number h)
    rw [write] <;> simp
  | str s =>
    intro level chars j hj hw
    rw [Value.toJson?] at hj
    rw [write] at hw
    obtain rfl := Option.some.inj hj
    obtain rfl := Except.ok.inj hw
    have hr := reads_quoted s.toList
    rwa [String.ofList_toList] at hr
  | list h ih => exact fun level chars j => reads_list ih
  | object hd h ih => exact fun level chars j => reads_object hd ih

theorem exists_toJsons? {items : List Value} (h : ∀ v ∈ items, ∃ j, v.toJson? = some j) :
    ∃ js, Value.toJsons? items = some js := by
  induction items with
  | nil => exact ⟨[], rfl⟩
  | cons v items ih =>
    obtain ⟨⟨j, hj⟩, hitems⟩ := List.forall_mem_cons.mp h
    obtain ⟨js, hjs⟩ := ih hitems
    exact ⟨j :: js, by rw [Value.toJsons?, hj, hjs]; rfl⟩

theorem exists_toJsonEntries? {entries : List (String × Value)} (h : ∀ p ∈ entries, ∃ j, p.2.toJson? = some j) :
    ∃ pairs, Value.toJsonEntries? (entries.map fun (key, v) => (.str key, v)) = some pairs := by
  induction entries with
  | nil => exact ⟨[], rfl⟩
  | cons p entries ih =>
    obtain ⟨⟨j, hj⟩, hentries⟩ := List.forall_mem_cons.mp h
    obtain ⟨pairs, hpairs⟩ := ih hentries
    exact ⟨(p.1, j) :: pairs, by rw [List.map_cons, Value.toJsonEntries?, hj, hpairs]; rfl⟩

/-- A regular value is one of JSON. -/
theorem exists_toJson? {v : Value} (h : v.Regular) : ∃ j, v.toJson? = some j := by
  induction h with
  | null | bool | int | float | str => exact ⟨_, rfl⟩
  | list _ ih =>
    obtain ⟨js, hjs⟩ := exists_toJsons? ih
    exact ⟨.array js, by rw [Value.toJson?, hjs]; rfl⟩
  | object _ _ ih =>
    obtain ⟨pairs, hpairs⟩ := exists_toJsonEntries? ih
    exact ⟨.object pairs, by rw [Value.object, Value.toJson?, hpairs]; rfl⟩

/-- The text of a regular value is read as the value of JSON that it is. -/
theorem read_text {v : Value} {text : String} {j : Json} (h : v.Regular) (hj : v.toJson? = some j)
    (ht : JsonText.text layout v = .ok text) : read text = some j := by
  unfold JsonText.text at ht
  split at ht
  · cases ht
  · split at ht
    · cases ht
    · obtain ⟨chars, hw, ht⟩ := Outcome.bind_eq_ok_iff.mp ht
      obtain rfl := Except.ok.inj ht
      have hreads := reads_of_regular h 0 chars j hj hw
      obtain ⟨c, tail, hbegins, hblank, -⟩ := hreads.begins
      have hskip : skip chars = chars :=
        skip_append (List.forall_mem_nil _) (by rw [hbegins]; rintro _ ⟨⟩; exact hblank)
      have hvalue : readValue? (2 * chars.length + 1) (chars ++ []) = some (j, []) :=
        hreads.value (Nat.le_succ _) (by rintro c ⟨⟩)
      rw [List.append_nil] at hvalue
      rw [read, String.toList_ofList, hskip, hvalue]
      rfl

end JsonText

end SceneTree
