import SceneTree.Proofs.Node.Build
import SceneTree.Proofs.Text.Pattern

/-!
# The extension of an address

A pattern finds the extension of an address: a dot, and then neither dots nor slashes up to the end. What it finds is
what stands after the last dot. A picture without an image type and a sound without an extension get theirs from the
address of the file, or a default where the address has none.
-/

namespace SceneTree

variable {address found : List Char}

/-! ### What the pattern finds -/

/-- Neither a dot nor a slash. -/
def inExtension (c : Char) : Bool := c != '.' && c != '/'

/-- A dot, and then neither dots nor slashes up to the end; these are remembered. -/
def extensionPattern : Text.Pattern := .next (.one (· = '.')) (.next (.group (.many inExtension)) .ending)

/-- The extension that the pattern finds in an address, unless it is empty. -/
def searchedExtension? (address : List Char) : Option (List Char) :=
  (extensionPattern.search address).bind fun m => m.remembered.filter fun text => !text.isEmpty

theorem all_inExtension_iff : found.all inExtension = true ↔ '.' ∉ found ∧ '/' ∉ found := by
  rw [List.all_eq_true]
  constructor
  · intro h
    exact ⟨fun hdot => absurd (h _ hdot) (by decide), fun hslash => absurd (h _ hslash) (by decide)⟩
  · rintro ⟨hdot, hslash⟩ c hc
    have hd : c ≠ '.' := fun h => hdot (h ▸ hc)
    have hs : c ≠ '/' := fun h => hslash (h ▸ hc)
    simp [inExtension, hd, hs]

theorem afterLastDot?_eq_none_iff : afterLastDot? address = none ↔ '.' ∉ address := by
  induction address with
  | nil => simp [afterLastDot?]
  | cons c rest ih =>
    rw [afterLastDot?]
    cases h : afterLastDot? rest with
    | some found => simp [not_imp_not.mpr ih.mpr, h]
    | none =>
      have := ih.mp h
      by_cases hc : c = '.' <;> simp [hc, this, eq_comm]

/-- Either an address is an extension behind a dot, or it has the extension that it has without its first character. -/
theorem extension?_cons (c : Char) (rest : List Char) :
    extension? (c :: rest) =
      if c = '.' ∧ rest.all inExtension = true then (if rest = [] then none else some rest) else extension? rest := by
  simp only [extension?, afterLastDot?, all_inExtension_iff]
  cases h : afterLastDot? rest with
  | some found =>
    have hdot : ¬ (c = '.' ∧ '.' ∉ rest ∧ '/' ∉ rest) := by
      rintro ⟨-, hno, -⟩
      rw [afterLastDot?_eq_none_iff.mpr hno] at h
      cases h
    rw [if_neg hdot]
  | none =>
    have hno : '.' ∉ rest := afterLastDot?_eq_none_iff.mp h
    by_cases hc : c = '.'
    · by_cases hslash : '/' ∈ rest <;> simp [hc, hno, hslash]
    · simp [hc]

/-- The pattern finds the extension of an address. -/
theorem searchedExtension?_eq (address : List Char) : searchedExtension? address = extension? address := by
  induction address with
  | nil => rfl
  | cons c rest ih =>
    have hhere : (extensionPattern.ways (c :: rest)).head? =
        if c = '.' ∧ rest.all inExtension = true then some ⟨c :: rest, [], some rest⟩ else none := by
      rw [extensionPattern, Text.Pattern.ways, Text.Pattern.ways]
      by_cases hc : c = '.'
      · rw [if_pos (by simpa using hc), List.flatMap_singleton, List.head?_map, Text.Pattern.head?_ways_toEnd rfl]
        by_cases hall : rest.all inExtension = true <;> simp [hc, hall]
      · simp [hc]
    rw [searchedExtension?] at ih ⊢
    rw [Text.Pattern.search, hhere, extension?_cons]
    by_cases hmatch : c = '.' ∧ rest.all inExtension = true
    · rw [if_pos hmatch, if_pos hmatch]
      cases rest <;> rfl
    · rw [if_neg hmatch, if_neg hmatch]
      exact ih

/-- An extension is what stands after the last dot, if that is something and holds no slash. -/
theorem extension?_eq_some_iff :
    extension? address = some found ↔
      ∃ before, address = before ++ '.' :: found ∧ found ≠ [] ∧ '.' ∉ found ∧ '/' ∉ found := by
  induction address with
  | nil => simp [extension?, afterLastDot?]
  | cons c rest ih =>
    rw [extension?_cons]
    constructor
    · intro h
      split at h
      · next hc =>
        split at h
        · cases h
        · next hne =>
          cases h
          exact ⟨[], by rw [hc.1]; rfl, hne, all_inExtension_iff.mp hc.2⟩
      · obtain ⟨before, rfl, hfound⟩ := ih.mp h
        exact ⟨c :: before, rfl, hfound⟩
    · rintro ⟨before, heq, hne, hin⟩
      cases before with
      | nil =>
        obtain ⟨rfl, rfl⟩ := List.cons.inj heq
        rw [if_pos ⟨rfl, all_inExtension_iff.mpr hin⟩, if_neg hne]
      | cons d before =>
        obtain ⟨rfl, rfl⟩ := List.cons.inj heq
        rw [if_neg fun h => (all_inExtension_iff.mp h.2).1 (by simp)]
        exact ih.mpr ⟨before, rfl, hne, hin⟩

/-! ### What nodes make of it -/

namespace Node

variable {kind : Kind} {given : List (Field × Value)} {node node' : Node}

/-- Values are given for fields of a kind only, and for all that it cannot do without. -/
def Admits (kind : Kind) (given : List (Field × Value)) : Prop :=
  (∀ p ∈ given, kind.hasField p.1 = true) ∧ ∀ field ∈ kind.requiredFields, (given.lookup field).isSome = true

/-- The node of a kind before anything on it is computed. -/
def initial (kind : Kind) (given : List (Field × Value)) : Node :=
  ⟨kind, fun field => (given.lookup field).getD (kind.defaultOf field)⟩

/-- A node is built if its kind admits what was given and the node can be completed. -/
theorem build_eq_ok_iff :
    build kind given = .ok node ↔ Admits kind given ∧ complete (initial kind given) = .ok node := by
  rw [build, Admits]
  split
  · next h =>
    obtain ⟨p, hp, hno⟩ := List.any_eq_true.mp h
    simp only [reduceCtorEq, false_iff]
    rintro ⟨⟨hall, -⟩, -⟩
    simp [hall p hp] at hno
  · next h =>
    have hfields : ∀ p ∈ given, kind.hasField p.1 = true := fun p hp => by
      by_contra hno
      exact h (List.any_eq_true.mpr ⟨p, hp, by simpa using hno⟩)
    split
    · next field hfield =>
      simp only [reduceCtorEq, false_iff]
      rintro ⟨⟨-, hall⟩, -⟩
      have hmissing : given.lookup field = none := by simpa using List.find?_some hfield
      simpa [hmissing] using hall field (List.mem_of_find?_eq_some hfield)
    · next hnone =>
      have hrequired : ∀ field ∈ kind.requiredFields, (given.lookup field).isSome = true := fun field hf => by
        simpa [Option.isSome_iff_ne_none] using List.find?_eq_none.mp hnone field hf
      exact ⟨fun h => ⟨⟨hfields, hrequired⟩, h⟩, fun h => h.2⟩

/-- The type of a picture that has none is the extension of its address, which must be a text. -/
theorem completePicture_eq_ok_iff (hnull : (node.get .imageType).isNull = true) :
    node.completePicture = .ok node' ↔ ∃ address, node.get .fileurl = .str address ∧
      node' = (node.setDefault .thumbUrl (.str address)).set .imageType
        (.str (((extension? address.toList).map String.ofList).getD "png")) := by
  have hget : ∀ v field, field ≠ .thumbUrl → (node.setDefault .thumbUrl v).get field = node.get field :=
    fun v field hne => (node.get_setDefault .thumbUrl field v).resolve_right fun h => hne h.1
  rw [completePicture]
  simp only [hget _ .imageType (by decide), hget _ .fileurl (by decide), hnull, if_true]
  cases hurl : node.get .fileurl with
  | str address =>
    simp only [extensionOf, Value.str.injEq, exists_eq_left']
    exact ⟨fun h => (Except.ok.inj h).symm, fun h => congrArg _ h.symm⟩
  | _ =>
    constructor
    · intro h
      cases h
    · rintro ⟨_, h, -⟩
      cases h

/-- The extension of a sound that has none is that of its address, which must be a text. -/
theorem completeSound_eq_ok_iff (hnull : (node.get .ext).isNull = true) :
    node.completeSound = .ok node' ↔ ∃ address, node.get .fileurl = .str address ∧
      node' = node.set .ext
        (.str (((extension? address.toList).map fun found => "." ++ String.ofList found).getD ".mp3")) := by
  rw [completeSound]
  simp only [hnull, if_true]
  cases hurl : node.get .fileurl with
  | str address =>
    simp only [extensionOf, Value.str.injEq, exists_eq_left']
    cases hfound : extension? address.toList <;>
      exact ⟨fun h => (Except.ok.inj h).symm, fun h => congrArg _ h.symm⟩
  | _ =>
    constructor
    · intro h
      cases h
    · rintro ⟨_, h, -⟩
      cases h

/-- The image type is not empty and has neither dots nor slashes, and with a dot before it the address ends with it,
unless the address has no extension and the type is the default. -/
def ImageTyped (node : Node) : Prop :=
  ∃ address type, node.get .fileurl = .str address ∧ node.get .imageType = .str type ∧ type ≠ "" ∧
    '.' ∉ type.toList ∧ '/' ∉ type.toList ∧
    ('.' :: type.toList <:+ address.toList ∨ extension? address.toList = none ∧ type = "png")

/-- The extension is one dot and what has none, and the address ends with it, unless the address has no extension and
that of the sound is the default. -/
def SoundTyped (node : Node) : Prop :=
  ∃ address ext, node.get .fileurl = .str address ∧ node.get .ext = .str ext ∧
    (∃ rest, ext.toList = '.' :: rest ∧ '.' ∉ rest) ∧
    (ext.toList <:+ address.toList ∨ extension? address.toList = none ∧ ext = ".mp3")

theorem imageTyped_of_completePicture (hnull : (node.get .imageType).isNull = true)
    (h : node.completePicture = .ok node') : node'.ImageTyped := by
  obtain ⟨address, hurl, rfl⟩ := (completePicture_eq_ok_iff hnull).mp h
  have hkept : ((node.setDefault .thumbUrl (.str address)).set .imageType
      (.str (((extension? address.toList).map String.ofList).getD "png"))).get .fileurl = .str address := by
    rw [get_set_of_ne _ _ (by decide : Field.fileurl ≠ .imageType),
      (node.get_setDefault .thumbUrl .fileurl _).resolve_right fun h => absurd h.1 (by decide), hurl]
  refine ⟨address, _, hkept, get_set_self _ _ _, ?_⟩
  cases hfound : extension? address.toList with
  | none =>
    refine ⟨by decide, by decide, by decide, .inr ⟨rfl, rfl⟩⟩
  | some found =>
    obtain ⟨before, heq, hne, hdot, hslash⟩ := extension?_eq_some_iff.mp hfound
    simp only [Option.map_some, Option.getD_some, String.toList_ofList]
    refine ⟨fun h => hne ?_, hdot, hslash, .inl ⟨before, heq.symm⟩⟩
    simpa using congrArg String.toList h

theorem soundTyped_of_completeSound (hnull : (node.get .ext).isNull = true) (h : node.completeSound = .ok node') :
    node'.SoundTyped := by
  obtain ⟨address, hurl, rfl⟩ := (completeSound_eq_ok_iff hnull).mp h
  refine ⟨address, _, (get_set_of_ne _ _ (by decide : Field.fileurl ≠ .ext)).trans hurl, get_set_self _ _ _, ?_⟩
  cases hfound : extension? address.toList with
  | none =>
    exact ⟨⟨['m', 'p', '3'], by decide, by decide⟩, .inr ⟨rfl, rfl⟩⟩
  | some found =>
    obtain ⟨before, heq, -, hdot, -⟩ := extension?_eq_some_iff.mp hfound
    have hext : ("." ++ String.ofList found).toList = '.' :: found := by simp
    simp only [Option.map_some, Option.getD_some, hext]
    exact ⟨⟨found, rfl, hdot⟩, .inl ⟨before, heq.symm⟩⟩

end Node

/-- An extension is what the pattern finds, and that is what stands after the last dot, if that is something and holds
no slash. A picture without an image type is built from any address that is a text, and so is a sound without an
extension; the address determines what they get. -/
theorem extension_settles_fileTypes :
    (∀ address, extension? address = searchedExtension? address ∧
      ∀ found, extension? address = some found ↔
        ∃ before, address = before ++ '.' :: found ∧ found ≠ [] ∧ '.' ∉ found ∧ '/' ∉ found) ∧
      (∀ given, ((Node.initial .picture given).get .imageType).isNull = true →
        ((∃ node, Node.build .picture given = .ok node) ↔
          Node.Admits .picture given ∧ ∃ address, (Node.initial .picture given).get .fileurl = .str address) ∧
        ∀ node, Node.build .picture given = .ok node → node.ImageTyped) ∧
      ∀ given, ((Node.initial .sound given).get .ext).isNull = true →
        ((∃ node, Node.build .sound given = .ok node) ↔
          Node.Admits .sound given ∧ ∃ address, (Node.initial .sound given).get .fileurl = .str address) ∧
        ∀ node, Node.build .sound given = .ok node → node.SoundTyped := by
  refine ⟨fun address => ⟨(searchedExtension?_eq address).symm, fun found => extension?_eq_some_iff⟩,
    fun given hnull => ?_, fun given hnull => ?_⟩
  · have hbuild : ∀ node, Node.build .picture given = .ok node ↔ Node.Admits .picture given ∧
        (Node.initial .picture given).completePicture = .ok node := fun node => Node.build_eq_ok_iff
    simp only [hbuild, Node.completePicture_eq_ok_iff hnull]
    refine ⟨by simp, fun node h => ?_⟩
    exact Node.imageTyped_of_completePicture hnull ((Node.completePicture_eq_ok_iff hnull).mpr h.2)
  · have hbuild : ∀ node, Node.build .sound given = .ok node ↔ Node.Admits .sound given ∧
        (Node.initial .sound given).completeSound = .ok node := fun node => Node.build_eq_ok_iff
    simp only [hbuild, Node.completeSound_eq_ok_iff hnull]
    refine ⟨by simp, fun node h => ?_⟩
    exact Node.soundTyped_of_completeSound hnull ((Node.completeSound_eq_ok_iff hnull).mpr h.2)

/-- A picture in a directory with a dot, with two dots in its own name and a line break at the end, and a sound whose
only dot is that of its directory. -/
theorem extension_settles_fileTypes_dottedDirectories :
    searchedExtension? "v2.1/bot.tar.gz\n".toList = some "gz\n".toList ∧
      (∃ node, Node.build .picture [(.fileurl, .str "v2.1/bot.tar.gz\n"), (.name, .str "bot")] = .ok node ∧
        node.ImageTyped) ∧
      searchedExtension? "v2.1/theme".toList = none ∧
      ∃ node, Node.build .sound [(.name, .str "theme"), (.fileurl, .str "v2.1/theme"), (.ext, .null)] = .ok node ∧
        node.SoundTyped := by
  obtain ⟨hsearch, hpicture, hsound⟩ := extension_settles_fileTypes
  obtain ⟨hbuilt, htyped⟩ := hpicture [(.fileurl, .str "v2.1/bot.tar.gz\n"), (.name, .str "bot")] rfl
  obtain ⟨hbuilt', htyped'⟩ := hsound [(.name, .str "theme"), (.fileurl, .str "v2.1/theme"), (.ext, .null)] rfl
  obtain ⟨node, hnode⟩ := hbuilt.mpr ⟨⟨by decide, by decide⟩, "v2.1/bot.tar.gz\n", rfl⟩
  obtain ⟨node', hnode'⟩ := hbuilt'.mpr ⟨⟨by decide, by decide⟩, "v2.1/theme", rfl⟩
  refine ⟨?_, ⟨node, hnode, htyped node hnode⟩, ?_, node', hnode', htyped' node' hnode'⟩
  · rw [← (hsearch _).1, (hsearch _).2]
    exact ⟨"v2.1/bot.tar".toList, by decide, by decide, by decide, by decide⟩
  · rw [← (hsearch _).1]
    decide

end SceneTree
