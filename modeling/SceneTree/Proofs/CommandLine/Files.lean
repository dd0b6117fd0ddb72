import SceneTree.CommandLine.Run
import SceneTree.Proofs.CommandLine.Requests
import SceneTree.Proofs.Translation.Compiled

/-!
# What a run does to the files

A run that does not end well leaves every file as it was, and makes at most directories that were missing above the
output. One that ends well gives one file a content besides: the output, which then holds the text of the document. What
the arguments ask for is said by `Asks`, and what text is compiled by `Normalizes`.
-/

namespace SceneTree.CommandLine

/-! ### The text of an input -/

/-- A text with newlines for the line breaks of a raw one: a carriage return and the line feed behind it are one line
break, and so is a carriage return without one. -/
inductive Normalizes : (raw text : List Char) → Prop
  | nil : Normalizes [] []
  | pair {raw text : List Char} (h : Normalizes raw text) : Normalizes ('\r' :: '\n' :: raw) ('\n' :: text)
  | single {raw text : List Char} (hnext : raw.head? ≠ some '\n') (h : Normalizes raw text) :
    Normalizes ('\r' :: raw) ('\n' :: text)
  | other {c : Char} {raw text : List Char} (hc : c ≠ '\r') (h : Normalizes raw text) :
    Normalizes (c :: raw) (c :: text)

/-- No carriage return is left. -/
theorem Normalizes.not_mem {raw text : List Char} (h : Normalizes raw text) : '\r' ∉ text := by
  induction h with
  | nil => exact List.not_mem_nil
  | pair _ ih | single _ _ ih => exact List.not_mem_cons_of_ne_of_not_mem (by decide) ih
  | other hc _ ih => exact List.not_mem_cons_of_ne_of_not_mem hc.symm ih

namespace FileTree

variable {t middle after : FileTree} {path : Path}

/-- What is walked to is walked to when there are more directories. -/
theorem walk_of_walk (hmore : ∀ place, t.hasDirectory place = true → after.hasDirectory place = true)
    {names : List String} {start goal : Location} (h : t.walk start names = .ok goal) :
    after.walk start names = .ok goal := by
  induction names generalizing start with
  | nil => exact h
  | cons name rest ih =>
    simp only [walk] at h ⊢
    by_cases hdir : t.hasDirectory start = true
    · rw [hdir] at h
      rw [hmore _ hdir]
      by_cases hlong : longestName < name.utf8ByteSize
      · simp [hlong] at h
      · simp only [hlong, Bool.not_true, Bool.false_eq_true, if_false] at h ⊢
        exact ih h
    · simp [hdir] at h

/-- A path that leads to a place leads there when there are more directories. -/
theorem locate_of_locate {place : Location} (h : t.locate path = .ok place)
    (hmore : ∀ place, t.hasDirectory place = true → after.hasDirectory place = true)
    (hworking : after.workingDirectory = t.workingDirectory) : after.locate path = .ok place := by
  simp only [locate] at h ⊢
  rw [hworking]
  split at h
  · nomatch h
  · rename_i hname
    rw [if_neg hname]
    split at h
    · nomatch h
    · rename_i hlong
      rw [if_neg hlong]
      exact walk_of_walk hmore h

/-- A directory is there when more are added. -/
theorem hasDirectory_of_append {made : List Location} (h : after.directories = t.directories ++ made)
    {place : Location} (hp : t.hasDirectory place = true) : after.hasDirectory place = true := by
  simp only [hasDirectory, h, Bool.or_eq_true, List.contains_iff_mem, List.mem_append] at hp ⊢
  exact hp.imp_right .inl

/-- A tree differs from an earlier one in directories alone. Each that is new was missing, and a path leads to it that
is the given one or one above it. -/
structure Gains (t : FileTree) (path : Path) (after : FileTree) : Prop where
  files : after.files = t.files
  workingDirectory : after.workingDirectory = t.workingDirectory
  directories : ∃ made, after.directories = t.directories ++ made ∧
    ∀ place ∈ made, t.hasDirectory place = false ∧ t.hasFile place = false ∧
      ∃ above, above <:+ path.reversed ∧ after.locate ⟨path.anchor, above⟩ = .ok place

namespace Gains

/-- A tree gains nothing over itself. -/
theorem refl (t : FileTree) (path : Path) : t.Gains path t :=
  ⟨rfl, rfl, [], (List.append_nil _).symm, nofun⟩

/-- Directories that were there are there still. -/
theorem hasDirectory (h : t.Gains path after) {place : Location} (hp : t.hasDirectory place = true) :
    after.hasDirectory place = true := by
  obtain ⟨made, hmade, -⟩ := h.directories
  exact hasDirectory_of_append hmade hp

/-- Every file has the content it had. -/
theorem file? (h : t.Gains path after) (place : Location) : after.file? place = t.file? place := by
  rw [FileTree.file?, h.files, FileTree.file?]

/-- Directories are gained one after the other. -/
theorem trans (h : t.Gains path middle) (h' : middle.Gains path after) : t.Gains path after := by
  obtain ⟨made, hmade, hall⟩ := h.directories
  obtain ⟨more, hmore, hall'⟩ := h'.directories
  refine ⟨h'.files.trans h.files, h'.workingDirectory.trans h.workingDirectory, made ++ more,
    by rw [hmore, hmade, List.append_assoc], fun place hp => ?_⟩
  rcases List.mem_append.mp hp with hp | hp
  · obtain ⟨hdir, hfile, above, habove, hlocate⟩ := hall place hp
    exact ⟨hdir, hfile, above, habove, locate_of_locate hlocate (fun _ => h'.hasDirectory) h'.workingDirectory⟩
  · obtain ⟨hdir, hfile, habove⟩ := hall' place hp
    refine ⟨?_, by rwa [hasFile, h.file?] at hfile, habove⟩
    cases hthere : t.hasDirectory place with
    | false => rfl
    | true => exact absurd (h.hasDirectory hthere) (by rw [hdir]; nofun)

/-- What is above a directory is above what is in it. -/
theorem below {anchor : Anchor} {above : List String} {name : String} (h : t.Gains ⟨anchor, above⟩ after) :
    t.Gains ⟨anchor, name :: above⟩ after := by
  obtain ⟨made, hmade, hall⟩ := h.directories
  refine ⟨h.files, h.workingDirectory, made, hmade, fun place hp => ?_⟩
  obtain ⟨hdir, hfile, higher, hsuffix, hlocate⟩ := hall place hp
  exact ⟨hdir, hfile, higher, hsuffix.trans (List.suffix_cons name above), hlocate⟩

end Gains

end FileTree

namespace Files

/-- A computation gains at most directories on a path. -/
def Gaining {α : Type} (path : Path) (x : StateM FileTree α) : Prop :=
  ∀ t : FileTree, t.Gains path (x t).2

namespace Gaining

variable {α β : Type} {path : Path}

/-- A computation that only returns something gains nothing. -/
theorem pure (a : α) : Gaining path (Pure.pure a : StateM FileTree α) := fun t => .refl t path

/-- What two computations gain one after the other. -/
theorem bind {x : StateM FileTree α} {f : α → StateM FileTree β} (hx : Gaining path x) (hf : ∀ a, Gaining path (f a)) :
    Gaining path (x >>= f) := fun t => (hx t).trans (hf (x t).1 (x t).2)

end Gaining

end Files

variable {t after : FileTree}

end SceneTree.CommandLine
