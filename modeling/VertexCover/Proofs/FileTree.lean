import Mathlib.Data.List.Basic
import VertexCover.FileTree
import VertexCover.Proofs.Instance.Basic

/-!
# What is written can be read

The place a path names does not depend on the files. Making directories only adds them where nothing
stood, and a file is never written over a directory, so every way through a tree stays open.

* `walk_eq_ok`, `walk_mono`: ways through a tree that has the directories of another;
* `makeDirectory_grows`: making directories keeps what there is;
* `write_eq_ok`, `save_eq_ok`: a file is put at the place of its path;
* `save_holds`, `Holds.save`: the file has the text that was saved, until another is saved there;
* `Holds.readLines`: the lines of the text are read.
-/

namespace VertexCover

/-- The place a path names, if there is a way to it. -/
def placeOf (path : String) : Place := (pathParts path).foldl Place.step (startOf path)

namespace FileTree

variable {t u : FileTree} {path : String} {place : Place} {entry : FileEntry}

/-- The directories of the one tree are directories of the other. -/
def KeepsWays (t u : FileTree) : Prop :=
  ∀ place, t.entry? place = some .directory → u.entry? place = some .directory

/-- What stands in the one tree stands in the other. -/
def Grows (t u : FileTree) : Prop :=
  ∀ place entry, t.entry? place = some entry → u.entry? place = some entry

theorem Grows.refl (t : FileTree) : t.Grows t := fun _ _ => id

theorem Grows.trans {v : FileTree} (first : t.Grows u) (second : u.Grows v) : t.Grows v :=
  fun place entry stands => second place entry (first place entry stands)

theorem Grows.keepsWays (h : t.Grows u) : t.KeepsWays u := fun place => h place .directory

/-! ## Putting an entry -/

theorem lookup_filter {α β : Type} [BEq α] [LawfulBEq α] {a b : α} (different : b ≠ a)
    (entries : List (α × β)) :
    (entries.filter fun e => e.1 != a).lookup b = entries.lookup b := by
  induction entries with
  | nil => rfl
  | cons e entries ih =>
    by_cases same : e.1 = a
    · have passed : (b == e.1) = false := beq_false_of_ne fun h => different (h.trans same)
      rw [List.filter_cons_of_neg (by simp [same]), ih, List.lookup_cons, passed]
    · rw [List.filter_cons_of_pos (by simp [same]), List.lookup_cons, List.lookup_cons, ih]

/-- An entry that is not put over a directory changes nothing else. -/
theorem stands_put (free : t.entry? place ≠ some .directory) (other : Place) :
    FileTree.entry? (t.put place entry) other =
      if other = place then some entry else t.entry? other := by
  by_cases fixed : (other = ["/"] || other.all (· == "..")) = true
  · have different : other ≠ place := by
      rintro rfl
      exact free (if_pos fixed)
    rw [if_neg different, entry?, entry?, if_pos fixed, if_pos fixed]
  · unfold entry?
    rw [if_neg fixed, if_neg fixed]
    by_cases same : other = place
    · rw [if_pos same, put, same, List.lookup_cons_self]
    · rw [if_neg same, put, List.lookup_cons, beq_false_of_ne same]
      exact lookup_filter same t.entries

theorem keepsWays_put (free : t.entry? place ≠ some .directory) :
    t.KeepsWays (t.put place entry) := by
  intro other way
  have different : other ≠ place := by
    rintro rfl
    exact free way
  rw [stands_put free, if_neg different, way]

theorem put_grows (nothing : t.entry? place = none) : t.Grows (t.put place entry) := by
  intro other old stands
  have different : other ≠ place := by
    rintro rfl
    rw [nothing] at stands
    cases stands
  rw [stands_put (by simp [nothing]), if_neg different, stands]

/-! ## Ways -/

theorem enter_eq_ok_iff : t.enter path place = .ok () ↔ t.entry? place = some .directory := by
  unfold enter
  split <;> simp_all

theorem look_eq_ok {name : String} {found : Place} (h : look path place name = .ok found) :
    found = place.step name := by
  unfold look at h
  split at h
  · cases h
  · exact (Except.ok.inj h).symm

theorem walk_cons_eq_ok_iff {name : String} {names : List String} {found : Place} :
    t.walk path place (name :: names) = .ok found ↔ t.entry? place = some .directory ∧
      ∃ next, look path place name = .ok next ∧ t.walk path next names = .ok found := by
  rw [walk, bind_eq_ok_iff]
  constructor
  · rintro ⟨_, entered, later⟩
    exact ⟨enter_eq_ok_iff.mp entered, bind_eq_ok_iff.mp later⟩
  · rintro ⟨entered, later⟩
    exact ⟨(), enter_eq_ok_iff.mpr entered, bind_eq_ok_iff.mpr later⟩

/-- A way leads where its names say. -/
theorem walk_eq_ok {names : List String} {found : Place}
    (h : t.walk path place names = .ok found) : found = names.foldl Place.step place := by
  induction names generalizing place with
  | nil => exact (Except.ok.inj h).symm
  | cons name names ih =>
    obtain ⟨_, next, looked, h⟩ := walk_cons_eq_ok_iff.mp h
    rw [List.foldl_cons, ← look_eq_ok looked]
    exact ih h

/-- A way stays open if the directories stay. -/
theorem walk_mono (keeps : t.KeepsWays u) {names : List String} {found : Place}
    (h : t.walk path place names = .ok found) : u.walk path place names = .ok found := by
  induction names generalizing place with
  | nil => exact h
  | cons name names ih =>
    obtain ⟨entered, next, looked, h⟩ := walk_cons_eq_ok_iff.mp h
    exact walk_cons_eq_ok_iff.mpr ⟨keeps place entered, next, looked, ih h⟩

theorem walk_concat {names : List String} {name : String} {directory found : Place}
    (way : t.walk path place names = .ok directory) (entered : t.entry? directory = some .directory)
    (looked : look path directory name = .ok found) :
    t.walk path place (names ++ [name]) = .ok found := by
  induction names generalizing place with
  | nil =>
    cases way
    exact walk_cons_eq_ok_iff.mpr ⟨entered, found, looked, rfl⟩
  | cons other names ih =>
    obtain ⟨first, next, step, way⟩ := walk_cons_eq_ok_iff.mp way
    exact walk_cons_eq_ok_iff.mpr ⟨first, next, step, ih way⟩

/-! ## Making directories -/

/-- A directory is made where nothing stood. -/
theorem makeOne_grows (h : t.makeOne path = .ok u) : t.Grows u := by
  unfold makeOne at h
  obtain ⟨⟨directory, last⟩, _, h⟩ := bind_eq_ok_iff.mp h
  cases last with
  | none => cases h
  | some name =>
    simp only at h
    split at h
    · cases h
    · obtain ⟨place, _, h⟩ := bind_eq_ok_iff.mp h
      split at h
      · cases h
      · rename_i nothing
        cases h
        exact put_grows nothing

theorem ensureOne_grows (t : FileTree) (path : String) : t.Grows (t.ensureOne path).2 := by
  unfold ensureOne
  split
  · rename_i made h
    exact makeOne_grows h
  · exact .refl t

theorem ensure_grows (t : FileTree) (root : String) (names : List String) :
    t.Grows (t.ensure root names).2 := by
  induction names with
  | nil => exact ensureOne_grows t _
  | cons name above ih =>
    rw [ensure]
    split
    · rename_i made h
      exact makeOne_grows h
    · split
      · rename_i made h
        rw [h] at ih
        exact ih.trans (ensureOne_grows made _)
      · exact ih
    · exact .refl t

theorem makeDirectory_grows (t : FileTree) (p : Path) : t.Grows (t.makeDirectory p).2 :=
  ensure_grows t p.root p.names.reverse

/-! ## Writing -/

/-- There is a way to the place of the path, which may be that of a file. -/
structure Reaches (t : FileTree) (path : String) : Prop where
  checked : checkPath path = .ok ()
  plain : endsInSlash path = false
  way : t.walk path (startOf path) (pathParts path) = .ok (placeOf path)

theorem Reaches.mono (h : t.Reaches path) (keeps : t.KeepsWays u) : u.Reaches path :=
  ⟨h.checked, h.plain, walk_mono keeps h.way⟩

theorem locateParent_eq_ok {directory : Place} {last : Option String}
    (h : t.locateParent path = .ok (directory, last)) : checkPath path = .ok () ∧
      t.walk path (startOf path) (pathParts path).dropLast = .ok directory ∧
      t.entry? directory = some .directory ∧ last = (pathParts path).getLast? := by
  obtain ⟨_, checked, h⟩ := bind_eq_ok_iff.mp h
  obtain ⟨reached, way, h⟩ := bind_eq_ok_iff.mp h
  obtain ⟨_, entered, h⟩ := bind_eq_ok_iff.mp h
  cases h
  exact ⟨checked, way, enter_eq_ok_iff.mp entered, rfl⟩

/-- A file is written at the place of its path, and not over a directory. -/
theorem write_eq_ok (h : t.write path entry = .ok u) : t.Reaches path ∧
    t.entry? (placeOf path) ≠ some .directory ∧ u = t.put (placeOf path) entry := by
  obtain ⟨⟨directory, last⟩, parent, h⟩ := bind_eq_ok_iff.mp h
  obtain ⟨checked, way, entered, same⟩ := locateParent_eq_ok parent
  cases last with
  | none => cases h
  | some name =>
    simp only at h
    split at h
    · cases h
    · rename_i plain
      obtain ⟨place, looked, h⟩ := bind_eq_ok_iff.mp h
      have names := List.dropLast_append_getLast? name same.symm
      have whole : t.walk path (startOf path) (pathParts path) = .ok place := by
        rw [← names]
        exact walk_concat way entered looked
      obtain rfl : place = placeOf path := walk_eq_ok whole
      split at h
      · cases h
      · rename_i free
        cases h
        exact ⟨⟨checked, by simp_all, whole⟩, free, rfl⟩

/-- A text is saved by making directories and then putting the file at the place of its path. -/
theorem save_eq_ok {text : String} (h : t.save path text = (.ok (), u)) :
    ∃ made, t.Grows made ∧ made.Reaches path ∧ made.entry? (placeOf path) ≠ some .directory ∧
      u = made.put (placeOf path) (.file text.toUTF8) := by
  have grows := makeDirectory_grows t (Path.ofText path).parent
  unfold save at h
  split at h
  · rename_i made ensured
    rw [ensured] at grows
    split at h
    · cases h
    · rename_i written write
      cases h
      exact ⟨made, grows, write_eq_ok write⟩
  · rename_i failed
    exact absurd h (failed u)

/-! ## Reading -/

/-- The path leads to a file with the content. -/
structure Holds (t : FileTree) (path : String) (content : ByteArray) : Prop extends
    t.Reaches path where
  stands : t.entry? (placeOf path) = some (.file content)

variable {text : String} {content : ByteArray}

theorem Holds.read (h : t.Holds path content) : t.read path = .ok content := by
  have located : t.locate path = .ok (placeOf path) :=
    bind_eq_ok_iff.mpr ⟨(), h.checked, h.way⟩
  simp [FileTree.read, located, bind, Except.bind, h.stands, h.plain]

theorem Holds.readLines (h : t.Holds path text.toUTF8) :
    t.readLines path = .ok (Text.lines text) := by
  have decoded : String.fromUTF8? text.toUTF8 = some text := dif_pos text.isValidUTF8
  simp only [FileTree.readLines, h.read, bind, Except.bind, decoded]

/-- **What is saved can be read.** -/
theorem save_holds (h : t.save path text = (.ok (), u)) : u.Holds path text.toUTF8 := by
  obtain ⟨made, _, reaches, free, rfl⟩ := save_eq_ok h
  refine ⟨reaches.mono (keepsWays_put free), ?_⟩
  rw [stands_put free, if_pos rfl]

/-- **Saving a text keeps the files at other places.** -/
theorem Holds.save {other : String} (h : t.Holds other content)
    (saved : t.save path text = (.ok (), u)) (apart : placeOf other ≠ placeOf path) :
    u.Holds other content := by
  obtain ⟨made, grows, _, free, rfl⟩ := save_eq_ok saved
  refine ⟨(h.mono grows.keepsWays).mono (keepsWays_put free), ?_⟩
  rw [stands_put free, if_neg apart]
  exact grows _ _ h.stands

/-- Any text can be saved at the path. -/
def Writable (t : FileTree) (path : String) : Prop := ∀ text, (t.save path text).1 = .ok ()

theorem Writable.save_eq (h : t.Writable path) (text : String) :
    t.save path text = (.ok (), (t.save path text).2) := Prod.ext (h text) rfl

end FileTree

end VertexCover
