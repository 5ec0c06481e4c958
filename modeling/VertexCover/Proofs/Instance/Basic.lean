import Mathlib.Data.List.Forall2
import Mathlib.Data.List.Nodup
import VertexCover.Instance.Basic

/-! What is read item by item, and how the items of a file are numbered. The numbers are distinct, so
that results can be joined with their instances by number as well as by position. -/
namespace VertexCover

theorem bind_eq_ok_iff {ε α β : Type} {x : Except ε α} {f : α → Except ε β} {b : β} :
    x >>= f = .ok b ↔ ∃ a, x = .ok a ∧ f a = .ok b := by
  cases x with
  | error fault => simp [bind, Except.bind]
  | ok a => simp [bind, Except.bind]

theorem mapM_eq_ok_iff {ε α β : Type} {f : α → Except ε β} {xs : List α} {ys : List β} :
    xs.mapM f = .ok ys ↔ List.Forall₂ (fun x y => f x = .ok y) xs ys := by
  induction xs generalizing ys with
  | nil => cases ys <;> simp [pure, Except.pure]
  | cons x xs ih =>
    rw [List.mapM_cons]
    cases ys with
    | nil =>
      cases f x with
      | error cause => simp [bind, Except.bind]
      | ok y => cases xs.mapM f <;> simp [bind, Except.bind, pure, Except.pure]
    | cons y ys =>
      rw [List.forall₂_cons, ← ih]
      cases f x with
      | error cause => simp [bind, Except.bind]
      | ok first => cases xs.mapM f <;> simp [bind, Except.bind, pure, Except.pure]

/-- The first item that fails decides about the cause. -/
theorem mapM_eq_error_iff {ε α β : Type} {f : α → Except ε β} {xs : List α} {cause : ε} :
    xs.mapM f = .error cause ↔ ∃ before x after, xs = before ++ x :: after ∧
      (∀ y ∈ before, ∃ b, f y = .ok b) ∧ f x = .error cause := by
  induction xs with
  | nil => simp [pure, Except.pure]
  | cons x xs ih =>
    rw [List.mapM_cons]
    cases here : f x with
    | error first =>
      change Except.error first = .error cause ↔ _
      rw [Except.error.injEq]
      constructor
      · rintro rfl
        exact ⟨[], x, xs, rfl, by simp, here⟩
      · rintro ⟨before, y, after, split, read, failed⟩
        cases before with
        | nil =>
          obtain ⟨rfl, rfl⟩ := List.cons.inj split
          exact Except.error.inj (here.symm.trans failed)
        | cons z before =>
          obtain ⟨rfl, _⟩ := List.cons.inj split
          obtain ⟨b, ok⟩ := read x List.mem_cons_self
          cases here.symm.trans ok
    | ok b =>
      have later : (Except.ok b >>= fun b => xs.mapM f >>= fun bs => pure (b :: bs)) =
          .error cause ↔ xs.mapM f = .error cause := by
        cases xs.mapM f <;> simp [bind, Except.bind, pure, Except.pure]
      rw [later, ih]
      constructor
      · rintro ⟨before, y, after, rfl, read, failed⟩
        exact ⟨x :: before, y, after, rfl, List.forall_mem_cons.mpr ⟨⟨b, here⟩, read⟩, failed⟩
      · rintro ⟨before, y, after, split, read, failed⟩
        cases before with
        | nil =>
          obtain ⟨rfl, _⟩ := List.cons.inj split
          cases here.symm.trans failed
        | cons z before =>
          obtain ⟨_, rfl⟩ := List.cons.inj split
          exact ⟨before, y, after, rfl, (List.forall_mem_cons.mp read).2, failed⟩

theorem mapM_eq_error {ε α β : Type} {f : α → Except ε β} {xs : List α} {cause : ε}
    (h : xs.mapM f = .error cause) : ∃ x ∈ xs, f x = .error cause := by
  obtain ⟨before, x, after, rfl, _, failed⟩ := mapM_eq_error_iff.mp h
  exact ⟨x, by simp, failed⟩

theorem getElem?_of_forall₂ {α β : Type} {R : α → β → Prop} {xs : List α} {ys : List β}
    (h : List.Forall₂ R xs ys) {i : Nat} {x : α} (here : xs[i]? = some x) :
    ∃ y, ys[i]? = some y ∧ R x y := by
  induction h generalizing i with
  | nil => cases here
  | @cons _ y _ ys related _ ih =>
    cases i with
    | zero =>
      cases here
      exact ⟨y, rfl, related⟩
    | succ i => exact ih here

namespace Instance

variable {ε α : Type}

/-! ## Numbers -/

theorem forall₂_number (items : List (Except ε α)) :
    List.Forall₂ (fun content i => i.content = content) items (number items) := by
  unfold number
  generalize 0 = start
  induction items generalizing start with
  | nil => exact .nil
  | cons content items ih => exact .cons rfl (ih (start + 1))

theorem index_number (items : List (Except ε α)) :
    (number items).map index = (List.range items.length).map fun (i : Nat) => (i : Int) + 1 := by
  apply List.ext_getElem (by simp [number])
  intro i _ _
  simp [number]

theorem nodup_index_number (items : List (Except ε α)) : ((number items).map index).Nodup := by
  rw [index_number]
  refine List.Nodup.map ?_ List.nodup_range
  intro i j same
  dsimp only at same
  omega

theorem content_mem {items : List (Except ε α)} {i : Instance ε α} (h : i ∈ number items) :
    i.content ∈ items := by
  obtain ⟨⟨content, place⟩, listed, rfl⟩ := List.mem_map.mp h
  exact (List.mem_zipIdx' listed).2 ▸ List.getElem_mem _

theorem content_describe {message : Int → ε → String} {i : Instance ε α} {a : α} :
    (i.describe message).content = .ok a ↔ i.content = .ok a := by
  unfold describe
  cases i.content <;> simp

/-- An instance that is read from an item is made of its number and the item alone. -/
theorem number_describe {β : Type} (message : Int → ε → String) (read : β → Except ε α)
    (items : List β) : (number (items.map read)).map (describe message) =
      items.mapIdx fun i item => describe message ⟨(i : Int) + 1, read item⟩ := by
  apply List.ext_getElem (by simp [number])
  intro i _ _
  simp [number]

/-- Items that can all be read are numbered in their order. -/
theorem number_ok (message : Int → ε → String) (items : List α) :
    (number (items.map .ok)).map (describe message) =
      items.mapIdx fun i a => ⟨(i : Int) + 1, .ok a⟩ :=
  number_describe message .ok items

/-! ## Look-up by number -/

/-- The instance with the given number; of several, the last one. -/
def lookup? (instances : List (Instance ε α)) (index : Int) : Option (Instance ε α) :=
  instances.reverse.find? fun i => i.index == index

section
variable {instances : List (Instance ε α)}

theorem lookup?_of_mem (distinct : (instances.map index).Nodup) {i : Instance ε α}
    (listed : i ∈ instances) : lookup? instances i.index = some i := by
  cases found : lookup? instances i.index with
  | none =>
    have other := List.find?_eq_none.mp found i (List.mem_reverse.mpr listed)
    simp at other
  | some j =>
    have there : j ∈ instances := List.mem_reverse.mp (List.mem_of_find?_eq_some found)
    have same : j.index = i.index := by simpa using List.find?_some found
    rw [List.inj_on_of_nodup_map distinct there listed same]

/-- Pairs that a search by number makes one by one, whatever it searches. -/
theorem mapM_search {δ β : Type} {search : Int → Option (Instance ε α)}
    {results : List (Instance δ β)}
    (found : List.Forall₂ (fun i result => search result.index = some i) instances results) :
    results.mapM (fun result => (search result.index).map (·, result)) =
      some (instances.zip results) := by
  induction found with
  | nil => rfl
  | cons here _ ih =>
    rw [List.mapM_cons, here, ih, List.zip_cons_cons]
    rfl

/-- **Results in the order of their instances are joined by number as they are by position.** -/
theorem mapM_lookup? {δ β : Type} {results : List (Instance δ β)}
    (distinct : (instances.map index).Nodup)
    (same : List.Forall₂ (fun i result => result.index = i.index) instances results) :
    results.mapM (fun result => (lookup? instances result.index).map (·, result)) =
      some (instances.zip results) := by
  have listed := (List.forall₂_and_left _ _).mpr ⟨fun i => lookup?_of_mem distinct, same⟩
  apply mapM_search
  refine listed.imp ?_
  rintro i result ⟨found, same⟩
  rwa [same]

end

end Instance

end VertexCover
