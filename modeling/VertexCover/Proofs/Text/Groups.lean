import Mathlib.Data.List.Basic

/-!
# Groups in parentheses

* `groups`: what stands between each opening parenthesis and the next closing one;
* `groups_intercalate`: texts that are written in parentheses, with marks between them, are the
  groups of what is written.
-/

namespace VertexCover.Text

variable {c : Char} {before body cs sep : List Char} {bodies : List (List Char)}

/-- The texts after the opening parentheses, each up to the next closing one. -/
def groups : List Char → List (List Char)
  | [] => []
  | c :: cs => if c = '(' then cs.takeWhile (· ≠ ')') :: groups cs else groups cs

theorem groups_append (plain : '(' ∉ before) : groups (before ++ cs) = groups cs := by
  induction before with
  | nil => rfl
  | cons c before ih =>
    rw [List.mem_cons, not_or] at plain
    rw [List.cons_append, groups, if_neg (Ne.symm plain.1), ih plain.2]

theorem groups_enclosed (opened : '(' ∉ body) (closed : ')' ∉ body) :
    groups ('(' :: (body ++ ')' :: cs)) = body :: groups cs := by
  have ended : (body ++ ')' :: cs).takeWhile (· ≠ ')') = body := by
    rw [List.takeWhile_append_of_pos]
    · simp
    · exact fun c hc => decide_eq_true fun same => closed (same ▸ hc)
  have rest : groups (body ++ ')' :: cs) = groups cs := by
    rw [groups_append opened]
    rfl
  rw [groups, if_pos rfl, ended, rest]

/-- A character that is no part of the separator comes from one of the texts. -/
theorem mem_intercalate (other : c ∉ sep) : c ∈ sep.intercalate bodies ↔ ∃ b ∈ bodies, c ∈ b := by
  induction bodies with
  | nil => simp
  | cons body bodies ih =>
    cases bodies with
    | nil => simp
    | cons next bodies =>
      rw [List.intercalate_cons_cons, List.mem_append, List.mem_append, ih]
      simp [other]

/-- Texts without parentheses are read back from between theirs. -/
theorem groups_intercalate (between : '(' ∉ sep)
    (plain : ∀ body ∈ bodies, '(' ∉ body ∧ ')' ∉ body) :
    groups (sep.intercalate (bodies.map fun body => '(' :: (body ++ [')']))) = bodies := by
  induction bodies with
  | nil => rfl
  | cons body bodies ih =>
    obtain ⟨opened, closed⟩ := plain body List.mem_cons_self
    have later := ih fun other ho => plain other (List.mem_cons_of_mem _ ho)
    cases bodies with
    | nil =>
      rw [List.map_singleton, List.intercalate_singleton]
      exact groups_enclosed opened closed
    | cons next bodies =>
      rw [List.map_cons] at later
      rw [List.map_cons, List.map_cons, List.intercalate_cons_cons]
      simp only [List.cons_append, List.append_assoc, List.nil_append]
      rw [groups_enclosed opened closed, groups_append between, later]

example : groups "( T| F)^( F| F)".toList = [" T| F".toList, " F| F".toList] := by decide

end VertexCover.Text
