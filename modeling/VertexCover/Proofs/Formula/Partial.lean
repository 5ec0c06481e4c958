import VertexCover.Formula.Render
import VertexCover.Proofs.Formula.Evaluation
import VertexCover.Proofs.Instance.Basic
import VertexCover.Proofs.Text.Groups

/-!
# Partial assignments

Evaluation stops at the first true literal of a clause and at the first false clause, so it may not
notice that a variable has no value. The text with the truth values shows every literal, so it needs
all of them.

* `evaluate_extended`: a value that was found stays as it is when more variables get values;
* `renderUnder_eq`: the text with the truth values, or the first variable that has none;
* `groups_joined`: the clauses are read off the text as its groups;
* `renderUnder_evaluate`: the text and the value of a formula agree.
-/

namespace VertexCover
open Text

variable {a b : Assignment} {l : Literal} {c : Clause} {f : Formula} {value : Bool}

/-- The second assignment has all values of the first one, and possibly more. -/
def Assignment.ExtendedBy (a b : Assignment) : Prop :=
  ∀ v value, a v = some value → b v = some value

/-! ## More values -/

/-- What is returned stays if both steps return whatever they returned before. -/
theorem bind_eq_ok_mono {ε α β : Type} {x y : Except ε α} {f g : α → Except ε β} {result : β}
    (first : ∀ r, x = .ok r → y = .ok r) (rest : ∀ r, f r = .ok result → g r = .ok result)
    (returned : x >>= f = .ok result) : y >>= g = .ok result := by
  obtain ⟨r, here, later⟩ := bind_eq_ok_iff.mp returned
  exact bind_eq_ok_iff.mpr ⟨r, first r here, rest r later⟩

theorem Literal.isTrue_extended (extended : a.ExtendedBy b) (found : l.isTrue a = .ok value) :
    l.isTrue b = .ok value := by
  cases here : a l.var with
  | none => simp [Literal.isTrue, here] at found
  | some held =>
    rw [← found]
    simp [Literal.isTrue, here, extended l.var held here]

theorem Clause.evaluate_extended (extended : a.ExtendedBy b) (found : c.evaluate a = .ok value) :
    c.evaluate b = .ok value := by
  unfold Clause.evaluate at found ⊢
  refine bind_eq_ok_mono (fun _ => Literal.isTrue_extended extended) (fun first found => ?_) found
  cases first with
  | true => exact found
  | false =>
    refine bind_eq_ok_mono (fun _ => Literal.isTrue_extended extended) (fun second found => ?_)
      found
    cases second with
    | true => exact found
    | false => exact Literal.isTrue_extended extended found

namespace Formula

theorem evaluateAll_extended {clauses : List Clause} (extended : a.ExtendedBy b)
    (found : evaluateAll a clauses = .ok value) : evaluateAll b clauses = .ok value := by
  induction clauses with
  | nil => exact found
  | cons c rest ih =>
    unfold evaluateAll at found ⊢
    refine bind_eq_ok_mono (fun _ => Clause.evaluate_extended extended) (fun holds found => ?_)
      found
    cases holds with
    | true => exact ih found
    | false => exact found

/-- A value that was found stays as it is when more variables get values. -/
theorem evaluate_extended (extended : a.ExtendedBy b) (found : f.evaluate a = .ok value) :
    f.evaluate b = .ok value := evaluateAll_extended extended found

/-! ## The text with the truth values -/

/-- The truth value of a literal in two columns. -/
def truthMark (a : Assignment) (l : Literal) : String := if l.Holds a then " T" else " F"

/-- The truth values of the literals of a clause. -/
def shown (a : Assignment) (c : Clause) : List String := c.literals.map (truthMark a)

/-- The first literal whose variable has no value. -/
def firstMissing (a : Assignment) (literals : List Literal) : Option Literal :=
  literals.find? fun l => (a l.var).isNone

theorem firstMissing_eq_none {literals : List Literal} :
    firstMissing a literals = none ↔ ∀ l ∈ literals, (a l.var).isSome = true := by
  simp [firstMissing, Option.isSome_iff_ne_none]

theorem exists_firstMissing_iff {literals : List Literal} :
    (∃ l, firstMissing a literals = some l) ↔ ∃ l ∈ literals, a l.var = none := by
  rw [← Option.isSome_iff_exists, firstMissing, List.find?_isSome]
  simp

theorem valueText_eq_error (missing : a l.var = none) :
    valueText a l = .error (.unboundVariable l.var) := by
  rw [valueText, Literal.isTrue, missing]
  rfl

theorem valueText_eq_ok (there : (a l.var).isSome = true) :
    valueText a l = .ok (truthMark a l) := by
  rw [valueText, Literal.isTrue_eq there, truthMark]
  by_cases holds : l.Holds a <;> simp [holds, bind, Except.bind, pure, Except.pure]

theorem mapM_valueText (a : Assignment) (literals : List Literal) :
    literals.mapM (valueText a) =
      match firstMissing a literals with
      | some l => .error (.unboundVariable l.var)
      | none => .ok (literals.map (truthMark a)) := by
  induction literals with
  | nil => rfl
  | cons l literals ih =>
    rw [List.mapM_cons, ih]
    cases here : a l.var with
    | none =>
      have first : firstMissing a (l :: literals) = some l := by simp [firstMissing, here]
      rw [valueText_eq_error here, first]
      rfl
    | some value =>
      have later : firstMissing a (l :: literals) = firstMissing a literals := by
        simp [firstMissing, here]
      rw [valueText_eq_ok (by simp [here]), later]
      cases firstMissing a literals <;> rfl

theorem mapM_clauses (a : Assignment) (clauses : List Clause) :
    clauses.mapM (fun c => c.literals.mapM (valueText a)) =
      match firstMissing a (clauses.flatMap Clause.literals) with
      | some l => .error (.unboundVariable l.var)
      | none => .ok (clauses.map (shown a)) := by
  induction clauses with
  | nil => rfl
  | cons c clauses ih =>
    have split : firstMissing a ((c :: clauses).flatMap Clause.literals) =
        (firstMissing a c.literals).or (firstMissing a (clauses.flatMap Clause.literals)) := by
      rw [List.flatMap_cons]
      exact List.find?_append
    rw [List.mapM_cons, ih, mapM_valueText, split]
    cases firstMissing a c.literals with
    | some l => rfl
    | none => cases firstMissing a (clauses.flatMap Clause.literals) <;> rfl

/-- The text shows all literals or fails at the first one whose variable has no value. -/
theorem renderUnder_eq (f : Formula) (a : Assignment) :
    f.renderUnder a =
      match firstMissing a f.literals with
      | some l => .error (.unboundVariable l.var)
      | none => .ok (String.intercalate "^" ((f.clauses.map (shown a)).map clauseText)) := by
  rw [renderUnder, mapM_clauses, literals]
  cases firstMissing a (f.clauses.flatMap Clause.literals) <;> rfl

theorem renderUnder_eq_error_iff {fault : Fault} : f.renderUnder a = .error fault ↔
    ∃ l, firstMissing a f.literals = some l ∧ fault = .unboundVariable l.var := by
  rw [renderUnder_eq]
  cases firstMissing a f.literals <;> simp [eq_comm]

theorem renderUnder_eq_ok_iff {text : String} : f.renderUnder a = .ok text ↔
    (∀ l ∈ f.literals, (a l.var).isSome = true) ∧
      String.intercalate "^" ((f.clauses.map (shown a)).map clauseText) = text := by
  rw [renderUnder_eq, ← firstMissing_eq_none]
  cases firstMissing a f.literals <;> simp

/-! ## Reading the text -/

/-- The text between the parentheses of a clause. -/
def body (tokens : List String) : List Char := ['|'].intercalate (tokens.map String.toList)

theorem toList_clauseText (tokens : List String) :
    (clauseText tokens).toList = '(' :: (body tokens ++ [')']) := by
  simp [clauseText, body]

/-- Clauses are read back as groups if their literals are shown without parentheses. -/
theorem groups_joined {rows : List (List String)}
    (plain : ∀ row ∈ rows, ∀ token ∈ row, '(' ∉ token.toList ∧ ')' ∉ token.toList) :
    groups (String.intercalate "^" (rows.map clauseText)).toList = rows.map body := by
  have text : (String.intercalate "^" (rows.map clauseText)).toList =
      ['^'].intercalate ((rows.map body).map fun body => '(' :: (body ++ [')'])) := by
    rw [String.toList_intercalate, List.map_map, List.map_map]
    congr 1
    exact List.map_congr_left fun row _ => toList_clauseText row
  rw [text]
  apply groups_intercalate (by decide)
  intro _ listed
  obtain ⟨row, hr, rfl⟩ := List.mem_map.mp listed
  simp only [body, mem_intercalate (show '(' ∉ ['|'] by decide),
    mem_intercalate (show ')' ∉ ['|'] by decide), List.mem_map]
  constructor
  · rintro ⟨_, ⟨token, ht, rfl⟩, opened⟩
    exact (plain row hr token ht).1 opened
  · rintro ⟨_, ⟨token, ht, rfl⟩, closed⟩
    exact (plain row hr token ht).2 closed

theorem plain_shown : ∀ token ∈ shown a c, '(' ∉ token.toList ∧ ')' ∉ token.toList := by
  intro token ht
  obtain ⟨l, _, rfl⟩ := List.mem_map.mp ht
  unfold truthMark
  split <;> decide

theorem mem_body_shown : 'T' ∈ body (shown a c) ↔ ∃ l ∈ c.literals, l.Holds a := by
  have value (l : Literal) : 'T' ∈ (truthMark a l).toList ↔ l.Holds a := by
    by_cases holds : l.Holds a
    · simp [truthMark, holds]
    · simp [truthMark, holds]
  rw [body, mem_intercalate (by decide)]
  simp [shown, value]

/-- Where every variable has a value, the value of the formula is read off its text. -/
theorem evaluate_of_renderUnder {text : String} (rendered : f.renderUnder a = .ok text) :
    ∃ value, f.evaluate a = .ok value ∧
      (value = true ↔ ∀ group ∈ groups text.toList, 'T' ∈ group) := by
  obtain ⟨bound, rfl⟩ := renderUnder_eq_ok_iff.mp rendered
  have plain : ∀ row ∈ f.clauses.map (shown a), ∀ token ∈ row,
      '(' ∉ token.toList ∧ ')' ∉ token.toList := by
    intro row hr
    obtain ⟨c, _, rfl⟩ := List.mem_map.mp hr
    exact plain_shown
  refine ⟨_, evaluateAll_eq fun c hc l hl => bound l (mem_literals hc hl), ?_⟩
  rw [groups_joined plain, List.map_map, List.forall_mem_map]
  simp [mem_body_shown]

/-- **The text and the value of a formula under a partial assignment.** The text fails exactly if a
variable of the formula has no value, and it names the first such variable. If there is a text, then
there is a value, and the formula is true exactly if every group in the text has a T. A value that is
found stays when more variables get values, even where the text fails. -/
theorem renderUnder_evaluate (f : Formula) (a : Assignment) :
    ((∃ fault, f.renderUnder a = .error fault) ↔ ∃ l ∈ f.literals, a l.var = none) ∧
    (∀ fault, f.renderUnder a = .error fault ↔
      ∃ l, firstMissing a f.literals = some l ∧ fault = .unboundVariable l.var) ∧
    (∀ text, f.renderUnder a = .ok text → ∃ value, f.evaluate a = .ok value ∧
      (value = true ↔ ∀ group ∈ groups text.toList, 'T' ∈ group)) ∧
    ∀ value b, f.evaluate a = .ok value → a.ExtendedBy b → f.evaluate b = .ok value := by
  refine ⟨?_, fun fault => renderUnder_eq_error_iff, fun text => evaluate_of_renderUnder,
    fun value b found extended => evaluate_extended extended found⟩
  rw [← exists_firstMissing_iff]
  constructor
  · rintro ⟨fault, failed⟩
    obtain ⟨l, first, _⟩ := renderUnder_eq_error_iff.mp failed
    exact ⟨l, first⟩
  · rintro ⟨l, first⟩
    exact ⟨_, renderUnder_eq_error_iff.mpr ⟨l, first, rfl⟩⟩

/-- The first clause is false, so the second variable is not missed until the text is wanted. -/
theorem renderUnder_evaluate_missing : ∃ f : Formula,
    let a := Assignment.ofVector [false]
    let b := Assignment.ofVector [false, true]
    f.toInts = [1, 1, 1, 2, 2, 2] ∧ a.ExtendedBy b ∧
    f.renderUnder a = .error (.unboundVariable 2) ∧ f.evaluate a = .ok false ∧
    f.renderUnder b = .ok "( F| F| F)^( T| T| T)" ∧ f.evaluate b = .ok false ∧
    ∃ group ∈ groups "( F| F| F)^( T| T| T)".toList, 'T' ∉ group := by
  let literal (n : Nat) : Literal := ⟨n + 1, true, n.succ_pos⟩
  let f : Formula := ⟨[⟨literal 0, literal 0, literal 0⟩, ⟨literal 1, literal 1, literal 1⟩]⟩
  have extended : (Assignment.ofVector [false]).ExtendedBy (Assignment.ofVector [false, true]) := by
    intro v value held
    match v with
    | 0 => exact held
    | 1 => exact held
    | v + 2 => simp [Assignment.ofVector] at held
  have rendered : f.renderUnder (Assignment.ofVector [false, true]) =
      .ok "( F| F| F)^( T| T| T)" := by decide
  have kept : f.evaluate (Assignment.ofVector [false, true]) = .ok false :=
    (renderUnder_evaluate f (Assignment.ofVector [false])).2.2.2 false _ rfl extended
  obtain ⟨value, found, shows⟩ := (renderUnder_evaluate f _).2.2.1 _ rendered
  obtain rfl : false = value := Except.ok.inj (kept.symm.trans found)
  refine ⟨f, rfl, extended, rfl, rfl, rendered, kept, ?_⟩
  simpa using shows

end Formula

end VertexCover
