import VertexCover.Proofs.Text.Integer
import VertexCover.Proofs.Text.Lines
import VertexCover.Text.Quoted

/-! Messages are single lines: numbers are written in digits, and a quoted text has its line ends
escaped. -/
namespace VertexCover.Text

variable {c : Char} {cs : List Char}

theorem oneLine_ofList : OneLine (String.ofList cs) ↔ ∀ c ∈ cs, c ≠ '\n' ∧ c ≠ '\r' := by
  rw [OneLine, String.toList_ofList]

/-- Line ends are blank. -/
theorem oneLine_of_isWord (word : IsWord cs) : OneLine (String.ofList cs) := by
  rw [oneLine_ofList]
  intro c hc
  have letter := word.2 c hc
  constructor
  · rintro rfl
    exact absurd letter (by decide)
  · rintro rfl
    exact absurd letter (by decide)

theorem oneLine_ofNatural (n : Nat) : OneLine (ofNatural n) := oneLine_of_isWord (isWord_toDigits n)

theorem oneLine_ofInteger (n : Int) : OneLine (ofInteger n) :=
  oneLine_of_isWord (isWord_writeInteger n)

theorem mem_toDigits {b n : Nat} (base : 1 < b) (h : c ∈ Nat.toDigits b n) :
    ∃ d < b, c = Nat.digitChar d := by
  induction n using Nat.strongRecOn with
  | ind n ih =>
    by_cases small : n < b
    · rw [Nat.toDigits_of_lt_base small, List.mem_singleton] at h
      exact ⟨n, small, h⟩
    · rw [Nat.toDigits_of_base_le base (Nat.le_of_not_lt small), List.mem_append,
        List.mem_singleton] at h
      rcases h with higher | last
      · exact ih (n / b) (Nat.div_lt_self (by omega) base) higher
      · exact ⟨n % b, Nat.mod_lt n (by omega), last⟩

theorem digitChar_inLine : ∀ d < 16, Nat.digitChar d ≠ '\n' ∧ Nat.digitChar d ≠ '\r' := by
  decide

theorem hex_inLine {width n : Nat} (h : c ∈ hex width n) : c ≠ '\n' ∧ c ≠ '\r' := by
  rw [hex, padLeft, List.mem_append, List.mem_replicate] at h
  rcases h with ⟨_, rfl⟩ | digit
  · decide
  · obtain ⟨d, small, rfl⟩ := mem_toDigits (by decide) digit
    exact digitChar_inLine d small

/-- Line ends are escaped, whatever the quotes are. -/
theorem escape_inLine {q d : Char} (quote : q ≠ '\n' ∧ q ≠ '\r') (h : d ∈ escape q c) :
    d ≠ '\n' ∧ d ≠ '\r' := by
  have slash : ∀ e, e ≠ '\n' ∧ e ≠ '\r' → ∀ d ∈ ['\\', e], d ≠ '\n' ∧ d ≠ '\r' :=
    fun e safe => List.forall_mem_cons.mpr ⟨by decide, List.forall_mem_singleton.mpr safe⟩
  have code (e : Char) (width : Nat) (safe : e ≠ '\n' ∧ e ≠ '\r') :
      ∀ d ∈ '\\' :: e :: hex width c.toNat, d ≠ '\n' ∧ d ≠ '\r' :=
    List.forall_mem_cons.mpr ⟨by decide, List.forall_mem_cons.mpr ⟨safe, fun _ => hex_inLine⟩⟩
  unfold escape at h
  split at h
  · rename_i itself
    refine slash c ?_ d h
    rw [Bool.or_eq_true, decide_eq_true_iff, decide_eq_true_iff] at itself
    rcases itself with rfl | rfl
    · exact quote
    · decide
  split at h
  · exact slash 'n' (by decide) d h
  rename_i feed
  split at h
  · exact slash 'r' (by decide) d h
  rename_i carriage
  split at h
  · exact slash 't' (by decide) d h
  split at h
  · obtain rfl := List.mem_singleton.mp h
    exact ⟨feed, carriage⟩
  split at h
  · exact code 'x' 2 (by decide) d h
  split at h
  · exact code 'u' 4 (by decide) d h
  · exact code 'U' 8 (by decide) d h

/-- **A quoted text is a single line.** -/
theorem oneLine_quoted (s : String) : OneLine (quoted s) := by
  have mark : quoteFor s.toList ≠ '\n' ∧ quoteFor s.toList ≠ '\r' := by
    unfold quoteFor
    split <;> decide
  rw [quoted, oneLine_ofList]
  intro c hc
  simp only [quote, List.cons_append, List.mem_cons, List.mem_append, List.mem_flatMap,
    List.not_mem_nil, or_false] at hc
  rcases hc with rfl | ⟨d, _, escaped⟩ | rfl
  · exact mark
  · exact escape_inLine mark escaped
  · exact mark

example : quoted "a\nb" = "'a\\nb'" := by decide

end VertexCover.Text
