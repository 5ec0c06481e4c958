import Mathlib.Algebra.Ring.Nat
import Mathlib.Data.List.Perm.Subperm
import VertexCover.HittingSet

/-!
# The search for a smallest hitting set

What the search may answer is said once, by `Answers`: a list that meets the family, shorter than the
bound and as short as any, or none if no list below the bound meets it. Every move of the search
carries answers for smaller families over to the family itself:

* `Answers.force`: a number that is alone in its set has to be taken;
* `Answers.leave`: a number that some list can do without may be left out;
* `Answers.branch`: any number is either taken or left out;
* `Answers.join`: parts that share no number are solved apart;
* `packing_le_length`: sets that share no number need a number each;
* `search_answers`: the whole search, by the number of rounds that a family needs;
* `smallest?_meets`: the answer for numbers below a size.
-/

namespace VertexCover.HittingSet

variable {family inside outside : Family} {set hits others : List Nat} {i j bound : Nat}

/-- Every set of the family has a number from the list. -/
def Meets (hits : List Nat) (family : Family) : Prop := ∀ set ∈ family, ∃ i ∈ set, i ∈ hits

/-- What a search below a bound may answer. -/
def Answers (bound : Nat) (family : Family) : Option (List Nat) → Prop
  | none => ∀ others, Meets others family → bound ≤ others.length
  | some hits => Meets hits family ∧ hits.length < bound ∧
      ∀ others, Meets others family → hits.length ≤ others.length

/-- All numbers of the family are below the size. -/
def Within (size : Nat) (family : Family) : Prop := ∀ set ∈ family, ∀ i ∈ set, i < size

/-! ## Taking a number and leaving it out -/

theorem mem_take : set ∈ take i family ↔ set ∈ family ∧ i ∉ set := by
  simp [take]

theorem mem_leaveOut : set ∈ leaveOut i family ↔ ∃ whole ∈ family, whole.filter (· != i) = set := by
  simp [leaveOut]

theorem Meets.of_take (h : Meets hits (take i family)) : Meets (i :: hits) family := by
  intro set hs
  by_cases taken : i ∈ set
  · exact ⟨i, taken, List.mem_cons_self⟩
  · obtain ⟨j, inside, hit⟩ := h set (mem_take.mpr ⟨hs, taken⟩)
    exact ⟨j, inside, List.mem_cons_of_mem i hit⟩

theorem Meets.erase (h : Meets others family) : Meets (others.erase i) (take i family) := by
  intro set hs
  obtain ⟨listed, free⟩ := mem_take.mp hs
  obtain ⟨j, inside, hit⟩ := h set listed
  have different : j ≠ i := fun same => free (same ▸ inside)
  exact ⟨j, inside, (List.mem_erase_of_ne different).mpr hit⟩

theorem Meets.of_leaveOut (h : Meets hits (leaveOut i family)) : Meets hits family := by
  intro set hs
  obtain ⟨j, inside, hit⟩ := h _ (mem_leaveOut.mpr ⟨set, hs, rfl⟩)
  exact ⟨j, (List.mem_filter.mp inside).1, hit⟩

theorem Meets.leaveOut (h : Meets others family) (free : i ∉ others) :
    Meets others (leaveOut i family) := by
  intro set hs
  obtain ⟨whole, listed, rfl⟩ := mem_leaveOut.mp hs
  obtain ⟨j, inside, hit⟩ := h whole listed
  have different : j ≠ i := fun same => free (same ▸ hit)
  exact ⟨j, by simp [inside, different], hit⟩

theorem length_erase_succ (h : i ∈ others) : (others.erase i).length + 1 = others.length := by
  have nonempty := List.length_pos_of_mem h
  rw [List.length_erase_of_mem h]
  omega

/-! ## The moves of the search -/

theorem Answers.force {answer : Option (List Nat)} (forced : [i] ∈ family)
    (h : Answers bound (take i family) answer) :
    Answers (bound + 1) family (answer.map (i :: ·)) := by
  have fewer {others : List Nat} (meets : Meets others family) :
      ∃ rest, Meets rest (take i family) ∧ rest.length + 1 = others.length := by
    obtain ⟨j, only, hit⟩ := meets _ forced
    cases List.mem_singleton.mp only
    exact ⟨others.erase i, meets.erase, length_erase_succ hit⟩
  cases answer with
  | none =>
    intro others meets
    obtain ⟨rest, below, length⟩ := fewer meets
    have least := h rest below
    omega
  | some hits =>
    obtain ⟨found, short, least⟩ := h
    refine ⟨found.of_take, by simpa using short, ?_⟩
    intro others meets
    obtain ⟨rest, below, length⟩ := fewer meets
    have least := least rest below
    simp only [List.length_cons]
    omega

theorem Answers.leave {answer : Option (List Nat)}
    (spare : ∀ others, Meets others family →
      ∃ rest, Meets rest (leaveOut i family) ∧ rest.length ≤ others.length)
    (h : Answers bound (leaveOut i family) answer) : Answers bound family answer := by
  cases answer with
  | none =>
    intro others meets
    obtain ⟨rest, below, length⟩ := spare others meets
    exact Nat.le_trans (h rest below) length
  | some hits =>
    obtain ⟨found, short, least⟩ := h
    refine ⟨found.of_leaveOut, short, ?_⟩
    intro others meets
    obtain ⟨rest, below, length⟩ := spare others meets
    exact Nat.le_trans (least rest below) length

/-- With the number taken the bound drops by one; without it the answer has to be shorter than the
one with it. -/
theorem Answers.branch {taken left : Option (List Nat)}
    (with_it : Answers bound (take i family) taken)
    (without : Answers (((taken.map (i :: ·)).map List.length).getD (bound + 1))
      (leaveOut i family) left) :
    Answers (bound + 1) family (smaller (taken.map (i :: ·)) left) := by
  have cases_of {others : List Nat} (meets : Meets others family) :
      (∃ rest, Meets rest (take i family) ∧ rest.length + 1 = others.length) ∨
        Meets others (HittingSet.leaveOut i family) := by
    by_cases hit : i ∈ others
    · exact .inl ⟨others.erase i, meets.erase, length_erase_succ hit⟩
    · exact .inr (meets.leaveOut hit)
  cases taken with
  | none =>
    cases left with
    | none =>
      intro others meets
      rcases cases_of meets with ⟨rest, below, length⟩ | below
      · have least := with_it rest below
        omega
      · exact without others below
    | some hits =>
      obtain ⟨found, short, least⟩ := without
      refine ⟨found.of_leaveOut, short, ?_⟩
      intro others meets
      rcases cases_of meets with ⟨rest, below, length⟩ | below
      · have beyond := with_it rest below
        have short : hits.length < bound + 1 := short
        omega
      · exact least others below
  | some first =>
    obtain ⟨found, short, least⟩ := with_it
    cases left with
    | none =>
      refine ⟨found.of_take, by simpa using short, ?_⟩
      intro others meets
      rcases cases_of meets with ⟨rest, below, length⟩ | below
      · have least := least rest below
        simp only [List.length_cons]
        omega
      · exact without others below
    | some hits =>
      obtain ⟨found_left, shorter, least_left⟩ := without
      have shorter : hits.length < (i :: first).length := shorter
      have answer : smaller ((some first).map (i :: ·)) (some hits) = some hits := if_pos shorter
      rw [answer]
      simp only [List.length_cons] at shorter
      refine ⟨found_left.of_leaveOut, by omega, ?_⟩
      intro others meets
      rcases cases_of meets with ⟨rest, below, length⟩ | below
      · have least := least rest below
        omega
      · exact least_left others below

/-- The numbers of a list that occur in one part, and those that do not, meet the two parts. -/
theorem Meets.split (apart : ∀ s ∈ inside, ∀ t ∈ outside, ∀ i ∈ s, i ∉ t)
    (h : Meets others (inside ++ outside)) : ∃ first second, Meets first inside ∧
      Meets second outside ∧ first.length + second.length = others.length := by
  let occurs (i : Nat) : Bool := inside.any (·.contains i)
  refine ⟨others.filter occurs, others.filter (!occurs ·), ?_, ?_, ?_⟩
  · intro s hs
    obtain ⟨i, member, hit⟩ := h s (List.mem_append_left _ hs)
    have here : occurs i = true := by
      simp only [occurs, List.any_eq_true, List.contains_iff_mem]
      exact ⟨s, hs, member⟩
    exact ⟨i, member, List.mem_filter.mpr ⟨hit, here⟩⟩
  · intro t ht
    obtain ⟨i, member, hit⟩ := h t (List.mem_append_right _ ht)
    have there : occurs i = false := by
      simp only [occurs, List.any_eq_false, List.contains_iff_mem]
      exact fun s hs member' => apart s hs t ht i member' member
    exact ⟨i, member, by simp [hit, there]⟩
  · exact (List.length_eq_length_filter_add occurs).symm

theorem Answers.join {first : List Nat} {answer : Option (List Nat)}
    (apart : ∀ s ∈ inside, ∀ t ∈ outside, ∀ i ∈ s, i ∉ t)
    (here : Answers bound inside (some first))
    (there : Answers (bound - first.length) outside answer) :
    Answers bound (inside ++ outside) (answer.map (first ++ ·)) := by
  obtain ⟨found, short, least⟩ := here
  cases answer with
  | none =>
    intro others meets
    obtain ⟨left, right, hl, hr, length⟩ := meets.split apart
    have := least left hl
    have := there right hr
    omega
  | some second =>
    obtain ⟨found', short', least'⟩ := there
    refine ⟨?_, by rw [List.length_append]; omega, ?_⟩
    · intro s hs
      rcases List.mem_append.mp hs with hs | hs
      · obtain ⟨i, member, hit⟩ := found s hs
        exact ⟨i, member, List.mem_append_left _ hit⟩
      · obtain ⟨i, member, hit⟩ := found' s hs
        exact ⟨i, member, List.mem_append_right _ hit⟩
    · intro others meets
      obtain ⟨left, right, hl, hr, length⟩ := meets.split apart
      have := least left hl
      have := least' right hr
      rw [List.length_append]
      omega

theorem Answers.perm {other : Family} {answer : Option (List Nat)} (same : family.Perm other)
    (h : Answers bound family answer) : Answers bound other answer := by
  have meets {hits : List Nat} : Meets hits family ↔ Meets hits other := by
    simp only [Meets, same.mem_iff]
  cases answer with
  | none => exact fun others ho => h others (meets.mpr ho)
  | some hits => exact ⟨meets.mp h.1, h.2.1, fun others ho => h.2.2 others (meets.mpr ho)⟩

/-! ## Sets as bits -/

theorem testBit_foldl {α : Type} (f : α → Nat) (xs : List α) (mask : Nat) :
    (xs.foldl (fun mask x => mask ||| f x) mask).testBit j = true ↔
      mask.testBit j = true ∨ ∃ x ∈ xs, (f x).testBit j = true := by
  induction xs generalizing mask with
  | nil => simp
  | cons x xs ih =>
    rw [List.foldl_cons, ih, Nat.testBit_or, Bool.or_eq_true, or_assoc]
    simp

theorem testBit_bits : (bits set).testBit j = true ↔ j ∈ set := by
  simp [bits, testBit_foldl, Nat.one_shiftLeft, Nat.testBit_two_pow]

/-- A set and a mask share no bit exactly if no number of the set is in the mask. -/
theorem bits_and_eq_zero_iff {mask : Nat} :
    bits set &&& mask = 0 ↔ ∀ i ∈ set, mask.testBit i = false := by
  constructor
  · intro zero i member
    have none : (bits set &&& mask).testBit i = false := by rw [zero, Nat.zero_testBit]
    rwa [Nat.testBit_and, testBit_bits.mpr member, Bool.true_and] at none
  · intro free
    apply Nat.eq_of_testBit_eq
    intro i
    rw [Nat.zero_testBit, Nat.testBit_and, Bool.and_eq_false_iff]
    by_cases member : i ∈ set
    · exact .inr (free i member)
    · exact .inl (Bool.eq_false_iff.mpr fun bit => member (testBit_bits.mp bit))

/-- The sets of a packing need a number each, from outside the mask. -/
theorem packing_le_countP (mask : Nat) (h : Meets others family) :
    packing mask family ≤ others.countP fun i => !mask.testBit i := by
  induction family generalizing mask with
  | nil => exact Nat.zero_le _
  | cons set rest ih =>
    have later : Meets others rest := fun s hs => h s (List.mem_cons_of_mem _ hs)
    rw [packing]
    split
    · rename_i free
      obtain ⟨i, member, hit⟩ := h set List.mem_cons_self
      have new : mask.testBit i = false := bits_and_eq_zero_iff.mp free i member
      have used : (mask ||| bits set).testBit i = true := by
        rw [Nat.testBit_or, testBit_bits.mpr member, Bool.or_true]
      have below := ih (mask ||| bits set) later
      have fewer : (others.erase i).countP (fun j => !(mask ||| bits set).testBit j) ≤
          (others.erase i).countP fun j => !mask.testBit j := by
        apply List.countP_mono_left
        intro j _ outside
        rw [Nat.testBit_or, Bool.not_or, Bool.and_eq_true] at outside
        exact outside.1
      have split := List.perm_cons_erase hit
      rw [split.countP_eq, List.countP_cons] at below ⊢
      simp only [used, new, Bool.not_true, Bool.not_false, Bool.false_eq_true, ↓reduceIte]
        at below ⊢
      omega
    · exact ih mask later

theorem packing_le_length (h : Meets others family) : packing 0 family ≤ others.length :=
  Nat.le_trans (packing_le_countP 0 h) List.countP_le_length

/-! ## Parts that share no number -/

/-- Every round moves the sets that are connected with those inside; when none is, the two parts have
no number in common. -/
theorem spread_apart {rounds mask : Nat} (enough : outside.length < rounds)
    (marked : ∀ i, mask.testBit i = true ↔ ∃ s ∈ inside, i ∈ s) :
    ((spread rounds mask inside outside).1 ++ (spread rounds mask inside outside).2).Perm
        (inside ++ outside) ∧
      (∀ s ∈ inside, s ∈ (spread rounds mask inside outside).1) ∧
      ∀ s ∈ (spread rounds mask inside outside).1, ∀ t ∈ (spread rounds mask inside outside).2,
        ∀ i ∈ s, i ∉ t := by
  induction rounds generalizing mask inside outside with
  | zero => omega
  | succ rounds ih =>
    let touches (set : List Nat) : Bool := bits set &&& mask != 0
    have parts : outside.partition touches = (outside.filter touches, outside.filter (!touches ·)) :=
      List.partition_eq_filter_filter
    have step : spread (rounds + 1) mask inside outside =
        if (outside.filter touches).isEmpty then (inside, outside.filter (!touches ·))
        else spread rounds
          ((outside.filter touches).foldl (fun mask set => mask ||| bits set) mask)
          (outside.filter touches ++ inside) (outside.filter (!touches ·)) := by
      rw [spread, parts]
    have whole : (outside.filter touches ++ outside.filter (!touches ·)).Perm outside :=
      List.filter_append_perm touches outside
    rw [step]
    split
    · rename_i none
      rw [List.isEmpty_iff] at none
      rw [none, List.nil_append] at whole
      refine ⟨whole.append_left inside, fun s hs => hs, ?_⟩
      intro s hs t ht i here there
      have free := bits_and_eq_zero_iff.mp (by simpa [touches] using (List.mem_filter.mp ht).2) i there
      rw [(marked i).mpr ⟨s, hs, here⟩] at free
      cases free
    · rename_i some
      have fewer : (outside.filter (!touches ·)).length < rounds := by
        have total := whole.length_eq
        rw [List.length_append] at total
        have moved : 0 < (outside.filter touches).length := by
          rw [List.length_pos_iff]
          simpa using some
        omega
      have marked' : ∀ i, ((outside.filter touches).foldl (fun mask set => mask ||| bits set)
          mask).testBit i = true ↔ ∃ s ∈ outside.filter touches ++ inside, i ∈ s := by
        intro i
        simp only [testBit_foldl, marked, testBit_bits, List.mem_append, or_and_right, exists_or]
        exact or_comm
      obtain ⟨same, kept, apart⟩ := ih fewer marked'
      refine ⟨same.trans ?_, fun s hs => kept s (List.mem_append_right _ hs), apart⟩
      rw [List.append_assoc]
      exact (List.perm_append_comm_assoc _ _ _).trans (whole.append_left inside)

/-! ## Counting occurrences -/

theorem getElem?_tally (set : List Nat) (counts : Array Nat) :
    (set.foldl (fun counts i => counts.modify i (· + 1)) counts)[j]? =
      counts[j]?.map (· + set.count j) := by
  induction set generalizing counts with
  | nil => simp
  | cons i set ih =>
    rw [List.foldl_cons, ih, Array.getElem?_modify, List.count_cons]
    by_cases same : i = j
    · simp [same, Function.comp_def, Nat.add_comm, Nat.add_left_comm]
    · simp [same]

/-- The entry of a number below the size says how often it occurs in the family. -/
theorem getElem?_occurrences {size : Nat} (family : Family) :
    (occurrences size family)[j]? = if j < size then some (family.flatten.count j) else none := by
  have tally (counts : Array Nat) :
      (family.foldl (fun counts set => set.foldl (fun counts i => counts.modify i (· + 1)) counts)
        counts)[j]? = counts[j]?.map (· + family.flatten.count j) := by
    rw [← List.foldl_flatten]
    exact getElem?_tally family.flatten counts
  rw [occurrences, tally, Array.getElem?_replicate]
  split <;> simp

theorem count_pos_iff : 0 < family.flatten.count i ↔ ∃ s ∈ family, i ∈ s := by
  rw [List.count_pos_iff, List.mem_flatten]

/-- A number that occurs once can be exchanged for another number of its set. -/
theorem Meets.exchange (once : family.flatten.count i = 1) (listed : set ∈ family) (member : i ∈ set)
    (more : set.length ≠ 1) (h : Meets others family) :
    ∃ rest, Meets rest (HittingSet.leaveOut i family) ∧ rest.length ≤ others.length := by
  by_cases hit : i ∈ others
  · obtain ⟨before, after, rfl⟩ := List.append_of_mem listed
    have here : 0 < set.count i := List.count_pos_iff.mpr member
    simp only [List.flatten_append, List.flatten_cons, List.count_append] at once
    have only : set.count i = 1 := by omega
    have elsewhere : ∀ s ∈ before ++ after, i ∉ s := by
      intro s hs inside
      have counted : 0 < (before ++ after).flatten.count i := count_pos_iff.mpr ⟨s, hs, inside⟩
      rw [List.flatten_append, List.count_append] at counted
      omega
    obtain ⟨j, other, different⟩ : ∃ j ∈ set, i ≠ j := by
      by_contra same
      simp only [not_exists, not_and, not_not] at same
      exact more (by rw [← List.count_eq_length.mpr same, only])
    refine ⟨j :: others.erase i, ?_, Nat.le_of_eq (length_erase_succ hit)⟩
    intro s hs
    obtain ⟨whole, found, rfl⟩ := mem_leaveOut.mp hs
    by_cases its : i ∈ whole
    · have same : whole = set := by
        by_contra other_set
        refine elsewhere whole ?_ its
        simp only [List.mem_append, List.mem_cons] at found ⊢
        tauto
      exact ⟨j, by simp [same, other, different.symm], List.mem_cons_self⟩
    · obtain ⟨k, inside, met⟩ := h whole found
      have apart : k ≠ i := fun same => its (same ▸ inside)
      exact ⟨k, by simp [inside, apart],
        List.mem_cons_of_mem j ((List.mem_erase_of_ne apart).mpr met)⟩
  · exact ⟨others, h.leaveOut hit, Nat.le_refl _⟩

theorem foldl_max (xs : List Nat) (least : Nat) :
    xs.foldl max least ∈ least :: xs ∧ ∀ x ∈ least :: xs, x ≤ xs.foldl max least := by
  induction xs generalizing least with
  | nil => simp
  | cons x xs ih =>
    obtain ⟨member, most⟩ := ih (max least x)
    rw [List.foldl_cons]
    have first := most _ List.mem_cons_self
    refine ⟨?_, ?_⟩
    · rcases List.mem_cons.mp member with same | later
      · rw [same]
        rcases Nat.le_total least x with le | le <;> simp [le]
      · simp [later]
    · intro y hy
      simp only [List.mem_cons] at hy
      rcases hy with rfl | rfl | hy
      · omega
      · omega
      · exact most y (List.mem_cons_of_mem _ hy)

/-- The number that occurs most often occurs. -/
theorem mostFrequent_occurs {size : Nat} (within : Within size family)
    (occurs : ∃ s ∈ family, i ∈ s) :
    ∃ s ∈ family, mostFrequent (occurrences size family) ∈ s := by
  let counts := occurrences size family
  have entry (j : Nat) : counts.toList[j]? =
      if j < size then some (family.flatten.count j) else none := by
    rw [Array.getElem?_toList]
    exact getElem?_occurrences family
  obtain ⟨member, most⟩ := foldl_max counts.toList 0
  have positive : 0 < counts.toList.foldl max 0 := by
    obtain ⟨s, hs, hi⟩ := occurs
    have here := entry i
    rw [if_pos (within s hs i hi)] at here
    exact Nat.lt_of_lt_of_le (count_pos_iff.mpr ⟨s, hs, hi⟩)
      (most _ (List.mem_cons_of_mem 0 (List.mem_of_getElem? here)))
  have listed : counts.toList.foldl max 0 ∈ counts.toList :=
    (List.mem_cons.mp member).resolve_left (by omega)
  obtain ⟨k, first⟩ := Option.isSome_iff_exists.mp (List.isSome_idxOf?.mpr listed)
  have chosen : mostFrequent counts = k := by
    rw [mostFrequent, ← Array.foldl_toList]
    simp only [first, Option.getD_some]
  obtain ⟨inside, value, _⟩ := List.idxOf?_eq_some_iff.mp first
  have there := entry k
  rw [List.getElem?_eq_getElem inside, value] at there
  split at there
  · rw [chosen]
    exact count_pos_iff.mp (Option.some.inj there ▸ positive)
  · cases there

/-! ## The search -/

/-- The number of rounds that a family needs at most. -/
def weight (family : Family) : Nat := (family.map fun set => set.length + 1).sum

theorem weight_append (inside outside : Family) :
    weight (inside ++ outside) = weight inside + weight outside := by
  simp [weight]

theorem weight_pos (nonempty : family ≠ []) : 0 < weight family := by
  cases family with
  | nil => exact absurd rfl nonempty
  | cons set rest =>
    simp only [weight, List.map_cons, List.sum_cons]
    omega

theorem weight_take_le (i : Nat) (family : Family) : weight (take i family) ≤ weight family := by
  induction family with
  | nil => exact Nat.le_refl _
  | cons set rest ih =>
    simp only [weight, take, List.filter_cons] at ih ⊢
    split <;> simp only [List.map_cons, List.sum_cons] <;> omega

theorem weight_leaveOut_le (i : Nat) (family : Family) :
    weight (leaveOut i family) ≤ weight family := by
  induction family with
  | nil => exact Nat.le_refl _
  | cons set rest ih =>
    have fewer := List.length_filter_le (· != i) set
    simp only [weight, leaveOut, List.map_cons, List.sum_cons] at ih ⊢
    omega

/-- Taking a number that occurs removes a set. -/
theorem weight_take_lt (h : ∃ s ∈ family, i ∈ s) : weight (take i family) < weight family := by
  obtain ⟨set, listed, member⟩ := h
  obtain ⟨before, after, rfl⟩ := List.append_of_mem listed
  have left := weight_take_le i before
  have right := weight_take_le i after
  have removed : take i (before ++ set :: after) = take i before ++ take i after := by
    simp [take, member]
  rw [removed, weight_append, weight_append]
  simp only [weight, List.map_cons, List.sum_cons] at left right ⊢
  omega

/-- Leaving out a number that occurs makes a set smaller. -/
theorem weight_leaveOut_lt (h : ∃ s ∈ family, i ∈ s) :
    weight (leaveOut i family) < weight family := by
  obtain ⟨set, listed, member⟩ := h
  obtain ⟨before, after, rfl⟩ := List.append_of_mem listed
  have left := weight_leaveOut_le i before
  have right := weight_leaveOut_le i after
  have fewer : (set.filter (· != i)).length < set.length := by
    rw [List.length_filter_lt_length_iff_exists]
    exact ⟨i, member, by simp⟩
  have parts : leaveOut i (before ++ set :: after) =
      leaveOut i before ++ set.filter (· != i) :: leaveOut i after := by
    simp [leaveOut]
  rw [parts, weight_append, weight_append]
  simp only [weight, List.map_cons, List.sum_cons] at left right ⊢
  omega

theorem Within.take {size : Nat} (h : Within size family) : Within size (take i family) :=
  fun set hs => h set (mem_take.mp hs).1

theorem Within.leaveOut {size : Nat} (h : Within size family) : Within size (leaveOut i family) := by
  intro set hs j hj
  obtain ⟨whole, listed, rfl⟩ := mem_leaveOut.mp hs
  exact h whole listed j (List.mem_filter.mp hj).1

theorem forced?_eq_some (h : forced? family = some i) : [i] ∈ family := by
  obtain ⟨set, found, head⟩ := Option.bind_eq_some_iff.mp h
  have length := List.find?_some found
  rw [beq_iff_eq, List.length_eq_one_iff] at length
  obtain ⟨j, rfl⟩ := length
  cases head
  exact List.mem_of_find?_eq_some found

theorem forced?_eq_none (h : forced? family = none) : ∀ s ∈ family, s.length ≠ 1 := by
  intro s hs length
  have found : (family.find? fun set => set.length == 1).isSome = true :=
    List.find?_isSome.mpr ⟨s, hs, by simp [length]⟩
  obtain ⟨set, hset⟩ := Option.isSome_iff_exists.mp found
  have single := List.find?_some hset
  rw [beq_iff_eq, List.length_eq_one_iff] at single
  obtain ⟨j, rfl⟩ := single
  simp [forced?, hset] at h

theorem lone?_eq_some {size : Nat} (h : lone? (occurrences size family) family = some i) :
    family.flatten.count i = 1 ∧ ∃ s ∈ family, i ∈ s := by
  obtain ⟨set, listed, found⟩ := List.exists_of_findSome?_eq_some h
  refine ⟨?_, set, listed, List.mem_of_find?_eq_some found⟩
  have once := List.find?_some found
  rw [getElem?_occurrences] at once
  split at once
  · simpa using once
  · simp at once

/-- One round of the search, with answers for all lighter families. -/
theorem search_step {size rounds : Nat} {rest : Family} (within : Within size (set :: rest))
    (lighter : ∀ part limit, Within size part → weight part < weight (set :: rest) →
      Answers limit part (search size rounds limit part)) :
    Answers (bound + 1) (set :: rest) (search size (rounds + 1) (bound + 1) (set :: rest)) := by
  rw [search]
  dsimp only
  split
  · rename_i empty
    intro others meets
    obtain ⟨s, hs, none⟩ := List.any_eq_true.mp empty
    obtain ⟨i, member, _⟩ := meets s hs
    rw [List.isEmpty_iff.mp none] at member
    cases member
  rename_i filled
  split
  · rename_i i forced
    have single := forced?_eq_some forced
    exact .force single (lighter _ _ within.take (weight_take_lt ⟨_, single, by simp⟩))
  rename_i free
  split
  · rename_i i lone
    obtain ⟨once, s, hs, member⟩ := lone?_eq_some lone
    refine .leave (fun others => Meets.exchange once hs member (forced?_eq_none free s hs)) ?_
    exact lighter _ _ within.leaveOut (weight_leaveOut_lt ⟨s, hs, member⟩)
  split
  · rename_i crowded
    intro others meets
    have needed := packing_le_length meets
    omega
  split
  · obtain ⟨i, member⟩ : ∃ i, i ∈ set := by
      apply List.exists_mem_of_ne_nil
      rintro rfl
      simp at filled
    have occurs := mostFrequent_occurs within ⟨set, List.mem_cons_self, member⟩
    exact .branch (lighter _ _ within.take (weight_take_lt occurs))
      (lighter _ _ within.leaveOut (weight_leaveOut_lt occurs))
  · rename_i left
    have enough : rest.length < (set :: rest).length := by simp
    have marked : ∀ i, (bits set).testBit i = true ↔ ∃ s ∈ [set], i ∈ s := by simp [testBit_bits]
    obtain ⟨same, kept, apart⟩ := spread_apart enough marked
    generalize spread (set :: rest).length (bits set) [set] rest = parts at left same kept apart ⊢
    obtain ⟨inside, outside⟩ := parts
    dsimp only at left same kept apart ⊢
    have total : weight inside + weight outside = weight (set :: rest) := by
      rw [← weight_append]
      exact (same.map fun s => s.length + 1).sum_nat
    have here : 0 < weight inside := weight_pos (List.ne_nil_of_mem (kept set (by simp)))
    have there : 0 < weight outside := weight_pos (by simpa using left)
    have part {s : List Nat} (hs : s ∈ inside ++ outside) : s ∈ set :: rest := same.mem_iff.mp hs
    have first := lighter inside (bound + 1) (fun s hs => within s (part (List.mem_append_left _ hs)))
      (by omega)
    refine Answers.perm same ?_
    split
    · rename_i none
      rw [none] at first
      exact fun others meets => first others fun s hs => meets s (List.mem_append_left _ hs)
    · rename_i hits found
      rw [found] at first
      exact .join apart first (lighter outside _
        (fun s hs => within s (part (List.mem_append_right _ hs))) (by omega))

theorem search_nil (size rounds bound : Nat) :
    Answers bound [] (search size rounds bound []) := by
  cases bound with
  | zero =>
    rw [search]
    exact fun _ _ => Nat.zero_le _
  | succ bound =>
    rw [search]
    exact ⟨fun _ hs => absurd hs List.not_mem_nil, Nat.succ_pos _, fun _ _ => Nat.zero_le _⟩

/-- **The search answers.** With as many rounds as the family needs it finds a shortest list below
the bound that meets the family, if there is one. -/
theorem search_answers {size rounds : Nat} (within : Within size family)
    (enough : weight family ≤ rounds) : Answers bound family (search size rounds bound family) := by
  induction rounds generalizing bound family with
  | zero =>
    cases family with
    | nil => exact search_nil size 0 bound
    | cons set rest =>
      have heavy := weight_pos (List.cons_ne_nil set rest)
      omega
  | succ rounds ih =>
    cases family with
    | nil => exact search_nil size (rounds + 1) bound
    | cons set rest =>
      cases bound with
      | zero =>
        rw [search]
        exact fun _ _ => Nat.zero_le _
      | succ bound => exact search_step within fun part limit inside less => ih inside (by omega)

/-- **The smallest hitting set is found.** If some list meets a family of numbers below the size,
the answer does, and no list that meets it is shorter. -/
theorem smallest?_meets {size : Nat} (within : Within size family) (h : Meets others family) :
    ∃ found, smallest? size family = some found ∧ Meets found family ∧
      ∀ list, Meets list family → found.length ≤ list.length := by
  have rounds (start : Nat) : family.foldl (fun rounds set => rounds + set.length + 1) start =
      start + weight family := by
    clear within h
    induction family generalizing start with
    | nil => rfl
    | cons set rest ih =>
      rw [List.foldl_cons, ih]
      simp only [weight, List.map_cons, List.sum_cons]
      omega
  have answers : Answers (size + 1) family (smallest? size family) := by
    rw [smallest?, rounds, Nat.zero_add]
    exact search_answers within (Nat.le_refl _)
  cases found : smallest? size family with
  | some hits =>
    rw [found] at answers
    exact ⟨hits, rfl, answers.1, answers.2.2⟩
  | none =>
    -- All numbers below the size meet the family, and they are within the bound.
    rw [found] at answers
    have all : Meets (List.range size) family := by
      intro set hs
      obtain ⟨i, member, _⟩ := h set hs
      exact ⟨i, member, List.mem_range.mpr (within set hs i member)⟩
    have few := answers _ all
    rw [List.length_range] at few
    omega

end VertexCover.HittingSet
