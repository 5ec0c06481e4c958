/-! Smallest sets of numbers that meet every set of a family.

A set with one number forces that number. A number that occurs in one set only, beside others, is
never needed. Parts of the family that share no number are solved one after the other. If nothing
else helps, the number that occurs most often is taken, and then left out; a branch ends when the
disjoint sets in it need more numbers than are allowed. -/
namespace VertexCover.HittingSet

/-- Sets of numbers, each as a list. -/
abbrev Family := List (List Nat)

/-- The sets that are left to meet when a number is taken. -/
def take (i : Nat) (family : Family) : Family := family.filter fun set => !set.contains i

/-- The sets without a number. -/
def leaveOut (i : Nat) (family : Family) : Family := family.map fun set => set.filter (· != i)

/-- A set of numbers as the bits of one. -/
def bits (set : List Nat) : Nat := set.foldl (fun mask i => mask ||| (1 <<< i)) 0

/-- The number of sets found one after the other that share nothing with each other and with the
mask. -/
def packing (mask : Nat) : Family → Nat
  | [] => 0
  | set :: rest =>
    if bits set &&& mask = 0 then packing (mask ||| bits set) rest + 1 else packing mask rest

/-- How often every number below `size` occurs. -/
def occurrences (size : Nat) (family : Family) : Array Nat :=
  family.foldl (fun counts set => set.foldl (fun counts i => counts.modify i (· + 1)) counts)
    (Array.replicate size 0)

/-- The first of the numbers that occur most often. -/
def mostFrequent (counts : Array Nat) : Nat :=
  let most := counts.foldl max 0
  (counts.toList.idxOf? most).getD 0

/-- Moves the sets that are connected with the mask from `outside` to `inside`; every round but the
last moves a set. -/
def spread : Nat → Nat → Family → Family → Family × Family
  | 0, _, inside, outside => (inside, outside)
  | rounds + 1, mask, inside, outside =>
    let (touching, rest) := outside.partition fun set => bits set &&& mask != 0
    if touching.isEmpty then (inside, rest)
    else spread rounds (touching.foldl (fun mask set => mask ||| bits set) mask)
      (touching ++ inside) rest

/-- The smaller of two answers, if there is one, the first of two that are equally small. -/
def smaller : Option (List Nat) → Option (List Nat) → Option (List Nat)
  | some a, some b => if b.length < a.length then some b else some a
  | some a, none => some a
  | none, b => b

/-- A number that is alone in its set. -/
def forced? (family : Family) : Option Nat :=
  (family.find? fun set => set.length == 1).bind List.head?

/-- A number that occurs in one set only. -/
def lone? (counts : Array Nat) (family : Family) : Option Nat :=
  family.findSome? fun set => set.find? fun i => counts[i]?.getD 0 == 1

/-- A smallest set that meets the family, if there is one with fewer than `bound` numbers. Every
round takes or leaves out a number, or splits the family. -/
def search (size : Nat) : Nat → Nat → Family → Option (List Nat)
  | _, 0, _ => none
  | _, _ + 1, [] => some []
  | 0, _, _ => none
  | rounds + 1, bound + 1, set :: rest =>
    let family := set :: rest
    if family.any List.isEmpty then none
    else
      match forced? family with
      | some i => (search size rounds bound (take i family)).map (i :: ·)
      | none =>
        let counts := occurrences size family
        match lone? counts family with
        | some i => search size rounds (bound + 1) (leaveOut i family)
        | none =>
          if bound < packing 0 family then none
          else
            let (inside, outside) := spread family.length (bits set) [set] rest
            if outside.isEmpty then
              let i := mostFrequent counts
              let taken := (search size rounds bound (take i family)).map (i :: ·)
              let bound := (taken.map List.length).getD (bound + 1)
              smaller taken (search size rounds bound (leaveOut i family))
            else
              match search size rounds (bound + 1) inside with
              | none => none
              | some first =>
                (search size rounds (bound + 1 - first.length) outside).map (first ++ ·)

/-- A smallest set of numbers below `size` that meets the family, if one does. -/
def smallest? (size : Nat) (family : Family) : Option (List Nat) :=
  search size (family.foldl (fun rounds set => rounds + set.length + 1) 0) (size + 1) family

end VertexCover.HittingSet
