/-! How alike two texts are: the longest block that both share, and again what is alike before it and behind it. Of
blocks of one length the earliest counts. -/

namespace Roster.Text

/-- How many characters two rows share at their start. -/
def commonStart : List Char → List Char → Nat
  | a :: as, b :: bs => if a = b then commonStart as bs + 1 else 0
  | _, _ => 0

/-- A block that two rows share: where it begins in each, and its length. -/
structure Block where
  first : Nat
  second : Nat
  size : Nat

def longestBlock (as bs : List Char) : Block :=
  (List.range as.length).foldl (fun best i =>
    (List.range bs.length).foldl (fun best j =>
      let size := commonStart (as.drop i) (bs.drop j)
      if best.size < size then ⟨i, j, size⟩ else best) best) ⟨0, 0, 0⟩

/-- The characters in shared blocks; `fuel` bounds how often the rows are divided. -/
def sharedWithin : Nat → List Char → List Char → Nat
  | 0, _, _ => 0
  | fuel + 1, as, bs =>
      let block := longestBlock as bs
      if block.size = 0 then 0
      else
        sharedWithin fuel (as.take block.first) (bs.take block.second) + block.size
          + sharedWithin fuel (as.drop (block.first + block.size)) (bs.drop (block.second + block.size))

/-- The characters that two texts share in order. -/
def shared (a b : String) : Nat :=
  sharedWithin a.length a.toList b.toList

/-- At most three of the candidates that share at least six tenths of their characters with the text, the most
alike first. -/
def closeMatches (text : String) (candidates : List String) : List String :=
  let scored := candidates.map fun candidate =>
    (shared candidate text, candidate.length + text.length, candidate)
  let alike := scored.filter fun (common, total, _) => 3 * total ≤ 10 * common
  let sorted := alike.mergeSort fun (m, s, x) (n, t, y) =>
    n * s < m * t || (n * s = m * t && !decide (x < y))
  (sorted.take 3).map fun (_, _, candidate) => candidate

end Roster.Text
