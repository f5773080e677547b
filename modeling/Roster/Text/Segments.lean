/-! Texts as segments between separators. Splitting always gives at least one segment, and joining the
segments of a text split at one character gives the text back. -/

namespace Roster.Text

variable {α : Type}

/-- The maximal runs between separators, empty ones included. -/
def segmentsBy (isSep : α → Bool) : List α → List (List α)
  | [] => [[]]
  | c :: cs =>
      if isSep c then [] :: segmentsBy isSep cs else (segmentsBy isSep cs).modifyHead (c :: ·)

def segments [BEq α] (sep : α) (cs : List α) : List (List α) :=
  segmentsBy (· == sep) cs

/-- The segments with the separator between neighbours. -/
def joinSegments (sep : α) : List (List α) → List α
  | [] => []
  | [s] => s
  | s :: t :: rest => s ++ sep :: joinSegments sep (t :: rest)

/-- What stands behind the last separator; the whole text when there is none. -/
def lastSegment [BEq α] (sep : α) (cs : List α) : List α :=
  (segments sep cs).getLastD []

/-- The segments of a string. -/
def splitAt (sep : Char) (s : String) : List String :=
  (segments sep s.toList).map String.ofList

theorem segmentsBy_ne_nil (isSep : α → Bool) (cs : List α) : segmentsBy isSep cs ≠ [] := by
  cases cs with
  | nil => simp [segmentsBy]
  | cons c cs =>
      simp only [segmentsBy]
      split
      · simp
      · have ih := segmentsBy_ne_nil isSep cs
        cases h : segmentsBy isSep cs with
        | nil => exact absurd h ih
        | cons s rest => simp

theorem segmentsBy_of_forall {isSep : α → Bool} {cs : List α}
    (hnone : ∀ c ∈ cs, isSep c = false) : segmentsBy isSep cs = [cs] := by
  induction cs with
  | nil => rfl
  | cons c cs ih =>
      obtain ⟨hc, hcs⟩ := List.forall_mem_cons.mp hnone
      rw [segmentsBy, hc, ih hcs]
      rfl

theorem segments_of_not_mem {sep : Char} {cs : List Char} (hsep : sep ∉ cs) :
    segments sep cs = [cs] :=
  segmentsBy_of_forall fun _ hc => beq_false_of_ne fun heq => hsep (heq ▸ hc)

theorem splitAt_of_not_mem {sep : Char} {s : String} (hsep : sep ∉ s.toList) :
    splitAt sep s = [s] := by
  rw [splitAt, segments_of_not_mem hsep, List.map_singleton, String.ofList_toList]

theorem joinSegments_cons_head (sep c : α) (s : List α) (rest : List (List α)) :
    joinSegments sep ((c :: s) :: rest) = c :: joinSegments sep (s :: rest) := by
  cases rest <;> simp [joinSegments]

theorem joinSegments_segments [BEq α] [LawfulBEq α] (sep : α) (cs : List α) :
    joinSegments sep (segments sep cs) = cs := by
  unfold segments
  induction cs with
  | nil => rfl
  | cons c cs ih =>
      simp only [segmentsBy]
      cases h : segmentsBy (· == sep) cs with
      | nil => exact absurd h (segmentsBy_ne_nil _ cs)
      | cons s rest =>
          rw [h] at ih
          split
          · next hc => simp [joinSegments, ih, eq_of_beq hc]
          · simp [joinSegments_cons_head, ih]

end Roster.Text
