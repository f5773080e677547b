import Mathlib.Data.List.Basic
import Roster.Name

/-! The layout of a name does not matter. Normalizing takes a name apart at its blanks and puts the words together, and
that keeps exactly the characters that are not blank; then the separators in front go. So blanks may stand anywhere in
a name, and separators in front of it, and normalizing again finds nothing left to do. -/

namespace Roster

open Roster.Text

namespace Text

variable {isSep : Char → Bool} {cs segment padded : List Char} {c : Char}

/-- Segments put together are the text without what separates them. -/
theorem flatten_segmentsBy (isSep : Char → Bool) (cs : List Char) :
    (segmentsBy isSep cs).flatten = cs.filter fun c => !isSep c := by
  induction cs with
  | nil => rfl
  | cons c cs ih =>
      rw [segmentsBy]
      by_cases hsep : isSep c = true
      · simp [hsep, ih]
      · -- the character goes in front of the first segment of the rest
        obtain ⟨first, rest, hrest⟩ := List.exists_cons_of_ne_nil (segmentsBy_ne_nil isSep cs)
        rw [hrest] at ih
        simpa [hsep, hrest] using ih

theorem mem_filter_of_mem_segmentsBy (hsegment : segment ∈ segmentsBy isSep cs) (hc : c ∈ segment) :
    c ∈ cs.filter fun c => !isSep c := by
  rw [← flatten_segmentsBy]
  exact List.mem_flatten_of_mem hsegment hc

theorem mem_of_mem_segmentsBy (hsegment : segment ∈ segmentsBy isSep cs) (hc : c ∈ segment) :
    c ∈ cs :=
  List.mem_of_mem_filter (mem_filter_of_mem_segmentsBy hsegment hc)

theorem not_isSep_of_mem_segmentsBy (hsegment : segment ∈ segmentsBy isSep cs) (hc : c ∈ segment) :
    isSep c = false := by
  simpa using List.of_mem_filter (mem_filter_of_mem_segmentsBy hsegment hc)

theorem flatten_words (cs : List Char) : (words cs).flatten = cs.filter fun c => !isBlank c := by
  rw [words, List.flatten_filter_not_isEmpty, flatten_segmentsBy]

/-- The second text is the first one with blanks put in, anywhere and as many as one likes. -/
inductive Padded : List Char → List Char → Prop where
  | done : Padded [] []
  | keep (c : Char) {cs padded : List Char} (hrest : Padded cs padded) : Padded (c :: cs) (c :: padded)
  | blank {c : Char} {cs padded : List Char} (hblank : isBlank c = true) (hrest : Padded cs padded) :
      Padded cs (c :: padded)

theorem filter_of_padded (hpadded : Padded cs padded) :
    (padded.filter fun c => !isBlank c) = cs.filter fun c => !isBlank c := by
  induction hpadded with
  | done => rfl
  | keep c _ ih => rw [List.filter_cons, List.filter_cons, ih]
  | blank hblank _ ih => simpa [hblank] using ih

end Text

namespace Name

variable {name : String}

theorem toList_normalize (raw : String) :
    (normalize raw).toList =
      (raw.toList.filter fun c => !isBlank c).dropWhile (· == separator) := by
  rw [normalize, String.toList_ofList, flatten_words]

/-- No blank stands in a name that was put in its usual form. -/
theorem not_isBlank_of_mem_normalize {raw : String} {c : Char} (hc : c ∈ (normalize raw).toList) :
    isBlank c = false := by
  rw [toList_normalize] at hc
  have hkept := List.of_mem_filter ((List.dropWhile_sublist _).mem hc)
  simpa using hkept

theorem head?_normalize (raw : String) : (normalize raw).toList.head? ≠ some separator := by
  rw [toList_normalize]
  intro hhead
  have hstop := List.head?_dropWhile_not (· == separator) (raw.toList.filter fun c => !isBlank c)
  rw [hhead] at hstop
  simp at hstop

/-- A name is left as it is when it has no blanks and does not start with a separator. -/
theorem normalize_eq_self (hblank : ∀ c ∈ name.toList, isBlank c = false)
    (hhead : name.toList.head? ≠ some separator) : normalize name = name := by
  have hkept : (name.toList.filter fun c => !isBlank c) = name.toList := by
    apply List.filter_eq_self.mpr
    intro c hc
    rw [hblank c hc]
    rfl
  apply String.toList_injective
  rw [toList_normalize, hkept]
  cases hname : name.toList with
  | nil => rfl
  | cons c cs =>
      rw [hname] at hhead
      apply List.dropWhile_cons_of_neg
      simpa using hhead

theorem normalize_padded {raw padded : String} (hpadded : Padded raw.toList padded.toList) :
    normalize padded = normalize raw := by
  apply String.toList_injective
  rw [toList_normalize, toList_normalize, filter_of_padded hpadded]

/-- Of what stands in front of a name, blanks are left out and separators dropped. -/
theorem normalize_append {lead : String} (hlead : ∀ c ∈ lead.toList, isBlank c = true ∨ c = separator)
    (raw : String) : normalize (lead ++ raw) = normalize raw := by
  have hseparators : ∀ c ∈ lead.toList.filter fun c => !isBlank c, (c == separator) = true := by
    intro c hc
    obtain ⟨hmem, hkept⟩ := List.mem_filter.mp hc
    rcases hlead c hmem with hblank | hseparator
    · simp [hblank] at hkept
    · exact beq_iff_eq.mpr hseparator
  apply String.toList_injective
  rw [toList_normalize, toList_normalize, String.toList_append, List.filter_append,
    List.dropWhile_append_of_pos hseparators]

/-- Normalizing a name deletes its blanks and then the separators in front, and nothing else. What comes out has no
blanks, does not start with a separator and is normal; it is the same with blanks put in anywhere and with blanks and
separators in any mixture put in front. -/
theorem normalize_ignores_layout (raw : String) :
    normalize raw =
      String.ofList ((raw.toList.filter fun c => !isBlank c).dropWhile (· == separator)) ∧
    normalize (normalize raw) = normalize raw ∧
    (∀ c ∈ (normalize raw).toList, isBlank c = false) ∧
    (normalize raw).toList.head? ≠ some separator ∧
    (∀ padded : String, Padded raw.toList padded.toList → normalize padded = normalize raw) ∧
    ∀ lead : String, (∀ c ∈ lead.toList, isBlank c = true ∨ c = separator) →
      normalize (lead ++ raw) = normalize raw := by
  refine ⟨?_, ?_, fun c => not_isBlank_of_mem_normalize, head?_normalize raw, ?_, ?_⟩
  · rw [← toList_normalize, String.ofList_toList]
  · exact normalize_eq_self (fun c => not_isBlank_of_mem_normalize) (head?_normalize raw)
  · exact fun padded hpadded => normalize_padded hpadded
  · exact fun lead hlead => normalize_append hlead raw

theorem normalize_ignores_layout_spread :
    Padded "App\\I".toList "\tApp \\\n I ".toList ∧
    normalize "\tApp \\\n I " = normalize "App\\I" ∧
    (∀ c ∈ " \\\t\\".toList, isBlank c = true ∨ c = separator) ∧
    normalize (" \\\t\\" ++ "App\\I") = normalize "App\\I" ∧ normalize "App\\I" = "App\\I" := by
  have hpadded : Padded "App\\I".toList "\tApp \\\n I ".toList :=
    .blank rfl (.keep 'A' (.keep 'p' (.keep 'p' (.blank rfl (.keep '\\' (.blank rfl (.blank rfl
      (.keep 'I' (.blank rfl .done)))))))))
  have hlead : ∀ c ∈ " \\\t\\".toList, isBlank c = true ∨ c = separator := by
    have hall : (" \\\t\\".toList.all fun c => isBlank c || c == separator) = true := by decide
    intro c hc
    simpa using List.all_eq_true.mp hall c hc
  obtain ⟨-, -, -, -, hblanks, hfront⟩ := normalize_ignores_layout "App\\I"
  exact ⟨hpadded, hblanks _ hpadded, hlead, hfront _ hlead, by decide +kernel⟩

end Name

end Roster
