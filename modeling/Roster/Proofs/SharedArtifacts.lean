import Roster.Proofs.ConfigurationFaults

/-! Interfaces that share an artifact. The check compares short names, while artifacts are shared when their paths are
equal; the two agree as long as file names are spelled as paths are printed. A file name with a root, an empty part or a
single dot is a second spelling of a path, and the check does not see that. -/

namespace Roster

open Roster.Text

theorem Text.eq_of_splitAt_eq {sep : Char} {first second : String}
    (hsplit : splitAt sep first = splitAt sep second) : first = second := by
  have hsegments : segments sep first.toList = segments sep second.toList :=
    List.map_injective_iff.mpr (fun _ _ => String.ofList_injective) hsplit
  have hchars := congrArg (joinSegments sep) hsegments
  rw [joinSegments_segments, joinSegments_segments] at hchars
  exact String.toList_inj.mp hchars

namespace Artifact

variable {format : Format} {first second : String}

theorem short_eq_of_location_eq {directory : Path} (hfirst : Path.Canonical (fileName first format))
    (hsecond : Path.Canonical (fileName second format))
    (hlocation : location directory first format = location directory second format) :
    Name.short first = Name.short second := by
  rw [location_of_canonical hfirst, location_of_canonical hsecond] at hlocation
  have hparts := List.append_cancel_left (congrArg Path.parts hlocation)
  exact fileName_inj (eq_of_splitAt_eq hparts)

/-- The file names differ, and one of them is not spelled as its path is printed. -/
structure Respelled (format : Format) (first second : String) : Prop where
  differ : fileName first format ≠ fileName second format
  spelling : ¬ (Path.Canonical (fileName first format) ∧ Path.Canonical (fileName second format))

/-- Interfaces pass exactly when no two of them share an artifact, except by two spellings of its path. -/
theorem checkNames_passes_iff (directory : Path) (format : Format) (interfaces : List String) :
    checkNames interfaces = .ok () ↔
      ∀ first ∈ interfaces, ∀ second ∈ interfaces, first ≠ second →
        location directory first format = location directory second format →
          Respelled format first second := by
  rw [checkNames_eq_ok_iff]
  constructor
  · intro hapart first hfirst second hsecond hdistinct hlocation
    refine ⟨fun hname => ?_, fun hcanonical => ?_⟩
    · exact hdistinct (hapart first hfirst second hsecond (fileName_inj hname))
    · have hshort := short_eq_of_location_eq hcanonical.1 hcanonical.2 hlocation
      exact hdistinct (hapart first hfirst second hsecond hshort)
  · intro hshared first hfirst second hsecond hshort
    by_contra hdistinct
    have hlocation := location_eq_of_short_eq hshort directory format
    apply (hshared first hfirst second hsecond hdistinct hlocation).differ
    rw [fileName, fileName, hshort]

/-- A dot in front of a name is a second spelling of its file, which passes. -/
theorem no_conflict_of_dotted_name :
    checkNames ["Foo", "./Foo"] = .ok () ∧
    location ⟨.slash, ["cache"]⟩ "Foo" .php = location ⟨.slash, ["cache"]⟩ "./Foo" .php := by
  decide +kernel

end Artifact

end Roster
