import Mathlib.Data.List.DropRight
import Roster.Exclusion

/-! Leaving out a whole directory loses nothing. A pattern that fits a directory with an empty segment behind it fits
everything inside: a glob that stands for the empty segment has nothing but runs, so it stands for every segment. -/

namespace Roster

open Roster.Text

namespace Text

variable {α : Type}

theorem segments_append_sep (sep : Char) (left right : List Char) :
    segments sep (left ++ sep :: right) = segments sep left ++ segments sep right := by
  unfold segments
  induction left with
  | nil =>
      change segmentsBy (· == sep) (sep :: right) = [] :: segmentsBy (· == sep) right
      rw [segmentsBy, if_pos (beq_self_eq_true sep)]
  | cons c left ih =>
      rw [List.cons_append, segmentsBy, segmentsBy, ih]
      split_ifs with hc
      · rfl
      · obtain ⟨first, rest, hleft⟩ := List.exists_cons_of_ne_nil (segmentsBy_ne_nil (· == sep) left)
        rw [hleft]
        rfl

/-- A text with one segment has no separator and is that segment. -/
theorem eq_of_segmentsBy_eq_singleton {isSep : α → Bool} {cs segment : List α}
    (hone : segmentsBy isSep cs = [segment]) : cs = segment := by
  induction cs generalizing segment with
  | nil =>
      rw [segmentsBy] at hone
      exact List.singleton_inj.mp hone
  | cons c cs ih =>
      rw [segmentsBy] at hone
      split_ifs at hone with hc
      · exact absurd (List.cons.inj hone).2 (segmentsBy_ne_nil isSep cs)
      · cases hrest : segmentsBy isSep cs with
        | nil => exact absurd hrest (segmentsBy_ne_nil isSep cs)
        | cons first rest =>
            rw [hrest, List.modifyHead_cons] at hone
            obtain ⟨rfl, rfl⟩ := List.cons.inj hone
            rw [ih hrest]

/-- What is dropped from the end is the character over and over. -/
theorem exists_eq_dropEndWhile_append (c : Char) (cs : List Char) :
    ∃ count, cs = dropEndWhile (· == c) cs ++ List.replicate count c := by
  have hsplit := List.takeWhile_append_dropWhile (p := (· == c)) (l := cs.reverse)
  have hrun : cs.reverse.takeWhile (· == c) =
      List.replicate (cs.reverse.takeWhile (· == c)).length c := by
    refine List.eq_replicate_of_mem fun other hother => ?_
    simpa using List.all_eq_true.mp List.all_takeWhile other hother
  refine ⟨(cs.reverse.takeWhile (· == c)).length, ?_⟩
  rw [dropEndWhile, ← List.reverse_replicate, ← hrun, ← List.reverse_append, hsplit,
    List.reverse_reverse]

/-- Names between slashes begin with the first of them. -/
theorem exists_toList_intercalate_cons (name : String) (rest : List String) :
    ∃ more, ("/".intercalate (name :: rest)).toList = name.toList ++ more := by
  cases rest with
  | nil => exact ⟨[], by simp⟩
  | cons next rest =>
      rw [String.intercalate_cons_cons, String.append_assoc, String.toList_append]
      exact ⟨_, rfl⟩

end Text

namespace Glob

theorem parseItems_ne_nil {pattern : List Char} (hsome : pattern ≠ []) : parseItems pattern ≠ [] := by
  obtain ⟨c, cs, rfl⟩ := List.exists_cons_of_ne_nil hsome
  rw [parseItems]
  split_ifs
  · exact List.cons_ne_nil _ _
  · exact List.cons_ne_nil _ _
  · split
    · exact List.cons_ne_nil _ _
    · exact List.cons_ne_nil _ _
  · exact List.cons_ne_nil _ _

theorem eq_nil_of_afterBlock_nil {block : List Item} {after : List Char}
    (hblock : afterBlock block [] = some after) : block = [] := by
  cases block with
  | nil => rfl
  | cons item items => cases hblock

theorem fitsBlocks_nil {blocks : List (List Item)} (hfits : fitsBlocks blocks [] = true) :
    ∀ block ∈ blocks, block = [] := by
  induction blocks with
  | nil => simp
  | cons block rest ih =>
      cases rest with
      | nil =>
          have hblock : block = [] := by simpa [fitsBlocks] using (Bool.and_eq_true_iff.mp hfits).1
          simpa using hblock
      | cons next rest =>
          rw [fitsBlocks, afterFirst] at hfits
          cases hblock : afterBlock block [] with
          | none =>
              rw [hblock] at hfits
              cases hfits
          | some after =>
              obtain rfl := eq_nil_of_afterBlock_nil hblock
              rw [hblock] at hfits
              cases hblock
              simpa using ih hfits

theorem fitsBlocks_of_all_nil {blocks : List (List Item)} (hblocks : ∀ block ∈ blocks, block = [])
    (cs : List Char) : fitsBlocks blocks cs = true := by
  induction blocks generalizing cs with
  | nil => rfl
  | cons block rest ih =>
      obtain rfl := hblocks block List.mem_cons_self
      have hrest := ih fun other hother => hblocks other (List.mem_cons_of_mem _ hother)
      cases rest with
      | nil => simp [fitsBlocks, afterBlock]
      | cons next rest =>
          have hafter : afterFirst [] cs = some cs := by
            cases cs with
            | nil => rfl
            | cons c cs => rfl
          rw [fitsBlocks, hafter]
          exact hrest cs

/-- A glob that is not empty and stands for the empty text stands for every text. -/
theorem accepts_of_accepts_nil {pattern : List Char} (hsome : pattern ≠ [])
    (hnil : (parse pattern).accepts [] = true) (cs : List Char) :
    (parse pattern).accepts cs = true := by
  have hitems := parseItems_ne_nil hsome
  unfold accepts parse at *
  dsimp only at *
  cases hblocks : segmentsBy Item.isAnyRun (parseItems pattern) with
  | nil => exact absurd hblocks (segmentsBy_ne_nil _ _)
  | cons first rest =>
      rw [hblocks] at hnil
      cases rest with
      | nil =>
          -- one block is the whole pattern, so it is not empty
          have hfirst : first = [] := by
            cases hafter : afterBlock first [] with
            | none => simp [hafter] at hnil
            | some after => exact eq_nil_of_afterBlock_nil hafter
          rw [hfirst] at hblocks
          exact absurd (eq_of_segmentsBy_eq_singleton hblocks) hitems
      | cons next rest =>
          dsimp only at hnil ⊢
          cases hafter : afterBlock first [] with
          | none => simp [hafter] at hnil
          | some after =>
              obtain rfl := eq_nil_of_afterBlock_nil hafter
              cases hafter
              exact fitsBlocks_of_all_nil (fitsBlocks_nil hnil) cs

end Glob

namespace Exclusion

/-- Globs that fit up to an empty segment at the end fit with anything from that segment on. -/
theorem fitsStart_extend {globs : List Glob}
    (hlast : ∀ glob, globs.getLast? = some glob → glob.accepts [] = true →
      ∀ cs, glob.accepts cs = true)
    (front : List (List Char)) (hfits : fitsStart globs (front ++ [[]]) = true)
    (segment : List Char) (rest : List (List Char)) :
    fitsStart globs (front ++ segment :: rest) = true := by
  induction front generalizing globs with
  | nil =>
      cases globs with
      | nil => rfl
      | cons glob globs =>
          obtain ⟨hnil, hmore⟩ := Bool.and_eq_true_iff.mp hfits
          cases globs with
          | nil => exact Bool.and_eq_true_iff.mpr ⟨hlast glob rfl hnil segment, rfl⟩
          | cons next globs => cases hmore
  | cons first front ih =>
      cases globs with
      | nil => rfl
      | cons glob globs =>
          obtain ⟨hfirst, hmore⟩ := Bool.and_eq_true_iff.mp hfits
          refine Bool.and_eq_true_iff.mpr ⟨hfirst, ih (fun last hfound => hlast last ?_) hmore⟩
          rw [List.getLast?_cons, hfound]
          rfl

/-- Globs stand for consecutive segments if they stand for the first ones of what is left behind some place. -/
theorem fitsAnywhere_iff {globs : List Glob} {path : List (List Char)} :
    fitsAnywhere globs path = true ↔ ∃ rest, rest <:+ path ∧ fitsStart globs rest = true := by
  induction path with
  | nil => simp [fitsAnywhere]
  | cons segment path ih =>
      rw [fitsAnywhere, Bool.or_eq_true, ih]
      constructor
      · rintro (hstart | ⟨rest, hrest, hfits⟩)
        · exact ⟨_, List.suffix_rfl, hstart⟩
        · exact ⟨rest, hrest.trans (List.suffix_cons segment path), hfits⟩
      · rintro ⟨rest, hrest, hfits⟩
        rcases List.suffix_cons_iff.mp hrest with rfl | hlater
        · exact Or.inl hfits
        · exact Or.inr ⟨rest, hlater, hfits⟩

theorem fitsAnywhere_extend {globs : List Glob}
    (hlast : ∀ glob, globs.getLast? = some glob → glob.accepts [] = true →
      ∀ cs, glob.accepts cs = true)
    {front : List (List Char)} (hfits : fitsAnywhere globs (front ++ [[]]) = true)
    (segment : List Char) (rest : List (List Char)) :
    fitsAnywhere globs (front ++ segment :: rest) = true := by
  obtain ⟨later, hlater, hstart⟩ := fitsAnywhere_iff.mp hfits
  rcases List.suffix_concat_iff.mp hlater with rfl | ⟨window, rfl, more, rfl⟩
  · -- only no globs at all fit nothing
    cases globs with
    | nil => exact fitsAnywhere_iff.mpr ⟨_, List.suffix_rfl, rfl⟩
    | cons glob globs => cases hstart
  · refine fitsAnywhere_iff.mpr ⟨window ++ segment :: rest, ?_, ?_⟩
    · rw [List.append_assoc]
      exact List.suffix_append more _
    · exact fitsStart_extend hlast window hstart segment rest

/-- The pattern has something behind its last slash. -/
def EndsInSegment (pattern : String) : Prop :=
  lastSegment '/' (forwardChars pattern.toList) ≠ []

instance (pattern : String) : Decidable (EndsInSegment pattern) :=
  inferInstanceAs (Decidable (_ ≠ _))

theorem patternGlobs_getLast {pattern : String} (hends : EndsInSegment pattern) {glob : Glob}
    (hglob : (patternGlobs pattern).getLast? = some glob) (hnil : glob.accepts [] = true)
    (cs : List Char) : glob.accepts cs = true := by
  rw [patternGlobs, List.getLast?_map] at hglob
  obtain ⟨segment, hsegment, rfl⟩ := Option.map_eq_some_iff.mp hglob
  have hlast : lastSegment '/' (forwardChars pattern.toList) = segment := by
    rw [lastSegment, List.getLastD_eq_getLast?, hsegment]
    rfl
  exact Glob.accepts_of_accepts_nil (hlast ▸ hends) hnil cs

theorem toList_forward (text : String) : (forward text).toList = forwardChars text.toList :=
  String.toList_ofList

theorem forwardChars_append (left right : List Char) :
    forwardChars (left ++ right) = forwardChars left ++ forwardChars right :=
  List.map_append

theorem forwardChars_forwardChars (cs : List Char) :
    forwardChars (forwardChars cs) = forwardChars cs := by
  rw [forwardChars, forwardChars, List.map_map]
  congr 1
  funext c
  by_cases hc : c = '\\'
  · simp [hc]
  · simp [hc]

theorem forwardChars_of_not_mem {cs : List Char} (hback : '\\' ∉ cs) : forwardChars cs = cs := by
  rw [forwardChars]
  conv_rhs => rw [← List.map_id cs]
  refine List.map_congr_left fun c hc => ?_
  have hne : c ≠ '\\' := fun heq => hback (heq ▸ hc)
  rw [if_neg hne, id]

theorem forward_append (left right : String) : forward (left ++ right) = forward left ++ forward right := by
  rw [forward, forward, forward, String.toList_append, forwardChars_append, String.ofList_append]

theorem segments_forward_intercalate {names : List String} (hsome : names ≠ []) :
    segments '/' (forward ("/".intercalate names)).toList =
      names.flatMap fun name => segments '/' (forward name).toList := by
  induction names with
  | nil => contradiction
  | cons name rest ih =>
      cases rest with
      | nil => simp
      | cons next rest =>
          have hslash : (forward "/").toList = ['/'] := by decide
          rw [String.intercalate_cons_cons, forward_append, forward_append, String.toList_append,
            String.toList_append, hslash, List.append_assoc, List.singleton_append, segments_append_sep,
            ih (List.cons_ne_nil _ _)]
          rfl

/-- Seen from an anchor, names have an empty segment in front of their own. -/
theorem segments_forward_anchored {names : List String} (hsome : names ≠ []) :
    segments '/' (forward ("/" ++ "/".intercalate names)).toList =
      [] :: names.flatMap fun name => segments '/' (forward name).toList := by
  have hslash : (forward "/").toList = [] ++ '/' :: [] := by decide
  rw [forward_append, String.toList_append, hslash, List.append_assoc, List.cons_append,
    segments_append_sep, List.nil_append, segments_forward_intercalate hsome]
  rfl

/-- The path without the slashes at its end, whichever way they lean. -/
def withoutSlashes (directory : String) : String :=
  String.ofList (dropEndWhile (fun c => c == '/' || c == '\\') directory.toList)

theorem withoutSlashes_withoutSlashes (directory : String) :
    withoutSlashes (withoutSlashes directory) = withoutSlashes directory := by
  rw [withoutSlashes, withoutSlashes, String.toList_ofList]
  exact congrArg String.ofList (List.rdropWhile_idempotent _ _)

theorem forwardChars_withoutSlashes (directory : String) :
    forwardChars (withoutSlashes directory).toList =
      dropEndWhile (· == '/') (forwardChars directory.toList) := by
  have hslash : ((· == '/') ∘ fun c : Char => if c = '\\' then '/' else c) =
      fun c => c == '/' || c == '\\' := by
    funext c
    by_cases hc : c = '\\'
    · simp [hc]
    · simp [hc]
  rw [withoutSlashes, String.toList_ofList, forwardChars, forwardChars, dropEndWhile, dropEndWhile,
    ← List.map_reverse, List.dropWhile_map, hslash, List.map_reverse]

/-- A directory is tested as the path of something without a name inside it. -/
theorem excludesDirectory_eq (patterns : List String) (directory : String) :
    excludesDirectory patterns directory = excludes patterns (withoutSlashes directory ++ "/") := by
  have hone : "/".toList = ['/'] := rfl
  rw [excludesDirectory, ← forwardChars_withoutSlashes]
  simp only [excludes, fits, String.toList_ofList, String.toList_append, forwardChars_append,
    forwardChars_forwardChars, hone]

/-- What is excluded as a directory is excluded with everything below it. -/
theorem excludes_of_excludesDirectory {patterns : List String}
    (hends : ∀ pattern ∈ patterns, EndsInSegment pattern) {directory : String}
    (hexcluded : excludesDirectory patterns directory = true) (rest : String) :
    excludes patterns (directory ++ "/" ++ rest) = true := by
  rw [excludesDirectory_eq] at hexcluded
  obtain ⟨pattern, hmem, hfits⟩ := List.any_eq_true.mp hexcluded
  refine List.any_eq_true.mpr ⟨pattern, hmem, ?_⟩
  obtain ⟨count, hcount⟩ := exists_eq_dropEndWhile_append '/' (forwardChars directory.toList)
  rw [← forwardChars_withoutSlashes] at hcount
  have hslash : forwardChars "/".toList = ['/'] := rfl
  have hpath : forwardChars (directory ++ "/" ++ rest).toList =
      forwardChars (withoutSlashes directory).toList ++
        '/' :: (List.replicate count '/' ++ forwardChars rest.toList) := by
    have hshift : List.replicate count '/' ++ ['/'] = '/' :: List.replicate count '/' :=
      List.replicate_succ'.symm.trans List.replicate_succ
    rw [String.toList_append, String.toList_append, forwardChars_append, forwardChars_append, hcount,
      hslash, List.append_assoc (forwardChars _), hshift, List.append_assoc, List.cons_append]
  rw [fits, String.toList_append, forwardChars_append, hslash, segments_append_sep] at hfits
  rw [fits, hpath, segments_append_sep]
  -- the stripped slashes and the rest make at least one segment, whatever they are
  obtain ⟨segment, more, hmore⟩ := List.exists_cons_of_ne_nil
    (segmentsBy_ne_nil (· == '/') (List.replicate count '/' ++ forwardChars rest.toList))
  rw [segments, segments, hmore]
  exact fitsAnywhere_extend (fun glob => patternGlobs_getLast (hends pattern hmem)) hfits segment more

/-- A directory is left out only if everything below it is excluded, however its path ends in slashes; and it is left
out whenever everything below it is excluded. -/
theorem excludesDirectory_iff_excludes_below {patterns : List String}
    (hends : ∀ pattern ∈ patterns, EndsInSegment pattern) (directory : String) :
    (excludesDirectory patterns directory = true →
      ∀ rest, excludes patterns (directory ++ "/" ++ rest) = true) ∧
    (excludesDirectory patterns directory = true ↔
      ∀ rest, excludes patterns (withoutSlashes directory ++ "/" ++ rest) = true) := by
  refine ⟨excludes_of_excludesDirectory hends, fun hexcluded => ?_, fun hbelow => ?_⟩
  · have hsame : excludesDirectory patterns (withoutSlashes directory) = true := by
      rw [excludesDirectory_eq, withoutSlashes_withoutSlashes, ← excludesDirectory_eq, hexcluded]
    exact excludes_of_excludesDirectory hends hsame
  · have hnothing := hbelow ""
    rwa [String.append_empty, ← excludesDirectory_eq] at hnothing

theorem excludes_below_leaning_slashes :
    (∀ pattern ∈ ["a/b", "*\\te[rs]t?\\**"], EndsInSegment pattern) ∧
    excludesDirectory ["a/b", "*\\te[rs]t?\\**"] "lib\\tests\\/" = true ∧
    excludes ["a/b", "*\\te[rs]t?\\**"] ("lib\\tests\\/" ++ "/" ++ "x\\A.php") = true := by
  have hends : ∀ pattern ∈ ["a/b", "*\\te[rs]t?\\**"], EndsInSegment pattern := by decide +kernel
  have hexcluded : excludesDirectory ["a/b", "*\\te[rs]t?\\**"] "lib\\tests\\/" = true := by
    decide +kernel
  exact ⟨hends, hexcluded, (excludesDirectory_iff_excludes_below hends _).1 hexcluded _⟩

/-- A pattern with nothing behind its last slash excludes a directory, but not what is inside. -/
example : excludesDirectory ["tests/"] "tests" = true ∧ excludes ["tests/"] "tests/A.php" = false := by
  decide +kernel

end Exclusion

end Roster
