import Mathlib.Data.List.Infix
import Roster.Proofs.Pruning

/-! What the built-in patterns exclude. Each of them is a row of names between two segments that may be anything, so it
stands for that row among the directories of a path: something is in front of the first directory of every anchored
path, and what has to be behind the row keeps it off the name of the file. -/

namespace Roster

open Roster.Text

namespace Glob

/-- A word of characters that stand for themselves in every glob. -/
def IsPlain (word : List Char) : Prop :=
  word.all (fun c => c != '*' && c != '?' && c != '[') = true

instance (word : List Char) : Decidable (IsPlain word) :=
  inferInstanceAs (Decidable (_ = true))

variable {word text : List Char}

theorem isPlain_cons {c : Char} :
    IsPlain (c :: word) ↔ c ≠ '*' ∧ c ≠ '?' ∧ c ≠ '[' ∧ IsPlain word := by
  simp [IsPlain, and_assoc]

theorem parseItems_of_plain (hplain : IsPlain word) : parseItems word = word.map .literal := by
  induction word with
  | nil => rw [parseItems, List.map_nil]
  | cons c word ih =>
      obtain ⟨hstar, hmark, hopen, hword⟩ := isPlain_cons.mp hplain
      rw [parseItems, if_neg hstar, if_neg hmark, if_neg hopen, ih hword, List.map_cons]

theorem afterBlock_literals_iff : afterBlock (word.map .literal) text = some [] ↔ text = word := by
  induction word generalizing text with
  | nil => rw [List.map_nil, afterBlock, Option.some.injEq]
  | cons c word ih =>
      cases text with
      | nil => simp [afterBlock]
      | cons d text =>
          rw [List.map_cons, afterBlock, Item.accepts, List.cons.injEq]
          by_cases hd : d = c
          · rw [hd, beq_self_eq_true, if_pos rfl, ih]
            exact (and_iff_right rfl).symm
          · rw [beq_false_of_ne hd]
            simp [hd]

/-- A glob without special characters stands for its own text only. -/
theorem accepts_iff_of_plain (hplain : IsPlain word) :
    (parse word).accepts text = true ↔ text = word := by
  have hblocks : segmentsBy Item.isAnyRun (parseItems word) = [word.map .literal] := by
    rw [parseItems_of_plain hplain]
    apply segmentsBy_of_forall
    intro item hitem
    obtain ⟨c, -, rfl⟩ := List.mem_map.mp hitem
    rfl
  rw [accepts, parse, hblocks]
  dsimp only
  rw [beq_iff_eq, afterBlock_literals_iff]

theorem accepts_star (text : List Char) : (parse ['*']).accepts text = true :=
  accepts_of_accepts_nil (List.cons_ne_nil _ _) (by decide +kernel) text

end Glob

namespace Exclusion

theorem fitsStart_row_iff {row path : List (List Char)}
    (hplain : ∀ word ∈ row, Glob.IsPlain word) :
    fitsStart (row.map Glob.parse ++ [Glob.parse ['*']]) path = true ↔
      ∃ after rest, path = row ++ after :: rest := by
  induction row generalizing path with
  | nil =>
      cases path with
      | nil => simp [fitsStart]
      | cons segment path => simp [fitsStart, Glob.accepts_star]
  | cons word row ih =>
      obtain ⟨hword, hrow⟩ := List.forall_mem_cons.mp hplain
      cases path with
      | nil => simp [fitsStart]
      | cons segment path =>
          rw [List.map_cons, List.cons_append, fitsStart, Bool.and_eq_true,
            Glob.accepts_iff_of_plain hword, ih hrow]
          simp

/-- A row with something on each side of it stands among what is between the first and the last. -/
theorem exists_surrounded_iff {α : Type} {row names : List α} (first : α) (hsome : names ≠ []) :
    (∃ before after rest, before :: (row ++ after :: rest) <:+ first :: names) ↔
      row <:+: names.dropLast := by
  constructor
  · rintro ⟨before, after, rest, front, hfront⟩
    -- whatever is in front of the row, only its first member is not a name
    obtain ⟨more, rfl⟩ : ∃ more, names = more ++ (row ++ after :: rest) := by
      cases front with
      | nil => exact ⟨[], (List.cons.inj hfront).2.symm⟩
      | cons head front =>
          refine ⟨front ++ [before], ?_⟩
          rw [List.append_assoc]
          exact (List.cons.inj hfront).2.symm
    refine ⟨more, (after :: rest).dropLast, ?_⟩
    rw [← List.append_assoc, List.dropLast_append_of_ne_nil (List.cons_ne_nil after rest)]
  · rintro ⟨front, back, hdirectories⟩
    have hback : back ++ [names.getLast hsome] ≠ [] := by simp
    obtain ⟨after, rest, hrest⟩ := List.exists_cons_of_ne_nil hback
    have hnames : front ++ (row ++ after :: rest) = names := by
      rw [← hrest, ← List.append_assoc, ← List.append_assoc, hdirectories, List.dropLast_concat_getLast]
    refine ⟨(first :: front).getLast (List.cons_ne_nil _ _), after, rest, (first :: front).dropLast, ?_⟩
    rw [List.append_cons, List.dropLast_concat_getLast, ← hnames, List.cons_append]

/-- The text of one segment. -/
def IsSegment (name : String) : Prop :=
  '/' ∉ name.toList ∧ '\\' ∉ name.toList

instance (name : String) : Decidable (IsSegment name) :=
  inferInstanceAs (Decidable (_ ∧ _))

theorem segments_of_isSegment {name : String} (hname : IsSegment name) :
    segments '/' (forward name).toList = [name.toList] := by
  rw [toList_forward, forwardChars_of_not_mem hname.2, segments_of_not_mem hname.1]

variable {names row : List String}

theorem flatMap_segments (hnames : ∀ name ∈ names, IsSegment name) :
    (names.flatMap fun name => segments '/' (forward name).toList) = names.map String.toList := by
  rw [List.map_eq_flatMap]
  exact List.flatMap_congr fun name hname => segments_of_isSegment (hnames name hname)

theorem infix_map_toList_iff :
    row.map String.toList <:+: names.map String.toList ↔ row <:+: names := by
  have hinjective : Function.Injective String.toList := fun _ _ => String.toList_inj.mp
  refine ⟨fun hamong => ?_, fun hamong => hamong.map _⟩
  obtain ⟨other, hother, hsame⟩ := List.infix_map_iff.mp hamong
  rwa [List.map_injective_iff.mpr hinjective hsame]

/-- The pattern for everything below directories in a row. -/
def inside (row : List String) : String :=
  "*/" ++ "/".intercalate row ++ "/*"

theorem patternGlobs_inside (hsome : row ≠ []) (hrow : ∀ name ∈ row, IsSegment name) :
    patternGlobs (inside row) =
      Glob.parse ['*'] :: ((row.map String.toList).map Glob.parse ++ [Glob.parse ['*']]) := by
  have hfront : (forward "*/").toList = ['*'] ++ '/' :: [] := by decide
  have hback : (forward "/*").toList = '/' :: ['*'] := by decide
  have hstar : segments '/' ['*'] = [['*']] := by decide
  have hchars : forwardChars (inside row).toList = ['*'] ++ '/' ::
      ((forward ("/".intercalate row)).toList ++ '/' :: ['*']) := by
    rw [← toList_forward, inside, forward_append, forward_append, String.toList_append,
      String.toList_append, hfront, hback]
    simp
  rw [patternGlobs, hchars, segments_append_sep, segments_append_sep, hstar,
    segments_forward_intercalate hsome, flatMap_segments hrow]
  simp

/-- The pattern fits an anchored path if the row is among its directories. -/
theorem fits_inside_iff (hrow : row ≠ [])
    (hwords : ∀ name ∈ row, IsSegment name ∧ Glob.IsPlain name.toList)
    (hsome : names ≠ []) (hnames : ∀ name ∈ names, IsSegment name) :
    fits (inside row) ("/" ++ "/".intercalate names) = true ↔ row <:+: names.dropLast := by
  have hplain : ∀ word ∈ row.map String.toList, Glob.IsPlain word := by
    intro word hword
    obtain ⟨name, hname, rfl⟩ := List.mem_map.mp hword
    exact (hwords name hname).2
  rw [fits, ← toList_forward, segments_forward_anchored hsome, flatMap_segments hnames, fitsAnywhere_iff,
    patternGlobs_inside hrow fun name hname => (hwords name hname).1, ← infix_map_toList_iff,
    List.map_dropLast, ← exists_surrounded_iff [] (by simpa using hsome)]
  constructor
  · rintro ⟨rest, hrest, hfits⟩
    cases rest with
    | nil => cases hfits
    | cons before rest =>
        rw [fitsStart, Bool.and_eq_true, fitsStart_row_iff hplain] at hfits
        obtain ⟨-, after, more, rfl⟩ := hfits
        exact ⟨before, after, more, hrest⟩
  · rintro ⟨before, after, more, hmore⟩
    refine ⟨_, hmore, ?_⟩
    rw [fitsStart, Glob.accepts_star, Bool.true_and, fitsStart_row_iff hplain]
    exact ⟨after, more, rfl⟩

/-- The directories below which everything is excluded. -/
def excludedNames : List String :=
  ["tests", "test", "Test", "Tests", "fixtures", "stubs", "stub", "docs", "doc", "documentation",
    "examples", "example", "public", "storage", "node_modules", "assets", "build", "dist"]

/-- The directories below which everything is excluded, if they are inside one of a certain name. -/
def excludedPairs : List (String × String) :=
  [("resources", "views"), ("resources", "lang"), ("resources", "css"), ("resources", "js"),
    ("vendor", "bin"), ("database", "migrations"), ("database", "seeds"), ("database", "factories")]

def excludedRows : List (List String) :=
  excludedNames.map ([·]) ++ excludedPairs.map fun pair => [pair.1, pair.2]

theorem builtIn_perm_excludedRows : builtIn.Perm (excludedRows.map inside) := by
  decide +kernel

theorem plain_of_mem_excludedRows : ∀ row ∈ excludedRows, row ≠ [] ∧
    ∀ name ∈ row, IsSegment name ∧ Glob.IsPlain name.toList := by
  decide +kernel

theorem excludes_builtIn_iff_row (hsome : names ≠ []) (hnames : ∀ name ∈ names, IsSegment name) :
    excludes builtIn ("/" ++ "/".intercalate names) = true ↔
      ∃ row ∈ excludedRows, row <:+: names.dropLast := by
  rw [excludes, builtIn_perm_excludedRows.any_eq, List.any_map, List.any_eq_true]
  refine exists_congr fun row => and_congr_right fun hmem => ?_
  obtain ⟨hrow, hwords⟩ := plain_of_mem_excludedRows row hmem
  exact fits_inside_iff hrow hwords hsome hnames

theorem pair_infix_iff {α : Type} {first second : α} {members : List α} :
    [first, second] <:+: members ↔
      ∃ i, ∃ hi : i + 1 < members.length, members[i] = first ∧ members[i + 1] = second := by
  constructor
  · rintro ⟨front, back, rfl⟩
    exact ⟨front.length, by simp, by simp, by simp⟩
  · rintro ⟨i, hi, rfl, rfl⟩
    refine ⟨members.take i, members.drop (i + 2), ?_⟩
    rw [List.append_assoc, List.cons_append, List.singleton_append, List.getElem_cons_drop,
      List.getElem_cons_drop, List.take_append_drop]

theorem exists_excludedRow_iff {directories : List String} :
    (∃ row ∈ excludedRows, row <:+: directories) ↔
      (∃ i, ∃ hi : i < directories.length, directories[i] ∈ excludedNames) ∨
      ∃ i, ∃ hi : i + 1 < directories.length,
        (directories[i], directories[i + 1]) ∈ excludedPairs := by
  constructor
  · rintro ⟨row, hrow, hamong⟩
    rcases List.mem_append.mp hrow with hsingle | hdouble
    · obtain ⟨name, hname, rfl⟩ := List.mem_map.mp hsingle
      obtain ⟨i, hi, rfl⟩ := List.mem_iff_getElem.mp ((List.singleton_infix_iff _ _).mp hamong)
      exact Or.inl ⟨i, hi, hname⟩
    · obtain ⟨pair, hpair, rfl⟩ := List.mem_map.mp hdouble
      obtain ⟨i, hi, hfirst, hsecond⟩ := pair_infix_iff.mp hamong
      exact Or.inr ⟨i, hi, by rwa [hfirst, hsecond]⟩
  · rintro (⟨i, hi, hname⟩ | ⟨i, hi, hpair⟩)
    · exact ⟨_, List.mem_append_left _ (List.mem_map_of_mem hname),
        (List.singleton_infix_iff _ _).mpr (List.getElem_mem hi)⟩
    · exact ⟨_, List.mem_append_right _ (List.mem_map_of_mem hpair),
        pair_infix_iff.mpr ⟨i, hi, rfl, rfl⟩⟩

/-- The built-in patterns exclude a path exactly when a directory on it has one of the names, or two consecutive ones
have one of the pairs; what the file is called does not matter. -/
theorem builtIn_excludes_listed_directories {names : List String} (hsome : names ≠ [])
    (hnames : ∀ name ∈ names, IsSegment name) :
    (excludes builtIn ("/" ++ "/".intercalate names) = true ↔
      (∃ i, ∃ hi : i + 1 < names.length, names[i] ∈ excludedNames) ∨
      ∃ i, ∃ hi : i + 2 < names.length, (names[i], names[i + 1]) ∈ excludedPairs) ∧
    ∀ other, IsSegment other →
      excludes builtIn ("/" ++ "/".intercalate (names.dropLast ++ [other])) =
        excludes builtIn ("/" ++ "/".intercalate names) := by
  constructor
  · rw [excludes_builtIn_iff_row hsome hnames, exists_excludedRow_iff]
    simp only [List.getElem_dropLast, List.length_dropLast, Nat.lt_sub_iff_add_lt, Nat.add_assoc]
  · intro other hother
    have hothers : ∀ name ∈ names.dropLast ++ [other], IsSegment name := by
      intro name hname
      rcases List.mem_append.mp hname with hdirectory | hfile
      · exact hnames name (List.dropLast_subset names hdirectory)
      · rwa [List.mem_singleton.mp hfile]
    rw [Bool.eq_iff_iff, excludes_builtIn_iff_row (by simp) hothers,
      excludes_builtIn_iff_row hsome hnames, List.dropLast_concat]

theorem builtIn_excludes_views_only_inside_resources :
    (∀ name ∈ ["latests", "resources", "views", "dist"], IsSegment name) ∧
    excludes builtIn ("/" ++ "/".intercalate ["latests", "resources", "views", "dist"]) = true ∧
    (∀ name ∈ ["latests", "views", "resources", "dist"], IsSegment name) ∧
    excludes builtIn ("/" ++ "/".intercalate ["latests", "views", "resources", "dist"]) = false := by
  have hinside : ∀ name ∈ ["latests", "resources", "views", "dist"], IsSegment name := by
    decide +kernel
  have houtside : ∀ name ∈ ["latests", "views", "resources", "dist"], IsSegment name := by
    decide +kernel
  refine ⟨hinside, ?_, houtside, ?_⟩
  · exact (builtIn_excludes_listed_directories (by decide) hinside).1.mpr
      (Or.inr ⟨1, by decide, by decide⟩)
  · rw [Bool.eq_false_iff, ne_eq, (builtIn_excludes_listed_directories (by decide) houtside).1]
    rintro (⟨i, hi, hname⟩ | ⟨i, hi, hpair⟩)
    · change i + 1 < 4 at hi
      obtain rfl | rfl | rfl : i = 0 ∨ i = 1 ∨ i = 2 := by omega
      all_goals simp [excludedNames] at hname
    · change i + 2 < 4 at hi
      obtain rfl | rfl : i = 0 ∨ i = 1 := by omega
      all_goals simp [excludedPairs] at hpair

end Exclusion

end Roster
