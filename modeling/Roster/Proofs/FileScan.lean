import Mathlib.Data.List.Basic
import Mathlib.Data.List.Induction
import Roster.Proofs.NameLayout
import Roster.Proofs.Walk
import Roster.Scan.File

/-! Scanning one file. With targets that are named, one finder serves all files of a chunk as well as a new one for
each would; and a scan gives a result for every path that can name a file at all. -/

namespace Roster

namespace Finder

theorem mem_distinct_step (kept : List String) (name other : String) :
    other ∈ (if kept.contains name then kept else kept ++ [name]) ↔ other ∈ kept ∨ other = name := by
  split_ifs with hkept
  · have hname : name ∈ kept := List.contains_iff_mem.mp hkept
    constructor
    · exact Or.inl
    · rintro (hother | rfl)
      · exact hother
      · exact hname
  · rw [List.mem_append, List.mem_singleton]

theorem mem_distinct (names : List String) (name : String) :
    name ∈ distinct names ↔ name ∈ names := by
  have hfold (kept : List String) :
      name ∈ names.foldl
          (fun kept name => if kept.contains name then kept else kept ++ [name]) kept ↔
        name ∈ kept ∨ name ∈ names := by
    induction names generalizing kept with
    | nil => rw [List.foldl_nil]; simp
    | cons first rest ih =>
        rw [List.foldl_cons, ih, mem_distinct_step, List.mem_cons, or_assoc]
  rw [distinct, hfold]
  simp

/-- Names are kept at their first occurrence. -/
theorem distinct_eq_eraseDups (names : List String) : distinct names = names.eraseDups := by
  induction names using List.reverseRecOn with
  | nil => rfl
  | append_singleton names name ih =>
      have hstep : distinct (names ++ [name]) =
          if (distinct names).contains name then distinct names else distinct names ++ [name] := by
        rw [distinct, List.foldl_append]
        rfl
      rw [hstep, List.eraseDups_append, ← ih]
      by_cases hname : name ∈ names
      · simp [List.removeAll, mem_distinct, hname]
      · simp [List.removeAll, mem_distinct, hname, List.eraseDups_cons]

theorem setTargets_of_named (finder : Finder) {names : List String} (hnamed : "" ∉ names) :
    finder.setTargets names = .ok ⟨distinct names, finder.index.ensureAll (distinct names)⟩ := by
  have hmem : "" ∉ distinct names := fun h => hnamed ((mem_distinct names "").mp h)
  have hcontains : ¬ (distinct names).contains "" = true := fun h => hmem (List.contains_iff_mem.mp h)
  rw [setTargets, if_neg hcontains]

theorem setTargets_of_unnamed (finder : Finder) {names : List String} (hempty : "" ∈ names) :
    finder.setTargets names = .error .emptyTargetName := by
  have hcontains : (distinct names).contains "" = true :=
    List.contains_iff_mem.mpr ((mem_distinct names "").mpr hempty)
  rw [setTargets, if_pos hcontains]

/-- Named targets make a finder, which keeps them. -/
theorem ofTargets_eq_ok {names : List String} (hnamed : "" ∉ names) :
    ofTargets names = .ok ⟨distinct names, ({} : Index).ensureAll (distinct names)⟩ :=
  setTargets_of_named _ hnamed

theorem distinct_ne_nil {names : List String} (hsome : names ≠ []) : distinct names ≠ [] := by
  obtain ⟨name, rest, rfl⟩ := List.exists_cons_of_ne_nil hsome
  exact List.ne_nil_of_mem ((mem_distinct _ name).mpr List.mem_cons_self)

end Finder

namespace Text

theorem mem_of_mem_splitAt {sep : Char} {text part : String} {c : Char}
    (hpart : part ∈ splitAt sep text) (hc : c ∈ part.toList) : c ∈ text.toList := by
  obtain ⟨segment, hsegment, rfl⟩ := List.mem_map.mp hpart
  rw [String.toList_ofList] at hc
  exact mem_of_mem_segmentsBy hsegment hc

theorem exists_mem_splitAt {sep c : Char} {text : String} (hc : c ∈ text.toList) (hsep : c ≠ sep) :
    ∃ part ∈ splitAt sep text, c ∈ part.toList := by
  have hflat : c ∈ (segmentsBy (· == sep) text.toList).flatten := by
    rw [flatten_segmentsBy, List.mem_filter]
    exact ⟨hc, by simpa using hsep⟩
  obtain ⟨segment, hsegment, hmem⟩ := List.mem_flatten.mp hflat
  exact ⟨String.ofList segment, List.mem_map_of_mem hsegment, by rwa [String.toList_ofList]⟩

end Text

namespace Path

theorem mem_of_mem_intercalate {sep : List Char} {parts : List (List Char)} {c : Char}
    (hc : c ∈ sep.intercalate parts) : c ∈ sep ∨ ∃ part ∈ parts, c ∈ part := by
  induction parts with
  | nil => simp at hc
  | cons part rest ih =>
      cases rest with
      | nil =>
          rw [List.intercalate_singleton] at hc
          exact Or.inr ⟨part, List.mem_cons_self, hc⟩
      | cons next rest =>
          rw [List.intercalate_cons_cons, List.mem_append, List.mem_append] at hc
          rcases hc with (hc | hc) | hc
          · exact Or.inr ⟨part, List.mem_cons_self, hc⟩
          · exact Or.inl hc
          · rcases ih hc with hsep | ⟨other, hother, hmem⟩
            · exact Or.inl hsep
            · exact Or.inr ⟨other, List.mem_cons_of_mem _ hother, hmem⟩

/-- A written path has no characters but those of its parts, slashes and a dot. -/
theorem mem_of_mem_toString {path : Path} {c : Char} (hc : c ∈ (toString path).toList) :
    c = '/' ∨ c = '.' ∨ ∃ part ∈ path.parts, c ∈ part.toList := by
  change c ∈ (Path.toString path).toList at hc
  unfold Path.toString at hc
  split at hc
  · right; left
    simpa using hc
  · rw [String.toList_append, List.mem_append, String.toList_intercalate] at hc
    rcases hc with hroot | hparts
    · left
      generalize path.root = root at hroot
      cases root with
      | relative => simp [Root.text] at hroot
      | slash => simpa [Root.text] using hroot
      | doubleSlash => simpa [Root.text] using hroot
    · rcases mem_of_mem_intercalate hparts with hsep | ⟨part, hpart, hmem⟩
      · left
        simpa using hsep
      · obtain ⟨name, hname, rfl⟩ := List.mem_map.mp hpart
        exact Or.inr (Or.inr ⟨name, hname, hmem⟩)

/-- Reading a path and writing it again brings in no characters but slashes and a dot. -/
theorem mem_of_mem_toString_ofString {text : String} {c : Char}
    (hc : c ∈ (toString (ofString text)).toList) : c = '/' ∨ c = '.' ∨ c ∈ text.toList := by
  rcases mem_of_mem_toString hc with hslash | hdot | ⟨part, hpart, hmem⟩
  · exact Or.inl hslash
  · exact Or.inr (Or.inl hdot)
  · exact Or.inr (Or.inr (Text.mem_of_mem_splitAt (List.mem_of_mem_filter hpart) hmem))

theorem mem_intercalate {sep part : List Char} {parts : List (List Char)} {c : Char}
    (hpart : part ∈ parts) (hc : c ∈ part) : c ∈ sep.intercalate parts := by
  induction parts with
  | nil => cases hpart
  | cons first rest ih =>
      cases rest with
      | nil =>
          obtain rfl := List.mem_singleton.mp hpart
          rwa [List.intercalate_singleton]
      | cons next rest =>
          rw [List.intercalate_cons_cons]
          rcases List.mem_cons.mp hpart with rfl | hlater
          · exact List.mem_append_left _ (List.mem_append_left _ hc)
          · exact List.mem_append_right _ (ih hlater)

theorem mem_toString_of_mem_part {path : Path} {part : String} {c : Char} (hpart : part ∈ path.parts)
    (hc : c ∈ part.toList) : c ∈ (toString path).toList := by
  change c ∈ (Path.toString path).toList
  unfold Path.toString
  split
  · next hnone =>
      rw [hnone] at hpart
      cases hpart
  · rw [String.toList_append, List.mem_append, String.toList_intercalate]
    exact Or.inr (mem_intercalate (List.mem_map_of_mem hpart) hc)

/-- It leaves out none but those either. -/
theorem mem_toString_ofString {text : String} {c : Char} (hc : c ∈ text.toList) (hslash : c ≠ '/')
    (hdot : c ≠ '.') : c ∈ (toString (ofString text)).toList := by
  obtain ⟨part, hpart, hmem⟩ := Text.exists_mem_splitAt hc hslash
  refine mem_toString_of_mem_part (List.mem_filter.mpr ⟨hpart, ?_⟩) hmem
  have hempty : part ≠ "" := by
    rintro rfl
    cases hmem
  have hsingle : part ≠ "." := by
    rintro rfl
    exact hdot (List.mem_singleton.mp hmem)
  simp [hempty, hsingle]

end Path

namespace FileTree

theorem locate_ne_embeddedNull {path : Path} (hnull : '\x00' ∉ (toString path).toList)
    (tree : FileTree) (follow : Bool) : tree.locate follow path ≠ .error .embeddedNull := by
  have hcontains : ¬ (toString path).contains '\x00' = true := by
    rw [String.contains_char_eq]
    simpa using hnull
  unfold locate
  dsimp only
  rw [if_neg hcontains]
  split
  · exact nofun
  · generalize walk _ _ _ _ _ = place
    cases place with
    | ok place => exact nofun
    | error cause => exact nofun

theorem read_ne_embeddedNull {path : Path} (hnull : '\x00' ∉ (toString path).toList)
    (tree : FileTree) : tree.read path ≠ .error .embeddedNull := by
  unfold read
  split
  · exact nofun
  · exact nofun
  · exact nofun
  · next fault heq =>
      intro hread
      obtain rfl := Except.error.inj hread
      exact locate_ne_embeddedNull hnull tree true heq

end FileTree

namespace Scan

variable [Syntax.Parser]

omit [Syntax.Parser] in
theorem finderFor_eq_ok {targets : List String} (hnamed : "" ∉ targets) :
    finderFor targets =
      .ok ⟨Finder.distinct targets, ({} : Index).ensureAll (Finder.distinct targets)⟩ := by
  rw [finderFor, Finder.ofTargets_eq_ok hnamed]
  rfl

theorem scanFile_eq_scanWith {targets : List String} {finder : Finder}
    (hfinder : finderFor targets = .ok finder) (tree : FileTree) (path : String) :
    scanFile targets tree path = scanWith finder tree path := by
  rw [scanFile, scanWith, hfinder]
  rfl

/-- What one finder finds in the files of a chunk is what a new one finds in each. -/
theorem scanChunk_eq_mapM_scanFile {targets : List String} (hnamed : "" ∉ targets)
    (tree : FileTree) (paths : List String) :
    scanChunk targets tree paths = paths.mapM (scanFile targets tree) := by
  have hfinder := finderFor_eq_ok hnamed
  have hsame : scanFile targets tree = scanWith _ tree :=
    funext fun path => scanFile_eq_scanWith hfinder tree path
  rw [scanChunk, hfinder, hsame]
  rfl

theorem fileTree_eq_ok {path : String} (hnull : '\x00' ∉ path.toList) (tree : FileTree) :
    ∃ source, fileTree tree path = .ok source := by
  have hwritten : '\x00' ∉ (toString (Path.ofString path)).toList := by
    intro hmem
    rcases Path.mem_of_mem_toString_ofString hmem with hslash | hdot | hpath
    · exact absurd hslash (by decide)
    · exact absurd hdot (by decide)
    · exact hnull hpath
  have hread := FileTree.read_ne_embeddedNull hwritten tree
  rw [fileTree]
  split
  · exact ⟨_, rfl⟩
  · next heq => exact absurd heq hread
  · exact ⟨_, rfl⟩

/-- A null character in its path stops the scan of a file. -/
theorem fileTree_of_null {path : String} (hnull : '\x00' ∈ path.toList) (tree : FileTree) :
    fileTree tree path = .error .embeddedNull := by
  have hwritten : (toString (Path.ofString path)).contains '\x00' = true := by
    rw [String.contains_char_eq]
    simpa using Path.mem_toString_ofString hnull (by decide) (by decide)
  have hread : tree.read (Path.ofString path) = .error .embeddedNull := by
    rw [FileTree.read, FileTree.locate, if_pos hwritten]
  rw [fileTree, hread]

theorem scanFile_of_null (targets : List String) (tree : FileTree) {path : String}
    (hnull : '\x00' ∈ path.toList) : scanFile targets tree path = .error .embeddedNull := by
  rw [scanFile, fileTree_of_null hnull]
  rfl

omit [Syntax.Parser] in
theorem matchesOf_eq_ok (finder : Finder) (htargets : finder.targets ≠ []) (source : Syntax.Tree) :
    ∃ found, matchesOf finder source = .ok found := by
  rw [matchesOf, Finder.findInto, Finder.matchesIn_eq_declaredIn htargets]
  exact ⟨_, rfl⟩

/-- A scan of a file gives a result, unless the path holds a null character and so names no file. -/
theorem scanFile_eq_ok {targets : List String} (hsome : targets ≠ []) (hnamed : "" ∉ targets)
    (tree : FileTree) {path : String} (hnull : '\x00' ∉ path.toList) :
    ∃ result, scanFile targets tree path = .ok result := by
  obtain ⟨source, hsource⟩ := fileTree_eq_ok hnull tree
  rw [scanFile_eq_scanWith (finderFor_eq_ok hnamed), scanWith, hsource]
  cases source with
  | error failure => exact ⟨_, rfl⟩
  | ok source =>
      obtain ⟨found, hfound⟩ := matchesOf_eq_ok
        ⟨Finder.distinct targets, ({} : Index).ensureAll (Finder.distinct targets)⟩
        (Finder.distinct_ne_nil hsome) source
      refine ⟨⟨path, .ok found⟩, ?_⟩
      change (matchesOf _ source >>= fun found => pure _) = _
      rw [hfound]
      rfl

/-- A scanned file was skipped, or its matches are those declared in it, listed target by target. -/
theorem scanFile_cases {targets : List String} (hsome : targets ≠ []) (hnamed : "" ∉ targets)
    {tree : FileTree} {path : String} {result : FileResult}
    (hscan : scanFile targets tree path = .ok result) :
    (∃ failure, fileTree tree path = .ok (.error failure) ∧ result = ⟨path, .error failure⟩) ∨
      ∃ source, fileTree tree path = .ok (.ok source) ∧
        result = ⟨path, .ok
          (({} : Index).merge (Finder.declaredIn (Finder.distinct targets) source)).toMatches⟩ := by
  have hdistinct : Finder.distinct targets ≠ [] := Finder.distinct_ne_nil hsome
  rw [scanFile_eq_scanWith (finderFor_eq_ok hnamed), scanWith] at hscan
  cases hsource : fileTree tree path with
  | error fault =>
      rw [hsource] at hscan
      cases hscan
  | ok source =>
      rw [hsource] at hscan
      cases source with
      | error failure => exact Or.inl ⟨failure, rfl, (Except.ok.inj hscan).symm⟩
      | ok source =>
          change (matchesOf _ source >>= fun found => pure (FileResult.mk path (.ok found))) = _ at hscan
          rw [matchesOf, Finder.findInto, Finder.matchesIn_eq_declaredIn hdistinct] at hscan
          exact Or.inr ⟨source, rfl, (Except.ok.inj hscan).symm⟩

end Scan

end Roster
