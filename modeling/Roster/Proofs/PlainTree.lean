import Roster.Proofs.ArtifactStore
import Roster.Proofs.Pruning

/-! Trees without links, and paths that are rows of names. There a path leads to the row of its parts and nowhere else,
what is written as text is read as the same path, and making folders or files changes nothing but at their own rows. -/

namespace Roster

open Roster.Text

namespace Path

/-- A part that can name an entry. -/
structure IsName (part : String) : Prop where
  nonempty : part ≠ ""
  not_dot : part ≠ "."
  not_dots : part ≠ ".."
  no_slash : '/' ∉ part.toList

/-- An absolute path whose parts are names. -/
structure Clean (path : Path) : Prop where
  absolute : path.root ≠ .relative
  named : ∀ part ∈ path.parts, IsName part

instance (part : String) : Decidable (IsName part) :=
  decidable_of_iff (part ≠ "" ∧ part ≠ "." ∧ part ≠ ".." ∧ '/' ∉ part.toList)
    ⟨fun ⟨hempty, hdot, hdots, hslash⟩ => ⟨hempty, hdot, hdots, hslash⟩,
      fun hname => ⟨hname.nonempty, hname.not_dot, hname.not_dots, hname.no_slash⟩⟩

instance (path : Path) : Decidable path.Clean :=
  decidable_of_iff (path.root ≠ .relative ∧ ∀ part ∈ path.parts, IsName part)
    ⟨fun ⟨habsolute, hnamed⟩ => ⟨habsolute, hnamed⟩, fun hclean => ⟨hclean.absolute, hclean.named⟩⟩

theorem segments_intercalate {names : List String} (hsome : names ≠ [])
    (hslash : ∀ name ∈ names, '/' ∉ name.toList) :
    segments '/' ("/".intercalate names).toList = names.map String.toList := by
  induction names with
  | nil => contradiction
  | cons name rest ih =>
      have hname := segments_of_not_mem (hslash name List.mem_cons_self)
      cases rest with
      | nil => simpa using hname
      | cons next rest =>
          have hrest := ih (List.cons_ne_nil _ _) fun other hother =>
            hslash other (List.mem_cons_of_mem _ hother)
          have hone : "/".toList = ['/'] := rfl
          rw [String.intercalate_cons_cons, String.toList_append, String.toList_append, hone,
            List.append_assoc, List.singleton_append, segments_append_sep, hname, hrest]
          rfl

theorem splitAt_intercalate {names : List String} (hnames : ∀ name ∈ names, IsName name) :
    (splitAt '/' ("/".intercalate names)).filter (fun part => part != "" && part != ".") = names := by
  by_cases hsome : names = []
  · subst hsome
    rfl
  · rw [splitAt, segments_intercalate hsome fun name hname => (hnames name hname).no_slash, List.map_map]
    have hback : names.map (String.ofList ∘ String.toList) = names :=
      (List.map_congr_left fun name _ => String.ofList_toList).trans (List.map_id _)
    rw [hback, List.filter_eq_self]
    intro name hname
    simp [(hnames name hname).nonempty, (hnames name hname).not_dot]

theorem takeWhile_slash_intercalate {names : List String} (hnames : ∀ name ∈ names, IsName name) :
    ("/".intercalate names).toList.takeWhile (· == '/') = [] := by
  cases names with
  | nil => rfl
  | cons name rest =>
      have hname := hnames name List.mem_cons_self
      have hchars : name.toList ≠ [] := fun h => hname.nonempty (String.toList_eq_nil_iff.mp h)
      obtain ⟨c, cs, hcs⟩ := List.exists_cons_of_ne_nil hchars
      have hc : ¬ (c == '/') = true :=
        fun heq => hname.no_slash (hcs ▸ eq_of_beq heq ▸ List.mem_cons_self)
      obtain ⟨more, hmore⟩ := exists_toList_intercalate_cons name rest
      rw [hmore, hcs, List.cons_append]
      exact List.takeWhile_cons_of_neg hc

theorem splitAt_slash_append (text : String) : splitAt '/' ("/" ++ text) = "" :: splitAt '/' text := by
  have hone : ("/" ++ text).toList = [] ++ '/' :: text.toList := String.toList_append
  rw [splitAt, hone, segments_append_sep]
  rfl

/-- A clean path is read back from its text. -/
theorem ofString_toString {path : Path} (hclean : path.Clean) : ofString (toString path) = path := by
  obtain ⟨root, parts⟩ := path
  have htake := takeWhile_slash_intercalate hclean.named
  have hsplit := splitAt_intercalate hclean.named
  cases root with
  | relative => exact absurd rfl hclean.absolute
  | slash =>
      change ofString ("/" ++ "/".intercalate parts) = _
      have hcount : (("/" ++ "/".intercalate parts).toList.takeWhile (· == '/')).length = 1 := by
        rw [String.toList_append]
        exact congrArg (·.length + 1) htake
      have hroot : rootOf ("/" ++ "/".intercalate parts).toList = .slash := by
        rw [rootOf, hcount]
        rfl
      rw [ofString, hroot, splitAt_slash_append, List.filter_cons_of_neg (by simp), hsplit]
  | doubleSlash =>
      have htext : "//" ++ "/".intercalate parts = "/" ++ ("/" ++ "/".intercalate parts) := by
        rw [← String.append_assoc]
        rfl
      change ofString ("//" ++ "/".intercalate parts) = _
      have hcount : (("//" ++ "/".intercalate parts).toList.takeWhile (· == '/')).length = 2 := by
        rw [String.toList_append]
        exact congrArg (·.length + 2) htake
      have hroot : rootOf ("//" ++ "/".intercalate parts).toList = .doubleSlash := by
        rw [rootOf, hcount]
        rfl
      rw [ofString, hroot, htext, splitAt_slash_append, splitAt_slash_append,
        List.filter_cons_of_neg (by simp), List.filter_cons_of_neg (by simp), hsplit]

end Path

namespace Entry

/-- No link lies anywhere below. -/
def LinkFree (root : Entry) : Prop :=
  ∀ location target, root.at? location ≠ some (.link target)

theorem setEntry_self {name : String} {value : Entry} {entries : List (String × Entry)}
    (hchild : (folder entries).child? name = some value) : setEntry name value entries = entries := by
  simp only [child?, Entry.entries] at hchild
  induction entries with
  | nil => cases hchild
  | cons entry rest ih =>
      obtain ⟨key, old⟩ := entry
      rw [setEntry]
      split_ifs with hkey
      · rw [List.find?_cons_of_pos (by simpa using hkey)] at hchild
        cases hchild
        rfl
      · rw [List.find?_cons_of_neg (by simpa using hkey)] at hchild
        rw [ih hchild]

/-- Putting an entry where it is changes nothing. -/
theorem insert_self {root value : Entry} {names : List String} (hthere : root.at? names = some value) :
    root.insert names value = root := by
  induction names generalizing root with
  | nil =>
      cases hthere
      rfl
  | cons name names ih =>
      obtain ⟨inner, hchild, hinner⟩ := Option.bind_eq_some_iff.mp hthere
      obtain ⟨entries, rfl⟩ := folder_of_child? hchild
      rw [insert, hchild, Option.getD_some, ih hinner]
      exact congrArg folder (setEntry_self hchild)

/-- Putting a file or an empty folder where none was is seen at its row and above, but nowhere else. -/
theorem at?_insert_elsewhere {root value : Entry} {names location : List String}
    (hold : ∀ entries, root.at? names ≠ some (.folder entries))
    (hbare : ∀ name rest, value.at? (name :: rest) = none) (hlocation : ¬ location <+: names) :
    (root.insert names value).at? location = root.at? location := by
  by_cases hbelow : names <+: location
  · obtain ⟨more, rfl⟩ := hbelow
    cases more with
    | nil => exact absurd (by simp) hlocation
    | cons name rest =>
        rw [at?_insert_below, hbare, eq_comm, ← Option.not_isSome_iff_eq_none, Option.isSome_iff_exists]
        rintro ⟨entry, hentry⟩
        obtain ⟨entries, hfolder⟩ := folder_of_at?_append hentry
        exact hold entries hfolder
  · exact at?_insert_off hbelow hlocation root value

end Entry

namespace FileTree

open Entry

variable {root other : Entry} {follow : Bool} {links : Nat} {location parts : List String}
  {place : Place}

/-- Without links, names lead to the row that they make. -/
theorem Leads.location_eq (hfree : root.LinkFree) (hnames : ∀ part ∈ parts, part ≠ "." ∧ part ≠ "..")
    (hleads : Leads root follow links location parts place) : place.location = location ++ parts := by
  induction hleads with
  | done hentry => exact (List.append_nil _).symm
  | stay => exact absurd rfl (hnames "." List.mem_cons_self).1
  | leave => exact absurd rfl (hnames ".." List.mem_cons_self).2
  | free => rfl
  | link hpart hfollow hlink => rfl
  | follow hpart hfollow hlink => exact absurd hlink (hfree _ _)
  | enter hpart hentry hlink hrest ih =>
      rw [ih fun part hmem => hnames part (List.mem_cons_of_mem _ hmem), List.append_assoc]
      rfl

theorem Leads.ordinary (hfree : root.LinkFree) (hnames : ∀ part ∈ parts, part ≠ "." ∧ part ≠ "..")
    (hleads : Leads root follow links location parts place) : ∀ part ∈ parts, Ordinary part := by
  induction hleads with
  | done => simp
  | stay => exact absurd rfl (hnames "." List.mem_cons_self).1
  | leave => exact absurd rfl (hnames ".." List.mem_cons_self).2
  | free hpart => simpa using hpart
  | link hpart => simpa using hpart
  | follow hpart hfollow hlink => exact absurd hlink (hfree _ _)
  | enter hpart hentry hlink hrest ih =>
      have hlater := ih fun part hmem => hnames part (List.mem_cons_of_mem _ hmem)
      intro part hmem
      rcases List.mem_cons.mp hmem with rfl | hmem
      · exact hpart
      · exact hlater part hmem

/-- Without links, what is at a row is where its names lead. -/
theorem leads_of_at? (hfree : root.LinkFree) (hordinary : ∀ part ∈ parts, Ordinary part) {entry : Entry}
    (hthere : root.at? (location ++ parts) = some entry) :
    Leads root follow links location parts (.entry (location ++ parts) entry) := by
  induction parts generalizing location with
  | nil =>
      rw [List.append_nil] at hthere ⊢
      exact .done hthere
  | cons part rest ih =>
      have hsplit : location ++ part :: rest = location ++ [part] ++ rest := by simp
      have hnext : ∃ next, root.at? (location ++ [part]) = some next := by
        rw [hsplit, at?_append] at hthere
        obtain ⟨next, hnext, -⟩ := Option.bind_eq_some_iff.mp hthere
        exact ⟨next, hnext⟩
      obtain ⟨next, hnext⟩ := hnext
      rw [hsplit] at hthere ⊢
      exact .enter (hordinary part List.mem_cons_self) hnext (fun target heq => hfree _ target (heq ▸ hnext))
        (ih (fun later hlater => hordinary later (List.mem_cons_of_mem _ hlater)) hthere)

/-- One name in a folder, without links. -/
theorem walk_cons (hfree : root.LinkFree) {entries : List (String × Entry)}
    (hfolder : root.at? location = some (.folder entries)) {part : String} (hdot : part ≠ ".")
    (hdots : part ≠ "..") (rest : List String) :
    walk root follow links location (part :: rest) =
      if longestName < part.utf8ByteSize then .error .nameTooLong
      else if (root.at? (location ++ [part])).isSome then walk root follow links (location ++ [part]) rest
      else if rest.isEmpty then .ok (.free location part) else .error .notFound := by
  split_ifs with hlong hthere hlast
  · exact walk_overlong hfolder hlong rest
  · obtain ⟨entry, hentry⟩ := Option.isSome_iff_exists.mp hthere
    exact walk_enter ⟨hdot, hdots, hlong⟩ hentry (fun target heq => hfree _ target (heq ▸ hentry)) rest
  · obtain rfl := List.isEmpty_iff.mp hlast
    exact walk_of_leads (.free ⟨hdot, hdots, hlong⟩ hfolder (by simpa using hthere))
  · have hchild : (Entry.folder entries).child? part = none := by
      rw [← at?_concat hfolder]
      simpa using hthere
    rw [walk, hfolder]
    simp [hdot, hdots, hlong, hchild, hlast]

/-- Without links, only a name too long in a folder is refused as such. -/
theorem overlong_of_walk (hfree : root.LinkFree) (hnames : ∀ part ∈ parts, part ≠ "." ∧ part ≠ "..")
    (hwalk : walk root follow links location parts = .error .nameTooLong) :
    ∃ above name rest entries, parts = above ++ name :: rest ∧
      root.at? (location ++ above) = some (.folder entries) ∧ longestName < name.utf8ByteSize ∧
      ∀ part ∈ above, Ordinary part := by
  induction parts generalizing location with
  | nil =>
      rw [walk] at hwalk
      split at hwalk <;> cases hwalk
  | cons part rest ih =>
      obtain ⟨hdot, hdots⟩ := hnames part List.mem_cons_self
      cases hentry : root.at? location with
      | none =>
          rw [walk, hentry] at hwalk
          cases hwalk
      | some entry =>
          cases entry with
          | file content =>
              rw [walk, hentry] at hwalk
              cases hwalk
          | link target => exact absurd hentry (hfree _ _)
          | folder entries =>
              rw [walk_cons hfree hentry hdot hdots] at hwalk
              split_ifs at hwalk with hlong hthere hlast
              · exact ⟨[], part, rest, entries, rfl, by rwa [List.append_nil], hlong, by simp⟩
              · obtain ⟨above, name, more, found, hrest, hfolder, hoverlong, hordinary⟩ :=
                  ih (fun later hlater => hnames later (List.mem_cons_of_mem _ hlater)) hwalk
                refine ⟨part :: above, name, more, found, congrArg (part :: ·) hrest, ?_, hoverlong, ?_⟩
                · rwa [List.append_cons]
                · intro later hlater
                  rcases List.mem_cons.mp hlater with rfl | hlater
                  · exact ⟨hdot, hdots, hlong⟩
                  · exact hordinary later hlater
              · cases hwalk

/-- Without links, a walk below a location depends on what lies there. -/
theorem walk_congr (hfree : root.LinkFree) (hfreeOther : other.LinkFree) {row : List String}
    (hnames : ∀ part ∈ row, part ≠ "." ∧ part ≠ "..")
    (hsame : ∀ row, other.at? (location ++ row) = root.at? (location ++ row)) (left : Nat) :
    walk other follow left location row = walk root follow links location row := by
  have hhere : other.at? location = root.at? location := by
    have hnil := hsame []
    rwa [List.append_nil] at hnil
  induction row generalizing location with
  | nil => rw [walk, walk, hhere]
  | cons part rest ih =>
      obtain ⟨hdot, hdots⟩ := hnames part List.mem_cons_self
      cases hentry : root.at? location with
      | none => rw [walk, walk, hhere, hentry]
      | some entry =>
          cases entry with
          | file content => rw [walk, walk, hhere, hentry]
          | link target => exact absurd hentry (hfree _ _)
          | folder entries =>
              have hrest : walk other follow left (location ++ [part]) rest =
                  walk root follow links (location ++ [part]) rest := by
                refine ih (fun later hlater => hnames later (List.mem_cons_of_mem _ hlater)) ?_ (hsame _)
                intro row
                rw [← List.append_cons]
                exact hsame (part :: row)
              rw [walk_cons hfree hentry hdot hdots, walk_cons hfreeOther (hhere.trans hentry) hdot hdots,
                hsame [part], hrest]

variable {tree after made : FileTree} {path : Path}

theorem not_dots_of_clean (hclean : path.Clean) : ∀ part ∈ path.parts, part ≠ "." ∧ part ≠ ".." :=
  fun part hmem => ⟨(hclean.named part hmem).not_dot, (hclean.named part hmem).not_dots⟩

theorem origin_of_clean (hclean : path.Clean) (tree : FileTree) : tree.origin path = [] := by
  have habsolute : path.isAbsolute = true := by simpa [Path.isAbsolute] using hclean.absolute
  rw [origin, if_pos habsolute]

/-- A clean path leads to the row of its parts. -/
theorem location_of_clean (hfree : tree.root.LinkFree) (hclean : path.Clean)
    (hlocate : tree.locate follow path = .ok place) : place.location = path.parts := by
  have hlocation := (locate_eq_ok_iff.mp hlocate).2.location_eq hfree (not_dots_of_clean hclean)
  rwa [origin_of_clean hclean, List.nil_append] at hlocation

theorem linkFree_of_extends {touched : List String → Prop} {before later : Entry}
    (hfree : before.LinkFree) (hext : Extends touched before later)
    (hfiles : ∀ location, touched location → ∀ target, later.at? location ≠ some (.link target)) :
    later.LinkFree := by
  intro location target hlink
  by_cases htouched : touched location
  · exact hfiles location htouched target hlink
  · exact hfree location target ((hext.leaf htouched rfl).mp hlink)

/-- A folder that is made is seen at its row and above, but nowhere else. -/
theorem makeFolder_elsewhere (hfree : tree.root.LinkFree) (hclean : path.Clean)
    (hlocation : ¬ location <+: path.parts) :
    (tree.makeFolder path).2.root.at? location = tree.root.at? location := by
  unfold makeFolder
  cases hcreate : tree.create path (.folder []) with
  | error fault =>
      dsimp only
      split <;> rfl
  | ok made =>
      obtain ⟨above, name, hlocate, rfl, -⟩ := create_folder_spec hcreate
      have hplace : above ++ [name] = path.parts := location_of_clean hfree hclean hlocate
      have hnone := (locate_eq_ok_iff.mp hlocate).2.at?_free.2
      refine at?_insert_elsewhere (fun entries hfolder => ?_) (fun name rest => rfl) (hplace ▸ hlocation)
      cases hnone.symm.trans hfolder

theorem Clean.parent (hclean : path.Clean) : path.parent.Clean :=
  ⟨hclean.absolute, fun part hmem => hclean.named part ((List.dropLast_sublist _).mem hmem)⟩

theorem makeFolders_elsewhere (hfree : tree.root.LinkFree) (hclean : path.Clean)
    (hlocation : ¬ location <+: path.parts) :
    (tree.makeFolders path).2.root.at? location = tree.root.at? location := by
  fun_induction makeFolders tree path with
  | case1 => rfl
  | case2 path text hcreate hparts hshorter made hmade ih =>
      have habove : ¬ location <+: path.parent.parts :=
        fun hlonger => hlocation (hlonger.trans (List.dropLast_prefix _))
      have hspec := makeFolders_spec tree path.parent
      rw [hmade] at ih hspec
      have hfreeMade : made.root.LinkFree := linkFree_of_extends hfree hspec.grows (by simp)
      rw [makeFolder_elsewhere hfreeMade hclean hlocation, ih (Clean.parent hclean) habove]
  | case3 path text hcreate hparts hshorter hfailed ih =>
      have habove : ¬ location <+: path.parent.parts :=
        fun hlonger => hlocation (hlonger.trans (List.dropLast_prefix _))
      exact ih (Clean.parent hclean) habove
  | case4 path hcreate => exact makeFolder_elsewhere hfree hclean hlocation

/-- A folder is made and files with these names are put into it. -/
structure FillsFolder (folder names : List String) (tree after : FileTree) : Prop where
  directory : after.directory = tree.directory
  grows : Extends (fun location => ∃ name ∈ names, location = folder ++ [name]) tree.root after.root
  elsewhere : ∀ location, ¬ location <+: folder → (∀ name ∈ names, location ≠ folder ++ [name]) →
    after.root.at? location = tree.root.at? location
  above : ∀ location, location <+: folder → ∃ entries, after.root.at? location = some (.folder entries)
  files : ∀ name ∈ names, ∃ content, after.root.at? (folder ++ [name]) = some (.file content)

namespace FillsFolder

variable {folder names : List String} (hfills : FillsFolder folder names tree after)

include hfills

theorem linkFree (hfree : tree.root.LinkFree) : after.root.LinkFree := by
  refine linkFree_of_extends hfree hfills.grows ?_
  rintro location ⟨name, hname, rfl⟩ target hlink
  obtain ⟨content, hcontent⟩ := hfills.files name hname
  cases hcontent.symm.trans hlink

/-- Folders that are not on the way to the filled one are the same before and after. -/
theorem folder_iff (hlocation : ¬ location <+: folder) {entries : List (String × Entry)} :
    after.root.at? location = some (.folder entries) ↔ tree.root.at? location = some (.folder entries) := by
  by_cases hfile : ∃ name ∈ names, location = folder ++ [name]
  · obtain ⟨name, hname, rfl⟩ := hfile
    obtain ⟨content, hcontent⟩ := hfills.files name hname
    constructor
    · intro hfolder
      cases hcontent.symm.trans hfolder
    · intro hfolder
      obtain ⟨later, hlater⟩ := hfills.grows.folder hfolder
      cases hcontent.symm.trans hlater
  · rw [hfills.elsewhere location hlocation fun name hname heq => hfile ⟨name, hname, heq⟩]

/-- What lies below such a folder is the same before and after. -/
theorem below_folder (hlocation : ¬ location <+: folder) {entries : List (String × Entry)}
    (hfolder : tree.root.at? location = some (.folder entries)) (row : List String) :
    after.root.at? (location ++ row) = tree.root.at? (location ++ row) := by
  rw [at?_append, at?_append, hfolder, (hfills.folder_iff hlocation).mpr hfolder]

/-- A folder afterwards was one before, unless it was made on the way. -/
theorem folder_before {entries : List (String × Entry)}
    (hfolder : after.root.at? location = some (.folder entries)) :
    (location <+: folder ∧ tree.root.at? location = none) ∨
      ∃ old, tree.root.at? location = some (.folder old) := by
  by_cases habove : location <+: folder
  · cases hold : tree.root.at? location with
    | none => exact Or.inl ⟨habove, rfl⟩
    | some entry =>
        obtain ⟨later, hlater, hkind⟩ := hfills.grows.kind hold
        cases hlater.symm.trans hfolder
        cases hkind
        exact Or.inr ⟨_, rfl⟩
  · exact Or.inr ⟨entries, (hfills.folder_iff habove).mp hfolder⟩

end FillsFolder

end FileTree

namespace Artifact

open FileTree Entry

variable {device : Device} {cache : Path} {format : Format} {index : Index} {tree after : FileTree}
  {interfaces : List String} {paths : List Path} {folder : List String}

theorem writeEach_elsewhere (hcache : CacheAt tree cache folder)
    (hnames : ∀ interface ∈ interfaces, '/' ∉ interface.toList)
    (hwrite : writeEach device cache format index tree interfaces = (.ok paths, after)) {place : List String}
    (hfolder : ¬ place <+: folder)
    (hplace : ∀ interface ∈ interfaces, place ≠ folder ++ [fileName interface format]) :
    after.root.at? place = tree.root.at? place := by
  induction interfaces generalizing device tree paths with
  | nil =>
      rw [writeEach] at hwrite
      cases hwrite
      rfl
  | cons interface rest ih =>
      obtain ⟨written, more, hfirst, hmore, -⟩ := writeEach_cons hwrite
      obtain ⟨hwritten, hext, hfile, hstill⟩ :=
        put_artifact hcache (hnames interface List.mem_cons_self) hfirst
      rw [ih hstill (fun other hother => hnames other (List.mem_cons_of_mem _ hother)) hmore
        fun other hother => hplace other (List.mem_cons_of_mem _ hother), hwritten]
      refine at?_insert_elsewhere (fun entries hfound => ?_) (fun name rest => rfl) ?_
      · obtain ⟨later, hlater⟩ := hext.folder hfound
        cases (at?_of_locate hfile).symm.trans hlater
      · rw [List.prefix_concat_iff, not_or]
        exact ⟨hplace interface List.mem_cons_self, hfolder⟩

/-- Artifacts are written into the folder at the row of the cache's names. -/
theorem writes_of_write (hfree : tree.root.LinkFree) (hclean : cache.Clean)
    (hnames : ∀ interface ∈ interfaces, '/' ∉ interface.toList)
    (hwrite : write device cache format index tree interfaces = (.ok paths, after)) :
    ∃ made, tree.makeFolders cache = (.ok (), made) ∧ CacheAt made cache cache.parts ∧
      writeEach device cache format index made interfaces = (.ok paths, after) ∧
      paths = interfaces.map (location cache · format) ∧
      Writes cache format index cache.parts made interfaces after := by
  obtain ⟨made, hcheck, hmake, heach⟩ := write_eq_ok hwrite
  have hmade := makeFolders_spec tree cache
  rw [hmake] at hmade
  have hfreeMade : made.root.LinkFree := linkFree_of_extends hfree hmade.grows (by simp)
  obtain ⟨folder, entries, hleads⟩ := hmade.leads rfl
  obtain rfl : folder = cache.parts := location_of_clean hfreeMade hclean hleads
  have hcache : CacheAt made cache cache.parts := ⟨⟨entries, hleads⟩, fun name target => hfreeMade _ _⟩
  exact ⟨made, hmake, hcache, heach,
    writes_of_writeEach hcache (apart_of_checkNames hcheck) hnames heach⟩

/-- What writing artifacts does to a tree without links. -/
theorem fillsFolder_of_write (hfree : tree.root.LinkFree) (hclean : cache.Clean)
    (hnames : ∀ interface ∈ interfaces, '/' ∉ interface.toList)
    (hwrite : write device cache format index tree interfaces = (.ok paths, after)) :
    FillsFolder cache.parts (interfaces.map (fileName · format)) tree after := by
  obtain ⟨made, hmake, hcache, heach, -, hwrites⟩ := writes_of_write hfree hclean hnames hwrite
  have hmade := makeFolders_spec tree cache
  rw [hmake] at hmade
  refine ⟨hwrites.directory.trans hmade.directory, ?_, ?_, ?_, ?_⟩
  · refine (hmade.grows.mono fun _ => False.elim).trans (hwrites.grows.mono ?_)
    rintro place ⟨interface, hmem, rfl⟩
    exact ⟨_, List.mem_map_of_mem hmem, rfl⟩
  · intro place hplace hothers
    have hmadeSame := makeFolders_elsewhere hfree hclean hplace
    rw [hmake] at hmadeSame
    rw [writeEach_elsewhere hcache hnames heach hplace fun interface hmem =>
      hothers _ (List.mem_map_of_mem hmem), hmadeSame]
  · rintro place ⟨rest, hrest⟩
    obtain ⟨entries, hleads⟩ := (hwrites.cacheAt hcache).leads
    have hfolder := at?_of_locate hleads
    rw [← hrest] at hfolder
    cases rest with
    | nil => exact ⟨entries, by rwa [List.append_nil] at hfolder⟩
    | cons name rest => exact folder_of_at?_append hfolder
  · intro name hname
    obtain ⟨interface, hmem, rfl⟩ := List.mem_map.mp hname
    exact ⟨_, at?_of_locate (hwrites.found interface hmem)⟩

/-- Artifacts that are there already are written again without a change. -/
theorem writeEach_again (hsound : device.Sound) (hthere : ∀ interface ∈ interfaces, ∃ place,
      tree.locate true (location cache interface format) =
        .ok (.entry place (.file (render format (index.get interface)).toUTF8))) :
    writeEach device cache format index tree interfaces =
      (.ok (interfaces.map (location cache · format)), tree) := by
  induction interfaces generalizing device with
  | nil => rfl
  | cons interface rest ih =>
      obtain ⟨place, hplace⟩ := hthere interface List.mem_cons_self
      have hsame : tree.put (location cache interface format)
          (render format (index.get interface)).toUTF8 = .ok tree := by
        rw [FileTree.put, hplace]
        dsimp only
        rw [insert_self (at?_of_locate hplace)]
      rw [writeEach, write_eq_ok_iff.mpr ⟨hsound.next, hsame⟩]
      dsimp only
      rw [ih hsound.tail fun other hother => hthere other (List.mem_cons_of_mem _ hother)]
      rfl

/-- Artifacts that are there already can be written again, whatever they are to hold. -/
theorem writeEach_over (hsound : device.Sound) (hthere : ∀ interface ∈ interfaces, ∃ place content,
      tree.locate true (location cache interface format) = .ok (.entry place (.file content))) :
    ∃ after, writeEach device cache format index tree interfaces =
      (.ok (interfaces.map (location cache · format)), after) := by
  induction interfaces generalizing device tree with
  | nil => exact ⟨tree, rfl⟩
  | cons interface rest ih =>
      obtain ⟨place, old, hplace⟩ := hthere interface List.mem_cons_self
      obtain ⟨written, hwritten⟩ : ∃ written, tree.put (location cache interface format)
          (render format (index.get interface)).toUTF8 = .ok written := by
        rw [FileTree.put, hplace]
        exact ⟨_, rfl⟩
      obtain ⟨_, -, hafter, hext, -⟩ := put_spec hwritten
      obtain ⟨after, hrest⟩ := ih hsound.tail fun other hother => by
        obtain ⟨otherPlace, content, hother⟩ := hthere other (List.mem_cons_of_mem _ hother)
        obtain ⟨later, hlater, hkind⟩ := locate_grow hother (by rw [hafter]) hext
        cases hkind
        exact ⟨otherPlace, _, hlater⟩
      refine ⟨after, ?_⟩
      rw [writeEach, write_eq_ok_iff.mpr ⟨hsound.next, hwritten⟩]
      dsimp only
      rw [hrest]
      rfl

/-- Files of these names are made to hold what is listed for them; other files are what they were, and folders are where
they were. -/
structure Rewritten (cache : Path) (format : Format) (contents : List (String × List String))
    (tree after : FileTree) : Prop where
  directory : after.directory = tree.directory
  holds : ∀ entry ∈ contents, after.read (location cache entry.1 format) =
    .ok (render format entry.2).toUTF8
  leaves : ∀ place, (∀ entry ∈ contents, place ≠ cache.parts ++ [fileName entry.1 format]) →
    ∀ leaf : Entry, leaf.isFolder = false →
      (after.root.at? place = some leaf ↔ tree.root.at? place = some leaf)
  folders : ∀ place, (∃ entries, after.root.at? place = some (.folder entries)) ↔
    ∃ entries, tree.root.at? place = some (.folder entries)

section Again

variable {other : Device} (hsound : other.Sound) (hfree : tree.root.LinkFree) (hclean : cache.Clean)
  (hnames : ∀ interface ∈ interfaces, '/' ∉ interface.toList)
  (hwrite : write device cache format index tree interfaces = (.ok paths, after))

include hsound hfree hclean hnames hwrite

/-- Writing the same artifacts a second time changes nothing. -/
theorem write_again : write other cache format index after interfaces = (.ok paths, after) := by
  obtain ⟨-, hcheck, -, -⟩ := write_eq_ok hwrite
  obtain ⟨made, -, hcache, -, rfl, hwrites⟩ := writes_of_write hfree hclean hnames hwrite
  obtain ⟨entries, hleads⟩ := (hwrites.cacheAt hcache).leads
  rw [write, hcheck]
  dsimp only
  rw [makeFolders_of_locate hleads]
  exact writeEach_again hsound fun interface hmem => ⟨_, hwrites.found interface hmem⟩

/-- Writing other artifacts of the same interfaces succeeds, and makes a difference to nothing else. -/
theorem write_over (second : Index) :
    ∃ later, write other cache format second after interfaces = (.ok paths, later) ∧
      Rewritten cache format (interfaces.map fun interface => (interface, second.get interface)) after
        later := by
  obtain ⟨-, hcheck, -, -⟩ := write_eq_ok hwrite
  have hfills := fillsFolder_of_write hfree hclean hnames hwrite
  obtain ⟨made, -, hcache, -, rfl, hwrites⟩ := writes_of_write hfree hclean hnames hwrite
  obtain ⟨entries, hleads⟩ := (hwrites.cacheAt hcache).leads
  obtain ⟨later, hover⟩ : ∃ later, write other cache format second after interfaces = (.ok _, later) := by
    rw [write, hcheck]
    dsimp only
    rw [makeFolders_of_locate hleads]
    exact writeEach_over hsound fun interface hmem => ⟨_, _, hwrites.found interface hmem⟩
  have hrefills := fillsFolder_of_write (hfills.linkFree hfree) hclean hnames hover
  obtain ⟨_, -, -, -, -, hrewrites⟩ := writes_of_write (hfills.linkFree hfree) hclean hnames hover
  refine ⟨later, hover, hrefills.directory, ?_, ?_, ?_⟩
  · intro entry hentry
    obtain ⟨interface, hmem, rfl⟩ := List.mem_map.mp hentry
    exact read_of_locate (hrewrites.found interface hmem)
  · intro place hplace leaf hleaf
    refine hrefills.grows.leaf ?_ hleaf
    rintro ⟨name, hname, rfl⟩
    obtain ⟨interface, hmem, rfl⟩ := List.mem_map.mp hname
    exact hplace _ (List.mem_map_of_mem hmem) rfl
  · intro place
    constructor
    · rintro ⟨entries, hfolder⟩
      rcases hrefills.folder_before hfolder with ⟨habove, hnone⟩ | hold
      · obtain ⟨old, hold⟩ := hfills.above place habove
        cases hnone.symm.trans hold
      · exact hold
    · rintro ⟨entries, hfolder⟩
      exact hrefills.grows.folder hfolder

end Again

end Artifact

end Roster
