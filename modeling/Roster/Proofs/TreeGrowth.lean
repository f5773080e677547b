import Roster.Proofs.Resolution

/-! What writing files and making folders leaves as it was. A tree only grows: whatever is there stays of its kind, so
paths lead where they led before, and of files and links only those written to are other ones. -/

namespace Roster

namespace Entry

theorem child?_setEntry_self (name : String) (value : Entry) (entries : List (String × Entry)) :
    (folder (setEntry name value entries)).child? name = some value := by
  simp only [child?, Entry.entries]
  induction entries with
  | nil => simp [setEntry]
  | cons entry entries ih =>
      obtain ⟨key, old⟩ := entry
      by_cases hkey : key = name
      · simp [setEntry, hkey]
      · simpa [setEntry, hkey] using ih

theorem child?_setEntry_of_ne {name other : String} (hother : other ≠ name) (value : Entry)
    (entries : List (String × Entry)) :
    (folder (setEntry name value entries)).child? other = (folder entries).child? other := by
  simp only [child?, Entry.entries]
  induction entries with
  | nil => simp [setEntry, Ne.symm hother]
  | cons entry entries ih =>
      obtain ⟨key, old⟩ := entry
      by_cases hkey : key = name
      · simp [setEntry, hkey, Ne.symm hother]
      · by_cases hfound : key = other
        · simp [setEntry, hfound, hother]
        · simpa [setEntry, hkey, hfound] using ih

theorem at?_insert_below (entry : Entry) (names more : List String) (value : Entry) :
    (entry.insert names value).at? (names ++ more) = value.at? more := by
  induction names generalizing entry with
  | nil => rw [insert, List.nil_append]
  | cons name names ih =>
      rw [insert, List.cons_append, at?, child?_setEntry_self, Option.bind_some, ih]

theorem at?_insert_self (entry : Entry) (names : List String) (value : Entry) :
    (entry.insert names value).at? names = some value := by
  have hbelow := at?_insert_below entry names [] value
  rwa [List.append_nil] at hbelow

theorem at?_insert_above (entry : Entry) (above : List String) (name : String)
    (names : List String) (value : Entry) :
    ∃ entries, (entry.insert (above ++ name :: names) value).at? above = some (.folder entries) := by
  induction above generalizing entry with
  | nil => exact ⟨_, rfl⟩
  | cons first above ih =>
      obtain ⟨entries, hentries⟩ := ih ((entry.child? first).getD (folder []))
      refine ⟨entries, ?_⟩
      rw [List.cons_append, insert, at?, child?_setEntry_self, Option.bind_some, hentries]

theorem at?_insert_off {names other : List String} (hbelow : ¬ names <+: other)
    (habove : ¬ other <+: names) (entry value : Entry) :
    (entry.insert names value).at? other = entry.at? other := by
  induction names generalizing entry other with
  | nil => exact absurd (List.nil_prefix) hbelow
  | cons name names ih =>
      cases other with
      | nil => exact absurd (List.nil_prefix) habove
      | cons first other =>
          rw [insert, at?, at?]
          by_cases hfirst : first = name
          · subst hfirst
            rw [List.prefix_cons_inj] at hbelow habove
            rw [child?_setEntry_self, Option.bind_some, ih hbelow habove]
            cases entry.child? first with
            | some inner => rfl
            | none =>
                -- a missing folder is made with one name in it, and that is another one
                cases other with
                | nil => exact absurd (List.nil_prefix) habove
                | cons second other => rfl
          · rw [child?_setEntry_of_ne hfirst]
            rfl

/-- A location holds the new entry, lies below it or above it, or is not concerned. -/
theorem at?_insert_cases (entry : Entry) (names : List String) (value : Entry)
    (location : List String) :
    (location = names ∧ (entry.insert names value).at? location = some value) ∨
    (∃ name rest, location = names ++ name :: rest ∧
      (entry.insert names value).at? location = value.at? (name :: rest)) ∨
    (∃ name rest entries, names = location ++ name :: rest ∧
      (entry.insert names value).at? location = some (.folder entries)) ∨
    (entry.insert names value).at? location = entry.at? location := by
  by_cases hbelow : names <+: location
  · obtain ⟨more, rfl⟩ := hbelow
    cases more with
    | nil => exact .inl ⟨List.append_nil names, at?_insert_below entry names [] value⟩
    | cons name rest => exact .inr (.inl ⟨name, rest, rfl, at?_insert_below ..⟩)
  · by_cases habove : location <+: names
    · obtain ⟨more, rfl⟩ := habove
      cases more with
      | nil => exact absurd (by simp) hbelow
      | cons name rest =>
          obtain ⟨entries, hentries⟩ := at?_insert_above entry location name rest value
          exact .inr (.inr (.inl ⟨name, rest, entries, rfl, hentries⟩))
    · exact .inr (.inr (.inr (at?_insert_off hbelow habove entry value)))

/-- Two entries of one kind; a link keeps its target. -/
inductive SameKind : Entry → Entry → Prop
  | file (old new : ByteArray) : SameKind (.file old) (.file new)
  | link (target : String) : SameKind (.link target) (.link target)
  | folder (old new : List (String × Entry)) : SameKind (.folder old) (.folder new)

theorem SameKind.refl (entry : Entry) : SameKind entry entry := by
  cases entry with
  | file content => exact .file content content
  | link target => exact .link target
  | folder entries => exact .folder entries entries

theorem SameKind.trans {first second third : Entry} (h : SameKind first second)
    (h' : SameKind second third) : SameKind first third := by
  cases h with
  | file old new =>
      cases h'
      exact .file _ _
  | link target => exact h'
  | folder old new =>
      cases h'
      exact .folder _ _

/-- A later tree: entries stay of their kind, and files and links are the same but for those touched. -/
structure Extends (touched : List String → Prop) (before after : Entry) : Prop where
  kind : ∀ {location entry}, before.at? location = some entry →
    ∃ later, after.at? location = some later ∧ SameKind entry later
  leaf : ∀ {location}, ¬ touched location → ∀ {entry}, entry.isFolder = false →
    (after.at? location = some entry ↔ before.at? location = some entry)

namespace Extends

variable {touched : List String → Prop} {before between after : Entry}

theorem refl (touched : List String → Prop) (entry : Entry) : Extends touched entry entry where
  kind hentry := ⟨_, hentry, .refl _⟩
  leaf _ _ _ := Iff.rfl

theorem trans (hfirst : Extends touched before between) (hsecond : Extends touched between after) :
    Extends touched before after where
  kind hentry := by
    obtain ⟨later, hlater, hkind⟩ := hfirst.kind hentry
    obtain ⟨last, hlast, hkind'⟩ := hsecond.kind hlater
    exact ⟨last, hlast, hkind.trans hkind'⟩
  leaf hlocation _ hentry := (hsecond.leaf hlocation hentry).trans (hfirst.leaf hlocation hentry)

theorem mono {more : List String → Prop} (hext : Extends touched before after)
    (hmore : ∀ location, touched location → more location) : Extends more before after where
  kind := hext.kind
  leaf hlocation := hext.leaf fun htouched => hlocation (hmore _ htouched)

theorem folder (hext : Extends touched before after) {location : List String}
    {entries : List (String × Entry)} (hfolder : before.at? location = some (.folder entries)) :
    ∃ later, after.at? location = some (.folder later) := by
  obtain ⟨later, hlater, hkind⟩ := hext.kind hfolder
  cases hkind
  exact ⟨_, hlater⟩

theorem link (hext : Extends touched before after) {location : List String} {target : String}
    (hlink : before.at? location = some (.link target)) :
    after.at? location = some (.link target) := by
  obtain ⟨later, hlater, hkind⟩ := hext.kind hlink
  cases hkind
  exact hlater

end Extends

theorem extends_insert {touched : List String → Prop} {root value : Entry} {names : List String}
    (habove : ∀ above name rest, names = above ++ name :: rest →
      ∃ entries, root.at? above = some (.folder entries))
    (hold : ∀ old, root.at? names = some old → old.isFolder = false ∧ SameKind old value)
    (hbare : ∀ name rest, value.at? (name :: rest) = none)
    (htouched : value.isFolder = false → touched names) :
    Extends touched root (root.insert names value) := by
  have hempty : ∀ name rest, root.at? (names ++ name :: rest) = none := by
    intro name rest
    rw [← Option.not_isSome_iff_eq_none, Option.isSome_iff_exists]
    rintro ⟨entry, hentry⟩
    obtain ⟨entries, hfolder⟩ := folder_of_at?_append hentry
    cases (hold _ hfolder).1
  refine ⟨fun {location entry} hentry => ?_, fun {location} hlocation {entry} hleaf => ?_⟩
  · rcases at?_insert_cases root names value location with
      ⟨rfl, hvalue⟩ | ⟨name, rest, rfl, -⟩ | ⟨name, rest, entries, hnames, hfolder⟩ | hsame
    · exact ⟨value, hvalue, (hold _ hentry).2⟩
    · rw [hempty] at hentry
      contradiction
    · obtain ⟨old, hfolderOld⟩ := habove _ _ _ hnames
      obtain rfl := Option.some.inj (hfolderOld.symm.trans hentry)
      exact ⟨_, hfolder, .folder _ _⟩
    · exact ⟨entry, hsame.trans hentry, .refl entry⟩
  · rcases at?_insert_cases root names value location with
      ⟨rfl, hvalue⟩ | ⟨name, rest, rfl, hvalue⟩ | ⟨name, rest, entries, hnames, hfolder⟩ | hsame
    · -- the new entry is a folder, or else its location is touched
      have hmade : value.isFolder = true := by
        rw [← Bool.not_eq_false]
        exact fun hfile => hlocation (htouched hfile)
      constructor
      · intro hentry
        obtain rfl := Option.some.inj (hvalue.symm.trans hentry)
        rw [hmade] at hleaf
        contradiction
      · intro hentry
        cases (hold _ hentry).2 with
        | file old new => contradiction
        | link target => contradiction
        | folder old new => contradiction
    · rw [hvalue, hbare, hempty]
    · obtain ⟨old, hfolderOld⟩ := habove _ _ _ hnames
      rw [hfolder, hfolderOld]
      constructor
      · intro hentry
        cases hentry
        contradiction
      · intro hentry
        cases hentry
        contradiction
    · rw [hsame]

theorem folder_above {root : Entry} {location : List String} {entries : List (String × Entry)}
    (hfolder : root.at? location = some (.folder entries)) (last : String) (above : List String)
    (name : String) (rest : List String) (hnames : location ++ [last] = above ++ name :: rest) :
    ∃ entries, root.at? above = some (.folder entries) := by
  rcases List.eq_nil_or_concat rest with rfl | ⟨front, final, rfl⟩
  · obtain ⟨rfl, -⟩ := List.append_inj' hnames rfl
    exact ⟨entries, hfolder⟩
  · rw [List.concat_eq_append, ← List.cons_append, ← List.append_assoc] at hnames
    obtain ⟨rfl, -⟩ := List.append_inj' hnames rfl
    exact folder_of_at?_append hfolder

/-- A file in place of a file. -/
theorem extends_insert_file {root : Entry} {location : List String} {old : ByteArray}
    (hold : root.at? location = some (.file old)) (content : ByteArray) :
    Extends (· = location) root (root.insert location (.file content)) := by
  refine extends_insert ?_ ?_ (fun name rest => rfl) (fun _ => rfl)
  · rintro above name rest rfl
    exact folder_of_at?_append hold
  · intro entry hentry
    obtain rfl := Option.some.inj (hold.symm.trans hentry)
    exact ⟨rfl, .file _ _⟩

/-- A file or an empty folder at a free name. -/
theorem extends_insert_free {touched : List String → Prop} {root value : Entry}
    {location : List String} {name : String} {entries : List (String × Entry)}
    (hfolder : root.at? location = some (.folder entries))
    (hfree : root.at? (location ++ [name]) = none)
    (hbare : ∀ name rest, value.at? (name :: rest) = none)
    (htouched : value.isFolder = false → touched (location ++ [name])) :
    Extends touched root (root.insert (location ++ [name]) value) := by
  refine extends_insert (folder_above hfolder name) ?_ hbare htouched
  intro entry hentry
  rw [hfree] at hentry
  contradiction

end Entry

namespace FileTree

open Entry

namespace Leads

variable {touched : List String → Prop} {before after : Entry} {follow : Bool} {links : Nat}
  {location parts target : List String}

/-- What a path leads to stays where it is. -/
theorem grow (hext : Extends touched before after) {entry : Entry}
    (hleads : Leads before follow links location parts (.entry target entry)) :
    ∃ later, Leads after follow links location parts (.entry target later) ∧
      SameKind entry later := by
  generalize hplace : Place.entry target entry = place at hleads
  induction hleads with
  | done hentry =>
      cases hplace
      obtain ⟨later, hlater, hkind⟩ := hext.kind hentry
      exact ⟨later, .done hlater, hkind⟩
  | stay hfolder hrest ih =>
      obtain ⟨later, hlater, hkind⟩ := ih hplace
      obtain ⟨entries, hentries⟩ := hext.folder hfolder
      exact ⟨later, .stay hentries hlater, hkind⟩
  | leave hfolder hrest ih =>
      obtain ⟨later, hlater, hkind⟩ := ih hplace
      obtain ⟨entries, hentries⟩ := hext.folder hfolder
      exact ⟨later, .leave hentries hlater, hkind⟩
  | free hpart hfolder hnone => cases hplace
  | link hpart hfollow hlink =>
      cases hplace
      exact ⟨_, .link hpart hfollow (hext.link hlink), .link _⟩
  | follow hpart hfollow hlink hrest ih =>
      obtain ⟨later, hlater, hkind⟩ := ih hplace
      exact ⟨later, .follow hpart hfollow (hext.link hlink) hlater, hkind⟩
  | enter hpart hentry hlink hrest ih =>
      obtain ⟨later, hlater, hkind⟩ := ih hplace
      obtain ⟨inner, hinner, hkindInner⟩ := hext.kind hentry
      refine ⟨later, .enter hpart hinner ?_ hlater, hkind⟩
      rintro target rfl
      cases hkindInner
      exact hlink _ rfl

/-- A path that led to a free name leads to the entry that is put there. -/
theorem fill (hext : Extends touched before after) {name : String} {entry : Entry}
    (hentry : after.at? (target ++ [name]) = some entry) (hlink : ∀ target, entry ≠ .link target)
    (hleads : Leads before follow links location parts (.free target name)) :
    Leads after follow links location parts (.entry (target ++ [name]) entry) := by
  generalize hplace : Place.free target name = place at hleads
  induction hleads with
  | done hentry => cases hplace
  | stay hfolder hrest ih =>
      obtain ⟨entries, hentries⟩ := hext.folder hfolder
      exact .stay hentries (ih hplace)
  | leave hfolder hrest ih =>
      obtain ⟨entries, hentries⟩ := hext.folder hfolder
      exact .leave hentries (ih hplace)
  | free hpart hfolder hnone =>
      cases hplace
      exact .enter hpart hentry hlink (.done hentry)
  | link hpart hfollow hlink => cases hplace
  | follow hpart hfollow hlink hrest ih =>
      exact .follow hpart hfollow (hext.link hlink) (ih hplace)
  | enter hpart hinner hnotLink hrest ih =>
      obtain ⟨later, hlater, hkind⟩ := hext.kind hinner
      refine .enter hpart hlater ?_ (ih hplace)
      rintro target rfl
      cases hkind
      exact hnotLink _ rfl

end Leads

/-- A path that the system takes. -/
structure Admissible (path : Path) : Prop where
  no_null : '\x00' ∉ (toString path).toList
  short : ¬ longestPath < (toString path).utf8ByteSize

instance (path : Path) : Decidable (Admissible path) :=
  decidable_of_iff ('\x00' ∉ (toString path).toList ∧ ¬ longestPath < (toString path).utf8ByteSize)
    ⟨fun h => ⟨h.1, h.2⟩, fun h => ⟨h.no_null, h.short⟩⟩

/-- Where a path starts. -/
def origin (tree : FileTree) (path : Path) : List String :=
  if path.isAbsolute then [] else tree.directory

theorem locate_of_admissible {path : Path} (hadmissible : Admissible path) (tree : FileTree)
    (follow : Bool) :
    tree.locate follow path = (walk tree.root follow linkLimit (tree.origin path) path.parts).mapError
      (.system · (toString path)) := by
  have hnull : (toString path).contains '\x00' = false := by simpa using hadmissible.no_null
  rw [locate, hnull, if_neg hadmissible.short]
  rfl

theorem locate_eq_ok_iff {tree : FileTree} {follow : Bool} {path : Path} {place : Place} :
    tree.locate follow path = .ok place ↔
      Admissible path ∧ Leads tree.root follow linkLimit (tree.origin path) path.parts place := by
  rw [← walk_eq_ok_iff]
  by_cases hadmissible : Admissible path
  · rw [locate_of_admissible hadmissible]
    cases walk tree.root follow linkLimit (tree.origin path) path.parts with
    | error cause => simp [Except.mapError]
    | ok found => simp [Except.mapError, hadmissible]
  · refine ⟨fun hlocate => ?_, fun h => absurd h.1 hadmissible⟩
    unfold locate at hlocate
    dsimp only at hlocate
    split_ifs at hlocate with hnull hlong
    all_goals exact absurd ⟨by simpa using hnull, hlong⟩ hadmissible

/-- The path leads to an entry at the location, links followed. -/
def LeadsTo (tree : FileTree) (path : Path) (location : List String) : Prop :=
  ∃ entry, tree.locate true path = .ok (.entry location entry)

variable {touched : List String → Prop} {tree after : FileTree} {path : Path} {content : ByteArray}

theorem locate_grow {location : List String} {entry : Entry}
    (hlocate : tree.locate true path = .ok (.entry location entry))
    (hdirectory : after.directory = tree.directory)
    (hext : Extends touched tree.root after.root) :
    ∃ later, after.locate true path = .ok (.entry location later) ∧ SameKind entry later := by
  obtain ⟨hadmissible, hleads⟩ := locate_eq_ok_iff.mp hlocate
  obtain ⟨later, hlater, hkind⟩ := hleads.grow hext
  refine ⟨later, locate_eq_ok_iff.mpr ⟨hadmissible, ?_⟩, hkind⟩
  rwa [origin, hdirectory]

theorem leadsTo_grow {location : List String} (hleads : tree.LeadsTo path location)
    (hdirectory : after.directory = tree.directory)
    (hext : Extends touched tree.root after.root) : after.LeadsTo path location := by
  obtain ⟨entry, hentry⟩ := hleads
  obtain ⟨later, hlater, -⟩ := locate_grow hentry hdirectory hext
  exact ⟨later, hlater⟩

theorem locate_fill {location : List String} {name : String} {entry : Entry}
    (hlocate : tree.locate true path = .ok (.free location name))
    (hdirectory : after.directory = tree.directory)
    (hext : Extends touched tree.root after.root)
    (hentry : after.root.at? (location ++ [name]) = some entry)
    (hlink : ∀ target, entry ≠ .link target) :
    after.locate true path = .ok (.entry (location ++ [name]) entry) := by
  obtain ⟨hadmissible, hleads⟩ := locate_eq_ok_iff.mp hlocate
  refine locate_eq_ok_iff.mpr ⟨hadmissible, ?_⟩
  rw [origin, hdirectory]
  exact hleads.fill hext hentry hlink

theorem at?_of_locate {follow : Bool} {location : List String} {entry : Entry}
    (hlocate : tree.locate follow path = .ok (.entry location entry)) :
    tree.root.at? location = some entry :=
  (locate_eq_ok_iff.mp hlocate).2.at?_entry

/-- A file that is not touched stays where its path leads. -/
theorem locate_untouched {location : List String}
    (hlocate : tree.locate true path = .ok (.entry location (.file content)))
    (hdirectory : after.directory = tree.directory) (hext : Extends touched tree.root after.root)
    (huntouched : ¬ touched location) :
    after.locate true path = .ok (.entry location (.file content)) := by
  obtain ⟨later, hlater, -⟩ := locate_grow hlocate hdirectory hext
  have hkept := (hext.leaf huntouched rfl).mpr (at?_of_locate hlocate)
  obtain rfl := Option.some.inj ((at?_of_locate hlater).symm.trans hkept)
  exact hlater

/-- A name too long below a folder cannot be asked about. -/
theorem locate_overlong {location above : List String} {entries : List (String × Entry)} {root : Path.Root}
    (hfolder : tree.locate true ⟨root, above⟩ = .ok (.entry location (.folder entries)))
    {name : String} (hlong : longestName < name.utf8ByteSize) {rest : List String}
    (hadmissible : Admissible ⟨root, above ++ name :: rest⟩) :
    tree.locate true ⟨root, above ++ name :: rest⟩ =
      .error (.system .nameTooLong (toString (⟨root, above ++ name :: rest⟩ : Path))) := by
  obtain ⟨left, hleft⟩ := (locate_eq_ok_iff.mp hfolder).2.walk_append
  have hwalk := (hleft (name :: rest)).trans (walk_overlong (at?_of_locate hfolder) hlong rest)
  rw [locate_of_admissible hadmissible]
  exact congrArg (Except.mapError _) hwalk

/-- Where an entry is or could be. -/
def Place.location : Place → List String
  | .entry location _ => location
  | .free location name => location ++ [name]

/-- A file is put where its path led, and nothing else is changed. -/
theorem put_spec (hput : tree.put path content = .ok after) :
    ∃ place, tree.locate true path = .ok place ∧
      after = { tree with root := tree.root.insert place.location (.file content) } ∧
      Extends (· = place.location) tree.root after.root ∧
      after.locate true path = .ok (.entry place.location (.file content)) := by
  unfold put at hput
  cases hlocate : tree.locate true path with
  | error fault =>
      rw [hlocate] at hput
      contradiction
  | ok place =>
      rw [hlocate] at hput
      cases place with
      | free location name =>
          cases hput
          obtain ⟨⟨entries, hfolder⟩, hfree⟩ := (locate_eq_ok_iff.mp hlocate).2.at?_free
          have hext : Extends (· = location ++ [name]) tree.root
              (tree.root.insert (location ++ [name]) (.file content)) :=
            extends_insert_free hfolder hfree (fun name rest => rfl) (fun _ => rfl)
          exact ⟨_, rfl, rfl, hext, locate_fill hlocate rfl hext (at?_insert_self ..) (by simp)⟩
      | entry location entry =>
          cases entry with
          | file old =>
              cases hput
              have hext := extends_insert_file (at?_of_locate hlocate) content
              obtain ⟨later, hlater, -⟩ := locate_grow hlocate
                (show ({ tree with root := tree.root.insert location (.file content) } :
                  FileTree).directory = tree.directory from rfl) hext
              have hcontent := (at?_of_locate hlater).symm.trans (at?_insert_self ..)
              obtain rfl := Option.some.inj hcontent
              exact ⟨_, rfl, rfl, hext, hlater⟩
          | link target => contradiction
          | folder entries => contradiction

theorem write_eq_ok_iff {taken : Taken} :
    tree.write taken path content = (.ok (), after) ↔
      taken = .whole ∧ tree.put path content = .ok after := by
  unfold write
  cases taken with
  | whole =>
      have hpart : Taken.part .whole content = content := rfl
      rw [hpart]
      cases tree.put path content with
      | error fault => simp
      | ok changed => simp
  | refused cause =>
      generalize tree.put path (Taken.part _ content) = changed
      cases changed with
      | error fault => simp
      | ok changed => simp
  | front bytes cause =>
      generalize tree.put path (Taken.part _ content) = changed
      cases changed with
      | error fault => simp
      | ok changed => simp

/-- The device takes every write whole. -/
def Device.Sound (device : Device) : Prop :=
  ∀ taken ∈ device, taken = .whole

theorem Device.Sound.next {device : Device} (hsound : device.Sound) : device.next = .whole := by
  cases device with
  | nil => rfl
  | cons taken rest => exact hsound taken List.mem_cons_self

theorem Device.Sound.tail {device : Device} (hsound : device.Sound) : Device.Sound device.tail :=
  fun taken htaken => hsound taken (List.mem_of_mem_tail htaken)

theorem Device.sound_nil : Device.Sound [] := by
  simp [Device.Sound]

/-- A folder is made at a free name, and there its path leads. -/
theorem create_folder_spec (hcreate : tree.create path (.folder []) = .ok after) :
    ∃ location name, tree.locate false path = .ok (.free location name) ∧
      after = { tree with root := tree.root.insert (location ++ [name]) (.folder []) } ∧
      Extends (fun _ => False) tree.root after.root ∧
      after.locate true path = .ok (.entry (location ++ [name]) (.folder [])) := by
  unfold create at hcreate
  cases hlocate : tree.locate false path with
  | error fault =>
      rw [hlocate] at hcreate
      contradiction
  | ok place =>
      rw [hlocate] at hcreate
      cases place with
      | entry location entry => contradiction
      | free location name =>
          cases hcreate
          obtain ⟨hadmissible, hleads⟩ := locate_eq_ok_iff.mp hlocate
          obtain ⟨⟨entries, hfolder⟩, hfree⟩ := hleads.at?_free
          have hext : Extends (fun _ => False) tree.root
              (tree.root.insert (location ++ [name]) (.folder [])) :=
            extends_insert_free hfolder hfree (fun name rest => rfl) (by simp [isFolder])
          have hfollow : tree.locate true path = .ok (.free location name) :=
            locate_eq_ok_iff.mpr ⟨hadmissible, hleads.follow_free⟩
          exact ⟨location, name, rfl, rfl, hext,
            locate_fill hfollow rfl hext (at?_insert_self ..) (by simp)⟩

theorem entry?_of_locate {location : List String} {entry : Entry}
    (hlocate : tree.locate true path = .ok (.entry location entry)) :
    tree.entry? path = .ok (some entry) := by
  unfold entry?
  rw [hlocate]

theorem locate_of_entry? {entry : Entry} (hentry : tree.entry? path = .ok (some entry)) :
    ∃ location, tree.locate true path = .ok (.entry location entry) := by
  unfold entry? at hentry
  split at hentry
  · next location found hlocate =>
      cases hentry
      exact ⟨location, hlocate⟩
  · cases hentry
  · cases hentry
  · cases hentry

theorem locate_of_isDirectory (hdirectory : tree.isDirectory path = .ok true) :
    ∃ location entries, tree.locate true path = .ok (.entry location (.folder entries)) := by
  unfold isDirectory at hdirectory
  cases hentry : tree.entry? path with
  | error fault =>
      rw [hentry] at hdirectory
      cases hdirectory
  | ok entry =>
      rw [hentry] at hdirectory
      rcases entry with _ | content | target | entries
      · cases hdirectory
      · cases hdirectory
      · cases hdirectory
      · obtain ⟨location, hlocate⟩ := locate_of_entry? hentry
        exact ⟨location, entries, hlocate⟩

/-- A path is a file when it leads to one, links followed. -/
theorem isFile_eq_ok_true_iff : tree.isFile path = .ok true ↔
    ∃ location content, tree.locate true path = .ok (.entry location (.file content)) := by
  constructor
  · intro hfile
    unfold isFile at hfile
    cases hentry : tree.entry? path with
    | error fault =>
        rw [hentry] at hfile
        cases hfile
    | ok entry =>
        rw [hentry] at hfile
        rcases entry with _ | content | target | entries
        · cases hfile
        · obtain ⟨location, hlocate⟩ := locate_of_entry? hentry
          exact ⟨location, content, hlocate⟩
        · cases hfile
        · cases hfile
  · rintro ⟨location, content, hlocate⟩
    rw [isFile, entry?_of_locate hlocate]
    rfl

/-- Asking whether a path is a file fails only where a name is too long. -/
theorem isFile_eq_error {fault : Fault} (hfile : tree.isFile path = .error fault) :
    fault = .system .nameTooLong (toString path) := by
  have htext {cause : Cause} {text : String}
      (hlocate : tree.locate true path = .error (.system cause text)) : text = toString path := by
    unfold locate at hlocate
    dsimp only at hlocate
    generalize walk tree.root true linkLimit _ path.parts = found at hlocate
    split_ifs at hlocate
    · cases hlocate
    · cases hlocate
      rfl
    · cases found with
      | ok place => cases hlocate
      | error cause =>
          cases hlocate
          rfl
  unfold isFile entry? at hfile
  split at hfile
  · cases hfile
  · cases hfile
  · next text hlocate =>
      cases hfile
      rw [htext hlocate]
  · cases hfile

/-- What came of making a folder: no file and no link is another one, and a folder that was made is there. -/
structure MakesFolder (tree : FileTree) (path : Path) (made : Except Fault Unit × FileTree) :
    Prop where
  directory : made.2.directory = tree.directory
  grows : Extends (fun _ => False) tree.root made.2.root
  leads : made.1 = .ok () →
    ∃ location entries, made.2.locate true path = .ok (.entry location (.folder entries))

theorem makeFolder_spec (tree : FileTree) (path : Path) :
    MakesFolder tree path (tree.makeFolder path) := by
  unfold makeFolder
  cases hcreate : tree.create path (.folder []) with
  | ok made =>
      obtain ⟨location, name, -, hmade, hgrows, hleads⟩ := create_folder_spec hcreate
      exact ⟨by rw [hmade], hgrows, fun _ => ⟨_, _, hleads⟩⟩
  | error fault =>
      have hgrows := Extends.refl (fun _ => False) tree.root
      cases hthere : tree.isDirectory path with
      | error other => exact ⟨rfl, hgrows, fun h => by contradiction⟩
      | ok there =>
          cases there with
          | true => exact ⟨rfl, hgrows, fun _ => locate_of_isDirectory hthere⟩
          | false => exact ⟨rfl, hgrows, fun h => by contradiction⟩

theorem makeFolders_spec (tree : FileTree) (path : Path) :
    MakesFolder tree path (tree.makeFolders path) := by
  fun_induction makeFolders tree path with
  | case1 => exact ⟨rfl, .refl _ _, fun h => by contradiction⟩
  | case2 path text hcreate hparts hshorter made hmade ih =>
      rw [hmade] at ih
      have hlast := makeFolder_spec made path
      exact ⟨hlast.directory.trans ih.directory, ih.grows.trans hlast.grows, hlast.leads⟩
  | case3 path text hcreate hparts hshorter hfailed ih =>
      refine ⟨ih.directory, ih.grows, fun hmade => ?_⟩
      exact absurd (Prod.ext hmade rfl : tree.makeFolders path.parent = (.ok (), _)) (hfailed _)
  | case4 path hcreate => exact makeFolder_spec tree path

theorem isDirectory_of_locate {location : List String} {entries : List (String × Entry)}
    (hlocate : tree.locate true path = .ok (.entry location (.folder entries))) :
    tree.isDirectory path = .ok true := by
  rw [isDirectory, entry?_of_locate hlocate]
  rfl

/-- A folder is made at a name that is free in another one. -/
theorem makeFolders_of_free {location : List String} {name : String}
    (hlocate : tree.locate false path = .ok (.free location name)) :
    tree.makeFolders path =
      (.ok (), { tree with root := tree.root.insert (location ++ [name]) (.folder []) }) := by
  have hcreate : tree.create path (.folder []) =
      .ok { tree with root := tree.root.insert (location ++ [name]) (.folder []) } := by
    rw [create, hlocate]
  rw [makeFolders, hcreate]
  dsimp only
  rw [makeFolder, hcreate]

/-- A folder that is there already is not made again. -/
theorem makeFolders_of_locate {location : List String} {entries : List (String × Entry)}
    (hlocate : tree.locate true path = .ok (.entry location (.folder entries))) :
    tree.makeFolders path = (.ok (), tree) := by
  obtain ⟨hadmissible, hleads⟩ := locate_eq_ok_iff.mp hlocate
  obtain ⟨first, found, hfound⟩ := hleads.unfollow
  have hcreate : tree.create path (.folder []) = .error (.system .alreadyExists (toString path)) := by
    rw [create, locate_eq_ok_iff.mpr ⟨hadmissible, hfound⟩]
  have hmake : tree.makeFolder path = (.ok (), tree) := by
    rw [makeFolder, hcreate]
    dsimp only
    rw [isDirectory_of_locate hlocate]
  rw [makeFolders, hcreate]
  exact hmake

end FileTree

end Roster
