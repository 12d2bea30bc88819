import Lineage.Proofs.Survey

/-!
# Each file of a survey by itself

The report of a survey is put together from what its files contribute, one after the other, and a
file that cannot be read contributes a failure (`run_eq`).  What a file contributes depends on its
own bytes alone: if two disks differ in the bytes of one file of the survey, the survey collects the
same files on both (`files_of_differsAt`), and all other files have the same text
(`DiffersAt.readText`).
-/

namespace Lineage

/-- What two disks have at one place: nothing, the same file or two folders. -/
inductive Tree.Alike : Option Tree → Option Tree → Prop where
  | none : Alike none none
  | file (content : ByteArray) : Alike (some (.file content)) (some (.file content))
  | folder (entries entries' : List (String × Tree)) :
      Alike (some (.folder entries)) (some (.folder entries'))

/-- What two disks have at one place: nothing, two files or two folders. -/
inductive Tree.SameKind : Option Tree → Option Tree → Prop where
  | none : SameKind none none
  | file (content content' : ByteArray) :
      SameKind (some (.file content)) (some (.file content'))
  | folder (entries entries' : List (String × Tree)) :
      SameKind (some (.folder entries)) (some (.folder entries'))

namespace Tree

variable {t : Tree} {names other : List String} {name : String} {entries : List (String × Tree)}
  {content : ByteArray}

/-! ### Overwriting a file -/

theorem lookup_putEntry_of_ne {name' : String} (h : name' ≠ name) (t : Tree)
    (entries : List (String × Tree)) :
    (putEntry name t entries).lookup name' = entries.lookup name' := by
  have hne : (name' == name) = false := beq_eq_false_iff_ne.2 h
  induction entries with
  | nil => simp [putEntry, List.lookup_cons, hne]
  | cons entry entries ih =>
    unfold putEntry
    split_ifs with heq
    · rw [beq_iff_eq] at heq
      rw [List.lookup_cons, List.lookup_cons, hne, heq, hne]
    · rw [List.lookup_cons, List.lookup_cons, ih]

theorem map_fst_putEntry (h : entries.lookup name ≠ none) (t : Tree) :
    (putEntry name t entries).map (·.1) = entries.map (·.1) := by
  induction entries with
  | nil => exact absurd rfl h
  | cons entry entries ih =>
    unfold putEntry
    split_ifs with heq
    · rw [beq_iff_eq] at heq
      rw [List.map_cons, List.map_cons, heq]
    · have hne : (name == entry.1) = false := by
        rw [beq_eq_false_iff_ne]
        rintro rfl
        exact heq (beq_self_eq_true _)
      rw [List.lookup_cons, hne] at h
      rw [List.map_cons, List.map_cons, ih h]

theorem mem_putEntry {entry : String × Tree} (h : entry ∈ putEntry name t entries) :
    entry.2 = t ∨ entry ∈ entries := by
  induction entries with
  | nil =>
    rw [putEntry, List.mem_singleton] at h
    rw [h]
    exact Or.inl rfl
  | cons first entries ih =>
    unfold putEntry at h
    split_ifs at h
    · rcases List.mem_cons.1 h with rfl | h
      · exact Or.inl rfl
      · exact Or.inr (List.mem_cons_of_mem first h)
    · rcases List.mem_cons.1 h with rfl | h
      · exact Or.inr List.mem_cons_self
      · exact (ih h).imp_right (List.mem_cons_of_mem first)

theorem exists_of_get?_cons (h : t.get? (name :: names) = some (.file content)) :
    ∃ entries below, t = .folder entries ∧ entries.lookup name = some below ∧
      below.get? names = some (.file content) := by
  cases t with
  | file _ =>
    rw [get?_file_cons] at h
    cases h
  | folder entries =>
    rw [get?_folder_cons, Option.bind_eq_some_iff] at h
    obtain ⟨below, hbelow, h⟩ := h
    exact ⟨entries, below, rfl, hbelow, h⟩

theorem put_folder_cons {below : Tree} (h : entries.lookup name = some below) (new : Tree) :
    put new (name :: names) (.folder entries) =
      .folder (putEntry name (put new names below) entries) := by
  rw [put, child?, Tree.entries, h, Option.getD_some]

/-- Overwriting a file changes what is found at its own place only. -/
theorem alike_put (h : t.get? names = some (.file content)) (content' : ByteArray)
    (hother : other ≠ names) :
    Alike (t.get? other) ((put (.file content') names t).get? other) := by
  induction names generalizing t other with
  | nil =>
    rw [get?_nil] at h
    obtain rfl := Option.some.inj h
    obtain ⟨name, rest, rfl⟩ := List.exists_cons_of_ne_nil hother
    rw [put, get?_file_cons, get?_file_cons]
    exact .none
  | cons name names ih =>
    obtain ⟨entries, below, rfl, hbelow, hget⟩ := exists_of_get?_cons h
    rw [put_folder_cons hbelow]
    cases other with
    | nil =>
      rw [get?_nil, get?_nil]
      exact .folder _ _
    | cons name' rest =>
      rw [get?_folder_cons, get?_folder_cons]
      -- the two ways part at this entry, or further down
      by_cases hname : name' = name
      · subst hname
        rw [lookup_putEntry, hbelow, Option.bind_some, Option.bind_some]
        exact ih hget (fun hrest => hother (by rw [hrest]))
      · rw [lookup_putEntry_of_ne hname]
        cases hentry : (entries.lookup name').bind (·.get? rest) with
        | none => exact .none
        | some t =>
          cases t with
          | file content => exact .file content
          | folder entries => exact .folder entries entries

theorem Regular.put (ht : t.Regular) (h : t.get? names = some (.file content))
    (content' : ByteArray) : (put (.file content') names t).Regular := by
  induction names generalizing t with
  | nil =>
    rw [Tree.put]
    exact .file content'
  | cons name names ih =>
    obtain ⟨entries, below, rfl, hbelow, hget⟩ := exists_of_get?_cons h
    have hnames := map_fst_putEntry (by rw [hbelow]; exact Option.some_ne_none below)
      (Tree.put (.file content') names below)
    have hregular := ih (ht.lookup hbelow) hget
    rw [put_folder_cons hbelow]
    cases ht with
    | folder nodup isName regular =>
      refine .folder (by rwa [hnames]) (fun entry hentry => ?_) (fun entry hentry => ?_)
      · have hname : entry.1 ∈ entries.map (·.1) := hnames ▸ List.mem_map_of_mem hentry
        obtain ⟨old, hold, hsame⟩ := List.mem_map.1 hname
        exact hsame ▸ isName old hold
      · rcases mem_putEntry hentry with hnew | hold
        · rwa [hnew]
        · exact regular entry hold

end Tree

namespace Disk

variable {d d' : Disk} {place names below : List String} {root : String}

/-! ### Following paths -/

theorem follow_append (d : Disk) (before after : List Component) (names : List String) :
    d.follow names (before ++ after) =
      (d.follow names before).bind (fun reached => d.follow reached after) := by
  induction before generalizing names with
  | nil => rfl
  | cons component before ih =>
    rw [List.cons_append, follow, follow]
    split
    · rfl
    · rfl
    · cases component with
      | root | here | up => exact ih _
      | name text =>
        dsimp only
        split_ifs
        · exact ih _
        · rfl

theorem follow_names {t : Tree} (h : d.at? (names ++ below) = some t) :
    d.follow names (below.map .name) = .ok (names ++ below) := by
  induction below generalizing names with
  | nil => rw [List.append_nil]; rfl
  | cons name below ih =>
    have hnext : d.at? (names ++ [name] ++ below) = some t := by
      rw [List.append_assoc, List.singleton_append, h]
    obtain ⟨entries, hentries, hlookup⟩ : ∃ entries, d.at? names = some (.folder entries) ∧
        (entries.lookup name).isSome = true := by
      rw [at?, Tree.get?_append, Option.bind_eq_some_iff] at h
      obtain ⟨folder, hfolder, h⟩ := h
      cases folder with
      | file content =>
        rw [Tree.get?_file_cons] at h
        cases h
      | folder entries =>
        rw [Tree.get?_folder_cons, Option.bind_eq_some_iff] at h
        obtain ⟨below, hbelow, _⟩ := h
        exact ⟨entries, hfolder, by rw [hbelow]; rfl⟩
    rw [List.map_cons, follow, hentries]
    simp only [hlookup, if_true]
    rw [ih hnext, List.append_assoc, List.singleton_append]

/-- Where the components of a path lead. -/
def goal (d : Disk) (path : String) : Except DiskError (List String) :=
  d.follow (if Path.isAbsolute path then [] else d.current) (Path.components path)

theorem resolve_eq (d : Disk) (path : String) :
    d.resolve path =
      if path.isEmpty then .error .notFound
      else (d.goal path).bind (fun names =>
        match d.at? names with
        | none => .error .notFound
        | some t => if endsAsFolder path && !t.isFolder then .error .notFolder else .ok names) := by
  unfold resolve goal
  split_ifs <;> rfl

theorem goal_of_resolve {path : String} (h : d.resolve path = .ok names) :
    d.goal path = .ok names := by
  rw [resolve_eq, if_neg (by rw [Survey.isEmpty_of_resolve h]; exact Bool.false_ne_true)] at h
  cases hgoal : d.goal path with
  | error e =>
    rw [hgoal] at h
    cases h
  | ok reached =>
    rw [hgoal] at h
    simp only [Except.bind] at h
    split at h
    · cases h
    · split_ifs at h
      exact h

theorem endsAsFolder_below {last : String} (hroot : root.isEmpty = false)
    (hnames : ∀ name ∈ below, Path.IsName name) (hlast : below.getLast? = some last) :
    endsAsFolder (Path.below root below) = false := by
  obtain ⟨start, hstart⟩ := Path.exists_toList_below hroot hnames hlast
  have hname := hnames last (List.mem_of_getLast? hlast)
  have hslash : ∀ c ∈ last.toList.reverse, c ≠ '/' := by
    rintro c hc rfl
    exact hname.not_slash (List.mem_reverse.1 hc)
  have hdot : last.toList.reverse ≠ ['.'] := by
    intro hreverse
    exact hname.ne_here (List.reverse_eq_iff.1 hreverse)
  have hempty : last.toList.reverse ≠ [] := fun hnil => hname.ne_empty (by simpa using hnil)
  unfold endsAsFolder
  rw [hstart, List.reverse_append, List.reverse_cons, List.append_assoc]
  revert hslash hdot hempty
  generalize last.toList.reverse = back
  intro hslash hdot hempty
  match back, hempty with
  | [c], _ =>
    have hc : c ≠ '.' := fun hc => hdot (by rw [hc])
    have hc' := hslash c List.mem_cons_self
    simp [hc, hc']
  | c :: d :: back, _ =>
    have hc := hslash c List.mem_cons_self
    have hd := hslash d (List.mem_cons_of_mem c List.mem_cons_self)
    simp [hc, hd]

/-- **A path below a folder leads to the place below that of the folder.** -/
theorem resolve_below {t : Tree} (hroot : d.resolve root = .ok names) (hne : below ≠ [])
    (hnames : ∀ name ∈ below, Path.IsName name) (h : d.at? (names ++ below) = some t) :
    d.resolve (Path.below root below) = .ok (names ++ below) := by
  have hempty := Survey.isEmpty_of_resolve hroot
  have hgoal : d.goal (Path.below root below) = .ok (names ++ below) := by
    have hstart := goal_of_resolve hroot
    unfold goal at hstart ⊢
    rw [Path.isAbsolute_below hempty hnames, Path.components_below hempty hnames, follow_append,
      hstart]
    exact follow_names h
  have hlast := List.getLast?_eq_some_getLast hne
  obtain ⟨start, hpath⟩ := Path.exists_toList_below hempty hnames hlast
  have hpath' : (Path.below root below).isEmpty = false := by
    rw [← Bool.not_eq_true, String.isEmpty_iff]
    intro hnil
    rw [hnil] at hpath
    simp at hpath
  rw [resolve_eq, hpath', hgoal, if_neg Bool.false_ne_true]
  simp only [Except.bind, h, endsAsFolder_below hempty hnames hlast, Bool.false_and,
    Bool.false_eq_true, if_false]

/-! ### Disks that differ in one file -/

/-- Two disks with the same folders and files, where all but one of the files have the same
bytes. -/
structure DiffersAt (place : List String) (d d' : Disk) : Prop where
  current : d'.current = d.current
  file : ∃ content, d.at? place = some (.file content)
  file' : ∃ content, d'.at? place = some (.file content)
  alike : ∀ other, other ≠ place → Tree.Alike (d.at? other) (d'.at? other)

theorem DiffersAt.sameKind (h : DiffersAt place d d') (other : List String) :
    Tree.SameKind (d.at? other) (d'.at? other) := by
  by_cases hother : other = place
  · obtain ⟨content, hcontent⟩ := h.file
    obtain ⟨content', hcontent'⟩ := h.file'
    rw [hother, hcontent, hcontent']
    exact .file content content'
  · have halike := h.alike other hother
    generalize d.at? other = t at halike ⊢
    generalize d'.at? other = t' at halike ⊢
    cases halike with
    | none => exact .none
    | file content => exact .file content content
    | folder entries entries' => exact .folder entries entries'

theorem DiffersAt.isSome_at? (h : DiffersAt place d d') (other : List String) :
    (d'.at? other).isSome = (d.at? other).isSome := by
  have hkind := h.sameKind other
  generalize d.at? other = t at hkind ⊢
  generalize d'.at? other = t' at hkind ⊢
  cases hkind <;> rfl

theorem DiffersAt.follow (h : DiffersAt place d d') (names : List String)
    (components : List Component) : d'.follow names components = d.follow names components := by
  induction components generalizing names with
  | nil => rfl
  | cons component components ih =>
    have hkind := h.sameKind names
    rw [Disk.follow, Disk.follow]
    generalize hd : d.at? names = t at hkind ⊢
    generalize hd' : d'.at? names = t' at hkind ⊢
    cases hkind with
    | none | file => rfl
    | folder entries entries' =>
      cases component with
      | root | here | up => exact ih _
      | name text =>
        have htext := h.isSome_at? (names ++ [text])
        rw [at?, at?, Tree.get?_concat hd, Tree.get?_concat hd'] at htext
        simp only [htext, ih]

theorem DiffersAt.resolve (h : DiffersAt place d d') (path : String) :
    d'.resolve path = d.resolve path := by
  have hgoal : d'.goal path = d.goal path := by
    rw [goal, goal, h.current, h.follow]
  rw [resolve_eq, resolve_eq, hgoal]
  congr 2
  funext names
  have hkind := h.sameKind names
  generalize d.at? names = t at hkind ⊢
  generalize d'.at? names = t' at hkind ⊢
  cases hkind <;> rfl

/-- Overwriting a file gives a disk that differs in that file. -/
theorem differsAt_put {content : ByteArray} (h : d.at? place = some (.file content))
    (content' : ByteArray) :
    DiffersAt place d { d with top := Tree.put (.file content') place d.top } where
  current := rfl
  file := ⟨content, h⟩
  file' := ⟨content', Tree.get?_put _ _ _⟩
  alike := fun _ hother => Tree.alike_put h content' hother

/-- **A file at another place has the same text.** -/
theorem DiffersAt.readText (h : DiffersAt place d d') {path : String}
    (hpath : d.resolve path ≠ .ok place) : d'.readText path = d.readText path := by
  have hread : d'.read path = d.read path := by
    unfold Disk.read find
    rw [h.resolve]
    cases hresolve : d.resolve path with
    | error e => rfl
    | ok names =>
      have halike := h.alike names (fun hnames => hpath (by rw [hresolve, hnames]))
      simp only [bind, Except.bind]
      generalize d.at? names = t at halike ⊢
      generalize d'.at? names = t' at halike ⊢
      cases halike <;> rfl
  rw [Disk.readText, Disk.readText, hread]

end Disk

/-! ### Ignore files -/

theorem IgnoreRule.ofFile_eq {t t' : Tree} {names : List String}
    (h : Tree.Alike (t.get? names) (t'.get? names)) : ofFile t' names = ofFile t names := by
  unfold ofFile
  generalize t.get? names = entry at h ⊢
  generalize t'.get? names = entry' at h ⊢
  cases h <;> rfl

/-- A file of a language is no ignore file. -/
theorem Path.extensionOf?_ignoreFile {file : List String} {last : String}
    (hfile : file ∈ [IgnoreLayer.ownFile, IgnoreLayer.sharedFile, IgnoreLayer.excludedFile])
    (hlast : file.getLast? = some last) : extensionOf? last = none := by
  rcases List.mem_cons.1 hfile with rfl | hfile
  · obtain rfl := Option.some.inj hlast
    decide
  · rcases List.mem_cons.1 hfile with rfl | hfile
    · obtain rfl := Option.some.inj hlast
      decide
    · obtain rfl := List.mem_singleton.1 hfile
      obtain rfl := Option.some.inj hlast
      decide

namespace Survey

open Disk

variable {d d' : Disk} {place names below : List String} {root path : String}
  {language : Language} {options : Options} {paths : List String}

theorem ofFolder_of_differsAt {t t' : Tree} (h : DiffersAt place d d') {last : String}
    (hlast : place.getLast? = some last) (hextension : Path.extensionOf? last ≠ none)
    (ht : d.at? names = some t) (ht' : d'.at? names = some t') (depth : Nat) :
    IgnoreLayer.ofFolder depth t' = IgnoreLayer.ofFolder depth t := by
  have hfile : ∀ file ∈ [IgnoreLayer.ownFile, IgnoreLayer.sharedFile, IgnoreLayer.excludedFile],
      IgnoreRule.ofFile t' file = IgnoreRule.ofFile t file := by
    intro file hfile
    have hne : file ≠ [] := by
      rintro rfl
      revert hfile
      decide
    have hget : d.at? (names ++ file) = t.get? file := by
      rw [at?, Tree.get?_append, ← at?, ht, Option.bind_some]
    have hget' : d'.at? (names ++ file) = t'.get? file := by
      rw [at?, Tree.get?_append, ← at?, ht', Option.bind_some]
    have halike := h.alike (names ++ file) (fun heq => ?_)
    · rw [hget, hget'] at halike
      exact IgnoreRule.ofFile_eq halike
    · have hfileLast := List.getLast?_eq_some_getLast hne
      rw [← heq, List.getLast?_append, hfileLast] at hlast
      obtain rfl := Option.some.inj hlast
      exact hextension (Path.extensionOf?_ignoreFile hfile hfileLast)
  simp only [IgnoreLayer.ofFolder, hfile, List.mem_cons, true_or, or_true]

theorem above_of_differsAt (h : DiffersAt place d d') {last : String}
    (hlast : place.getLast? = some last) (hextension : Path.extensionOf? last ≠ none)
    (names : List String) : IgnoreLayer.above d'.top names = IgnoreLayer.above d.top names := by
  unfold IgnoreLayer.above
  congr 1
  refine List.filterMap_congr (fun depth _ => ?_)
  have hkind := h.sameKind (names.take depth)
  have hfolder : ∀ t t', d.at? (names.take depth) = some t → d'.at? (names.take depth) = some t' →
      IgnoreLayer.ofFolder depth t' = IgnoreLayer.ofFolder depth t :=
    fun t t' ht ht' => ofFolder_of_differsAt h hlast hextension ht ht' depth
  rw [← at?, ← at?]
  generalize d.at? (names.take depth) = t at hkind hfolder ⊢
  generalize d'.at? (names.take depth) = t' at hkind hfolder ⊢
  cases hkind with
  | none => rfl
  | file | folder => exact congrArg some (hfolder _ _ rfl rfl)

theorem ruling?_of_differsAt (h : DiffersAt place d d') {last : String}
    (hlast : place.getLast? = some last) (hextension : Path.extensionOf? last ≠ none)
    (names : List String) : ruling? d' names = ruling? d names := by
  have hkind := h.sameKind names
  rw [ruling?, ruling?, above_of_differsAt h hlast hextension]
  generalize d.at? names = t at hkind ⊢
  generalize d'.at? names = t' at hkind ⊢
  cases hkind <;> rfl

/-- The conditions on a file of a survey are the same on both disks. -/
theorem collected_of_differsAt (h : DiffersAt place d d') {last : String}
    (hlast : place.getLast? = some last) (hextension : Path.extensionOf? last ≠ none) :
    Collected d' names language options below ↔ Collected d names language options below := by
  have hfile : (∃ content, d'.at? (names ++ below) = some (.file content)) ↔
      ∃ content, d.at? (names ++ below) = some (.file content) := by
    have hkind := h.sameKind (names ++ below)
    generalize d.at? (names ++ below) = t at hkind ⊢
    generalize d'.at? (names ++ below) = t' at hkind ⊢
    cases hkind <;> simp
  have hpassed : ∀ other, PassedOver d' options other ↔ PassedOver d options other := by
    intro other
    rw [PassedOver, PassedOver, ruling?_of_differsAt h hlast hextension]
  constructor
  · rintro ⟨hfile', hlevel, hsource, hfolders, hexcludes, hseen⟩
    exact ⟨hfile.1 hfile', hlevel, hsource, hfolders, hexcludes,
      fun part hpart hne hpass => hseen part hpart hne ((hpassed _).2 hpass)⟩
  · rintro ⟨hfile', hlevel, hsource, hfolders, hexcludes, hseen⟩
    exact ⟨hfile.2 hfile', hlevel, hsource, hfolders, hexcludes,
      fun part hpart hne hpass => hseen part hpart hne ((hpassed _).1 hpass)⟩

/-! ### The files on both disks -/

theorem parse_of_excludePatterns {globs : List String} {patterns : List Pattern}
    (h : excludePatterns globs = .ok patterns) :
    ∀ glob ∈ globs, ∃ tokens, Glob.parse false glob = .ok tokens := by
  induction globs generalizing patterns with
  | nil => simp
  | cons glob globs ih =>
    rw [excludePatterns_cons] at h
    cases htokens : Glob.parse false glob with
    | error e =>
      rw [htokens] at h
      cases h
    | ok tokens =>
      rw [htokens] at h
      cases hrest : excludePatterns globs with
      | error e =>
        rw [hrest] at h
        cases h
      | ok rest => exact List.forall_mem_cons.2 ⟨⟨tokens, htokens⟩, ih hrest⟩

theorem files_eq_ok (h : files d root language options = .ok paths) :
    (∃ names, rootNames d root = .ok names) ∧
      ∀ glob ∈ options.excludes, ∃ tokens, Glob.parse false glob = .ok tokens := by
  unfold files at h
  cases hroot : rootNames d root with
  | error e =>
    rw [hroot] at h
    cases h
  | ok names =>
    cases hpatterns : excludePatterns options.excludes with
    | error e =>
      rw [hroot, hpatterns] at h
      cases h
    | ok patterns => exact ⟨⟨names, rfl⟩, parse_of_excludePatterns hpatterns⟩

theorem rootNames_of_differsAt (h : DiffersAt place d d') (root : String) :
    rootNames d' root = rootNames d root := by
  unfold rootNames
  rw [h.resolve]
  cases d.resolve root with
  | error e => rfl
  | ok names =>
    have hkind := h.sameKind names
    dsimp only
    generalize d.at? names = t at hkind ⊢
    generalize d'.at? names = t' at hkind ⊢
    cases hkind <;> rfl

/-- A file of a survey is a path below the folder, and leads to the place below that of the
folder. -/
theorem resolve_of_mem_files (htree : d.top.Regular)
    (hfiles : files d root language options = .ok paths) (hpath : path ∈ paths) :
    ∃ names below, rootNames d root = .ok names ∧
      Collected d names language options below ∧ path = Path.below root below ∧
      d.resolve path = .ok (names ++ below) := by
  obtain ⟨⟨names, hroot⟩, hglobs⟩ := files_eq_ok hfiles
  obtain ⟨paths', hfiles', _, hmem⟩ := files_spec htree hroot hglobs language
  obtain rfl : paths' = paths := Except.ok.inj (hfiles'.symm.trans hfiles)
  obtain ⟨below, hbelow, rfl⟩ := (hmem path).1 hpath
  obtain ⟨content, hcontent⟩ := hbelow.file
  exact ⟨names, below, hroot, hbelow, rfl, resolve_below (rootNames_eq_ok hroot).1 hbelow.ne_nil
    (hbelow.isName htree) hcontent⟩

/-- **The survey collects the same files** if only the bytes of one of them differ. -/
theorem files_of_differsAt (htree : d.top.Regular) (htree' : d'.top.Regular)
    (hfiles : files d root language options = .ok paths) (hpath : path ∈ paths)
    (hplace : d.resolve path = .ok place) (h : DiffersAt place d d') :
    files d' root language options = .ok paths := by
  obtain ⟨names, below, hroot, hbelow, rfl, hresolve⟩ := resolve_of_mem_files htree hfiles hpath
  obtain rfl : place = names ++ below := Except.ok.inj (hplace.symm.trans hresolve)
  obtain ⟨last, hlast, extension, hextension, _⟩ := hbelow.extension
  have hlast' : (names ++ below).getLast? = some last := by
    rw [List.getLast?_append, hlast]
    rfl
  have hsource : Path.extensionOf? last ≠ none := by
    rw [hextension]
    exact Option.some_ne_none extension
  obtain ⟨_, hglobs⟩ := files_eq_ok hfiles
  obtain ⟨paths₁, hfiles₁, hsorted₁, hmem₁⟩ := files_spec htree hroot hglobs language
  obtain ⟨paths₂, hfiles₂, hsorted₂, hmem₂⟩ :=
    files_spec htree' ((rootNames_of_differsAt h root).trans hroot) hglobs language
  obtain rfl : paths₁ = paths := Except.ok.inj (hfiles₁.symm.trans hfiles)
  rw [hfiles₂]
  congr 1
  refine Path.eq_of_pairwise_precedes hsorted₂ hsorted₁ (fun other => ?_)
  rw [hmem₁, hmem₂]
  exact exists_congr (fun below => and_congr_left
    (fun _ => collected_of_differsAt h hlast' hsource))

/-! ### What files contribute -/

/-- The classes that a file contributes: none if it cannot be read as text. -/
def classesFrom (d : Disk) (language : Language) (path : String) : List Declaration :=
  match d.readText path with
  | .ok text => Source.classes language path (String.ofList text)
  | .error _ => []

/-- The failure that a file contributes if it cannot be read as text. -/
def failureOf? (d : Disk) (path : String) : Option Failure :=
  match d.readText path with
  | .ok _ => none
  | .error cause => some ⟨path, (Error.unreadable path cause).message⟩

theorem add_eq (d : Disk) (language : Language) (total : Nat) (r : Report) (path : String) :
    Report.add d language total r path =
      { declarations := r.declarations ++ classesFrom d language path
        scanned := r.scanned + 1
        failures := r.failures ++ (failureOf? d path).toList
        progress := r.progress ++ [(r.scanned + 1, total)] } := by
  unfold Report.add classesOfFile classesFrom failureOf?
  cases d.readText path <;> simp

/-- Each file adds what it contributes, and one step of progress. -/
theorem foldl_add (d : Disk) (language : Language) (total : Nat) (paths : List String)
    (r : Report) : paths.foldl (Report.add d language total) r =
      { declarations := r.declarations ++ paths.flatMap (classesFrom d language)
        scanned := r.scanned + paths.length
        failures := r.failures ++ paths.filterMap (failureOf? d)
        progress := r.progress ++
          (List.range' (r.scanned + 1) paths.length).map (fun done => (done, total)) } := by
  induction paths generalizing r with
  | nil => simp
  | cons path paths ih =>
    have hfailures : (failureOf? d path).toList ++ paths.filterMap (failureOf? d) =
        (path :: paths).filterMap (failureOf? d) := by
      rw [List.filterMap_cons]
      cases failureOf? d path <;> rfl
    rw [List.foldl_cons, add_eq, ih, List.flatMap_cons, List.length_cons, List.range'_succ,
      ← hfailures]
    simp only [List.append_assoc, List.map_cons, List.singleton_append, Nat.add_assoc,
      Nat.add_comm 1]

/-- **The report of a survey** is what its files contribute, in their order. -/
theorem run_eq (h : files d root language options = .ok paths) :
    run d root language options = .ok
      { declarations := paths.flatMap (classesFrom d language)
        scanned := paths.length
        failures := paths.filterMap (failureOf? d)
        progress := (List.range' 1 paths.length).map (fun done => (done, paths.length)) } := by
  have hfold := foldl_add d language paths.length paths {}
  unfold run
  rw [h]
  refine (congrArg Except.ok hfold).trans ?_
  simp

/-- **Each file of a survey stands for itself.**  If the files cannot be collected, the survey fails
for that reason.  Otherwise it succeeds: each file adds its classes, or its failure if it cannot be
read, and one step of progress.  If another disk differs in the bytes of one of the files, the
survey has the same files there, and each of the others contributes the same. -/
theorem run_isolated (d : Disk) (root : String) (language : Language) (options : Options) :
    (∀ e, files d root language options = .error e → run d root language options = .error e) ∧
      ∀ paths, files d root language options = .ok paths →
        run d root language options = .ok
          { declarations := paths.flatMap (classesFrom d language)
            scanned := paths.length
            failures := paths.filterMap (failureOf? d)
            progress := (List.range' 1 paths.length).map (fun done => (done, paths.length)) } ∧
        ∀ d' path place, d.top.Regular → d'.top.Regular → path ∈ paths →
          d.resolve path = .ok place → DiffersAt place d d' →
            run d' root language options = .ok
              { declarations := paths.flatMap (classesFrom d' language)
                scanned := paths.length
                failures := paths.filterMap (failureOf? d')
                progress := (List.range' 1 paths.length).map (fun done => (done, paths.length)) } ∧
            ∀ other ∈ paths, other ≠ path →
              classesFrom d' language other = classesFrom d language other ∧
                failureOf? d' other = failureOf? d other := by
  refine ⟨fun e he => ?_, fun paths hfiles => ⟨run_eq hfiles, ?_⟩⟩
  · unfold run
    rw [he]
    rfl
  · intro d' path place htree htree' hpath hplace hdiffers
    refine ⟨run_eq (files_of_differsAt htree htree' hfiles hpath hplace hdiffers), ?_⟩
    intro other hother hne
    have htext : d'.readText other = d.readText other := by
      refine hdiffers.readText (fun hsame => hne ?_)
      -- two files of the survey that lead to one place have the same names below the folder
      obtain ⟨names, below, hroot, _, rfl, hresolve⟩ := resolve_of_mem_files htree hfiles hpath
      obtain ⟨names', below', hroot', _, rfl, hresolve'⟩ :=
        resolve_of_mem_files htree hfiles hother
      obtain rfl : names' = names := Except.ok.inj (hroot'.symm.trans hroot)
      have hboth : names' ++ below' = names' ++ below := by
        rw [hresolve'] at hsame
        rw [hresolve] at hplace
        exact (Except.ok.inj hsame).trans (Except.ok.inj hplace).symm
      rw [List.append_cancel_left hboth]
    rw [classesFrom, classesFrom, failureOf?, failureOf?, htext]
    exact ⟨rfl, rfl⟩

/-- Two files, the first of which is overwritten with what is no text. -/
theorem run_isolated_overwritten :
    let d : Disk := ⟨.folder [("proj", .folder [
      ("a.cs", .file "class A \x7b \x7d".toUTF8),
      ("b.cs", .file "class B \x7b \x7d".toUTF8)])], []⟩
    let d' : Disk := { d with top := Tree.put (.file ⟨#[0xFF]⟩) ["proj", "a.cs"] d.top }
    let paths := ["proj/a.cs", "proj/b.cs"]
    files d "proj" .csharp {} = .ok paths ∧ d.resolve "proj/a.cs" = .ok ["proj", "a.cs"] ∧
      (failureOf? d' "proj/a.cs").isSome = true ∧
      ∀ other ∈ paths, other ≠ "proj/a.cs" →
        classesFrom d' .csharp other = classesFrom d .csharp other ∧
          failureOf? d' other = failureOf? d other := by
  intro d d' paths
  have hroot : rootNames d "proj" = .ok ["proj"] := by decide +kernel
  have hfound : (walkEntries ⟨.csharp, {}, [], 1⟩ (IgnoreLayer.above d.top ["proj"]) ["proj"]
      ((d.at? ["proj"]).elim [] (·.entries))).map (fun file => Path.below "proj" (file.drop 1)) =
        paths := by
    decide +kernel
  have hsorted : Path.sort paths = paths := List.mergeSort_of_pairwise (by decide +kernel)
  have hfiles : files d "proj" .csharp {} = .ok paths := by
    rw [files_eq_sort hroot rfl rfl]
    exact congrArg Except.ok ((congrArg Path.sort hfound).trans hsorted)
  have hplace : d.resolve "proj/a.cs" = .ok ["proj", "a.cs"] := by decide +kernel
  have hfile : d.at? ["proj", "a.cs"] = some (.file "class A \x7b \x7d".toUTF8) := rfl
  have hregular : d.top.Regular := by
    refine .folder (by simp) (List.forall_mem_singleton.2 (by decide)) ?_
    refine List.forall_mem_singleton.2 (.folder (by decide) (by decide) ?_)
    exact List.forall_mem_cons.2 ⟨.file _, List.forall_mem_singleton.2 (.file _)⟩
  have hsame := (((run_isolated d "proj" .csharp {}).2 paths hfiles).2 d' "proj/a.cs" _ hregular
    (hregular.put hfile _) List.mem_cons_self hplace (differsAt_put hfile _)).2
  exact ⟨hfiles, hplace, by decide +kernel, hsame⟩

end Survey

end Lineage
