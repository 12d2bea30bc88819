import Lineage.Proofs.Walk
import Mathlib.Data.List.Infix
import Mathlib.Data.List.TakeWhile

/-!
# The files of a survey

A survey is a walk with pruning, but what it collects can be said file by file: `Collected` gives
the conditions on the names that lead from the folder to a file, and the files of a survey are
exactly the paths of the names that meet them, in ascending order (`files_spec`).
-/

namespace Lineage

/-- Whether a glob matches a path.  A text that is no glob matches none. -/
def Glob.covers (glob path : String) : Bool :=
  match parse false glob with
  | .ok tokens => isMatch (pattern false tokens) path
  | .error _ => false

theorem Language.ofExtension?_eq_some_iff {extension : String} {language : Language}
    (h : '.' ∉ extension.toList) :
    ofExtension? extension = some language ↔
      Text.asciiLower extension ∈ language.extensions := by
  have hdots : extension.toList.dropWhile (· == '.') = extension.toList := by
    rw [List.dropWhile_eq_self_iff]
    rintro hlength hdot
    exact h (beq_iff_eq.1 hdot ▸ List.getElem_mem hlength)
  unfold ofExtension?
  rw [hdots, String.ofList_toList]
  generalize Text.asciiLower extension = wanted
  constructor
  · intro hfind
    simpa using List.find?_some hfind
  · intro hmem
    cases language <;> simp only [extensions, List.mem_cons, List.not_mem_nil, or_false] at hmem
    · subst hmem
      decide
    · subst hmem
      decide
    · rcases hmem with rfl | rfl | rfl | rfl | rfl | rfl | rfl <;> decide
    · subst hmem
      decide

theorem Path.dot_not_mem_extensionOf? {name extension : String}
    (h : extensionOf? name = some extension) : '.' ∉ extension.toList := by
  have hdot : '.' ∉ (name.toList.reverse.takeWhile (· != '.')).reverse := by
    intro hmem
    simpa using List.mem_takeWhile_imp (List.mem_reverse.1 hmem)
  unfold extensionOf? at h
  dsimp only at h
  split at h
  · cases h
  · cases h
  · obtain rfl := Option.some.inj h
    rwa [String.toList_ofList]

namespace Survey

variable {d : Disk} {root : String} {language : Language} {options : Options}
  {names below : List String}

/-! ### The entries on the way to a file -/

/-- What the ignore files say about the entry that names lead to from the top: to keep it or to
leave it out. -/
def ruling? (d : Disk) (names : List String) : Option Bool :=
  IgnoreLayer.verdict? (IgnoreLayer.above d.top names.dropLast) names
    ((d.at? names).any (·.isFolder))

/-- An entry whose name starts with a dot. -/
def Hidden (names : List String) : Prop :=
  ∃ name, names.getLast? = some name ∧ name.toList.head? = some '.'

/-- An entry that a walk leaves out by itself: a hidden one, and if ignore files are obeyed also one
that they leave out; one that they keep is not left out. -/
def PassedOver (d : Disk) (options : Options) (names : List String) : Prop :=
  if options.respectIgnore then
    ruling? d names = some false ∨ ruling? d names = none ∧ Hidden names
  else Hidden names

/-- What makes the entry that the names `below` lead to from the folder `names` a file of a
survey. -/
structure Collected (d : Disk) (names : List String) (language : Language) (options : Options)
    (below : List String) : Prop where
  file : ∃ content, d.at? (names ++ below) = some (.file content)
  level : options.recursive = true ∨ below.length = 1
  extension : ∃ name ∈ below.getLast?, ∃ extension ∈ Path.extensionOf? name,
    Text.asciiLower extension ∈ language.extensions
  folders : ∀ name ∈ below.dropLast, name ∉ language.outputFolders
  excludes : ∀ part, part <+: below → part ≠ [] → ∀ glob ∈ options.excludes,
    Glob.covers glob ("/".intercalate part) = false
  seen : ∀ part, part <+: below → part ≠ [] → ¬ PassedOver d options (names ++ part)

theorem excludePatterns_cons (glob : String) (globs : List String) :
    excludePatterns (glob :: globs) =
      match Glob.parse false glob with
      | .error cause => .error (.badExclude glob cause)
      | .ok tokens => (excludePatterns globs).map (Glob.pattern false tokens :: ·) := by
  unfold excludePatterns
  rw [List.mapM_cons]
  cases Glob.parse false glob <;> rfl

theorem excludePatterns_eq {globs : List String}
    (h : ∀ glob ∈ globs, ∃ tokens, Glob.parse false glob = .ok tokens) :
    ∃ patterns, excludePatterns globs = .ok patterns ∧
      ∀ path, patterns.any (fun p => Glob.isMatch p path) =
        globs.any (fun glob => Glob.covers glob path) := by
  induction globs with
  | nil => exact ⟨[], rfl, fun _ => rfl⟩
  | cons glob globs ih =>
    obtain ⟨tokens, htokens⟩ := h glob List.mem_cons_self
    obtain ⟨patterns, hpatterns, hany⟩ := ih (fun g hg => h g (List.mem_cons_of_mem glob hg))
    refine ⟨Glob.pattern false tokens :: patterns, ?_, fun path => ?_⟩
    · rw [excludePatterns_cons, htokens, hpatterns]
      rfl
    · rw [List.any_cons, List.any_cons, hany, Glob.covers, htokens]

theorem isPassedOver_iff {f : Filter} (hf : f.options = options) (d : Disk) (names : List String) :
    f.isPassedOver (IgnoreLayer.above d.top names.dropLast) names
        ((d.at? names).any (·.isFolder)) = true ↔ PassedOver d options names := by
  have hhidden : ((names.getLast?.bind (·.toList.head?)) == some '.') = true ↔ Hidden names := by
    rw [beq_iff_eq, Option.bind_eq_some_iff]
    rfl
  unfold Filter.isPassedOver PassedOver
  rw [hf]
  split_ifs with hrespect
  · rw [← ruling?]
    cases ruling? d names with
    | none => simpa using hhidden
    | some keeps => simp
  · exact hhidden

/-- A walk looks at an entry that it does not leave out by itself, that is no output folder, and
that no glob covers. -/
theorem lets_iff {f : Filter} {t : Tree} {part : List String} {name : String}
    (hoptions : f.options = options) (hdepth : f.depth = names.length)
    (hglobs : ∀ path, f.excludes.any (fun p => Glob.isMatch p path) =
      options.excludes.any (fun glob => Glob.covers glob path))
    (hget : d.at? (names ++ part) = some t) (hlast : part.getLast? = some name) :
    f.lets d.top (names ++ part) = true ↔
      ¬ PassedOver d options (names ++ part) ∧
        (t.isFolder = true → name ∉ f.language.outputFolders) ∧
        ∀ glob ∈ options.excludes, Glob.covers glob ("/".intercalate part) = false := by
  have hpassed := isPassedOver_iff hoptions d (names ++ part)
  have hlast' : (names ++ part).getLast? = some name := by
    rw [List.getLast?_append, hlast]
    rfl
  have hdrop : (names ++ part).drop f.depth = part := by
    rw [hdepth, List.drop_left]
  rw [hget, Option.any_some] at hpassed
  have hlets : f.lets d.top (names ++ part) =
      f.admits (IgnoreLayer.above d.top (names ++ part).dropLast) (names ++ part) t.isFolder := by
    rw [Filter.lets, ← Disk.at?, hget, Option.any_some]
  rw [hlets, Filter.admits, Bool.and_eq_true, Bool.not_eq_true', ← Bool.not_eq_true, hpassed,
    Filter.isExcluded, hlast', hdrop]
  cases t.isFolder <;> simp [hglobs]

/-! ### The folders on the way to a file -/

theorem exists_get?_of_isPrefix {t : Tree} {content : ByteArray} {part : List String}
    (hget : t.get? below = some (.file content)) (hpart : part <+: below) :
    ∃ t', t.get? part = some t' ∧ (t'.isFolder = true ↔ part ≠ below) := by
  obtain ⟨rest, rfl⟩ := hpart
  rw [Tree.get?_append, Option.bind_eq_some_iff] at hget
  obtain ⟨t', ht', hrest⟩ := hget
  refine ⟨t', ht', ?_⟩
  cases rest with
  | nil =>
    rw [Tree.get?_nil] at hrest
    obtain rfl := Option.some.inj hrest
    simp [Tree.isFolder]
  | cons name rest =>
    cases t' with
    | file _ =>
      rw [Tree.get?_file_cons] at hrest
      cases hrest
    | folder _ => simp [Tree.isFolder]

theorem forall_mem_dropLast_iff {P : String → Prop} :
    (∀ name ∈ below.dropLast, P name) ↔
      ∀ part name, part <+: below → part ≠ below → part.getLast? = some name → P name := by
  constructor
  · rintro h part name ⟨rest, rfl⟩ hne hlast
    have hrest : rest ≠ [] := by
      rintro rfl
      exact hne (List.append_nil part).symm
    refine h name ?_
    rw [List.dropLast_append_of_ne_nil hrest]
    exact List.mem_append_left _ (List.mem_of_getLast? hlast)
  · intro h name hname
    obtain ⟨start, rest, hsplit⟩ := List.append_of_mem hname
    have hunder : start ++ [name] <+: below.dropLast := ⟨rest, by rw [hsplit]; simp⟩
    refine h (start ++ [name]) name (hunder.trans (List.dropLast_prefix below)) ?_
      List.getLast?_concat
    rintro heq
    have hle := hunder.length_le
    have hpos : 0 < below.length := by rw [← heq]; simp
    rw [heq, List.length_dropLast] at hle
    omega

/-! ### The files of a survey -/

theorem isSource_iff {f : Filter} {name : String} :
    f.isSource name = true ↔ ∃ extension ∈ Path.extensionOf? name,
      Text.asciiLower extension ∈ f.language.extensions := by
  rw [Filter.isSource, beq_iff_eq, Option.bind_eq_some_iff]
  refine exists_congr (fun extension => and_congr_right (fun hextension => ?_))
  exact Language.ofExtension?_eq_some_iff (Path.dot_not_mem_extensionOf? hextension)

/-- **What a walk asks of the entries on the way** to a file comes to the conditions on the file. -/
theorem collected_iff {f : Filter} (hlanguage : f.language = language)
    (hoptions : f.options = options) (hdepth : f.depth = names.length)
    (hglobs : ∀ path, f.excludes.any (fun p => Glob.isMatch p path) =
      options.excludes.any (fun glob => Glob.covers glob path))
    (hne : below ≠ []) :
    ((∃ content, d.at? (names ++ below) = some (.file content)) ∧
        (below.length = 1 ∨ f.options.recursive = true) ∧
        f.isSource (below.getLastD "") = true ∧
        ∀ part, part <+: below → part ≠ [] → f.lets d.top (names ++ part) = true) ↔
      Collected d names language options below := by
  have hgetLast : ∀ part : List String, part ≠ [] → ∃ name, part.getLast? = some name :=
    fun part hpart => ⟨part.getLast hpart, List.getLast?_eq_some_getLast hpart⟩
  obtain ⟨last, hlast⟩ := hgetLast below hne
  have hlets : ∀ content, d.at? (names ++ below) = some (.file content) →
      ∀ part, part <+: below → ∀ name, part.getLast? = some name →
        (f.lets d.top (names ++ part) = true ↔ ¬ PassedOver d options (names ++ part) ∧
          (part ≠ below → name ∉ language.outputFolders) ∧
          ∀ glob ∈ options.excludes, Glob.covers glob ("/".intercalate part) = false) := by
    intro content hcontent part hpart name hname
    -- there is an entry on the way, and it is a folder unless it is the file itself
    rw [Disk.at?, Tree.get?_append, Option.bind_eq_some_iff] at hcontent
    obtain ⟨folder, hfolder, hcontent⟩ := hcontent
    obtain ⟨t, ht, hkind⟩ := exists_get?_of_isPrefix hcontent hpart
    have hget : d.at? (names ++ part) = some t := by
      rw [Disk.at?, Tree.get?_append, hfolder]
      exact ht
    rw [lets_iff hoptions hdepth hglobs hget hname, hkind, hlanguage]
  have hlastD : below.getLastD "" = last := by
    rw [List.getLastD_eq_getLast?, hlast]
    rfl
  rw [isSource_iff, hlanguage, hoptions, hlastD]
  constructor
  · rintro ⟨⟨content, hcontent⟩, hlevel, hextension, hway⟩
    have hall := fun part hpart hname name hlast =>
      (hlets content hcontent part hpart name hlast).1 (hway part hpart hname)
    refine ⟨⟨content, hcontent⟩, hlevel.symm, ⟨last, hlast, hextension⟩, ?_, ?_, ?_⟩
    · refine forall_mem_dropLast_iff.2 (fun part name hpart hproper hname => ?_)
      have hpart' : part ≠ [] := by
        rintro rfl
        cases hname
      exact (hall part hpart hpart' name hname).2.1 hproper
    · intro part hpart hpart'
      obtain ⟨name, hname⟩ := hgetLast part hpart'
      exact (hall part hpart hpart' name hname).2.2
    · intro part hpart hpart'
      obtain ⟨name, hname⟩ := hgetLast part hpart'
      exact (hall part hpart hpart' name hname).1
  · rintro ⟨⟨content, hcontent⟩, hlevel, ⟨name, hname, hextension⟩, hfolders, hexcludes, hseen⟩
    obtain rfl : last = name := Option.some.inj (hlast.symm.trans hname)
    refine ⟨⟨content, hcontent⟩, hlevel.symm, hextension, fun part hpart hpart' => ?_⟩
    obtain ⟨name, hname⟩ := hgetLast part hpart'
    refine (hlets content hcontent part hpart name hname).2
      ⟨hseen part hpart hpart', fun hproper => ?_, hexcludes part hpart hpart'⟩
    exact forall_mem_dropLast_iff.1 hfolders part name hpart hproper hname

theorem Collected.ne_nil (h : Collected d names language options below) : below ≠ [] := by
  obtain ⟨name, hname, _⟩ := h.extension
  rintro rfl
  cases hname

theorem rootNames_eq_ok (h : rootNames d root = .ok names) :
    d.resolve root = .ok names ∧ ∃ entries, d.at? names = some (.folder entries) := by
  unfold rootNames at h
  split at h
  · cases h
  · split at h
    · obtain rfl := Except.ok.inj h
      exact ⟨‹_›, _, ‹_›⟩
    · cases h

theorem isEmpty_of_resolve {path : String} (h : d.resolve path = .ok names) :
    path.isEmpty = false := by
  by_contra hempty
  rw [Bool.not_eq_false] at hempty
  unfold Disk.resolve at h
  rw [if_pos hempty] at h
  cases h

theorem Collected.isName (h : Collected d names language options below) (htree : d.top.Regular) :
    ∀ name ∈ below, Path.IsName name := by
  obtain ⟨content, hcontent⟩ := h.file
  exact fun name hname => (htree.get? hcontent).2 name (List.mem_append_right names hname)

section Files

variable {entries : List (String × Tree)} {patterns : List Pattern}

theorem files_eq_sort (hroot : rootNames d root = .ok names)
    (hentries : d.at? names = some (.folder entries))
    (hpatterns : excludePatterns options.excludes = .ok patterns) :
    files d root language options = .ok (Path.sort
      ((walkEntries ⟨language, options, patterns, names.length⟩ (IgnoreLayer.above d.top names)
        names entries).map (fun file => Path.below root (file.drop names.length)))) := by
  unfold files
  rw [hroot, hpatterns]
  simp only [Except.bind, bind, pure, Except.pure, hentries, Option.map_some, Option.getD_some]
  rfl

theorem mem_walkEntries_iff_collected (htree : d.top.Regular)
    (hentries : d.at? names = some (.folder entries))
    (hany : ∀ path, patterns.any (fun p => Glob.isMatch p path) =
      options.excludes.any (fun glob => Glob.covers glob path))
    (language : Language) (file : List String) :
    file ∈ walkEntries ⟨language, options, patterns, names.length⟩ (IgnoreLayer.above d.top names)
        names entries ↔
      ∃ below, file = names ++ below ∧ Collected d names language options below := by
  rw [mem_walkEntries_iff (htree.get? hentries).1 hentries]
  refine exists_congr (fun below => and_congr_right (fun _ => ?_))
  by_cases hne : below = []
  · subst hne
    constructor
    · rintro ⟨⟨content, hcontent⟩, _⟩
      rw [List.append_nil, ← Disk.at?, hentries] at hcontent
      cases hcontent
    · exact fun h => absurd rfl h.ne_nil
  · exact collected_iff rfl rfl rfl hany hne

end Files

/-- **The files of a survey** are the paths of the names that are collected, in ascending order. -/
theorem files_spec (htree : d.top.Regular) (hroot : rootNames d root = .ok names)
    (hglobs : ∀ glob ∈ options.excludes, ∃ tokens, Glob.parse false glob = .ok tokens)
    (language : Language) :
    ∃ paths, files d root language options = .ok paths ∧
      paths.Pairwise (fun p q => Path.precedes p q = true) ∧
      ∀ path, path ∈ paths ↔
        ∃ below, Collected d names language options below ∧ path = Path.below root below := by
  obtain ⟨hresolve, entries, hentries⟩ := rootNames_eq_ok hroot
  obtain ⟨patterns, hpatterns, hany⟩ := excludePatterns_eq hglobs
  have hempty := isEmpty_of_resolve hresolve
  have hmem := mem_walkEntries_iff_collected htree hentries hany language
  refine ⟨_, files_eq_sort hroot hentries hpatterns, Path.pairwise_sort ?_, fun path => ?_⟩
  · -- different files have different paths, so none precedes itself
    rw [List.pairwise_map]
    refine (nodup_walkEntries (htree.get? hentries).1 _ _).imp_of_mem
      (fun {file other} hfile hother hne heq => ?_)
    obtain ⟨below, rfl, hbelow⟩ := (hmem file).1 hfile
    obtain ⟨below', rfl, hbelow'⟩ := (hmem other).1 hother
    rw [List.drop_left, List.drop_left, Path.components_below hempty (hbelow.isName htree),
      Path.components_below hempty (hbelow'.isName htree)] at heq
    have hsame : below = below' :=
      List.map_injective_iff.2 (fun _ _ hab => Component.name.inj hab) (List.append_cancel_left heq)
    exact hne (by rw [hsame])
  · rw [Path.sort, List.mem_mergeSort, List.mem_map]
    constructor
    · rintro ⟨file, hfile, rfl⟩
      obtain ⟨below, rfl, hbelow⟩ := (hmem file).1 hfile
      exact ⟨below, hbelow, by rw [List.drop_left]⟩
    · rintro ⟨below, hbelow, rfl⟩
      exact ⟨names ++ below, (hmem _).2 ⟨below, rfl, hbelow⟩, by rw [List.drop_left]⟩

/-- Whether a glob covers a path or one of the folders on the way to it. -/
def touches (globs below : List String) : Bool :=
  below.inits.any (fun part =>
    !part.isEmpty && globs.any (fun glob => Glob.covers glob ("/".intercalate part)))

theorem touches_eq_false_iff {globs : List String} :
    touches globs below = false ↔ ∀ part, part <+: below → part ≠ [] → ∀ glob ∈ globs,
      Glob.covers glob ("/".intercalate part) = false := by
  simp [touches, List.any_eq_false]

theorem collected_exclude_iff {more : List String} :
    Collected d names language { options with excludes := options.excludes ++ more } below ↔
      Collected d names language options below ∧ touches more below = false := by
  rw [touches_eq_false_iff]
  constructor
  · rintro ⟨hfile, hlevel, hextension, hfolders, hexcludes, hseen⟩
    refine ⟨⟨hfile, hlevel, hextension, hfolders, fun part hpart hne glob hglob => ?_, hseen⟩,
      fun part hpart hne glob hglob => ?_⟩
    · exact hexcludes part hpart hne glob (List.mem_append_left _ hglob)
    · exact hexcludes part hpart hne glob (List.mem_append_right _ hglob)
  · rintro ⟨⟨hfile, hlevel, hextension, hfolders, hexcludes, hseen⟩, hmore⟩
    refine ⟨hfile, hlevel, hextension, hfolders, fun part hpart hne glob hglob => ?_, hseen⟩
    rcases List.mem_append.1 hglob with hglob | hglob
    · exact hexcludes part hpart hne glob hglob
    · exact hmore part hpart hne glob hglob

theorem collected_flat_iff :
    Collected d names language { options with recursive := false } below ↔
      Collected d names language options below ∧ below.length = 1 := by
  constructor
  · rintro ⟨hfile, hlevel, hextension, hfolders, hexcludes, hseen⟩
    have hlength : below.length = 1 := hlevel.resolve_left Bool.false_ne_true
    exact ⟨⟨hfile, Or.inr hlength, hextension, hfolders, hexcludes, hseen⟩, hlength⟩
  · rintro ⟨⟨hfile, _, hextension, hfolders, hexcludes, hseen⟩, hlength⟩
    exact ⟨hfile, Or.inr hlength, hextension, hfolders, hexcludes, hseen⟩

/-- Options that ask for more of each file leave the files that meet what they ask for. -/
theorem files_eq_filter {options' : Options} {paths : List String} (keeps : List String → Bool)
    (htree : d.top.Regular) (hroot : rootNames d root = .ok names)
    (hglobs : ∀ glob ∈ options'.excludes, ∃ tokens, Glob.parse false glob = .ok tokens)
    (hpaths : paths.Pairwise (fun p q => Path.precedes p q = true))
    (hmem : ∀ path, path ∈ paths ↔
      ∃ below, Collected d names language options below ∧ path = Path.below root below)
    (hkeeps : ∀ below, Collected d names language options' below ↔
      Collected d names language options below ∧ keeps below = true) :
    files d root language options' =
      .ok (paths.filter (fun path => keeps (Path.namesBelow root path))) := by
  obtain ⟨paths', hfiles, hpaths', hmem'⟩ := files_spec htree hroot hglobs language
  have hempty := isEmpty_of_resolve (rootNames_eq_ok hroot).1
  rw [hfiles]
  congr 1
  refine Path.eq_of_pairwise_precedes hpaths' (hpaths.filter _) (fun path => ?_)
  rw [hmem', List.mem_filter, hmem]
  constructor
  · rintro ⟨below, hbelow, rfl⟩
    obtain ⟨hcollected, hkept⟩ := (hkeeps below).1 hbelow
    rw [Path.namesBelow_below hempty (hcollected.isName htree)]
    exact ⟨⟨below, hcollected, rfl⟩, hkept⟩
  · rintro ⟨⟨below, hcollected, rfl⟩, hkept⟩
    rw [Path.namesBelow_below hempty (hcollected.isName htree)] at hkept
    exact ⟨below, (hkeeps below).2 ⟨hcollected, hkept⟩, rfl⟩

/-- **Collecting is a filter on whole paths.**  The files of a survey ascend by components and are
exactly the files that are collected; more globs leave the files that none of them touches, and
without the folders below the files right in the folder are left. -/
theorem files_collected (htree : d.top.Regular) (hroot : rootNames d root = .ok names)
    (hglobs : ∀ glob ∈ options.excludes, ∃ tokens, Glob.parse false glob = .ok tokens)
    (language : Language) :
    ∃ paths, files d root language options = .ok paths ∧
      paths.Pairwise (fun p q => Path.precedes p q = true) ∧
      (∀ path, path ∈ paths ↔
        ∃ below, Collected d names language options below ∧ path = Path.below root below) ∧
      (∀ more : List String, (∀ glob ∈ more, ∃ tokens, Glob.parse false glob = .ok tokens) →
        files d root language { options with excludes := options.excludes ++ more } =
          .ok (paths.filter (fun path => !touches more (Path.namesBelow root path)))) ∧
      files d root language { options with recursive := false } =
        .ok (paths.filter (fun path => (Path.namesBelow root path).length == 1)) := by
  obtain ⟨paths, hfiles, hpaths, hmem⟩ := files_spec htree hroot hglobs language
  refine ⟨paths, hfiles, hpaths, hmem, fun more hmore => ?_, ?_⟩
  · refine files_eq_filter (fun below => !touches more below) htree hroot
      (fun glob hglob => ?_) hpaths hmem (fun below => ?_)
    · rcases List.mem_append.1 hglob with hglob | hglob
      · exact hglobs glob hglob
      · exact hmore glob hglob
    · rw [collected_exclude_iff, Bool.not_eq_true']
  · refine files_eq_filter (fun below => below.length == 1) htree hroot hglobs hpaths hmem
      (fun below => ?_)
    rw [collected_flat_iff, beq_iff_eq]

/-- A folder with an ignore file that keeps a hidden folder, and an output folder. -/
theorem files_collected_hiddenKept :
    let d : Disk := ⟨.folder [("proj", .folder [
      (".gitignore", .file "!.kept".toUTF8),
      (".kept", .folder [("a.cs", .file "class A \x7b \x7d".toUTF8)]),
      ("obj", .folder [("b.cs", .file "class B \x7b \x7d".toUTF8)])])], []⟩
    let options : Options := { excludes := ["*.g.cs"] }
    rootNames d "proj" = .ok ["proj"] ∧ files d "proj" .csharp options = .ok ["proj/.kept/a.cs"] ∧
      ∃ paths, files d "proj" .csharp options = .ok paths ∧
        paths.Pairwise (fun p q => Path.precedes p q = true) ∧
        (∀ path, path ∈ paths ↔
          ∃ below, Collected d ["proj"] .csharp options below ∧ path = Path.below "proj" below) ∧
        files d "proj" .csharp { options with recursive := false } =
          .ok (paths.filter (fun path => (Path.namesBelow "proj" path).length == 1)) := by
  intro d options
  have hroot : rootNames d "proj" = .ok ["proj"] := by decide +kernel
  have hone : ∀ name content, Path.IsName name → (Tree.folder [(name, .file content)]).Regular :=
    fun name content hname => .folder (by simp)
      (List.forall_mem_singleton.2 hname) (List.forall_mem_singleton.2 (.file content))
  have hproj : (Tree.folder d.top.entries).Regular := by
    refine .folder (by simp [d, Tree.entries]) (List.forall_mem_singleton.2 (by decide)) ?_
    refine List.forall_mem_singleton.2 (.folder (by decide) (by decide) ?_)
    rw [List.forall_mem_cons, List.forall_mem_cons, List.forall_mem_singleton]
    exact ⟨.file _, hone "a.cs" _ (by decide), hone "b.cs" _ (by decide)⟩
  have hglobs : ∀ glob ∈ options.excludes, ∃ tokens, Glob.parse false glob = .ok tokens :=
    List.forall_mem_singleton.2 ⟨_, rfl⟩
  obtain ⟨paths, hfiles, hpaths, hmem, _, hflat⟩ := files_collected hproj hroot hglobs .csharp
  have hfound : (walkEntries ⟨.csharp, options, [Glob.pattern false [.anyRun, .literal '.',
        .literal 'g', .literal '.', .literal 'c', .literal 's']], 1⟩
      (IgnoreLayer.above d.top ["proj"]) ["proj"] ((d.at? ["proj"]).elim [] (·.entries))).map
        (fun file => Path.below "proj" (file.drop 1)) = ["proj/.kept/a.cs"] := by
    decide +kernel
  refine ⟨hroot, ?_, paths, hfiles, hpaths, hmem, hflat⟩
  rw [files_eq_sort hroot rfl rfl]
  exact congrArg Except.ok ((congrArg Path.sort hfound).trans (List.mergeSort_singleton _))

end Survey

end Lineage
