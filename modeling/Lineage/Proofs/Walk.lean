import Lineage.Files.Survey
import Lineage.Proofs.Paths

/-!
# Walks through a folder

A walk passes over an entry together with all that is below it.  Said of one file: it is found if
and only if the filter lets each entry on the way to it pass (`mem_walkEntry_iff`,
`mem_walkEntries_iff`).  Along the way the walk collects the rules of the folders it enters; these
are the rules of all folders from the top down (`above_concat`).
-/

namespace Lineage

namespace Tree

variable {t : Tree} {names : List String} {name : String} {entries : List (String × Tree)}

/-- A tree whose folders have entries of pairwise different names, each of them a name. -/
inductive Regular : Tree → Prop where
  | file (content : ByteArray) : Regular (.file content)
  | folder {entries : List (String × Tree)} (nodup : (entries.map (·.1)).Nodup)
      (isName : ∀ entry ∈ entries, Path.IsName entry.1)
      (regular : ∀ entry ∈ entries, Regular entry.2) : Regular (.folder entries)

theorem lookup_of_mem (hnodup : (entries.map (·.1)).Nodup) (hmem : (name, t) ∈ entries) :
    entries.lookup name = some t := by
  induction entries with
  | nil => cases hmem
  | cons entry entries ih =>
    rw [List.map_cons, List.nodup_cons] at hnodup
    rw [List.lookup_cons]
    rcases List.mem_cons.1 hmem with rfl | hmem
    · simp
    · have hne : (name == entry.1) = false := by
        rw [beq_eq_false_iff_ne]
        intro heq
        exact hnodup.1 (List.mem_map.2 ⟨_, hmem, heq⟩)
      rw [hne]
      exact ih hnodup.2 hmem

theorem mem_of_lookup (h : entries.lookup name = some t) : (name, t) ∈ entries := by
  obtain ⟨before, after, rfl, _⟩ := List.lookup_eq_some_iff.1 h
  simp

@[simp]
theorem get?_nil (t : Tree) : t.get? [] = some t := by
  rw [get?]

theorem get?_cons (t : Tree) (name : String) (names : List String) :
    t.get? (name :: names) = (t.child? name).bind (·.get? names) := by
  rw [get?]
  cases t.child? name <;> rfl

theorem get?_append (t : Tree) (names more : List String) :
    t.get? (names ++ more) = (t.get? names).bind (·.get? more) := by
  induction names generalizing t with
  | nil => simp
  | cons name names ih =>
    rw [List.cons_append, get?_cons, get?_cons, Option.bind_assoc]
    congr 1
    funext below
    exact ih below

theorem get?_file_cons (content : ByteArray) (name : String) (names : List String) :
    (Tree.file content).get? (name :: names) = none := by
  rw [get?_cons]
  rfl

theorem get?_folder_cons (entries : List (String × Tree)) (name : String) (names : List String) :
    (Tree.folder entries).get? (name :: names) = (entries.lookup name).bind (·.get? names) :=
  get?_cons _ _ _

theorem get?_concat (h : t.get? names = some (.folder entries)) (name : String) :
    t.get? (names ++ [name]) = entries.lookup name := by
  rw [get?_append, h, Option.bind_some, get?_folder_cons]
  simp

theorem Regular.lookup {below : Tree} (h : (Tree.folder entries).Regular)
    (hlookup : entries.lookup name = some below) : below.Regular := by
  cases h with
  | folder _ _ regular => exact regular _ (mem_of_lookup hlookup)

theorem Regular.get? {t' : Tree} (h : t.Regular) (hget : t.get? names = some t') :
    t'.Regular ∧ ∀ name ∈ names, Path.IsName name := by
  induction names generalizing t with
  | nil =>
    rw [get?_nil] at hget
    obtain rfl := Option.some.inj hget
    exact ⟨h, by simp⟩
  | cons name names ih =>
    rw [get?_cons, Option.bind_eq_some_iff] at hget
    obtain ⟨below, hbelow, hget⟩ := hget
    cases h with
    | file content => cases hbelow
    | folder _ isName regular =>
      have hmem := mem_of_lookup hbelow
      obtain ⟨ht', hnames⟩ := ih (regular _ hmem) hget
      exact ⟨ht', List.forall_mem_cons.2 ⟨isName _ hmem, hnames⟩⟩

end Tree

/-- The rules above an entry are those of its folder and those above the folder. -/
theorem IgnoreLayer.above_concat {top t : Tree} {names : List String} {name : String}
    (h : top.get? (names ++ [name]) = some t) :
    above top (names ++ [name]) = ofFolder (names.length + 1) t :: above top names := by
  have hbefore : (List.range (names.length + 1)).filterMap (fun depth =>
        (top.get? ((names ++ [name]).take depth)).map (ofFolder depth)) =
      (List.range (names.length + 1)).filterMap (fun depth =>
        (top.get? (names.take depth)).map (ofFolder depth)) := by
    refine List.filterMap_congr (fun depth hdepth => ?_)
    rw [List.mem_range] at hdepth
    rw [List.take_append_of_le_length (by omega)]
  have hlast : (names ++ [name]).take (names.length + 1) = names ++ [name] :=
    List.take_of_length_le (by simp)
  unfold above
  rw [List.length_append, List.length_singleton, List.range_succ, List.filterMap_append, hbefore,
    List.reverse_append]
  simp [hlast, h]

namespace Survey

variable {f : Filter} {layers : List IgnoreLayer} {top t : Tree} {names below file : List String}
  {entries : List (String × Tree)}

/-! ### What a walk finds -/

theorem mem_walkEntries : file ∈ walkEntries f layers names entries ↔
    ∃ entry ∈ entries, file ∈ walkEntry f layers (names ++ [entry.1]) entry.2 := by
  induction entries with
  | nil => simp [walkEntries]
  | cons entry entries ih => rw [walkEntries, List.mem_append, ih, List.exists_mem_cons_iff]

theorem walkEntry_file (content : ByteArray) :
    walkEntry f layers names (.file content) =
      if f.admits layers names false && f.isSource (names.getLastD "") then [names] else [] := by
  rw [walkEntry]

theorem walkEntry_folder (entries : List (String × Tree)) :
    walkEntry f layers names (.folder entries) =
      if f.options.recursive && f.admits layers names true then
        walkEntries f (IgnoreLayer.ofFolder names.length (.folder entries) :: layers) names entries
      else [] := by
  rw [walkEntry]

/-- What is found at or below an entry has its names first. -/
theorem isPrefix_of_mem_walkEntry (ht : t.Regular) (hfile : file ∈ walkEntry f layers names t) :
    names <+: file := by
  induction ht generalizing layers names with
  | file content =>
    rw [walkEntry_file, List.mem_ite_nil_right, List.mem_singleton] at hfile
    exact hfile.2 ▸ List.prefix_rfl
  | folder _ _ _ ih =>
    rw [walkEntry_folder, List.mem_ite_nil_right] at hfile
    obtain ⟨entry, hentry, hfile⟩ := mem_walkEntries.1 hfile.2
    exact (List.prefix_append _ _).trans (ih entry hentry hfile)

/-- Nothing is found twice: what is found in two entries starts with different names. -/
theorem nodup_walkEntries_of_entries (layers : List IgnoreLayer) (names : List String)
    (nodup : (entries.map (·.1)).Nodup) (regular : ∀ entry ∈ entries, entry.2.Regular)
    (h : ∀ entry ∈ entries, (walkEntry f layers (names ++ [entry.1]) entry.2).Nodup) :
    (walkEntries f layers names entries).Nodup := by
  induction entries with
  | nil => simp [walkEntries]
  | cons entry entries ih =>
    rw [List.map_cons, List.nodup_cons] at nodup
    rw [List.forall_mem_cons] at h regular
    rw [walkEntries, List.nodup_append]
    refine ⟨h.1, ih nodup.2 regular.2 h.2, ?_⟩
    rintro file hfile _ hother rfl
    obtain ⟨entry', hentry', hother⟩ := mem_walkEntries.1 hother
    have hunder := isPrefix_of_mem_walkEntry regular.1 hfile
    have hunder' := isPrefix_of_mem_walkEntry (regular.2 entry' hentry') hother
    have hsame : names ++ [entry.1] = names ++ [entry'.1] :=
      (List.prefix_of_prefix_length_le hunder hunder' (by simp)).eq_of_length (by simp)
    have hname : entry.1 = entry'.1 := by simpa using hsame
    exact nodup.1 (hname ▸ List.mem_map_of_mem hentry')

theorem nodup_walkEntry (ht : t.Regular) (layers : List IgnoreLayer) (names : List String) :
    (walkEntry f layers names t).Nodup := by
  induction ht generalizing layers names with
  | file content =>
    rw [walkEntry_file]
    split_ifs <;> simp
  | folder nodup _ regular ih =>
    rw [walkEntry_folder]
    split_ifs
    · exact nodup_walkEntries_of_entries _ _ nodup regular (fun entry hentry => ih entry hentry _ _)
    · exact List.nodup_nil

theorem nodup_walkEntries (ht : (Tree.folder entries).Regular) (layers : List IgnoreLayer)
    (names : List String) : (walkEntries f layers names entries).Nodup := by
  cases ht with
  | folder nodup _ regular =>
    exact nodup_walkEntries_of_entries _ _ nodup regular
      (fun entry hentry => nodup_walkEntry (regular entry hentry) _ _)

theorem mem_walkEntries_cons {name : String} (ht : (Tree.folder entries).Regular) :
    names ++ name :: below ∈ walkEntries f layers names entries ↔
      ∃ t, entries.lookup name = some t ∧
        names ++ name :: below ∈ walkEntry f layers (names ++ [name]) t := by
  cases ht with
  | folder nodup isName regular =>
    rw [mem_walkEntries]
    constructor
    · rintro ⟨⟨name', t⟩, hentry, hmem⟩
      have hunder : names ++ [name'] <+: names ++ name :: below :=
        isPrefix_of_mem_walkEntry (regular _ hentry) hmem
      obtain rfl : name' = name := by simpa using hunder
      exact ⟨t, Tree.lookup_of_mem nodup hentry, hmem⟩
    · rintro ⟨t, hlookup, hmem⟩
      exact ⟨(name, t), Tree.mem_of_lookup hlookup, hmem⟩

/-- Whether a walk looks at the entry that names lead to from the top. -/
def Filter.lets (f : Filter) (top : Tree) (names : List String) : Bool :=
  (top.get? names).any (fun t => f.admits (IgnoreLayer.above top names.dropLast) names t.isFolder)

theorem forall_prefix_cons_iff {P : List String → Prop} {name : String} :
    (∀ part, part <+: name :: below → P part) ↔
      P [] ∧ ∀ part, part <+: below → P (name :: part) := by
  simp only [List.prefix_cons_iff]
  constructor
  · intro h
    exact ⟨h [] (Or.inl rfl), fun part hpart => h _ (Or.inr ⟨part, rfl, hpart⟩)⟩
  · rintro ⟨hnil, hcons⟩ part (rfl | ⟨part, rfl, hpart⟩)
    · exact hnil
    · exact hcons part hpart

theorem getLastD_append_cons (names below : List String) (name other : String) :
    (names ++ name :: below).getLastD other = (name :: below).getLastD other := by
  rw [List.getLastD_eq_getLast?, List.getLastD_eq_getLast?, List.getLast?_append]
  cases h : (name :: below).getLast? with
  | none => cases List.getLast?_eq_none_iff.1 h
  | some last => rfl

/-- What is found below a folder is not the folder itself. -/
theorem not_mem_walkEntry_folder (ht : (Tree.folder entries).Regular) :
    names ∉ walkEntry f layers names (.folder entries) := by
  rw [walkEntry_folder, List.mem_ite_nil_right]
  rintro ⟨_, hmem⟩
  obtain ⟨entry, hentry, hmem⟩ := mem_walkEntries.1 hmem
  cases ht with
  | folder _ _ regular =>
    have hle := (isPrefix_of_mem_walkEntry (regular entry hentry) hmem).length_le
    rw [List.length_append, List.length_singleton] at hle
    omega

/-- A walk that enters a folder goes on with the layers that stand above its entries. -/
theorem ofFolder_cons_above (hnames : names ≠ [])
    (hget : top.get? names = some (.folder entries)) (name : String) :
    IgnoreLayer.ofFolder names.length (.folder entries) :: IgnoreLayer.above top names.dropLast =
      IgnoreLayer.above top (names ++ [name]).dropLast := by
  have hconcat := List.dropLast_append_getLast hnames
  have habove := IgnoreLayer.above_concat (hconcat.symm ▸ hget)
  rw [hconcat] at habove
  rw [List.dropLast_concat, habove, List.length_dropLast,
    Nat.sub_add_cancel (List.length_pos_iff.2 hnames)]

/-- **A walk finds a file at or below an entry** exactly if it looks at each entry on the way. -/
theorem mem_walkEntry_iff (ht : t.Regular) (hnames : names ≠ []) (hget : top.get? names = some t)
    (below : List String) :
    names ++ below ∈ walkEntry f (IgnoreLayer.above top names.dropLast) names t ↔
      (∃ content, t.get? below = some (.file content)) ∧
        (below = [] ∨ f.options.recursive = true) ∧
        f.isSource ((names ++ below).getLastD "") = true ∧
        ∀ part, part <+: below → f.lets top (names ++ part) = true := by
  -- along the names below the entry, for all entries at once
  induction below generalizing names t with
  | nil =>
    cases t with
    | file content =>
      simp [walkEntry_file, Filter.lets, hget, Tree.isFolder, and_comm]
    | folder entries =>
      simp [not_mem_walkEntry_folder ht]
  | cons name below ih =>
    cases t with
    | file content =>
      have hne : names ++ name :: below ≠ names := by simp
      rw [walkEntry_file, Tree.get?_file_cons]
      split_ifs <;> simp [hne]
    | folder entries =>
      have hlets : f.lets top names =
          f.admits (IgnoreLayer.above top names.dropLast) names true := by
        rw [Filter.lets, hget]
        rfl
      rw [walkEntry_folder, ofFolder_cons_above hnames hget name, forall_prefix_cons_iff,
        List.append_nil, hlets, Tree.get?_folder_cons]
      -- either the walk enters the folder, or its own condition is one that fails
      by_cases hadmits : (f.options.recursive &&
          f.admits (IgnoreLayer.above top names.dropLast) names true) = true
      · rw [if_pos hadmits, mem_walkEntries_cons ht]
        rw [Bool.and_eq_true] at hadmits
        cases hlookup : entries.lookup name with
        | none => simp
        | some t =>
          have hnext := ih (ht.lookup hlookup) (List.concat_ne_nil name names)
            (by rw [Tree.get?_concat hget, hlookup])
          simp only [List.append_assoc, List.singleton_append] at hnext
          simp only [Option.some.injEq, exists_eq_left', hnext, Option.bind_some, hadmits, or_true,
            true_and]
      · rw [if_neg hadmits]
        rw [Bool.and_eq_true, not_and] at hadmits
        simp only [List.not_mem_nil, false_iff, not_and]
        intro _ hrecursive _ hadmit
        exact absurd hadmit (hadmits (by simpa using hrecursive))

/-- **A walk finds a file below a folder** exactly if it looks at each entry on the way; the folder
itself is not asked about. -/
theorem mem_walkEntries_iff (ht : (Tree.folder entries).Regular)
    (hget : top.get? names = some (.folder entries)) :
    file ∈ walkEntries f (IgnoreLayer.above top names) names entries ↔
      ∃ below, file = names ++ below ∧
        (∃ content, top.get? (names ++ below) = some (.file content)) ∧
        (below.length = 1 ∨ f.options.recursive = true) ∧
        f.isSource (below.getLastD "") = true ∧
        ∀ part, part <+: below → part ≠ [] → f.lets top (names ++ part) = true := by
  have hcons : ∀ name below, names ++ name :: below ∈
      walkEntries f (IgnoreLayer.above top names) names entries ↔
        (∃ content, top.get? (names ++ name :: below) = some (.file content)) ∧
        ((name :: below).length = 1 ∨ f.options.recursive = true) ∧
        f.isSource ((name :: below).getLastD "") = true ∧
        ∀ part, part <+: name :: below → part ≠ [] → f.lets top (names ++ part) = true := by
    intro name below
    rw [mem_walkEntries_cons ht, forall_prefix_cons_iff, Tree.get?_append, hget, Option.bind_some,
      Tree.get?_folder_cons]
    cases hlookup : entries.lookup name with
    | none => simp
    | some t =>
      have hentry := mem_walkEntry_iff (f := f) (ht.lookup hlookup)
        (List.concat_ne_nil name names) (by rw [Tree.get?_concat hget, hlookup]) below
      rw [List.dropLast_concat] at hentry
      simp only [List.append_assoc, List.singleton_append, getLastD_append_cons] at hentry
      simp [hentry]
  constructor
  · intro hfile
    obtain ⟨entry, hentry, hmem⟩ := mem_walkEntries.1 hfile
    cases ht with
    | folder nodup isName regular =>
      obtain ⟨more, rfl⟩ := isPrefix_of_mem_walkEntry (regular entry hentry) hmem
      rw [List.append_assoc, List.singleton_append] at hfile ⊢
      exact ⟨entry.1 :: more, rfl, (hcons _ _).1 hfile⟩
  · rintro ⟨below, rfl, hbelow⟩
    cases below with
    | nil =>
      rw [List.append_nil, hget] at hbelow
      obtain ⟨⟨content, hcontent⟩, _⟩ := hbelow
      cases hcontent
    | cons name below => exact (hcons name below).2 hbelow

end Survey

end Lineage
