import Mathlib.Data.List.Sort
import Promptline.Proofs.Completion.CommandTable
import Promptline.Proofs.Text.Utf8

set_option autoImplicit false

/-! # Commands on search paths

A search path provides a command under a name if it has such an entry, and the entry leads to a file
that may be executed (`FileTree.Provides`). A rebuilt table holds the names that any search path
provides, each with its place in the last search path that provides it; those that cannot be listed
are reported, in order. Nothing else is seen: neither what the table held before, nor, in the names,
the order of the search paths (`rebuild_exact`). -/

namespace Promptline

/-- A directory provides a command: it can be listed and has an entry of that name, which leads to a
    file that somebody may execute. -/
structure FileTree.Provides (files : FileTree) (directory : Path) (name : List Char) : Prop where
  entry : ∃ entries, files.list directory = .ok entries ∧ Utf8.encode name ∈ entries
  executable : ∃ mode content, mode &&& 0o111 ≠ 0 ∧
    files.stat? (directory.join (Utf8.encode name)) = some (.file mode content)

/-- Whether a directory can be listed. -/
def FileTree.isListed (files : FileTree) (directory : Path) : Bool :=
  (files.list directory).isOk

theorem FileTree.isExecutable_iff {files : FileTree} {p : Path} :
    files.isExecutable p = true ↔
      ∃ mode content, mode &&& 0o111 ≠ 0 ∧ files.stat? p = some (.file mode content) := by
  unfold isExecutable isExecutableMode
  split
  · next mode content hstat => simp [hstat]
  · next hother =>
      refine iff_of_false (by simp) ?_
      rintro ⟨mode, content, -, hstat⟩
      exact hother mode content hstat

namespace CommandTable

variable {files : FileTree} {commands : List (List Char × Path)} {name : List Char} {path : Path}
  {directory : Path}

/-! ## Looking a command up -/

theorem lookup_cons_ite (first : List Char) (place : Path) :
    ((first, place) :: commands).lookup name =
      if name = first then some place else commands.lookup name := by
  rw [List.lookup_cons]
  by_cases h : name = first
  · rw [if_pos h, beq_iff_eq.2 h]
  · rw [if_neg h, beq_eq_false_iff_ne.2 h]

theorem lookup_insert (added : List Char) (place : Path) :
    (insert added place commands).lookup name =
      if name = added then some place else commands.lookup name := by
  induction commands with
  | nil => exact lookup_cons_ite added place
  | cons command rest ih =>
      obtain ⟨first, p⟩ := command
      rw [insert]
      split
      · rw [lookup_cons_ite]
      · split
        · next hless =>
            rw [lookup_cons_ite, lookup_cons_ite, ih]
            by_cases hfirst : name = first
            · rw [if_pos hfirst, if_neg (hfirst ▸ ne_of_lt hless), if_pos hfirst]
            · rw [if_neg hfirst, if_neg hfirst]
        · next hless hless' =>
            obtain rfl : added = first := le_antisymm (not_lt.1 hless') (not_lt.1 hless)
            rw [lookup_cons_ite, lookup_cons_ite]
            by_cases h : name = added
            · rw [if_pos h, if_pos h]
            · rw [if_neg h, if_neg h, if_neg h]

/-- Of commands that are added one after another, the last of a name stays. If all of a name lie in
    one place, it is that place. -/
theorem lookup_foldl_insert {found : List (List Char × Path)}
    (hplace : ∀ entry ∈ found, entry.1 = name → entry.2 = path) :
    (found.foldl (fun cs (other, p) => insert other p cs) commands).lookup name =
      if name ∈ found.map Prod.fst then some path else commands.lookup name := by
  induction found generalizing commands with
  | nil => rfl
  | cons entry rest ih =>
      obtain ⟨other, p⟩ := entry
      rw [List.foldl_cons, ih fun e he => hplace e (List.mem_cons_of_mem _ he), lookup_insert,
        List.map_cons]
      by_cases hrest : name ∈ rest.map Prod.fst
      · rw [if_pos hrest, if_pos (List.mem_cons_of_mem _ hrest)]
      · rw [if_neg hrest]
        by_cases hother : name = other
        · have hp : p = path := hplace _ List.mem_cons_self hother.symm
          rw [if_pos hother, if_pos (hother ▸ List.mem_cons_self), hp]
        · rw [if_neg hother, if_neg (by simp [hother, hrest])]

theorem mem_commandsIn {entries : List Path} {entry : List Char × Path} :
    entry ∈ commandsIn files directory entries ↔
      Utf8.encode entry.1 ∈ entries ∧ entry.2 = directory.join (Utf8.encode entry.1) ∧
        files.isExecutable entry.2 = true := by
  obtain ⟨text, place⟩ := entry
  simp only [commandsIn, List.mem_filterMap]
  constructor
  · rintro ⟨raw, hraw, hentry⟩
    rw [Option.ite_none_right_eq_some] at hentry
    obtain ⟨hexecutable, hentry⟩ := hentry
    obtain ⟨text', htext, hsame⟩ := Option.map_eq_some_iff.1 hentry
    obtain ⟨rfl, rfl⟩ := Prod.mk.inj hsame
    rw [← Utf8.decodeAll?_eq_some_iff.1 htext]
    exact ⟨hraw, rfl, hexecutable⟩
  · rintro ⟨hraw, rfl, hexecutable⟩
    refine ⟨_, hraw, ?_⟩
    rw [if_pos hexecutable, Utf8.decodeAll?_eq_some_iff.2 rfl]
    rfl

/-- **What a listed search path adds** to a table. -/
theorem lookup_scan_ok {commands' : List (List Char × Path)}
    (h : scan files commands directory = .ok commands') :
    (files.Provides directory name ∧
        commands'.lookup name = some (directory.join (Utf8.encode name))) ∨
      ¬ files.Provides directory name ∧ commands'.lookup name = commands.lookup name := by
  unfold scan at h
  split at h
  · cases h
  · next entries hlist =>
      cases h
      have hplace : ∀ entry ∈ commandsIn files directory entries, entry.1 = name →
          entry.2 = directory.join (Utf8.encode name) := by
        rintro entry hentry rfl
        exact (mem_commandsIn.1 hentry).2.1
      have hprovides : name ∈ (commandsIn files directory entries).map Prod.fst ↔
          files.Provides directory name := by
        rw [List.mem_map]
        constructor
        · rintro ⟨entry, hentry, rfl⟩
          obtain ⟨hname, hpath, hexecutable⟩ := mem_commandsIn.1 hentry
          rw [hpath] at hexecutable
          exact ⟨⟨entries, hlist, hname⟩, FileTree.isExecutable_iff.1 hexecutable⟩
        · rintro ⟨⟨entries', hlist', hname⟩, hexecutable⟩
          rw [hlist] at hlist'
          obtain rfl := Except.ok.inj hlist'
          exact ⟨(name, _), mem_commandsIn.2 ⟨hname, rfl, FileTree.isExecutable_iff.2 hexecutable⟩,
            rfl⟩
      rw [lookup_foldl_insert hplace]
      by_cases hname : name ∈ (commandsIn files directory entries).map Prod.fst
      · exact Or.inl ⟨hprovides.1 hname, if_pos hname⟩
      · exact Or.inr ⟨hprovides.not.1 hname, if_neg hname⟩

theorem scan_eq_error {e : ListingError} (h : scan files commands directory = .error e) :
    e.path = directory ∧ files.list directory = .error e.reason := by
  unfold scan at h
  split at h
  · next reason hlist =>
      cases h
      exact ⟨rfl, hlist⟩
  · cases h

/-! ## All search paths -/

/-- The last of the search paths that provides a command. -/
def LastProvider (files : FileTree) (name : List Char) (searchPaths : List Path)
    (directory : Path) : Prop :=
  ∃ before after, searchPaths = before ++ directory :: after ∧ files.Provides directory name ∧
    ∀ later ∈ after, ¬ files.Provides later name

theorem lastProvider_nil : ¬ LastProvider files name [] directory := by
  rintro ⟨before, after, h, -⟩
  cases before <;> cases h

theorem lastProvider_cons {first : Path} {rest : List Path} :
    LastProvider files name (first :: rest) directory ↔
      LastProvider files name rest directory ∨
        directory = first ∧ files.Provides first name ∧
          ∀ later ∈ rest, ¬ files.Provides later name := by
  constructor
  · rintro ⟨before, after, hpaths, hprovides, hlast⟩
    cases before with
    | nil =>
        obtain ⟨rfl, rfl⟩ := List.cons.inj hpaths
        exact Or.inr ⟨rfl, hprovides, hlast⟩
    | cons other before =>
        obtain ⟨-, rfl⟩ := List.cons.inj hpaths
        exact Or.inl ⟨before, after, rfl, hprovides, hlast⟩
  · rintro (⟨before, after, rfl, hprovides, hlast⟩ | ⟨rfl, hprovides, hlast⟩)
    · exact ⟨first :: before, after, rfl, hprovides, hlast⟩
    · exact ⟨[], rest, rfl, hprovides, hlast⟩

/-- There is a last one as soon as there is one. -/
theorem exists_lastProvider_iff {searchPaths : List Path} :
    (∃ directory, LastProvider files name searchPaths directory) ↔
      ∃ directory ∈ searchPaths, files.Provides directory name := by
  induction searchPaths with
  | nil =>
      refine iff_of_false ?_ nofun
      rintro ⟨directory, h⟩
      exact lastProvider_nil h
  | cons first rest ih =>
      simp only [lastProvider_cons, List.exists_mem_cons_iff, ← ih, exists_or, exists_eq_left]
      by_cases hrest : ∃ directory, LastProvider files name rest directory
      · exact iff_of_true (Or.inl hrest) (Or.inr hrest)
      · have hnone : ∀ later ∈ rest, ¬ files.Provides later name := fun later hlater hprovides =>
          hrest (ih.2 ⟨later, hlater, hprovides⟩)
        exact ⟨fun h => Or.inl (h.resolve_left hrest).1, fun h =>
          Or.inr ⟨h.resolve_right hrest, hnone⟩⟩

/-- **Looking through search paths**: a command is found in the last of them that provides it, and
    otherwise where it was before. -/
theorem lookup_scanAll (commands : List (List Char × Path)) (searchPaths : List Path) :
    (scanAll files commands searchPaths).2.lookup name = some path ↔
      (∃ directory, LastProvider files name searchPaths directory ∧
        path = directory.join (Utf8.encode name)) ∨
      (∀ directory ∈ searchPaths, ¬ files.Provides directory name) ∧
        commands.lookup name = some path := by
  induction searchPaths generalizing commands with
  | nil => simp [scanAll, lastProvider_nil]
  | cons first rest ih =>
      have hscan : ∃ commands',
          (scanAll files commands (first :: rest)).2 = (scanAll files commands' rest).2 ∧
          ((files.Provides first name ∧
              commands'.lookup name = some (first.join (Utf8.encode name))) ∨
            ¬ files.Provides first name ∧ commands'.lookup name = commands.lookup name) := by
        rw [scanAll]
        split
        · next commands' hok => exact ⟨commands', rfl, lookup_scan_ok hok⟩
        · next e herror =>
            refine ⟨commands, rfl, Or.inr ⟨?_, rfl⟩⟩
            rintro ⟨⟨entries, hlist, -⟩, -⟩
            rw [(scan_eq_error herror).2] at hlist
            cases hlist
      obtain ⟨commands', hsame, hfirst⟩ := hscan
      rw [hsame, ih]
      simp only [lastProvider_cons, List.forall_mem_cons, or_and_right, exists_or, and_assoc,
        exists_eq_left]
      rcases hfirst with ⟨hprovides, hlookup⟩ | ⟨hprovides, hlookup⟩
      · simp [hprovides, hlookup, eq_comm]
      · simp [hprovides, hlookup]

/-- What is reported: the search paths that cannot be listed, in order. -/
theorem errors_scanAll (searchPaths : List Path) :
    (scanAll files commands searchPaths).1.map ListingError.path =
        searchPaths.filter (fun directory => !files.isListed directory) ∧
      ∀ e ∈ (scanAll files commands searchPaths).1, files.list e.path = .error e.reason := by
  induction searchPaths generalizing commands with
  | nil => exact ⟨rfl, nofun⟩
  | cons first rest ih =>
      rw [scanAll]
      split
      · next commands' hok =>
          have hlisted : files.isListed first = true := by
            unfold scan at hok
            unfold FileTree.isListed
            split at hok
            · cases hok
            · next entries hlist => rw [hlist]; rfl
          rw [List.filter_cons_of_neg (by simp [hlisted])]
          exact ih
      · next e herror =>
          obtain ⟨hpath, hlist⟩ := scan_eq_error herror
          have hlisted : files.isListed first = false := by
            rw [FileTree.isListed, hlist]
            rfl
          rw [List.filter_cons_of_pos (by simp [hlisted])]
          refine ⟨?_, fun e' he' => ?_⟩
          · rw [List.map_cons, hpath, ih.1]
          · rcases List.mem_cons.1 he' with rfl | he'
            · rw [hpath, hlist]
            · exact ih.2 e' he'

/-! ## Rebuilt tables -/

theorem mem_names_iff {t : CommandTable} : name ∈ t.names ↔ ∃ path, t.pathOf? name = some path := by
  unfold names pathOf?
  induction t.commands with
  | nil => simp
  | cons command rest ih =>
      obtain ⟨first, p⟩ := command
      rw [lookup_cons_ite, List.map_cons, List.mem_cons, ih]
      by_cases h : name = first
      · simp [h]
      · simp [h]

section Rebuild

variable (t : CommandTable) (files : FileTree) (searchPaths : List Path)

theorem pathOf?_rebuild :
    (t.rebuild files searchPaths).2.pathOf? name = some path ↔
      ∃ directory, LastProvider files name searchPaths directory ∧
        path = directory.join (Utf8.encode name) := by
  refine (lookup_scanAll [] searchPaths).trans ?_
  simp

theorem mem_names_rebuild :
    name ∈ (t.rebuild files searchPaths).2.names ↔
      ∃ directory ∈ searchPaths, files.Provides directory name := by
  rw [mem_names_iff, ← exists_lastProvider_iff]
  simp only [pathOf?_rebuild]
  constructor
  · rintro ⟨path, directory, h, -⟩
    exact ⟨directory, h⟩
  · rintro ⟨directory, h⟩
    exact ⟨_, directory, h, rfl⟩

/-- **A rebuilt table is the union of what can be listed, in which the last one wins.**

    Its names are those that some search path provides, each once and in increasing order. Each
    stands for the entry of the last search path that provides it. The search paths that cannot be
    listed are reported in order, each as often as it was given, with the reason.

    What the table held before makes no difference, so that rebuilding it twice is rebuilding it
    once; and the order of the search paths makes none to the names. -/
theorem rebuild_exact :
    let errors := (t.rebuild files searchPaths).1
    let rebuilt := (t.rebuild files searchPaths).2
    (rebuilt.names.Pairwise (· < ·) ∧
      ∀ name, name ∈ rebuilt.names ↔ ∃ directory ∈ searchPaths, files.Provides directory name) ∧
    (∀ name path, rebuilt.pathOf? name = some path ↔
      ∃ directory, LastProvider files name searchPaths directory ∧
        path = directory.join (Utf8.encode name)) ∧
    (errors.map ListingError.path =
        searchPaths.filter (fun directory => !files.isListed directory) ∧
      ∀ e ∈ errors, files.list e.path = .error e.reason) ∧
    rebuilt.isLoaded = true ∧
    rebuilt.rebuild files searchPaths = (errors, rebuilt) ∧
    (∀ other : CommandTable, other.rebuild files searchPaths = (errors, rebuilt)) ∧
    ∀ reordered : List Path, reordered.Perm searchPaths →
      (t.rebuild files reordered).2.names = rebuilt.names := by
  intro errors rebuilt
  have hordered : ∀ paths, (t.rebuild files paths).2.names.Pairwise (· < ·) :=
    t.ordered_rebuild files
  refine ⟨⟨hordered searchPaths, fun name => t.mem_names_rebuild files searchPaths⟩,
    fun name path => t.pathOf?_rebuild files searchPaths, errors_scanAll searchPaths, rfl, rfl,
    fun other => rfl, fun reordered hperm => ?_⟩
  refine (hordered reordered).eq_of_mem_iff (hordered searchPaths) fun name => ?_
  rw [mem_names_rebuild, mem_names_rebuild]
  simp only [hperm.mem_iff]

end Rebuild

/-- Two directories with a command `c`, in the one that lies in the current directory as a link to
    the file in the other, each beside another file; and a directory whose names may not be read. -/
def twoDirectories : FileTree :=
  let other := (FileTree.empty.put (Path.ofString "/usr/c") (.file 0o755 [])).put
    (Path.ofString "/usr/e") (.file 0o644 [])
  let both := (other.put (Path.ofString "a/c") (.link (Path.ofString "/usr/c"))).put
    (Path.ofString "a/d") (.file 0o700 [])
  both.put (Path.ofString "/closed") (.directory { list := false })

/-- The last of both has the command, the directory that cannot be listed is reported, and the other
    way round the names are the same. -/
theorem rebuild_exact_two_directories :
    let t : CommandTable := ⟨[(['x'], Path.ofString "x")], false⟩
    let paths := [Path.ofString "/usr", Path.ofString "/closed", Path.ofString "../home/a"]
    (t.rebuild twoDirectories paths).1 = [⟨Path.ofString "/closed", .permissionDenied⟩] ∧
      (t.rebuild twoDirectories paths).2.pathOf? ['c'] = some (Path.ofString "../home/a/c") ∧
      (∃ directory, LastProvider twoDirectories ['c'] paths directory ∧
        Path.ofString "../home/a/c" = directory.join (Utf8.encode ['c'])) ∧
      paths.reverse.Perm paths ∧
      (t.rebuild twoDirectories paths.reverse).2.names = [['c'], ['d']] := by
  intro t paths
  obtain ⟨-, hpath, -, -, -, -, hreordered⟩ := t.rebuild_exact twoDirectories paths
  have hfound :
      (t.rebuild twoDirectories paths).2.pathOf? ['c'] = some (Path.ofString "../home/a/c") := by
    decide +kernel
  have hperm : paths.reverse.Perm paths := List.reverse_perm paths
  refine ⟨by decide +kernel, hfound, (hpath _ _).1 hfound, hperm, ?_⟩
  rw [hreordered _ hperm]
  decide +kernel

end CommandTable

end Promptline
