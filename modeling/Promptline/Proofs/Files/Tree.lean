import Mathlib.Data.List.Nodup
import Promptline.Files.Tree

set_option autoImplicit false

/-! # Places and directories

A tree is kept as a list of nodes, and stands for a tree of files only if no place occurs twice in
it (`FileTree.Distinct`). That holds of the tree of a process that starts, and whatever changes a
tree keeps it. A directory then holds each name once (`Distinct.nodup_list`).

A path is followed by rules with one case for each kind of name that it may meet on its way
(`FileTree.Leads`): absolute paths lead from the root on, relative ones from the current directory,
and the walk along a path arrives just where the rules lead (`resolve_eq_ok_iff`). -/

namespace Promptline.FileTree

variable {t t' : FileTree} {place : List Path} {name : Path} {names : List Path} {p : Path}

/-- No two nodes stand at one place. -/
def Distinct (t : FileTree) : Prop :=
  (t.nodes.map Prod.fst).Nodup

instance (t : FileTree) : Decidable t.Distinct :=
  inferInstanceAs (Decidable (t.nodes.map Prod.fst).Nodup)

/-! ## Changing a tree -/

theorem distinct_empty : empty.Distinct := by
  decide +kernel

theorem Distinct.filter (h : t.Distinct) (keep : List Path × Node → Bool) :
    Distinct { t with nodes := t.nodes.filter keep } :=
  List.Sublist.nodup (List.filter_sublist.map Prod.fst) h

theorem Distinct.set (h : t.Distinct) (place : List Path) (n : Node) :
    (t.set place n).Distinct := by
  rw [Distinct, FileTree.set, List.map_append, List.nodup_append]
  refine ⟨h.filter _, List.nodup_singleton place, ?_⟩
  intro other hother _ hplace hsame
  obtain ⟨entry, hentry, rfl⟩ := List.mem_map.1 hother
  have hne := (List.mem_filter.1 hentry).2
  rw [List.mem_singleton.1 hplace] at hsame
  simp [hsame] at hne

theorem Distinct.makeAlong (h : t.Distinct) (place : List Path) (names : List Path) :
    (t.makeAlong place names).1.Distinct := by
  induction names generalizing t place with
  | nil => exact h
  | cons name rest ih =>
      rw [FileTree.makeAlong]
      dsimp only
      split
      · exact ih h place
      split
      · exact ih h place.dropLast
      split
      · exact ih (h.set _ _) _
      · split
        · exact ih h _
        · exact ih h _
      · exact ih h _

theorem Distinct.makeDirectory (h : t.Distinct) (p : Path) : (t.makeDirectory p).1.Distinct :=
  h.makeAlong _ _

theorem Distinct.makeParent (h : t.Distinct) (p : Path) : (t.makeParent p).1.Distinct :=
  h.makeAlong _ _

theorem Distinct.put (h : t.Distinct) (p : Path) (n : Node) : (t.put p n).Distinct :=
  (h.makeParent p).set _ n

theorem Distinct.remove (h : t.Distinct) (p : Path) : (t.remove p).Distinct :=
  (h.makeParent p).filter _

theorem Distinct.write (h : t.Distinct) {append : Bool} {bytes : List UInt8}
    (hwrite : t.write p append bytes = .ok t') : t'.Distinct := by
  unfold FileTree.write at hwrite
  split at hwrite
  · cases hwrite
  · split at hwrite
    · cases hwrite
      exact h.set _ _
    · cases hwrite
      exact h
    · cases hwrite
      exact h.set _ _

/-! ## Following paths -/

/-- A name that an entry of a directory can have. -/
structure Plain (name : Path) : Prop where
  nonempty : name ≠ []
  ne_here : name ≠ Path.here
  ne_above : name ≠ Path.above
  length_le : name.length ≤ maxNameLength

/-- The directory at a place lets the process look up names in it. -/
def Searchable (t : FileTree) (place : List Path) : Prop :=
  ∃ access, t.node? place = some (.directory access) ∧ access.search = true

/-- Names lead from a place to another, through so many links at most. -/
inductive Leads (t : FileTree) : Nat → List Path → List Path → List Path → Prop
  | arrived {links : Nat} {place : List Path} : Leads t links place [] place
  /-- There are two slashes side by side, or one at an end. -/
  | staying {links : Nat} {place rest target : List Path}
      (hplace : t.isDirectoryAt place = true) (hrest : Leads t links place rest target) :
      Leads t links place ([] :: rest) target
  | here {links : Nat} {place rest target : List Path} (hplace : t.Searchable place)
      (hrest : Leads t links place rest target) : Leads t links place (Path.here :: rest) target
  /-- The root is above itself. -/
  | above {links : Nat} {place rest target : List Path} (hplace : t.Searchable place)
      (hrest : Leads t links place.dropLast rest target) :
      Leads t links place (Path.above :: rest) target
  | entry {links : Nat} {place rest target : List Path} {name : Path} {n : Node}
      (hplace : t.Searchable place) (hname : Plain name)
      (hnode : t.node? (place ++ [name]) = some n) (hlink : ∀ p, n ≠ .link p)
      (hrest : Leads t links (place ++ [name]) rest target) :
      Leads t links place (name :: rest) target
  /-- A link that is relative starts where it lies itself. -/
  | link {links : Nat} {place rest target : List Path} {name p : Path}
      (hplace : t.Searchable place) (hname : Plain name)
      (hnode : t.node? (place ++ [name]) = some (.link p))
      (hrest : Leads t links (if p.isAbsolute then [] else place) (p.components ++ rest) target) :
      Leads t (links + 1) place (name :: rest) target

theorem isDirectoryAt_iff :
    t.isDirectoryAt place = true ↔ ∃ access, t.node? place = some (.directory access) := by
  rw [isDirectoryAt]
  cases t.node? place with
  | none => simp
  | some n => cases n <;> simp [Node.isDirectory]

/-- At a plain name, the walk goes on in what stands under it, or along the link there. -/
theorem Plain.walkWith_eq {access : Access} (hname : Plain name)
    (hplace : t.node? place = some (.directory access)) (hsearch : access.search = true)
    (follow : List Path → List Path → Except FileError (List Path)) (rest : List Path) :
    t.walkWith follow place (name :: rest) =
      match t.node? (place ++ [name]) with
      | none => .error .notFound
      | some (.link p) => follow (if p.isAbsolute then [] else place) (p.components ++ rest)
      | some _ => t.walkWith follow (place ++ [name]) rest := by
  rw [walkWith]
  simp only [hplace, hsearch, List.isEmpty_iff, hname.nonempty, hname.ne_here, hname.ne_above,
    Nat.not_lt.2 hname.length_le, if_false, Bool.not_true, Bool.false_eq_true]
  rfl

/-- Walking obeys the rules, if it does so behind a link. -/
theorem Leads.of_walkWith {follow : List Path → List Path → Except FileError (List Path)}
    {links : Nat} {target : List Path}
    (hfollow : ∀ start way, follow start way = .ok target →
      ∃ left, links = left + 1 ∧ t.Leads left start way target)
    (h : t.walkWith follow place names = .ok target) : t.Leads links place names target := by
  induction names generalizing place with
  | nil =>
      cases h
      exact .arrived
  | cons name rest ih =>
      cases hplace : t.node? place with
      | none => simp [walkWith, hplace] at h
      | some n =>
          cases n with
          | directory access =>
              by_cases hempty : name = []
              · subst hempty
                exact .staying (isDirectoryAt_iff.2 ⟨access, hplace⟩)
                  (ih (by simpa [walkWith, hplace] using h))
              cases hsearch : access.search with
              | false => simp [walkWith, hplace, hsearch, hempty] at h
              | true =>
                  have hsearchable : t.Searchable place := ⟨access, hplace, hsearch⟩
                  by_cases hhere : name = Path.here
                  · subst hhere
                    exact .here hsearchable
                      (ih (by simpa [walkWith, hplace, hsearch, hempty] using h))
                  by_cases habove : name = Path.above
                  · subst habove
                    exact .above hsearchable
                      (ih (by simpa [walkWith, hplace, hsearch, hempty, hhere] using h))
                  by_cases hlong : maxNameLength < name.length
                  · simp [walkWith, hplace, hsearch, hempty, hhere, habove, hlong] at h
                  have hname : Plain name := ⟨hempty, hhere, habove, Nat.not_lt.1 hlong⟩
                  rw [hname.walkWith_eq hplace hsearch] at h
                  split at h
                  · cases h
                  · next p hnode =>
                      obtain ⟨left, rfl, hleads⟩ := hfollow _ _ h
                      exact .link hsearchable hname hnode hleads
                  · next n hlink hnode => exact .entry hsearchable hname hnode hlink (ih h)
          | _ => simp [walkWith, hplace] at h

/-- What the rules allow is walked, if it is so behind a link. -/
theorem Leads.walkWith_eq {follow : List Path → List Path → Except FileError (List Path)}
    {links : Nat} {target : List Path} (h : t.Leads links place names target)
    (hfollow : ∀ left start way, links = left + 1 → t.Leads left start way target →
      follow start way = .ok target) :
    t.walkWith follow place names = .ok target := by
  induction names generalizing place with
  | nil =>
      cases h
      rw [walkWith]
  | cons name rest ih =>
      cases h with
      | staying hplace hrest =>
          obtain ⟨access, hdirectory⟩ := isDirectoryAt_iff.1 hplace
          simp [walkWith, hdirectory, ih hrest]
      | here hplace hrest =>
          obtain ⟨access, hdirectory, hsearch⟩ := hplace
          simp [walkWith, hdirectory, hsearch, Path.here, ih hrest]
      | above hplace hrest =>
          obtain ⟨access, hdirectory, hsearch⟩ := hplace
          simp [walkWith, hdirectory, hsearch, Path.here, Path.above, ih hrest]
      | entry hplace hname hnode hlink hrest =>
          obtain ⟨access, hdirectory, hsearch⟩ := hplace
          rw [hname.walkWith_eq hdirectory hsearch, hnode]
          split
          · next hnone => cases hnone
          · next p hsome => exact absurd (Option.some.inj hsome) (hlink p)
          · exact ih hrest
      | link hplace hname hnode hrest =>
          obtain ⟨access, hdirectory, hsearch⟩ := hplace
          rw [hname.walkWith_eq hdirectory hsearch, hnode]
          exact hfollow _ _ _ rfl hrest

/-- **Where names lead**: a walk arrives where the rules say and nowhere else, whatever links it
    meets, and does not arrive if more of them are on the way than it may follow. -/
theorem walk_eq_ok_iff {links : Nat} {target : List Path} :
    t.walk links place names = .ok target ↔ t.Leads links place names target := by
  induction links generalizing place names with
  | zero => exact ⟨.of_walkWith (by simp), fun h => h.walkWith_eq (by simp)⟩
  | succ links ih =>
      refine ⟨.of_walkWith fun start way h => ⟨links, rfl, ih.1 h⟩, fun h => h.walkWith_eq ?_⟩
      intro left start way hleft h
      cases hleft
      exact ih.2 h

/-- **Where paths lead**: a path leads to a place if it is one that is followed at all and its names
    lead there, those of an absolute path from the root, and those of a relative one from the
    current directory. -/
theorem resolve_eq_ok_iff :
    t.resolve p = .ok place ↔
      (0 ∉ p ∧ p ≠ [] ∧ p.length ≤ maxPathLength) ∧
        t.Leads maxLinks (if p.isAbsolute then [] else t.current) p.components place := by
  simp only [resolve, List.contains_iff_mem, List.isEmpty_iff]
  by_cases hzero : 0 ∈ p
  · simp [hzero]
  by_cases hempty : p = []
  · simp [hempty]
  by_cases hlong : maxPathLength < p.length
  · simp [hzero, hempty, hlong, Nat.not_le.2 hlong]
  simp [hzero, hempty, hlong, Nat.not_lt.1 hlong, departure, walk_eq_ok_iff]

/-! ## Listing a directory -/

theorem nameBelow?_eq_some_iff {child : List Path} :
    nameBelow? place child = some name ↔ child = place ++ [name] := by
  unfold nameBelow?
  constructor
  · intro h
    split at h
    · next last hlast =>
        rw [Option.ite_none_right_eq_some] at h
        obtain ⟨rfl, hname⟩ := h
        rw [← Option.some.inj hname, List.dropLast_append_getLast? last hlast]
    · cases h
  · rintro rfl
    simp

/-- A path can be listed if it leads to a directory whose names may be read. -/
theorem list_eq_ok_iff :
    t.list p = .ok names ↔
      ∃ place access, t.resolve p = .ok place ∧ t.node? place = some (.directory access) ∧
        access.list = true ∧
        (t.nodes.filterMap fun (child, _) => nameBelow? place child) = names := by
  unfold list
  cases hplace : t.resolve p with
  | error e => simp
  | ok place =>
      cases hnode : t.node? place with
      | none => simp [hnode]
      | some node =>
          cases node with
          | directory access => cases haccess : access.list <;> simp [hnode, haccess]
          | _ => simp [hnode]

/-- A directory holds each name once. -/
theorem Distinct.nodup_list (h : t.Distinct) (hlist : t.list p = .ok names) : names.Nodup := by
  obtain ⟨place, access, -, -, -, rfl⟩ := list_eq_ok_iff.1 hlist
  rw [Distinct, List.Nodup, List.pairwise_map] at h
  refine List.Pairwise.filterMap _ ?_ h
  -- two nodes with one name in the directory would stand at one place
  intro entry entry' hne name hname name' hname' hsame
  subst hsame
  exact hne ((nameBelow?_eq_some_iff.1 hname).trans (nameBelow?_eq_some_iff.1 hname').symm)

end Promptline.FileTree
