/-
Agenda/Proofs/Files/Way.lean

The directories on the way to a path.  They may be created, all of them or the
first few, and no file changes by that.  What the path itself leads to may
change all the same, for a path can go down into a directory and up again:

    a/../store      leads nowhere while there is no `a`, and to `store` from then on

It does not change if the path led somewhere before, since then there is nothing
to create, nor if the path never goes up, since then no directory on the way is
as deep as the place of the path (`WayMade`).

Conversely, in a tree where everything lies in a directory (`Grounded`) a path
that never goes up leads to whatever is at its place (`locate_of_grounded`).
-/
import Agenda.Proofs.Files.Frame

namespace Agenda

open Agenda.Path

variable {tree tree' : Tree} {path dir : Path} {name : String} {parts : List String}
  {location other : Location}

/-! ### Parts on the way -/

namespace Path

/-- The path as far as its part number `n`. -/
def upTo (path : Path) (n : Nat) : Path :=
  { path with parts := path.parts.take n }

theorem namedParts_prefix (path : Path) : path.namedParts <+: path.parts := by
  rw [namedParts]
  split
  · next hparts => exact List.nil_prefix
  · next first rest hparts =>
    have hrest : dropIdleEnd rest <+: rest := List.rdropWhile_prefix isIdle rest
    rw [hparts]
    split
    · split
      · exact List.nil_prefix
      · exact List.cons_prefix_cons.mpr ⟨rfl, List.nil_prefix⟩
    · exact List.cons_prefix_cons.mpr ⟨rfl, hrest⟩

/-- The parts of a path are those of its parent and some more, the name of the file among them. -/
theorem exists_parts_of_parent? (hname : path.fileName? = some name) (h : path.parent? = some dir) :
    dir.isAbsolute = path.isAbsolute ∧ ∃ rest, path.parts = dir.parts ++ rest ∧ name ∈ rest := by
  obtain ⟨dirs, hparts, -, -⟩ := exists_namedParts hname
  obtain rfl := Option.some.inj ((parent?_of_namedParts hparts).symm.trans h)
  refine ⟨rfl, ?_⟩
  obtain ⟨idle, hdirs⟩ := namedParts_prefix { path with parts := dirs }
  obtain ⟨idle', hpath⟩ := hparts ▸ namedParts_prefix path
  refine ⟨idle ++ name :: idle', ?_, List.mem_append_right _ List.mem_cons_self⟩
  rw [← hpath, ← List.append_assoc, hdirs, List.append_assoc]
  rfl

end Path

namespace Tree

/-- The place of a file is one deeper than that of its parent. -/
theorem place_of_parent? (tree : Tree) (hname : path.fileName? = some name)
    (h : path.parent? = some dir) : tree.place path = tree.place dir ++ [name] := by
  obtain ⟨dirs, hparts, hidle, hdots⟩ := exists_namedParts hname
  obtain rfl := Option.some.inj ((parent?_of_namedParts hparts).symm.trans h)
  rw [place_of_namedParts tree hparts, follow_of_name hidle hdots, place, foldl_namedParts]
  rfl

/-! ### Creating what is there -/

theorem exists_foldlM_of_prefix {before : List String} (hbelow : before <+: parts)
    (h : parts.foldlM tree.descend location = .ok other) :
    ∃ last, before.foldlM tree.descend location = .ok last := by
  obtain ⟨rest, rfl⟩ := hbelow
  rw [List.foldlM_append] at h
  cases hbefore : before.foldlM tree.descend location with
  | ok last => exact ⟨last, rfl⟩
  | error fault => rw [hbefore] at h; cases h

/-- Where all parts lead from directory to directory there is nothing to create. -/
theorem createBelow_of_descend (h : parts.foldlM tree.descend location = .ok other) :
    tree.createBelow location parts = (.ok (), tree) := by
  induction parts generalizing location with
  | nil => rfl
  | cons part parts ih =>
    rw [List.foldlM_cons] at h
    cases hnext : tree.descend location part with
    | error fault => rw [hnext] at h; cases h
    | ok next =>
      rw [hnext] at h
      rw [descend] at hnext
      rw [createBelow]
      split at hnext
      · next hdot =>
        rw [if_pos hdot, Except.ok.inj hnext]
        exact ih h
      next hdot =>
      split at hnext
      · next hdots =>
        rw [if_neg hdot, if_pos hdots, Except.ok.inj hnext]
        exact ih h
      next hdots =>
      split at hnext
      · cases hnext
      next hlong =>
      rw [if_neg hdot, if_neg hdots, if_neg hlong]
      split at hnext
      · cases hnext
      · cases hnext
      · next hthere =>
        dsimp only
        rw [hthere]
        dsimp only
        rw [Except.ok.inj hnext]
        exact ih h

/-! ### Creating below -/

/-- A path that never goes up goes down. -/
theorem length_le_foldl_follow (h : ".." ∉ parts) (location : Location) :
    location.length ≤ (parts.foldl follow location).length := by
  induction parts generalizing location with
  | nil => exact Nat.le_refl _
  | cons part parts ih =>
    obtain ⟨hpart, hparts⟩ := not_or.mp (List.mem_cons.not.mp h)
    refine Nat.le_trans ?_ (ih hparts (follow location part))
    rw [follow]
    split
    · exact Nat.le_refl _
    · rw [if_neg (Ne.symm hpart), List.length_append]
      exact Nat.le_add_right _ _

/-- What is deeper than all directories that are created stays. -/
theorem get?_createBelow (hnames : ∀ part ∈ parts, part ≠ "") (hdots : ".." ∉ parts)
    (hdeep : (parts.foldl follow location).length < other.length) :
    (tree.createBelow location parts).2.get? other = tree.get? other := by
  induction parts generalizing location tree with
  | nil => rfl
  | cons part parts ih =>
    obtain ⟨hpart, hdots⟩ := not_or.mp (List.mem_cons.not.mp hdots)
    obtain ⟨hname, hnames⟩ := List.forall_mem_cons.mp hnames
    rw [List.foldl_cons] at hdeep
    rw [createBelow]
    split
    · next hdot =>
      rw [follow_of_isIdle ((isIdle_iff part).mpr (.inr hdot))] at hdeep
      exact ih hnames hdots hdeep
    next hdot =>
    rw [if_neg (Ne.symm hpart)]
    have hidle : isIdle part = false :=
      Bool.eq_false_iff.mpr fun hidle => ((isIdle_iff part).mp hidle).elim hname hdot
    rw [follow_of_name hidle (Ne.symm hpart)] at hdeep
    split
    · rfl
    dsimp only
    split
    · next hnone =>
      -- the directory that is created here is on the way
      have hne : other ≠ location ++ [part] := by
        rintro rfl
        exact Nat.not_lt.mpr (length_le_foldl_follow hdots (location ++ [part])) hdeep
      rw [ih hnames hdots hdeep, get?_put_of_ne tree _ hne]
    · exact ih hnames hdots hdeep
    · rfl

/-! ### The way to a path -/

/-- From one tree to another some directories on the way to the path were created. -/
structure WayMade (path : Path) (tree tree' : Tree) : Prop where
  /-- No file has changed. -/
  sameFiles : SameFiles tree tree'
  /-- The place of the path is as it was if the path led somewhere or never goes up. -/
  get?_place : (∃ target, tree.locate path = .ok target) ∨ ".." ∉ path.parts →
    tree'.get? (tree.place path) = tree.get? (tree.place path)

theorem WayMade.refl (path : Path) (tree : Tree) : WayMade path tree tree :=
  ⟨.refl tree, fun _ => rfl⟩

/-- **Creating the directory of a file**, or the first few directories on the way to it. -/
theorem wayMade_createDirectories (hname : path.fileName? = some name)
    (hdir : path.parent? = some dir) (n : Nat) (tree : Tree) :
    WayMade path tree (tree.createDirectories (dir.upTo n)).2 := by
  refine ⟨sameFiles_createDirectories tree _, fun hway => ?_⟩
  obtain ⟨hroot, rest, hparts, hmem⟩ := exists_parts_of_parent? hname hdir
  have hnamed : name ≠ "" := by
    obtain ⟨-, -, hidle, -⟩ := exists_namedParts hname
    exact fun hempty => Bool.false_ne_true (hidle ▸ (isIdle_iff name).mpr (.inl hempty))
  have hstart : tree.startOf dir = tree.startOf path := by
    rw [startOf, startOf, hroot]
  have hbelow : (dir.upTo n).parts <+: dir.parts := List.take_prefix n dir.parts
  rw [createDirectories]
  split
  · rfl
  split
  · rfl
  rw [show tree.startOf (dir.upTo n) = tree.startOf path from hstart]
  rcases hway with ⟨target, hpath⟩ | hdots
  · -- all directories on the way are there
    have hrest : name ∈ rest.filter (· != "") := List.mem_filter.mpr ⟨hmem, by simpa using hnamed⟩
    rw [locate_eq_ok_iff, hparts, List.filter_append] at hpath
    obtain ⟨-, ⟨hnil, -⟩ | ⟨before, last, found, hbefore, hfound, -⟩⟩ := hpath
    · rw [(List.append_eq_nil_iff.mp hnil).2] at hrest
      cases hrest
    · have hway : dir.parts.filter (· != "") <+: before := by
        refine (List.prefix_concat_iff.mp ⟨_, hbefore⟩).resolve_left fun heq => ?_
        rw [← heq, List.append_right_eq_self] at hbefore
        rw [hbefore] at hrest
        cases hrest
      obtain ⟨last, hlast⟩ := exists_foldlM_of_prefix ((hbelow.filter _).trans hway) hfound
      rw [createBelow_of_descend hlast]
  · -- the place of the path is deeper than all directories on the way
    rw [hparts, List.mem_append, not_or] at hdots
    refine get?_createBelow ne_of_mem_filter
      (fun hmem => hdots.1 (hbelow.subset (List.mem_filter.mp hmem).1)) ?_
    rw [foldl_follow_filter, place_of_parent? tree hname hdir, List.length_append,
      List.length_singleton, Nat.lt_succ_iff]
    obtain ⟨below, happend⟩ := hbelow
    rw [place, hstart, ← happend, List.foldl_append]
    exact length_le_foldl_follow (fun hmem => hdots.1 (happend ▸ List.mem_append_right _ hmem)) _

/-! ### Trees in which everything lies in a directory -/

/-- Everything lies in a directory. -/
def Grounded (tree : Tree) : Prop :=
  ∀ location, location ≠ [] → tree.get? location ≠ none →
    tree.get? location.dropLast = some .directory

theorem Grounded.of_concat (h : tree.Grounded) (hthere : tree.get? (location ++ [name]) ≠ none) :
    tree.get? location = some .directory := by
  have hdir := h _ (List.append_ne_nil_of_right_ne_nil location (List.cons_ne_nil name [])) hthere
  rwa [List.dropLast_concat] at hdir

theorem descend_of_grounded (hgrounded : tree.Grounded) {part : String} {next : Location}
    (hdots : part ≠ "..") (h : tree'.descend location part = .ok next)
    (hthere : tree.get? next = some .directory) :
    tree.get? location = some .directory ∧ tree.descend location part = .ok next := by
  rw [descend] at h ⊢
  split at h
  · next hdot =>
    rw [if_pos hdot, Except.ok.inj h]
    exact ⟨hthere, rfl⟩
  next hdot =>
  split at h
  · cases h
  next hlong =>
  split at h
  · cases h
  · cases h
  obtain rfl := Except.ok.inj h
  refine ⟨hgrounded.of_concat (hthere ▸ Option.some_ne_none _), ?_⟩
  rw [if_neg hdot, if_neg hdots, if_neg hlong, hthere]

theorem foldlM_descend_of_grounded (hgrounded : tree.Grounded) (hdots : ".." ∉ parts)
    (h : parts.foldlM tree'.descend location = .ok other)
    (hthere : tree.get? other = some .directory) :
    parts.foldlM tree.descend location = .ok other := by
  induction parts using List.reverseRecOn generalizing other with
  | nil => exact h
  | append_singleton parts part ih =>
    rw [List.mem_append, not_or, List.mem_singleton] at hdots
    have hconcat : ∀ tree : Tree, (parts ++ [part]).foldlM tree.descend location =
        parts.foldlM tree.descend location >>= fun dir => tree.descend dir part := fun tree => by
      rw [List.foldlM_append]
      simp only [List.foldlM_cons, List.foldlM_nil, bind_pure]
    rw [hconcat] at h ⊢
    cases hbefore : parts.foldlM tree'.descend location with
    | error fault => rw [hbefore] at h; cases h
    | ok dir =>
      rw [hbefore] at h
      obtain ⟨hdir, hnext⟩ := descend_of_grounded hgrounded (Ne.symm hdots.2) h hthere
      rw [ih hdots.1 hbefore hdir]
      exact hnext

/-- **What is at the place of a path that never goes up can be reached.** -/
theorem locate_of_grounded (hgrounded : tree.Grounded) (hhere : tree'.here = tree.here)
    (hdots : ".." ∉ path.parts) {entry : Entry} (h : tree'.at? path = some entry)
    (hthere : tree.get? (tree'.place path) = some entry) :
    ∃ target, tree.locate path = .ok target := by
  obtain ⟨target, hpath, -, hasked⟩ := at?_eq_some_iff.mp h
  rw [← place_of_locate hpath] at hthere
  refine ⟨target, ?_⟩
  have hstart : tree'.startOf path = tree.startOf path := by
    rw [startOf, startOf, hhere]
  rw [locate_eq_ok_iff, hstart] at hpath
  refine locate_eq_ok_iff.mpr (hpath.imp_right (Or.imp_right ?_))
  rintro ⟨before, last, dir, hparts, hdir, hlast⟩
  have hparts' : ∀ part ∈ before ++ [last], part ≠ ".." := fun part hpart hup =>
    hdots (hup ▸ (List.mem_filter.mp (hparts ▸ hpart)).1)
  have hup : ".." ∉ before := fun hmem => hparts' _ (List.mem_append_left _ hmem) rfl
  refine ⟨before, last, dir, hparts, foldlM_descend_of_grounded hgrounded hup hdir ?_, hlast⟩
  -- the last part names an entry of the directory, or it is the directory
  rw [targetAt] at hlast
  split at hlast
  · obtain rfl := Except.ok.inj hlast
    rw [hasked rfl] at hthere
    exact hthere
  split at hlast
  · next hlastdots => exact absurd hlastdots (hparts' last (by simp))
  split at hlast
  · cases hlast
  · obtain rfl := Except.ok.inj hlast
    have hentry : tree.get? (dir ++ [last]) = some entry := hthere
    exact hgrounded.of_concat (hentry ▸ Option.some_ne_none _)

end Tree

end Agenda
