/-
Agenda/Proofs/Files/Place.lean

Where a path leads, read off the path alone.  A name goes one step down, two
dots go one step up, and what names nothing stays; whether there is anything on
the way does not matter:

    place path = the parts of the path, followed one by one

If a path leads anywhere in a tree, then to its place (`place_of_locate`), and
the place is the name of the path taken one step further than what comes before
the name (`place_of_namedParts`).  So a path and the same path with another
extension have the same parent but different places, if the extension has a dot
in it: the name without its last extension and that one put behind it is never
the name again (`sibling_withExtension`).  Both places are in one directory
unless the name is bare: of `..json` only the dots are left, and they lead up.
-/
import Agenda.Proofs.Files.Tree
import Mathlib.Data.List.DropRight
import Mathlib.Data.List.TakeDrop

namespace Agenda

open Agenda.Path

/-- The location that a path leads to. -/
def Target.location : Target → Location
  | .entry location _ | .directory location => location

/-- The path leads to a directory, if to anything. -/
def Target.isDirectory : Target → Bool
  | .entry _ asDirectory => asDirectory
  | .directory _ => true

variable {path : Path} {name : String} {dir parts : List String} {location : Location}

/-! ### Following the parts -/

/-- One part further, whatever there is. -/
def follow (location : Location) (part : String) : Location :=
  if isIdle part then location
  else if part = ".." then location.dropLast
  else location ++ [part]

/-- The place that a path names. -/
def Tree.place (tree : Tree) (path : Path) : Location :=
  path.parts.foldl follow (tree.startOf path)

theorem isIdle_iff (part : String) : isIdle part = true ↔ part = "" ∨ part = "." := by
  rw [isIdle, Bool.or_eq_true, decide_eq_true_iff, decide_eq_true_iff]

theorem follow_of_isIdle {part : String} (h : isIdle part = true) (location : Location) :
    follow location part = location :=
  if_pos h

theorem follow_of_name (hidle : isIdle name = false) (hdots : name ≠ "..")
    (location : Location) : follow location name = location ++ [name] := by
  rw [follow, hidle, if_neg Bool.false_ne_true, if_neg hdots]

theorem foldl_follow_filter (parts : List String) (location : Location) :
    (parts.filter (· != "")).foldl follow location = parts.foldl follow location := by
  induction parts generalizing location with
  | nil => rfl
  | cons part parts ih =>
    by_cases hpart : part = ""
    · rw [List.filter_cons_of_neg (by simp [hpart]), ih, List.foldl_cons, hpart]
      rfl
    · rw [List.filter_cons_of_pos (by simpa using hpart), List.foldl_cons, ih, List.foldl_cons]

namespace Tree

variable {tree tree' : Tree}

theorem eq_follow_of_descend {part : String} {next : Location} (hpart : part ≠ "")
    (h : tree.descend location part = .ok next) : next = follow location part := by
  rw [descend] at h
  split at h
  · next hdot =>
    rw [follow, if_pos ((isIdle_iff part).mpr (.inr hdot))]
    exact (Except.ok.inj h).symm
  next hdot =>
  rw [follow, if_neg fun hidle => ((isIdle_iff part).mp hidle).elim hpart hdot]
  split at h
  · next hdots =>
    rw [if_pos hdots]
    exact (Except.ok.inj h).symm
  next hdots =>
  rw [if_neg hdots]
  split at h
  · cases h
  split at h
  · cases h
  · cases h
  · exact (Except.ok.inj h).symm

theorem eq_foldl_of_foldlM_descend {last : Location} (hparts : ∀ part ∈ parts, part ≠ "")
    (h : parts.foldlM tree.descend location = .ok last) : last = parts.foldl follow location := by
  induction parts generalizing location with
  | nil => exact (Except.ok.inj h).symm
  | cons part parts ih =>
    rw [List.foldlM_cons] at h
    cases hnext : tree.descend location part with
    | error fault => rw [hnext] at h; cases h
    | ok next =>
      rw [hnext] at h
      rw [List.foldl_cons, ← eq_follow_of_descend (hparts part List.mem_cons_self) hnext]
      exact ih (fun p hp => hparts p (List.mem_cons_of_mem part hp)) h

theorem location_of_targetAt {part : String} {asDirectory : Bool} {target : Target}
    (hpart : part ≠ "") (h : targetAt location part asDirectory = .ok target) :
    target.location = follow location part := by
  rw [targetAt] at h
  split at h
  · next hdot =>
    rw [follow, if_pos ((isIdle_iff part).mpr (.inr hdot)), ← Except.ok.inj h]
    rfl
  next hdot =>
  rw [follow, if_neg fun hidle => ((isIdle_iff part).mp hidle).elim hpart hdot]
  split at h
  · next hdots =>
    rw [if_pos hdots, ← Except.ok.inj h]
    rfl
  next hdots =>
  rw [if_neg hdots]
  split at h
  · cases h
  · rw [← Except.ok.inj h]
    rfl

theorem ne_of_mem_filter {parts : List String} : ∀ part ∈ parts.filter (· != ""), part ≠ "" :=
  fun _ hpart => by simpa using (List.mem_filter.mp hpart).2

/-- **A path leads to its place**, if it leads anywhere. -/
theorem place_of_locate {target : Target} (h : tree.locate path = .ok target) :
    target.location = tree.place path := by
  rw [place, ← foldl_follow_filter path.parts]
  have hne : ∀ part ∈ path.parts.filter (· != ""), part ≠ "" := ne_of_mem_filter
  obtain ⟨-, ⟨hparts, rfl⟩ | ⟨before, last, dir, hparts, hdir, hlast⟩⟩ := locate_eq_ok_iff.mp h
  · rw [hparts]
    rfl
  · rw [hparts] at hne ⊢
    have hbefore : ∀ part ∈ before, part ≠ "" := fun part hpart =>
      hne part (List.mem_append_left _ hpart)
    rw [List.foldl_append, ← eq_foldl_of_foldlM_descend hbefore hdir]
    exact location_of_targetAt (hne last (List.mem_append_right _ List.mem_cons_self)) hlast

/-- A path that ends with two dots leads to no entry. -/
theorem locate_ne_entry_of_dots (h : path.parts.getLast? = some "..") (asDirectory : Bool) :
    tree.locate path ≠ .ok (.entry location asDirectory) := by
  intro hentry
  obtain ⟨dirs, hparts⟩ := List.getLast?_eq_some_iff.mp h
  obtain ⟨-, ⟨-, hroot⟩ | ⟨before, last, dir, hfilter, -, hlast⟩⟩ := locate_eq_ok_iff.mp hentry
  · cases hroot
  · rw [hparts, List.filter_append, List.filter_cons_of_pos (by decide), List.filter_nil] at hfilter
    obtain ⟨-, hdots⟩ := List.append_inj' hfilter rfl
    obtain rfl := (List.cons.inj hdots).1
    cases hlast

theorem place_of_keeps (h : Keeps tree tree') (path : Path) :
    tree'.place path = tree.place path := by
  rw [place, place, startOf, startOf, h.here_eq]

end Tree

/-! ### What a path names -/

namespace Path

theorem dropIdleEnd_concat (parts : List String) (part : String) :
    dropIdleEnd (parts ++ [part]) =
      if isIdle part then dropIdleEnd parts else parts ++ [part] :=
  List.rdropWhile_concat isIdle parts part

theorem foldl_dropIdleEnd (parts : List String) (location : Location) :
    (dropIdleEnd parts).foldl follow location = parts.foldl follow location := by
  induction parts using List.reverseRecOn with
  | nil => rfl
  | append_singleton parts part ih =>
    rw [dropIdleEnd_concat]
    split
    · next hidle => rw [ih, List.foldl_append, List.foldl_cons, follow_of_isIdle hidle]; rfl
    · rfl

/-- Parts that name nothing lead nowhere. -/
theorem foldl_namedParts (path : Path) (location : Location) :
    path.namedParts.foldl follow location = path.parts.foldl follow location := by
  rw [namedParts]
  split
  · next hparts => rw [hparts]
  · next first rest hparts =>
    rw [hparts, List.foldl_cons, ← foldl_dropIdleEnd rest]
    split
    · next hrest =>
      rw [hrest]
      split
      · next hfirst =>
        have hidle : isIdle first = true := by
          rw [isIdleFirst, Bool.or_eq_true, Bool.and_eq_true] at hfirst
          rw [isIdle, Bool.or_eq_true]
          exact hfirst.imp_right And.right
        rw [follow_of_isIdle hidle]
      · rfl
    · rfl

/-- A last part that names something is named. -/
theorem namedParts_concat (path : Path) (dir : List String) (h : isIdle name = false) :
    namedParts { path with parts := dir ++ [name] } = dir ++ [name] := by
  cases dir with
  | nil =>
    have hfirst : isIdleFirst { path with parts := [name] } name = false := by
      rw [isIdle, Bool.or_eq_false_iff] at h
      rw [isIdleFirst, h.1, h.2, Bool.and_false, Bool.or_false]
    show (if isIdleFirst { path with parts := [name] } name then [] else [name]) = [name]
    rw [hfirst, if_neg Bool.false_ne_true]
  | cons first dir =>
    have hend : dropIdleEnd (dir ++ [name]) = dir ++ [name] := by
      rw [dropIdleEnd_concat, h, if_neg Bool.false_ne_true]
    rw [namedParts, List.cons_append]
    dsimp only
    rw [hend]
    split
    · next hnil => exact absurd hnil (List.append_ne_nil_of_right_ne_nil dir (List.cons_ne_nil _ _))
    · rfl

/-- The last of the parts that a path names is not empty. -/
theorem getLast?_namedParts (path : Path) : path.namedParts.getLast? ≠ some "" := by
  rw [namedParts]
  split
  · nofun
  · next first rest _ =>
    split
    · split
      · nofun
      · next hfirst =>
        rintro hlast
        obtain rfl : first = "" := Option.some.inj hlast
        exact hfirst rfl
    · next hrest =>
      intro hlast
      have hidle := List.rdropWhile_last_not isIdle rest hrest
      rw [List.getLast?_cons, List.getLast?_eq_some_getLast hrest] at hlast
      exact hidle ((isIdle_iff _).mpr (.inl (Option.some.inj hlast)))

/-- A path with a file name names a directory and the file. -/
theorem exists_namedParts (h : path.fileName? = some name) :
    ∃ dir, path.namedParts = dir ++ [name] ∧ isIdle name = false ∧ name ≠ ".." := by
  rw [fileName?, Option.filter_eq_some_iff] at h
  obtain ⟨hlast, hname⟩ := h
  rw [Bool.and_eq_true, bne_iff_ne, bne_iff_ne] at hname
  obtain ⟨dir, hparts⟩ := List.getLast?_eq_some_iff.mp hlast
  refine ⟨dir, hparts, ?_, hname.2⟩
  rw [Bool.eq_false_iff, ne_eq, isIdle_iff, not_or]
  exact ⟨fun hempty => getLast?_namedParts path (hempty ▸ hlast), hname.1⟩

theorem parent?_of_namedParts (h : path.namedParts = dir ++ [name]) :
    path.parent? = some { path with parts := namedParts { path with parts := dir } } := by
  rw [parent?, h]
  split
  · next hnil => exact absurd hnil (List.append_ne_nil_of_right_ne_nil dir (List.cons_ne_nil _ _))
  · rw [List.dropLast_concat]

theorem place_of_namedParts (tree : Tree) (h : path.namedParts = dir ++ [name]) :
    tree.place path = follow (dir.foldl follow (tree.startOf path)) name := by
  rw [Tree.place, ← foldl_namedParts, h, List.foldl_append]
  rfl

/-- A name does not lead where another one does, nor where two dots do. -/
theorem follow_ne {base : String} (hidle : isIdle name = false) (hdots : name ≠ "..")
    (hbase : isIdle base = false) (hne : base ≠ name) (location : Location) :
    follow location base ≠ follow location name := by
  rw [follow_of_name hidle hdots, follow, hbase, if_neg Bool.false_ne_true]
  split
  · intro heq
    have hlength := congrArg List.length heq
    rw [List.length_dropLast, List.length_append, List.length_singleton] at hlength
    omega
  · intro heq
    exact hne (List.cons.inj (List.append_cancel_left heq)).1

/-! ### Another extension -/

/-- The stem of a name is the name without its last extension, or the whole name. -/
theorem stem_cases (name : String) :
    stem name = name ∨ ∃ ext, name.toList = (stem name).toList ++ '.' :: ext ∧ '.' ∉ ext := by
  have hsplit : name.toList.reverse.takeWhile (· != '.') ++
      name.toList.reverse.dropWhile (· != '.') = name.toList.reverse :=
    List.takeWhile_append_dropWhile
  have hstop := List.head?_dropWhile_not (· != '.') name.toList.reverse
  rw [stem, List.span_eq_takeWhile_dropWhile]
  split
  · next ext dot base heq =>
    obtain ⟨hext, hbase⟩ := Prod.mk.inj heq
    rw [hbase] at hstop
    obtain rfl : dot = '.' := by simpa using hstop
    split
    · exact .inl rfl
    · rw [hext, hbase] at hsplit
      refine .inr ⟨ext.reverse, ?_, fun hdot => ?_⟩
      · rw [← List.reverse_reverse name.toList, ← hsplit]
        simp
      · rw [List.mem_reverse, ← hext] at hdot
        simpa using List.mem_takeWhile_imp hdot
  · exact .inl rfl

/-- A name whose last extension is replaced by one with a dot in it is another name. -/
theorem stem_append_ne {ext : String} (hdot : '.' ∈ ext.toList) (name : String) :
    stem name ++ "." ++ ext ≠ name := by
  intro heq
  have hlist : (stem name).toList ++ '.' :: ext.toList = name.toList := by
    simpa using congrArg String.toList heq
  rcases stem_cases name with hstem | ⟨ext', hname, hno⟩
  · rw [hstem] at hlist
    exact absurd (congrArg List.length hlist) (by simp)
  · rw [hname] at hlist
    exact hno ((List.cons.inj (List.append_cancel_left hlist)).2 ▸ hdot)

/-- Without its last extension a name is what stood before the extension. -/
theorem stem_append_ext {base ext : String} (hbase : base ≠ "") (hno : '.' ∉ ext.toList) :
    stem (base ++ "." ++ ext) = base := by
  have hreverse : (base ++ "." ++ ext).toList.reverse =
      ext.toList.reverse ++ '.' :: base.toList.reverse := by
    simp
  have hext : ∀ c ∈ ext.toList.reverse, (c != '.') = true := fun c hc =>
    bne_iff_ne.mpr fun heq => hno (List.mem_reverse.mp (heq ▸ hc))
  rw [stem, hreverse, List.span_eq_takeWhile_dropWhile, List.dropWhile_append_of_pos hext]
  simp [hbase]

/-- A name with something else than dots in its extension is a name. -/
theorem isName_append_ext {ext : String} (hmark : ∃ c ∈ ext.toList, c ≠ '.') (base : String) :
    isIdle (base ++ "." ++ ext) = false ∧ base ++ "." ++ ext ≠ ".." := by
  obtain ⟨c, hc, hmark⟩ := hmark
  have hmem : c ∈ (base ++ "." ++ ext).toList := by simp [hc]
  rw [Bool.eq_false_iff, ne_eq, isIdle_iff, not_or]
  refine ⟨⟨fun heq => ?_, fun heq => ?_⟩, fun heq => ?_⟩ <;> rw [heq] at hmem
  · cases hmem
  · exact hmark (by simpa using hmem)
  · exact hmark (by simpa using hmem)

/-- The file name is two dots and an extension without a dot, and the path ends with it. -/
def IsBare (path : Path) : Prop :=
  ∃ ext, '.' ∉ ext.toList ∧ path.fileName? = some (".." ++ ext) ∧
    path.parts.getLast? = some (".." ++ ext)

/-- These are the names that have only a dot before their extension. -/
theorem isBare_iff (hname : path.fileName? = some name) :
    path.IsBare ↔ stem name = "." ∧ path.parts.getLast? = some name := by
  constructor
  · rintro ⟨ext, hno, hsame, hlast⟩
    obtain rfl : name = "." ++ "." ++ ext := Option.some.inj (hname.symm.trans hsame)
    exact ⟨stem_append_ext (by decide) hno, hlast⟩
  · rintro ⟨hstem, hlast⟩
    obtain ⟨-, -, hidle, -⟩ := exists_namedParts hname
    rcases stem_cases name with hwhole | ⟨ext, hname', hno⟩
    · rw [← hwhole, hstem] at hidle
      cases hidle
    · obtain rfl : name = ".." ++ String.ofList ext := by
        rw [← String.toList_inj, hname', hstem]
        simp
      exact ⟨String.ofList ext, by simpa using hno, hname, hlast⟩

/-- The end of a path with another extension: two dots after a bare name, or else a name. -/
theorem exists_withExtension {ext : String} (hdot : '.' ∈ ext.toList)
    (hmark : ∃ c ∈ ext.toList, c ≠ '.') (hname : path.fileName? = some name)
    (hparts : path.namedParts = dir ++ [name]) :
    ∃ base, path.withExtension ext = { path with parts := dir ++ [base] } ∧
      isIdle base = false ∧ base ≠ name ∧ (path.IsBare ↔ base = "..") := by
  obtain ⟨-, -, -, hdots⟩ := exists_namedParts hname
  rw [withExtension, hname]
  dsimp only
  rw [hparts, List.dropLast_concat]
  refine ⟨_, rfl, ?_⟩
  rw [isBare_iff hname]
  split
  · next h =>
    rw [Bool.and_eq_true, decide_eq_true_iff, decide_eq_true_iff] at h
    exact ⟨by decide, hdots.symm, iff_of_true h rfl⟩
  · next h =>
    rw [Bool.and_eq_true, decide_eq_true_iff, decide_eq_true_iff] at h
    obtain ⟨hidle, hne⟩ := isName_append_ext hmark (stem name)
    exact ⟨hidle, stem_append_ne hdot name, iff_of_false h hne⟩

/-- The path names something else beside what the first one names.  After a bare name it ends with
two dots. -/
structure Sibling (path other : Path) : Prop where
  /-- It is another path. -/
  ne : other ≠ path
  /-- It has the same parent. -/
  parent?_eq : other.parent? = path.parent?
  /-- It has another place, in every tree. -/
  place_ne : ∀ tree : Tree, tree.place other ≠ tree.place path
  /-- Its place is in the same directory. -/
  dropLast_eq : ¬ path.IsBare → ∀ tree : Tree,
    (tree.place other).dropLast = (tree.place path).dropLast
  /-- After a bare name there are two dots, which name no file. -/
  dots : path.IsBare → other.parts.getLast? = some ".."

/-- **A path with another extension is a sibling**, if there is a dot in the extension, and
something else. -/
theorem sibling_withExtension {ext : String} (hdot : '.' ∈ ext.toList)
    (hmark : ∃ c ∈ ext.toList, c ≠ '.') (hname : path.fileName? = some name) :
    Sibling path (path.withExtension ext) := by
  obtain ⟨dir, hparts, hidle, hdots⟩ := exists_namedParts hname
  obtain ⟨base, hpath, hbase, hne, hbare⟩ := exists_withExtension hdot hmark hname hparts
  have hparts' : (path.withExtension ext).namedParts = dir ++ [base] := by
    rw [hpath, namedParts_concat path dir hbase]
  have hplace : ∀ tree : Tree, tree.place (path.withExtension ext) =
      follow (dir.foldl follow (tree.startOf path)) base := fun tree => by
    rw [place_of_namedParts tree hparts', hpath]
    rfl
  refine ⟨fun heq => ?_, ?_, fun tree => ?_, fun hnot tree => ?_, fun hdots => ?_⟩
  · rw [heq, hparts] at hparts'
    exact hne (List.cons.inj (List.append_cancel_left hparts')).1.symm
  · rw [parent?_of_namedParts hparts, parent?_of_namedParts hparts', hpath]
  · rw [place_of_namedParts tree hparts, hplace]
    exact follow_ne hidle hdots hbase hne _
  · rw [place_of_namedParts tree hparts, hplace, follow_of_name hidle hdots,
      follow_of_name hbase fun heq => hnot (hbare.mpr heq), List.dropLast_concat,
      List.dropLast_concat]
  · rw [hpath, hbare.mp hdots, List.getLast?_concat]

end Path

end Agenda
