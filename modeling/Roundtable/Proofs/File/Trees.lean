import Mathlib.Data.List.Induction
import Roundtable.File.Program
import Roundtable.Proofs.Lists

/-!
# Walks in a tree of files

What a path leads to, and what making directories and files changes about that. **A tree is
sound if everything in it stands in a directory** (`Roundtable.FileTree.IsSound`); then
nothing is found below a place where nothing stands, so a directory that is made is empty.

A tree that only grows keeps its walks (`Roundtable.FileTree.Grows.walk`): a path that led
somewhere still leads there. Making the directories along a path does nothing where the path
leads to a directory already (`Roundtable.FileTree.makeAlong_append`).
-/

namespace Roundtable

/-! ### Names and paths -/

namespace Text

/-- A text without the mark is one piece. -/
theorem pieces_of_notMem {c : Char} {s : List Char} (h : c ∉ s) : pieces c s = [s] := by
  induction s with
  | nil => rfl
  | cons d r ih =>
    rw [List.mem_cons, not_or] at h
    rw [pieces, if_neg (Ne.symm h.1), ih h.2]

/-- A mark cuts a text. -/
theorem pieces_append_cons (c : Char) (s t : List Char) :
    pieces c (s ++ c :: t) = pieces c s ++ pieces c t := by
  induction s with
  | nil => simp [pieces]
  | cons d r ih =>
    rw [List.cons_append, pieces, pieces]
    by_cases hd : d = c
    · rw [if_pos hd, if_pos hd, ih]
      rfl
    · rw [if_neg hd, if_neg hd, ih]
      cases hp : pieces c r with
      | nil =>
        have hne : pieces c r ≠ [] := by
          cases r with
          | nil => simp [pieces]
          | cons e r =>
            rw [pieces]
            split
            · simp
            · split <;> simp
        exact absurd hp hne
      | cons p ps => rfl

end Text

namespace Path

/-- A name that is one part of a path, and leads below the directory it stands in. -/
structure IsName (name : String) : Prop where
  noSlash : '/' ∉ name.toList
  notEmpty : name.toList ≠ []
  notHere : name ≠ "."
  notAbove : name ≠ ".."

variable {base name : String}

theorem IsName.isAbsolute (h : IsName name) : isAbsolute name = false := by
  unfold Path.isAbsolute
  cases hc : name.toList with
  | nil => rfl
  | cons c r =>
    have hne : c ≠ '/' := by
      rintro rfl
      exact h.noSlash (by rw [hc]; exact List.mem_cons_self)
    simpa using hne

/-- The text of a path that ends with a name. -/
theorem toList_join (base : String) (h : IsName name) :
    (join base name).toList = base.toList ++ name.toList ∧
        (base.toList = [] ∨ ∃ s, base.toList = s ++ ['/']) ∨
      (join base name).toList = base.toList ++ '/' :: name.toList ∧ base.toList ≠ [] := by
  unfold join
  rw [if_neg (by rw [h.isAbsolute]; exact Bool.false_ne_true)]
  split
  · next hbase =>
    refine .inl ⟨String.toList_append, ?_⟩
    rw [Bool.or_eq_true, beq_iff_eq] at hbase
    rcases hbase with hempty | hlast
    · exact .inl (by simpa using hempty)
    · obtain ⟨s, hs⟩ := List.getLast?_eq_some_iff.mp hlast
      exact .inr ⟨s, hs⟩
  · next hbase =>
    refine .inr ⟨by simp, fun hnil => hbase ?_⟩
    rw [Bool.or_eq_true]
    exact .inl (by simpa using hnil)

theorem pieces_name (h : IsName name) :
    ((Text.pieces '/' name.toList).filter (!·.isEmpty)).map String.ofList = [name] := by
  rw [Text.pieces_of_notMem h.noSlash]
  have hne : name.toList.isEmpty = false := by simpa using h.notEmpty
  simp [hne]

/-- **A path into a directory is the path of the directory, and a name.** -/
theorem parts_join (h : IsName name) : parts (join base name) = parts base ++ [name] := by
  unfold parts
  rcases toList_join base h with ⟨hjoin, hnil | ⟨s, hs⟩⟩ | ⟨hjoin, -⟩
  · rw [hjoin, hnil, List.nil_append, pieces_name h]
    rfl
  · rw [hjoin, hs, List.append_assoc, List.singleton_append, Text.pieces_append_cons,
      Text.pieces_append_cons, List.filter_append, List.filter_append, List.map_append,
      List.map_append, pieces_name h]
    simp [Text.pieces]
  · rw [hjoin, Text.pieces_append_cons, List.filter_append, List.map_append, pieces_name h]

theorem isAbsolute_join (h : IsName name) : isAbsolute (join base name) = isAbsolute base := by
  rcases toList_join base h with ⟨hjoin, hnil | ⟨s, hs⟩⟩ | ⟨hjoin, hne⟩
  · have hname := h.isAbsolute
    unfold isAbsolute at hname ⊢
    rw [hjoin, hnil, List.nil_append, hname]
    rfl
  · unfold isAbsolute
    rw [hjoin, hs]
    cases s <;> rfl
  · unfold isAbsolute
    rw [hjoin]
    cases hb : base.toList with
    | nil => exact absurd hb hne
    | cons c r => rfl

end Path

namespace FileTree

variable {t t' : FileTree} {here place : List String} {path name : String}

/-! ### Places -/

theorem lookup_set_self (h : place ≠ []) (n : FileNode) :
    (t.set place n).lookup place = some n := by
  rw [lookup, if_neg (by simpa using h), set, List.lookup_append, lookup_filter_self]
  simp

theorem lookup_set_ne {q : List String} (h : q ≠ place) (n : FileNode) :
    (t.set place n).lookup q = t.lookup q := by
  have hq : (q == place) = false := beq_eq_false_iff_ne.mpr h
  rw [lookup, lookup, set, List.lookup_append, lookup_filter_ne h, List.lookup_cons, hq]
  simp

/-- Where nothing stood a node is put behind all others. -/
theorem entries_set (h : t.lookup place = none) (n : FileNode) :
    (t.set place n).entries = t.entries ++ [(place, n)] := by
  unfold lookup at h
  split at h
  · cases h
  · rw [List.lookup_eq_none_iff] at h
    have hall : t.entries.filter (·.1 != place) = t.entries := by
      rw [List.filter_eq_self]
      intro x hx
      simpa [bne_comm] using h x hx
    rw [set, hall]

/-- Putting two nodes in one place leaves the second. -/
theorem set_set (n m : FileNode) : (t.set place n).set place m = t.set place m := by
  simp [set, List.filter_append]

/-! ### Sound trees -/

/-- **Everything in the tree stands in a directory.** -/
structure IsSound (t : FileTree) : Prop where
  parents : ∀ x ∈ t.entries, x.1 ≠ [] ∧ t.lookup x.1.dropLast = some .directory
  working : t.lookup t.workingDirectory = some .directory

/-- The root alone is sound. -/
theorem isSound_empty : empty.IsSound := ⟨List.forall_mem_nil _, rfl⟩

/-- **The tree has grown**: its directories stand where they stood. -/
structure Grows (t t' : FileTree) : Prop where
  directories : ∀ p, t.lookup p = some .directory → t'.lookup p = some .directory
  working : t'.workingDirectory = t.workingDirectory

theorem Grows.refl (t : FileTree) : t.Grows t := ⟨fun _ h => h, rfl⟩

theorem Grows.trans {u : FileTree} (h : t.Grows t') (h' : t'.Grows u) : t.Grows u :=
  ⟨fun p hp => h'.directories p (h.directories p hp), h'.working.trans h.working⟩

/-- A node that does not stand in place of a directory lets the tree grow. -/
theorem grows_set (h : place ≠ []) {n : FileNode}
    (hn : t.lookup place = some .directory → n = .directory) : t.Grows (t.set place n) := by
  refine ⟨fun p hp => ?_, rfl⟩
  by_cases heq : p = place
  · rw [heq, lookup_set_self h, hn (heq ▸ hp)]
  · rw [lookup_set_ne heq, hp]

/-- **A node that is put into a directory leaves the tree sound.** -/
theorem IsSound.set (h : t.IsSound) {n : FileNode} (hne : place ≠ [])
    (hn : t.lookup place = some .directory → n = .directory)
    (hp : t.lookup place.dropLast = some .directory) : (t.set place n).IsSound := by
  have hgrows := grows_set hne hn
  refine ⟨fun x hx => ?_, hgrows.directories _ h.working⟩
  rcases List.mem_append.mp hx with hx | hx
  · obtain ⟨hx, hd⟩ := h.parents x (List.mem_of_mem_filter hx)
    exact ⟨hx, hgrows.directories _ hd⟩
  · obtain rfl := List.mem_singleton.mp hx
    exact ⟨hne, hgrows.directories _ hp⟩

/-! ### Walks -/

/-- A name leads into the directory. -/
theorem stepTo_name (h : Path.IsName name) {next : List String}
    (hs : stepTo here name = .ok next) : next = here ++ [name] := by
  unfold stepTo at hs
  rw [if_neg (by simpa using h.notHere), if_neg (by simpa using h.notAbove)] at hs
  split at hs
  · cases hs
  · exact (Except.ok.inj hs).symm

/-- A name that is not too long can be stepped to. -/
theorem stepTo_eq (h : Path.IsName name) (hsize : name.utf8ByteSize ≤ longestName)
    (here : List String) : stepTo here name = .ok (here ++ [name]) := by
  rw [stepTo, if_neg (by simpa using h.notHere), if_neg (by simpa using h.notAbove),
    if_neg (Nat.not_lt.mpr hsize)]

theorem walk_cons {part : String} {r : List String} :
    t.walk here (part :: r) = .ok place ↔ t.lookup here = some .directory ∧
      ∃ next, stepTo here part = .ok next ∧ t.walk next r = .ok place := by
  rw [walk]
  cases t.lookup here with
  | none => simp
  | some n =>
    cases n with
    | file text => simp
    | directory =>
      cases stepTo here part <;> simp [bind, Except.bind]

/-- A walk goes on where another one has led to. -/
theorem walk_append {ps qs : List String} : t.walk here (ps ++ qs) = .ok place ↔
    ∃ mid, t.walk here ps = .ok mid ∧ t.walk mid qs = .ok place := by
  induction ps generalizing here with
  | nil => simp [walk]
  | cons part r ih =>
    rw [List.cons_append, walk_cons]
    simp only [walk_cons, ih]
    constructor
    · rintro ⟨hd, next, hs, mid, hmid, hplace⟩
      exact ⟨mid, ⟨hd, next, hs, hmid⟩, hplace⟩
    · rintro ⟨mid, ⟨hd, next, hs, hmid⟩, hplace⟩
      exact ⟨hd, next, hs, mid, hmid, hplace⟩

theorem walk_append_of_ok {ps qs : List String} {mid : List String}
    (h : t.walk here ps = .ok mid) : t.walk here (ps ++ qs) = t.walk mid qs := by
  induction ps generalizing here with
  | nil =>
    rw [Except.ok.inj h]
    rfl
  | cons part r ih =>
    obtain ⟨hd, next, hs, hw⟩ := walk_cons.mp h
    rw [List.cons_append, walk]
    simp only [hd, hs, bind, Except.bind]
    exact ih hw

/-- **A tree that grows keeps its walks.** -/
theorem Grows.walk (h : t.Grows t') {ps : List String} (hw : t.walk here ps = .ok place) :
    t'.walk here ps = .ok place := by
  induction ps generalizing here with
  | nil => exact hw
  | cons part r ih =>
    obtain ⟨hd, next, hs, hw⟩ := walk_cons.mp hw
    exact walk_cons.mpr ⟨h.directories _ hd, next, hs, ih hw⟩

/-- A walk that leads to a directory starts in one. -/
theorem lookup_of_walk {ps : List String} (hw : t.walk here ps = .ok place)
    (hp : t.lookup place = some .directory) : t.lookup here = some .directory := by
  cases ps with
  | nil => rwa [Except.ok.inj hw]
  | cons part r => exact (walk_cons.mp hw).1

theorem resolve_eq_ok : t.resolve path = .ok place ↔
    checkPath path = .ok () ∧ t.walk (t.origin path) (Path.parts path) = .ok place := by
  unfold resolve
  cases checkPath path <;> simp [bind, Except.bind]

/-- A path that led somewhere still leads there. -/
theorem Grows.resolve (h : t.Grows t') (hr : t.resolve path = .ok place) :
    t'.resolve path = .ok place := by
  rw [resolve_eq_ok] at hr ⊢
  refine ⟨hr.1, ?_⟩
  rw [origin, h.working]
  exact h.walk hr.2

theorem origin_join (h : Path.IsName name) : t.origin (Path.join path name) = t.origin path := by
  rw [origin, origin, Path.isAbsolute_join h]

/-- What a path without its last name stands for can be walked if it can. -/
theorem checkPath_join (h : Path.IsName name) (hne : path.isEmpty = false)
    (hc : checkPath (Path.join path name) = .ok ()) : checkPath path = .ok () := by
  have hjoin : ∃ s, Path.join path name = path ++ s := by
    unfold Path.join
    rw [if_neg (by rw [h.isAbsolute]; exact Bool.false_ne_true)]
    split
    · exact ⟨name, rfl⟩
    · exact ⟨"/" ++ name, String.append_assoc ..⟩
  obtain ⟨s, hs⟩ := hjoin
  rw [hs] at hc
  unfold checkPath at hc ⊢
  split at hc
  · cases hc
  · next hnull =>
    split at hc
    · cases hc
    · split at hc
      · cases hc
      · next hlen =>
        rw [if_neg, if_neg (by rw [hne]; exact Bool.false_ne_true), if_neg]
        · rw [String.utf8ByteSize_append] at hlen
          omega
        · intro hmem
          refine hnull ?_
          rw [String.toList_append]
          simpa using Or.inl (by simpa using hmem)

/-! ### Making directories -/

/-- **A walk that ends in a directory makes nothing.** -/
theorem makeAlong_append {ps qs : List String} (hw : t.walk here ps = .ok place)
    (hp : t.lookup place = some .directory) :
    t.makeAlong here (ps ++ qs) = t.makeAlong place qs := by
  induction ps generalizing here with
  | nil =>
    rw [Except.ok.inj hw]
    rfl
  | cons part r ih =>
    obtain ⟨-, next, hs, hw⟩ := walk_cons.mp hw
    rw [List.cons_append, makeAlong]
    simp only [hs, lookup_of_walk hw hp]
    exact ih hw

/-- **A directory that is there is not made again.** -/
theorem makeDirs_self (hr : t.resolve path = .ok place) (hd : t.lookup place = some .directory) :
    t.makeDirs path = (.ok (), t) := by
  obtain ⟨hcheck, hwalk⟩ := resolve_eq_ok.mp hr
  have halong : t.makeAlong _ (Path.parts path ++ []) = _ := makeAlong_append hwalk hd
  rw [List.append_nil, makeAlong] at halong
  rw [makeDirs, hcheck, halong, ite_self]

/-- What stands somewhere stands in a directory. -/
theorem IsSound.lookup_dropLast (h : t.IsSound) {n : FileNode} (hp : t.lookup place = some n) :
    t.lookup place.dropLast = some .directory := by
  unfold lookup at hp
  split at hp
  · next hnil =>
    rw [List.isEmpty_iff.mp hnil]
    rfl
  · obtain ⟨l₁, l₂, hl, -⟩ := List.lookup_eq_some_iff.mp hp
    exact (h.parents (place, n) (by rw [hl]; simp)).2

/-- **Below a place where nothing stands nothing stands.** -/
theorem IsSound.isPrefixOf_eq_false (h : t.IsSound) (hp : t.lookup place = none)
    {x : List String × FileNode} (hx : x ∈ t.entries) : place.isPrefixOf x.1 = false := by
  rw [Bool.eq_false_iff, ne_eq, List.isPrefixOf_iff_prefix]
  rintro ⟨rest, hrest⟩
  -- What stands above it is a directory, all the way up to the place.
  have hup : ∀ rest n, t.lookup (place ++ rest) = some n → False := by
    intro rest
    induction rest using List.reverseRecOn with
    | nil =>
      intro n hn
      rw [List.append_nil, hp] at hn
      cases hn
    | append_singleton rest name ih =>
      intro n hn
      have hd := h.lookup_dropLast hn
      rw [← List.append_assoc, List.dropLast_concat] at hd
      exact ih _ hd
  have hsome : (t.lookup x.1).isSome := by
    rw [lookup, if_neg (by simpa using (h.parents x hx).1), List.lookup_isSome_iff]
    exact ⟨x, hx, beq_self_eq_true _⟩
  obtain ⟨n, hn⟩ := Option.isSome_iff_exists.mp hsome
  rw [← hrest] at hn
  exact hup rest n hn

/-- **What is put where nothing stood and taken away leaves no trace.** -/
theorem IsSound.erase_set (h : t.IsSound) (hp : t.lookup place = none) (n : FileNode) :
    (t.set place n).erase place = t := by
  have hkept : t.entries.filter (fun x => !place.isPrefixOf x.1) = t.entries :=
    List.filter_eq_self.mpr fun x hx => by rw [h.isPrefixOf_eq_false hp hx]; rfl
  have hself : place.isPrefixOf place = true :=
    List.isPrefixOf_iff_prefix.mpr (List.prefix_refl place)
  have hentries : ((t.set place n).entries.filter fun x => !place.isPrefixOf x.1) = t.entries := by
    rw [entries_set hp, List.filter_append, hkept, List.filter_singleton, hself]
    exact List.append_nil _
  calc (t.set place n).erase place = ⟨t.entries, t.workingDirectory⟩ :=
        congrArg (FileTree.mk · t.workingDirectory) hentries
    _ = t := rfl

/-- A step from a directory to a place where nothing stands goes down. -/
theorem stepTo_fresh {part : String} {next : List String} (h : t.IsSound)
    (hd : t.lookup here = some .directory) (hs : stepTo here part = .ok next)
    (hn : t.lookup next = none) : next ≠ [] ∧ t.lookup next.dropLast = some .directory := by
  unfold stepTo at hs
  split at hs
  · rw [← Except.ok.inj hs, hd] at hn
    cases hn
  · split at hs
    · rw [← Except.ok.inj hs, h.lookup_dropLast hd] at hn
      cases hn
    · split at hs
      · cases hs
      · obtain rfl := Except.ok.inj hs
        exact ⟨by simp, by rwa [List.dropLast_concat]⟩

/-- **The directories along a path are made**: the path leads to a directory then, and what
was there still is. -/
theorem IsSound.makeAlong {ps : List String} (h : t.IsSound) (hd : t.lookup here = some .directory)
    (hm : t.makeAlong here ps = (.ok (), t')) : t'.IsSound ∧ t.Grows t' ∧
      ∃ place, t'.walk here ps = .ok place ∧ t'.lookup place = some .directory := by
  induction ps generalizing t here with
  | nil =>
    obtain rfl := (Prod.mk.inj hm).2
    exact ⟨h, .refl t, here, rfl, hd⟩
  | cons part r ih =>
    rw [FileTree.makeAlong] at hm
    cases hs : stepTo here part with
    | error e =>
      rw [hs] at hm
      cases (Prod.mk.inj hm).1
    | ok next =>
      simp only [hs] at hm
      split at hm
      · next hnext =>
        obtain ⟨hsound, hgrows, place, hw, hp⟩ := ih h hnext hm
        exact ⟨hsound, hgrows, place,
          walk_cons.mpr ⟨hgrows.directories _ hd, next, hs, hw⟩, hp⟩
      · cases (Prod.mk.inj hm).1
      · next hnone =>
        obtain ⟨hne, hparent⟩ := stepTo_fresh h hd hs hnone
        have hn : t.lookup next = some .directory → FileNode.directory = .directory := fun _ => rfl
        have hset := grows_set hne hn
        obtain ⟨hsound, hgrows, place, hw, hp⟩ :=
          ih (h.set hne hn hparent) (lookup_set_self hne _) hm
        have hall := hset.trans hgrows
        exact ⟨hsound, hall, place, walk_cons.mpr ⟨hall.directories _ hd, next, hs, hw⟩, hp⟩

/-! ### What stands in a directory -/

/-- The names in a place, each with whether it is a directory. -/
def children (t : FileTree) (place : List String) : List (String × Bool) :=
  t.entries.filterMap fun (p, n) =>
    match p.getLast? with
    | some name => if p.dropLast = place then some (name, n == .directory) else none
    | none => none

/-- What stands in a directory is listed. -/
theorem list_eq (t : FileTree) (path : String) : t.list path = (t.resolve path).bind fun place =>
    match t.lookup place with
    | some .directory => .ok (t.children place)
    | some (.file _) => .error .notDirectory
    | none => .error .noEntry := rfl

theorem list_eq_ok {names : List (String × Bool)} : t.list path = .ok names ↔
    ∃ place, t.resolve path = .ok place ∧ t.lookup place = some .directory ∧
      names = t.children place := by
  rw [list_eq]
  cases t.resolve path with
  | error e => simp [Except.bind]
  | ok place =>
    simp only [Except.bind, Except.ok.injEq, exists_eq_left']
    cases t.lookup place with
    | none => simp
    | some n =>
      cases n with
      | file text => simp
      | directory =>
        rw [Except.ok.injEq]
        exact ⟨fun h => ⟨rfl, h.symm⟩, fun h => h.2.symm⟩

/-- What stands in a place is found there. -/
theorem mem_children {n : FileNode} (h : t.lookup (here ++ [name]) = some n) :
    (name, n == .directory) ∈ t.children here := by
  rw [lookup, if_neg (by simp)] at h
  refine List.mem_filterMap.mpr ⟨(here ++ [name], n), mem_of_lookup h, ?_⟩
  simp

/-- What is found in a place stands there. -/
theorem exists_of_mem_children {b : Bool} (h : (name, b) ∈ t.children here) :
    ∃ n, t.lookup (here ++ [name]) = some n := by
  obtain ⟨⟨p, n⟩, hx, hname⟩ := List.mem_filterMap.mp h
  have hp : p = here ++ [name] := by
    rcases p.eq_nil_or_concat with rfl | ⟨dir, last, rfl⟩
    · cases hname
    · simp only [List.concat_eq_append, List.getLast?_concat, List.dropLast_concat] at hname
      split at hname
      · next hdir => rw [hdir, (Prod.mk.inj (Option.some.inj hname)).1, List.concat_eq_append]
      · cases hname
  rw [lookup, if_neg (by simp), ← Option.isSome_iff_exists, List.lookup_isSome_iff]
  exact ⟨_, hx, by simp [hp]⟩

/-- **Nothing is found where nothing stands.** -/
theorem IsSound.children_eq_nil (h : t.IsSound) (hp : t.lookup place ≠ some .directory) :
    t.children place = [] := by
  rw [children, List.filterMap_eq_nil_iff]
  rintro ⟨p, n⟩ hx
  have hd := (h.parents _ hx).2
  have hne : p.dropLast ≠ place := by
    rintro rfl
    exact hp hd
  dsimp only
  split
  · rw [if_neg hne]
  · rfl

/-- A node in a new place is found last in its directory, and nowhere else. -/
theorem children_set (hp : t.lookup (here ++ [name]) = none) (n : FileNode) :
    (t.set (here ++ [name]) n).children here = t.children here ++ [(name, n == .directory)] ∧
      ∀ q, q ≠ here → (t.set (here ++ [name]) n).children q = t.children q := by
  unfold children
  rw [entries_set hp]
  refine ⟨?_, fun q hq => ?_⟩
  · simp
  · simp [Ne.symm hq]

/-- What is put in a place changes the names in a directory in one way. -/
theorem children_set_congr {u : FileTree} (h : t.children here = u.children here)
    (place : List String) (n : FileNode) :
    (t.set place n).children here = (u.set place n).children here := by
  -- The name of what stood in the place is taken away, and the new name is put behind all.
  have hset (v : FileTree) : (v.set place n).children here =
      (v.children here).filter (here ++ [·.1] != place) ++
        children ⟨[(place, n)], []⟩ here := by
    simp only [children, set, List.filterMap_append, List.filterMap_filter, List.filter_filterMap]
    congr 1
    refine List.filterMap_congr fun x _ => ?_
    rcases x.1.eq_nil_or_concat with hnil | ⟨dir, name, hx⟩
    · simp [hnil]
    · rw [hx, List.concat_eq_append, List.getLast?_concat, List.dropLast_concat]
      by_cases hdir : dir = here
      · subst hdir
        by_cases hp : dir ++ [name] = place <;> simp [hp, Option.filter]
      · simp [hdir]
  rw [hset, hset, h]

theorem read_eq_ok {text : String} : t.read path = .ok text ↔
    ∃ place, t.resolve path = .ok place ∧ t.lookup place = some (.file text) := by
  unfold read
  cases t.resolve path with
  | error e => simp [bind, Except.bind]
  | ok place =>
    simp only [bind, Except.bind, Except.ok.injEq, exists_eq_left']
    cases t.lookup place with
    | none => simp
    | some n => cases n <;> simp

/-- **A file is made where nothing stands**, in a directory. -/
theorem createNew_eq_ok : t.createNew path = (.ok (), t') ↔
    ∃ place, t.resolve path = .ok place ∧ t.lookup place = none ∧
      t.lookup place.dropLast = some .directory ∧ t' = t.set place (.file "") := by
  unfold createNew
  cases t.resolve path with
  | error e => simp
  | ok place =>
    simp only [Except.ok.injEq, exists_eq_left']
    cases t.lookup place with
    | some n => simp
    | none =>
      cases t.lookup place.dropLast with
      | none => simp
      | some n => cases n <;> simp [eq_comm]

/-- Where no file can be made nothing is made. -/
theorem eq_of_createNew_error {e : OsError} (h : t.createNew path = (.error e, t')) : t = t' := by
  unfold createNew at h
  split at h
  · exact (Prod.mk.inj h).2
  · split at h
    · exact (Prod.mk.inj h).2
    · cases (Prod.mk.inj h).1
    · exact (Prod.mk.inj h).2
    · exact (Prod.mk.inj h).2

/-- A file that is there is written. -/
theorem write_eq {text old : String} (hr : t.resolve path = .ok place)
    (hp : t.lookup place = some (.file old)) :
    t.write path text = (.ok (), t.set place (.file text)) := by
  simp only [write, hr, hp]

/-- **What was written is read.** -/
theorem read_of_write {text : String} (h : t.write path text = (.ok (), t')) :
    t'.read path = .ok text := by
  unfold write at h
  split at h
  · cases h
  · next place hr =>
    have hset : t.lookup place ≠ some .directory ∧ t.set place (.file text) = t' := by
      split at h
      · cases h
      · next hfile => exact ⟨fun hd => absurd (hfile.symm.trans hd) (by simp), (Prod.mk.inj h).2⟩
      · next hnone _ => exact ⟨fun hd => absurd (hnone.symm.trans hd) (by simp), (Prod.mk.inj h).2⟩
      · cases h
      · cases h
    obtain ⟨hfile, rfl⟩ := hset
    have hne : place ≠ [] := by
      rintro rfl
      exact hfile rfl
    exact read_eq_ok.mpr ⟨place, (grows_set hne fun hd => absurd hd hfile).resolve hr,
      lookup_set_self hne _⟩

/-! ### New files -/

/-- **The path leads to a place where nothing stands**, in a sound tree. -/
structure IsVacant (t : FileTree) (path : String) (place : List String) : Prop where
  sound : t.IsSound
  resolve : t.resolve path = .ok place
  lookup : t.lookup place = none

namespace IsVacant

theorem ne_nil (h : t.IsVacant path place) : place ≠ [] := by
  rintro rfl
  cases h.lookup

/-- The path leads to the file that is put there. -/
theorem resolve_set (h : t.IsVacant path place) (text : String) :
    (t.set place (.file text)).resolve path = .ok place := by
  refine (grows_set h.ne_nil fun hd => ?_).resolve h.resolve
  rw [h.lookup] at hd
  cases hd

/-- A file that was put there is written. -/
theorem write_set (h : t.IsVacant path place) (old text : String) :
    (t.set place (.file old)).write path text = (.ok (), t.set place (.file text)) := by
  rw [write_eq (h.resolve_set old) (lookup_set_self h.ne_nil _), set_set]

/-- **A file that was put there is taken away**, and nothing of it is left. -/
theorem remove_set (h : t.IsVacant path place) (text : String) :
    (t.set place (.file text)).remove path = (.ok (), t) := by
  simp only [remove, h.resolve_set, lookup_set_self h.ne_nil, h.sound.erase_set h.lookup]

end IsVacant

end FileTree

namespace FileProgram

variable {α β γ : Type}

theorem bind_assoc (p : FileProgram α) (f : α → FileProgram β) (g : β → FileProgram γ) :
    (p.bind f).bind g = p.bind fun a => (f a).bind g := by
  induction p with
  | done a => rfl
  | perform op next ih => exact congrArg (perform op) (funext ih)

/-- A program that goes on runs where the first part has left the tree. -/
theorem run_bind (p : FileProgram α) (f : α → FileProgram β) (t : FileTree) :
    (p.bind f).run t = (f (p.run t).1).run (p.run t).2 := by
  induction p generalizing t with
  | done a => rfl
  | perform op next ih => exact ih _ _

end FileProgram

end Roundtable
