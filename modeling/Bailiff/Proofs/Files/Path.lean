-- SUMMARY: The parts of absolute paths: what resolving gives, and the way along a path and one name more.
import Bailiff.Files.Listing
import Bailiff.Proofs.Files.Tree

/-!
# Parts of paths

A resolved path is the path of a list of plain names (`Path.resolve_eq_ofParts`), and the parts of that path
are these names again (`Path.parts_ofParts`). In a file tree, the way to a name directly below a directory is
the way to the directory and then the name itself, even if a link is there (`FileTree.walk_concat`). A name that
is joined to a path is below it, and its directory is that path (`Path.join_ofParts`, `Path.directory_ofParts`).
-/

namespace Bailiff

namespace Path

/-! ## Splitting -/

/-- A name that stands for itself in a path. -/
structure IsName (part : String) : Prop where
  nonempty : part ≠ ""
  notHere : part ≠ "."
  notUp : part ≠ ".."
  slashless : '/' ∉ part.toList

theorem slashless_of_mem_splitSlashes (cs : List Char) : ∀ part ∈ splitSlashes cs, '/' ∉ part := by
  fun_induction splitSlashes cs
  case case1 => simp
  case case2 ih => simpa using ih
  case case3 c rest hc hrest ih => simp [Ne.symm hc]
  case case4 c rest hc part more hrest ih =>
    rw [hrest] at ih
    simp only [List.forall_mem_cons] at ih ⊢
    exact ⟨by simp [Ne.symm hc, ih.1], ih.2⟩

theorem slashless_of_mem_parts {p part : String} (h : part ∈ parts p) : '/' ∉ part.toList := by
  obtain ⟨cs, hcs, rfl⟩ := List.mem_map.mp h
  simpa using slashless_of_mem_splitSlashes p.toList cs hcs

theorem splitSlashes_of_slashless {part : List Char} (h : '/' ∉ part) : splitSlashes part = [part] := by
  induction part with
  | nil => rfl
  | cons c part ih =>
    simp only [List.mem_cons, not_or] at h
    rw [splitSlashes, if_neg (Ne.symm h.1), ih h.2]

theorem splitSlashes_append {part : List Char} (h : '/' ∉ part) (rest : List Char) :
    splitSlashes (part ++ '/' :: rest) = part :: splitSlashes rest := by
  induction part with
  | nil => rw [List.nil_append, splitSlashes, if_pos rfl]
  | cons c part ih =>
    simp only [List.mem_cons, not_or] at h
    rw [List.cons_append, splitSlashes, if_neg (Ne.symm h.1), ih h.2]

theorem splitSlashes_intercalate {ps : List (List Char)} (hps : ps ≠ []) (h : ∀ part ∈ ps, '/' ∉ part) :
    splitSlashes (['/'].intercalate ps) = ps := by
  induction ps with
  | nil => exact absurd rfl hps
  | cons part rest ih =>
    simp only [List.forall_mem_cons] at h
    cases rest with
    | nil => simpa using splitSlashes_of_slashless h.1
    | cons next more =>
      rw [List.intercalate_cons_cons, List.append_assoc, List.singleton_append, splitSlashes_append h.1,
        ih (List.cons_ne_nil _ _) h.2]

theorem toList_ofParts (ps : List String) : (ofParts ps).toList = '/' :: ['/'].intercalate (ps.map String.toList) := by
  rw [ofParts, String.toList_append, String.toList_intercalate]
  rfl

/-- The parts of the path of some names are those names, after the empty one before the first slash. -/
theorem parts_ofParts {ps : List String} (hps : ps ≠ []) (h : ∀ part ∈ ps, IsName part) :
    parts (ofParts ps) = "" :: ps := by
  have hslashless : ∀ part ∈ ps.map String.toList, '/' ∉ part := by
    intro part hpart
    obtain ⟨name, hname, rfl⟩ := List.mem_map.mp hpart
    exact (h name hname).slashless
  rw [parts, toList_ofParts, splitSlashes, if_pos rfl, splitSlashes_intercalate (by simpa using hps) hslashless]
  simp [Function.comp_def]

theorem parts_root : parts (ofParts []) = ["", ""] := by decide +kernel

theorem isAbsolute_ofParts (ps : List String) : isAbsolute (ofParts ps) = true := by
  rw [isAbsolute, toList_ofParts]
  rfl

/-! ## Resolving -/

theorem enter_name {part : String} (h : IsName part) (dir : List String) : enter dir part = part :: dir := by
  rw [enter, if_neg (by simp [h.nonempty, h.notHere]), if_neg h.notUp]

theorem foldl_enter {ps : List String} (h : ∀ part ∈ ps, IsName part) (dir : List String) :
    ps.foldl enter dir = ps.reverse ++ dir := by
  induction ps generalizing dir with
  | nil => rfl
  | cons part rest ih =>
    simp only [List.forall_mem_cons] at h
    rw [List.foldl_cons, enter_name h.1, ih h.2, List.reverse_cons, List.append_assoc]
    rfl

theorem isName_foldl_enter {ps dir : List String} (hps : ∀ part ∈ ps, '/' ∉ part.toList)
    (hdir : ∀ part ∈ dir, IsName part) : ∀ part ∈ ps.foldl enter dir, IsName part := by
  induction ps generalizing dir with
  | nil => exact hdir
  | cons part rest ih =>
    simp only [List.forall_mem_cons] at hps
    refine ih hps.2 ?_
    unfold enter
    split
    · exact hdir
    split
    · exact fun name hname => hdir name (List.mem_of_mem_tail hname)
    next hskip hup =>
      rw [not_or] at hskip
      exact List.forall_mem_cons.mpr ⟨⟨hskip.1, hskip.2, hup, hps.1⟩, hdir⟩

theorem isName_resolveParts {dir : List String} (hdir : ∀ part ∈ dir, IsName part) (p : String) :
    ∀ part ∈ resolveParts dir p, IsName part := by
  intro part hpart
  rw [resolveParts, List.mem_reverse] at hpart
  refine isName_foldl_enter (fun name hname => slashless_of_mem_parts hname) ?_ part hpart
  split
  · simp
  · simpa using hdir

/-- A resolved path is that of some plain names. -/
theorem resolve_eq_ofParts (dir p : String) :
    ∃ ps, (∀ part ∈ ps, IsName part) ∧ resolve dir p = ofParts ps :=
  ⟨_, isName_resolveParts (isName_resolveParts (by simp) dir) p, rfl⟩

theorem resolveParts_ofParts {ps : List String} (h : ∀ part ∈ ps, IsName part) (dir : List String) :
    resolveParts dir (ofParts ps) = ps := by
  rw [resolveParts, isAbsolute_ofParts, if_pos rfl]
  by_cases hps : ps = []
  · subst hps
    rw [parts_root]
    rfl
  · rw [parts_ofParts hps h, List.foldl_cons, enter, if_pos (.inl rfl), foldl_enter h]
    simp

/-- The path of plain names is resolved already. -/
theorem resolve_ofParts {ps : List String} (h : ∀ part ∈ ps, IsName part) (dir : String) :
    resolve dir (ofParts ps) = ofParts ps := by
  rw [resolve, resolveParts_ofParts h]

theorem isAbsolute_name {name : String} (h : IsName name) : isAbsolute name = false := by
  unfold isAbsolute
  rw [decide_eq_false_iff_not]
  intro hhead
  exact h.slashless (List.mem_of_mem_head? hhead)

theorem parts_name {name : String} (h : IsName name) : parts name = [name] := by
  rw [parts, splitSlashes_of_slashless h.slashless]
  simp

/-- A name seen from a directory is below it. -/
theorem resolve_name {ps : List String} (h : ∀ part ∈ ps, IsName part) {name : String} (hname : IsName name) :
    resolve (ofParts ps) name = ofParts (ps ++ [name]) := by
  rw [resolve, resolveParts_ofParts h, resolveParts, isAbsolute_name hname, parts_name hname]
  simp [enter_name hname]

end Path

namespace FileTree

variable {t : FileTree}

/-! ## The way to a name below a directory -/

theorem walk_name {links : Nat} {here : Location} {name : String} (hname : Path.IsName name) :
    t.walk false links here [name] = .ok (here ++ [name]) := by
  rw [walk, if_neg (by simp [hname.nonempty, hname.notHere]), if_neg hname.notUp]
  dsimp only
  split
  · rfl
  · rw [walk]
  · rfl
  · rfl

/-- A way that leads to a directory can be gone on by one name, and a link of that name is not followed. -/
theorem walk_concat {links : Nat} {here l : Location} {ps : List String} {name : String}
    (hname : Path.IsName name) (hdir : t.at? l = some .directory)
    (hway : t.walk true links here ps = .ok l) :
    t.walk false links here (ps ++ [name]) = .ok (l ++ [name]) := by
  generalize hfollow : true = follow at hway
  fun_induction walk t follow links here ps
  case case1 =>
    cases hway
    exact walk_name hname
  case case2 hskip ih => rw [List.cons_append, walk, if_pos hskip, ih hway]
  case case3 hskip ih => rw [List.cons_append, walk, if_neg hskip, if_pos rfl, ih hway]
  case case4 hlast => simp [← hfollow] at hlast
  case case6 here part rest hskip hup _ target hchild hlast links ih =>
    have hat : t.at? (here ++ [part]) = some (.link target) := hchild
    rw [List.cons_append, walk, if_neg hskip, if_neg hup]
    simpa [hat] using ih hway
  case case7 here part rest hskip hup _ hchild ih =>
    have hat : t.at? (here ++ [part]) = some .directory := hchild
    rw [List.cons_append, walk, if_neg hskip, if_neg hup]
    simp only [hat]
    exact ih hway
  case case8 hskip hup _ node hlink hnode hchild hlast =>
    have hl := Except.ok.inj hway
    rw [← hl, hchild, Option.some.injEq] at hdir
    exact absurd hdir hnode
  case case10 hskip hup _ hchild hlast =>
    have hl := Except.ok.inj hway
    rw [← hl, hchild] at hdir
    cases hdir
  all_goals cases hway

/-- A way goes on below directories only. -/
theorem directory_of_walk {follow : Bool} {links : Nat} {here m : Location} {part : String} {rest : List String}
    (hskip : ¬(part = "" ∨ part = ".")) (hup : part ≠ "..") (hrest : rest ≠ [])
    (hlink : ∀ target, t.at? (here ++ [part]) ≠ some (.link target))
    (hway : t.walk follow links here (part :: rest) = .ok m) : t.at? (here ++ [part]) = some .directory := by
  rw [walk, if_neg hskip, if_neg hup] at hway
  dsimp only at hway
  split at hway
  next target hchild => exact absurd hchild (hlink target)
  next hchild => exact hchild
  all_goals simp [hrest] at hway

/-- A way that ends with a name leads to that name below where the way before it leads. -/
theorem walk_of_concat {links : Nat} {here m : Location} {ps : List String} {name : String}
    (hname : Path.IsName name) (hway : t.walk false links here (ps ++ [name]) = .ok m) :
    ∃ l, t.walk true links here ps = .ok l ∧ m = l ++ [name] := by
  generalize hfollow : true = follow
  fun_induction walk t follow links here ps
  case case1 =>
    rw [List.nil_append, walk_name hname] at hway
    exact ⟨_, rfl, (Except.ok.inj hway).symm⟩
  case case2 hskip ih =>
    rw [List.cons_append, walk, if_pos hskip] at hway
    exact ih hway
  case case3 hskip ih =>
    rw [List.cons_append, walk, if_neg hskip, if_pos rfl] at hway
    exact ih hway
  case case4 hlast => simp [← hfollow] at hlast
  case case6 here part rest hskip hup _ target hchild hlast links ih =>
    have hat : t.at? (here ++ [part]) = some (.link target) := hchild
    rw [List.cons_append, walk, if_neg hskip, if_neg hup] at hway
    exact ih (by simpa [hat] using hway)
  case case7 here part rest hskip hup _ hchild ih =>
    have hat : t.at? (here ++ [part]) = some .directory := hchild
    rw [List.cons_append, walk, if_neg hskip, if_neg hup] at hway
    simp only [hat] at hway
    exact ih hway
  case case5 here part rest hskip hup _ target hchild hlast =>
    have hat : t.at? (here ++ [part]) = some (.link target) := hchild
    rw [List.cons_append, walk, if_neg hskip, if_neg hup] at hway
    simp [hat] at hway
  case case8 hskip hup _ node hnode hlink hchild _ | case9 hskip hup _ node hnode hlink hchild _ =>
    have hdir := directory_of_walk hskip hup (by simp) (fun target htarget => ?_) hway
    · rw [hchild, Option.some.injEq] at hdir
      exact absurd hdir hlink
    · rw [hchild, Option.some.injEq] at htarget
      exact hnode target htarget
  case case10 hskip hup _ hchild _ | case11 hskip hup _ hchild _ =>
    have hdir := directory_of_walk hskip hup (by simp) (fun target htarget => ?_) hway
    · rw [hchild] at hdir
      cases hdir
    · rw [hchild] at htarget
      cases htarget

theorem isEmpty_ofParts (ps : List String) : (Path.ofParts ps).isEmpty = false := by
  rw [← Bool.not_eq_true, String.isEmpty_iff]
  intro hnil
  have habsolute := Path.isAbsolute_ofParts ps
  rw [hnil] at habsolute
  cases habsolute

/-- An empty part leads nowhere else. -/
theorem walk_empty (follow : Bool) (links : Nat) (here : Location) (rest : List String) :
    t.walk follow links here ("" :: rest) = t.walk follow links here rest := by
  rw [walk, if_pos (.inl rfl)]

/-- The way of the path of some names is the way of these names. -/
theorem walk_ofParts {ps : List String} (h : ∀ part ∈ ps, Path.IsName part) (follow : Bool) (links : Nat) :
    t.walk follow links [] (Path.parts (Path.ofParts ps)) = t.walk follow links [] ps := by
  by_cases hps : ps = []
  · subst hps
    rw [Path.parts_root, walk_empty, walk_empty]
  · rw [Path.parts_ofParts hps h, walk_empty]

theorem locate_ofParts {ps : List String} (h : ∀ part ∈ ps, Path.IsName part) :
    t.locate [] (Path.ofParts ps) = t.walk true maxLinks [] ps := by
  rw [locate, isEmpty_ofParts, if_neg Bool.false_ne_true, Path.isAbsolute_ofParts, if_pos rfl, walk_ofParts h]

theorem locate_root (t : FileTree) : t.locate [] "/" = .ok [] := by
  have hlocate := @locate_ofParts t [] nofun
  rwa [walk] at hlocate

/-- A directory leads to itself. -/
theorem leadsToDirectory_directory {name : String} (hname : Path.IsName name) {l : Location}
    (h : t.at? (l ++ [name]) = some .directory) :
    t.leadsToDirectory l name = true := by
  have hlink : ∀ target, t.at? (l ++ [name]) ≠ some (.link target) := by simp [h]
  rw [leadsToDirectory, walk_last (by simp [hname.nonempty, hname.notHere]) hname.notUp hlink]
  simp [h]

end FileTree

namespace Path

/-! ## One name more -/

theorem intercalate_concat {α : Type} (sep : List α) {xs : List (List α)} (hxs : xs ≠ []) (x : List α) :
    sep.intercalate (xs ++ [x]) = sep.intercalate xs ++ sep ++ x := by
  induction xs with
  | nil => exact absurd rfl hxs
  | cons first rest ih =>
    cases rest with
    | nil => simp [List.intercalate_cons_cons]
    | cons next more =>
      rw [List.cons_append, List.cons_append, List.intercalate_cons_cons, List.intercalate_cons_cons]
      rw [← List.cons_append, ih (List.cons_ne_nil next more)]
      simp only [List.append_assoc]

/-- The text of a path with one name more. -/
theorem toList_ofParts_concat (ps : List String) (name : String) : (ofParts (ps ++ [name])).toList
    = (if ps = [] then [] else (ofParts ps).toList) ++ '/' :: name.toList := by
  rw [toList_ofParts, List.map_append, List.map_singleton]
  split
  next hnil => simp [hnil]
  next hne => rw [intercalate_concat _ (by simpa using hne), toList_ofParts]; simp

theorem ofParts_append (ps : List String) (name more : String) :
    ofParts (ps ++ [name]) ++ more = ofParts (ps ++ [name ++ more]) := by
  rw [← String.toList_inj, String.toList_append, toList_ofParts_concat, toList_ofParts_concat]
  simp

/-- Different names below a path have different paths. -/
theorem ofParts_concat_injective (ps : List String) : Function.Injective fun name => ofParts (ps ++ [name]) := by
  intro name other h
  have hlists := congrArg String.toList h
  rw [toList_ofParts_concat, toList_ofParts_concat, List.append_cancel_left_eq, List.cons.injEq] at hlists
  exact String.toList_inj.mp hlists.2

/-- The directory of a name below others is the path of those. -/
theorem directory_ofParts {ps : List String} (h : ∀ part ∈ ps, IsName part) {name : String} (hname : IsName name) :
    directory (ofParts (ps ++ [name])) = ofParts ps := by
  have hslashless : ∀ c ∈ name.toList.reverse, c ≠ '/' := by
    rintro c hc rfl
    exact hname.slashless (List.mem_reverse.mp hc)
  have hnonempty : name.toList.reverse ≠ [] := by simpa using hname.nonempty
  obtain ⟨c, cs, hcs⟩ := List.exists_cons_of_ne_nil hnonempty
  rw [hcs] at hslashless
  have hlast : ∀ above, ((c :: cs ++ '/' :: above).dropWhile (· = '/')).dropWhile (· ≠ '/') = '/' :: above := by
    intro above
    rw [List.cons_append, List.dropWhile_cons_of_neg (by simpa using hslashless c List.mem_cons_self),
      ← List.cons_append, List.dropWhile_append_of_pos (by simpa using hslashless),
      List.dropWhile_cons_of_neg (by simp)]
  have hreverse : (ofParts (ps ++ [name])).toList.reverse
      = c :: cs ++ '/' :: (if ps = [] then [] else (ofParts ps).toList).reverse := by
    rw [toList_ofParts_concat, List.reverse_append, List.reverse_cons, hcs]
    simp
  simp only [directory, hreverse, hlast]
  rcases List.eq_nil_or_concat ps with rfl | ⟨above, last, rfl⟩
  · rfl
  · rw [List.concat_eq_append] at h ⊢
    have hroot : (ofParts (above ++ [last])).toList.reverse ≠ ['/'] := by
      intro heq
      have hlength := congrArg List.length heq
      rw [List.length_reverse, toList_ofParts_concat, List.length_append, List.length_cons] at hlength
      have hnil : last.toList = [] := List.length_eq_zero_iff.mp (by simp at hlength; omega)
      exact (h last (by simp)).nonempty (String.toList_inj.mp hnil)
    have hempty : ofParts (above ++ [last]) ≠ "" := by
      simpa using FileTree.isEmpty_ofParts (above ++ [last])
    simp [hroot, hempty]

theorem foldl_enterLoose {ps : List String} (h : ∀ part ∈ ps, IsName part) (dir : List String) :
    ps.foldl (enterLoose true) dir = ps.reverse ++ dir := by
  induction ps generalizing dir with
  | nil => rfl
  | cons part rest ih =>
    rw [List.forall_mem_cons] at h
    have henter : enterLoose true dir part = part :: dir := by
      unfold enterLoose
      rw [if_neg (by simp [h.1.nonempty, h.1.notHere]), if_neg h.1.notUp]
    rw [List.foldl_cons, henter, ih h.2, List.reverse_cons, List.append_assoc]
    rfl

/-- A name joined to a path is below it. -/
theorem join_ofParts {ps : List String} (h : ∀ part ∈ ps, IsName part) {name : String} (hname : IsName name) :
    join [ofParts ps, name] = ofParts (ps ++ [name]) := by
  have hall : ∀ part ∈ ps ++ [name], IsName part := by simpa [or_imp, forall_and] using ⟨h, hname⟩
  have hname' : name.isEmpty = false := by simpa using hname.nonempty
  have hwhole : "/".intercalate ([ofParts ps, name].filter (!·.isEmpty)) = ofParts ps ++ "/" ++ name := by
    rw [List.filter_cons_of_pos (by simp [FileTree.isEmpty_ofParts]), List.filter_cons_of_pos (by simp [hname'])]
    rfl
  have hlist : (ofParts ps ++ "/" ++ name).toList = (ofParts ps).toList ++ '/' :: name.toList := by simp
  have hparts : (parts (ofParts ps ++ "/" ++ name)).foldl (enterLoose true) [] = (ps ++ [name]).reverse := by
    by_cases hnil : ps = []
    · subst hnil
      have hsplit : parts (ofParts [] ++ "/" ++ name) = ["", "", name] := by
        have hnil : ['/'].intercalate ([] : List (List Char)) = [] := rfl
        rw [parts, hlist, toList_ofParts, List.map_nil, hnil, List.cons_append, List.nil_append, splitSlashes,
          if_pos rfl, splitSlashes, if_pos rfl, splitSlashes_of_slashless hname.slashless]
        simp
      rw [hsplit, List.foldl_cons, List.foldl_cons]
      exact foldl_enterLoose (by simpa using hname) []
    · have hsame : ofParts ps ++ "/" ++ name = ofParts (ps ++ [name]) := by
        rw [← String.toList_inj, hlist, toList_ofParts_concat, if_neg hnil]
      rw [hsame, parts_ofParts (by simp) hall, List.foldl_cons]
      exact (foldl_enterLoose hall []).trans (List.append_nil _)
  have habsolute : isAbsolute (ofParts ps ++ "/" ++ name) = true := by
    rw [isAbsolute, hlist, toList_ofParts]
    rfl
  have hlast : (ofParts ps ++ "/" ++ name).toList.getLast? ≠ some '/' := by
    rcases List.eq_nil_or_concat name.toList with hnil | ⟨front, c, hconcat⟩
    · exact absurd (String.toList_inj.mp hnil) hname.nonempty
    · have hc : c ≠ '/' := by
        rintro rfl
        exact hname.slashless (by simp [hconcat])
      rw [hlist, hconcat, List.concat_eq_append, ← List.cons_append, ← List.append_assoc, List.getLast?_concat]
      simpa using hc
  have hbody : ("/".intercalate (ps ++ [name])).isEmpty = false := by
    have hne : name.toList ≠ [] := fun hnil => hname.nonempty (String.toList_inj.mp hnil)
    rw [← Bool.not_eq_true, String.isEmpty_iff, ← String.toList_inj, String.toList_intercalate, List.map_append,
      List.map_singleton]
    by_cases hnil : ps = []
    · simpa [hnil] using hne
    · rw [intercalate_concat _ (by simpa using hnil)]
      simp
  rw [join, hwhole]
  generalize ofParts ps ++ "/" ++ name = whole at hparts habsolute hlast
  have hne : whole.isEmpty = false := by
    rw [← Bool.not_eq_true, String.isEmpty_iff]
    rintro rfl
    cases habsolute
  simp only [hne, normalize, habsolute, hparts, List.reverse_reverse, hlast, hbody, Bool.false_eq_true, if_false, if_true,
    String.append_empty, ofParts]

end Path

end Bailiff
