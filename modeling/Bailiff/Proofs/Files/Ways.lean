-- SUMMARY: The way of a path through directories and links, and what making directories adds along it.
import Mathlib.Data.List.Induction
import Bailiff.Proofs.Files.Growth
import Bailiff.Proofs.Files.Path

/-!
# Ways

A walk counts the links it follows. The way of a path is where it leads without that count
(`FileTree.Way`), so that a way stays as long as directories and links do. In a tree whose entries all have
their directories, making directories adds nothing but beginnings of the place where the way leads
(`FileTree.makeWay_makes`). When entries are taken away, a path that is still there without any one of them still
leads where it led (`FileTree.walk_without`).
-/

namespace Bailiff.FileTree

variable {t t' : FileTree} {here l m : Location} {part : String} {ps rest : List String}

/-! ## Ways -/

/-- The way of some parts from a location through directories and links. It may end where there is nothing, or
nothing to go on from. -/
inductive Way (t : FileTree) : Location → List String → Location → Prop where
  | arrives (here : Location) : Way t here [] here
  | stays {here l : Location} {part : String} {rest : List String} (hskip : part = "" ∨ part = ".")
      (h : Way t here rest l) : Way t here (part :: rest) l
  | up {here l : Location} {rest : List String} (h : Way t here.dropLast rest l) : Way t here (".." :: rest) l
  | enters {here l : Location} {part : String} {rest : List String} (hskip : ¬(part = "" ∨ part = "."))
      (hup : part ≠ "..") (hdir : t.at? (here ++ [part]) = some .directory) (h : Way t (here ++ [part]) rest l) :
      Way t here (part :: rest) l
  | follows {here l : Location} {part target : String} {rest : List String} (hskip : ¬(part = "" ∨ part = "."))
      (hup : part ≠ "..") (hlink : t.at? (here ++ [part]) = some (.link target))
      (h : Way t (if Path.isAbsolute target then [] else here) (Path.parts target ++ rest) l) :
      Way t here (part :: rest) l
  | ends {here : Location} {part : String} (hskip : ¬(part = "" ∨ part = ".")) (hup : part ≠ "..")
      (hdir : t.at? (here ++ [part]) ≠ some .directory)
      (hlink : ∀ target, t.at? (here ++ [part]) ≠ some (.link target)) :
      Way t here [part] (here ++ [part])

theorem way_of_walk {links : Nat} (h : t.walk true links here ps = .ok l) : t.Way here ps l := by
  generalize hfollow : true = follow at h
  fun_induction walk t follow links here ps
  case case1 =>
    cases h
    exact .arrives _
  case case2 hskip ih => exact .stays hskip (ih h)
  case case3 ih => exact .up (ih h)
  case case4 hlast => simp [← hfollow] at hlast
  case case6 hskip hup _ target hchild _ links ih => exact .follows hskip hup hchild (ih h)
  case case7 hskip hup _ hchild ih => exact .enters hskip hup hchild (ih h)
  case case8 hskip hup _ node hlink hdir hchild hlast =>
    rw [← Except.ok.inj h, List.isEmpty_iff.mp hlast]
    refine .ends hskip hup (fun heq => ?_) fun target heq => ?_
    · rw [hchild, Option.some.injEq] at heq
      exact hdir heq
    · rw [hchild, Option.some.injEq] at heq
      exact hlink target heq
  case case10 hskip hup _ hchild hlast =>
    rw [← Except.ok.inj h, List.isEmpty_iff.mp hlast]
    refine .ends hskip hup (fun heq => ?_) fun target heq => ?_
    · cases hchild.symm.trans heq
    · cases hchild.symm.trans heq
  all_goals cases h

/-- A path has one way. -/
theorem Way.unique (h : t.Way here ps l) (h' : t.Way here ps m) : l = m := by
  induction h generalizing m with
  | arrives =>
    cases h'
    rfl
  | stays hskip _ ih =>
    cases h' with
    | stays _ h' => exact ih h'
    | up => simp at hskip
    | enters hno | follows hno | ends hno => exact absurd hskip hno
  | up _ ih =>
    cases h' with
    | stays hskip => simp at hskip
    | up h' => exact ih h'
    | enters _ hup | follows _ hup | ends _ hup => exact absurd rfl hup
  | enters hskip hup hdir _ ih =>
    cases h' with
    | stays hyes => exact absurd hyes hskip
    | up => exact absurd rfl hup
    | enters _ _ _ h' => exact ih h'
    | follows _ _ hlink => simp [hdir] at hlink
    | ends _ _ hno => exact absurd hdir hno
  | follows hskip hup hlink _ ih =>
    cases h' with
    | stays hyes => exact absurd hyes hskip
    | up => exact absurd rfl hup
    | enters _ _ hdir => simp [hlink] at hdir
    | follows _ _ hlink' h' =>
      rw [hlink, Option.some.injEq, Node.link.injEq] at hlink'
      subst hlink'
      exact ih h'
    | ends _ _ _ hno => exact absurd hlink (hno _)
  | ends hskip hup hdir hlink =>
    cases h' with
    | stays hyes => exact absurd hyes hskip
    | up => exact absurd rfl hup
    | enters _ _ hyes => exact absurd hyes hdir
    | follows _ _ hyes => exact absurd hyes (hlink _)
    | ends => rfl

/-- A way stays as long as the directories and links of the tree do. -/
theorem Way.of_keepsWays (h : t.Way here ps l) (hways : KeepsWays t t') : t'.Way here ps l := by
  induction h with
  | arrives here => exact .arrives here
  | stays hskip _ ih => exact .stays hskip ih
  | up _ ih => exact .up ih
  | enters hskip hup hdir _ ih => exact .enters hskip hup (hways.directory _ hdir) ih
  | follows hskip hup hlink _ ih => exact .follows hskip hup ((hways.link _ _).mpr hlink) ih
  | @ends here part hskip hup hdir hlink =>
    by_cases hnew : t'.at? (here ++ [part]) = some .directory
    · exact .enters hskip hup hnew (.arrives _)
    · exact .ends hskip hup hnew fun target h => hlink target ((hways.link _ target).mp h)

/-- From a directory a way can be gone on. -/
theorem Way.append (h : t.Way here ps l) (hdir : t.at? l = some .directory) (h' : t.Way l rest m) :
    t.Way here (ps ++ rest) m := by
  induction h with
  | arrives => exact h'
  | stays hskip _ ih => exact .stays hskip (ih hdir h')
  | up _ ih => exact .up (ih hdir h')
  | enters hskip hup hchild _ ih => exact .enters hskip hup hchild (ih hdir h')
  | follows hskip hup hlink _ ih =>
    refine .follows hskip hup hlink ?_
    simpa only [List.append_eq, List.append_assoc] using ih hdir h'
  | ends _ _ hno => exact absurd hdir hno

/-! ## Trees without loose entries -/

/-- Every entry is in a directory. -/
def Closed (t : FileTree) : Prop := ∀ l name, t.at? (l ++ [name]) ≠ none → t.at? l = some .directory

/-- What has an entry below it is a directory. -/
theorem Closed.directory (h : t.Closed) {below : Location} (hne : below ≠ []) (hbelow : t.at? (l ++ below) ≠ none) :
    t.at? l = some .directory := by
  induction below using List.reverseRecOn with
  | nil => exact absurd rfl hne
  | append_singleton below name ih =>
    rw [← List.append_assoc] at hbelow
    have hdir := h _ name hbelow
    by_cases hnil : below = []
    · simpa [hnil] using hdir
    · exact ih hnil (by simp [hdir])

theorem Closed.nothing_below (h : t.Closed) (hdir : t.at? l ≠ some .directory) (name : String) (below : Location) :
    t.at? (l ++ name :: below) = none := by
  refine Classical.byContradiction fun hbelow => ?_
  exact hdir (h.directory (List.cons_ne_nil name below) hbelow)

theorem Closed.dropLast (h : t.Closed) (hl : t.at? l ≠ none) : t.at? l.dropLast = some .directory := by
  rcases List.eq_nil_or_concat l with rfl | ⟨above, name, rfl⟩
  · rfl
  · rw [List.concat_eq_append] at hl ⊢
    rw [List.dropLast_concat]
    exact h above name hl

/-- An entry may be put into a directory, unless another directory is lost. -/
theorem Closed.put (h : t.Closed) {n : Node} (hl : l ≠ []) (habove : t.at? l.dropLast = some .directory)
    (hkept : t.at? l = some .directory → n = .directory) : (t.put l n).Closed := by
  intro m name hm
  by_cases heq : m ++ [name] = l
  · subst heq
    rw [List.dropLast_concat] at habove
    rw [at?_put hl, if_neg (by simp), habove]
  · rw [at?_put hl, if_neg heq] at hm
    have hdir := h m name hm
    rw [at?_put hl]
    split
    next hsame =>
      subst hsame
      rw [hkept hdir]
    · exact hdir

/-- Removing leaves every entry in a directory. -/
theorem Closed.remove (h : t.Closed) (hl : l ≠ []) : (t.remove l).Closed := by
  intro m name hname
  rw [at?_remove hl] at hname
  split at hname
  · exact absurd rfl hname
  next hout =>
    rw [at?_remove hl, if_neg]
    · exact h m name hname
    · intro hpre
      rw [List.isPrefixOf_iff_prefix] at hpre hout
      exact hout (hpre.trans (List.prefix_append m [name]))

/-- A walk from a directory ends in one. -/
theorem Closed.walk (h : t.Closed) {follow : Bool} {links : Nat} (hhere : t.at? here = some .directory)
    (hw : t.walk follow links here ps = .ok l) : t.at? l.dropLast = some .directory := by
  fun_induction FileTree.walk t follow links here ps
  case case1 =>
    rw [← Except.ok.inj hw]
    exact h.dropLast (by simp [hhere])
  case case2 ih => exact ih hhere hw
  case case3 ih => exact ih (h.dropLast (by simp [hhere])) hw
  case case6 target _ _ _ ih =>
    refine ih ?_ hw
    split
    · rfl
    · exact hhere
  case case7 hchild ih => exact ih hchild hw
  case case4 | case8 | case10 =>
    rw [← Except.ok.inj hw]
    simpa +zetaDelta using hhere
  all_goals cases hw

/-- A tree of files: every entry is entered once, in a directory, under a name. -/
structure IsTree (t : FileTree) : Prop where
  distinct : t.Distinct
  closed : t.Closed
  names : ∀ l name, t.at? (l ++ [name]) ≠ none → Path.IsName name

theorem isTree_of_entries (hdistinct : t.Distinct) (h : ∀ e ∈ t.entries,
    t.at? e.1.dropLast = some .directory ∧ ∀ name ∈ e.1.getLast?, Path.IsName name) : t.IsTree := by
  have hentry : ∀ l name, t.at? (l ++ [name]) ≠ none → ∃ e ∈ t.entries, e.1 = l ++ [name] := by
    intro l name hname
    obtain ⟨n, hn⟩ := Option.ne_none_iff_exists'.mp hname
    rw [at?, if_neg (by simp)] at hn
    obtain ⟨e, hfound, -⟩ := Option.map_eq_some_iff.mp hn
    exact ⟨e, List.mem_of_find?_eq_some hfound, by simpa using List.find?_some hfound⟩
  constructor
  · exact hdistinct
  · intro l name hname
    obtain ⟨e, he, heq⟩ := hentry l name hname
    have habove := (h e he).1
    rwa [heq, List.dropLast_concat] at habove
  · intro l name hname
    obtain ⟨e, he, heq⟩ := hentry l name hname
    exact (h e he).2 name (by simp [heq])

/-! ## Making directories -/

/-- The tree has gained directories that lead to a location. If it has gained any, nothing is below that location
yet. -/
structure Makes (t t' : FileTree) (l : Location) : Prop where
  directory : t'.at? l = some .directory
  changed : ∀ m, t'.at? m = t.at? m ∨ t.at? m = none ∧ t'.at? m = some .directory ∧ m <+: l
  fresh : t' = t ∨ ∀ name, t'.at? (l ++ [name]) = none

theorem makes_refl (hdir : t.at? l = some .directory) : Makes t t l := ⟨hdir, fun _ => .inl rfl, .inl rfl⟩

theorem makeWay_closed (h : t.Closed) (hhere : t.at? here = some .directory) (hmade : t.makeWay here ps = .ok t') :
    t'.Closed := by
  fun_induction makeWay t here ps
  case case1 =>
    cases hmade
    exact h
  case case2 ih => exact ih h hhere hmade
  case case3 ih => exact ih h (h.dropLast (by simp [hhere])) hmade
  case case4 here part rest _ _ _ hnone ih =>
    have hnone : FileTree.at? _ (here ++ [part]) = none := hnone
    refine ih (h.put (by simp +zetaDelta) (by simpa +zetaDelta using hhere) fun _ => rfl) ?_ hmade
    rw [at?_put (by simp +zetaDelta), if_pos rfl]
  case case5 hchild ih => exact ih h hchild hmade
  case case6 hl ih => exact ih h hl hmade
  all_goals cases hmade

theorem at?_put_self {n : Node} (hl : l ≠ []) : (t.put l n).at? l = some n := by rw [at?_put hl, if_pos rfl]

/-- A directory may be made under a name where there is nothing. -/
theorem IsTree.put (h : t.IsTree) (hpart : Path.IsName part) (hhere : t.at? here = some .directory)
    (hnone : t.at? (here ++ [part]) = none) : (t.put (here ++ [part]) .directory).IsTree := by
  have hne := ne_nil_of_at?_eq_none hnone
  refine ⟨h.distinct.put _ _, h.closed.put hne (by simpa using hhere) fun _ => rfl, fun l name hname => ?_⟩
  rw [at?_put hne] at hname
  split at hname
  next heq =>
    obtain ⟨-, rfl⟩ : l = here ∧ name = part := by simpa using heq
    exact hpart
  · exact h.names l name hname

theorem makeWay_isTree (h : t.IsTree) (hhere : t.at? here = some .directory) (hps : ∀ part ∈ ps, Path.IsName part)
    (hmade : t.makeWay here ps = .ok t') : t'.IsTree := by
  fun_induction makeWay t here ps
  case case1 =>
    cases hmade
    exact h
  case case2 ih => exact ih h hhere (List.forall_mem_cons.mp hps).2 hmade
  case case3 ih => exact ih h (h.closed.dropLast (by simp [hhere])) (List.forall_mem_cons.mp hps).2 hmade
  case case4 here part rest _ _ _ hnone ih =>
    rw [List.forall_mem_cons] at hps
    exact ih (h.put hps.1 hhere hnone) (at?_put_self (ne_nil_of_at?_eq_none hnone)) hps.2 hmade
  case case5 hchild ih => exact ih h hchild (List.forall_mem_cons.mp hps).2 hmade
  case case6 hl ih => exact ih h hl (List.forall_mem_cons.mp hps).2 hmade
  all_goals cases hmade

/-- A way has been made from a location to a place below which there is nothing yet. -/
structure MakesWay (t t' : FileTree) (here : Location) (ps : List String) (l : Location) : Prop where
  way : t'.Way here ps l
  makes : Makes t t' l
  fresh : ∀ name, t'.at? (l ++ [name]) = none

theorem makeWay_none (hpart : Path.IsName part) (hnone : t.at? (here ++ [part]) = none) (rest : List String) :
    t.makeWay here (part :: rest) = (t.put (here ++ [part]) .directory).makeWay (here ++ [part]) rest := by
  rw [makeWay, if_neg (by simp [hpart.nonempty, hpart.notHere]), if_neg hpart.notUp]
  simp only [hnone]

/-- A directory is made on the way to others. -/
theorem MakesWay.through (hpart : Path.IsName part) (hnone : t.at? (here ++ [part]) = none)
    (hpre : here ++ [part] <+: l)
    (hmade : (t.put (here ++ [part]) .directory).makeWay (here ++ [part]) rest = .ok t')
    (h : MakesWay (t.put (here ++ [part]) .directory) t' (here ++ [part]) rest l) : MakesWay t t' here (part :: rest) l := by
  have hne := ne_nil_of_at?_eq_none hnone
  have hkept := (makeWay_gainsDirectories _ _ hmade).keepsWays.directory _ (at?_put_self hne)
  have hskip : ¬(part = "" ∨ part = ".") := by simp [hpart.nonempty, hpart.notHere]
  refine ⟨.enters hskip hpart.notUp hkept h.way, ⟨h.makes.directory, fun m => ?_, .inr h.fresh⟩, h.fresh⟩
  by_cases hm : m = here ++ [part]
  · subst hm
    exact .inr ⟨hnone, hkept, hpre⟩
  · have hsame : (t.put (here ++ [part]) .directory).at? m = t.at? m := by rw [at?_put hne, if_neg hm]
    rw [← hsame]
    exact h.makes.changed m

/-- From the first part that is missing on, all parts become directories. -/
theorem makesWay_missing (hnone : t.at? (here ++ [part]) = none)
    (hbelow : ∀ name below, t.at? (here ++ [part] ++ name :: below) = none) (hps : ∀ p ∈ part :: rest, Path.IsName p)
    (hmade : t.makeWay here (part :: rest) = .ok t') : MakesWay t t' here (part :: rest) (here ++ part :: rest) := by
  induction rest generalizing t here part with
  | nil =>
    rw [List.forall_mem_cons] at hps
    rw [makeWay_none hps.1 hnone] at hmade
    refine .through hps.1 hnone List.prefix_rfl hmade ?_
    have hne := ne_nil_of_at?_eq_none hnone
    rw [makeWay] at hmade
    cases hmade
    refine ⟨.arrives _, makes_refl (at?_put_self hne), fun name => ?_⟩
    rw [at?_put hne, if_neg (by simp)]
    exact hbelow name []
  | cons next more ih =>
    rw [List.forall_mem_cons] at hps
    rw [makeWay_none hps.1 hnone] at hmade
    have hne := ne_nil_of_at?_eq_none hnone
    have hput : ∀ name below, (t.put (here ++ [part]) .directory).at? (here ++ [part] ++ name :: below) = none := by
      intro name below
      rw [at?_put hne, if_neg (by simp)]
      exact hbelow name below
    have hrest := ih (hput next []) (fun name below => by simpa using hput next (name :: below)) hps.2 hmade
    have happend : here ++ [part] ++ next :: more = here ++ part :: next :: more := by simp
    rw [happend] at hrest
    exact .through hps.1 hnone ⟨_, happend⟩ hmade hrest

/-- Making directories along the names of a path makes beginnings of the place where the path then leads. -/
theorem makeWay_makes (h : t.Closed) (hhere : t.at? here = some .directory) (hps : ∀ part ∈ ps, Path.IsName part)
    (hmade : t.makeWay here ps = .ok t') : ∃ l, t'.Way here ps l ∧ Makes t t' l := by
  fun_induction makeWay t here ps
  case case1 =>
    cases hmade
    exact ⟨_, .arrives _, makes_refl hhere⟩
  case case2 hskip _ =>
    rw [List.forall_mem_cons] at hps
    simp [hps.1.nonempty, hps.1.notHere] at hskip
  case case3 =>
    rw [List.forall_mem_cons] at hps
    exact absurd rfl hps.1.notUp
  case case4 t here part rest hskip hup _ hnone _ =>
    have hnone : t.at? (here ++ [part]) = none := hnone
    have hbelow := h.nothing_below (l := here ++ [part]) (by simp [hnone])
    rw [← makeWay_none (hps part List.mem_cons_self) hnone] at hmade
    have hmakes := makesWay_missing hnone hbelow hps hmade
    exact ⟨_, hmakes.way, hmakes.makes⟩
  case case5 here part rest hskip hup _ hchild ih =>
    rw [List.forall_mem_cons] at hps
    obtain ⟨l, hway, hmakes⟩ := ih h hchild hps.2 hmade
    exact ⟨l, .enters hskip hup ((makeWay_gainsDirectories _ _ hmade).keepsWays.directory _ hchild) hway, hmakes⟩
  case case6 here part rest hskip hup _ target hchild l₁ hwalk hdir ih =>
    rw [List.forall_mem_cons] at hps
    obtain ⟨l, hway, hmakes⟩ := ih h hdir hps.2 hmade
    have hways := (makeWay_gainsDirectories _ _ hmade).keepsWays
    refine ⟨l, ?_, hmakes⟩
    exact ((way_of_walk hwalk).of_keepsWays hways).append (hways.directory _ hdir) hway
  all_goals cases hmade

/-- Making directories along some parts and others is making them along the former and going on from there. -/
theorem makeWay_append (hhere : t.at? here = some .directory) (hps : ∀ part ∈ ps, Path.IsName part)
    (hmade : t.makeWay here (ps ++ rest) = .ok t') :
    ∃ t₁ l, t.makeWay here ps = .ok t₁ ∧ t₁.Way here ps l ∧ t₁.at? l = some .directory
      ∧ t₁.makeWay l rest = .ok t' := by
  induction ps generalizing t here with
  | nil => exact ⟨t, here, by rw [makeWay], .arrives here, hhere, hmade⟩
  | cons part more ih =>
    rw [List.forall_mem_cons] at hps
    have hskip : ¬(part = "" ∨ part = ".") := by simp [hps.1.nonempty, hps.1.notHere]
    rw [List.cons_append, makeWay, if_neg hskip, if_neg hps.1.notUp] at hmade
    rw [makeWay, if_neg hskip, if_neg hps.1.notUp]
    dsimp only at hmade ⊢
    split at hmade
    next hnone =>
      have hput := at?_put_self (t := t) (n := .directory) (ne_nil_of_at?_eq_none hnone)
      obtain ⟨t₁, l, hfirst, hway, hdir, hrest⟩ := ih hput hps.2 hmade
      have hkept := (makeWay_gainsDirectories _ _ hfirst).keepsWays.directory _ hput
      exact ⟨t₁, l, hfirst, .enters hskip hps.1.notUp hkept hway, hdir, hrest⟩
    next hchild =>
      obtain ⟨t₁, l, hfirst, hway, hdir, hrest⟩ := ih hchild hps.2 hmade
      have hkept := (makeWay_gainsDirectories _ _ hfirst).keepsWays.directory _ hchild
      exact ⟨t₁, l, hfirst, .enters hskip hps.1.notUp hkept hway, hdir, hrest⟩
    next target hchild =>
      split at hmade
      next l₁ hwalk =>
        split at hmade
        next hl₁ =>
          obtain ⟨t₁, l, hfirst, hway, hdir, hrest⟩ := ih hl₁ hps.2 hmade
          have hways := (makeWay_gainsDirectories _ _ hfirst).keepsWays
          have hlink := ((way_of_walk hwalk).of_keepsWays hways).append (hways.directory _ hl₁) hway
          exact ⟨t₁, l, by simp only [hl₁, if_true, hfirst], hlink, hdir, hrest⟩
        · cases hmade
      · cases hmade
    · cases hmade

/-- Making a directory of one name below those of a path. -/
theorem makeWay_concat {name : String} (h : t.Closed) (hhere : t.at? here = some .directory)
    (hps : ∀ part ∈ ps, Path.IsName part) (hname : Path.IsName name) (hmade : t.makeWay here (ps ++ [name]) = .ok t') :
    ∃ l, t'.Way here ps l ∧ t'.at? l = some .directory ∧ ∀ m, t'.at? m = t.at? m
      ∨ t.at? m = none ∧ t'.at? m = some .directory ∧ (m <+: l ∨ m = l ++ [name]) := by
  obtain ⟨t₁, l, hfirst, hway, hdir, hlast⟩ := makeWay_append hhere hps hmade
  obtain ⟨l', hway', hmakes⟩ := makeWay_makes h hhere hps hfirst
  cases hway'.unique hway
  have hways := (makeWay_gainsDirectories _ _ hlast).keepsWays
  refine ⟨l, hway.of_keepsWays hways, hways.directory _ hdir, fun m => ?_⟩
  have hbefore : t₁.at? m = t.at? m ∨ t.at? m = none ∧ t₁.at? m = some .directory ∧ (m <+: l ∨ m = l ++ [name]) :=
    (hmakes.changed m).imp_right fun ⟨hnone, hnew, hpre⟩ => ⟨hnone, hnew, .inl hpre⟩
  have hsame : t' = t₁ ∨ t₁.at? (l ++ [name]) = none ∧ t' = t₁.put (l ++ [name]) .directory := by
    rw [makeWay, if_neg (by simp [hname.nonempty, hname.notHere]), if_neg hname.notUp] at hlast
    dsimp only at hlast
    split at hlast
    next hnone =>
      rw [makeWay] at hlast
      exact .inr ⟨hnone, (Except.ok.inj hlast).symm⟩
    next =>
      rw [makeWay] at hlast
      exact .inl (Except.ok.inj hlast).symm
    next =>
      split at hlast
      · split at hlast
        · rw [makeWay] at hlast
          exact .inl (Except.ok.inj hlast).symm
        · cases hlast
      · cases hlast
    · cases hlast
  rcases hsame with rfl | ⟨hnone, rfl⟩
  · exact hbefore
  · rw [at?_put (by simp)]
    by_cases hm : m = l ++ [name]
    · subst hm
      rcases hbefore with hsame | ⟨hnone, hnew, -⟩
      · exact .inr ⟨hsame ▸ hnone, if_pos rfl, .inr rfl⟩
      · exact .inr ⟨hnone, if_pos rfl, .inr rfl⟩
    · rw [if_neg hm]
      exact hbefore

theorem makeWay_empty (t : FileTree) (here : Location) (rest : List String) :
    t.makeWay here ("" :: rest) = t.makeWay here rest := by rw [makeWay, if_pos (.inl rfl)]

theorem makeDirectories_ofParts (hps : ∀ part ∈ ps, Path.IsName part) :
    t.makeDirectories [] (Path.ofParts ps) = .ok t' ↔ t.makeWay [] ps = .ok t' := by
  have hway : t.makeWay [] (Path.parts (Path.ofParts ps)) = t.makeWay [] ps := by
    by_cases hnil : ps = []
    · subst hnil
      rw [Path.parts_root, makeWay_empty, makeWay_empty]
    · rw [Path.parts_ofParts hnil hps, makeWay_empty]
  rw [makeDirectories, Path.isAbsolute_ofParts, if_pos rfl, hway]
  cases t.makeWay [] ps with
  | error => exact ⟨nofun, nofun⟩
  | ok => exact ⟨fun h => by cases h; rfl, fun h => by cases h; rfl⟩

/-- A temporary directory is made directly below the place where the path of its directory leads. -/
theorem makeTemporary_makes {stem path : String} {number : Nat} (hps : ∀ part ∈ ps, Path.IsName part)
    (hname : Path.IsName (stem ++ String.ofList (Instant.zeroPadded 6 number))) (hway : t.Way [] ps l)
    (hmade : t.makeTemporary [] (Path.ofParts (ps ++ [stem])) number = .ok (t', path)) :
    t.at? (l ++ [stem ++ String.ofList (Instant.zeroPadded 6 number)]) = none
      ∧ t' = t.put (l ++ [stem ++ String.ofList (Instant.zeroPadded 6 number)]) .directory := by
  have hall : ∀ part ∈ ps ++ [stem ++ String.ofList (Instant.zeroPadded 6 number)], Path.IsName part := by
    simpa only [List.forall_mem_append, List.forall_mem_singleton] using ⟨hps, hname⟩
  rw [makeTemporary, Path.ofParts_append, Path.isAbsolute_ofParts, if_pos rfl, walk_ofParts hall] at hmade
  split at hmade
  · cases hmade
  next l' hwalk =>
    obtain ⟨l'', hfirst, rfl⟩ := walk_of_concat hname hwalk
    cases (way_of_walk hfirst).unique hway
    split at hmade
    · cases hmade
    next hnone =>
      cases hmade
      exact ⟨by simpa using hnone, rfl⟩

theorem path_of_makeTemporary {base : Location} {stem path : String} {number : Nat}
    (hmade : t.makeTemporary base stem number = .ok (t', path)) :
    path = stem ++ String.ofList (Instant.zeroPadded 6 number) := by
  unfold makeTemporary at hmade
  dsimp only at hmade
  split at hmade
  · cases hmade
  · split at hmade
    · cases hmade
    · cases hmade
      rfl

/-! ## Trees with less -/

theorem walk_enter {follow : Bool} {links : Nat} (hskip : ¬(part = "" ∨ part = ".")) (hup : part ≠ "..")
    (hdir : t.at? (here ++ [part]) = some .directory) (rest : List String) :
    t.walk follow links here (part :: rest) = t.walk follow links (here ++ [part]) rest := by
  rw [FileTree.walk, if_neg hskip, if_neg hup]
  simp only [hdir]

theorem walk_follow {follow : Bool} {links : Nat} {target : String} (hskip : ¬(part = "" ∨ part = "."))
    (hup : part ≠ "..") (hlink : t.at? (here ++ [part]) = some (.link target))
    (hlast : ¬(rest.isEmpty && !follow) = true) :
    t.walk follow (links + 1) here (part :: rest)
      = t.walk follow links (if Path.isAbsolute target then [] else here) (Path.parts target ++ rest) := by
  rw [FileTree.walk, if_neg hskip, if_neg hup]
  simp only [hlink, hlast]
  rfl

/-- The walk along a way that goes on from directories only fails when it has followed too many links. -/
theorem Way.walk (h : t.Way here ps l) (links : Nat) :
    t.walk true links here ps = .ok l ∨ t.walk true links here ps = .error .loop := by
  induction h generalizing links with
  | arrives => exact .inl (by rw [FileTree.walk])
  | stays hskip _ ih =>
    rw [FileTree.walk, if_pos hskip]
    exact ih links
  | up _ ih =>
    rw [FileTree.walk, if_neg (by decide), if_pos rfl]
    exact ih links
  | enters hskip hup hdir _ ih =>
    rw [walk_enter hskip hup hdir]
    exact ih links
  | follows hskip hup hlink _ ih =>
    cases links with
    | zero =>
      rw [FileTree.walk, if_neg hskip, if_neg hup]
      simp [hlink]
    | succ links =>
      rw [walk_follow hskip hup hlink (by simp)]
      exact ih links
  | ends hskip hup _ hlink => exact .inl (walk_last hskip hup hlink)

/-- A walk that ends at an entry takes the same way in every tree that has all the entries. -/
theorem walk_of_kept (hkept : ∀ m n, t.at? m = some n → t'.at? m = some n) {follow : Bool} {links : Nat}
    (hl : t.at? l ≠ none) (hwalk : t.walk follow links here ps = .ok l) : t'.walk follow links here ps = .ok l := by
  fun_induction FileTree.walk t follow links here ps
  case case1 => rwa [FileTree.walk]
  case case2 hskip ih => rw [FileTree.walk, if_pos hskip, ih hwalk]
  case case3 hskip ih => rw [FileTree.walk, if_neg hskip, if_pos rfl, ih hwalk]
  case case4 here part rest hskip hup _ target hchild hlast =>
    have hnew : t'.at? (here ++ [part]) = some (.link target) := hkept _ _ hchild
    rw [FileTree.walk, if_neg hskip, if_neg hup]
    simp only [hnew, hlast]
    exact hwalk
  case case6 hskip hup _ target hchild hlast links ih =>
    rw [walk_follow hskip hup (hkept _ _ hchild) hlast]
    exact ih hwalk
  case case7 hskip hup _ hchild ih =>
    rw [walk_enter hskip hup (hkept _ _ hchild)]
    exact ih hwalk
  case case8 hskip hup _ node hlink hdir hchild hlast =>
    have hnew := hkept _ _ hchild
    rw [List.isEmpty_iff.mp hlast, walk_last hskip hup fun target heq => ?_, hwalk]
    rw [hnew, Option.some.injEq] at heq
    exact hlink target heq
  case case10 hchild _ =>
    rw [← Except.ok.inj hwalk, hchild] at hl
    exact absurd rfl hl
  all_goals cases hwalk

/-- A walk that goes through a location that has been removed ends there. -/
theorem walk_removed {x : Location} {follow : Bool} {links : Nat} (hx : x ≠ []) (hpre : x <+: here ++ [part])
    (hskip : ¬(part = "" ∨ part = ".")) (hup : part ≠ "..")
    (hwalk : (t.remove x).walk follow links here (part :: rest) = .ok l) : x <+: l := by
  have hnone : (t.remove x).at? (here ++ [part]) = none := by
    rw [at?_remove hx, if_pos (by simpa using hpre)]
  rw [FileTree.walk, if_neg hskip, if_neg hup] at hwalk
  simp only [hnone] at hwalk
  split at hwalk
  · cases hwalk
    exact hpre
  · cases hwalk

/-- If a walk leads to the same place without any one of some locations, it does so without several of them. -/
theorem walk_without {P : Location → Prop} {links : Nat} (hout : ∀ x, P x → ¬x <+: l)
    (hsame : ∀ m, (∀ x, P x → ¬x <+: m) → t'.at? m = t.at? m)
    (hone : ∀ x, P x → (t.remove x).walk true links here ps = .ok l) (hwalk : t.walk true links here ps = .ok l) :
    t'.walk true links here ps = .ok l := by
  have hne : ∀ x, P x → x ≠ [] := by
    rintro x hx rfl
    exact hout [] hx List.nil_prefix
  generalize hfollow : true = follow at hone hwalk ⊢
  have hkept : ∀ x, P x → ∀ m, ¬x <+: m → (t.remove x).at? m = t.at? m := by
    intro x hx m hm
    rw [at?_remove (hne x hx), if_neg (by simpa using hm)]
  fun_induction FileTree.walk t follow links here ps
  case case1 => rwa [FileTree.walk]
  case case2 hskip ih =>
    rw [FileTree.walk, if_pos hskip]
    refine ih (fun x hx => ?_) hwalk
    have hx := hone x hx
    rwa [FileTree.walk, if_pos hskip] at hx
  case case3 hskip ih =>
    rw [FileTree.walk, if_neg hskip, if_pos rfl]
    refine ih (fun x hx => ?_) hwalk
    have hx := hone x hx
    rwa [FileTree.walk, if_neg hskip, if_pos rfl] at hx
  case case4 hlast => simp [← hfollow] at hlast
  case case6 hskip hup _ target hchild hlast links ih =>
    have hfree : ∀ x, P x → ¬x <+: _ := fun x hx hpre =>
      hout x hx (walk_removed (hne x hx) hpre hskip hup (hone x hx))
    rw [walk_follow hskip hup ((hsame _ hfree).trans hchild) hlast]
    refine ih (fun x hx => ?_) hwalk
    have hx' := hone x hx
    rwa [walk_follow hskip hup ((hkept x hx _ (hfree x hx)).trans hchild) hlast] at hx'
  case case7 hskip hup _ hchild ih =>
    have hfree : ∀ x, P x → ¬x <+: _ := fun x hx hpre =>
      hout x hx (walk_removed (hne x hx) hpre hskip hup (hone x hx))
    rw [walk_enter hskip hup ((hsame _ hfree).trans hchild)]
    refine ih (fun x hx => ?_) hwalk
    have hx' := hone x hx
    rwa [walk_enter hskip hup ((hkept x hx _ (hfree x hx)).trans hchild)] at hx'
  case case8 here part rest hskip hup _ node hlink hdir hchild hlast =>
    have hl : here ++ [part] = l := Except.ok.inj hwalk
    have hnew := (hsame (here ++ [part]) fun x hx => hl ▸ hout x hx).trans hchild
    rw [List.isEmpty_iff.mp hlast, walk_last hskip hup fun target heq => ?_, hl]
    rw [hnew, Option.some.injEq] at heq
    exact hlink target heq
  case case10 here part rest hskip hup _ hchild hlast =>
    have hl : here ++ [part] = l := Except.ok.inj hwalk
    have hnew := (hsame (here ++ [part]) fun x hx => hl ▸ hout x hx).trans hchild
    rw [List.isEmpty_iff.mp hlast, walk_last hskip hup fun target heq => ?_, hl]
    rw [hnew] at heq
    cases heq
  all_goals cases hwalk

/-! ## Directories that paths lead to -/

/-- A path leads to a directory. -/
structure LeadsTo (t : FileTree) (path : String) (l : Location) : Prop where
  located : t.locate [] path = .ok l
  directory : t.at? l = some .directory

variable {path : String}

theorem LeadsTo.way (h : t.LeadsTo (Path.ofParts ps) l) (hps : ∀ part ∈ ps, Path.IsName part) : t.Way [] ps l := by
  have hlocated := h.located
  rw [locate_ofParts hps] at hlocated
  exact way_of_walk hlocated

theorem LeadsTo.of_keepsWays (h : t.LeadsTo path l) (hways : KeepsWays t t') : t'.LeadsTo path l :=
  ⟨locate_of_keepsWays hways h.located, hways.directory l h.directory⟩

theorem at?_of_remove {x : Location} (hx : x ≠ []) {n : Node} (h : (t.remove x).at? m = some n) : t.at? m = some n := by
  rw [at?_remove hx] at h
  split at h
  · cases h
  · exact h

theorem KeepsWays.remove (h : KeepsWays t t') {x : Location} (hx : x ≠ []) : KeepsWays (t.remove x) (t'.remove x) := by
  constructor
  · intro m hm
    rw [at?_remove hx] at hm ⊢
    split at hm
    · cases hm
    next hout =>
      rw [if_neg hout]
      exact h.directory m hm
  · intro m target
    rw [at?_remove hx, at?_remove hx]
    split
    · simp
    · exact h.link m target

theorem LeadsTo.of_kept (h : t.LeadsTo path l) (hkept : ∀ m n, t.at? m = some n → t'.at? m = some n) :
    t'.LeadsTo path l := by
  refine ⟨?_, hkept l _ h.directory⟩
  have hlocated := h.located
  unfold locate at hlocated ⊢
  split at hlocated
  · cases hlocated
  next hpath =>
    rw [if_neg hpath]
    exact walk_of_kept hkept (by simp [h.directory]) hlocated

/-- A name that leads to a directory does so in every tree that has all the entries. -/
theorem leadsToDirectory_of_kept {name : String} (hkept : ∀ m n, t.at? m = some n → t'.at? m = some n)
    (h : t.leadsToDirectory l name = true) : t'.leadsToDirectory l name = true := by
  unfold leadsToDirectory at h ⊢
  split at h
  next m hwalk =>
    have hdir : t.at? m = some .directory := of_decide_eq_true h
    rw [walk_of_kept hkept (by simp [hdir]) hwalk]
    exact decide_eq_true (hkept m _ hdir)
  · cases h

theorem leadsToDirectory_of_keepsWays {name : String} (hways : KeepsWays t t') (h : t.leadsToDirectory l name = true) :
    t'.leadsToDirectory l name = true := by
  unfold leadsToDirectory at h ⊢
  split at h
  next m hwalk =>
    rw [walk_of_keepsWays hways hwalk]
    exact decide_eq_true (hways.directory m (of_decide_eq_true h))
  · cases h

/-- Once a directory has been made under a name, the name leads to one. -/
theorem leadsToDirectory_of_makeWay {name : String} (hname : Path.IsName name) (hmade : t.makeWay l [name] = .ok t') :
    t'.leadsToDirectory l name = true := by
  rw [makeWay, if_neg (by simp [hname.nonempty, hname.notHere]), if_neg hname.notUp] at hmade
  dsimp only at hmade
  split at hmade
  next hnone =>
    rw [makeWay] at hmade
    cases hmade
    exact leadsToDirectory_directory hname (at?_put_self (ne_nil_of_at?_eq_none hnone))
  next hdir =>
    rw [makeWay] at hmade
    cases hmade
    exact leadsToDirectory_directory hname hdir
  next =>
    split at hmade
    next m hwalk =>
      split at hmade
      next hdir =>
        rw [makeWay] at hmade
        cases hmade
        rw [leadsToDirectory, hwalk]
        exact decide_eq_true hdir
      · cases hmade
    · cases hmade
  · cases hmade

/-! ## Entries -/

/-- There is an entry at a path. A link at the end is not followed. -/
def HasEntry (t : FileTree) (path : String) : Prop :=
  ∃ m, t.walk false maxLinks [] (Path.parts path) = .ok m ∧ t.at? m ≠ none

theorem HasEntry.of_kept (h : t.HasEntry path)
    (hkept : ∀ m n, t.at? m = some n → t'.at? m = some n) : t'.HasEntry path := by
  obtain ⟨m, hwalk, hm⟩ := h
  obtain ⟨n, hn⟩ := Option.ne_none_iff_exists'.mp hm
  exact ⟨m, walk_of_kept hkept hm hwalk, by simp [hkept m n hn]⟩

end Bailiff.FileTree
