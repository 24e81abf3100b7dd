-- SUMMARY: Any course of opening connections and asking them keeps a database that was empty at first sound.
import Bailiff.Proofs.Results.Archive
import Mathlib.Data.List.Forall2

/-!
# Histories of an archive

An archive is acted on by opening connections and by requests on them (`Archive.act`), and
`Archive.run` keeps a list of what was answered. The invariant `Archive.Kept` ties the database at a
spot to the answers given there; each action preserves it, and `Archive.run_keeps_store` draws the
consequences for all runs.
-/

namespace Bailiff.Archive

variable {a a' : Archive} {c : Connection} {number : Nat}

/-! ## Actions -/

inductive Action where
  | connect (path : String)
  | request (number : Nat) (r : Request)

/-- An action with its answer. -/
inductive Deed where
  | connected (path : String) (answer : Except Failure Nat)
  | answered (spot : Spot) (r : Request) (answer : Except Failure Value)

namespace Deed

/-- The id that was given for a session begun at a spot. -/
def begun? (σ : Spot) : Deed → Option Value
  | answered τ (.begin ..) (.ok id) => if τ = σ then some id else none
  | _ => none

/-- The request whose result was recorded at a spot. -/
def recorded? (σ : Spot) : Deed → Option Request
  | answered τ (.record session task start duration outcome) (.ok _) =>
    if τ = σ then some (.record session task start duration outcome) else none
  | _ => none

def isFailure : Deed → Bool
  | connected _ (.error _) => true
  | answered _ _ (.error _) => true
  | _ => false

variable {σ τ : Spot} {r : Request} {answer : Except Failure Value}

theorem begun?_of_ne (h : τ ≠ σ) : begun? σ (.answered τ r answer) = none := by
  unfold begun?
  split
  next heq =>
    cases heq
    rw [if_neg h]
  next => rfl

theorem recorded?_of_ne (h : τ ≠ σ) : recorded? σ (.answered τ r answer) = none := by
  unfold recorded?
  split
  next heq =>
    cases heq
    rw [if_neg h]
  next => rfl

theorem begun?_of_kept (h : r.adds = true → ∃ f, answer = .error f) :
    begun? σ (.answered τ r answer) = none := by
  cases r with
  | «begin» =>
    obtain ⟨f, rfl⟩ := h rfl
    rfl
  | _ => rfl

theorem recorded?_of_kept (h : r.adds = true → ∃ f, answer = .error f) :
    recorded? σ (.answered τ r answer) = none := by
  cases r with
  | record =>
    obtain ⟨f, rfl⟩ := h rfl
    rfl
  | _ => rfl

theorem recorded?_of_told {row : ResultRow} (h : Store.RecordedAs r row) (v : Value) :
    recorded? σ (.answered σ r (.ok v)) = some r := by
  obtain ⟨_, _, _, _, _, rfl, -⟩ := h
  exact if_pos rfl

end Deed

/-- Does one action. A request on a connection that is not there does nothing. -/
def act (a : Archive) : Action → Archive × Option Deed
  | .connect path => ((a.connect path).1, some (.connected path (a.connect path).2))
  | .request number r =>
    match a.connections[number]?, a.perform number r with
    | some c, some (a', answer) => (a', some (.answered (spotOf number c) r answer))
    | _, _ => (a, none)

theorem act_connect (path : String) :
    a.act (.connect path) = ((a.connect path).1, some (.connected path (a.connect path).2)) := rfl

/-- Does actions in order. -/
def run (a : Archive) : List Action → Archive × List Deed
  | [] => (a, [])
  | x :: rest =>
    (((a.act x).1.run rest).1, (a.act x).2.toList ++ ((a.act x).1.run rest).2)

theorem run_append (xs ys : List Action) :
    a.run (xs ++ ys) = (((a.run xs).1.run ys).1, (a.run xs).2 ++ ((a.run xs).1.run ys).2) := by
  induction xs generalizing a with
  | nil => rfl
  | cons x xs ih => simp [run, ih]

theorem filterMap_concat {β : Type} (f : Deed → Option β) (deeds : List Deed) (d : Deed) :
    (deeds ++ [d]).filterMap f = deeds.filterMap f ++ (f d).toList := by
  rw [List.filterMap_append]
  cases h : f d <;> simp [h]

/-! ## The invariant -/

/-- The rules of a database hold, and it has exactly what was answered at a spot so far. -/
structure Tells (σ : Spot) (deeds : List Deed) (db : Database) : Prop where
  sound : db.Sound
  begun : deeds.filterMap (Deed.begun? σ) = db.sessions.map fun s => .int s.id
  recorded : List.Forall₂ Store.RecordedAs (deeds.filterMap (Deed.recorded? σ)) db.results

/-- The invariant of the database at a spot. -/
structure Kept (σ : Spot) (a : Archive) (deeds : List Deed) : Prop where
  tells : Tells σ deeds (a.database σ)
  own : ∀ t, (a.database σ).resultTable = some t → t.isForeign = false
  ready : ∀ n c, a.connections[n]? = some c → spotOf n c = σ → (a.database σ).Ready

/-- One database grows out of another: sessions and results are only added at the end. -/
def Grows (db db' : Database) : Prop := db.sessions <+: db'.sessions ∧ db.results <+: db'.results

theorem Grows.refl (db : Database) : Grows db db := ⟨List.prefix_rfl, List.prefix_rfl⟩

theorem Grows.trans {db db' db'' : Database} (h : Grows db db') (h' : Grows db' db'') :
    Grows db db'' :=
  ⟨h.1.trans h'.1, h.2.trans h'.2⟩

/-- Two databases with the same sessions and results. -/
def Same (db db' : Database) : Prop := db'.sessions = db.sessions ∧ db'.results = db.results

theorem Same.grows {db db' : Database} (h : Same db db') : Grows db db' := by
  unfold Grows
  rw [h.1, h.2]
  exact Grows.refl db

/-- What a step does to a spot under the invariant. -/
structure StepsTo (σ : Spot) (a : Archive) (deeds : List Deed) (a' : Archive)
    (deed : Option Deed) : Prop where
  linked : a'.Linked
  kept : Kept σ a' (deeds ++ deed.toList)
  grows : Grows (a.database σ) (a'.database σ)
  failed : deed.any Deed.isFailure = true → Same (a.database σ) (a'.database σ)

variable {σ : Spot} {deeds : List Deed} {db db' : Database}

/-- A deed that neither begins nor records leaves a database as it was told. -/
theorem Tells.silent (h : Tells σ deeds db) {d : Deed} (hbegun : d.begun? σ = none)
    (hrecorded : d.recorded? σ = none) : Tells σ (deeds ++ [d]) db := by
  constructor
  · exact h.sound
  · rw [filterMap_concat, hbegun, Option.toList_none, List.append_nil]
    exact h.begun
  · rw [filterMap_concat, hrecorded, Option.toList_none, List.append_nil]
    exact h.recorded

/-! ## Opening a connection -/

theorem same_connect (path : String) (σ : Spot) :
    Same (a.database σ) ((a.connect path).1.database σ) := by
  rcases database_connect (a := a) path σ with h | h
  · rw [h]
    exact ⟨rfl, rfl⟩
  · rw [h]
    exact ⟨Database.sessions_withTables _, Database.results_withTables _⟩

theorem tells_withTables (h : Tells σ deeds db) : Tells σ deeds db.withTables := by
  constructor
  · exact h.sound.withTables
  · rw [Database.sessions_withTables]
    exact h.begun
  · rw [Database.results_withTables]
    exact h.recorded

theorem ready_connect (hkept : Kept σ a deeds) (path : String) {n : Nat} {c : Connection}
    (hc : (a.connect path).1.connections[n]? = some c) (hσ : spotOf n c = σ) :
    ((a.connect path).1.database σ).Ready := by
  have hold : a.connections[n]? = some c → ((a.connect path).1.database σ).Ready := by
    intro hc
    have hready := hkept.ready n c hc hσ
    rcases database_connect (a := a) path σ with h | h
    · rwa [h]
    · rwa [h, hready.withTables]
  rcases connections_connect (a := a) path with h | ⟨new, h, htables⟩
  · rw [h] at hc
    exact hold hc
  · rw [h] at hc
    rcases Nat.lt_trichotomy n a.connections.length with hn | hn | hn
    · rw [List.getElem?_append_left hn] at hc
      exact hold hc
    · rw [hn, List.getElem?_concat_length] at hc
      obtain rfl : new = c := Option.some.inj hc
      rw [hn] at hσ
      rw [hσ] at htables
      rw [htables]
      exact Database.ready_withTables hkept.own
    · have hlen : (a.connections ++ [new]).length ≤ n := by
        rw [List.length_append]
        exact hn
      rw [List.getElem?_eq_none hlen] at hc
      cases hc

theorem Kept.connect (hkept : Kept σ a deeds) (hlinked : a.Linked) (path : String) :
    StepsTo σ a deeds (a.connect path).1 (some (.connected path (a.connect path).2)) := by
  have hsame := same_connect (a := a) path σ
  refine ⟨linked_connect hlinked path, ?_, hsame.grows, fun _ => hsame⟩
  constructor
  case tells =>
    refine Tells.silent ?_ rfl rfl
    rcases database_connect (a := a) path σ with h | h
    · rw [h]
      exact hkept.tells
    · rw [h]
      exact tells_withTables hkept.tells
  case own =>
    intro t ht
    rcases database_connect (a := a) path σ with h | h
    · rw [h] at ht
      exact hkept.own t ht
    · rw [h] at ht
      exact (Database.ready_withTables hkept.own).own t ht
  case ready => exact fun n c hc hσ => ready_connect hkept path hc hσ

/-! ## Asking a connection -/

/-- What a request comes to is what the database tells from then on. -/
theorem Tells.answered {s s' : Store} {r : Request} {answer : Except Failure Value}
    (h : Tells σ deeds s.db) (hready : s.db.Ready) (hanswered : Store.Answered s r s' answer) :
    Tells σ (deeds ++ [.answered σ r answer]) s'.db ∧ s'.db.Ready ∧ Grows s.db s'.db := by
  cases hanswered with
  | began v start =>
    have hsessions := Database.sessions_addSession hready v start
    refine ⟨⟨h.sound.addSession hready v start, ?_, ?_⟩, hready.addSession v start, ?_⟩
    · rw [filterMap_concat, h.begun, hsessions, List.map_append]
      simp [Deed.begun?]
    · rw [filterMap_concat]
      simpa [Deed.recorded?] using h.recorded
    · refine ⟨?_, List.prefix_rfl⟩
      rw [hsessions]
      exact List.prefix_append ..
  | @recorded _ row session known hid fresh blank told =>
    have hresults := Database.results_append hready.resultTable (row.settle session.id)
    refine ⟨⟨h.sound.append hready known hid fresh blank, ?_, ?_⟩, hready.append _, ?_⟩
    · obtain ⟨_, _, _, _, _, rfl, -⟩ := told
      rw [filterMap_concat, Database.sessions_append, h.begun]
      exact List.append_nil _
    · rw [filterMap_concat, hresults, Deed.recorded?_of_told told]
      exact List.rel_append h.recorded (.cons told .nil)
    · refine ⟨List.prefix_rfl, ?_⟩
      rw [hresults]
      exact List.prefix_append ..
  | closed => exact ⟨h.silent rfl rfl, hready, .refl _⟩
  | kept failed =>
    exact ⟨h.silent (Deed.begun?_of_kept failed) (Deed.recorded?_of_kept failed), hready, .refl _⟩

/-- A request elsewhere changes nothing here. -/
theorem Kept.elsewhere (hkept : Kept σ a deeds) {c' : Connection} {r : Request}
    {answer : Except Failure Value} (hset : a'.connections = a.connections.set number c')
    (hne : spotOf number c ≠ σ) (hspot : spotOf number c' = spotOf number c)
    (hdb : a'.database σ = a.database σ) :
    Kept σ a' (deeds ++ [.answered (spotOf number c) r answer]) := by
  constructor
  · rw [hdb]
    exact hkept.tells.silent (Deed.begun?_of_ne hne) (Deed.recorded?_of_ne hne)
  · rw [hdb]
    exact hkept.own
  · intro n d hd hσ
    rw [hdb]
    rw [hset, List.getElem?_set] at hd
    split at hd
    next heq =>
      subst heq
      split at hd
      · cases hd
        exact absurd (hspot.symm.trans hσ) hne
      · cases hd
    next => exact hkept.ready n d hd hσ

theorem Kept.request (hkept : Kept σ a deeds) (hlinked : a.Linked)
    (hc : a.connections[number]? = some c) (r : Request) :
    ∃ a' answer, a.perform number r = some (a', answer)
      ∧ StepsTo σ a deeds a' (some (.answered (spotOf number c) r answer)) := by
  obtain ⟨a', c', hperform, hset, hpath, hspot, hbase, hfiles, hdb⟩ := perform_eq hlinked hc r
  have hlinked' := linked_perform hlinked hc hset hpath hspot hbase hfiles
  refine ⟨a', _, hperform, ?_⟩
  by_cases hσ : spotOf number c = σ
  · subst hσ
    have hstore : (c.store a.files).db = a.database (spotOf number c) := db_store hc
    have hready := hkept.ready number c hc rfl
    rw [← hstore] at hready
    have hanswered := Store.answer_answered hready.guarded c.path r
    have htells := hkept.tells
    rw [← hstore] at htells
    obtain ⟨htells', hready', hgrows⟩ := htells.answered hready hanswered
    have hdb' := hdb (spotOf number c)
    rw [if_pos rfl] at hdb'
    refine ⟨hlinked', ⟨?_, ?_, ?_⟩, ?_, ?_⟩
    · rwa [hdb']
    · rw [hdb']
      exact hready'.own
    · intros
      rwa [hdb']
    · rwa [hdb', ← hstore]
    · intro hfailed
      rw [hdb', ← hstore]
      cases hanswer : ((c.store a.files).answer c.path r).2 with
      | ok v => simp [Deed.isFailure, hanswer] at hfailed
      | error f =>
        rw [hanswer] at hanswered
        rw [hanswered.of_error]
        exact ⟨rfl, rfl⟩
  · have hdb' := hdb σ
    rw [if_neg (Ne.symm hσ)] at hdb'
    have hsame : Same (a.database σ) (a'.database σ) := by
      rw [hdb']
      exact ⟨rfl, rfl⟩
    exact ⟨hlinked', hkept.elsewhere hset hσ (hspot number) hdb', hsame.grows, fun _ => hsame⟩

/-! ## Courses of actions -/

theorem Kept.act (hkept : Kept σ a deeds) (hlinked : a.Linked) (x : Action) :
    StepsTo σ a deeds (a.act x).1 (a.act x).2 := by
  cases x with
  | connect path =>
    simpa only [act_connect] using hkept.connect hlinked path
  | request number r =>
    cases hc : a.connections[number]? with
    | none =>
      have hnone : a.act (.request number r) = (a, none) := by simp [Archive.act, hc]
      rw [hnone]
      refine ⟨hlinked, ?_, .refl _, fun h => by cases h⟩
      rwa [Option.toList_none, List.append_nil]
    | some c =>
      obtain ⟨a', answer, hperform, hsteps⟩ := hkept.request hlinked hc r
      have hsome : a.act (.request number r)
          = (a', some (.answered (spotOf number c) r answer)) := by
        simp [Archive.act, hc, hperform]
      rwa [hsome]

theorem Kept.run (hkept : Kept σ a deeds) (hlinked : a.Linked) (acts : List Action) :
    (a.run acts).1.Linked ∧ Kept σ (a.run acts).1 (deeds ++ (a.run acts).2)
      ∧ Grows (a.database σ) ((a.run acts).1.database σ) := by
  induction acts generalizing a deeds with
  | nil =>
    refine ⟨hlinked, ?_, .refl _⟩
    rwa [Archive.run, List.append_nil]
  | cons x rest ih =>
    have hstep := hkept.act hlinked x
    obtain ⟨hlinked', hkept', hgrows⟩ := ih hstep.kept hstep.linked
    rw [List.append_assoc] at hkept'
    exact ⟨hlinked', hkept', hstep.grows.trans hgrows⟩

/-- An archive without connections. -/
def fresh (files : FileTree) (base : Location) : Archive := { files, base }

theorem kept_fresh {files : FileTree} {base : Location}
    (h : ((fresh files base).database σ).IsEmpty) : Kept σ (fresh files base) [] := by
  refine ⟨⟨h.sound, ?_, ?_⟩, h.ownResults, ?_⟩
  · simp [h.sessions]
  · simp [h.results]
  · intro n c hc
    simp [fresh] at hc

theorem linked_fresh (files : FileTree) (base : Location) : (fresh files base).Linked := by
  intro c hc
  cases hc

/-- Whatever connections are opened and whatever is asked of them, in any order, a database that was
empty at first stays sound. Its sessions are those that were begun, with the ids that were given for them,
which ascend, and its results are those that were recorded, in that order. None of them is ever changed,
an action that fails adds none, and connections of one path share one database. -/
theorem run_keeps_store (files : FileTree) (base : Location) (σ : Spot) (acts : List Action)
    (hempty : ((fresh files base).database σ).IsEmpty) :
    let a := ((fresh files base).run acts).1
    let deeds := ((fresh files base).run acts).2
    (a.database σ).Sound
      ∧ deeds.filterMap (Deed.begun? σ) = (a.database σ).sessions.map (fun s => .int s.id)
      ∧ List.Forall₂ Store.RecordedAs (deeds.filterMap (Deed.recorded? σ)) (a.database σ).results
      ∧ (∀ more, Grows (a.database σ) (((fresh files base).run (acts ++ more)).1.database σ))
      ∧ (∀ x d, (a.act x).2 = some d → d.isFailure = true →
          Same (a.database σ) ((a.act x).1.database σ))
      ∧ (∀ c ∈ a.connections, ∀ d ∈ a.connections, c.path = d.path →
          ∀ l m, c.place = .file l → d.place = .file m → l = m) := by
  intro a deeds
  obtain ⟨hlinked, hkept, -⟩ := (kept_fresh hempty).run (linked_fresh files base) acts
  rw [List.nil_append] at hkept
  refine ⟨hkept.tells.sound, hkept.tells.begun, hkept.tells.recorded, ?_, ?_, ?_⟩
  · intro more
    rw [run_append]
    exact (hkept.run hlinked more).2.2
  · intro x d hd hfailed
    refine (hkept.act hlinked x).failed ?_
    rwa [hd]
  · intro c hc d hd hpath l m hl hm
    exact hlinked.shared hc hd hpath hl hm

/-- Two connections to one new file, a killed run, and requests after closing. -/
theorem run_keeps_new_file :
    ((fresh {} ["work"]).database (.file ["work", "results.db"])).IsEmpty
      ∧ (((fresh {} ["work"]).run
          [.connect "results.db", .connect "./results.db", .request 0 (.begin (.text "1.0.0") 0),
            .request 1 (.record (.int 1) (.text "tasks/a") (.text "") (.number 1) .killed),
            .request 0 .close, .request 0 (.begin (.text "1.0.0") 0), .connect "results.db"]).1.database
          (.file ["work", "results.db"])).Sound := by
  have hempty : ((fresh {} ["work"]).database (.file ["work", "results.db"])).IsEmpty := by
    constructor <;> simp [fresh, database, FileTree.at?, databaseIn, Database.sessions, Database.results]
  exact ⟨hempty, (run_keeps_store {} ["work"] (.file ["work", "results.db"]) _ hempty).1⟩

end Bailiff.Archive
