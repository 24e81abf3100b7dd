-- SUMMARY: Sessions are numbered from one on in the order they were begun, so their ids are numbers of their own.
import Bailiff.Proofs.Results.History

/-!
# Numbers of sessions

Whatever is asked of a database, its sessions stay as they are or get one more at the end
(`Archive.Kept.sessions_act`). In one that was empty at first they are therefore numbered from one on
(`Archive.numbered_of_run`), and up to `2 ^ 53` their ids are numbers (`Binary64.toInt?_ofInt`).
-/

namespace Bailiff

theorem Binary64.toInt?_ofInt {id : Int} (hpos : 0 < id) (hlt : id < 2 ^ 53) : (ofInt id).toInt? = some id := by
  obtain ⟨n, rfl⟩ := Int.eq_ofNat_of_zero_le hpos.le
  obtain ⟨m, q, heq, hvalue⟩ := ofNat_eq (n := n) (by omega) (by omega)
  have hofNat : ofInt n = ofNat n := by
    rw [ofInt, ofNat, Int.natAbs_natCast, decide_eq_false (by omega)]
  rw [hofNat, heq, toInt?_eq_some_iff, hvalue]
  rfl

namespace Database

variable {db : Database}

/-- A session is found by its id. -/
theorem Sound.session?_eq (h : db.Sound) {s : Session} (hs : s ∈ db.sessions) {id : Binary64}
    (hid : id.toInt? = some s.id) : db.session? id = some s := by
  have hsome : (db.session? id).isSome := List.find?_isSome.mpr ⟨s, hs, by simpa using hid⟩
  obtain ⟨found, hfound⟩ := Option.isSome_iff_exists.mp hsome
  obtain ⟨hmem, heq⟩ := session?_eq_some hfound
  have hnodup : (db.sessions.map (·.id)).Nodup := h.ascending.imp fun hlt => hlt.ne
  have hsame : found.id = s.id := Option.some.inj (heq.symm.trans hid)
  rw [hfound, List.inj_on_of_nodup_map hnodup hmem hs hsame]

/-- The sessions are numbered from one on, in their order. -/
def Numbered (db : Database) : Prop :=
  db.sessions.map (·.id) = (List.range db.sessions.length).map fun i : Nat => (i : Int) + 1

theorem Numbered.mem (h : db.Numbered) {s : Session} (hs : s ∈ db.sessions) :
    0 < s.id ∧ s.id ≤ db.sessions.length := by
  have hid : s.id ∈ db.sessions.map (·.id) := List.mem_map_of_mem hs
  rw [h, List.mem_map] at hid
  obtain ⟨i, hi, hid⟩ := hid
  rw [List.mem_range] at hi
  omega

theorem Numbered.nextId_eq (h : db.Numbered) : db.nextId = db.sessions.length + 1 := by
  unfold nextId
  split
  next id hmax =>
    obtain ⟨hmem, hle⟩ := List.max?_eq_some_iff.mp hmax
    rw [h, List.mem_map] at hmem
    obtain ⟨i, hi, rfl⟩ := hmem
    rw [List.mem_range] at hi
    have hlast : ((db.sessions.length - 1 : Nat) : Int) + 1 ∈ db.sessions.map (·.id) := by
      rw [h]
      exact List.mem_map_of_mem (List.mem_range.mpr (by omega))
    have := hle _ hlast
    omega
  next hnone =>
    rw [List.max?_eq_none_iff, List.map_eq_nil_iff] at hnone
    rw [hnone]
    rfl

/-- One more session has the next number. -/
theorem Numbered.concat (h : db.Numbered) {db' : Database} {version : String} {start : Stamp}
    (hsessions : db'.sessions = db.sessions ++ [⟨db.nextId, version, start⟩]) : db'.Numbered := by
  unfold Numbered
  rw [hsessions, List.map_append, h, List.length_append, List.length_singleton, List.range_succ, List.map_append,
    List.map_singleton, List.map_singleton, h.nextId_eq]

end Database

namespace Archive

variable {a : Archive} {σ : Spot} {deeds : List Deed}

/-- An action leaves the sessions of a database as they are, or adds one at their end. -/
theorem Kept.sessions_act (hkept : Kept σ a deeds) (hlinked : a.Linked) (x : Action) :
    ((a.act x).1.database σ).sessions = (a.database σ).sessions
      ∨ ∃ version start, ((a.act x).1.database σ).sessions
          = (a.database σ).sessions ++ [⟨(a.database σ).nextId, version, start⟩] := by
  cases x with
  | connect path =>
    obtain ⟨hsame, -⟩ := same_connect (a := a) path σ
    simp only [act_connect]
    exact .inl hsame
  | request number r =>
    cases hc : a.connections[number]? with
    | none => exact .inl (by simp only [Archive.act, hc])
    | some c =>
      obtain ⟨a', -, hperform, -, -, -, -, -, hdb⟩ := perform_eq hlinked hc r
      have hact : (a.act (.request number r)).1 = a' := by simp only [Archive.act, hc, hperform]
      rw [hact, hdb σ]
      by_cases hσ : σ = spotOf number c
      · have hstore := db_store hc
        have hready := hkept.ready number c hc hσ.symm
        rw [hσ] at hready ⊢
        rw [← hstore] at hready ⊢
        rw [if_pos rfl]
        have hanswered := Store.answer_answered hready.guarded c.path r
        generalize (c.store a.files).answer c.path r = answered at hanswered ⊢
        obtain ⟨s', answer⟩ := answered
        cases hanswered with
        | began v start => exact .inr ⟨v, start, Database.sessions_addSession hready v start⟩
        | recorded | closed | kept => exact .inl rfl
      · rw [if_neg hσ]
        exact .inl rfl

theorem numbered_run (hkept : Kept σ a deeds) (hlinked : a.Linked) (h : (a.database σ).Numbered)
    (acts : List Action) : ((a.run acts).1.database σ).Numbered := by
  induction acts generalizing a deeds with
  | nil => exact h
  | cons x rest ih =>
    have hstep := hkept.act hlinked x
    refine ih hstep.kept hstep.linked ?_
    rcases hkept.sessions_act hlinked x with hsame | ⟨_, _, hmore⟩
    · unfold Database.Numbered
      rw [hsame]
      exact h
    · exact h.concat hmore

/-- There are at most as many deeds as actions. -/
theorem length_deeds_le (a : Archive) (acts : List Action) : (a.run acts).2.length ≤ acts.length := by
  induction acts generalizing a with
  | nil => exact Nat.le_refl 0
  | cons x rest ih =>
    have hdeed : (a.act x).2.toList.length ≤ 1 := by cases (a.act x).2 <;> simp
    have := ih (a.act x).1
    rw [run, List.length_append, List.length_cons]
    omega

/-- The sessions that a database has got since it was empty are numbered, and are at most as many as the actions. -/
theorem numbered_of_run (files : FileTree) (base : Location) (acts : List Action)
    (hempty : ((fresh files base).database σ).IsEmpty) :
    let db := ((fresh files base).run acts).1.database σ
    db.Numbered ∧ db.sessions.length ≤ acts.length := by
  intro db
  have hlinked := linked_fresh files base
  have hnumbered : ((fresh files base).database σ).Numbered := by
    unfold Database.Numbered
    rw [hempty.sessions]
    rfl
  refine ⟨numbered_run (kept_fresh hempty) hlinked hnumbered acts, ?_⟩
  have hbegun := congrArg List.length ((kept_fresh hempty).run hlinked acts).2.1.tells.begun
  rw [List.length_map, List.nil_append] at hbegun
  rw [← hbegun]
  exact (List.length_filterMap_le ..).trans (length_deeds_le (fresh files base) acts)

end Archive

end Bailiff
