import EasiFlux.Model.Worker

/-!
# Records, documents and saves

What a save can do to the documents, said once (`save_cases`), and the records it
leaves unchanged up to their status and the time they were last observed
(`RunRecord.core`):

* `Docs.All.save`: so a property of the cores holds of all documents after a save
  if it holds of the ones before and of the one that was to be saved.
-/

namespace EasiFlux

open Results World

/-! ## The core of a record -/

/-- The record without what every save and every control may change. -/
def RunRecord.core (r : RunRecord) : RunRecord :=
  { r with view := { r.view with status := .running, reason := none }, lastObservedAtMs := 0 }

@[simp] theorem core_setStatus (r : RunRecord) (st : StrategyStatus) (re : Option String) :
    (r.setStatus st re).core = r.core := rfl

@[simp] theorem core_core (r : RunRecord) : r.core.core = r.core := rfl

@[simp] theorem core_overlay (r : RunRecord) : r.overlay.core = r.core := rfl

@[simp] theorem core_observe (w : World) (wall : ℕ) (r : RunRecord) : (w.observe wall r).core = r.core := by
  unfold World.observe; split <;> rfl

@[simp] theorem core_control (r : RunRecord) (live stop : Bool) : (r.control live stop).core = r.core := by
  unfold RunRecord.control; split_ifs <;> rfl

@[simp] theorem core_stopAll (r : RunRecord) (live : Bool) : (r.stopAll live).core = r.core := by
  unfold RunRecord.stopAll; split_ifs <;> rfl

@[simp] theorem core_finish (r : RunRecord) (intent : ℕ) : (r.finish intent).core = r.core := by
  unfold RunRecord.finish; split_ifs <;> rfl

@[simp] theorem core_restore (r : RunRecord) : r.restore.core = r.core := by
  unfold RunRecord.restore; split_ifs <;> rfl

/-- Two records of one core share what does not depend on the rest. -/
theorem of_core {β : Type} (f : RunRecord → β) (hf : ∀ r, f r.core = f r) {r r' : RunRecord} (h : r.core = r'.core) :
    f r = f r' := by rw [← hf r, ← hf r', h]

theorem runId_of_core {r r' : RunRecord} (h : r.core = r'.core) : r.view.runId = r'.view.runId :=
  of_core (fun r => r.view.runId) (fun _ => rfl) h

theorem pending_of_core {r r' : RunRecord} (h : r.core = r'.core) : r.pending = r'.pending :=
  of_core RunRecord.pending (fun _ => rfl) h

/-! ## Looking a run up -/

section Find

variable {d : StrategyDocument} {id id' : String} {r r' : RunRecord}

theorem find_runId (h : d.find id = some r) : r.view.runId = id := by
  have := List.find?_some h
  simpa using this

theorem mem_of_find (h : d.find id = some r) : r ∈ d.runs := List.mem_of_find?_eq_some h

theorem find_of_mem (hnd : (d.runs.map (·.view.runId)).Nodup) (h : r ∈ d.runs) : d.find r.view.runId = some r := by
  unfold StrategyDocument.find
  cases hf : d.runs.find? (fun x => decide (x.view.runId = r.view.runId)) with
  | none =>
    have := List.find?_eq_none.1 hf r h
    simp at this
  | some x =>
    have hx : x.view.runId = r.view.runId := by simpa using List.find?_some hf
    exact congrArg some (List.inj_on_of_nodup_map hnd (List.mem_of_find?_eq_some hf) h hx)

theorem find_mapRuns {f : RunRecord → RunRecord} (hf : ∀ r, (f r).view.runId = r.view.runId) :
    (d.mapRuns f).find id = (d.find id).map f := by
  unfold StrategyDocument.find StrategyDocument.mapRuns
  rw [List.find?_map]
  congr 2
  funext x
  simp [hf]

theorem find_put_self (h : d.find id = some r) (hr : r'.view.runId = id) : (d.put id r').find id = some r' := by
  unfold StrategyDocument.find StrategyDocument.put at *
  simp only
  generalize d.runs = rs at h
  induction rs with
  | nil => simp at h
  | cons x xs ih =>
    by_cases hx : x.view.runId = id
    · simp [putRun, hx, hr]
    · simp only [putRun, if_neg hx]
      rw [List.find?_cons_of_neg (by simpa using hx)] at h ⊢
      exact ih h

theorem find_put_ne (hr : r'.view.runId = id) (hne : id' ≠ id) : (d.put id r').find id' = d.find id' := by
  unfold StrategyDocument.find StrategyDocument.put
  simp only
  induction d.runs with
  | nil => rfl
  | cons x xs ih =>
    by_cases hx : x.view.runId = id
    · simp only [putRun, if_pos hx]
      rw [List.find?_cons_of_neg (by simpa [hr] using hne.symm), List.find?_cons_of_neg (by simpa [hx] using hne.symm)]
    · simp only [putRun, if_neg hx, List.find?_cons, ih]

theorem find_push_some (h : d.find id = some r) : (d.push r').find id = some r := by
  unfold StrategyDocument.find StrategyDocument.push at *
  rw [List.find?_append, h, Option.some_or]

theorem find_push_none (h : d.find id = none) :
    (d.push r').find id = if r'.view.runId = id then some r' else none := by
  unfold StrategyDocument.find StrategyDocument.push at *
  rw [List.find?_append, h, Option.none_or]
  by_cases hr : r'.view.runId = id
  · simp [hr]
  · simp [hr]

/-- What the new record shares with the old one, the runs keep. -/
theorem map_put {β : Type} (f : RunRecord → β) (hf : d.find id = some r) (h : f r' = f r) :
    (d.put id r').runs.map f = d.runs.map f := by
  unfold StrategyDocument.find at hf
  unfold StrategyDocument.put
  simp only
  generalize d.runs = rs at hf
  induction rs with
  | nil => rfl
  | cons x xs ih =>
    by_cases hx : x.view.runId = id
    · rw [List.find?_cons_of_pos (by simpa using hx)] at hf
      cases hf
      simp [putRun, hx, h]
    · rw [List.find?_cons_of_neg (by simpa using hx)] at hf
      simp [putRun, hx, ih hf]

theorem runIds_put (hf : d.find id = some r) (hr : r'.view.runId = id) :
    (d.put id r').runs.map (·.view.runId) = d.runs.map (·.view.runId) :=
  map_put _ hf (hr.trans (find_runId hf).symm)

end Find

/-! ## Cores of a document -/

/-- The core of the record of a run. -/
def Version.core (v : Version) (id : String) : Option RunRecord := (v.doc.find id).map RunRecord.core

theorem Version.core_eq_some {v : Version} {id : String} {c : RunRecord} :
    v.core id = some c ↔ ∃ r, v.doc.find id = some r ∧ r.core = c := Option.map_eq_some_iff

theorem Version.core_find {v : Version} {id : String} {r : RunRecord} (h : v.doc.find id = some r) :
    v.core id = some r.core := by rw [Version.core, h]; rfl

/-- Two versions with the same runs, up to cores, and the same history. -/
structure Same (v v' : Version) : Prop where
  core : ∀ id, v.core id = v'.core id
  ids : v.doc.runs.map (·.view.runId) = v'.doc.runs.map (·.view.runId)
  made : v.made = v'.made

theorem Same.refl (v : Version) : Same v v := ⟨fun _ => rfl, rfl, rfl⟩

theorem Same.symm {v v' : Version} (h : Same v v') : Same v' v := ⟨fun id => (h.core id).symm, h.ids.symm, h.made.symm⟩

theorem Same.trans {u v w : Version} (h : Same u v) (h' : Same v w) : Same u w :=
  ⟨fun id => (h.core id).trans (h'.core id), h.ids.trans h'.ids, h.made.trans h'.made⟩

/-- A map of the runs that keeps each core. -/
theorem same_mapRuns (v : Version) {f : RunRecord → RunRecord} (hf : ∀ r, (f r).core = r.core) :
    Same { v with doc := v.doc.mapRuns f } v := by
  have hid : ∀ r, (f r).view.runId = r.view.runId := fun r => runId_of_core (hf r)
  refine ⟨fun id => ?_, ?_, rfl⟩
  · simp only [Version.core, find_mapRuns hid, Option.map_map]
    congr 1
    funext r
    exact hf r
  · simp only [StrategyDocument.mapRuns, List.map_map]
    exact List.map_congr_left fun r _ => hid r

/-- Another record of the same core. -/
theorem same_put {v : Version} {id : String} {r r' : RunRecord} (h : v.doc.find id = some r) (hr : r'.core = r.core) :
    Same { v with doc := v.doc.put id r' } v := by
  have hid : r'.view.runId = id := (runId_of_core hr).trans (find_runId h)
  refine ⟨fun id' => ?_, runIds_put h hid, rfl⟩
  by_cases he : id' = id
  · subst he
    rw [Version.core_find h, Version.core_find (find_put_self h hid), hr]
  · simp only [Version.core, find_put_ne hid he]

theorem core_put_self {v : Version} {id : String} {r r' : RunRecord} (h : v.doc.find id = some r)
    (hr : r'.view.runId = id) : ({ v with doc := v.doc.put id r' } : Version).core id = some r'.core :=
  Version.core_find (find_put_self h hr)

theorem core_put_ne {v : Version} {id id' : String} {r' : RunRecord} (hr : r'.view.runId = id) (hne : id' ≠ id) :
    ({ v with doc := v.doc.put id r' } : Version).core id' = v.core id' := by
  simp only [Version.core, find_put_ne hr hne]

/-! ## Saves -/

namespace World

variable {K : Crates} {w : World} {next : Version} {i : SaveInput}

theorem same_prepare (w : World) (next : Version) (wall : ℕ) : Same (w.prepare next wall) next := by
  have h := same_mapRuns next (core_observe w wall)
  exact ⟨h.core, h.ids, h.made⟩

theorem same_overlay (v : Version) : Same { v with doc := v.doc.mapRuns RunRecord.overlay } v :=
  same_mapRuns v core_overlay

/-- What a failed save leaves; `unacked` and `offered` say how far it came. -/
def failedSave (w : World) (next : Version) (unacked : List Version) (offered : List StrategyDocument) : World :=
  { w.storageFailed next with unacked := unacked, offered := offered }

/-- **What a save can do.** It returns before it reaches the store, or it is
acknowledged, or it fails, and then every run shows the failure. -/
theorem save_cases (K : Crates) (w : World) (next : Version) (i : SaveInput) :
    (2 ^ 64 ≤ w.memory.doc.revision + 1 ∧ w.save K next i = (w, false)) ∨
    (w.unavailable = false ∧ (w.prepare next i.wall.toNat).doc.validate K = true ∧
      w.save K next i = (w.stored (w.prepare next i.wall.toNat), true)) ∨
    ∃ unacked offered,
      (unacked = w.unacked ∨ w.unavailable = false ∧ unacked = w.prepare next i.wall.toNat :: w.unacked) ∧
      (offered = w.offered ∨ w.unavailable = false ∧ offered = (w.prepare next i.wall.toNat).doc :: w.offered) ∧
      w.save K next i = (w.failedSave (w.prepare next i.wall.toNat) unacked offered, false) := by
  unfold World.save
  split
  · simp only
    split
    · exact Or.inr (Or.inr ⟨w.unacked, w.offered, Or.inl rfl, Or.inl rfl, rfl⟩)
    · rename_i hu
      have hav : w.unavailable = false := by simpa using hu
      unfold World.offer
      split
      · rename_i hv
        cases i.stored with
        | ok => exact Or.inr (Or.inl ⟨hav, hv, rfl⟩)
        | kept => exact Or.inr (Or.inr ⟨_, _, Or.inr ⟨hav, rfl⟩, Or.inr ⟨hav, rfl⟩, rfl⟩)
        | lost => exact Or.inr (Or.inr ⟨w.unacked, _, Or.inl rfl, Or.inr ⟨hav, rfl⟩, rfl⟩)
      · exact Or.inr (Or.inr ⟨w.unacked, _, Or.inl rfl, Or.inr ⟨hav, rfl⟩, rfl⟩)
  · rename_i hrev
    exact Or.inl ⟨by omega, rfl⟩

/-- A save that is acknowledged leaves only its document. -/
theorem save_ok (h : (w.save K next i).2 = true) :
    w.unavailable = false ∧ (w.prepare next i.wall.toNat).doc.validate K = true ∧
      (w.save K next i).1 = w.stored (w.prepare next i.wall.toNat) := by
  rcases save_cases K w next i with ⟨-, he⟩ | ⟨hu, hv, he⟩ | ⟨_, _, -, -, he⟩
  · rw [he] at h; cases h
  · exact ⟨hu, hv, by rw [he]⟩
  · rw [he] at h; cases h

/-- What no save changes, and of the live runs only their intents. -/
structure SaveFrame (w w' : World) : Prop where
  mono : w'.mono = w.mono
  epoch : w'.epoch = w.epoch
  minted : w'.minted = w.minted
  spent : w'.spent = w.spent
  recovery : w'.recovery = w.recovery
  live : w'.live = w.live ∨ w'.live = w.live.map (·.revoke false)

theorem save_frame (K : Crates) (w : World) (next : Version) (i : SaveInput) : SaveFrame w (w.save K next i).1 := by
  rcases save_cases K w next i with ⟨-, he⟩ | ⟨-, -, he⟩ | ⟨_, _, -, -, he⟩ <;> rw [he]
  · exact ⟨rfl, rfl, rfl, rfl, rfl, Or.inl rfl⟩
  · exact ⟨rfl, rfl, rfl, rfl, rfl, Or.inl rfl⟩
  · exact ⟨rfl, rfl, rfl, rfl, rfl, Or.inr rfl⟩

/-! ## Properties of every document -/

/-- The documents the system may go on with: the one in memory and those the store
may return. -/
structure Docs where
  memory : Version
  durable : Version
  unacked : List Version

def docs (w : World) : Docs := ⟨w.memory, w.durable, w.unacked⟩

/-- `P` holds of every document. -/
structure Docs.All (d : Docs) (P : Version → Prop) : Prop where
  memory : P d.memory
  durable : P d.durable
  unacked : ∀ v ∈ d.unacked, P v

/-- A property of the cores. -/
def Closed (P : Version → Prop) : Prop := ∀ v v', Same v v' → P v → P v'

theorem Docs.All.mono {d : Docs} {P Q : Version → Prop} (h : d.All P) (hPQ : ∀ v, P v → Q v) : d.All Q :=
  ⟨hPQ _ h.memory, hPQ _ h.durable, fun v hv => hPQ v (h.unacked v hv)⟩

theorem Docs.All.save {P : Version → Prop} (hP : Closed P) (h : w.docs.All P) (hn : P next) :
    (w.save K next i).1.docs.All P := by
  have hp : P (w.prepare next i.wall.toNat) := hP _ _ (same_prepare w next _).symm hn
  rcases save_cases K w next i with ⟨-, he⟩ | ⟨-, -, he⟩ | ⟨u, o, hu, -, he⟩ <;> rw [he]
  · exact h
  · exact ⟨hp, hp, fun v hv => nomatch hv⟩
  · refine ⟨hP _ _ (same_overlay _).symm hp, h.durable, fun v hv => ?_⟩
    rcases hu with rfl | ⟨-, rfl⟩
    · exact h.unacked v hv
    · rcases List.mem_cons.1 hv with rfl | hv
      · exact hp
      · exact h.unacked v hv

/-- After an acknowledged save there is only its document. -/
theorem Docs.All.saved {P : Version → Prop} (hP : Closed P) (hok : (w.save K next i).2 = true) (hn : P next) :
    (w.save K next i).1.docs.All P := by
  have hp : P (w.prepare next i.wall.toNat) := hP _ _ (same_prepare w next _).symm hn
  obtain ⟨-, -, he⟩ := save_ok hok
  rw [he]
  exact ⟨hp, hp, fun v hv => nomatch hv⟩

/-- A restart goes on with a document of the store, or with none. -/
theorem Docs.All.restart {P : Version → Prop} (hP : Closed P) (hd : P ⟨.default, []⟩) (h : w.docs.All P)
    (pick : Option ℕ) : (w.restart K pick).docs.All P := by
  unfold World.restart World.boot World.docs
  refine ⟨?_, h.durable, h.unacked⟩
  simp only
  split
  · rename_i v hv
    obtain ⟨hv, -⟩ := Option.filter_eq_some_iff.1 hv
    obtain ⟨n, -, hn⟩ := Option.bind_eq_some_iff.1 hv
    have hPv : P v := by
      rcases List.mem_cons.1 (List.mem_of_getElem? hn) with rfl | hm
      · exact h.durable
      · exact h.unacked v hm
    exact hP _ _ (same_mapRuns v core_restore).symm hPv
  · exact hd

end World

end EasiFlux
