import EasiFlux.Model.Autosave

/-!
# What the autosave of chart workspaces keeps

A capture comes with a revision above all that was sent (`PartInv.fresh`), so a revision that is
sent names one content; a payload is dropped only when an answer covers it, or for a snapshot
that is newer (`PartInv`). The queue has the keys with work, and the drain turns until all of it
was sent as it is (`Covered`).

* `revisions_name_contents`: what is sent under a revision.
* `edits_kept`: what was captured is pending or saved.
* `queue_exact`: what is queued.
* `flush_covers`: what was sent when a flush returns.
-/

namespace EasiFlux.Chart

/-! ## Parts -/

section Parts

variable {P : Type} {R : Revised P} {r : PendingPart P} {latest : Option P} {sent saved : List P}

/-- What is known of a part, of what was captured last, and of what was sent and saved. -/
structure PartInv (R : Revised P) (r : PendingPart P) (latest : Option P) (sent saved : List P) : Prop where
  /-- A revision that was sent names one content, and none was sent after a later one. -/
  named : sent.Pairwise fun p q => R.revision p < R.revision q ∨ p = q
  below : ∀ p ∈ sent, R.revision p ≤ r.revision
  fresh : r.needsCapture = true → ∀ p ∈ sent, R.revision p < r.revision
  current : r.needsCapture = false → ∀ p ∈ r.payload, R.revision p = r.revision
  behind : r.needsCapture = true → ∀ p ∈ r.payload, R.revision p < r.revision
  newest : ∀ p ∈ r.payload, ∀ q ∈ sent, R.revision q < R.revision p ∨ q = p
  content : ∀ p ∈ r.payload, ∃ v ∈ latest, ∃ n, p = R.withRevision n v
  clean : r.payload = none → ∀ v ∈ latest, ∃ n, R.withRevision n v ∈ saved ∧ sent.getLast? = some (R.withRevision n v)
  unsaved : r.needsCapture = false → ∀ p ∈ r.payload, p ∉ saved
  saved_sent : ∀ p ∈ saved, p ∈ sent

/-- What is known of the part of an attempt that is out. -/
structure OutPart (R : Revised P) (r : PendingPart P) (sent : List P) (a : AttemptPart P) : Prop where
  last : sent.getLast? = some a.payload
  revision : a.revision = R.revision a.payload
  fingerprint : r.payload = some a.payload → r.observedFingerprint = a.fingerprint

namespace PartInv

theorem empty : PartInv R .empty none [] [] where
  named := .nil
  below := nofun
  fresh := nofun
  current := nofun
  behind := nofun
  newest := nofun
  content := nofun
  clean := nofun
  unsaved := nofun
  saved_sent := nofun

theorem payload_le (h : PartInv R r latest sent saved) {p : P} (hp : p ∈ r.payload) : R.revision p ≤ r.revision := by
  cases hn : r.needsCapture with
  | false => exact (h.current hn p hp).le
  | true => exact (h.behind hn p hp).le

theorem markDirty (h : PartInv R r latest sent saved) (registration : ℕ) :
    PartInv R (r.markDirty registration) latest sent saved := by
  have hlt : r.revision < max r.revision r.ackRevision + 1 := by omega
  exact {
    named := h.named
    below := fun p hp => (h.below p hp).trans hlt.le
    fresh := fun _ p hp => (h.below p hp).trans_lt hlt
    current := nofun
    behind := fun _ p hp => (h.payload_le hp).trans_lt hlt
    newest := h.newest
    content := h.content
    clean := h.clean
    unsaved := nofun
    saved_sent := h.saved_sent }

theorem observe (h : PartInv R r latest sent saved) (fingerprint : String) (registration : ℕ) :
    PartInv R (r.observe fingerprint registration) latest sent saved := by
  unfold PendingPart.observe
  split
  · exact h.markDirty registration
  · exact h

/-- What is captured is above everything that was sent. -/
theorem capture (h : PartInv R r latest sent saved) (hn : r.needsCapture = true) (captured : P) (fingerprint : String) :
    PartInv R (r.capture R captured fingerprint) (some captured) sent saved := by
  have hrevision : ∀ p ∈ (r.capture R captured fingerprint).payload, R.revision p = r.revision := by
    intro p hp
    cases hp
    exact R.revision_withRevision _ _
  exact {
    named := h.named
    below := h.below
    fresh := nofun
    current := fun _ p hp => hrevision p hp
    behind := nofun
    newest := fun p hp q hq => by
      rw [hrevision p hp]
      exact .inl (h.fresh hn q hq)
    content := fun p hp => by
      cases hp
      exact ⟨captured, rfl, r.revision, rfl⟩
    clean := nofun
    unsaved := fun _ p hp hs => by
      have hlt := h.fresh hn p (h.saved_sent p hs)
      rw [hrevision p hp] at hlt
      exact lt_irrefl _ hlt
    saved_sent := h.saved_sent }

theorem adopt (h : PartInv R r latest sent saved) (incoming : P) (fingerprint : String) :
    PartInv R (r.adopt R incoming fingerprint) (if r.revision ≤ R.revision incoming then none else latest) sent saved := by
  unfold PendingPart.adopt
  split
  · next hle =>
    exact {
      named := h.named
      below := fun p hp => (h.below p hp).trans hle
      fresh := nofun
      current := nofun
      behind := nofun
      newest := nofun
      content := nofun
      clean := nofun
      unsaved := nofun
      saved_sent := h.saved_sent }
  · split
    · exact { h with }
    · exact h

/-- The payload is sent. -/
theorem send (h : PartInv R r latest sent saved) {p : P} (hp : r.payload = some p) : PartInv R r latest (sent ++ [p]) saved where
  named := by
    refine List.pairwise_append.2 ⟨h.named, List.pairwise_singleton _ _, fun q hq p' hp' => ?_⟩
    rw [List.mem_singleton.1 hp']
    exact h.newest p hp q hq
  below q hq := by
    rcases List.mem_append.1 hq with hq | hq
    · exact h.below q hq
    · rw [List.mem_singleton.1 hq]
      exact h.payload_le hp
  fresh hn q hq := by
    rcases List.mem_append.1 hq with hq | hq
    · exact h.fresh hn q hq
    · rw [List.mem_singleton.1 hq]
      exact h.behind hn p hp
  current := h.current
  behind := h.behind
  newest p' hp' q hq := by
    obtain rfl : p' = p := Option.some.inj (hp'.symm.trans hp)
    rcases List.mem_append.1 hq with hq | hq
    · exact h.newest p' hp q hq
    · exact .inr (List.mem_singleton.1 hq)
  content := h.content
  clean hnone := by
    rw [hp] at hnone
    cases hnone
  unsaved := h.unsaved
  saved_sent q hq := List.mem_append_left _ (h.saved_sent q hq)

end PartInv

namespace OutPart

variable {a : AttemptPart P}

theorem mem (ho : OutPart R r sent a) : a.payload ∈ sent := List.mem_of_getLast? ho.last

/-- What is captured is not what is out. -/
theorem capture (ho : OutPart R r sent a) (h : PartInv R r latest sent saved) (hn : r.needsCapture = true) (captured : P)
    (fingerprint : String) : OutPart R (r.capture R captured fingerprint) sent a where
  last := ho.last
  revision := ho.revision
  fingerprint heq := by
    have hlt := h.fresh hn a.payload ho.mem
    rw [← Option.some.inj heq, R.revision_withRevision] at hlt
    exact absurd hlt (lt_irrefl _)

theorem adopt (ho : OutPart R r sent a) (incoming : P) (fingerprint : String) : OutPart R (r.adopt R incoming fingerprint) sent a := by
  refine ⟨ho.last, ho.revision, fun heq => ?_⟩
  unfold PendingPart.adopt at heq ⊢
  split at heq
  · cases heq
  · next hlt =>
    rw [if_neg hlt]
    split at heq
    · next hle =>
      rw [if_pos hle]
      exact ho.fingerprint heq
    · next hgt =>
      rw [if_neg hgt]
      exact ho.fingerprint heq

/-- The attempt is still current just when its payload is what is pending, and nothing is dirty. -/
theorem stillCurrent (ho : OutPart R r sent a) (h : PartInv R r latest sent saved) :
    r.stillCurrent R a = true ↔ r.payload = some a.payload ∧ r.needsCapture = false := by
  unfold PendingPart.stillCurrent
  simp only [Bool.and_eq_true, Option.any_eq_true, decide_eq_true_eq, Bool.not_eq_true']
  constructor
  · rintro ⟨⟨⟨⟨p, hp, hrevision⟩, hn⟩, -⟩, -⟩
    refine ⟨?_, hn⟩
    rcases h.newest p hp a.payload ho.mem with hlt | heq
    · rw [hrevision, ho.revision] at hlt
      exact absurd hlt (lt_irrefl _)
    · rw [heq]
      exact hp
  · rintro ⟨hp, hn⟩
    exact ⟨⟨⟨⟨a.payload, hp, ho.revision.symm⟩, hn⟩, (h.current hn _ hp).symm.trans ho.revision.symm⟩, ho.fingerprint hp⟩

end OutPart

/-- An answer is applied. It counts as a save if it covers the attempt. -/
theorem PartInv.applyResult (h : PartInv R r latest sent saved) {a : AttemptPart P} (ho : OutPart R r sent a) {wasSaved : Bool}
    {durable : ℕ} {current : Bool} (hcurrent : current = true ↔ r.payload = some a.payload ∧ r.needsCapture = false) :
    PartInv R (r.applyResult R a wasSaved durable current).1 latest sent
      (saved ++ if PendingPart.Saves wasSaved durable a then [a.payload] else []) := by
  have hmem := ho.mem
  unfold PendingPart.applyResult
  split
  · next hsaves =>
    have hsub : ∀ p ∈ saved ++ [a.payload], p ∈ sent := by
      intro p hp
      rcases List.mem_append.1 hp with hp | hp
      · exact h.saved_sent p hp
      · rw [List.mem_singleton.1 hp]
        exact hmem
    split
    · next hc =>
      -- the payload is saved as it is
      obtain ⟨hpayload, hn⟩ := hcurrent.1 hc
      have hle : r.revision ≤ durable := by
        rw [← h.current hn _ hpayload, ← ho.revision]
        exact hsaves.2
      exact {
        named := h.named
        below := fun p hp => (h.below p hp).trans hle
        fresh := fun hn' => absurd (hn'.symm.trans hn) (by simp)
        current := nofun
        behind := nofun
        newest := nofun
        content := nofun
        clean := fun _ v hv => by
          obtain ⟨v', hv', n, hvn⟩ := h.content _ hpayload
          obtain rfl : v = v' := Option.some.inj (hv.symm.trans hv')
          exact ⟨n, List.mem_append_right _ (List.mem_singleton.2 hvn.symm), hvn ▸ ho.last⟩
        unsaved := nofun
        saved_sent := hsub }
    · next hc =>
      exact { h with
        clean := fun hnone v hv => (h.clean hnone v hv).imp fun n hn => ⟨List.mem_append_left _ hn.1, hn.2⟩
        unsaved := fun hn p hp hs => by
          rcases List.mem_append.1 hs with hs | hs
          · exact h.unsaved hn p hp hs
          · rw [List.mem_singleton.1 hs] at hp
            exact hc (hcurrent.2 ⟨hp, hn⟩)
        saved_sent := hsub }
  · rw [List.append_nil]
    split
    · next hconflict =>
      obtain ⟨hpayload, hn⟩ := hcurrent.1 hconflict.1
      have hlt : ∀ p ∈ sent, R.revision p < durable + 1 := by
        intro p hp
        refine Nat.lt_succ_of_le ((h.below p hp).trans ?_)
        rw [← h.current hn _ hpayload, ← ho.revision]
        exact hconflict.2
      have hrevision : ∀ p ∈ r.payload.map (R.withRevision (durable + 1)), R.revision p = durable + 1 := by
        intro p hp
        obtain ⟨q, -, rfl⟩ := Option.map_eq_some_iff.1 hp
        exact R.revision_withRevision _ _
      exact {
        named := h.named
        below := fun p hp => (hlt p hp).le
        fresh := fun _ => hlt
        current := fun _ => hrevision
        behind := fun hn' => absurd (hn'.symm.trans hn) (by simp)
        newest := fun p hp q hq => by
          rw [hrevision p hp]
          exact .inl (hlt q hq)
        content := fun p hp => by
          obtain ⟨q, hq, rfl⟩ := Option.map_eq_some_iff.1 hp
          obtain ⟨v, hv, n, rfl⟩ := h.content q hq
          exact ⟨v, hv, durable + 1, R.withRevision_withRevision _ _ _⟩
        clean := fun hnone => by
          rw [hpayload] at hnone
          cases hnone
        unsaved := fun _ p hp hs => by
          have hlow := hlt p (h.saved_sent p hs)
          rw [hrevision p hp] at hlow
          exact lt_irrefl _ hlow
        saved_sent := h.saved_sent }
    · exact h

end Parts

/-! ## The autosave -/

variable {F V : Type}

/-- The payload of a part of an attempt, if the answer covers it. -/
def savedPart {P : Type} (saved : Bool) (durable : ℕ) : Option (AttemptPart P) → List P
  | some a => if PendingPart.Saves saved durable a then [a.payload] else []
  | none => []

namespace History

variable (h : History F V) (key : ChartWorkspaceKey)

/-- The views of the key that were sent, in this order. -/
def viewsSent : List (ChartViewStateV1 F V) := h.sent.filterMap fun a => if a.key = key then a.view.map (·.payload) else none

/-- The views of the key that an answer covers. -/
def viewsSaved : List (ChartViewStateV1 F V) := h.answered.flatMap fun x =>
  if x.1.key = key then savedPart x.2.viewStateSaved x.2.viewRevision x.1.view else []

def preferencesSent : List ChartPreferencesV1 := h.sent.filterMap fun a => a.preferences.map (·.payload)

def preferencesSaved : List ChartPreferencesV1 := h.answered.flatMap fun x =>
  savedPart x.2.preferencesSaved x.2.preferencesRevision x.1.preferences

end History

/-- What is known of the forced flush of a key: no attempt is of a later generation than the last, and
no answer covers this one as long as it is wanted. -/
structure ViewRecord.Forced (r : ViewRecord F V) (key : ChartWorkspaceKey) (sent : List (SaveAttempt F V))
    (answered : List (SaveAttempt F V × ChartWorkspaceSaveResult)) : Prop where
  sent_le : ∀ a ∈ sent, a.key = key → ∀ g ∈ a.forceGeneration, g ≤ r.forceGeneration
  uncovered : r.forceKlineFlush = true → ∀ x ∈ answered, x.1.key = key → x.2.klineSaved = true →
    x.1.forceGeneration ≠ some r.forceGeneration

theorem ViewRecord.Forced.setPart {r : ViewRecord F V} {key : ChartWorkspaceKey} {sent : List (SaveAttempt F V)}
    {answered : List (SaveAttempt F V × ChartWorkspaceSaveResult)} (h : r.Forced key sent answered)
    (part : PendingPart (ChartViewStateV1 F V)) : ({ r with part } : ViewRecord F V).Forced key sent answered :=
  ⟨h.sent_le, h.uncovered⟩

namespace Autosave

/-- What is known of the views and the preferences. -/
structure Kept (s : Autosave F V) : Prop where
  view : ∀ key, PartInv revisedView (s.viewOf key).part (s.history.latestView key) (s.history.viewsSent key) (s.history.viewsSaved key)
  preferences : PartInv revisedPreferences s.preferences.part s.history.latestPreferences s.history.preferencesSent
    s.history.preferencesSaved
  keyed : ∀ key, s.preferences.keyId = some key → (s.views key).isSome
  addressed : s.preferences.keyId.isSome = s.preferences.part.payload.isSome
  answered_sent : ∀ x ∈ s.history.answered, x.1 ∈ s.history.sent
  forced : ∀ key, (s.viewOf key).Forced key s.history.sent s.history.answered

/-- What is known of the attempt that is out. -/
structure Out (s : Autosave F V) (a : SaveAttempt F V) : Prop where
  sent : a ∈ s.history.sent
  viewed : (s.views a.key).isSome
  view : ∀ p ∈ a.view, OutPart revisedView (s.viewOf a.key).part (s.history.viewsSent a.key) p
  preferences : ∀ p ∈ a.preferences, OutPart revisedPreferences s.preferences.part s.history.preferencesSent p ∧
    (s.preferences.part.payload = some p.payload → s.preferences.keyId = some a.key)

/-- No answer covers what is pending of a key, unless it is dirty again. -/
structure Uncovered (s : Autosave F V) (key : ChartWorkspaceKey) : Prop where
  view : (s.viewOf key).part.needsCapture = false → ∀ p ∈ (s.viewOf key).part.payload, p ∉ s.history.viewsSaved key
  preferences : s.preferences.part.needsCapture = false → ∀ p ∈ s.preferences.part.payload, p ∉ s.history.preferencesSaved
  force : (s.viewOf key).forceKlineFlush = true → ∀ x ∈ s.history.answered, x.1.key = key → x.2.klineSaved = true →
    x.1.forceGeneration ≠ some (s.viewOf key).forceGeneration

theorem Kept.uncovered {s : Autosave F V} (h : s.Kept) (key : ChartWorkspaceKey) : s.Uncovered key :=
  ⟨(h.view key).unsaved, h.preferences.unsaved, (h.forced key).uncovered⟩

/-- The key has something to send. -/
def work (s : Autosave F V) (key : ChartWorkspaceKey) : Bool := s.hasViewWork key || s.hasPreferencesWork key

/-- The queue has the keys with work, once each, and no others but some of `D`. -/
structure Queued (s : Autosave F V) (D : ChartWorkspaceKey → Prop) : Prop where
  nodup : s.queue.Nodup
  ids : ∀ key, key ∈ s.queuedIds ↔ key ∈ s.queue
  queued : ∀ key, s.work key = true → key ∈ s.queue
  exact : ∀ key, key ∈ s.queue → ¬D key → s.work key = true

/-- What holds but for the keys of `D`, which may be queued without work. -/
structure Holds (s : Autosave F V) (D : ChartWorkspaceKey → Prop) : Prop where
  kept : s.Kept
  queued : s.Queued D
  out : ∀ a rest, s.drain = .saving a rest → s.Out a

abbrev Inv (s : Autosave F V) : Prop := s.Holds fun _ => False

variable {s s' : Autosave F V} {key : ChartWorkspaceKey} {D : ChartWorkspaceKey → Prop} {a : SaveAttempt F V}

/-! ### What the small steps change -/

@[simp] theorem viewOf_setView (s : Autosave F V) (key : ChartWorkspaceKey) (record : ViewRecord F V) (key' : ChartWorkspaceKey) :
    (s.setView key record).viewOf key' = if key' = key then record else s.viewOf key' := by
  unfold viewOf setView
  simp only [Function.update_apply]
  split <;> rfl

@[simp] theorem viewOf_ensureView (s : Autosave F V) (key key' : ChartWorkspaceKey) : (s.ensureView key).viewOf key' = s.viewOf key' := by
  unfold ensureView
  split
  · rfl
  · next hnone =>
    rw [viewOf_setView]
    split
    · next heq =>
      have hnone : s.views key = none := by simpa using hnone
      simp [viewOf, heq, hnone]
    · rfl

theorem views_setView {record : ViewRecord F V} {key' : ChartWorkspaceKey} (h : (s.views key').isSome) :
    ((s.setView key record).views key').isSome := by
  unfold setView
  simp only [Function.update_apply]
  split
  · rfl
  · exact h

theorem views_ensureView (s : Autosave F V) (key : ChartWorkspaceKey) : ((s.ensureView key).views key).isSome := by
  unfold ensureView
  split
  · assumption
  · simp [setView]

/-- Only the queue, the drain and the registrations differ. -/
structure Same (s s' : Autosave F V) : Prop where
  views : s'.views = s.views
  preferences : s'.preferences = s.preferences
  history : s'.history = s.history

theorem Same.viewOf (h : Same s s') : s'.viewOf = s.viewOf := by
  funext key
  unfold Autosave.viewOf
  rw [h.views]

theorem same_enqueue (s : Autosave F V) (key : ChartWorkspaceKey) : Same s (s.enqueue key) := by
  unfold enqueue
  split <;> exact ⟨rfl, rfl, rfl⟩

theorem same_removeFromQueueIfClean (s : Autosave F V) (key : ChartWorkspaceKey) : Same s (s.removeFromQueueIfClean key) := by
  unfold removeFromQueueIfClean
  split <;> exact ⟨rfl, rfl, rfl⟩

theorem same_removeOldKey (s : Autosave F V) (old : Option ChartWorkspaceKey) : Same s (s.removeOldKey old) := by
  unfold removeOldKey
  split
  · exact same_removeFromQueueIfClean s _
  · exact ⟨rfl, rfl, rfl⟩

theorem Kept.congr (h : s.Kept) (hs : Same s s') : s'.Kept where
  view key := by
    rw [hs.viewOf, hs.history]
    exact h.view key
  preferences := by
    rw [hs.preferences, hs.history]
    exact h.preferences
  keyed key := by
    rw [hs.preferences, hs.views]
    exact h.keyed key
  addressed := by
    rw [hs.preferences]
    exact h.addressed
  answered_sent := by
    rw [hs.history]
    exact h.answered_sent
  forced key := by
    rw [hs.viewOf, hs.history]
    exact h.forced key

theorem Out.congr (h : s.Out a) (hs : Same s s') : s'.Out a where
  sent := by
    rw [hs.history]
    exact h.sent
  viewed := by
    rw [hs.views]
    exact h.viewed
  view := by
    rw [hs.viewOf, hs.history]
    exact h.view
  preferences := by
    rw [hs.preferences, hs.history]
    exact h.preferences

/-! ### Views and preferences -/

/-- The record of a key is replaced. -/
theorem Kept.setView (h : s.Kept) {record : ViewRecord F V} {latest : Option (ChartViewStateV1 F V)}
    (hr : PartInv revisedView record.part latest (s.history.viewsSent key) (s.history.viewsSaved key))
    (hf : record.Forced key s.history.sent s.history.answered) :
    ({ s with history.latestView := Function.update s.history.latestView key latest }.setView key record).Kept where
  view key' := by
    rw [viewOf_setView]
    show PartInv revisedView (if key' = key then record else s.viewOf key').part (Function.update s.history.latestView key latest key') _ _
    rw [Function.update_apply]
    split
    · next heq => exact heq ▸ hr
    · exact h.view key'
  preferences := h.preferences
  keyed key' hk := views_setView (h.keyed key' hk)
  addressed := h.addressed
  answered_sent := h.answered_sent
  forced key' := by
    rw [viewOf_setView]
    split
    · next heq => exact heq ▸ hf
    · exact h.forced key'

theorem Kept.setPart (h : s.Kept) {record : ViewRecord F V}
    (hr : PartInv revisedView record.part (s.history.latestView key) (s.history.viewsSent key) (s.history.viewsSaved key))
    (hf : record.Forced key s.history.sent s.history.answered) : (s.setView key record).Kept := by
  have hset := h.setView hr hf
  rwa [Function.update_eq_self] at hset

theorem Kept.ensureView (h : s.Kept) (key : ChartWorkspaceKey) : (s.ensureView key).Kept where
  view key' := by
    rw [viewOf_ensureView]
    have hview := h.view key'
    unfold Autosave.ensureView
    split <;> exact hview
  preferences := by
    unfold Autosave.ensureView
    split <;> exact h.preferences
  keyed key' hk := by
    unfold Autosave.ensureView at hk ⊢
    split at hk
    · next hsome =>
      rw [if_pos hsome]
      exact h.keyed key' hk
    · next hnone =>
      rw [if_neg hnone]
      exact views_setView (h.keyed key' hk)
  addressed := by
    unfold Autosave.ensureView
    split <;> exact h.addressed
  answered_sent := by
    unfold Autosave.ensureView
    split <;> exact h.answered_sent
  forced key' := by
    rw [viewOf_ensureView]
    have hforced := h.forced key'
    unfold Autosave.ensureView
    split <;> exact hforced

/-- The preferences are replaced. -/
theorem Kept.setPreferences (h : s.Kept) (latest : Option ChartPreferencesV1) {p : PreferencesRecord}
    (hp : PartInv revisedPreferences p.part latest s.history.preferencesSent s.history.preferencesSaved)
    (hk : ∀ key, p.keyId = some key → (s.views key).isSome) (ha : p.keyId.isSome = p.part.payload.isSome) :
    Kept { s with history.latestPreferences := latest, preferences := p } where
  view := h.view
  preferences := hp
  keyed := hk
  addressed := ha
  answered_sent := h.answered_sent
  forced := h.forced

/-- An attempt stays out while the record of a key is replaced. -/
theorem Out.setView (h : s.Out a) (latest : ChartWorkspaceKey → Option (ChartViewStateV1 F V)) {record : ViewRecord F V}
    (hr : key = a.key → ∀ p ∈ a.view, OutPart revisedView record.part (s.history.viewsSent a.key) p) :
    ({ s with history.latestView := latest }.setView key record).Out a where
  sent := h.sent
  viewed := views_setView h.viewed
  view p hp := by
    rw [viewOf_setView]
    show OutPart revisedView (if a.key = key then record else s.viewOf a.key).part _ _
    split
    · next heq => exact hr heq.symm p hp
    · exact h.view p hp
  preferences := h.preferences

theorem Out.ensureView (h : s.Out a) (key : ChartWorkspaceKey) : (s.ensureView key).Out a where
  sent := by
    unfold Autosave.ensureView
    split <;> exact h.sent
  viewed := by
    unfold Autosave.ensureView
    split
    · exact h.viewed
    · exact views_setView h.viewed
  view p hp := by
    rw [viewOf_ensureView]
    have hview := h.view p hp
    unfold Autosave.ensureView
    split <;> exact hview
  preferences p hp := by
    have hpreferences := h.preferences p hp
    unfold Autosave.ensureView
    split <;> exact hpreferences

/-! ### Capturing -/

theorem viewOf_captureView (s : Autosave F V) (key : ChartWorkspaceKey) (c : CapturedWorkspaceState F V) :
    (s.captureView key c).preferences = s.preferences := by
  unfold captureView
  exact (same_enqueue _ _).preferences

/-- What every step of a capture keeps, a capture keeps. -/
theorem captureActive_inv {I : Autosave F V → Prop} (hensure : ∀ s key, I s → I (s.ensureView key))
    (hobserved : ∀ s registration key c, I s → I (s.observed registration key c))
    (hview : ∀ s registration key c, I s → s.capturesView registration key = true → I (s.captureView key c))
    (hpreferences : ∀ s registration key c, I s → (s.views key).isSome → s.capturesPreferences registration key = true →
      I (s.capturePreferences key c)) (h : I s) (answers : SourceAnswers F V) : I (s.captureActive answers).1 := by
  have hcaptured : ∀ s registration key c, I s → (s.views key).isSome → I (s.captured registration key c) := by
    intro s registration key c hs hkey
    have hstep : I (if s.capturesView registration key then s.captureView key c else s) ∧
        ((if s.capturesView registration key then s.captureView key c else s).views key).isSome ∧
        (if s.capturesView registration key then s.captureView key c else s).preferences = s.preferences := by
      split
      · next hc =>
        refine ⟨hview s registration key c hs hc, ?_, viewOf_captureView s key c⟩
        unfold captureView
        rw [(same_enqueue _ _).views]
        simp [setView]
      · exact ⟨hs, hkey, rfl⟩
    obtain ⟨hinv, hviews, hprefs⟩ := hstep
    unfold captured
    dsimp only
    split
    · next hc =>
      refine hpreferences _ registration key c hinv hviews ?_
      unfold capturesPreferences at hc ⊢
      rw [hprefs]
      exact hc
    · exact hinv
  unfold captureActive
  split
  · exact h
  · next registration key hread =>
    split
    · dsimp only
      have hensured := hensure s key h
      have hkey := views_ensureView s key
      split
      · exact hensured
      · next initial hinitial =>
        have hobs := hobserved _ registration key initial hensured
        have hkey' : (((s.ensureView key).observed registration key initial).views key).isSome := by
          unfold observed
          dsimp only
          split <;> simp [setView]
        split
        · split
          · exact hobs
          · exact hcaptured _ registration key _ hobs hkey'
        · exact hcaptured _ registration key _ hobs hkey'
    · exact h

theorem Kept.observed (h : s.Kept) (registration : ℕ) (key : ChartWorkspaceKey) (c : CapturedWorkspaceState F V) :
    (s.observed registration key c).Kept := by
  have hset : (s.setView key { s.viewOf key with
      part := (s.viewOf key).part.observe c.viewFingerprint registration }).Kept :=
    h.setPart ((h.view key).observe _ _) ((h.forced key).setPart _)
  unfold Autosave.observed
  dsimp only
  split
  · exact hset.setPreferences _ (hset.preferences.markDirty registration) hset.keyed hset.addressed
  · exact hset

theorem Kept.captureView (h : s.Kept) {registration : ℕ} (hc : s.capturesView registration key = true)
    (c : CapturedWorkspaceState F V) : (s.captureView key c).Kept := by
  have hn : (s.viewOf key).part.needsCapture = true := by
    unfold capturesView at hc
    exact (Bool.and_eq_true _ _ ▸ hc).1
  unfold Autosave.captureView
  exact (h.setView ((h.view key).capture hn c.viewState c.viewFingerprint) ((h.forced key).setPart _)).congr (same_enqueue _ _)

theorem needsCapture_of_captures {registration : ℕ} (hc : s.capturesPreferences registration key = true) :
    s.preferences.part.needsCapture = true := by
  unfold capturesPreferences at hc
  simp only [Bool.and_eq_true] at hc
  exact hc.1.1

theorem Kept.capturePreferences (h : s.Kept) {registration : ℕ} (hc : s.capturesPreferences registration key = true)
    (hkey : (s.views key).isSome) (c : CapturedWorkspaceState F V) : (s.capturePreferences key c).Kept := by
  have hset := h.setPreferences (some c.preferences)
    (p := ⟨s.preferences.part.capture revisedPreferences c.preferences c.preferencesFingerprint, none, some key⟩)
    (h.preferences.capture (needsCapture_of_captures hc) c.preferences c.preferencesFingerprint)
    (fun key' hk => Option.some.inj hk ▸ hkey) rfl
  unfold Autosave.capturePreferences
  dsimp only
  split
  · exact hset.congr (same_enqueue _ _)
  · exact (hset.congr (same_enqueue _ _)).congr (same_removeOldKey _ _)

theorem Kept.captureActive (h : s.Kept) (answers : SourceAnswers F V) : (s.captureActive answers).1.Kept :=
  captureActive_inv (fun _ key hs => hs.ensureView key) (fun _ registration key c hs => hs.observed registration key c)
    (fun _ _ _ c hs hc => hs.captureView hc c) (fun _ _ _ c hs hkey hc => hs.capturePreferences hc hkey c) h answers

/-- While an attempt is out, a capture leaves what is known of it. -/
theorem Out.captureActive (hk : s.Kept) (ho : s.Out a) (answers : SourceAnswers F V) : (s.captureActive answers).1.Out a := by
  refine (captureActive_inv (I := fun s => s.Kept ∧ s.Out a) ?_ ?_ ?_ ?_ ⟨hk, ho⟩ answers).2
  · intro s key h
    exact ⟨h.1.ensureView key, h.2.ensureView key⟩
  · intro s registration key c h
    refine ⟨h.1.observed registration key c, ?_⟩
    have hset : (s.setView key { s.viewOf key with
        part := (s.viewOf key).part.observe c.viewFingerprint registration }).Out a := by
      refine h.2.setView s.history.latestView fun heq p hp => ?_
      have hout := h.2.view p hp
      rw [heq]
      unfold PendingPart.observe
      split
      · exact ⟨hout.last, hout.revision, hout.fingerprint⟩
      · exact hout
    unfold Autosave.observed
    dsimp only
    split
    · exact ⟨hset.sent, hset.viewed, hset.view, fun p hp => ⟨⟨(hset.preferences p hp).1.last, (hset.preferences p hp).1.revision,
        (hset.preferences p hp).1.fingerprint⟩, (hset.preferences p hp).2⟩⟩
    · exact hset
  · intro s registration key c h hc
    refine ⟨h.1.captureView hc c, ?_⟩
    have hn : (s.viewOf key).part.needsCapture = true := by
      unfold capturesView at hc
      exact (Bool.and_eq_true _ _ ▸ hc).1
    unfold Autosave.captureView
    refine (h.2.setView _ fun heq p hp => ?_).congr (same_enqueue _ _)
    rw [heq] at hn ⊢
    exact (h.2.view p hp).capture (h.1.view a.key) hn c.viewState c.viewFingerprint
  · intro s registration key c h hkey hc
    refine ⟨h.1.capturePreferences hc hkey c, ?_⟩
    have hset : ({ s with
        history.latestPreferences := some c.preferences
        preferences := ⟨s.preferences.part.capture revisedPreferences c.preferences c.preferencesFingerprint, none, some key⟩ } :
        Autosave F V).Out a := by
      refine ⟨h.2.sent, h.2.viewed, h.2.view, fun p hp => ?_⟩
      have hout := (h.2.preferences p hp).1.capture h.1.preferences (needsCapture_of_captures hc) c.preferences
        c.preferencesFingerprint
      refine ⟨hout, fun heq => ?_⟩
      -- the payload that is out is not the one just captured
      have hlt := h.1.preferences.fresh (needsCapture_of_captures hc) p.payload hout.mem
      rw [← Option.some.inj heq] at hlt
      exact absurd hlt (lt_irrefl _)
    unfold Autosave.capturePreferences
    dsimp only
    split
    · exact hset.congr (same_enqueue _ _)
    · exact (hset.congr (same_enqueue _ _)).congr (same_removeOldKey _ _)

/-! ### The queue -/

theorem Same.work (h : Same s s') (key : ChartWorkspaceKey) : s'.work key = s.work key := by
  unfold Autosave.work hasViewWork hasPreferencesWork
  rw [h.views, h.preferences]

namespace Queued

variable {D' : ChartWorkspaceKey → Prop}

/-- A key comes to have work, and is queued; what loses its work is in `D'`. -/
theorem push (h : s.Queued D) (hq : s'.queue = s.queue) (hi : s'.queuedIds = s.queuedIds) (hkey : s'.work key = true)
    (hless : ∀ k, s'.work k = true → k = key ∨ s.work k = true) (hmore : ∀ k, s.work k = true → ¬D' k → s'.work k = true)
    (hD : ∀ k, D k → D' k) : (s'.enqueue key).Queued D' := by
  have hwork := fun k => (same_enqueue s' key).work k
  have hids : ∀ k, k ∈ s'.queuedIds ↔ k ∈ s'.queue := by
    intro k
    rw [hi, hq]
    exact h.ids k
  unfold enqueue at hwork ⊢
  split
  · next hin =>
    refine ⟨hq ▸ h.nodup, hids, fun k hk => ?_, fun k hk hnot => ?_⟩
    · rcases hless k hk with rfl | hold
      · exact (hids k).1 hin
      · exact hq ▸ h.queued k hold
    · exact hmore k (h.exact k (hq ▸ hk) fun hd => hnot (hD k hd)) hnot
  · next hout =>
    rw [if_neg hout] at hwork
    refine ⟨?_, fun k => ?_, fun k hk => ?_, fun k hk hnot => ?_⟩
    · refine List.nodup_append.2 ⟨hq ▸ h.nodup, List.nodup_singleton _, fun x hx y hy heq => ?_⟩
      rw [heq, List.mem_singleton.1 hy] at hx
      exact hout ((hids key).2 hx)
    · rw [Finset.mem_insert, List.mem_append, List.mem_singleton, hids k, or_comm]
    · rw [hwork] at hk
      rw [List.mem_append, List.mem_singleton]
      rcases hless k hk with rfl | hold
      · exact .inr rfl
      · exact .inl (hq ▸ h.queued k hold)
    · rw [hwork]
      rcases List.mem_append.1 hk with hk | hk
      · exact hmore k (h.exact k (hq ▸ hk) fun hd => hnot (hD k hd)) hnot
      · rw [List.mem_singleton.1 hk]
        exact hkey

/-- Keys lose their work, and stay queued for now. -/
theorem shrink (h : s.Queued D) (hq : s'.queue = s.queue) (hi : s'.queuedIds = s.queuedIds)
    (hless : ∀ k, s'.work k = true → s.work k = true) (hmore : ∀ k, s.work k = true → ¬D' k → s'.work k = true)
    (hD : ∀ k, D k → D' k) : s'.Queued D' where
  nodup := hq ▸ h.nodup
  ids k := by
    rw [hi, hq]
    exact h.ids k
  queued k hk := hq ▸ h.queued k (hless k hk)
  exact k hk hnot := hmore k (h.exact k (hq ▸ hk) fun hd => hnot (hD k hd)) hnot

theorem same (h : s.Queued D) (hs : Same s s') (hq : s'.queue = s.queue) (hi : s'.queuedIds = s.queuedIds) : s'.Queued D :=
  h.shrink hq hi (fun k hk => hs.work k ▸ hk) (fun k hk _ => (hs.work k).symm ▸ hk) fun _ hd => hd

theorem clean (h : s.Queued D) (key : ChartWorkspaceKey) : (s.removeFromQueueIfClean key).Queued fun k => D k ∧ k ≠ key := by
  have hwork := fun k => (same_removeFromQueueIfClean s key).work k
  unfold removeFromQueueIfClean at hwork ⊢
  split
  · next hkeep =>
    refine ⟨h.nodup, h.ids, h.queued, fun k hk hnot => ?_⟩
    by_cases hd : D k
    · have heq : k = key := by
        by_contra hne
        exact hnot ⟨hd, hne⟩
      subst heq
      -- it has work, or it is not queued
      rw [Bool.or_eq_true, decide_eq_true_eq] at hkeep
      rcases hkeep with hwork | hout
      · exact hwork
      · exact absurd ((h.ids k).2 hk) hout
    · exact h.exact k hk hd
  · next hgo =>
    rw [if_neg hgo] at hwork
    have hclean : s.work key = false := by
      rw [Bool.or_eq_true, decide_eq_true_eq, not_or] at hgo
      exact Bool.eq_false_iff.2 hgo.1
    refine ⟨h.nodup.erase _, fun k => ?_, fun k hk => ?_, fun k hk hnot => ?_⟩
    · rw [Finset.mem_erase, h.nodup.mem_erase_iff, h.ids k]
    · rw [hwork] at hk
      refine h.nodup.mem_erase_iff.2 ⟨fun heq => ?_, h.queued k hk⟩
      rw [heq, hclean] at hk
      cases hk
    · rw [hwork]
      obtain ⟨hne, hk⟩ := h.nodup.mem_erase_iff.1 hk
      exact h.exact k hk fun hd => hnot ⟨hd, hne⟩

theorem cleanOld (h : s.Queued D) (old : Option ChartWorkspaceKey) : (s.removeOldKey old).Queued fun k => D k ∧ old ≠ some k := by
  unfold removeOldKey
  split
  · next key =>
    refine (h.clean key).shrink rfl rfl (fun _ hk => hk) (fun _ hk _ => hk) fun k hk => ⟨hk.1, fun heq => hk.2 (Option.some.inj heq).symm⟩
  · exact h.shrink rfl rfl (fun _ hk => hk) (fun _ hk _ => hk) fun k hk => ⟨hk, nofun⟩

theorem mono (h : s.Queued D) (hD : ∀ k, D k → D' k) : s.Queued D' :=
  h.shrink rfl rfl (fun _ hk => hk) (fun _ hk _ => hk) hD

end Queued

/-- The work of a key after its record was replaced. -/
theorem work_setView (s : Autosave F V) (key : ChartWorkspaceKey) (record : ViewRecord F V) (k : ChartWorkspaceKey) :
    (s.setView key record).work k =
      if k = key then record.part.payload.isSome || record.forceKlineFlush || s.hasPreferencesWork key else s.work k := by
  unfold work hasViewWork setView
  simp only [Function.update_apply]
  split
  · next heq =>
    subst heq
    rfl
  · rfl

theorem hasViewWork_eq (s : Autosave F V) (key : ChartWorkspaceKey) :
    s.hasViewWork key = ((s.viewOf key).part.payload.isSome || (s.viewOf key).forceKlineFlush) := by
  unfold hasViewWork viewOf
  cases s.views key <;> rfl

theorem work_ensureView (s : Autosave F V) (key k : ChartWorkspaceKey) : (s.ensureView key).work k = s.work k := by
  have hview : (s.ensureView key).hasViewWork k = s.hasViewWork k := by
    rw [hasViewWork_eq, hasViewWork_eq, viewOf_ensureView]
  unfold work
  rw [hview]
  unfold ensureView
  split <;> rfl

/-- A record whose payload and force are what they were. -/
theorem work_setView_same (s : Autosave F V) (key : ChartWorkspaceKey) {r : ViewRecord F V}
    (hp : r.part.payload.isSome = (s.viewOf key).part.payload.isSome)
    (hf : r.forceKlineFlush = (s.viewOf key).forceKlineFlush) (k : ChartWorkspaceKey) : (s.setView key r).work k = s.work k := by
  rw [work_setView]
  split
  · next heq =>
    rw [heq, hp, hf]
    unfold work
    rw [hasViewWork_eq]
  · rfl

theorem observe_payload {P : Type} (r : PendingPart P) (fingerprint : String) (registration : ℕ) :
    (r.observe fingerprint registration).payload = r.payload := by
  unfold PendingPart.observe
  split <;> rfl

theorem Queued.captureActive (h : s.Queued D) (answers : SourceAnswers F V) : (s.captureActive answers).1.Queued D := by
  refine captureActive_inv (I := fun s => s.Queued D) ?_ ?_ ?_ ?_ h answers
  · intro s key h
    have hq : (s.ensureView key).queue = s.queue ∧ (s.ensureView key).queuedIds = s.queuedIds := by
      unfold ensureView
      split <;> exact ⟨rfl, rfl⟩
    exact h.shrink hq.1 hq.2 (fun k hk => work_ensureView s key k ▸ hk) (fun k hk _ => (work_ensureView s key k).symm ▸ hk)
      fun _ hd => hd
  · intro s registration key c h
    have hwork : ∀ k, (s.observed registration key c).work k = s.work k := by
      intro k
      have hset := work_setView_same s key
        (r := { s.viewOf key with part := (s.viewOf key).part.observe c.viewFingerprint registration })
        (by rw [observe_payload]) rfl k
      rw [← hset]
      unfold observed
      dsimp only
      split <;> rfl
    have hq : (s.observed registration key c).queue = s.queue ∧ (s.observed registration key c).queuedIds = s.queuedIds := by
      unfold observed
      dsimp only
      split <;> exact ⟨rfl, rfl⟩
    exact h.shrink hq.1 hq.2 (fun k hk => hwork k ▸ hk) (fun k hk _ => (hwork k).symm ▸ hk) fun _ hd => hd
  · intro s registration key c h _
    have hwork := fun k => work_setView { s with history.latestView := Function.update s.history.latestView key (some c.viewState) }
      key { s.viewOf key with part := (s.viewOf key).part.capture revisedView c.viewState c.viewFingerprint } k
    unfold captureView
    refine h.push rfl rfl ?_ (fun k hk => ?_) (fun k hk _ => ?_) fun _ hd => hd
    · rw [hwork, if_pos rfl]
      rfl
    · rw [hwork] at hk
      split at hk
      · next heq => exact .inl heq
      · exact .inr hk
    · rw [hwork]
      split
      · rfl
      · exact hk
  · intro s registration key c h _ _
    -- the preferences are with this key now, and not with the old one
    set s₁ : Autosave F V := { s with
      history.latestPreferences := some c.preferences
      preferences := ⟨s.preferences.part.capture revisedPreferences c.preferences c.preferencesFingerprint, none, some key⟩ } with hs₁
    have hwork : ∀ k, s₁.work k = (s.hasViewWork k || decide (key = k)) := by
      intro k
      show (s.hasViewWork k || (true && decide (some key = some k))) = _
      rw [Bool.true_and]
      simp only [Option.some.injEq]
    have hq : (s₁.enqueue key).Queued fun k => D k ∨ s.preferences.keyId = some k := by
      refine h.push rfl rfl ?_ (fun k hk => ?_) (fun k hk hnot => ?_) fun _ hd => .inl hd
      · rw [hwork]
        simp
      · rw [hwork, Bool.or_eq_true, decide_eq_true_eq] at hk
        rcases hk with hview | heq
        · refine .inr ?_
          unfold work
          rw [hview]
          rfl
        · exact .inl heq.symm
      · rw [hwork]
        unfold work at hk
        rcases Bool.or_eq_true _ _ ▸ hk with hview | hpref
        · rw [hview]
          rfl
        · unfold hasPreferencesWork at hpref
          simp only [Bool.and_eq_true, decide_eq_true_eq] at hpref
          exact absurd (.inr hpref.2) hnot
    unfold capturePreferences
    dsimp only
    split
    · next hold =>
      -- the key is queued, and has work
      refine ⟨hq.nodup, hq.ids, hq.queued, fun k hk hnot => ?_⟩
      by_cases heq : k = key
      · rw [heq, (same_enqueue s₁ key).work, hwork]
        simp
      · exact hq.exact k hk fun hd => hd.elim hnot fun hkey => heq (Option.some.inj (hkey.symm.trans hold))
    · refine (hq.cleanOld s.preferences.keyId).mono fun k hk => ?_
      exact hk.1.elim id fun hkey => absurd hkey hk.2

/-! ### Sending -/

theorem createAttempt_some (h : s.createAttempt key = some a) : ∃ record, s.views key = some record ∧
    a = ⟨key, record.part.attempt revisedView,
      if s.preferences.keyId = some key then s.preferences.part.attempt revisedPreferences else none,
      if record.forceKlineFlush then some record.forceGeneration else none⟩ := by
  unfold createAttempt at h
  split at h
  · cases h
  · next record hrecord =>
    obtain ⟨-, ha⟩ := Option.ite_none_left_eq_some.1 h
    exact ⟨record, hrecord, (Option.some.inj ha).symm⟩

theorem viewOf_eq {record : ViewRecord F V} (h : s.views key = some record) : s.viewOf key = record := by
  unfold viewOf
  rw [h]
  rfl

/-- What is sent of a key is what is pending. -/
structure Sends (s : Autosave F V) (a : SaveAttempt F V) : Prop where
  viewed : (s.views a.key).isSome
  view : a.view = (s.viewOf a.key).part.attempt revisedView
  preferences : a.preferences = if s.preferences.keyId = some a.key then s.preferences.part.attempt revisedPreferences else none
  force : (s.viewOf a.key).forceKlineFlush = true → a.forceGeneration = some (s.viewOf a.key).forceGeneration
  generation : ∀ g ∈ a.forceGeneration, g = (s.viewOf a.key).forceGeneration

theorem sends_of_createAttempt (h : s.createAttempt key = some a) : s.Sends a ∧ a.key = key := by
  obtain ⟨record, hrecord, rfl⟩ := createAttempt_some h
  refine ⟨⟨by rw [hrecord]; rfl, ?_, rfl, fun hforce => ?_, fun g hg => ?_⟩, rfl⟩
  · rw [viewOf_eq hrecord]
  · show (if record.forceKlineFlush then some record.forceGeneration else none) = some (s.viewOf key).forceGeneration
    rw [viewOf_eq hrecord] at hforce ⊢
    rw [if_pos hforce]
  · show g = (s.viewOf key).forceGeneration
    rw [viewOf_eq hrecord]
    obtain ⟨-, hg⟩ := Option.ite_none_right_eq_some.1 hg
    exact (Option.some.inj hg).symm

theorem PartInv.attempt_none {P : Type} {R : Revised P} {r : PendingPart P} (h : r.attempt R = none) : r.payload = none := by
  unfold PendingPart.attempt at h
  exact Option.map_eq_none_iff.1 h

theorem PartInv.attempt_some {P : Type} {R : Revised P} {r : PendingPart P} {p : AttemptPart P} (h : r.attempt R = some p) :
    r.payload = some p.payload ∧ p.revision = R.revision p.payload ∧ p.fingerprint = r.observedFingerprint := by
  unfold PendingPart.attempt at h
  obtain ⟨q, hq, rfl⟩ := Option.map_eq_some_iff.1 h
  exact ⟨hq, rfl, rfl⟩

/-- An attempt is sent, and is out. -/
theorem Kept.send (h : s.Kept) (ha : s.Sends a) (drain : Drain F V) :
    ({ s with drain, history.sent := s.history.sent ++ [a] } : Autosave F V).Kept ∧
      ({ s with drain, history.sent := s.history.sent ++ [a] } : Autosave F V).Out a := by
  have hviews : ∀ key, ({ s.history with sent := s.history.sent ++ [a] } : History F V).viewsSent key = s.history.viewsSent key ++
      (if a.key = key then a.view.map (·.payload) else none).toList := by
    intro key
    unfold History.viewsSent
    rw [List.filterMap_append]
    congr 1
  have hpreferences : ({ s.history with sent := s.history.sent ++ [a] } : History F V).preferencesSent = s.history.preferencesSent ++
      (a.preferences.map (·.payload)).toList := by
    unfold History.preferencesSent
    rw [List.filterMap_append]
    congr 1
  have hforced : ∀ key, (s.viewOf key).Forced key (s.history.sent ++ [a]) s.history.answered := by
    refine fun key => ⟨fun b hb hkey g hg => ?_, (h.forced key).uncovered⟩
    rcases List.mem_append.1 hb with hb | hb
    · exact (h.forced key).sent_le b hb hkey g hg
    · obtain rfl := List.mem_singleton.1 hb
      exact (hkey ▸ ha.generation g hg).le
  refine ⟨⟨fun key => ?_, ?_, h.keyed, h.addressed, fun x hx => List.mem_append_left _ (h.answered_sent x hx), hforced⟩,
    List.mem_append_right _ (List.mem_singleton_self a), ha.viewed, fun p hp => ?_, fun p hp => ?_⟩
  · show PartInv revisedView (s.viewOf key).part (s.history.latestView key) (History.viewsSent _ key) (s.history.viewsSaved key)
    rw [hviews key]
    split
    · next heq =>
      subst heq
      rw [ha.view]
      unfold PendingPart.attempt
      cases hpayload : (s.viewOf a.key).part.payload with
      | none =>
        simp only [Option.map_none, Option.toList_none, List.append_nil]
        exact h.view a.key
      | some p => exact (h.view a.key).send hpayload
    · simp only [Option.toList_none, List.append_nil]
      exact h.view key
  · show PartInv revisedPreferences s.preferences.part s.history.latestPreferences (History.preferencesSent _) s.history.preferencesSaved
    rw [hpreferences, ha.preferences]
    split
    · unfold PendingPart.attempt
      cases hpayload : s.preferences.part.payload with
      | none =>
        simp only [Option.map_none, Option.toList_none, List.append_nil]
        exact h.preferences
      | some p => exact h.preferences.send hpayload
    · simp only [Option.map_none, Option.toList_none, List.append_nil]
      exact h.preferences
  · obtain ⟨hpayload, hrevision, hfingerprint⟩ := PartInv.attempt_some (ha.view ▸ hp)
    refine ⟨?_, hrevision, fun _ => hfingerprint.symm⟩
    show (History.viewsSent _ a.key).getLast? = _
    rw [hviews, if_pos rfl, Option.mem_def.1 hp]
    exact List.getLast?_concat ..
  · have hattempt := ha.preferences
    rw [Option.mem_def.1 hp] at hattempt
    split at hattempt
    · next hkey =>
      obtain ⟨hpayload, hrevision, hfingerprint⟩ := PartInv.attempt_some hattempt.symm
      refine ⟨⟨?_, hrevision, fun _ => hfingerprint.symm⟩, fun _ => hkey⟩
      show (History.preferencesSent _).getLast? = _
      rw [hpreferences, Option.mem_def.1 hp]
      exact List.getLast?_concat ..
    · cases hattempt

/-! ### Answers -/

theorem applyResult_part {P : Type} {R : Revised P} {r : PendingPart P} {p : AttemptPart P} {saved : Bool} {durable : ℕ} {current : Bool}
    (h : (r.applyResult R p saved durable current).1.payload.isSome = true) : r.payload.isSome = true := by
  unfold PendingPart.applyResult at h
  split at h
  · split at h
    · cases h
    · exact h
  · split at h
    · simpa using h
    · exact h

section Answers

variable {result : ChartWorkspaceSaveResult}

theorem viewsSaved_append (h : History F V) (key : ChartWorkspaceKey) :
    ({ h with answered := h.answered ++ [(a, result)] } : History F V).viewsSaved key = h.viewsSaved key ++
      if a.key = key then savedPart result.viewStateSaved result.viewRevision a.view else [] := by
  simp [History.viewsSaved]

theorem preferencesSaved_append (h : History F V) :
    ({ h with answered := h.answered ++ [(a, result)] } : History F V).preferencesSaved = h.preferencesSaved ++
      savedPart result.preferencesSaved result.preferencesRevision a.preferences := by
  simp [History.preferencesSaved]

/-- The force does not matter to the part. -/
theorem part_unforced (c : Prop) [Decidable c] (record : ViewRecord F V) :
    (if c then { record with forceKlineFlush := false } else record).part = record.part := by
  split <;> rfl

/-- An answer is applied to the record of its key. -/
theorem applyToView_part (h : s.Kept) (ho : s.Out a) (result : ChartWorkspaceSaveResult) :
    PartInv revisedView (applyToView a result (s.viewOf a.key)).1.part (s.history.latestView a.key) (s.history.viewsSent a.key)
    (s.history.viewsSaved a.key ++ savedPart result.viewStateSaved result.viewRevision a.view) := by
  have hview := h.view a.key
  unfold applyToView
  dsimp only
  cases hattempt : a.view with
  | none =>
    simp only [savedPart, List.append_nil]
    rw [part_unforced]
    exact hview
  | some p =>
    dsimp only
    rw [part_unforced]
    exact hview.applyResult (ho.view p hattempt) ((ho.view p hattempt).stillCurrent hview)

/-- The force is over when an answer covers its last generation. -/
theorem applyToView_force (a : SaveAttempt F V) (result : ChartWorkspaceSaveResult) (record : ViewRecord F V) :
    (applyToView a result record).1.forceGeneration = record.forceGeneration ∧
      ((applyToView a result record).1.forceKlineFlush = true →
        record.forceKlineFlush = true ∧ ¬(a.forceGeneration = some record.forceGeneration ∧ result.klineSaved = true)) := by
  have hforce : ∀ c : Prop, ∀ [Decidable c], (if c then { record with forceKlineFlush := false } else record).forceGeneration =
        record.forceGeneration ∧
      ((if c then { record with forceKlineFlush := false } else record).forceKlineFlush = true →
        record.forceKlineFlush = true ∧ ¬c) := by
    intro c _
    split
    · exact ⟨rfl, nofun⟩
    · next hn => exact ⟨rfl, fun hon => ⟨hon, hn⟩⟩
  obtain ⟨hgeneration, hon⟩ := hforce (a.forceGeneration = some record.forceGeneration ∧ result.klineSaved = true)
  unfold applyToView
  dsimp only
  split
  · exact ⟨hgeneration, hon⟩
  · exact ⟨hgeneration, hon⟩

theorem applyToPreferences_part (h : s.Kept) (ho : s.Out a) :
    PartInv revisedPreferences (applyToPreferences a result s.preferences).1.part s.history.latestPreferences s.history.preferencesSent
      (s.history.preferencesSaved ++ savedPart result.preferencesSaved result.preferencesRevision a.preferences) := by
  unfold applyToPreferences
  cases hattempt : a.preferences with
  | none =>
    simp only [savedPart, List.append_nil]
    exact h.preferences
  | some p =>
    obtain ⟨hout, hkey⟩ := ho.preferences p hattempt
    refine h.preferences.applyResult hout ?_
    -- what is pending as it was sent is with the key it was sent for
    rw [Bool.and_eq_true, decide_eq_true_eq, hout.stillCurrent h.preferences]
    exact ⟨fun hc => hc.1, fun hc => ⟨hc, hkey hc.1⟩⟩

theorem applyToPreferences_key {p : PreferencesRecord} {key : ChartWorkspaceKey} (h : (applyToPreferences a result p).1.keyId = some key) :
    p.keyId = some key := by
  unfold applyToPreferences at h
  split at h
  · exact h
  · dsimp only at h
    split at h
    · cases h
    · exact h

theorem applyToPreferences_payload {p : PreferencesRecord} (h : (applyToPreferences a result p).1.part.payload.isSome = true) :
    p.part.payload.isSome = true := by
  unfold applyToPreferences at h
  split at h
  · exact h
  · exact applyResult_part h

/-- The preferences have a key as long as they are pending. -/
theorem applyToPreferences_keyed {p : PreferencesRecord} (h : p.keyId.isSome = p.part.payload.isSome) :
    (applyToPreferences a result p).1.keyId.isSome = (applyToPreferences a result p).1.part.payload.isSome := by
  unfold applyToPreferences
  split
  · exact h
  · next attempt hattempt =>
    dsimp only
    unfold PendingPart.applyResult
    by_cases hsaves : PendingPart.Saves result.preferencesSaved result.preferencesRevision attempt
    · rw [if_pos hsaves]
      by_cases hcurrent : (p.part.stillCurrent revisedPreferences attempt && decide (p.keyId = some a.key)) = true
      · simp [hcurrent, hsaves]
      · simp [hcurrent, h]
    · rw [if_neg hsaves, if_neg fun hc => hsaves hc.2, h]
      split
      · simp
      · rfl

theorem Kept.applyResult (h : s.Kept) (ho : s.Out a) :
    ({ s with history.answered := s.history.answered ++ [(a, result)] }.applyResult a result).Kept := by
  obtain ⟨record, hrecord⟩ := Option.isSome_iff_exists.1 ho.viewed
  have hview := applyToView_part h ho result
  rw [viewOf_eq hrecord] at hview
  unfold Autosave.applyResult
  dsimp only
  rw [hrecord]
  dsimp only
  refine Kept.congr ?_ (same_removeFromQueueIfClean _ _)
  have hforced : (applyToView a result record).1.Forced a.key s.history.sent (s.history.answered ++ [(a, result)]) := by
    obtain ⟨hgeneration, hon⟩ := applyToView_force a result record
    have hold := h.forced a.key
    rw [viewOf_eq hrecord] at hold
    refine ⟨hgeneration ▸ hold.sent_le, fun hflag x hx hkey hsaved => ?_⟩
    rw [hgeneration]
    rcases List.mem_append.1 hx with hx | hx
    · exact hold.uncovered (hon hflag).1 x hx hkey hsaved
    · rw [List.mem_singleton.1 hx] at hsaved ⊢
      exact fun heq => (hon hflag).2 ⟨heq, hsaved⟩
  refine ⟨fun key => ?_, ?_, fun key hk => ?_, applyToPreferences_keyed h.addressed, fun x hx => ?_, fun key => ?_⟩
  · show PartInv revisedView (Autosave.viewOf (Autosave.setView _ a.key (applyToView a result record).1) key).part
      (s.history.latestView key) (s.history.viewsSent key)
      (History.viewsSaved { s.history with answered := s.history.answered ++ [(a, result)] } key)
    rw [viewOf_setView, viewsSaved_append]
    split
    · next heq =>
      subst heq
      rw [if_pos rfl]
      exact hview
    · next hne =>
      rw [if_neg fun heq => hne heq.symm, List.append_nil]
      exact h.view key
  · show PartInv revisedPreferences (applyToPreferences a result s.preferences).1.part s.history.latestPreferences
      s.history.preferencesSent (History.preferencesSaved { s.history with answered := s.history.answered ++ [(a, result)] })
    rw [preferencesSaved_append]
    exact applyToPreferences_part h ho
  · exact views_setView (s := { s with history.answered := s.history.answered ++ [(a, result)] }) (h.keyed key (applyToPreferences_key hk))
  · rcases List.mem_append.1 hx with hx | hx
    · exact h.answered_sent x hx
    · rw [List.mem_singleton.1 hx]
      exact ho.sent
  · show ViewRecord.Forced (Autosave.viewOf (Autosave.setView _ a.key (applyToView a result record).1) key) key s.history.sent
      (s.history.answered ++ [(a, result)])
    rw [viewOf_setView]
    split
    · next heq => exact heq ▸ hforced
    · next hne =>
      -- the answer is about another key
      refine ⟨(h.forced key).sent_le, fun hflag x hx hkey => ?_⟩
      rcases List.mem_append.1 hx with hx | hx
      · exact (h.forced key).uncovered hflag x hx hkey
      · rw [List.mem_singleton.1 hx] at hkey
        exact absurd hkey.symm hne

/-- Preferences that are with another key are left alone. -/
theorem applyToPreferences_other {p : PreferencesRecord} (h : p.keyId ≠ some a.key) : (applyToPreferences a result p).1 = p := by
  unfold applyToPreferences
  split
  · rfl
  · dsimp only
    simp only [h, decide_false, Bool.and_false, Bool.false_eq_true, false_and, if_false]
    unfold PendingPart.applyResult
    split
    · rfl
    · rw [if_neg (by simp)]

theorem applyToView_work (a : SaveAttempt F V) (result : ChartWorkspaceSaveResult) (record : ViewRecord F V)
    (h : ((applyToView a result record).1.part.payload.isSome || (applyToView a result record).1.forceKlineFlush) = true) :
    (record.part.payload.isSome || record.forceKlineFlush) = true := by
  unfold applyToView at h
  dsimp only at h
  rw [Bool.or_eq_true] at h ⊢
  rcases h with h | h
  · refine .inl ?_
    split at h
    · split at h <;> exact h
    · have hpart := applyResult_part h
      split at hpart <;> exact hpart
  · refine .inr ?_
    split at h
    · split at h
      · cases h
      · exact h
    · dsimp only at h
      split at h
      · cases h
      · exact h

theorem Queued.applyResult (h : s.Queued D) : (s.applyResult a result).Queued D := by
  unfold Autosave.applyResult
  split
  · exact h
  next record hrecord =>
  dsimp only
  set s₁ : Autosave F V := { s.setView a.key (applyToView a result record).1 with
    preferences := (applyToPreferences a result s.preferences).1
    drainRequested := s.drainRequested || (applyToView a result record).2 || (applyToPreferences a result s.preferences).2 } with hs₁
  have hprefs : ∀ k, s₁.hasPreferencesWork k = true → s.hasPreferencesWork k = true := by
    intro k hk
    unfold hasPreferencesWork at hk ⊢
    simp only [Bool.and_eq_true, decide_eq_true_eq] at hk ⊢
    exact ⟨applyToPreferences_payload hk.1, applyToPreferences_key hk.2⟩
  have hless : ∀ k, s₁.work k = true → s.work k = true := by
    intro k hk
    unfold work at hk ⊢
    rw [Bool.or_eq_true] at hk ⊢
    refine hk.imp (fun hview => ?_) (hprefs k)
    by_cases heq : k = a.key
    · subst heq
      have hold := applyToView_work a result record (by
        simpa [hasViewWork, hs₁, setView] using hview)
      simpa [hasViewWork, hrecord] using hold
    · simpa [hasViewWork, hs₁, setView, Function.update_apply, heq] using hview
  have hmore : ∀ k, s.work k = true → ¬(D k ∨ k = a.key) → s₁.work k = true := by
    intro k hk hnot
    have hne : k ≠ a.key := fun heq => hnot (.inr heq)
    unfold work at hk ⊢
    rw [Bool.or_eq_true] at hk ⊢
    refine hk.imp (fun hview => ?_) fun hpref => ?_
    · simpa [hasViewWork, hs₁, setView, Function.update_apply, hne] using hview
    · unfold hasPreferencesWork at hpref ⊢
      simp only [Bool.and_eq_true, decide_eq_true_eq] at hpref
      have hother : s.preferences.keyId ≠ some a.key := fun heq => hne (Option.some.inj (hpref.2.symm.trans heq))
      rw [show s₁.preferences = s.preferences from applyToPreferences_other hother]
      simp [hpref]
  have hshrink : s₁.Queued fun k => D k ∨ k = a.key := h.shrink rfl rfl hless hmore fun _ hd => .inl hd
  refine (hshrink.clean a.key).mono fun k hk => ?_
  exact hk.1.elim id fun heq => absurd heq hk.2

end Answers

/-! ### Draining -/

theorem not_work_of_createAttempt (h : s.createAttempt key = none) (hviews : s.preferences.keyId = some key → (s.views key).isSome) :
    s.work key = false := by
  unfold createAttempt at h
  split at h
  · next hnone =>
    have hkey : s.preferences.keyId ≠ some key := fun heq => by
      have := hviews heq
      rw [hnone] at this
      cases this
    simp [work, hasViewWork, hasPreferencesWork, hnone, hkey]
  · next record hrecord =>
    obtain ⟨hview, hpreferences, hforce⟩ := not_not.1 fun hn => Option.some_ne_none _ (ite_eq_left_iff.1 h hn)
    have hpayload : record.part.payload = none := PartInv.attempt_none (Option.isNone_iff_eq_none.1 hview)
    have hquiet : record.forceKlineFlush = false := by
      by_contra hon
      rw [Bool.not_eq_false] at hon
      rw [hon] at hforce
      cases hforce
    have hpref : s.hasPreferencesWork key = false := by
      unfold hasPreferencesWork
      by_cases hkey : s.preferences.keyId = some key
      · dsimp only at hpreferences
        rw [if_pos hkey] at hpreferences
        rw [PartInv.attempt_none (Option.isNone_iff_eq_none.1 hpreferences)]
        rfl
      · rw [decide_eq_false hkey, Bool.and_false]
    simp [work, hasViewWork, hrecord, hpayload, hquiet, hpref]

/-- The cycle goes on to the next key that has something to send. -/
theorem seek_spec (h : s.Kept) (hq : s.Queued fun _ => False) (cycle : List ChartWorkspaceKey) :
    (s.seek cycle).1.Kept ∧ ((s.seek cycle).1.Queued fun _ => False) ∧
      ((s.seek cycle).2 = true → ∃ a rest, (s.seek cycle).1.drain = .saving a rest ∧ (s.seek cycle).1.Out a) := by
  induction cycle generalizing s with
  | nil => exact ⟨h, hq, nofun⟩
  | cons key rest ih =>
    unfold seek
    split
    · refine ih (h.congr (same_removeFromQueueIfClean s key)) ((hq.clean key).mono fun k hk => hk.1)
    · next a ha =>
      have hsend := h.send (sends_of_createAttempt ha).1 (.saving a rest)
      exact ⟨hsend.1, hq.shrink rfl rfl (fun _ hk => hk) (fun _ hk _ => hk) fun _ hd => hd, fun _ => ⟨a, rest, rfl, hsend.2⟩⟩

theorem Holds.of_settled (h : s.Kept) (hq : s.Queued fun _ => False) (hd : ∀ a rest, s.drain ≠ .saving a rest) : s.Inv :=
  ⟨h, hq, fun a rest heq => absurd heq (hd a rest)⟩

theorem inv_turn (h : s.Kept) (hq : s.Queued fun _ => False) (answers : SourceAnswers F V) : (s.turn answers).Inv := by
  have hkept : ({ s with drainRequested := false } : Autosave F V).Kept := h.congr ⟨rfl, rfl, rfl⟩
  have hqueued : ({ s with drainRequested := false } : Autosave F V).Queued fun _ => False := hq.same ⟨rfl, rfl, rfl⟩ rfl rfl
  have hseek := seek_spec (hkept.captureActive answers) (hqueued.captureActive answers)
    ({ s with drainRequested := false }.captureActive answers).1.queue
  unfold turn
  dsimp only
  split
  · next s' heq =>
    rw [heq] at hseek
    obtain ⟨hk, hq', hout⟩ := hseek
    obtain ⟨a, rest, hdrain, ho⟩ := hout rfl
    refine ⟨hk, hq', fun a' rest' heq' => ?_⟩
    rw [hdrain] at heq'
    cases heq'
    exact ho
  · next s' heq =>
    rw [heq] at hseek
    exact .of_settled (hseek.1.congr ⟨rfl, rfl, rfl⟩) (hseek.2.1.same ⟨rfl, rfl, rfl⟩ rfl rfl) nofun

theorem inv_resume (h : s.Kept) (hq : s.Queued fun _ => False) (rest : List ChartWorkspaceKey) (answers : SourceAnswers F V) :
    (s.resume rest answers).Inv := by
  have hseek := seek_spec h hq rest
  unfold resume
  split
  · next s' heq =>
    rw [heq] at hseek
    obtain ⟨hk, hq', hout⟩ := hseek
    obtain ⟨a, rest, hdrain, ho⟩ := hout rfl
    refine ⟨hk, hq', fun a' rest' heq' => ?_⟩
    rw [hdrain] at heq'
    cases heq'
    exact ho
  · next s' heq =>
    rw [heq] at hseek
    split
    · exact inv_turn hseek.1 hseek.2.1 answers
    · exact .of_settled (hseek.1.congr ⟨rfl, rfl, rfl⟩) (hseek.2.1.same ⟨rfl, rfl, rfl⟩ rfl rfl) nofun

/-! ### Every step -/

/-- The drain stands where it stood. -/
structure Still (s s' : Autosave F V) : Prop where
  drain : s'.drain = s.drain
  requested : s'.drainRequested = s.drainRequested
  sent : s'.history.sent = s.history.sent

theorem still_ensureView (s : Autosave F V) (key : ChartWorkspaceKey) : Still s (s.ensureView key) := by
  unfold ensureView
  split <;> exact ⟨rfl, rfl, rfl⟩

theorem Still.enqueue (h : Still s s') (key : ChartWorkspaceKey) : Still s (s'.enqueue key) := by
  unfold Autosave.enqueue
  split
  · exact h
  · exact ⟨h.drain, h.requested, h.sent⟩

theorem Still.clean (h : Still s s') (key : ChartWorkspaceKey) : Still s (s'.removeFromQueueIfClean key) := by
  unfold removeFromQueueIfClean
  split
  · exact h
  · exact ⟨h.drain, h.requested, h.sent⟩

theorem Still.cleanOld (h : Still s s') (old : Option ChartWorkspaceKey) : Still s (s'.removeOldKey old) := by
  unfold removeOldKey
  split
  · exact h.clean _
  · exact h

theorem still_captureActive (s : Autosave F V) (answers : SourceAnswers F V) : Still s (s.captureActive answers).1 := by
  refine captureActive_inv (I := Still s) ?_ ?_ ?_ ?_ ⟨rfl, rfl, rfl⟩ answers
  · intro s' key h
    have hensure := still_ensureView s' key
    exact ⟨hensure.drain.trans h.drain, hensure.requested.trans h.requested, hensure.sent.trans h.sent⟩
  · intro s' registration key c h
    unfold observed
    dsimp only
    split <;> exact ⟨h.drain, h.requested, h.sent⟩
  · intro s' registration key c h _
    unfold captureView
    refine Still.enqueue ?_ key
    exact ⟨h.drain, h.requested, h.sent⟩
  · intro s' registration key c h _ _
    unfold capturePreferences
    dsimp only
    split
    · refine Still.enqueue ?_ key
      exact ⟨h.drain, h.requested, h.sent⟩
    · refine Still.cleanOld (Still.enqueue ?_ key) _
      exact ⟨h.drain, h.requested, h.sent⟩

theorem still_removeFromQueueIfClean (s : Autosave F V) (key : ChartWorkspaceKey) : Still s (s.removeFromQueueIfClean key) :=
  Still.clean ⟨rfl, rfl, rfl⟩ key

namespace Holds

theorem same (h : s.Inv) (hs : Same s s') (hq : s'.queue = s.queue) (hi : s'.queuedIds = s.queuedIds)
    (hd : ∀ a rest, s'.drain = .saving a rest → s.drain = .saving a rest) : s'.Inv where
  kept := h.kept.congr hs
  queued := h.queued.same hs hq hi
  out a rest heq := (h.out a rest (hd a rest heq)).congr hs

theorem captureActive (h : s.Inv) (answers : SourceAnswers F V) : (s.captureActive answers).1.Inv where
  kept := h.kept.captureActive answers
  queued := h.queued.captureActive answers
  out a rest heq := by
    rw [(still_captureActive s answers).drain] at heq
    exact (h.out a rest heq).captureActive h.kept answers

theorem ensureView (h : s.Inv) (key : ChartWorkspaceKey) : (s.ensureView key).Inv where
  kept := h.kept.ensureView key
  queued := by
    have hq : (s.ensureView key).queue = s.queue ∧ (s.ensureView key).queuedIds = s.queuedIds := by
      unfold Autosave.ensureView
      split <;> exact ⟨rfl, rfl⟩
    exact h.queued.shrink hq.1 hq.2 (fun k hk => work_ensureView s key k ▸ hk) (fun k hk _ => (work_ensureView s key k).symm ▸ hk)
      fun _ hd => hd
  out a rest heq := by
    rw [(still_ensureView s key).drain] at heq
    exact (h.out a rest heq).ensureView key

theorem requestFollowupDrain (h : s.Inv) : s.requestFollowupDrain.Inv := by
  unfold Autosave.requestFollowupDrain
  split
  · exact h
  · exact h.same ⟨rfl, rfl, rfl⟩ rfl rfl fun _ _ heq => heq

theorem markView (h : s.Inv) (registration : ℕ) (key : ChartWorkspaceKey) :
    (s.setView key { s.viewOf key with part := (s.viewOf key).part.markDirty registration }).Inv where
  kept := h.kept.setPart ((h.kept.view key).markDirty registration) ((h.kept.forced key).setPart _)
  queued := h.queued.shrink rfl rfl (fun k hk => work_setView_same s key
    (r := { s.viewOf key with part := (s.viewOf key).part.markDirty registration }) rfl rfl k ▸ hk)
    (fun k hk _ => (work_setView_same s key
      (r := { s.viewOf key with part := (s.viewOf key).part.markDirty registration }) rfl rfl k).symm ▸ hk) fun _ hd => hd
  out a rest heq := by
    refine (h.out a rest heq).setView s.history.latestView fun hkey p hp => ?_
    have hout := (h.out a rest heq).view p hp
    rw [hkey]
    exact ⟨hout.last, hout.revision, hout.fingerprint⟩

theorem markPreferences (h : s.Inv) (registration : ℕ) (key : ChartWorkspaceKey) :
    ({ s with preferences := { s.preferences with
      part := s.preferences.part.markDirty registration, captureKeyId := some key } } : Autosave F V).Inv where
  kept := h.kept.setPreferences _ (h.kept.preferences.markDirty registration) h.kept.keyed h.kept.addressed
  queued := h.queued.shrink rfl rfl (fun _ hk => hk) (fun _ hk _ => hk) fun _ hd => hd
  out a rest heq := by
    have hout := h.out a rest heq
    exact ⟨hout.sent, hout.viewed, hout.view, fun p hp => ⟨⟨(hout.preferences p hp).1.last, (hout.preferences p hp).1.revision,
      (hout.preferences p hp).1.fingerprint⟩, (hout.preferences p hp).2⟩⟩

theorem adopt_payload {P : Type} {R : Revised P} {r : PendingPart P} {incoming : P} {fingerprint : String}
    (h : (r.adopt R incoming fingerprint).payload.isSome = true) : r.payload.isSome = true := by
  unfold PendingPart.adopt at h
  split at h
  · cases h
  · split at h <;> exact h

theorem adopt_some {P : Type} {R : Revised P} {r : PendingPart P} {incoming : P} (fingerprint : String)
    (h : ¬r.revision ≤ R.revision incoming) : (r.adopt R incoming fingerprint).payload = r.payload := by
  unfold PendingPart.adopt
  rw [if_neg h]
  split <;> rfl

theorem clean (h : s.Holds D) (key : ChartWorkspaceKey) : (s.removeFromQueueIfClean key).Holds fun k => D k ∧ k ≠ key where
  kept := h.kept.congr (same_removeFromQueueIfClean _ _)
  queued := h.queued.clean key
  out a rest heq := by
    rw [(still_removeFromQueueIfClean s key).drain] at heq
    exact (h.out a rest heq).congr (same_removeFromQueueIfClean _ _)

theorem cleanOld (h : s.Holds D) (old : Option ChartWorkspaceKey) : (s.removeOldKey old).Holds fun k => D k ∧ old ≠ some k where
  kept := h.kept.congr (same_removeOldKey _ _)
  queued := h.queued.cleanOld old
  out a rest heq := by
    rw [(Still.cleanOld ⟨rfl, rfl, rfl⟩ old : Still s (s.removeOldKey old)).drain] at heq
    exact (h.out a rest heq).congr (same_removeOldKey _ _)

theorem mono {D' : ChartWorkspaceKey → Prop} (h : s.Holds D) (hD : ∀ k, D k → D' k) : s.Holds D' :=
  { h with queued := h.queued.mono hD }

/-- The view of a snapshot is adopted. -/
theorem adoptView (h : s.Inv) (prints : Fingerprints F V) (key : ChartWorkspaceKey) (view : ChartViewStateV1 F V) :
    (s.adoptView prints key view).Holds fun k => k = key := by
  have he := h.ensureView key
  unfold Autosave.adoptView
  dsimp only
  set t := s.ensureView key
  have hwork := fun k => work_setView
    { t with
      history.latestView := Function.update t.history.latestView key
        (if (t.viewOf key).part.revision ≤ view.revision then none else t.history.latestView key) }
    key { t.viewOf key with part := (t.viewOf key).part.adopt revisedView view (prints.view view) } k
  refine ⟨he.kept.setView ((he.kept.view key).adopt view (prints.view view)) ((he.kept.forced key).setPart _), ?_,
    fun a rest heq => ?_⟩
  · refine he.queued.shrink rfl rfl (fun k hk => ?_) (fun k hk hne => ?_) fun _ hd => hd.elim
    · rw [hwork] at hk
      split at hk
      · next heq =>
        subst heq
        unfold work
        rw [hasViewWork_eq]
        simp only [Bool.or_eq_true] at hk ⊢
        exact hk.imp_left fun hk => hk.imp_left adopt_payload
      · exact hk
    · rw [hwork, if_neg hne]
      exact hk
  · refine (he.out a rest heq).setView _ fun hkey p hp => ?_
    show OutPart revisedView ((t.viewOf key).part.adopt revisedView view (prints.view view)) _ p
    rw [show t.viewOf key = t.viewOf a.key from congrArg t.viewOf hkey]
    exact ((he.out a rest heq).view p hp).adopt view (prints.view view)

/-- The preferences of a snapshot are adopted. -/
theorem adoptPreferences (h : s.Holds D) (prints : Fingerprints F V) (preferences : ChartPreferencesV1) :
    (s.adoptPreferences prints preferences).Holds D := by
  have hpart := h.kept.preferences.adopt preferences (prints.preferences preferences)
  have hout : ∀ a rest, s.drain = .saving a rest → ∀ p ∈ a.preferences, OutPart revisedPreferences
      (s.preferences.part.adopt revisedPreferences preferences (prints.preferences preferences)) s.history.preferencesSent p :=
    fun a rest heq p hp => ((h.out a rest heq).preferences p hp).1.adopt preferences (prints.preferences preferences)
  unfold Autosave.adoptPreferences
  dsimp only
  split
  · next hle =>
    change s.preferences.part.revision ≤ revisedPreferences.revision preferences at hle
    rw [if_pos hle] at hpart
    have hnone : (s.preferences.part.adopt revisedPreferences preferences (prints.preferences preferences)).payload = none := by
      unfold PendingPart.adopt
      rw [if_pos hle]
    set part := s.preferences.part.adopt revisedPreferences preferences (prints.preferences preferences)
    have hwork : ∀ k, ({ s with history.latestPreferences := none, preferences := ⟨part, none, none⟩ } : Autosave F V).work k =
        s.hasViewWork k := by
      intro k
      unfold work hasPreferencesWork
      rw [hnone]
      exact Bool.or_false _
    -- the key that had them may be queued without work
    have hset : ({ s with history.latestPreferences := none, preferences := ⟨part, none, none⟩ } : Autosave F V).Holds
        fun k => D k ∨ s.preferences.keyId = some k := by
      refine ⟨h.kept.setPreferences _ hpart nofun (by rw [hnone]; rfl), ?_, fun a rest heq => ?_⟩
      · refine h.queued.shrink rfl rfl (fun k hk => ?_) (fun k hk hne => ?_) fun _ hd => .inl hd
        · rw [hwork] at hk
          unfold work
          rw [hk]
          rfl
        · rw [hwork]
          unfold work at hk
          rw [Bool.or_eq_true] at hk
          refine hk.elim id fun hk => ?_
          unfold hasPreferencesWork at hk
          rw [Bool.and_eq_true, decide_eq_true_eq] at hk
          exact absurd (.inr hk.2) hne
      · have ho := h.out a rest heq
        refine ⟨ho.sent, ho.viewed, ho.view, fun q hq => ⟨hout a rest heq q hq, fun hsome => ?_⟩⟩
        rw [hnone] at hsome
        cases hsome
    exact (hset.cleanOld s.preferences.keyId).mono fun k hk => hk.1.elim id fun hkey => absurd hkey hk.2
  · next hlt =>
    change ¬s.preferences.part.revision ≤ revisedPreferences.revision preferences at hlt
    rw [if_neg hlt] at hpart
    have hsome := adopt_some (prints.preferences preferences) hlt
    have hwork : ∀ k, ({ s with preferences := { s.preferences with
        part := s.preferences.part.adopt revisedPreferences preferences (prints.preferences preferences) } } :
          Autosave F V).work k = s.work k := by
      intro k
      unfold work hasPreferencesWork
      rw [hsome]
      rfl
    refine ⟨h.kept.setPreferences s.history.latestPreferences hpart h.kept.keyed (by rw [hsome]; exact h.kept.addressed),
      h.queued.shrink rfl rfl (fun k hk => hwork k ▸ hk) (fun k hk _ => (hwork k).symm ▸ hk) fun _ hd => hd, fun a rest heq => ?_⟩
    have ho := h.out a rest heq
    refine ⟨ho.sent, ho.viewed, ho.view, fun q hq => ⟨hout a rest heq q hq, fun hpayload => (ho.preferences q hq).2 ?_⟩⟩
    rw [← hsome]
    exact hpayload

theorem force (h : s.Inv) (key : ChartWorkspaceKey) : (s.force key).Inv := by
  have he := h.ensureView key
  set t := s.ensureView key
  set record : ViewRecord F V :=
    { t.viewOf key with forceKlineFlush := true, forceGeneration := (t.viewOf key).forceGeneration + 1 } with hrecord
  have hwork := fun k => work_setView t key record k
  have hforced : record.Forced key t.history.sent t.history.answered := by
    have hold := he.kept.forced key
    refine ⟨fun a ha hkey g hg => Nat.le_succ_of_le (hold.sent_le a ha hkey g hg), fun _ x hx hkey _ heq => ?_⟩
    -- the generation is a new one
    have hle := hold.sent_le x.1 (he.kept.answered_sent x hx) hkey _ heq
    exact absurd hle (Nat.not_succ_le_self _)
  have hset : (t.setView key record).Kept := he.kept.setPart (he.kept.view key) hforced
  refine ⟨hset.congr (same_enqueue _ _), ?_, fun a rest heq => ?_⟩
  · refine he.queued.push rfl rfl ?_ (fun k hk => ?_) (fun k hk _ => ?_) fun _ hd => hd
    · rw [hwork, if_pos rfl, hrecord, Bool.or_true, Bool.true_or]
    · rw [hwork] at hk
      split at hk
      · next heq => exact .inl heq
      · exact .inr hk
    · rw [hwork]
      split
      · rw [hrecord, Bool.or_true, Bool.true_or]
      · exact hk
  · rw [show (s.force key).drain = t.drain from (Still.enqueue ⟨rfl, rfl, rfl⟩ key : Still (t.setView key record) _).drain] at heq
    refine ((he.out a rest heq).setView t.history.latestView fun hkey p hp => ?_).congr (same_enqueue _ _)
    show OutPart revisedView (t.viewOf key).part _ p
    rw [show t.viewOf key = t.viewOf a.key from congrArg t.viewOf hkey]
    exact (he.out a rest heq).view p hp

theorem flushCapture (h : s.Inv) (reason : FlushReason) (answers : SourceAnswers F V) : (s.flushCapture reason answers).Inv := by
  have hcapture := h.captureActive answers
  unfold Autosave.flushCapture
  dsimp only
  split
  · split
    · exact hcapture.same ⟨rfl, rfl, rfl⟩ rfl rfl fun _ _ heq => heq
    · exact (hcapture.force _).same ⟨rfl, rfl, rfl⟩ rfl rfl fun _ _ heq => heq
  · exact hcapture.same ⟨rfl, rfl, rfl⟩ rfl rfl fun _ _ heq => heq

/-- **Every step keeps the invariant.** -/
theorem step (h : s.Inv) (prints : Fingerprints F V) (a : AutosaveAction F V) : (s.step prints a).Inv := by
  cases a with
  | registerCaptureSource => exact h.same ⟨rfl, rfl, rfl⟩ rfl rfl fun _ _ heq => heq
  | setActive registration active =>
    simp only [Autosave.step]
    split
    · exact h
    · split
      · exact h.same ⟨rfl, rfl, rfl⟩ rfl rfl fun _ _ heq => heq
      · split
        · exact h.same ⟨rfl, rfl, rfl⟩ rfl rfl fun _ _ heq => heq
        · exact h
  | setCaptureEnabled registration enabled =>
    simp only [Autosave.step]
    split
    · exact h
    · exact h.same ⟨rfl, rfl, rfl⟩ rfl rfl fun _ _ heq => heq
  | markViewDirty registration key =>
    simp only [Autosave.step]
    split
    · exact ((h.ensureView _).markView registration _).requestFollowupDrain
    · exact h
  | markPreferencesDirty registration key =>
    simp only [Autosave.step]
    split
    · exact (h.markPreferences registration _).requestFollowupDrain
    · exact h
  | unregister registration =>
    simp only [Autosave.step]
    split
    · exact h
    · exact h.same ⟨rfl, rfl, rfl⟩ rfl rfl fun _ _ heq => heq
  | adoptSnapshot key view preferences =>
    exact (((h.adoptView prints key view).adoptPreferences prints preferences).clean key).mono fun _ hk => hk.2 hk.1
  | flush reason answers drainAnswers =>
    have hstart := h.flushCapture reason answers
    simp only [Autosave.step, flush]
    split
    · exact inv_turn hstart.kept hstart.queued drainAnswers
    · exact hstart
  | answer result answers =>
    simp only [Autosave.step]
    split
    · next a rest hdrain =>
      have ho := h.out a rest hdrain
      split
      · next result =>
        have hq : ({ s with history.answered := s.history.answered ++ [(a, result)] } : Autosave F V).Queued fun _ => False :=
          h.queued.shrink rfl rfl (fun _ hk => hk) (fun _ hk _ => hk) fun _ hd => hd
        exact inv_resume (h.kept.applyResult ho) hq.applyResult rest answers
      · exact inv_resume h.kept h.queued rest answers
    · exact h
  | clear =>
    simp only [Autosave.step]
    split
    · exact h.same ⟨rfl, rfl, rfl⟩ rfl rfl nofun
    · exact h

theorem init : (Autosave.empty : Autosave F V).Inv where
  kept := ⟨fun _ => .empty, .empty, nofun, rfl, fun _ hx => absurd hx List.not_mem_nil,
    fun _ => ⟨fun _ ha => absurd ha List.not_mem_nil, fun _ _ hx => absurd hx List.not_mem_nil⟩⟩
  queued := ⟨List.nodup_nil, fun _ => by simp [Autosave.empty], nofun, nofun⟩
  out _ _ := nofun

theorem run (prints : Fingerprints F V) (as : List (AutosaveAction F V)) : (Autosave.run prints as).Inv :=
  Steps.run_inv (fun _ a h => h.step prints a) as _ init

end Holds

/-! ### Turns -/

/-- What is pending of the key was sent as it is, after the first `n` attempts. -/
structure Attempted (s : Autosave F V) (n : ℕ) (key : ChartWorkspaceKey) : Prop where
  view : ∀ p ∈ (s.viewOf key).part.payload, ∃ a ∈ s.history.sent.drop n, a.key = key ∧ ∃ q ∈ a.view, q.payload = p
  preferences : s.preferences.keyId = some key → ∀ p ∈ s.preferences.part.payload,
    ∃ a ∈ s.history.sent.drop n, a.key = key ∧ ∃ q ∈ a.preferences, q.payload = p
  force : (s.viewOf key).forceKlineFlush = true →
    ∃ a ∈ s.history.sent.drop n, a.key = key ∧ a.forceGeneration = some (s.viewOf key).forceGeneration

/-- What is queued comes in `todo`, or in another turn, or was attempted. -/
structure Covered (s : Autosave F V) (n : ℕ) (todo : List ChartWorkspaceKey) : Prop where
  le_length : n ≤ s.history.sent.length
  queue : ∀ key ∈ s.queue, key ∈ todo ∨ s.drainRequested = true ∨ s.Attempted n key

/-- The drain has not settled before all that is queued was attempted. -/
def Ongoing (s : Autosave F V) (n : ℕ) : Prop :=
  match s.drain with
  | .saving _ rest => s.Covered n rest
  | .settled => ∀ key ∈ s.queue, s.Attempted n key
  | .none => False

/-- What is pending of the key in `s'` was pending in `s`. -/
structure Less (s s' : Autosave F V) (key : ChartWorkspaceKey) : Prop where
  view : ∀ p ∈ (s'.viewOf key).part.payload, p ∈ (s.viewOf key).part.payload
  preferences : s'.preferences.keyId = some key → ∀ p ∈ s'.preferences.part.payload,
    s.preferences.keyId = some key ∧ p ∈ s.preferences.part.payload
  force : (s'.viewOf key).forceKlineFlush = true →
    (s.viewOf key).forceKlineFlush = true ∧ (s'.viewOf key).forceGeneration = (s.viewOf key).forceGeneration

theorem Attempted.less {n : ℕ} (h : s.Attempted n key) (hl : Less s s' key) (hsent : s'.history.sent = s.history.sent) :
    s'.Attempted n key where
  view p hp := by
    rw [hsent]
    exact h.view p (hl.view p hp)
  preferences hkey p hp := by
    rw [hsent]
    obtain ⟨hold, hp⟩ := hl.preferences hkey p hp
    exact h.preferences hold p hp
  force hon := by
    obtain ⟨hold, hgeneration⟩ := hl.force hon
    rw [hsent, hgeneration]
    exact h.force hold

theorem Same.less (hs : Same s s') (key : ChartWorkspaceKey) : Less s s' key where
  view p hp := by rwa [hs.viewOf] at hp
  preferences hkey p hp := by
    rw [hs.preferences] at hkey hp
    exact ⟨hkey, hp⟩
  force hon := by
    rw [hs.viewOf] at hon ⊢
    exact ⟨hon, rfl⟩

theorem Attempted.congr {n : ℕ} (h : s.Attempted n key) (hs : Same s s') : s'.Attempted n key :=
  h.less (hs.less key) (by rw [hs.history])

/-- A key without work has nothing to attempt. -/
theorem attempted_of_not_work {n : ℕ} (h : s.work key = false) : s.Attempted n key := by
  unfold work at h
  rw [hasViewWork_eq, Bool.or_eq_false_iff, Bool.or_eq_false_iff] at h
  obtain ⟨⟨hpayload, hforce⟩, hpref⟩ := h
  refine ⟨fun p hp => ?_, fun hkey p hp => ?_, fun hon => ?_⟩
  · rw [Option.mem_def.1 hp] at hpayload
    cases hpayload
  · unfold hasPreferencesWork at hpref
    rw [Option.mem_def.1 hp, hkey] at hpref
    simp at hpref
  · rw [hon] at hforce
    cases hforce

/-- What an attempt carries was attempted. -/
theorem attempted_of_sends {n : ℕ} (h : s.Sends a) (hn : n ≤ s.history.sent.length) {drain : Drain F V} :
    ({ s with drain, history.sent := s.history.sent ++ [a] } : Autosave F V).Attempted n a.key := by
  have hmem : a ∈ (s.history.sent ++ [a]).drop n := by
    rw [List.drop_append_of_le_length hn]
    exact List.mem_append_right _ (List.mem_singleton_self a)
  refine ⟨fun p hp => ⟨a, hmem, rfl, ?_⟩, fun hkey p hp => ⟨a, hmem, rfl, ?_⟩, fun hon => ⟨a, hmem, rfl, h.force hon⟩⟩
  · change (s.viewOf a.key).part.payload = some p at hp
    rw [h.view]
    unfold PendingPart.attempt
    rw [hp]
    exact ⟨_, rfl, rfl⟩
  · change s.preferences.keyId = some a.key at hkey
    change s.preferences.part.payload = some p at hp
    rw [h.preferences, if_pos hkey]
    unfold PendingPart.attempt
    rw [hp]
    exact ⟨_, rfl, rfl⟩

theorem Attempted.sent {n : ℕ} (h : s.Attempted n key) (hn : n ≤ s.history.sent.length) {drain : Drain F V} :
    ({ s with drain, history.sent := s.history.sent ++ [a] } : Autosave F V).Attempted n key := by
  have hsub : ∀ b ∈ s.history.sent.drop n, b ∈ (s.history.sent ++ [a]).drop n := by
    intro b hb
    rw [List.drop_append_of_le_length hn]
    exact List.mem_append_left _ hb
  exact ⟨fun p hp => (h.view p hp).imp fun b hb => ⟨hsub b hb.1, hb.2⟩,
    fun hkey p hp => (h.preferences hkey p hp).imp fun b hb => ⟨hsub b hb.1, hb.2⟩,
    fun hon => (h.force hon).imp fun b hb => ⟨hsub b hb.1, hb.2⟩⟩

theorem mem_queue_of_clean {k : ChartWorkspaceKey} (h : k ∈ (s.removeFromQueueIfClean key).queue) : k ∈ s.queue := by
  unfold removeFromQueueIfClean at h
  split at h
  · exact h
  · exact List.mem_of_mem_erase h

theorem Covered.clean {n : ℕ} {todo : List ChartWorkspaceKey} (h : s.Covered n todo) (key : ChartWorkspaceKey) :
    (s.removeFromQueueIfClean key).Covered n todo where
  le_length := by
    rw [(same_removeFromQueueIfClean s key).history]
    exact h.le_length
  queue k hk := by
    rw [(still_removeFromQueueIfClean s key).requested]
    exact (h.queue k (mem_queue_of_clean hk)).imp_right fun hor => hor.imp_right fun ha => ha.congr (same_removeFromQueueIfClean s key)

theorem seek_requested (s : Autosave F V) (cycle : List ChartWorkspaceKey) : (s.seek cycle).1.drainRequested = s.drainRequested := by
  induction cycle generalizing s with
  | nil => rfl
  | cons key rest ih =>
    unfold seek
    split
    · rw [ih, (still_removeFromQueueIfClean s key).requested]
    · rfl

/-- The cycle attempts what is left of it, or ends. -/
theorem covered_seek {n : ℕ} (hk : s.Kept) {cycle : List ChartWorkspaceKey} (h : s.Covered n cycle) :
    ((s.seek cycle).2 = true → (s.seek cycle).1.Ongoing n) ∧
      ((s.seek cycle).2 = false → (s.seek cycle).1.Covered n [] ∧ (s.seek cycle).1.Kept) := by
  induction cycle generalizing s with
  | nil => exact ⟨nofun, fun _ => ⟨h, hk⟩⟩
  | cons key rest ih =>
    unfold seek
    split
    · next hnone =>
      have hwork := not_work_of_createAttempt hnone (hk.keyed key)
      refine ih (hk.congr (same_removeFromQueueIfClean s key)) (Covered.clean ⟨h.le_length, fun k hkq => ?_⟩ key)
      rcases h.queue k hkq with hmem | hrest
      · rcases List.mem_cons.1 hmem with rfl | hmem
        · exact .inr (.inr (attempted_of_not_work hwork))
        · exact .inl hmem
      · exact .inr hrest
    · next a ha =>
      obtain ⟨hsends, hkey⟩ := sends_of_createAttempt ha
      refine ⟨fun _ => ⟨?_, fun k hkq => ?_⟩, nofun⟩
      · rw [List.length_append]
        exact h.le_length.trans (Nat.le_add_right ..)
      · rcases h.queue k hkq with hmem | hreq | hatt
        · rcases List.mem_cons.1 hmem with rfl | hmem
          · exact .inr (.inr (hkey ▸ attempted_of_sends hsends h.le_length))
          · exact .inl hmem
        · exact .inr (.inl hreq)
        · exact .inr (.inr (hatt.sent h.le_length))

/-- A turn takes up the whole queue. -/
theorem ongoing_turn {n : ℕ} (hk : s.Kept) (hn : n ≤ s.history.sent.length) (answers : SourceAnswers F V) :
    (s.turn answers).Ongoing n := by
  have hkept : ({ s with drainRequested := false } : Autosave F V).Kept := hk.congr ⟨rfl, rfl, rfl⟩
  have hstill := still_captureActive { s with drainRequested := false } answers
  have hcovered : ({ s with drainRequested := false }.captureActive answers).1.Covered n
      ({ s with drainRequested := false }.captureActive answers).1.queue := by
    refine ⟨?_, fun key hkey => .inl hkey⟩
    rw [hstill.sent]
    exact hn
  have hseek := covered_seek (hkept.captureActive answers) hcovered
  unfold turn
  dsimp only
  split
  · next s' heq =>
    rw [heq] at hseek
    exact hseek.1 rfl
  · next s' heq =>
    have hrequested := seek_requested ({ s with drainRequested := false }.captureActive answers).1
      ({ s with drainRequested := false }.captureActive answers).1.queue
    rw [heq] at hseek hrequested
    -- the cycle has ended, and no other turn is wanted
    intro key hkey
    rcases (hseek.2 rfl).1.queue key hkey with hmem | hreq | hatt
    · cases hmem
    · rw [hrequested, hstill.requested] at hreq
      cases hreq
    · exact hatt.congr ⟨rfl, rfl, rfl⟩

theorem ongoing_resume {n : ℕ} (hk : s.Kept) {rest : List ChartWorkspaceKey} (h : s.Covered n rest) (answers : SourceAnswers F V) :
    (s.resume rest answers).Ongoing n := by
  have hseek := covered_seek hk h
  unfold resume
  split
  · next s' heq =>
    rw [heq] at hseek
    exact hseek.1 rfl
  · next s' heq =>
    rw [heq] at hseek
    obtain ⟨hcovered, hkept⟩ := hseek.2 rfl
    split
    · exact ongoing_turn hkept hcovered.le_length answers
    · next hreq =>
      intro key hkey
      rcases hcovered.queue key hkey with hmem | hreq' | hatt
      · cases hmem
      · exact absurd hreq' hreq
      · exact hatt.congr ⟨rfl, rfl, rfl⟩

/-- Unless another turn is wanted, an answer leaves a payload as it is, or takes it away. -/
theorem applyResult_quiet {P : Type} {R : Revised P} {r : PendingPart P} {p : AttemptPart P} {saved : Bool} {durable : ℕ} {current : Bool}
    (h : (r.applyResult R p saved durable current).2 = false) {q : P} (hq : q ∈ (r.applyResult R p saved durable current).1.payload) :
    q ∈ r.payload := by
  unfold PendingPart.applyResult at h hq
  split at h
  · next hsaves =>
    rw [if_pos hsaves] at hq
    split at hq
    · cases hq
    · exact hq
  · next hsaves =>
    rw [if_neg hsaves] at hq
    split at h
    · cases h
    · next hconflict =>
      rw [if_neg hconflict] at hq
      exact hq

section Answers

variable {result : ChartWorkspaceSaveResult}

theorem applyToView_quiet {record : ViewRecord F V} (h : (applyToView a result record).2 = false) :
    (∀ p ∈ (applyToView a result record).1.part.payload, p ∈ record.part.payload) ∧
      (applyToView a result record).1.forceGeneration = record.forceGeneration ∧
      ((applyToView a result record).1.forceKlineFlush = true → record.forceKlineFlush = true) := by
  obtain ⟨hgeneration, hon⟩ := applyToView_force a result record
  refine ⟨?_, hgeneration, fun hflag => (hon hflag).1⟩
  unfold applyToView at h ⊢
  dsimp only at h ⊢
  split
  · rw [part_unforced]
    exact fun p hp => hp
  · next p hattempt =>
    simp only [hattempt] at h
    rw [part_unforced] at h ⊢
    exact fun q hq => applyResult_quiet h hq

theorem applyToPreferences_quiet {p : PreferencesRecord} (h : (applyToPreferences a result p).2 = false) {q : ChartPreferencesV1}
    (hq : q ∈ (applyToPreferences a result p).1.part.payload) : q ∈ p.part.payload := by
  unfold applyToPreferences at h hq
  split at h
  · next hattempt =>
    simp only [hattempt] at hq
    exact hq
  · next hattempt =>
    simp only [hattempt] at hq
    exact applyResult_quiet h hq

/-- What was attempted stays so, unless it gets another revision and another turn. -/
theorem Covered.applyResult {n : ℕ} {todo : List ChartWorkspaceKey} (h : s.Covered n todo) : (s.applyResult a result).Covered n todo := by
  unfold Autosave.applyResult
  split
  · exact h
  next record hrecord =>
  dsimp only
  refine Covered.clean ?_ a.key
  refine ⟨h.le_length, fun k hk => ?_⟩
  rcases h.queue k hk with htodo | hreq | hatt
  · exact .inl htodo
  · refine .inr (.inl ?_)
    show (s.drainRequested || _ || _) = true
    rw [hreq]
    rfl
  cases hview : (applyToView a result record).2 with
  | true => exact .inr (.inl (by simp))
  | false =>
    cases hprefs : (applyToPreferences a result s.preferences).2 with
    | true => exact .inr (.inl (by simp))
    | false =>
      obtain ⟨hpayload, hgeneration, hforce⟩ := applyToView_quiet hview
      refine .inr (.inr (hatt.less ⟨fun p hp => ?_, fun hkey p hp => ?_, fun hon => ?_⟩ rfl))
      · change p ∈ (Autosave.viewOf (s.setView a.key (applyToView a result record).1) k).part.payload at hp
        rw [viewOf_setView] at hp
        split at hp
        · next heq =>
          rw [heq, viewOf_eq hrecord]
          exact hpayload p hp
        · exact hp
      · exact ⟨applyToPreferences_key hkey, applyToPreferences_quiet hprefs hp⟩
      · change (Autosave.viewOf (s.setView a.key (applyToView a result record).1) k).forceKlineFlush = true at hon
        show _ ∧ (Autosave.viewOf (s.setView a.key (applyToView a result record).1) k).forceGeneration = _
        rw [viewOf_setView] at hon ⊢
        split at hon
        · next heq =>
          rw [if_pos heq, heq, viewOf_eq hrecord]
          exact ⟨hforce hon, hgeneration⟩
        · next hne =>
          rw [if_neg hne]
          exact ⟨hon, rfl⟩

end Answers

theorem adopt_mem {P : Type} {R : Revised P} {r : PendingPart P} {incoming p : P} {fingerprint : String}
    (h : p ∈ (r.adopt R incoming fingerprint).payload) : ¬r.revision ≤ R.revision incoming ∧ p ∈ r.payload := by
  unfold PendingPart.adopt at h
  split at h
  · cases h
  · next hlt =>
    refine ⟨hlt, ?_⟩
    split at h <;> exact h

/-- A snapshot leaves a payload as it is, or takes it away. -/
theorem Covered.adoptSnapshot {n : ℕ} {todo : List ChartWorkspaceKey} (h : s.Covered n todo) (prints : Fingerprints F V)
    (key : ChartWorkspaceKey) (view : ChartViewStateV1 F V) (preferences : ChartPreferencesV1) :
    (s.step prints (.adoptSnapshot key view preferences)).Covered n todo := by
  have hensure := still_ensureView s key
  have hqueue : (s.ensureView key).queue = s.queue ∧ (s.ensureView key).preferences = s.preferences := by
    unfold ensureView
    split <;> exact ⟨rfl, rfl⟩
  have hview : (s.adoptView prints key view).Covered n todo := by
    refine ⟨?_, fun k hk => ?_⟩
    · show n ≤ (s.ensureView key).history.sent.length
      rw [hensure.sent]
      exact h.le_length
    · change k ∈ (s.ensureView key).queue at hk
      rw [hqueue.1] at hk
      refine (h.queue k hk).imp_right fun hor => hor.imp (fun hreq => hensure.requested.trans hreq) fun ha => ?_
      refine ha.less ⟨fun p hp => ?_, fun hkey p hp => ?_, fun hon => ?_⟩ hensure.sent
      · unfold adoptView at hp
        dsimp only at hp
        rw [viewOf_setView] at hp
        split at hp
        · next heq =>
          obtain ⟨-, hp⟩ := adopt_mem hp
          rwa [viewOf_ensureView, ← heq] at hp
        · exact (viewOf_ensureView s key k) ▸ hp
      · change (s.ensureView key).preferences.keyId = some k at hkey
        change p ∈ (s.ensureView key).preferences.part.payload at hp
        rw [hqueue.2] at hkey hp
        exact ⟨hkey, hp⟩
      · unfold adoptView at hon ⊢
        dsimp only at hon ⊢
        rw [viewOf_setView] at hon ⊢
        split at hon
        · next heq =>
          rw [if_pos heq]
          simp only [viewOf_ensureView] at hon ⊢
          rw [heq]
          exact ⟨hon, rfl⟩
        · next hne =>
          rw [if_neg hne]
          change ((s.ensureView key).viewOf k).forceKlineFlush = true at hon
          show _ ∧ ((s.ensureView key).viewOf k).forceGeneration = _
          rw [viewOf_ensureView] at hon ⊢
          exact ⟨hon, rfl⟩
  refine Covered.clean ?_ key
  set u := s.adoptView prints key view
  unfold Autosave.adoptPreferences
  dsimp only
  split
  · next hle =>
    have hset : ({ u with
        history.latestPreferences := none
        preferences := ⟨u.preferences.part.adopt revisedPreferences preferences (prints.preferences preferences), none, none⟩ } :
        Autosave F V).Covered n todo := by
      refine ⟨hview.le_length, fun k hk => (hview.queue k hk).imp_right fun hor => hor.imp_right fun ha => ?_⟩
      exact ha.less ⟨fun _ hp => hp, nofun, fun hon => ⟨hon, rfl⟩⟩ rfl
    cases hold : u.preferences.keyId with
    | none => exact hset
    | some old => exact hset.clean old
  · refine ⟨hview.le_length, fun k hk => (hview.queue k hk).imp_right fun hor => hor.imp_right fun ha => ?_⟩
    exact ha.less ⟨fun _ hp => hp, fun hkey p hp => ⟨hkey, (adopt_mem hp).2⟩, fun hon => ⟨hon, rfl⟩⟩ rfl

/-- `drainPromise` is resolved, and not yet cleared. -/
def settled (s : Autosave F V) : Bool :=
  match s.drain with
  | .settled => true
  | _ => false

/-- The drain goes on, with its cycle as it was. -/
theorem Ongoing.still {n : ℕ} (ho : s.Ongoing n) (hsettled : s.settled = false) (hdrain : s'.drain = s.drain)
    (hcovered : ∀ todo, s.Covered n todo → s'.Covered n todo) : s'.Ongoing n := by
  unfold Ongoing at ho ⊢
  unfold settled at hsettled
  rw [hdrain]
  split at ho
  · exact hcovered _ ho
  · next hdrain =>
    rw [hdrain] at hsettled
    cases hsettled
  · exact ho

theorem Covered.requested {n : ℕ} {todo : List ChartWorkspaceKey} (h : s.Covered n todo) (hsent : s'.history.sent = s.history.sent)
    (hreq : s'.drainRequested = true) : s'.Covered n todo where
  le_length := by
    rw [hsent]
    exact h.le_length
  queue _ _ := .inr (.inl hreq)

theorem Covered.same {n : ℕ} {todo : List ChartWorkspaceKey} (h : s.Covered n todo) (hs : Same s s') (hq : s'.queue = s.queue)
    (hreq : s.drainRequested = true → s'.drainRequested = true) : s'.Covered n todo where
  le_length := by
    rw [hs.history]
    exact h.le_length
  queue key hkey := (h.queue key (hq ▸ hkey)).imp_right fun hor => hor.imp hreq fun ha => ha.congr hs

theorem saving_of_ongoing {n : ℕ} (ho : s.Ongoing n) (hsettled : s.settled = false) : ∃ a rest, s.drain = .saving a rest := by
  unfold Ongoing at ho
  unfold settled at hsettled
  split at ho
  · next a rest hdrain => exact ⟨a, rest, hdrain⟩
  · next hdrain =>
    rw [hdrain] at hsettled
    cases hsettled
  · exact ho.elim

/-- The start of a flush leaves the drain as it is, with another turn to come. -/
theorem flushCapture_frame (s : Autosave F V) (reason : FlushReason) (answers : SourceAnswers F V) :
    (s.flushCapture reason answers).drain = s.drain ∧ (s.flushCapture reason answers).drainRequested = true ∧
      (s.flushCapture reason answers).history.sent = s.history.sent := by
  have hstill := still_captureActive s answers
  unfold flushCapture
  dsimp only
  split
  · next key _ =>
    split
    · exact ⟨hstill.drain, rfl, hstill.sent⟩
    · have hensure := still_ensureView (s.captureActive answers).1 key
      refine ⟨?_, rfl, ?_⟩
      · rw [← hstill.drain, ← hensure.drain]
        exact (Still.enqueue (s := Autosave.setView _ key _) ⟨rfl, rfl, rfl⟩ key).drain
      · rw [← hstill.sent, ← hensure.sent]
        exact (Still.enqueue (s := Autosave.setView _ key _) ⟨rfl, rfl, rfl⟩ key).sent
  · exact ⟨hstill.drain, rfl, hstill.sent⟩

theorem ongoing_flush (h : s.Inv) {reason : FlushReason} {answers drainAnswers : SourceAnswers F V} {n : ℕ}
    (hn : n ≤ s.history.sent.length) (hsettled : s.settled = false) : (s.flush reason answers drainAnswers).Ongoing n := by
  obtain ⟨hdrain, hreq, hsent⟩ := flushCapture_frame s reason answers
  have hn' : n ≤ (s.flushCapture reason answers).history.sent.length := by rwa [hsent]
  unfold settled at hsettled
  unfold flush
  dsimp only
  split
  · exact ongoing_turn (h.flushCapture reason answers).kept hn' drainAnswers
  · next hnone =>
    unfold Ongoing
    rw [hdrain] at hnone ⊢
    cases hs : s.drain with
    | none => exact absurd hs hnone
    | saving a rest => exact ⟨hn', fun _ _ => .inr (.inl hreq)⟩
    | settled =>
      rw [hs] at hsettled
      cases hsettled

/-- Until it settles, the drain goes on. -/
theorem ongoing_step {n : ℕ} (h : s.Inv) (ho : s.Ongoing n) (hsettled : s.settled = false) (prints : Fingerprints F V)
    (a : AutosaveAction F V) : (s.step prints a).Ongoing n := by
  obtain ⟨attempt, rest, hdrain⟩ := saving_of_ongoing ho hsettled
  have hcovered : s.Covered n rest := by
    unfold Ongoing at ho
    rwa [hdrain] at ho
  have hmark : ∀ t : Autosave F V, Still s t → t.requestFollowupDrain.Ongoing n := by
    intro t ht
    have hrequest : t.requestFollowupDrain = { t with drainRequested := true } := by
      unfold requestFollowupDrain
      rw [ht.drain, hdrain]
    rw [hrequest]
    exact ho.still hsettled ht.drain fun _ hc => hc.requested ht.sent rfl
  cases a with
  | registerCaptureSource => exact ho.still hsettled rfl fun _ hc => hc.same ⟨rfl, rfl, rfl⟩ rfl id
  | setActive registration active =>
    simp only [step]
    split
    · exact ho
    · split
      · exact ho.still hsettled rfl fun _ hc => hc.same ⟨rfl, rfl, rfl⟩ rfl id
      · split
        · exact ho.still hsettled rfl fun _ hc => hc.same ⟨rfl, rfl, rfl⟩ rfl id
        · exact ho
  | setCaptureEnabled registration enabled =>
    simp only [step]
    split
    · exact ho
    · exact ho.still hsettled rfl fun _ hc => hc.same ⟨rfl, rfl, rfl⟩ rfl id
  | markViewDirty registration key =>
    simp only [step]
    split
    · next key _ _ =>
      have hensure := still_ensureView s key
      exact hmark _ ⟨hensure.drain, hensure.requested, hensure.sent⟩
    · exact ho
  | markPreferencesDirty registration key =>
    simp only [step]
    split
    · exact hmark _ ⟨rfl, rfl, rfl⟩
    · exact ho
  | unregister registration =>
    simp only [step]
    split
    · exact ho
    · exact ho.still hsettled rfl fun _ hc => hc.same ⟨rfl, rfl, rfl⟩ rfl id
  | adoptSnapshot key view preferences =>
    refine ho.still hsettled ?_ fun _ hc => hc.adoptSnapshot prints key view preferences
    have hstill : Still s (s.step prints (.adoptSnapshot key view preferences)) := by
      have hensure := still_ensureView s key
      refine Still.clean ?_ key
      unfold adoptPreferences
      dsimp only
      split
      · refine Still.cleanOld ?_ _
        exact ⟨hensure.drain, hensure.requested, hensure.sent⟩
      · exact ⟨hensure.drain, hensure.requested, hensure.sent⟩
    exact hstill.drain
  | flush reason answers drainAnswers => exact ongoing_flush h hcovered.le_length hsettled
  | answer result answers =>
    simp only [step]
    split
    · next a left hsaving =>
      obtain ⟨rfl, rfl⟩ : attempt = a ∧ rest = left := by simpa using hdrain.symm.trans hsaving
      have hout := h.out attempt rest hdrain
      split
      · next result =>
        have hanswered : ({ s with history.answered := s.history.answered ++ [(attempt, result)] } : Autosave F V).Covered n rest := by
          refine ⟨hcovered.le_length, fun key hkey => (hcovered.queue key hkey).imp_right fun hor => hor.imp_right fun ha => ?_⟩
          exact ha.less ⟨fun _ hp => hp, fun hk _ hp => ⟨hk, hp⟩, fun hon => ⟨hon, rfl⟩⟩ rfl
        exact ongoing_resume (h.kept.applyResult hout) hanswered.applyResult answers
      · exact ongoing_resume h.kept hcovered answers
    · exact ho
  | clear =>
    simp only [step, hdrain]
    exact ho

/-! ## Every run -/

section Runs

variable (prints : Fingerprints F V) (as : List (AutosaveAction F V))

/-- **No edit is lost**: what was captured last is pending, at some revision, or it is what was
sent last and an answer covers it. -/
theorem edits_kept :
    (∀ key, ∀ v ∈ (run prints as).history.latestView key,
      match ((run prints as).viewOf key).part.payload with
      | some p => ∃ n, p = { v with revision := n }
      | none => ∃ n, { v with revision := n } ∈ (run prints as).history.viewsSaved key ∧
          ((run prints as).history.viewsSent key).getLast? = some { v with revision := n }) ∧
    ∀ v ∈ (run prints as).history.latestPreferences,
      match (run prints as).preferences.part.payload with
      | some p => ∃ n, p = { v with revision := n }
      | none => ∃ n, { v with revision := n } ∈ (run prints as).history.preferencesSaved ∧
          (run prints as).history.preferencesSent.getLast? = some { v with revision := n } := by
  have h := (Holds.run prints as).kept
  refine ⟨fun key v hv => ?_, fun v hv => ?_⟩
  · split
    · next p hp =>
      obtain ⟨v', hv', n, rfl⟩ := (h.view key).content p hp
      obtain rfl : v = v' := Option.some.inj (hv.symm.trans hv')
      exact ⟨n, rfl⟩
    · next hnone => exact (h.view key).clean hnone v hv
  · split
    · next p hp =>
      obtain ⟨v', hv', n, rfl⟩ := h.preferences.content p hp
      obtain rfl : v = v' := Option.some.inj (hv.symm.trans hv')
      exact ⟨n, rfl⟩
    · next hnone => exact h.preferences.clean hnone v hv

/-- **The queue has the keys with work**, once each. -/
theorem queue_exact : (run prints as).queue.Nodup ∧ ∀ key, key ∈ (run prints as).queue ↔
    ((run prints as).viewOf key).part.payload.isSome ∨ ((run prints as).viewOf key).forceKlineFlush ∨
      ((run prints as).preferences.part.payload.isSome ∧ (run prints as).preferences.keyId = some key) := by
  have h := (Holds.run prints as).queued
  refine ⟨h.nodup, fun key => ?_⟩
  have hwork : key ∈ (run prints as).queue ↔ (run prints as).work key = true := ⟨fun hk => h.exact key hk id, h.queued key⟩
  rw [hwork]
  unfold work hasPreferencesWork
  rw [hasViewWork_eq, Bool.or_eq_true, Bool.or_eq_true, Bool.and_eq_true, decide_eq_true_eq, or_assoc]

variable (reason : FlushReason) (answers drainAnswers : SourceAnswers F V) (bs : List (AutosaveAction F V))

/-- **When a flush returns, whatever is left was sent since**: what is still pending of a key was
sent as it is after the flush began, and no answer covers it unless it is dirty again. The flush
must not come while the promise of the last drain is resolved and not yet cleared. -/
theorem flush_covers (hbefore : (run prints as).settled = false)
    (hopen : Steps.Along (step · prints ·) (fun s _ => s.settled = false) ((run prints as).flush reason answers drainAnswers) bs)
    (hend : (run prints (as ++ .flush reason answers drainAnswers :: bs)).settled = true) (key : ChartWorkspaceKey) :
    (run prints (as ++ .flush reason answers drainAnswers :: bs)).Attempted (run prints as).history.sent.length key ∧
      (run prints (as ++ .flush reason answers drainAnswers :: bs)).Uncovered key := by
  have hinv := Holds.run prints (as ++ .flush reason answers drainAnswers :: bs)
  refine ⟨?_, hinv.kept.uncovered key⟩
  have hstart : run prints (as ++ .flush reason answers drainAnswers :: bs) =
      Steps.run (step · prints ·) ((run prints as).flush reason answers drainAnswers) bs := by
    unfold run
    rw [Steps.run_append, Steps.run_cons]
    rfl
  have hflushed : ((run prints as).flush reason answers drainAnswers).Inv :=
    (Holds.run prints as).step prints (.flush reason answers drainAnswers)
  have hongoing := Steps.run_inv_along
    (I := fun s => s.Inv ∧ s.Ongoing (run prints as).history.sent.length)
    (fun s a hs hsettled => ⟨hs.1.step prints a, ongoing_step hs.1 hs.2 hsettled prints a⟩) bs _
    ⟨hflushed, ongoing_flush (Holds.run prints as) le_rfl hbefore⟩ hopen
  rw [← hstart] at hongoing
  -- everything that is queued was attempted, and what is not queued has no work
  by_cases hqueued : key ∈ (run prints (as ++ .flush reason answers drainAnswers :: bs)).queue
  · have hall := hongoing.2
    unfold Ongoing at hall
    unfold settled at hend
    split at hall
    · next hdrain =>
      rw [hdrain] at hend
      cases hend
    · exact hall key hqueued
    · exact hall.elim
  · refine attempted_of_not_work (Bool.eq_false_iff.2 fun hwork => hqueued (hinv.queued.queued key hwork))

end Runs

/-! ### A flush that saves nothing -/

def samplePrints : Fingerprints Unit Unit := ⟨fun _ => "view", fun _ => "preferences"⟩

def sampleCapture (revision : ℕ) : CapturedWorkspaceState Unit Unit where
  viewState := ⟨1, "BTCUSDT", "15", revision, 0, [], ⟨none, none⟩⟩
  preferences := ⟨1, revision, 0, ["MA"], []⟩
  viewFingerprint := "view"
  preferencesFingerprint := "preferences"

/-- The source reads the revisions it is to capture. -/
def sampleAnswers : SourceAnswers Unit Unit := ⟨some ⟨"BTCUSDT", "15"⟩, some (sampleCapture 0), some (sampleCapture 1)⟩

/-- The chart is active, and the save of the flush throws: the attempt is still pending. -/
theorem flush_covers_sample :
    let s := run samplePrints [.registerCaptureSource, .setActive 0 true, .flush .context sampleAnswers sampleAnswers,
      .answer none sampleAnswers]
    (∃ a ∈ s.history.sent, a.key = ⟨"BTCUSDT", "15"⟩ ∧ ∃ q ∈ a.view, q.payload = (sampleCapture 1).viewState) ∧
      (s.viewOf ⟨"BTCUSDT", "15"⟩).part.payload = some (sampleCapture 1).viewState := by
  have hpending : ((run samplePrints [.registerCaptureSource, .setActive 0 true, .flush .context sampleAnswers sampleAnswers,
      .answer none sampleAnswers]).viewOf ⟨"BTCUSDT", "15"⟩).part.payload = some (sampleCapture 1).viewState := by
    decide
  have hcovers := flush_covers samplePrints [.registerCaptureSource, .setActive 0 true] .context sampleAnswers sampleAnswers
    [.answer none sampleAnswers] (by decide) (by decide) (by decide) ⟨"BTCUSDT", "15"⟩
  exact ⟨hcovers.1.view _ hpending, hpending⟩

end Autosave

end EasiFlux.Chart
