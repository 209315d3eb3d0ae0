import EasiFlux.Model.ChartState

/-!
# The autosave of chart workspaces

`services/chartWorkspaceAutosave.ts`, the client of `services/chart_workspace.rs`: views of
keys and the preferences are captured from the chart that is active, queued under their key,
and sent one after the other by a drain, which waits for each answer. Both parts are kept in
one way (`PendingPart`).

A block of the code between two awaits is one step (`Autosave.step`), with anything in between.
What a source answers and what a save answers is given with the step: the key a source says is
active, normalized (none, if that has thrown), what it captures, and the result of a save (none,
if it has thrown). Reports of failures change nothing else and are left out, and so is the timer,
which only calls `flush`. Maps and sets are by the normalized key.

`History` is not in the code: it lists what was sent and answered, and has what was captured last.
-/

namespace EasiFlux.Chart

/-! ## A part -/

/-- A document that carries its revision. -/
structure Revised (P : Type) where
  revision : P → ℕ
  withRevision : ℕ → P → P
  revision_withRevision : ∀ n p, revision (withRevision n p) = n
  withRevision_withRevision : ∀ m n p, withRevision m (withRevision n p) = withRevision m p

section

variable {F V : Type}

def revisedView : Revised (ChartViewStateV1 F V) where
  revision := (·.revision)
  withRevision n view := { view with revision := n }
  revision_withRevision _ _ := rfl
  withRevision_withRevision _ _ _ := rfl

def revisedPreferences : Revised ChartPreferencesV1 where
  revision := (·.revision)
  withRevision n preferences := { preferences with revision := n }
  revision_withRevision _ _ := rfl
  withRevision_withRevision _ _ _ := rfl

end

/-- What `PendingViewRecord` and `PendingPreferencesRecord` have in common. A registration is known
by its number. -/
structure PendingPart (P : Type) where
  payload : Option P
  revision : ℕ
  ackRevision : ℕ
  observedFingerprint : String
  ackFingerprint : String
  needsCapture : Bool
  captureRegistration : Option ℕ
  deriving DecidableEq

/-- A part of an attempt to save. -/
structure AttemptPart (P : Type) where
  payload : P
  revision : ℕ
  fingerprint : String
  deriving DecidableEq

namespace PendingPart

variable {P : Type} (R : Revised P) (r : PendingPart P)

def empty : PendingPart P := ⟨none, 0, 0, "", "", false, none⟩

/-- `markViewDirty`, `markPreferencesDirty` -/
def markDirty (registration : ℕ) : PendingPart P :=
  { r with
    revision := max r.revision r.ackRevision + 1
    needsCapture := true
    captureRegistration := some registration }

/-- A change that nobody has marked is found by its fingerprint. -/
def observe (fingerprint : String) (registration : ℕ) : PendingPart P :=
  if !r.needsCapture && fingerprint ≠ r.observedFingerprint then r.markDirty registration else r

def capture (captured : P) (fingerprint : String) : PendingPart P :=
  { r with
    payload := some (R.withRevision r.revision captured)
    observedFingerprint := fingerprint
    needsCapture := false
    captureRegistration := none }

/-- `adoptSnapshot` for a part: a snapshot is taken as it is, if nothing here is newer. -/
def adopt (incoming : P) (fingerprint : String) : PendingPart P :=
  if r.revision ≤ R.revision incoming then
    { payload := none
      revision := R.revision incoming
      ackRevision := R.revision incoming
      observedFingerprint := fingerprint
      ackFingerprint := fingerprint
      needsCapture := false
      captureRegistration := none }
  else if r.ackRevision ≤ R.revision incoming then
    { r with ackRevision := R.revision incoming, ackFingerprint := fingerprint }
  else r

def attempt : Option (AttemptPart P) := r.payload.map fun p => ⟨p, R.revision p, r.observedFingerprint⟩

def stillCurrent (a : AttemptPart P) : Bool :=
  r.payload.any (fun p => R.revision p = a.revision) && !r.needsCapture && r.revision = a.revision &&
    r.observedFingerprint = a.fingerprint

/-- `result.viewStateSaved && result.viewRevision >= attempt.viewRevision` -/
def Saves (saved : Bool) (durable : ℕ) (a : AttemptPart P) : Prop := saved = true ∧ a.revision ≤ durable

instance (saved : Bool) (durable : ℕ) (a : AttemptPart P) : Decidable (Saves saved durable a) :=
  inferInstanceAs (Decidable (_ ∧ _))

/-- `applyResult` for a part; the second answer is that another turn of the drain is wanted. -/
def applyResult (a : AttemptPart P) (saved : Bool) (durable : ℕ) (current : Bool) : PendingPart P × Bool :=
  if Saves saved durable a then
    if current then
      ({ r with payload := none, revision := durable, ackRevision := durable, ackFingerprint := a.fingerprint }, false)
    else (r, false)
  else if current ∧ a.revision ≤ durable then
    -- the revision is taken: the same payload, above it
    ({ r with revision := durable + 1, payload := r.payload.map (R.withRevision (durable + 1)) }, true)
  else (r, false)

end PendingPart

/-! ## The autosave -/

structure CapturedWorkspaceState (F V : Type) where
  viewState : ChartViewStateV1 F V
  preferences : ChartPreferencesV1
  viewFingerprint : String
  preferencesFingerprint : String

/-- What the source answers in one `captureActive`: its key, and up to two captures. -/
structure SourceAnswers (F V : Type) where
  key : Option ChartWorkspaceKey
  first : Option (CapturedWorkspaceState F V)
  second : Option (CapturedWorkspaceState F V)

structure ViewRecord (F V : Type) where
  part : PendingPart (ChartViewStateV1 F V)
  forceKlineFlush : Bool
  forceGeneration : ℕ

structure PreferencesRecord where
  part : PendingPart ChartPreferencesV1
  captureKeyId : Option ChartWorkspaceKey
  keyId : Option ChartWorkspaceKey

structure SaveAttempt (F V : Type) where
  key : ChartWorkspaceKey
  view : Option (AttemptPart (ChartViewStateV1 F V))
  preferences : Option (AttemptPart ChartPreferencesV1)
  forceGeneration : Option ℕ

/-- The drain that runs: it waits for a save, with the rest of its cycle, or is over, and
`drainPromise` is not yet cleared. -/
inductive Drain (F V : Type)
  | none
  | saving (attempt : SaveAttempt F V) (rest : List ChartWorkspaceKey)
  | settled

structure History (F V : Type) where
  sent : List (SaveAttempt F V)
  answered : List (SaveAttempt F V × ChartWorkspaceSaveResult)
  /-- What was captured last, unless a snapshot has been adopted since. -/
  latestView : ChartWorkspaceKey → Option (ChartViewStateV1 F V)
  latestPreferences : Option ChartPreferencesV1

structure Autosave (F V : Type) where
  /-- How many sources were registered. -/
  registered : ℕ
  /-- `captureEnabled` of the registrations that were not removed -/
  registrations : ℕ → Option Bool
  activeRegistration : Option ℕ
  views : ChartWorkspaceKey → Option (ViewRecord F V)
  preferences : PreferencesRecord
  queuedIds : Finset ChartWorkspaceKey
  queue : List ChartWorkspaceKey
  drain : Drain F V
  drainRequested : Bool
  history : History F V

inductive FlushReason
  | timer
  | context
  | page
  | close
  deriving DecidableEq, Repr

inductive AutosaveAction (F V : Type)
  | registerCaptureSource
  | setActive (registration : ℕ) (active : Bool)
  | setCaptureEnabled (registration : ℕ) (enabled : Bool)
  | markViewDirty (registration : ℕ) (key : Option ChartWorkspaceKey)
  | markPreferencesDirty (registration : ℕ) (key : Option ChartWorkspaceKey)
  | unregister (registration : ℕ)
  | adoptSnapshot (key : ChartWorkspaceKey) (view : ChartViewStateV1 F V) (preferences : ChartPreferencesV1)
  | flush (reason : FlushReason) (answers drainAnswers : SourceAnswers F V)
  /-- The save the drain waits for has answered, or thrown. -/
  | answer (result : Option ChartWorkspaceSaveResult) (answers : SourceAnswers F V)
  /-- `drainPromise` is cleared. -/
  | clear

/-- `chartViewContentFingerprint` and `chartPreferencesContentFingerprint` -/
structure Fingerprints (F V : Type) where
  view : ChartViewStateV1 F V → String
  preferences : ChartPreferencesV1 → String

namespace Autosave

variable {F V : Type} (s : Autosave F V)

def empty : Autosave F V where
  registered := 0
  registrations _ := none
  activeRegistration := none
  views _ := none
  preferences := ⟨.empty, none, none⟩
  queuedIds := ∅
  queue := []
  drain := .none
  drainRequested := false
  history := ⟨[], [], fun _ => none, none⟩

def setView (key : ChartWorkspaceKey) (record : ViewRecord F V) : Autosave F V :=
  { s with views := Function.update s.views key (some record) }

def viewOf (key : ChartWorkspaceKey) : ViewRecord F V := (s.views key).getD ⟨.empty, false, 0⟩

def ensureView (key : ChartWorkspaceKey) : Autosave F V :=
  if (s.views key).isSome then s else s.setView key ⟨.empty, false, 0⟩

def enqueue (key : ChartWorkspaceKey) : Autosave F V :=
  if key ∈ s.queuedIds then s
  else { s with queuedIds := insert key s.queuedIds, queue := s.queue ++ [key] }

def hasViewWork (key : ChartWorkspaceKey) : Bool :=
  (s.views key).any fun record => record.part.payload.isSome || record.forceKlineFlush

def hasPreferencesWork (key : ChartWorkspaceKey) : Bool :=
  s.preferences.part.payload.isSome && s.preferences.keyId = some key

def removeFromQueueIfClean (key : ChartWorkspaceKey) : Autosave F V :=
  if s.hasViewWork key || s.hasPreferencesWork key || key ∉ s.queuedIds then s
  else { s with queuedIds := s.queuedIds.erase key, queue := s.queue.erase key }

/-- `oldKeyId` of the preferences -/
def removeOldKey (old : Option ChartWorkspaceKey) : Autosave F V :=
  match old with
  | some key => s.removeFromQueueIfClean key
  | none => s

def requestFollowupDrain : Autosave F V :=
  match s.drain with
  | .none => s
  | _ => { s with drainRequested := true }

/-! ### Capturing -/

/-- `readActiveCapture`, given the key of the source. -/
def readActiveCapture (key : Option ChartWorkspaceKey) : Option (ℕ × ChartWorkspaceKey) := do
  let registration ← s.activeRegistration
  let _ ← s.registrations registration
  let key ← key
  pure (registration, key)

/-- `readCapture`, given what the source has captured. -/
def readCapture (key : ChartWorkspaceKey) (captured : Option (CapturedWorkspaceState F V)) : Option (CapturedWorkspaceState F V) :=
  captured.filter fun c => c.viewState.schemaVersion = 1 && c.preferences.schemaVersion = 1 && c.viewState.symbol = key.symbol &&
    c.viewState.interval = key.interval

def observed (registration : ℕ) (key : ChartWorkspaceKey) (initial : CapturedWorkspaceState F V) : Autosave F V :=
  let record := s.viewOf key
  let s := s.setView key { record with part := record.part.observe initial.viewFingerprint registration }
  let p := s.preferences
  if !p.part.needsCapture && initial.preferencesFingerprint ≠ p.part.observedFingerprint then
    { s with preferences := { p with part := p.part.markDirty registration, captureKeyId := some key } }
  else s

def capturesView (registration : ℕ) (key : ChartWorkspaceKey) : Bool :=
  (s.viewOf key).part.needsCapture && (s.viewOf key).part.captureRegistration = some registration

def capturesPreferences (registration : ℕ) (key : ChartWorkspaceKey) : Bool :=
  s.preferences.part.needsCapture && s.preferences.part.captureRegistration = some registration &&
    s.preferences.captureKeyId = some key

def captureView (key : ChartWorkspaceKey) (captured : CapturedWorkspaceState F V) : Autosave F V :=
  let record := s.viewOf key
  ({ s with history.latestView := Function.update s.history.latestView key (some captured.viewState) }.setView key
    { record with part := record.part.capture revisedView captured.viewState captured.viewFingerprint }).enqueue key

def capturePreferences (key : ChartWorkspaceKey) (captured : CapturedWorkspaceState F V) : Autosave F V :=
  let old := s.preferences.keyId
  let s := { s with
    history.latestPreferences := some captured.preferences
    preferences :=
      { part := s.preferences.part.capture revisedPreferences captured.preferences captured.preferencesFingerprint
        captureKeyId := none
        keyId := some key } }.enqueue key
  if old = some key then s else s.removeOldKey old

/-- The end of `captureActive`, with what was captured. -/
def captured (registration : ℕ) (key : ChartWorkspaceKey) (c : CapturedWorkspaceState F V) : Autosave F V :=
  let capturesPreferences := s.capturesPreferences registration key
  let s := if s.capturesView registration key then s.captureView key c else s
  if capturesPreferences then s.capturePreferences key c else s

/-- `captureActive` -/
def captureActive (answers : SourceAnswers F V) : Autosave F V × Option ChartWorkspaceKey :=
  match s.readActiveCapture answers.key with
  | none => (s, none)
  | some (registration, key) =>
    if s.registrations registration = some true then
      let s := s.ensureView key
      match readCapture key answers.first with
      | none => (s, some key)
      | some initial =>
        let s := s.observed registration key initial
        if s.capturesView registration key ∧ initial.viewState.revision ≠ (s.viewOf key).part.revision ∨
            s.capturesPreferences registration key ∧ initial.preferences.revision ≠ s.preferences.part.revision then
          match readCapture key answers.second with
          | none => (s, some key)
          | some recaptured => (s.captured registration key recaptured, some key)
        else (s.captured registration key initial, some key)
    else (s, some key)

/-! ### Draining -/

def createAttempt (key : ChartWorkspaceKey) : Option (SaveAttempt F V) :=
  match s.views key with
  | none => none
  | some record =>
    let attempt : SaveAttempt F V :=
      { key := key
        view := record.part.attempt revisedView
        preferences := if s.preferences.keyId = some key then s.preferences.part.attempt revisedPreferences else none
        forceGeneration := if record.forceKlineFlush then some record.forceGeneration else none }
    if attempt.view.isNone ∧ attempt.preferences.isNone ∧ attempt.forceGeneration.isNone then none else some attempt

/-- The loop of `drain` over its cycle, up to the next save, and whether there is one. -/
def seek : Autosave F V → List ChartWorkspaceKey → Autosave F V × Bool
  | s, [] => (s, false)
  | s, key :: rest =>
    match s.createAttempt key with
    | none => seek (s.removeFromQueueIfClean key) rest
    | some attempt => ({ s with drain := .saving attempt rest, history.sent := s.history.sent ++ [attempt] }, true)

/-- A turn of the outer loop of `drain`. -/
def turn (answers : SourceAnswers F V) : Autosave F V :=
  let s := ({ s with drainRequested := false }.captureActive answers).1
  match s.seek s.queue with
  | (s, true) => s
  | (s, false) => { s with drain := .settled }

/-- The drain goes on after an answer. -/
def resume (rest : List ChartWorkspaceKey) (answers : SourceAnswers F V) : Autosave F V :=
  match s.seek rest with
  | (s, true) => s
  | (s, false) => if s.drainRequested then s.turn answers else { s with drain := .settled }

/-- `applyResult` for the record of the key; the second answer is that another turn is wanted. -/
def applyToView (attempt : SaveAttempt F V) (result : ChartWorkspaceSaveResult) (record : ViewRecord F V) : ViewRecord F V × Bool :=
  let record := if attempt.forceGeneration = some record.forceGeneration ∧ result.klineSaved then { record with forceKlineFlush := false }
    else record
  match attempt.view with
  | none => (record, false)
  | some a =>
    let (part, again) := record.part.applyResult revisedView a result.viewStateSaved result.viewRevision
      (record.part.stillCurrent revisedView a)
    ({ record with part := part }, again)

/-- `applyResult` for the preferences. -/
def applyToPreferences (attempt : SaveAttempt F V) (result : ChartWorkspaceSaveResult) (p : PreferencesRecord) :
    PreferencesRecord × Bool :=
  match attempt.preferences with
  | none => (p, false)
  | some a =>
    let current := p.part.stillCurrent revisedPreferences a && p.keyId = some attempt.key
    let (part, again) := p.part.applyResult revisedPreferences a result.preferencesSaved result.preferencesRevision current
    let saved := current = true ∧ PendingPart.Saves result.preferencesSaved result.preferencesRevision a
    ({ p with part := part, keyId := if saved then none else p.keyId }, again)

def applyResult (attempt : SaveAttempt F V) (result : ChartWorkspaceSaveResult) : Autosave F V :=
  match s.views attempt.key with
  | none => s
  | some record =>
    let (record, againView) := applyToView attempt result record
    let (preferences, againPreferences) := applyToPreferences attempt result s.preferences
    { s.setView attempt.key record with
      preferences := preferences
      drainRequested := s.drainRequested || againView || againPreferences }.removeFromQueueIfClean attempt.key

/-! ### Steps -/

/-- A mark counts only from the source that is active and enabled. -/
def isCurrent (registration : ℕ) : Bool :=
  s.registrations registration = some true && s.activeRegistration = some registration

def adoptView (prints : Fingerprints F V) (key : ChartWorkspaceKey) (view : ChartViewStateV1 F V) : Autosave F V :=
  let s := s.ensureView key
  let record := s.viewOf key
  let latest := if record.part.revision ≤ view.revision then none else s.history.latestView key
  { s with history.latestView := Function.update s.history.latestView key latest }.setView key
    { record with part := record.part.adopt revisedView view (prints.view view) }

def adoptPreferences (prints : Fingerprints F V) (preferences : ChartPreferencesV1) : Autosave F V :=
  let p := s.preferences
  let part := p.part.adopt revisedPreferences preferences (prints.preferences preferences)
  if p.part.revision ≤ preferences.revision then
    { s with history.latestPreferences := none, preferences := ⟨part, none, none⟩ }.removeOldKey p.keyId
  else { s with preferences := { p with part := part } }

def force (key : ChartWorkspaceKey) : Autosave F V :=
  let s := s.ensureView key
  let record := s.viewOf key
  (s.setView key { record with forceKlineFlush := true, forceGeneration := record.forceGeneration + 1 }).enqueue key

/-- The start of `flush`: it captures, and asks for a turn. -/
def flushCapture (reason : FlushReason) (answers : SourceAnswers F V) : Autosave F V :=
  let (s, active) := s.captureActive answers
  let s := match active with
    | some key => if reason = FlushReason.timer then s else s.force key
    | none => s
  { s with drainRequested := true }

/-- `flush`, up to its await. -/
def flush (reason : FlushReason) (answers drainAnswers : SourceAnswers F V) : Autosave F V :=
  let s := s.flushCapture reason answers
  match s.drain with
  | .none => s.turn drainAnswers
  | _ => s

def step (prints : Fingerprints F V) : AutosaveAction F V → Autosave F V
  | .registerCaptureSource =>
    { s with registered := s.registered + 1, registrations := Function.update s.registrations s.registered (some true) }
  | .setActive registration active =>
    if (s.registrations registration).isNone then s
    else if active then { s with activeRegistration := some registration }
    else if s.activeRegistration = some registration then { s with activeRegistration := none }
    else s
  | .setCaptureEnabled registration enabled =>
    if (s.registrations registration).isNone then s
    else { s with registrations := Function.update s.registrations registration (some enabled) }
  | .markViewDirty registration key =>
    match s.isCurrent registration, s.readActiveCapture key with
    | true, some (_, key) =>
      let s := s.ensureView key
      let record := s.viewOf key
      (s.setView key { record with part := record.part.markDirty registration }).requestFollowupDrain
    | _, _ => s
  | .markPreferencesDirty registration key =>
    match s.isCurrent registration, s.readActiveCapture key with
    | true, some (_, key) =>
      { s with
        preferences :=
          { s.preferences with part := s.preferences.part.markDirty registration, captureKeyId := some key } }.requestFollowupDrain
    | _, _ => s
  | .unregister registration =>
    if (s.registrations registration).isNone then s
    else
      { s with
        registrations := Function.update s.registrations registration none
        activeRegistration := if s.activeRegistration = some registration then none else s.activeRegistration }
  | .adoptSnapshot key view preferences => ((s.adoptView prints key view).adoptPreferences prints preferences).removeFromQueueIfClean key
  | .flush reason answers drainAnswers => s.flush reason answers drainAnswers
  | .answer result answers =>
    match s.drain with
    | .saving attempt rest =>
      match result with
      | some result =>
        ({ s with history.answered := s.history.answered ++ [(attempt, result)] }.applyResult attempt result).resume rest answers
      | none => s.resume rest answers
    | _ => s
  | .clear =>
    match s.drain with
    | .settled => { s with drain := .none }
    | _ => s

/-- The autosave after the steps `as`. -/
def run (prints : Fingerprints F V) (as : List (AutosaveAction F V)) : Autosave F V := Steps.run (step · prints ·) empty as

end Autosave

end EasiFlux.Chart
