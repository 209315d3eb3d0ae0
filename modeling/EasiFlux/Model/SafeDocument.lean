import Mathlib.Data.List.MinMax
import EasiFlux.Lib.Codec
import EasiFlux.Lib.Steps
import EasiFlux.Model.Contract

/-!
# Documents kept in five files

`storage/safe_plugin_document.rs` over the Unix calls of its `platform` module,
and the versioned store of `plugin/strategy/store.rs` on top of it. A document is
written to `.pending`, the previous one to `.bak`, and `.pending` is then renamed
over the main file; all five reserved names are candidates when the document is
read, and the highest revision wins.

With a single writer the identity checks of `platform` compare a file with
itself: a check that a name still is the file held open is a call that finds the
name there, and may fail. The checks on letter case and link counts are calls
that may fail.

The store is over any type of documents with a revision, a check and a default
(`Versioned`), written and read by `serde_json` (`Texts`), which need not give back
the number that was written.
-/

namespace EasiFlux

open CrashIo Results

/-- `SafeDocumentNames` -/
inductive DocName
  | main
  | tmp
  | bak
  | pending
  | bakPending
  deriving DecidableEq, Repr

/-- `SafeDocumentNames::all` -/
def DocName.all : List DocName := [.main, .tmp, .bak, .pending, .bakPending]

theorem DocName.mem_all (n : DocName) : n ∈ DocName.all := by cases n <;> decide

/-- The reserved directory. Nothing outside is called. -/
abbrev DocDir := Machine DocName Empty

abbrev DocIo := Io DocDir IoErr

inductive CandidateBytes
  | missing
  | oversized
  | bounded (bytes : Bytes)
  deriving DecidableEq, Repr

namespace SafePluginDocument

variable (maxBytes : ℕ)

/-- Whether the name has a file. The checks on its case and identity may fail. -/
def openExisting (name : DocName) : DocIo Bool := do
  sync
  match ← Io.attempt (stat name) with
  | .ok () => do
    sync
    pure true
  | .error .notFound => pure false
  | .error e => Io.throw e

/-- The bytes of one name, or that they are too many. -/
def loadName (name : DocName) : DocIo CandidateBytes := do
  if ← openExisting name then do
    let bytes ← CrashIo.read name
    pure (if maxBytes < bytes.length then .oversized else .bounded bytes)
  else pure .missing

def loadAllCandidates : DocIo (List CandidateBytes) := do
  -- a missing directory has no files
  sync
  Io.each (loadName maxBytes) DocName.all

/-- `bounded` on the file that has this name now. -/
def bounded (name : DocName) : DocIo Unit :=
  look fun m => if ((m.get name).getD []).length ≤ maxBytes then .ok () else .error .other

/-- `Directory::verify` -/
def verify (name : DocName) : DocIo Unit := do
  sync
  stat name

/-- `Directory::open_file` with `create`. -/
def createFile (name : DocName) : DocIo Unit := do
  sync
  createNew name
  sync

/-- A new file with these contents, flushed. -/
def writeFile (name : DocName) (contents : Bytes) : DocIo Unit := do
  createFile name
  writeAll name contents
  sync

/-- `Directory::remove` -/
def removeFile (name : DocName) : DocIo Unit := do
  verify name
  remove name

/-- The target of a replacement is the file held open, or still missing. -/
def verifyTarget (target : DocName) (held : Bool) : DocIo Unit :=
  if held then verify target
  else do
    match ← Io.attempt (verify target) with
    | .error .notFound => pure ()
    | _ => Io.throw .other

/-- `Directory::replace`; `held` says whether the target was there at the start. -/
def replace (source target : DocName) (held : Bool) : DocIo Unit := do
  verify source
  sync
  verifyTarget target held
  rename source target

/-- Take the file out if it was there at the start. -/
def removeHeld (name : DocName) (held : Bool) : DocIo Unit :=
  if held then do
    bounded maxBytes name
    removeFile name
  else pure ()

/-- One name of the first loop of `persist`: held open, and not too long. -/
def hold (name : DocName) : DocIo Bool := do
  let held ← openExisting name
  if held then do
    bounded maxBytes name
    pure true
  else pure false

def boundedHeld (name : DocName) (held : Bool) : DocIo Unit :=
  if held then bounded maxBytes name else pure ()

/-- The previous document is written next to the backup and renamed over it. -/
def replaceBackup (previous : Bytes) (heldBak : Bool) : DocIo Unit := do
  writeFile .bakPending previous
  bounded maxBytes .bakPending
  boundedHeld maxBytes .bak heldBak
  replace .bakPending .bak heldBak
  verify .bak
  bounded maxBytes .bak

/-- `persist` up to the point where the main file is replaced. -/
def prepare (previous next : Bytes) (heldTmp heldBak heldPending heldBakPending : Bool) : DocIo Unit := do
  removeHeld maxBytes .pending heldPending
  removeHeld maxBytes .bakPending heldBakPending
  sync
  writeFile .pending next
  replaceBackup maxBytes previous heldBak
  removeHeld maxBytes .tmp heldTmp
  sync

/-- The main file is replaced and the directory synced: only now is the document
durable. -/
def commit (heldMain : Bool) : DocIo Unit := do
  bounded maxBytes .pending
  boundedHeld maxBytes .main heldMain
  replace .pending .main heldMain
  verify .main
  bounded maxBytes .main
  sync

/-- `persist(Some(previous), next)`. It returns `CommittedDurable` or fails. -/
def persist (previous next : Bytes) : DocIo Unit := do
  Io.lift (ensure (next.length ≤ maxBytes ∧ previous.length ≤ maxBytes) .other)
  sync
  let heldMain ← hold maxBytes .main
  let heldTmp ← hold maxBytes .tmp
  let heldBak ← hold maxBytes .bak
  let heldPending ← hold maxBytes .pending
  let heldBakPending ← hold maxBytes .bakPending
  prepare maxBytes previous next heldTmp heldBak heldPending heldBakPending
  commit maxBytes heldMain

end SafePluginDocument

/-! ## The store -/

/-- Documents with a revision. -/
structure Versioned (D : Type) where
  revision : D → ℕ
  /-- `validate().is_ok()` -/
  valid : D → Bool
  default : D
  revision_default : revision default = 0

/-- `strategy::error` -/
def strategyError (code : String) : AppError :=
  .plugin code "自动策略未完成，请检查授权、账户与恢复状态" none

def storageUnavailable : AppError := strategyError "plugin_strategy_storage_unavailable"

/-- `store::MAX_STORE_BYTES` -/
def maxStoreBytes : ℕ := 16 * 1024 * 1024

namespace FileStore

variable {D : Type} [DecidableEq D] (S : Versioned D) (T : Texts D)

/-- One candidate joins the versions read so far; two documents of one revision
must be the same. -/
def addVersion (versions : List D) : CandidateBytes → AppResult (List D)
  | .missing => .ok versions
  | .oversized => .error storageUnavailable
  | .bounded bytes => do
    let doc ← okOr (T.decode bytes) storageUnavailable
    ensure (S.valid doc) storageUnavailable
    ensure (∀ old ∈ versions, S.revision old = S.revision doc → old = doc) storageUnavailable
    pure (doc :: versions)

/-- The document with the highest revision, or the default. -/
def newest (candidates : List CandidateBytes) : AppResult D := do
  let versions ← candidates.foldlM (addVersion S T) []
  pure ((versions.argmax S.revision).getD S.default)

/-- `FileStrategyStore::load` -/
def load : Io DocDir AppError D := do
  let candidates ← Io.mapErr (fun _ => storageUnavailable) (SafePluginDocument.loadAllCandidates maxStoreBytes)
  Io.lift (newest S T candidates)

/-- `FileStrategyStore::save` -/
def save (doc : D) : Io DocDir AppError Unit := do
  Io.lift (ensure (S.valid doc) storageUnavailable)
  let old ← load S T
  Io.lift (ensure (S.revision old + 1 < 2 ^ 64 ∧ S.revision doc = S.revision old + 1) storageUnavailable)
  Io.mapErr (fun _ => storageUnavailable) (SafePluginDocument.persist maxStoreBytes (T.encode old) (T.encode doc))

end FileStore

/-- A call on the store. -/
inductive StoreCall (D : Type)
  | load
  | save (doc : D)

/-- The directory, the documents passed to `save`, and those it returned `Ok` for,
newest first. -/
structure StoreRun (D : Type) where
  dir : DocDir
  saved : List D
  acked : List D

/-- One call under its faults; a crash is followed by a restart. -/
def StoreRun.step {D : Type} [DecidableEq D] (S : Versioned D) (T : Texts D)
    (w : StoreRun D) (c : StoreCall D × List Fault) : StoreRun D :=
  match c.1 with
  | .load => { w with dir := (FileStore.load S T w.dir c.2).state }
  | .save doc =>
    match FileStore.save S T doc w.dir c.2 with
    | .ok _ dir _ => { dir := dir, saved := doc :: w.saved, acked := doc :: w.acked }
    | .err _ dir _ | .crashed dir => { dir := dir, saved := doc :: w.saved, acked := w.acked }

/-- An empty directory. -/
def StoreRun.init (D : Type) : StoreRun D := ⟨⟨∅, []⟩, [], []⟩

/-- The store after these calls, from an empty directory. -/
def StoreRun.after {D : Type} [DecidableEq D] (S : Versioned D) (T : Texts D)
    (calls : List (StoreCall D × List Fault)) : StoreRun D :=
  Steps.run (StoreRun.step S T) (StoreRun.init D) calls

end EasiFlux
