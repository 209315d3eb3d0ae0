import EasiFlux.Lib.Codec
import EasiFlux.Model.Contract

/-!
# The order journal

`storage/order_submissions.rs` with the file replacement of
`storage/config_persistence.rs`. A submission is recorded in one file per order
link id before the order is sent; its outcome replaces the file through a `.tmp`
and a `.bak` copy, and a reader takes the first of the three that is there.

Every function is a program over the files of one account scope
(`Journal`): each system call may fail or be the last one the process makes.
The outside call of the journal is the submit closure; its log entry keeps the
files the closure was called on.
-/

namespace EasiFlux

open CrashIo Results

inductive Suffix
  | main
  | tmp
  | bak
  deriving DecidableEq, Repr

/-- A name in a scope's directory: `<hash>.json`, `<hash>.json.tmp`,
`<hash>.json.bak`, or one the store never writes. -/
inductive FileName
  | record (hash : String) (suffix : Suffix)
  | foreign (name : String)
  deriving DecidableEq, Repr

/-- One invocation of the submit closure. -/
structure Submission where
  request : PlaceOrderRequest
  files : Disk FileName

abbrev JournalDir := Machine FileName Submission

abbrev Journal := Io JournalDir AppError

/-- Reading a record checks the shape of its protection. -/
def StoredSubmission.wire (record : StoredSubmission) : Bool :=
  record.request.protection.all OrderProtection.validateShape

abbrev RecordCodec := Codec StoredSubmission StoredSubmission.wire

def StoredSubmission.unresolved (record : StoredSubmission) : Bool :=
  match record.outcome with
  | .pending => true
  | .accepted _ => !record.acknowledged
  | .rejected => false

/-! ## `config_persistence.rs` -/

namespace ConfigPersistence

def writeTemp (hash : String) (contents : Bytes) : Io JournalDir IoErr Unit := do
  openTruncate (.record hash .tmp)
  writeAll (.record hash .tmp) contents
  sync

def removeOldBackup (hash : String) : Io JournalDir IoErr Unit := do
  match ← Io.attempt (remove (.record hash .bak)) with
  | .ok () => pure ()
  | .error .notFound => pure ()
  | .error e => Io.throw e

def replaceExistingMain (hash : String) : Io JournalDir IoErr Unit := do
  removeOldBackup hash
  rename (.record hash .main) (.record hash .bak)
  match ← Io.attempt (rename (.record hash .tmp) (.record hash .main)) with
  | .ok () => pure ()
  | .error e => do
    -- the old file is put back if it can be
    Io.ignore (rename (.record hash .bak) (.record hash .main))
    Io.throw e

def replaceMain (hash : String) : Io JournalDir IoErr Unit := do
  match ← Io.attempt (stat (.record hash .main)) with
  | .ok () => replaceExistingMain hash
  | .error .notFound => rename (.record hash .tmp) (.record hash .main)
  | .error e => Io.throw e

def save (hash : String) (contents : Bytes) : Io JournalDir IoErr Unit := do
  sync
  writeTemp hash contents
  replaceMain hash

end ConfigPersistence

/-! ## `order_submissions.rs` -/

def storageError (message : String) : AppError := .storage message

def ioError : AppError := storageError "订单提交记录存储不可用，请检查存储后再查询原订单"

/-- A system call whose failure is `io_error`. -/
def orIoError {α : Type} (call : Io JournalDir IoErr α) : Journal α := Io.mapErr (fun _ => ioError) call

def validateIdentity (id : String) : AppResult Unit :=
  ensure (id ≠ "" ∧ byteLen id ≤ 36) (storageError "订单提交标识长度必须为 1 至 36 字节")

def scopeDir (scope : String) : AppResult Unit :=
  ensure (scope ≠ "") (storageError "订单提交记录缺少账户范围")

section Store

variable (K : Crates) (C : RecordCodec) (scope : String)

/-- The checks `read_record` makes on what a candidate holds. -/
def checkRecord (hash : String) (id : Option String) (contents : Bytes) : AppResult StoredSubmission := do
  let record ← okOr (C.decode contents) (storageError "订单提交记录已损坏，请先恢复原记录")
  ensure (record.schemaVersion = 1) (storageError "不支持的订单提交记录版本")
  validateIdentity record.orderLinkId
  ensure (record.scope = scope ∧ (∀ i ∈ id, i = record.orderLinkId) ∧
      record.request.orderLinkId = some record.orderLinkId ∧ hash = K.identityHash record.orderLinkId)
    (storageError "订单提交记录与原请求标识不一致")
  pure record

/-- One pass of the loop of `read_record`: nothing when the file is missing. -/
def readCandidate (hash : String) (id : Option String) (suffix : Suffix) :
    Journal (Option StoredSubmission) := do
  match ← Io.attempt (stat (.record hash suffix)) with
  | .error .notFound => pure none
  | .error _ => Io.throw ioError
  | .ok () => do
    let contents ← orIoError (read (.record hash suffix))
    let record ← Io.lift (checkRecord K C scope hash id contents)
    pure (some record)

def readRecord (hash : String) (id : Option String) : Journal (Option StoredSubmission) := do
  match ← readCandidate K C scope hash id .main with
  | some record => pure (some record)
  | none =>
    match ← readCandidate K C scope hash id .tmp with
    | some record => pure (some record)
    | none => readCandidate K C scope hash id .bak

namespace OrderSubmissionStore

def get (id : String) : Journal (Option StoredSubmission) := do
  Io.lift (validateIdentity id)
  Io.lift (scopeDir scope)
  readRecord K C scope (K.identityHash id) (some id)

/-- The record `begin` writes. -/
def newRecord (id : String) (request : PlaceOrderRequest) (now : ℕ) : StoredSubmission where
  schemaVersion := 1
  scope := scope
  orderLinkId := id
  request := request
  createdAtMs := now
  outcome := .pending
  acknowledged := false

def begin (request : PlaceOrderRequest) (now : ℕ) : Journal StoredSubmission := do
  let id ← Io.lift (okOr request.orderLinkId (storageError "订单请求缺少提交标识"))
  match ← get K C scope id with
  | some existing => pure existing
  | none => do
    Io.lift (scopeDir scope)
    orIoError sync
    match ← Io.attempt (createNew (.record (K.identityHash id) .main)) with
    | .ok () => do
      -- a partial file stays: it blocks a second submission
      orIoError (writeAll (.record (K.identityHash id) .main) (C.encode (newRecord scope id request now)))
      orIoError sync
      pure (newRecord scope id request now)
    | .error .alreadyExists => do
      let record ← get K C scope id
      Io.lift (okOr record (storageError "订单提交记录在读取期间发生变化"))
    | .error _ => Io.throw ioError

/-- The hash in a file name of the directory. -/
def entryHash : FileName → AppResult String
  | .record hash _ => do
    ensure (byteLen hash = 64 ∧ hash.toList.all fun c => c.isDigit || ('a' ≤ c && c ≤ 'f') || ('A' ≤ c && c ≤ 'F'))
      (storageError "订单提交记录文件名无效")
    pure hash
  | .foreign _ => .error (storageError "订单提交记录文件名无效")

/-- Oldest first, then by id. -/
def sortPending (pending : List PendingOrderSubmission) : List PendingOrderSubmission :=
  pending.mergeSort fun l r =>
    l.createdAtMs < r.createdAtMs || (l.createdAtMs == r.createdAtMs && l.orderLinkId ≤ r.orderLinkId)

def listPending : Journal (List PendingOrderSubmission) := do
  Io.lift (scopeDir scope)
  let entries ← orIoError readDir
  let hashes ← Io.each (fun name => Io.lift (entryHash name)) entries
  let records ← Io.each (fun hash => do
    let record ← readRecord K C scope hash none
    Io.lift (okOr record (storageError "订单提交记录在读取期间发生变化"))) (hashes.dedup.mergeSort (· ≤ ·))
  pure (sortPending ((records.filter StoredSubmission.unresolved).map .ofStored))

def finish (id : String) (outcome : SubmissionOutcome) : Journal Unit := do
  let record ← get K C scope id
  let record ← Io.lift (okOr record (storageError "找不到原订单提交记录"))
  Io.lift (scopeDir scope)
  Io.mapErr (fun _ => storageError "无法保存订单提交结果，请查询原订单")
    (ConfigPersistence.save (K.identityHash id) (C.encode { record with outcome := outcome }))

def acknowledge (id : String) : Journal Unit := do
  let record ← get K C scope id
  let record ← Io.lift (okOr record (storageError "找不到原订单提交记录"))
  match record.outcome with
  | .accepted _ =>
    if record.acknowledged then pure ()
    else do
      Io.lift (scopeDir scope)
      Io.mapErr (fun _ => storageError "无法保存订单收据确认，请重新查询原订单")
        (ConfigPersistence.save (K.identityHash id) (C.encode { record with acknowledged := true }))
  | _ => Io.throw (storageError "仅已确认成功的订单可确认收据")

end OrderSubmissionStore

end Store

end EasiFlux
