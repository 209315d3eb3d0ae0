import Mathlib.Data.List.TakeWhile
import EasiFlux.Lib.Paging
import EasiFlux.Proof.NotificationService

/-!
# The pages of the notification centre

A window reads the notifications page by page, with the cursor of the last page, while the service
goes on: between two pages records are published, read, deleted and tidied away.

* `decodeCursor_encodeCursor`: a cursor of the service names the record it was made of.
* `reading_whole`: a service that is left alone is read to its last page.
* `pages_complete`: what a reading has listed, whatever happened meanwhile.
-/

namespace EasiFlux

open Results SortOn Stops JsonText Paging

/-! ## Cursors -/

theorem toList_loop (bytes : ByteArray) (i : ℕ) (r : List UInt8) :
    ByteArray.toList.loop bytes i r = r.reverse ++ bytes.data.toList.drop i := by
  fun_induction ByteArray.toList.loop bytes i r with
  | case1 i r h ih =>
    have hi : i < bytes.data.toList.length := h
    have hget : bytes.get! i = bytes.data.toList[i] := by
      show bytes.data[i]! = _
      rw [getElem!_pos bytes.data i h]
      rfl
    rw [ih, List.reverse_cons, List.append_assoc, List.drop_eq_getElem_cons hi, hget]
    rfl
  | case2 i r h =>
    have hi : bytes.data.toList.length ≤ i := not_lt.1 h
    rw [List.drop_eq_nil_of_le hi, List.append_nil]

theorem toArray_toList (bytes : ByteArray) : (⟨bytes.toList.toArray⟩ : ByteArray) = bytes := by
  rw [ByteArray.toList, toList_loop, List.reverse_nil, List.nil_append, List.drop_zero]

theorem readPairs_fixed (bytes : List UInt8) : readPairs (bytes.flatMap fun byte => Hex.fixed 2 byte.toNat) = some bytes := by
  induction bytes with
  | nil => rfl
  | cons byte bytes ih =>
    have hbyte := byte.toNat_lt
    have hdigits : Hex.fixed 2 byte.toNat = [Hex.hexDigit (byte.toNat / 16 % 16), Hex.hexDigit (byte.toNat % 16)] := rfl
    have hsign : Hex.hexDigit (byte.toNat / 16 % 16) ≠ '+' := by
      have hdigit : ∀ n < 16, Hex.hexDigit n ≠ '+' := by decide
      exact hdigit _ (by omega)
    have hvalue : 16 * (byte.toNat / 16 % 16) + byte.toNat % 16 = byte.toNat := by omega
    rw [List.flatMap_cons, hdigits, List.cons_append, List.cons_append, List.nil_append, readPairs, pairValue, if_neg hsign,
      Hex.hexValue_hexDigit _ (by omega), Hex.hexValue_hexDigit _ (by omega), ih, Option.bind_some, Option.map_some,
      Option.bind_some, Option.map_some, hvalue, UInt8.ofNat_toNat]

theorem NotificationFilter.read_name (filter : NotificationFilter) : NotificationFilter.read (string filter.name) = some filter := by
  cases filter <;> decide

theorem CursorV1.deserialize_dto {c : CursorV1} (hversion : c.version < 2 ^ 8) (htime : c.createdAtMs < 2 ^ 64) :
    deserialize c.dto = some c := by
  obtain ⟨field, hfields, hfield, -⟩ : ∃ field,
      fieldsOrElements ["version", "fingerprint", "filter", "createdAtMs", "id"] c.dto = some field ∧ _ :=
    fields_record (by simp) (by simp)
  simp only [List.forall_mem_cons, List.not_mem_nil, false_imp_iff, implies_true, and_true] at hfield
  obtain ⟨h1, h2, h3, h4, h5⟩ := hfield
  exact bind_eq_of hfields <| bind_eq_of (bind_eq_of h1 (readNat_int hversion)) <|
    bind_eq_of (bind_eq_of h2 (readText_string _)) <| bind_eq_of (bind_eq_of h3 (NotificationFilter.read_name _)) <|
    bind_eq_of (bind_eq_of h4 (readNat_int htime)) <| bind_eq_of (bind_eq_of h5 (readText_string _)) rfl

theorem plain_nat {depth n : ℕ} (h : n < 2 ^ 64) : JsonText.Plain depth (.int n) := by
  refine .int depth ?_
  have hcast : (n : ℤ) < ((2 ^ 64 : ℕ) : ℤ) := Int.ofNat_lt.2 h
  rw [fitsInt, Bool.and_eq_true, decide_eq_true_eq, decide_eq_true_eq]
  push_cast at hcast
  omega

theorem CursorV1.plain_dto {c : CursorV1} (hversion : c.version < 2 ^ 8) (htime : c.createdAtMs < 2 ^ 64) :
    JsonText.Plain maxDepth c.dto := by
  refine JsonText.Plain.record ?_
  simp only [List.forall_mem_cons, List.not_mem_nil, false_imp_iff, implies_true, and_true]
  exact ⟨plain_nat (by omega), .string _ _, .string _ _, plain_nat htime, .string _ _⟩

/-- The service takes its cursors back. -/
theorem decodeCursor_encodeCursor {c : CursorV1} (hversion : c.version = 1) (hid : c.id ≠ "") (htime : c.createdAtMs < 2 ^ 64) :
    decodeCursor (encodeCursor c) c.fingerprint c.filter = .ok c := by
  have hsmall : c.version < 2 ^ 8 := by omega
  have hread : fromBytes CursorV1.deserialize (toBytes c.dto) = some c := by
    rw [fromBytes_toBytes (CursorV1.plain_dto hsmall htime), CursorV1.deserialize_dto hsmall htime]
  have hhex : (toBytes c.dto).toList.flatMap (fun byte => Hex.fixed 2 byte.toNat) ≠ [] := by
    intro hnil
    -- the text of no bytes is no cursor
    have hbytes : (toBytes c.dto).toList = [] := Option.some.inj ((readPairs_fixed _).symm.trans (congrArg readPairs hnil))
    have hempty : fromBytes CursorV1.deserialize ⟨[].toArray⟩ = none := by decide +kernel
    rw [← toArray_toList (toBytes c.dto), hbytes, hempty] at hread
    cases hread
  generalize hbytes : toBytes c.dto = bytes at hread hhex
  have hstart : "n1.".toList = ['n', '1', '.'] := rfl
  have htext : (encodeCursor c).toList = ['n', '1', '.'] ++ bytes.toList.flatMap fun byte => Hex.fixed 2 byte.toNat := by
    rw [encodeCursor, String.toList_ofList, hbytes, hstart]
  unfold decodeCursor
  rw [htext, hstart, if_pos (List.isPrefixOf_iff_prefix.2 (List.prefix_append _ _))]
  refine bind_eq_ok.2 ⟨_, okOr_eq_ok.2 rfl, bind_eq_ok.2 ⟨(), ensure_of hhex, bind_eq_ok.2 ⟨_, okOr_eq_ok.2 (readPairs_fixed _),
    bind_eq_ok.2 ⟨c, okOr_eq_ok.2 ?_, bind_eq_ok.2 ⟨(), ensure_of ⟨hversion, rfl, rfl, hid⟩, rfl⟩⟩⟩⟩⟩
  rw [toArray_toList, hread]

/-! ## One page -/

/-- The newer records first, and then by their ids. -/
def recordKey (r : NotificationRecord) : (ℕ ×ₗ String)ᵒᵈ := OrderDual.toDual (toLex (r.createdAtMs, r.id))

/-- The records that a reading is about. -/
def listedRecords (file : NotificationFileV1) (context : ViewContext) (filter : NotificationFilter) (nowMs : ℕ) :
    List NotificationRecord :=
  (visibleRecords file context).filter fun r => !isExpired r nowMs && (filter = .all || r.readAtMs.isNone)

def CursorV1.key (c : CursorV1) : (ℕ ×ₗ String)ᵒᵈ := OrderDual.toDual (toLex (c.createdAtMs, c.id))

/-- The key that a cursor names. -/
def cursorKey (context : ViewContext) (filter : NotificationFilter) (cursor : Option String) : Option (ℕ ×ₗ String)ᵒᵈ :=
  cursor.bind fun text => match decodeCursor text (queryFingerprint context) filter with
    | .ok c => some c.key
    | .error _ => none

variable {context : ViewContext} {filter : NotificationFilter} {cursor : Option String} {limit nowMs : ℕ} {s s' : NotificationService}
  {page : NotificationPage}

theorem of_lift_bind {α β : Type} {x : Except NotificationError α} {f : α → ServiceM β} {b : β}
    (h : runFrom (liftExcept x >>= f) s = (.ok b, s')) : ∃ a, x = .ok a ∧ runFrom (f a) s = (.ok b, s') := by
  cases x with
  | ok a => exact ⟨a, rfl, h⟩
  | error e =>
    rw [runFrom_bind] at h
    cases h

/-- What is there behind a cursor, as the code filters and sorts it. -/
theorem behind_listed (file : NotificationFileV1) (cursor : Option CursorV1) :
    behind recordKey (cursor.map CursorV1.key) (listedRecords file context filter nowMs) =
      sortOn recordKey ((visibleRecords file context).filter fun r =>
        !isExpired r nowMs && (filter = .all || r.readAtMs.isNone) &&
          cursor.all fun c => toLex (r.createdAtMs, r.id) < toLex (c.createdAtMs, c.id)) := by
  rw [behind, listedRecords, List.filter_filter]
  refine congrArg (sortOn recordKey) (List.filter_congr fun r _ => ?_)
  have hbehind : ((cursor.map CursorV1.key).all fun k => k < recordKey r) =
      cursor.all fun c => toLex (r.createdAtMs, r.id) < toLex (c.createdAtMs, c.id) := by
    cases cursor with
    | none => rfl
    | some c => exact decide_eq_decide.2 OrderDual.toDual_lt_toDual
  rw [hbehind, Bool.and_comm]

/-- What a page is: the first records behind the cursor, and where there are more, the cursor of the last one. -/
theorem list_spec (h : runFrom (NotificationService.list context ⟨context.accountId, filter, cursor, limit⟩ nowMs) s = (.ok page, s')) :
    1 ≤ limit ∧
    page.items = (behind recordKey (cursorKey context filter cursor) (listedRecords s.state.file context filter nowMs)).take limit ∧
    (page.nextCursor =
      if limit < (behind recordKey (cursorKey context filter cursor) (listedRecords s.state.file context filter nowMs)).length then
        page.items.getLast?.map fun r => encodeCursor ⟨1, queryFingerprint context, filter, r.createdAtMs, r.id⟩
      else none) ∧
    page.unreadCount = visibleUnreadCount s.state.file context nowMs ∧ page.revision = s.state.file.revision := by
  unfold NotificationService.list at h
  obtain ⟨_, hchecked, h⟩ := of_lift_bind h
  obtain ⟨_, -, h⟩ := of_lift_bind h
  have hlimit : 1 ≤ limit := by
    have := ensure_eq_ok.1 hchecked
    simp only [Bool.and_eq_true, decide_eq_true_eq] at this
    omega
  refine ⟨hlimit, ?_⟩
  dsimp only at h
  cases cursor with
  | none =>
    obtain rfl := Except.ok.inj (Prod.mk.inj h).1
    have hkey : cursorKey context filter none = none.map CursorV1.key := rfl
    rw [hkey, behind_listed]
    exact ⟨rfl, rfl, rfl, rfl⟩
  | some text =>
    obtain ⟨c, hc, h⟩ := of_lift_bind h
    obtain rfl := Except.ok.inj (Prod.mk.inj h).1
    have hkey : cursorKey context filter (some text) = (some c).map CursorV1.key := by
      rw [cursorKey, Option.bind_some, hc, Option.map_some]
    rw [hkey, behind_listed]
    exact ⟨rfl, rfl, rfl, rfl⟩

/-- What a cursor starts with is no space. -/
theorem trim_encodeCursor (c : CursorV1) : trim (encodeCursor c) ≠ "" := by
  obtain ⟨rest, htext⟩ : ∃ rest, (encodeCursor c).toList = 'n' :: rest := by
    rw [encodeCursor, String.toList_ofList]
    exact ⟨_, rfl⟩
  have hn : isWhitespace 'n' = false := by decide
  intro h
  have hnil := congrArg String.toList h
  rw [trim, htext, List.dropWhile_cons_of_neg (by simp [hn]), String.toList_ofList, String.toList_empty,
    List.reverse_eq_nil_iff] at hnil
  have hspace := List.dropWhile_eq_nil_iff.1 hnil 'n' (by simp)
  rw [hn] at hspace
  cases hspace

/-- A cursor of the service for the view and the filter. -/
def Resumes (context : ViewContext) (filter : NotificationFilter) (cursor : Option String) : Prop :=
  ∀ text ∈ cursor, ∃ c, text = encodeCursor c ∧ decodeCursor text (queryFingerprint context) filter = .ok c

theorem resumes_none : Resumes context filter none := by simp [Resumes]

/-- Whoever asks for a page with a cursor of the service gets one. -/
theorem list_answers (hcursor : Resumes context filter cursor) (hlimit : 1 ≤ limit ∧ limit ≤ 100) (s : NotificationService)
    (nowMs : ℕ) :
    ∃ page, (runFrom (NotificationService.list context ⟨context.accountId, filter, cursor, limit⟩ nowMs) s).1 = .ok page := by
  have haccount : (context.accountId.all fun id => trim id ≠ "") = true := by
    rw [Option.all_eq_true]
    intro id hid
    have hvalid := context.valid id hid
    rw [isAccountId, Bool.and_eq_true, decide_eq_true_eq, decide_eq_true_eq] at hvalid
    rw [hvalid.2]
    exact decide_eq_true hvalid.1
  have htext : (cursor.all fun text => trim text ≠ "") = true := by
    rw [Option.all_eq_true]
    intro text htext
    obtain ⟨c, rfl, -⟩ := hcursor text htext
    exact decide_eq_true (trim_encodeCursor c)
  have hrequest : ((context.accountId.all fun id => trim id ≠ "") && (cursor.all fun text => trim text ≠ "") &&
      1 ≤ limit && limit ≤ 100) = true := by
    rw [haccount, htext, decide_eq_true hlimit.1, decide_eq_true hlimit.2]
    rfl
  unfold NotificationService.list
  rw [ensure_of hrequest, ensure_of rfl]
  cases cursor with
  | none => exact ⟨_, rfl⟩
  | some text =>
    obtain ⟨c, -, hdecode⟩ := hcursor text rfl
    dsimp only
    rw [hdecode]
    exact ⟨_, rfl⟩

/-! ## A whole reading -/

/-- One page that was read, with the service, the limit and the time then. -/
structure PageRead where
  service : NotificationService
  limit : ℕ
  nowMs : ℕ
  page : NotificationPage

def PageRead.visit (context : ViewContext) (filter : NotificationFilter) (read : PageRead) : Visit NotificationRecord :=
  ⟨listedRecords read.service.state.file context filter read.nowMs, read.page.items⟩

/-- The service has answered a request for the page behind the cursor with it. -/
def PageRead.Answers (context : ViewContext) (filter : NotificationFilter) (cursor : Option String) (read : PageRead) : Prop :=
  (runFrom (NotificationService.list context ⟨context.accountId, filter, cursor, read.limit⟩ read.nowMs) read.service).1 =
    .ok read.page

/-- The request is answered with this page. -/
theorem PageRead.answers_of {cursor : Option String} {read : PageRead} (hcursor : Resumes context filter cursor)
    (hlimit : 1 ≤ read.limit ∧ read.limit ≤ 100) (left : List NotificationRecord)
    (hleft : behind recordKey (cursorKey context filter cursor) (listedRecords read.service.state.file context filter read.nowMs) = left)
    (hitems : read.page.items = left.take read.limit)
    (hnext : read.page.nextCursor = if read.limit < left.length then
      read.page.items.getLast?.map fun r => encodeCursor ⟨1, queryFingerprint context, filter, r.createdAtMs, r.id⟩ else none)
    (hunread : read.page.unreadCount = visibleUnreadCount read.service.state.file context read.nowMs)
    (hrevision : read.page.revision = read.service.state.file.revision) : read.Answers context filter cursor := by
  obtain ⟨page, hpage⟩ := list_answers hcursor hlimit read.service read.nowMs
  obtain ⟨-, hitems', hnext', hunread', hrevision'⟩ := list_spec (Prod.ext hpage rfl)
  have hsame : page.items = read.page.items := by rw [hitems', hleft, hitems]
  have hcursors : page.nextCursor = read.page.nextCursor := by rw [hnext', hsame, hleft, hnext]
  have heq : page = read.page := by
    calc page = ⟨page.items, page.nextCursor, page.unreadCount, page.revision⟩ := rfl
      _ = read.page := by rw [hsame, hcursors, hunread', ← hunread, hrevision', ← hrevision]
  rw [PageRead.Answers, hpage, heq]

/-- A reading from a cursor to the last page: each page is asked for with the cursor of the one
before. Between two pages the service may have done anything. -/
inductive ReadsPages (context : ViewContext) (filter : NotificationFilter) : Option String → List PageRead → Prop
  | last {cursor : Option String} {read : PageRead} (hlist : read.Answers context filter cursor)
      (hend : read.page.nextCursor = none) : ReadsPages context filter cursor [read]
  | more {cursor : Option String} {read : PageRead} {next : String} {reads : List PageRead}
      (hlist : read.Answers context filter cursor) (hnext : read.page.nextCursor = some next)
      (hreads : ReadsPages context filter (some next) reads) : ReadsPages context filter cursor (read :: reads)

section Valid

variable {file file' : NotificationFileV1} {record : NotificationRecord}

theorem validPartitions_iff : file.validPartitions = true ↔
    (∀ p ∈ file.partitions, p.items.length ≤ 1000 ∧ p.scope.validate = true ∧
      ∀ record ∈ p.items, record.validate = true ∧ record.scope = p.scope) ∧
    (file.partitions.map (·.scope)).Nodup ∧ (file.records.map (·.2.id)).Nodup ∧ (file.creatingSources.map (·.1)).Nodup := by
  simp only [NotificationFileV1.validPartitions, Bool.and_eq_true, List.all_eq_true, decide_eq_true_eq, and_assoc]

/-- Where records are removed the partitions stay valid. -/
theorem Removal.validPartitions (h : Removal file file') (hvalid : file.validPartitions = true) : file'.validPartitions = true := by
  obtain ⟨hpartitions, hscopes, hids, hsources⟩ := validPartitions_iff.1 hvalid
  have hscopes' : (file'.partitions.map (·.scope)).Nodup := hscopes.sublist h.scopes
  obtain ⟨left, hperm, hsublist⟩ := h.records
  refine validPartitions_iff.2 ⟨fun p hp => ?_, hscopes', (hperm.map _).nodup_iff.1 (hids.sublist (hsublist.map _)), ?_⟩
  · -- its scope had a partition before, with at least its records
    obtain ⟨q, hq, hscope⟩ := List.mem_map.1 (h.scopes.subset (List.mem_map_of_mem hp))
    obtain ⟨hlength, hqscope, hrecords⟩ := hpartitions q hq
    refine ⟨?_, hscope ▸ hqscope, fun record hrecord => ?_⟩
    · have hle := (h.records.filter fun sr => sr.1 = p.scope).length_le
      have hlengths := recordsIn_of_mem hscopes' hp
      have hlengths' := recordsIn_of_mem hscopes hq
      rw [hscope] at hlengths'
      unfold NotificationFileV1.recordsIn at hlengths hlengths'
      omega
    · have hmem : (p.scope, record) ∈ file.records := h.records.subset (mem_recordsOf.2 ⟨p, hp, rfl, hrecord⟩)
      obtain ⟨q', hq', hscope', hrecord'⟩ := mem_recordsOf.1 hmem
      obtain ⟨hvalidate, hrscope⟩ := (hpartitions q' hq').2.2 record hrecord'
      exact ⟨hvalidate, hrscope.trans hscope'⟩
  · exact ((hperm.filterMap _).map _).nodup_iff.1 (hsources.sublist ((hsublist.filterMap _).map _))

theorem validate_of_visible (hfile : file.validPartitions = true) (h : record ∈ visibleRecords file context) :
    record.validate = true := by
  obtain ⟨partition, hpartition, hrecord⟩ := List.mem_flatMap.1 h
  exact (((validPartitions_iff.1 hfile).1 partition (List.mem_filter.1 hpartition).1).2.2 record hrecord).1

theorem record_id_ne (h : record.validate = true) : record.id ≠ "" := by
  intro hid
  simp only [NotificationRecord.validate, Bool.and_eq_true, hid] at h
  have hempty : isGeneratedUuid "" = false := by decide
  simp [hempty] at h

theorem record_createdAtMs_lt (h : record.validate = true) : record.createdAtMs < 2 ^ 64 := by
  simp only [NotificationRecord.validate, Bool.and_eq_true, isSafeTimestamp, decide_eq_true_eq] at h
  omega

theorem validPartitions_of_validateFile (h : file.validateFile = true) : file.validPartitions = true := by
  simp only [NotificationFileV1.validateFile, Bool.and_eq_true] at h
  exact h.1.2

/-- The keys of valid partitions are all different, since the ids are. -/
theorem nodup_listed (hfile : file.validPartitions = true) : ((listedRecords file context filter nowMs).map recordKey).Nodup := by
  have hids := (validPartitions_iff.1 hfile).2.2.1
  have hrecords : file.records.map (·.2.id) = (file.partitions.flatMap (·.items)).map (·.id) := by
    rw [NotificationFileV1.records, List.map_flatMap, List.map_flatMap]
    exact congrArg (file.partitions.flatMap ·) (funext fun partition => List.map_map)
  have hsublist : (listedRecords file context filter nowMs).Sublist (file.partitions.flatMap (·.items)) :=
    List.filter_sublist.trans (List.filter_sublist.flatMap _)
  have hkeys : (((file.partitions.flatMap (·.items)).map recordKey).map fun k => (ofLex (OrderDual.ofDual k)).2).Nodup := by
    rw [List.map_map]
    exact hrecords ▸ hids
  exact (List.Nodup.of_map _ hkeys).sublist (hsublist.map recordKey)

end Valid

variable {reads : List PageRead}

/-- A record that is listed has a cursor that is taken back. -/
theorem decodeCursor_record (context : ViewContext) (filter : NotificationFilter) {record : NotificationRecord}
    (h : record.validate = true) :
    decodeCursor (encodeCursor ⟨1, queryFingerprint context, filter, record.createdAtMs, record.id⟩) (queryFingerprint context) filter =
      .ok ⟨1, queryFingerprint context, filter, record.createdAtMs, record.id⟩ :=
  decodeCursor_encodeCursor (c := ⟨1, queryFingerprint context, filter, record.createdAtMs, record.id⟩) rfl (record_id_ne h)
    (record_createdAtMs_lt h)

/-- The last page has all that is left. -/
theorem items_of_last (h : (runFrom (NotificationService.list context ⟨context.accountId, filter, cursor, limit⟩ nowMs) s).1 = .ok page)
    (hend : page.nextCursor = none) :
    page.items = behind recordKey (cursorKey context filter cursor) (listedRecords s.state.file context filter nowMs) := by
  obtain ⟨hlimit, hitems, hnext, -⟩ := list_spec (Prod.ext h rfl)
  rw [hitems]
  refine List.take_of_length_le ?_
  by_contra hmore
  rw [hend, if_pos (not_le.1 hmore), eq_comm, Option.map_eq_none_iff, hitems, List.getLast?_eq_none_iff,
    List.take_eq_nil_iff] at hnext
  rcases hnext with hzero | hnil
  · omega
  · rw [hnil] at hmore
    exact hmore (Nat.zero_le _)

/-- The next page takes up behind the last record of this one. -/
theorem next_spec (hvalid : s.state.file.validPartitions = true)
    (h : (runFrom (NotificationService.list context ⟨context.accountId, filter, cursor, limit⟩ nowMs) s).1 = .ok page) {next : String}
    (hnext : page.nextCursor = some next) :
    Resumes context filter (some next) ∧ ∃ record, page.items.getLast? = some record ∧
      record ∈ behind recordKey (cursorKey context filter cursor) (listedRecords s.state.file context filter nowMs) ∧
      cursorKey context filter (some next) = some (recordKey record) := by
  obtain ⟨-, hitems, hcursor, -⟩ := list_spec (Prod.ext h rfl)
  rw [hnext] at hcursor
  split_ifs at hcursor with hmore
  obtain ⟨record, hlast, rfl⟩ := Option.map_eq_some_iff.1 hcursor.symm
  have hrecord := List.mem_of_getLast? hlast
  rw [hitems] at hrecord
  have hbehind := List.mem_of_mem_take hrecord
  have hvisible : record ∈ visibleRecords s.state.file context := (List.mem_filter.1 (mem_behind.1 hbehind).1).1
  have hdecode := decodeCursor_record context filter (validate_of_visible hvalid hvisible)
  refine ⟨fun text htext => ?_, record, hlast, hbehind, ?_⟩
  · obtain rfl := Option.some.inj htext
    exact ⟨_, rfl, hdecode⟩
  · rw [cursorKey, Option.bind_some, hdecode]
    rfl

/-- A reading walks through the pages of what it is about. -/
theorem ReadsPages.walk (h : ReadsPages context filter cursor reads)
    (hvalid : ∀ read ∈ reads, read.service.state.file.validPartitions = true) :
    Walk recordKey (cursorKey context filter cursor) (reads.map (PageRead.visit context filter)) := by
  induction h with
  | last hlist hend =>
    rw [List.map_singleton, PageRead.visit, items_of_last hlist hend]
    exact .last
  | more hlist hnext hreads ih =>
    obtain ⟨-, record, hlast, -, hkey⟩ := next_spec (hvalid _ List.mem_cons_self) hlist hnext
    have hwalk := ih fun read hread => hvalid read (List.mem_cons_of_mem _ hread)
    rw [hkey] at hwalk
    obtain ⟨-, hitems, -⟩ := list_spec (Prod.ext hlist rfl)
    rw [hitems] at hlast
    rw [List.map_cons, PageRead.visit, hitems]
    exact .more hlast hwalk

/-- A service that is left alone is read to its last page: with each page less is left. -/
theorem reading_ends (nowMs : ℕ) (hvalid : s.state.file.validPartitions = true) (hlimit : 1 ≤ limit ∧ limit ≤ 100)
    (hcursor : Resumes context filter cursor) :
    ∃ reads, ReadsPages context filter cursor reads ∧
      ∀ read ∈ reads, read.service = s ∧ read.limit = limit ∧ read.nowMs = nowMs ∧ read.page.items.length ≤ limit := by
  induction hleft : (behind recordKey (cursorKey context filter cursor) (listedRecords s.state.file context filter nowMs)).length
    using Nat.strong_induction_on generalizing cursor with
  | _ left ih =>
    obtain ⟨page, hlist⟩ := list_answers hcursor hlimit s nowMs
    have hpage : page.items.length ≤ limit := by
      obtain ⟨-, hitems, -⟩ := list_spec (Prod.ext hlist rfl)
      rw [hitems]
      exact List.length_take_le _ _
    cases hnext : page.nextCursor with
    | none => exact ⟨[⟨s, limit, nowMs, page⟩], .last hlist hnext, by simpa using hpage⟩
    | some next =>
      obtain ⟨hresumes, record, -, hbehind, hkey⟩ := next_spec hvalid hlist hnext
      have hless := length_behind_lt hbehind
      rw [← hkey, hleft] at hless
      obtain ⟨reads, hreads, hsame⟩ := ih _ hless hresumes rfl
      exact ⟨⟨s, limit, nowMs, page⟩ :: reads, .more hlist hnext hreads, List.forall_mem_cons.2 ⟨⟨rfl, rfl, rfl, hpage⟩, hsame⟩⟩

/-! ## What a reading lists -/

/-- The service after some calls, started from a file that was checked. The store saves no file
that does not pass its check. -/
def Reached (K : NotificationCrates) (s : NotificationService) : Prop :=
  ∃ file lastPrunedAtMs calls, file.validateFile = true ∧
    s = NotificationService.run K (NotificationService.fromSnapshot K file lastPrunedAtMs) calls ∧
    ∀ handed ∈ s.handed, handed.2 = true → handed.1.validateFile = true

/-- Its file is the one saved last, or what was left of the first. -/
theorem Reached.validPartitions {K : NotificationCrates} (h : Reached K s) : s.state.file.validPartitions = true := by
  obtain ⟨file, lastPrunedAtMs, calls, hfile, rfl, hstore⟩ := h
  have hcurrent := (ledger_run (K := K) (ledger_fromSnapshot K hfile lastPrunedAtMs) calls).current
  generalize NotificationService.run K (NotificationService.fromSnapshot K file lastPrunedAtMs) calls = s at hstore hcurrent ⊢
  rw [hcurrent]
  rcases List.eq_nil_or_concat s.saved with hnone | ⟨others, last, hsaved⟩
  · have hpartitions : file.validPartitions = true := validPartitions_of_validateFile hfile
    rw [hnone, List.getLastD_nil]
    exact (fromSnapshot_spec K hfile lastPrunedAtMs).1.validPartitions hpartitions
  · rw [List.concat_eq_append] at hsaved
    have hlast : last ∈ s.saved := hsaved ▸ List.mem_concat_self
    obtain ⟨handed, hhanded, rfl⟩ := List.mem_map.1 hlast
    obtain ⟨hmem, hok⟩ := List.mem_filter.1 hhanded
    rw [hsaved, List.getLastD_concat]
    exact validPartitions_of_validateFile (hstore handed hmem hok)

theorem reached_sample : Reached sampleNotificationCrates sampleNotificationService := by
  have hfile : sampleNotificationFile.validateFile = true := by decide +kernel
  refine ⟨sampleNotificationFile, 0, [], hfile, rfl, fun handed hmem => ?_⟩
  rw [sampleNotificationService, (fromSnapshot_spec sampleNotificationCrates hfile 0).2.2.1] at hmem
  cases hmem

theorem listed_sample :
    listedRecords sampleNotificationService.state.file .global .unread 6 = [newerNotification, olderNotification] := by decide +kernel

/-- **A service that is left alone is read in full**: with any limit the reading, in which each page is
asked for with that limit and the cursor of the one before, ends, and its pages one after the other are
the records in order. -/
theorem reading_whole (K : NotificationCrates) (s : NotificationService) (hreached : Reached K s) (context : ViewContext)
    (filter : NotificationFilter) (limit nowMs : ℕ) (hlimit : 1 ≤ limit ∧ limit ≤ 100) :
    ∃ reads, ReadsPages context filter none reads ∧
      (∀ read ∈ reads, read.service = s ∧ read.limit = limit ∧ read.nowMs = nowMs ∧ read.page.items.length ≤ limit) ∧
      reads.flatMap (·.page.items) = sortOn recordKey (listedRecords s.state.file context filter nowMs) := by
  have hvalid := hreached.validPartitions
  have hstarts : Resumes context filter none := resumes_none
  obtain ⟨reads, hreads, hsame⟩ := reading_ends nowMs hvalid hlimit hstarts
  have hwalk := hreads.walk fun read hread => (hsame read hread).1 ▸ hvalid
  have hpresent : ∀ v ∈ reads.map (PageRead.visit context filter), v.present = listedRecords s.state.file context filter nowMs := by
    intro v hv
    obtain ⟨read, hread, rfl⟩ := List.mem_map.1 hv
    obtain ⟨rfl, -, rfl, -⟩ := hsame read hread
    rfl
  have hwhole := hwalk.eq_behind (nodup_listed hvalid) hpresent
  have hstart : cursorKey context filter none = none := rfl
  rw [List.flatMap_map, hstart, behind_none] at hwhole
  exact ⟨reads, hreads, hsame, hwhole⟩

/-- Two records, one on a page. -/
theorem reading_whole_sample : ∃ reads, ReadsPages .global .unread none reads ∧ 2 ≤ reads.length ∧
    (∀ read ∈ reads, read.limit = 1) ∧ reads.flatMap (·.page.items) = [newerNotification, olderNotification] := by
  obtain ⟨reads, hreads, hsame, hwhole⟩ := reading_whole sampleNotificationCrates sampleNotificationService reached_sample .global
    .unread 1 6 (by decide)
  have hsorted : sortOn recordKey (listedRecords sampleNotificationService.state.file .global .unread 6) =
      [newerNotification, olderNotification] := by
    rw [listed_sample]
    decide +kernel
  rw [hsorted] at hwhole
  refine ⟨reads, hreads, ?_, fun read hread => (hsame read hread).2.1, hwhole⟩
  rcases reads with _ | ⟨page, _ | ⟨next, others⟩⟩
  · cases hwhole
  · -- no page has both records
    have hpage := (hsame page (List.mem_singleton_self _)).2.2.2
    rw [List.flatMap_singleton] at hwhole
    rw [hwhole] at hpage
    exact absurd hpage (by decide)
  · simp

/-- **A reading lists what was there throughout**: over a whole reading the records come from the
newest to the oldest, each of them was there when its page was read, and a record that was there
for each page is listed exactly once, whatever the service did between the pages. -/
theorem pages_complete (K : NotificationCrates) (h : ReadsPages context filter none reads)
    (hreached : ∀ read ∈ reads, Reached K read.service) :
    (reads.flatMap (·.page.items)).Pairwise (fun newer older =>
      toLex (older.createdAtMs, older.id) < toLex (newer.createdAtMs, newer.id)) ∧
    (∀ read ∈ reads, ∀ record ∈ read.page.items,
      record ∈ listedRecords read.service.state.file context filter read.nowMs) ∧
    ∀ createdAtMs id, (∀ read ∈ reads, ∃ record ∈ listedRecords read.service.state.file context filter read.nowMs,
        record.createdAtMs = createdAtMs ∧ record.id = id) →
      ((reads.flatMap (·.page.items)).map fun record => (record.createdAtMs, record.id)).count (createdAtMs, id) = 1 := by
  have hvalid : ∀ read ∈ reads, read.service.state.file.validPartitions = true := fun read hread => (hreached read hread).validPartitions
  have hwalk := h.walk hvalid
  have hnodup : ∀ v ∈ reads.map (PageRead.visit context filter), (v.present.map recordKey).Nodup := by
    intro v hv
    obtain ⟨read, hread, rfl⟩ := List.mem_map.1 hv
    exact nodup_listed (hvalid read hread)
  have hpages : (reads.map (PageRead.visit context filter)).flatMap (·.page) = reads.flatMap (·.page.items) := List.flatMap_map ..
  have hordered := hwalk.ascending hnodup
  rw [hpages] at hordered
  refine ⟨hordered, fun read hread record hrecord => ?_, fun createdAtMs id hthere => ?_⟩
  · exact (hwalk.present _ (List.mem_map_of_mem hread) record hrecord).1
  · have hlisted := hwalk.listed (k := OrderDual.toDual (toLex (createdAtMs, id))) hnodup ?_ (by simp [cursorKey])
    · rw [hpages] at hlisted
      obtain ⟨record, hrecord, hkey⟩ := List.mem_map.1 hlisted
      have hpair : (record.createdAtMs, record.id) = (createdAtMs, id) := toLex.injective (OrderDual.toDual.injective hkey)
      have honce : ((reads.flatMap (·.page.items)).map fun record => (record.createdAtMs, record.id)).Nodup :=
        List.pairwise_map.2 (hordered.imp fun hlt heq => (OrderDual.toDual_lt_toDual.1 hlt).ne (congrArg toLex heq).symm)
      exact List.count_eq_one_of_mem honce (hpair ▸ List.mem_map_of_mem hrecord)
    · intro v hv
      obtain ⟨read, hread, rfl⟩ := List.mem_map.1 hv
      obtain ⟨record, hrecord, rfl, rfl⟩ := hthere read hread
      exact List.mem_map.2 ⟨record, hrecord, rfl⟩

/-- The page with the newer record, and the cursor behind it. -/
def firstPage : PageRead where
  service := sampleNotificationService
  limit := 1
  nowMs := 6
  page := ⟨[newerNotification],
    some (encodeCursor ⟨1, queryFingerprint .global, .unread, newerNotification.createdAtMs, newerNotification.id⟩), 2, 7⟩

/-- The next page, when the newer record has been read. -/
def secondPage : PageRead where
  service := NotificationService.run sampleNotificationCrates sampleNotificationService (readAndDelete.take 2)
  limit := 1
  nowMs := 10
  page := ⟨[olderNotification], none, 1, 8⟩

theorem pages_complete_sample : ReadsPages .global .unread none [firstPage, secondPage] ∧
    (firstPage.page.items ++ secondPage.page.items).Pairwise (fun newer older =>
      toLex (older.createdAtMs, older.id) < toLex (newer.createdAtMs, newer.id)) ∧
    ((firstPage.page.items ++ secondPage.page.items).map fun record => (record.createdAtMs, record.id)).count
      (olderNotification.createdAtMs, olderNotification.id) = 1 := by
  have hrecord : newerNotification.validate = true := by decide +kernel
  have hdecode := decodeCursor_record .global .unread hrecord
  have hreads : ReadsPages .global .unread none [firstPage, secondPage] := by
    refine .more ?_ rfl (.last ?_ rfl)
    · exact PageRead.answers_of resumes_none (by decide) [newerNotification, olderNotification] (by decide +kernel) rfl
        (by simp [firstPage]) (by decide +kernel) (by decide +kernel)
    · set c : CursorV1 := ⟨1, queryFingerprint .global, .unread, newerNotification.createdAtMs, newerNotification.id⟩
      have hcursor : Resumes .global .unread (some (encodeCursor c)) := by
        rintro text ⟨⟩
        exact ⟨c, rfl, hdecode⟩
      have hkey : cursorKey .global .unread (some (encodeCursor c)) = some (recordKey newerNotification) := by
        rw [cursorKey, Option.bind_some, hdecode]
        rfl
      refine PageRead.answers_of hcursor (by decide) [olderNotification] ?_ rfl (by simp [secondPage]) (by decide +kernel)
        (by decide +kernel)
      rw [hkey]
      decide +kernel
  have hsecond : Reached sampleNotificationCrates secondPage.service := by
    have hfile : sampleNotificationFile.validateFile = true := by decide +kernel
    exact ⟨sampleNotificationFile, 0, readAndDelete.take 2, hfile, rfl, by decide +kernel⟩
  have h := pages_complete sampleNotificationCrates hreads
    (List.forall_mem_cons.2 ⟨reached_sample, List.forall_mem_singleton.2 hsecond⟩)
  refine ⟨hreads, h.1, h.2.2 _ _ ?_⟩
  have hfirst : olderNotification ∈ listedRecords firstPage.service.state.file .global .unread firstPage.nowMs := by decide +kernel
  have hthen : olderNotification ∈ listedRecords secondPage.service.state.file .global .unread secondPage.nowMs := by decide +kernel
  exact List.forall_mem_cons.2 ⟨⟨_, hfirst, rfl, rfl⟩, List.forall_mem_singleton.2 ⟨_, hthen, rfl, rfl⟩⟩

end EasiFlux
