import ClawWorks.Harness.SessionStorage

/-!
# Session files

A session lives in a file of JSON lines: a header, then one line per row. Opening the file reads every line again.
-/

namespace ClawWorks

open SessionStorage List

/-! ## Lines -/

/-- The first line of a session file. -/
structure SessionHeader where
  id : JsString
  timestamp : JsString
  cwd : JsString
  parentSession : Option JsString
deriving DecidableEq, Repr

/-- A line of a session file, as the JSON value it spells: what `JSON.stringify` writes `JSON.parse` reads back. -/
inductive JsonlLine where
  | header (header : SessionHeader)
  | entry (entry : SessionTreeEntry)
deriving DecidableEq, Repr

/-- What is known of a session without its rows. -/
structure JsonlSessionMetadata where
  id : JsString
  createdAt : JsString
  cwd : JsString
  path : JsString
  parentSessionPath : Option JsString
deriving DecidableEq, Repr

structure FileError where
  notFound : Bool
  message : JsString

def fileFailure (error : FileError) (message : JsString) : SessionError :=
  ⟨if error.notFound then .notFound else .storage, message ++ js ": " ++ error.message⟩

def invalidSession (filePath message : JsString) : SessionError :=
  ⟨.invalidSession, js "Invalid JSONL session file " ++ filePath ++ js ": " ++ message⟩

def invalidEntry (filePath : JsString) (lineNumber : Nat) (message : JsString) : SessionError :=
  ⟨.invalidEntry, js "Invalid JSONL session file " ++ filePath ++ js ": line " ++ js (toString lineNumber) ++ js " " ++
    message⟩

section Reading

variable [DateParse]

def parseHeaderLine (line : JsonlLine) (filePath : JsString) : Except SessionError SessionHeader :=
  match line with
  | .entry entry =>
    -- A row of a plugin may be of a type that is called as a header's is.
    match entry.body with
    | .unknown type =>
      if type.val = js "session" then .error (invalidSession filePath (js "unsupported session version"))
      else .error (invalidSession filePath (js "first line is not a valid session header"))
    | _ => .error (invalidSession filePath (js "first line is not a valid session header"))
  | .header header =>
    if header.id = [] then .error (invalidSession filePath (js "session header is missing id"))
    else if header.timestamp = [] then .error (invalidSession filePath (js "session header is missing timestamp"))
    else if parseSessionTimestampMs header.timestamp = none then
      .error (invalidSession filePath (js "session header has invalid timestamp"))
    else if header.cwd = [] then .error (invalidSession filePath (js "session header is missing cwd"))
    else .ok header

/-- Read the line of a row. -/
def parseEntryLine (line : JsonlLine) (filePath : JsString) (lineNumber : Nat) :
    Except SessionError SessionTreeEntry :=
  match line with
  | .header header =>
    -- A header has a type, and no parent.
    if header.id = [] then .error (invalidEntry filePath lineNumber (js "is missing entry id"))
    else .error (invalidEntry filePath lineNumber (js "has invalid parentId"))
  | .entry entry =>
    if entry.id = [] then .error (invalidEntry filePath lineNumber (js "is missing entry id"))
    else if entry.timestamp = [] then .error (invalidEntry filePath lineNumber (js "is missing timestamp"))
    else if parseSessionTimestampMs entry.timestamp = none then
      .error (invalidEntry filePath lineNumber (js "has invalid timestamp"))
    else .ok entry

def headerToSessionMetadata (header : SessionHeader) (path : JsString) : JsonlSessionMetadata where
  id := header.id
  createdAt := header.timestamp
  cwd := header.cwd
  path := path
  parentSessionPath := header.parentSession

/-- The rows read so far, with both cursors. -/
structure LoadedRows where
  entries : List SessionTreeEntry := []
  leafId : Option JsString := none
  appendParentId : Option JsString := none

def LoadedRows.read (filePath : JsString) (loaded : LoadedRows) (line : JsonlLine × Nat) :
    Except SessionError LoadedRows := do
  let entry ← parseEntryLine line.1 filePath line.2
  return {
    entries := loaded.entries ++ [entry]
    leafId := (leafIdUpdateAfterEntry entry).getD loaded.leafId
    appendParentId := appendParentIdAfterEntry entry }

/-- A storage with the metadata of its file. -/
structure JsonlSessionStorage where
  metadata : JsonlSessionMetadata
  base : SessionStorage
deriving DecidableEq, Repr

def openJsonlStorage (filePath : JsString) : List JsonlLine → Except SessionError JsonlSessionStorage
  | [] => .error (invalidSession filePath (js "missing session header"))
  | first :: lines => do
    let header ← parseHeaderLine first filePath
    let loaded ← (lines.zipIdx 2).foldlM (LoadedRows.read filePath) {}
    let base ← create loaded.entries loaded.leafId loaded.appendParentId
    return { metadata := headerToSessionMetadata header filePath, base := base }

end Reading

/-! ## A live session and its file -/

/-- The storage of a session, and the lines of its file. -/
structure JsonlSession where
  storage : JsonlSessionStorage
  file : List JsonlLine

/-- A text that `Date.toISOString` wrote: the language reads it back. -/
abbrev IsoTimestamp [DateParse] := {text : JsString // parseSessionTimestampMs text ≠ none}

/-- What one call takes from outside: the UUIDs it draws, the time, and whether its write fails. -/
structure CallEnvironment [DateParse] where
  uuidv7 : Nat → SessionStorage.Uuid
  now : IsoTimestamp
  failure : Option FileError := none

/-- The options of a new session file. -/
structure CreateOptions where
  cwd : JsString
  sessionId : JsString
  parentSessionPath : Option JsString := none

inductive StorageCall where
  | appendEntry (entry : SessionTreeEntry)
  | setLeafId (leafId : Option JsString)

section Runs

variable [DateParse]

namespace JsonlSession

def create (filePath : JsString) (options : CreateOptions) (now : IsoTimestamp) : JsonlSession :=
  let header : SessionHeader :=
    { id := options.sessionId, timestamp := now, cwd := options.cwd, parentSession := options.parentSessionPath }
  { storage := { metadata := headerToSessionMetadata header filePath, base := .empty }
    file := [.header header] }

/-- Append one line to the file, and then record its row. -/
def writeAndRecord (session : JsonlSession) (entry : SessionTreeEntry) (failure : Option FileError)
    (message : JsString) : Except SessionError Unit × JsonlSession :=
  match failure with
  | some error => (.error (fileFailure error message), session)
  | none =>
    let written := { session with file := session.file ++ [.entry entry] }
    match session.storage.base.recordEntry entry with
    | .error error => (.error error, written)
    | .ok base => (.ok (), { written with storage := { session.storage with base := base } })

/-- Persist a row that selects a leaf. -/
def setLeafId (session : JsonlSession) (leafId : Option JsString) (environment : CallEnvironment) :
    Except SessionError Unit × JsonlSession :=
  match session.storage.base.createLeafEntry environment.uuidv7 environment.now leafId with
  | .error error => (.error error, session)
  | .ok entry =>
    session.writeAndRecord entry environment.failure (js "Failed to append session leaf " ++ entry.id)

/-- Persist a row. -/
def appendEntry (session : JsonlSession) (entry : SessionTreeEntry) (environment : CallEnvironment) :
    Except SessionError Unit × JsonlSession :=
  match session.storage.base.validateEntryForAppend entry with
  | .error error => (.error error, session)
  | .ok () =>
    session.writeAndRecord entry environment.failure (js "Failed to append session entry " ++ entry.id)

def perform (session : JsonlSession) (call : StorageCall) (environment : CallEnvironment) :
    Except SessionError Unit × JsonlSession :=
  match call with
  | .appendEntry entry => session.appendEntry entry environment
  | .setLeafId leafId => session.setLeafId leafId environment

def afterCalls (session : JsonlSession) (calls : List (StorageCall × CallEnvironment)) : JsonlSession :=
  calls.foldl (fun session call => (session.perform call.1 call.2).2) session

variable {session : JsonlSession} {call : StorageCall} {environment : CallEnvironment} {entry : SessionTreeEntry}

/-- The session after a row went through. -/
def append (session : JsonlSession) (entry : SessionTreeEntry) : JsonlSession where
  storage := { session.storage with base := session.storage.base.pushEntry entry }
  file := session.file ++ [.entry entry]

omit [DateParse] in
theorem writeAndRecord_of_valid (h : session.storage.base.validateEntryForAppend entry = .ok ())
    (failure : Option FileError) (message : JsString) :
    (∃ error, session.writeAndRecord entry failure message = (.error error, session)) ∨
      session.writeAndRecord entry failure message = (.ok (), session.append entry) := by
  cases failure with
  | some error => exact .inl ⟨_, rfl⟩
  | none =>
    right
    rw [writeAndRecord, recordEntry_eq_ok.mpr ⟨h, rfl⟩]
    rfl

/-- **A call fails and changes nothing, or it appends one row**: the one it was given, or one that selects a leaf. -/
theorem perform_cases (session : JsonlSession) (call : StorageCall) (environment : CallEnvironment) :
    (∃ error, session.perform call environment = (.error error, session)) ∨
      ∃ entry, session.perform call environment = (.ok (), session.append entry) ∧
        session.storage.base.validateEntryForAppend entry = .ok () ∧
        (call = .appendEntry entry ∨ ∃ leafId, call = .setLeafId leafId ∧
          session.storage.base.createLeafEntry environment.uuidv7 environment.now leafId = .ok entry) := by
  cases call with
  | appendEntry entry =>
    rw [perform, appendEntry]
    cases hvalid : session.storage.base.validateEntryForAppend entry with
    | error error => exact .inl ⟨error, rfl⟩
    | ok _ =>
      rcases writeAndRecord_of_valid hvalid environment.failure (js "Failed to append session entry " ++ entry.id) with
        hfailed | hwritten
      · exact .inl hfailed
      · exact .inr ⟨entry, hwritten, hvalid, .inl rfl⟩
  | setLeafId leafId =>
    rw [perform, setLeafId]
    cases hcreated : session.storage.base.createLeafEntry environment.uuidv7 environment.now leafId with
    | error error => exact .inl ⟨error, rfl⟩
    | ok entry =>
      have hvalid := validateEntryForAppend_of_createLeafEntry hcreated
      rcases writeAndRecord_of_valid hvalid environment.failure (js "Failed to append session leaf " ++ entry.id) with
        hfailed | hwritten
      · exact .inl hfailed
      · exact .inr ⟨entry, hwritten, hvalid, .inr ⟨leafId, rfl, hcreated⟩⟩

theorem perform_failed {error : SessionError} (h : (session.perform call environment).1 = .error error) :
    (session.perform call environment).2 = session := by
  rcases perform_cases session call environment with ⟨_, hfailed⟩ | ⟨_, happended, -⟩
  · rw [hfailed]
  · rw [happended] at h
    cases h

end JsonlSession

/-- What the reader asks of the line of a row. -/
structure ReadableEntry (entry : SessionTreeEntry) : Prop where
  id : Truthy entry.id
  timestamp : parseSessionTimestampMs entry.timestamp ≠ none

theorem ne_nil_of_parse {value : JsString} (h : parseSessionTimestampMs value ≠ none) : value ≠ [] := by
  rintro rfl
  exact h rfl

theorem parseEntryLine_eq_ok {entry row : SessionTreeEntry} {filePath : JsString} {lineNumber : Nat} :
    parseEntryLine (.entry entry) filePath lineNumber = .ok row ↔ ReadableEntry entry ∧ row = entry := by
  rw [parseEntryLine]
  constructor
  · intro h
    split_ifs at h with hid htimestamp hparse
    exact ⟨⟨hid, hparse⟩, (Except.ok.inj h).symm⟩
  · rintro ⟨hreadable, rfl⟩
    rw [if_neg hreadable.id, if_neg (ne_nil_of_parse hreadable.timestamp), if_neg hreadable.timestamp]

theorem parseHeaderLine_eq_ok {header parsed : SessionHeader} {filePath : JsString} :
    parseHeaderLine (.header header) filePath = .ok parsed ↔
      (Truthy header.id ∧ parseSessionTimestampMs header.timestamp ≠ none ∧ Truthy header.cwd) ∧ parsed = header := by
  rw [parseHeaderLine]
  constructor
  · intro h
    split_ifs at h with hid htimestamp hparse hcwd
    exact ⟨⟨hid, hparse, hcwd⟩, (Except.ok.inj h).symm⟩
  · rintro ⟨⟨hid, hparse, hcwd⟩, rfl⟩
    rw [if_neg hid, if_neg (ne_nil_of_parse hparse), if_neg hparse, if_neg hcwd]

def LoadedRows.of (entries : List SessionTreeEntry) : LoadedRows :=
  ⟨entries, resolveLeafId entries, resolveAppendParentId entries⟩

theorem foldlM_read_eq_ok {filePath : JsString} {before entries : List SessionTreeEntry} {lineNumber : Nat}
    {loaded : LoadedRows} :
    ((entries.map JsonlLine.entry).zipIdx lineNumber).foldlM (LoadedRows.read filePath) (.of before) = .ok loaded ↔
      (∀ entry ∈ entries, ReadableEntry entry) ∧ loaded = .of (before ++ entries) := by
  induction entries generalizing before lineNumber with
  | nil =>
    rw [append_nil]
    exact ⟨fun h => ⟨fun _ hmem => (nomatch hmem), (Except.ok.inj h).symm⟩, fun h => congrArg _ h.2.symm⟩
  | cons entry entries ih =>
    have hread : ∀ next, LoadedRows.read filePath (.of before) (.entry entry, lineNumber) = .ok next ↔
        ReadableEntry entry ∧ next = .of (before ++ [entry]) := by
      intro next
      have hof : LoadedRows.of (before ++ [entry]) =
          ⟨before ++ [entry], (leafIdUpdateAfterEntry entry).getD (resolveLeafId before),
            appendParentIdAfterEntry entry⟩ := by
        simp only [LoadedRows.of, resolveLeafId, resolveAppendParentId, foldl_concat]
      rw [hof, LoadedRows.read, Except.bind_eq_ok]
      constructor
      · rintro ⟨row, hrow, hnext⟩
        obtain ⟨hreadable, rfl⟩ := parseEntryLine_eq_ok.mp hrow
        exact ⟨hreadable, (Except.ok.inj hnext).symm⟩
      · rintro ⟨hreadable, rfl⟩
        exact ⟨entry, parseEntryLine_eq_ok.mpr ⟨hreadable, rfl⟩, rfl⟩
    rw [map_cons, zipIdx_cons, foldlM_cons, Except.bind_eq_ok, forall_mem_cons]
    constructor
    · rintro ⟨next, hnext, hrest⟩
      obtain ⟨hreadable, rfl⟩ := (hread next).mp hnext
      obtain ⟨hall, hloaded⟩ := ih.mp hrest
      exact ⟨⟨hreadable, hall⟩, by rw [hloaded, append_assoc, singleton_append]⟩
    · rintro ⟨⟨hreadable, hall⟩, hloaded⟩
      refine ⟨_, (hread _).mpr ⟨hreadable, rfl⟩, ih.mpr ⟨hall, ?_⟩⟩
      rw [hloaded, append_assoc, singleton_append]

namespace JsonlSession

/-- The file of a live session: its header and its rows, with the indexes that reading them would compute. -/
structure Written (filePath : JsString) (header : SessionHeader) (session : JsonlSession) : Prop where
  file : session.file = .header header :: session.storage.base.entries.map .entry
  metadata : session.storage.metadata = headerToSessionMetadata header filePath
  reloaded : session.storage.base = .reloaded session.storage.base.entries
  leaf : ∀ id, session.storage.base.leafId = some id → session.storage.base.Has id
  appendParent : ∀ id, session.storage.base.appendParentId = some id → session.storage.base.Has id

variable {session : JsonlSession} {entry : SessionTreeEntry} {filePath : JsString} {header : SessionHeader}

omit [DateParse] in
theorem Written.append (h : session.Written filePath header)
    (hvalid : session.storage.base.validateEntryForAppend entry = .ok ()) :
    (session.append entry).Written filePath header := by
  obtain ⟨hleaf, hparent⟩ := validateEntryForAppend_eq_ok.mp hvalid
  have hhas : ∀ id cursor, session.storage.base.Anchored entry cursor → cursor = some id →
      (session.storage.base.pushEntry entry).Has id := by
    intro id cursor hcursor hid
    rcases hcursor id hid with ⟨-, rfl⟩ | hold
    · exact has_pushEntry.mpr (.inl rfl)
    · exact has_pushEntry.mpr (.inr hold)
  refine ⟨?_, h.metadata, ?_, fun id hid => ?_, fun id hid => hhas id _ hparent hid⟩
  · change session.file ++ [_] = _ :: (session.storage.base.entries ++ [entry]).map _
    rw [h.file, map_append, map_singleton, cons_append]
  · change session.storage.base.pushEntry entry = .reloaded (session.storage.base.entries ++ [entry])
    rw [reloaded_append, ← h.reloaded]
  · change (leafIdUpdateAfterEntry entry).getD session.storage.base.leafId = some id at hid
    cases hupdate : leafIdUpdateAfterEntry entry with
    | none =>
      rw [hupdate] at hid
      exact has_pushEntry.mpr (.inr (h.leaf id hid))
    | some update =>
      rw [hupdate] at hid hleaf
      exact hhas id _ hleaf hid

theorem Written.afterCalls (h : session.Written filePath header) (calls : List (StorageCall × CallEnvironment)) :
    (session.afterCalls calls).Written filePath header := by
  induction calls generalizing session with
  | nil => exact h
  | cons call calls ih =>
    rcases perform_cases session call.1 call.2 with ⟨_, hfailed⟩ | ⟨entry, happended, hvalid, -⟩
    · rw [JsonlSession.afterCalls, foldl_cons, hfailed]
      exact ih h
    · rw [JsonlSession.afterCalls, foldl_cons, happended]
      exact ih (h.append hvalid)

theorem Written.open_iff (h : session.Written filePath header) :
    openJsonlStorage filePath session.file = .ok session.storage ↔
      (Truthy header.id ∧ parseSessionTimestampMs header.timestamp ≠ none ∧ Truthy header.cwd) ∧
        ∀ entry ∈ session.storage.base.entries, ReadableEntry entry := by
  have hcreate : SessionStorage.create session.storage.base.entries (resolveLeafId session.storage.base.entries)
      (resolveAppendParentId session.storage.base.entries) = .ok session.storage.base := by
    have hreloaded := h.reloaded
    have hleaf : resolveLeafId session.storage.base.entries = session.storage.base.leafId :=
      (congrArg SessionStorage.leafId hreloaded).symm
    have hparent : resolveAppendParentId session.storage.base.entries = session.storage.base.appendParentId :=
      (congrArg appendParentId hreloaded).symm
    exact create_eq_ok.mpr
      ⟨fun id hid => hreloaded ▸ h.leaf id (hleaf ▸ hid), fun id hid => hreloaded ▸ h.appendParent id (hparent ▸ hid),
        hreloaded⟩
  have hempty : ({} : LoadedRows) = .of [] := rfl
  rw [h.file, openJsonlStorage, Except.bind_eq_ok, hempty]
  constructor
  · rintro ⟨parsed, hparsed, hrest⟩
    obtain ⟨loaded, hloaded, -⟩ := Except.bind_eq_ok.mp hrest
    exact ⟨(parseHeaderLine_eq_ok.mp hparsed).1, (foldlM_read_eq_ok.mp hloaded).1⟩
  · rintro ⟨hheader, hrows⟩
    refine ⟨header, parseHeaderLine_eq_ok.mpr ⟨hheader, rfl⟩,
      Except.bind_eq_ok.mpr ⟨.of session.storage.base.entries, ?_, ?_⟩⟩
    · exact foldlM_read_eq_ok.mpr ⟨hrows, rfl⟩
    · refine Except.bind_eq_ok.mpr ⟨_, hcreate, ?_⟩
      rw [← h.metadata]
      rfl

def AppendsReadable (session : JsonlSession) (calls : List (StorageCall × CallEnvironment)) : Prop :=
  ∀ before entry environment after, calls = before ++ (.appendEntry entry, environment) :: after →
    ((session.afterCalls before).perform (.appendEntry entry) environment).1 = .ok () → ReadableEntry entry

theorem appendsReadable_concat {calls : List (StorageCall × CallEnvironment)} {call : StorageCall × CallEnvironment} :
    session.AppendsReadable (calls ++ [call]) ↔ session.AppendsReadable calls ∧ ∀ entry, call.1 = .appendEntry entry →
        ((session.afterCalls calls).perform call.1 call.2).1 = .ok () → ReadableEntry entry := by
  constructor
  · intro h
    refine ⟨fun before entry environment after hcalls => ?_, fun entry hentry => ?_⟩
    · exact h before entry environment (after ++ [call]) (by rw [hcalls, append_assoc, cons_append])
    · obtain ⟨_, environment⟩ := call
      cases hentry
      exact h calls entry environment [] rfl
  · rintro ⟨hcalls, hlast⟩ before entry environment after hsplit
    rcases eq_nil_or_concat after with rfl | ⟨after, last, rfl⟩
    · obtain ⟨rfl, hcall⟩ := append_inj' hsplit rfl
      obtain rfl := singleton_inj.mp hcall
      exact hlast entry rfl
    · rw [concat_eq_append, ← cons_append, ← append_assoc] at hsplit
      exact hcalls before entry environment after (append_inj' hsplit rfl).1

theorem entries_readable_iff (h : ∀ entry ∈ session.storage.base.entries, ReadableEntry entry)
    (calls : List (StorageCall × CallEnvironment)) :
    (∀ entry ∈ (session.afterCalls calls).storage.base.entries, ReadableEntry entry) ↔
      session.AppendsReadable calls := by
  induction calls using reverseRecOn with
  | nil => exact ⟨fun _ before entry environment after hsplit => (by simp at hsplit), fun _ => h⟩
  | append_singleton calls call ih =>
    rw [appendsReadable_concat, ← ih]
    have hlast : session.afterCalls (calls ++ [call]) = ((session.afterCalls calls).perform call.1 call.2).2 :=
      foldl_concat ..
    rw [hlast]
    rcases perform_cases (session.afterCalls calls) call.1 call.2 with
      ⟨error, hfailed⟩ | ⟨entry, happended, -, hcall⟩
    · rw [hfailed]
      exact ⟨fun hrows => ⟨hrows, fun entry _ hok => (nomatch hok)⟩, fun hrows => hrows.1⟩
    · have hentry : ReadableEntry entry ↔ ∀ appended, call.1 = .appendEntry appended → ReadableEntry appended := by
        rcases hcall with hcall | ⟨leafId, hcall, hcreated⟩
        · rw [hcall]
          exact ⟨fun hreadable appended happ => StorageCall.appendEntry.inj happ ▸ hreadable, fun hall => hall entry rfl⟩
        · rw [hcall]
          refine ⟨fun _ appended happ => (nomatch happ), fun _ => ?_⟩
          obtain ⟨-, rfl⟩ := createLeafEntry_eq_ok.mp hcreated
          exact ⟨generateEntryId_truthy _ _, call.2.now.property⟩
      rw [happended]
      change (∀ row ∈ _ ++ [entry], _) ↔ _
      rw [forall_mem_append, forall_mem_singleton, hentry]
      exact and_congr_right fun _ => forall₂_congr fun _ _ => ⟨fun hreadable _ => hreadable, fun hall => hall rfl⟩

/-- **A session file replays to the live session**, whatever calls went through or threw, exactly when the session was
given an id and a directory and no row was appended that the reader refuses. A call that throws changes nothing. -/
theorem replays_iff (filePath : JsString) (options : CreateOptions) (now : IsoTimestamp)
    (calls : List (StorageCall × CallEnvironment)) :
    (∀ call environment error,
      (((create filePath options now).afterCalls calls).perform call environment).1 = .error error →
        (((create filePath options now).afterCalls calls).perform call environment).2 =
          (create filePath options now).afterCalls calls) ∧
    (openJsonlStorage filePath ((create filePath options now).afterCalls calls).file =
        .ok ((create filePath options now).afterCalls calls).storage ↔
      Truthy options.sessionId ∧ Truthy options.cwd ∧ (create filePath options now).AppendsReadable calls) := by
  refine ⟨fun call environment error h => perform_failed h, ?_⟩
  have hcreated : (create filePath options now).Written filePath
      ⟨options.sessionId, now, options.cwd, options.parentSessionPath⟩ :=
    ⟨rfl, rfl, rfl, fun id hid => (nomatch hid), fun id hid => (nomatch hid)⟩
  rw [(hcreated.afterCalls calls).open_iff, entries_readable_iff (forall_mem_nil _)]
  exact ⟨fun ⟨⟨hid, _, hcwd⟩, hreadable⟩ => ⟨hid, hcwd, hreadable⟩,
    fun ⟨hid, hcwd, hreadable⟩ => ⟨⟨hid, now.property, hcwd⟩, hreadable⟩⟩

end JsonlSession

end Runs

section EmptyId

attribute [local instance] newYear

/-- A marker without an id. -/
def anonymousMarker : SessionTreeEntry where
  body := .custom (js "note")
  id := []
  parentId := none
  timestamp := js "2026-01-01T00:00:00.000Z"

/-- The append goes through, and the file does not open any more. -/
theorem anonymousMarker_not_replayed :
    ¬ ∀ (filePath : JsString) (options : CreateOptions) (now : IsoTimestamp)
      (calls : List (StorageCall × CallEnvironment)),
      openJsonlStorage filePath ((JsonlSession.create filePath options now).afterCalls calls).file =
        .ok ((JsonlSession.create filePath options now).afterCalls calls).storage := by
  intro h
  have hopened := h (js "/s.jsonl") ⟨js "/repo", js "session-1", none⟩ ⟨js "2026-01-01T00:00:00.000Z", by decide⟩
    [(.appendEntry anonymousMarker,
      ⟨fun _ => ⟨replicate 36 48, by decide⟩, ⟨js "2026-01-01T00:00:00.000Z", by decide⟩, none⟩)]
  revert hopened
  decide

end EmptyId

end ClawWorks
