/-
What RedStore stands on: Redland, and the state of the service.

Redland is not part of the program.  All that is asked of it is a `World`: for every
function of librdf and raptor that the program calls, what the call answers, what it leaves
of the storage, and what it logs while it runs.  A stream or an iterator is the list of
what consuming it brings up, objects and log messages; a NULL object is `none`.  What is
assumed of a world is said where it is used.

The state of the service is the storage and the globals of `globals.c`.  The last two
fields of `App` are not in the program: they record, for the statements about
`error_buffer`, what has been logged and what has been seen of the buffer.
-/
import RedStore.RedHttp.Server

namespace RedStore.Service
open CLib RedHttp

/-! ### What Redland hands out -/

/-- `librdf_log_level`. -/
inductive LogLevel where
  | none | debug | info | warn | error | fatal
deriving DecidableEq

/-- The position that a `raptor_locator` gives; what is not known is not positive. -/
structure Locator where
  byte : ℤ
  line : ℤ
  column : ℤ
deriving DecidableEq

/-- `librdf_log_message`. -/
structure LogMessage where
  level : LogLevel
  message : CString
  locator : Option Locator := Option.none
deriving DecidableEq

/-- A node that names a graph: by its URI, or by something that has none. -/
inductive Node where
  | uri (u : CString)
  | other (id : CString)
deriving DecidableEq

/-- `librdf_node_get_uri`. -/
def Node.getUri : Node → Option CString
  | .uri u => some u
  | .other _ => Option.none

/-- One thing that comes up while a stream or an iterator is consumed. -/
inductive Event (T : Type) where
  | object (o : Option T)
  | log (m : LogMessage)
deriving DecidableEq

/-- A stream of statements or an iterator over nodes. -/
abbrev Stream (T : Type) : Type := List (Event T)

/-- What a call of Redland comes back with. -/
structure Answer (σ α : Type) where
  value : α
  storage : σ
  logs : List LogMessage := []

/-- A node of a statement that the program makes itself. -/
inductive Term where
  | uri (u : CString)
  /-- A fresh node, by the number it was made as. -/
  | blank (id : ℕ)
  | literal (str : CString)
  /-- A literal of the type `xsd:integer`. -/
  | integer (n : ℤ)
deriving DecidableEq

/-- A statement that the program makes itself. -/
structure Statement where
  subject : Term
  predicate : Term
  object : Term
deriving DecidableEq

/-- `raptor_syntax_description`. -/
structure Description where
  name : CString
  otherNames : List CString := []
  label : Option CString := Option.none
  mimeTypes : List (CString × ℕ) := []
  uriStrings : List CString := []

/-- `desc->names`. -/
def Description.names (desc : Description) : List CString := desc.name :: desc.otherNames

/-- `librdf_query_results`, by the kind that the `librdf_query_results_is_*` functions tell
apart. -/
inductive QueryResults (T R : Type) where
  | bindings (results : R)
  | graph (stream : Option (Stream T))
  | boolean (results : R)
  | syntaxResults
  | unknown

/-- The surroundings of the program.  `T` are the statements, `R` the results of queries
other than graphs, and `σ` the states of the storage.  A call that reports failure through
its result answers `true` for it. -/
structure World (T R σ : Type) where
  heap : Heap
  /-- Whether the byte behind an allocation of so many bytes still belongs to it. -/
  slack : ℕ → Bool
  /-- What `random` returns when it is first asked. -/
  random : ℕ
  /-- The time at which a response is sent, unless `gmtime` fails. -/
  now : Option Tm
  buildTime : CString
  librdfVersion : CString
  raptorVersion : CString
  rasqalVersion : CString
  storageName : CString
  storageType : CString
  publicStorageOptions : CString
  /-- What `raptor_xml_escape_string_write` writes for a string and a quote. -/
  xmlEscape : List UInt8 → UInt8 → List UInt8
  /-- `raptor_stringbuffer_as_string`, by the content of the buffer. -/
  stringbufferAsString : List UInt8 → Option CString
  newUri : CString → Option CString
  newUriRelativeToBase : CString → CString → Option CString
  newUriFromUri : CString → Option CString
  newNodeFromUri : CString → Option Node
  newNodeFromUriString : CString → Option Node
  parserDescriptions : List Description
  serializerDescriptions : List Description
  queryResultsFormatsDescriptions : List Description
  queryLanguageDescriptions : List Description
  storageSize : σ → ℤ
  storageGetContexts : σ → Answer σ (Option (Stream Node))
  containsContext : Node → σ → Answer σ Bool
  contextRemoveStatements : Node → σ → Answer σ Bool
  contextAddStatements : Option Node → Stream T → σ → Answer σ Bool
  contextRemoveStatement : Option Node → Option T → σ → Answer σ Bool
  removeStatement : T → σ → Answer σ Bool
  modelAsStream : σ → Answer σ (Option (Stream T))
  contextAsStream : Node → σ → Answer σ (Option (Stream T))
  /-- Whether there is a parser of that name. -/
  newParser : CString → σ → Answer σ Bool
  /-- `librdf_parser_guess_name2`, from the media type and the data. -/
  parserGuessName : Option CString → List UInt8 → Option CString
  parserParseCountedString : CString → List UInt8 → Option CString → σ →
    Answer σ (Option (Stream T))
  parserParse : CString → CString → CString → σ → Answer σ (Option (Stream T))
  newSerializer : CString → σ → Answer σ Bool
  /-- Whether writing a stream fails, and what is written. -/
  serializeStream : CString → Stream T → σ → Answer σ (Bool × List UInt8)
  newQuery : CString → CString → σ → Answer σ Bool
  queryExecute : CString → CString → σ → Answer σ (Option (QueryResults T R))
  newFormatter : R → CString → σ → Answer σ Bool
  formatterWrite : R → CString → σ → Answer σ (Bool × List UInt8)
  /-- Whether a storage and a model for a service description can be made. -/
  newTemporaryModel : Bool
  /-- The stream of a model that has been given some statements. -/
  temporaryModelAsStream : List Statement → σ → Answer σ (Option (Stream T))

/-! ### The service -/

/-- A look at `error_buffer`: what it was, and the messages since it was last reset. -/
structure Inspection where
  buffer : Option (List UInt8)
  messages : List LogMessage
deriving DecidableEq

/-- The storage and the globals. -/
structure App (σ : Type) where
  storage : σ
  /-- `error_buffer`, NULL or its content. -/
  errorBuffer : Option (List UInt8) := none
  requestCount : ℕ := 0
  queryCount : ℕ := 0
  importCount : ℕ := 0
  /-- `base_id` of `genid.c`. -/
  baseId : ℕ := 0
  /-- The messages logged since the buffer was last reset. -/
  logged : List LogMessage := []
  /-- Every look that has been taken at the buffer. -/
  inspections : List Inspection := []

/-- A program of the service. -/
abbrev ServiceM (σ : Type) : Type → Type := ConnM (App σ)

variable {T R σ α : Type}

/-- Change the state of the service. -/
def modifyApp (f : App σ → App σ) : ServiceM σ Unit :=
  modify fun c => { c with app := f c.app }

/-- `raptor_stringbuffer_append_decimal` behind a text, for a position that is known. -/
def positionText (text : String) (n : ℤ) : List UInt8 :=
  if n > 0 then bytesOf text ++ decimalInt n else []

/-- What `redland_log_handler` appends to the buffer for an error. -/
def errorText (m : LogMessage) : List UInt8 :=
  m.message.bytes ++
    m.locator.elim [] (fun l => positionText ", byte " l.byte ++ positionText ", line " l.line ++
      positionText ", column " l.column) ++
    bytesOf "\n"

/-- `error_buffer` after a message: it is there after a message of any level. -/
def bufferAfter (buffer : Option (List UInt8)) (m : LogMessage) : Option (List UInt8) :=
  some (buffer.getD [] ++ if m.level = .error then errorText m else [])

/-- The service after a message. -/
def App.afterLog (app : App σ) (m : LogMessage) : App σ :=
  { app with errorBuffer := bufferAfter app.errorBuffer m, logged := app.logged ++ [m] }

/-- `redland_log_handler`. -/
def redlandLogHandler (m : LogMessage) : ServiceM σ Unit := modifyApp fun app => app.afterLog m

/-- A call of Redland; its messages go through the log handler. -/
def call (f : σ → Answer σ α) : ServiceM σ α := do
  let answer := f (← get).app.storage
  modifyApp fun app => { app with storage := answer.storage }
  answer.logs.forM redlandLogHandler
  pure answer.value

/-- A look at `error_buffer`. -/
def inspectErrorBuffer : ServiceM σ (Option (List UInt8)) := do
  let app := (← get).app
  modifyApp fun app =>
    { app with inspections := app.inspections ++ [⟨app.errorBuffer, app.logged⟩] }
  pure app.errorBuffer

/-- `reset_error_buffer`. -/
def resetErrorBuffer : ServiceM σ (Option Response) := do
  modifyApp fun app => { app with errorBuffer := none, logged := [] }
  pure none

/-! ### What a call does -/

/-- The service after some messages. -/
def App.afterLogs (app : App σ) (logs : List LogMessage) : App σ := logs.foldl App.afterLog app

/-- The service after a call of Redland. -/
def App.afterCall (app : App σ) (answer : Answer σ α) : App σ :=
  { app with storage := answer.storage }.afterLogs answer.logs

@[simp] lemma afterLogs_nil (app : App σ) : app.afterLogs [] = app := rfl

@[simp] lemma afterLogs_cons (app : App σ) (m : LogMessage) (logs : List LogMessage) :
    app.afterLogs (m :: logs) = (app.afterLog m).afterLogs logs := rfl

lemma redlandLogHandler_apply (m : LogMessage) (c : Conn (App σ)) :
    redlandLogHandler m c = .ok () { c with app := c.app.afterLog m } := rfl

lemma forM_redlandLogHandler (logs : List LogMessage) (c : Conn (App σ)) :
    (logs.forM redlandLogHandler : ServiceM σ Unit) c =
      .ok () { c with app := c.app.afterLogs logs } := by
  induction logs generalizing c with
  | nil => rfl
  | cons m logs ih =>
    change (redlandLogHandler m >>= fun _ => logs.forM redlandLogHandler) c = _
    rw [bind_of_ok (redlandLogHandler_apply m c), ih]
    rfl

/-- A connection after a call of Redland. -/
def called (c : Conn (App σ)) (answer : Answer σ α) : Conn (App σ) :=
  { c with app := c.app.afterCall answer }

/-- A call answers, changes the storage and logs. -/
lemma call_apply (f : σ → Answer σ α) (c : Conn (App σ)) :
    call f c = .ok (f c.app.storage).value (called c (f c.app.storage)) := by
  simp only [call, bind_apply, get_apply, modifyApp, modify_apply, forM_redlandLogHandler,
    pure_apply, App.afterCall, called]

/-- A connection after a look at the error buffer. -/
def looked (c : Conn (App σ)) : Conn (App σ) :=
  { c with app := { c.app with
      inspections := c.app.inspections ++ [⟨c.app.errorBuffer, c.app.logged⟩] } }

lemma inspect_apply (c : Conn (App σ)) :
    inspectErrorBuffer c = .ok c.app.errorBuffer (looked c) := rfl

@[simp] lemma afterLog_storage (app : App σ) (m : LogMessage) :
    (app.afterLog m).storage = app.storage := rfl

@[simp] lemma afterLogs_storage (app : App σ) (logs : List LogMessage) :
    (app.afterLogs logs).storage = app.storage := by
  induction logs generalizing app with
  | nil => rfl
  | cons m logs ih => rw [afterLogs_cons, ih, afterLog_storage]

@[simp] lemma afterCall_storage (app : App σ) (answer : Answer σ α) :
    (app.afterCall answer).storage = answer.storage := by
  rw [App.afterCall, afterLogs_storage]

@[simp] lemma called_request (c : Conn (App σ)) (answer : Answer σ α) :
    (called c answer).request = c.request := rfl

@[simp] lemma called_storage (c : Conn (App σ)) (answer : Answer σ α) :
    (called c answer).app.storage = answer.storage :=
  afterCall_storage c.app answer

@[simp] lemma looked_request (c : Conn (App σ)) : (looked c).request = c.request := rfl

@[simp] lemma looked_storage (c : Conn (App σ)) : (looked c).app.storage = c.app.storage := rfl

@[simp] lemma looked_errorBuffer (c : Conn (App σ)) :
    (looked c).app.errorBuffer = c.app.errorBuffer := rfl

@[simp] lemma looked_logged (c : Conn (App σ)) : (looked c).app.logged = c.app.logged := rfl

/-- The error buffer is there as soon as anything has been logged. -/
lemma errorBuffer_afterLogs_eq_none_iff {app : App σ} {logs : List LogMessage} :
    (app.afterLogs logs).errorBuffer = none ↔ app.errorBuffer = none ∧ logs = [] := by
  induction logs generalizing app with
  | nil => simp
  | cons m logs ih =>
    rw [afterLogs_cons, ih]
    simp [App.afterLog, bufferAfter]

lemma called_errorBuffer_eq_none_iff {c : Conn (App σ)} {answer : Answer σ α} :
    (called c answer).app.errorBuffer = none ↔ c.app.errorBuffer = none ∧ answer.logs = [] := by
  show (({ c.app with storage := answer.storage } : App σ).afterLogs answer.logs).errorBuffer =
    none ↔ _
  exact errorBuffer_afterLogs_eq_none_iff

/-- A call that logs nothing leaves the error buffer as it is. -/
lemma afterCall_of_silent (app : App σ) {answer : Answer σ α} (h : answer.logs = []) :
    app.afterCall answer = { app with storage := answer.storage } := by
  rw [App.afterCall, h, afterLogs_nil]

end RedStore.Service
