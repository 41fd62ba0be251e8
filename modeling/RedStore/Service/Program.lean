/-
`redstore.c`: the program from its start to its end.

`main` makes the server, the storage and the model, serves clients until something stops it, and
frees what it has made.  What fails on the way is a fatal error.  A fatal error stops the program,
and so does a signal that it handles; a second fatal error exits at once.  A signal that it does
not handle kills it, and so does a request that is its undoing.  What comes of the calls of the
libraries is a parameter, and so are the messages of Redland and the signals that come meanwhile.
-/
import Mathlib.Data.Finset.SDiff
import RedStore.RedHttp.Listening
import RedStore.Service.LogCalls

namespace RedStore.Service
open CLib RedHttp

/-! ### The program and what it stands in -/

/-- The objects of `main` and of what it calls. -/
inductive Object where
  | world | server | storageOptions | publicStorageOptions | storage | model | inputUri
  | formatNsUri | sdNsUri | voidNsUri | errorBuffer
deriving DecidableEq

/-- How a program comes to an end other than by `main` returning. -/
inductive Abort where
  | exited (code : ℤ)
  | killed
  | faulted (fault : Fault)
deriving DecidableEq

/-- What has been noted of a program. -/
inductive Note where
  | logged (level : LogLevel)
  | signalled
  /-- A signal that is not handled. -/
  | deadly
deriving DecidableEq

/-- What `main` and the functions that it calls see of the process.  The last three fields are
only there to speak of a run. -/
structure Program where
  verbosity : Verbosity := ⟨false, false⟩
  running : Bool := true
  exitCode : ℤ := 0
  /-- Whether `termination_handler` has been set. -/
  handlesSignals : Bool := false
  /-- The variables that are not NULL. -/
  pointers : Finset Object := ∅
  /-- The objects that have been made and not freed. -/
  objects : Multiset Object := 0
  /-- How many rounds of the server there have been. -/
  rounds : ℕ := 0
  /-- The messages that have been printed, and the signals. -/
  notes : List Note := []
  /-- How the program has been ended, if it has. -/
  ended : Option Abort := none

/-- What can happen at any time. -/
inductive Happening where
  /-- A message of Redland, and whether there is room for an error buffer. -/
  | message (level : LogLevel) (room : Bool)
  /-- SIGTERM, SIGINT or SIGHUP. -/
  | signal
  /-- Any other signal that ends a process, such as the SIGPIPE of a client that has gone. -/
  | deadlySignal
deriving DecidableEq

/-- What can happen in a round of the server. -/
inductive Incident where
  /-- A request passes `reset_error_buffer`. -/
  | request
  | happening (h : Happening)
  /-- `select` or `accept` fails. -/
  | failure
  /-- The process does not survive a request. -/
  | fault (fault : Fault)
deriving DecidableEq

/-- The calls of libraries, with what they are given of the settings. -/
inductive LibraryCall where
  /-- What `usage` lists. -/
  | enumerate
  | setWarningLevel
  | newServer
  | newHash (options : Option CString)
  | hashToString (options : Option CString) (new : Bool)
  | newStorage (type name options : Option CString) (new : Bool)
  | newModel
  | newUriFromFilename (filename : CString)
  | modelLoad (filename : CString) (format : Option CString)
  | newUri (uri : CString)
  | listen (address : Option CString) (port : CString)
  | free (object : Object)

/-- What comes of a call. -/
structure Outcome where
  happenings : List Happening := []
  succeeds : Bool := true

/-- What a program stands in. -/
structure Surroundings where
  /-- Whether a `librdf_world` can be made. -/
  newWorld : Bool := true
  outcome : LibraryCall → Outcome := fun _ => {}
  /-- What happens in the rounds of the server, as long as it runs. -/
  rounds : List (List Incident) := []

/-- A switch of the command line with its argument. -/
inductive Switch where
  | port (arg : CString)
  | address (arg : CString)
  | storageType (arg : CString)
  | storageOptions (arg : CString)
  | new
  | inputFilename (arg : CString)
  | inputFormat (arg : CString)
  | verbose
  | quiet
  /-- `-h`, or what `getopt` does not know. -/
  | other
deriving DecidableEq

/-- The settings of `main`. -/
structure Settings where
  port : CString := CString.lit "8080"
  address : Option CString := none
  storageName : Option CString := none
  storageType : Option CString := none
  storageOptions : Option CString := none
  storageNew : Bool := false
  inputFilename : Option CString := none
  inputFormat : Option CString := none

/-- A part of the program. -/
abbrev ProgramM : Type → Type := EStateM Unit Program

namespace Program

/-- The end of a program. -/
def stop {α : Type} (abort : Abort) : ProgramM α := do
  modify fun p => { p with ended := some abort }
  throw ()

/-! ### Messages and signals -/

/-- `redstore_log` but for the text. -/
def redstoreLog (level : LogLevel) : ProgramM Unit := do
  if (← get).verbosity.shows level then
    modify fun p => { p with notes := p.notes ++ [.logged level] }
    if level = .fatal then
      modify fun p => { p with exitCode := p.exitCode + 1 }
      if (← get).running then modify fun p => { p with running := false }
      else stop (.exited (-1))

/-- A signal: `termination_handler`, or the end where it has not been set. -/
def signal : ProgramM Unit := do
  if (← get).handlesSignals then
    redstoreLog .info
    modify fun p => { p with notes := p.notes ++ [.signalled] }
    modify fun p => { p with running := false }
  else stop .killed

/-- A signal that no handler can be, or has been, set for. -/
def deadlySignal : ProgramM Unit := do
  modify fun p => { p with notes := p.notes ++ [.deadly] }
  stop .killed

/-- A new object. -/
def make (object : Object) : ProgramM Unit :=
  modify fun p => { p with objects := object ::ₘ p.objects }

/-- A variable is assigned. -/
def assign (object : Object) : ProgramM Unit :=
  modify fun p => { p with pointers := insert object p.pointers }

/-- An object is freed. -/
def drop (object : Object) : ProgramM Unit := do
  if object ∈ (← get).objects then
    modify fun p => { p with objects := p.objects.erase object }
  else stop (.faulted .useAfterFree)

/-- `redland_log_handler` but for the text of the buffer. -/
def redlandLogHandler (level : LogLevel) (room : Bool) : ProgramM Unit := do
  redstoreLog level
  if .errorBuffer ∉ (← get).pointers then
    if room then
      make .errorBuffer
      assign .errorBuffer
    else redstoreLog .error

/-- `reset_error_buffer`. -/
def resetErrorBuffer : ProgramM Unit := do
  if .errorBuffer ∈ (← get).pointers then
    drop .errorBuffer
    modify fun p => { p with pointers := p.pointers.erase .errorBuffer }

/-- Something happens. -/
def happen : Happening → ProgramM Unit
  | .message level room => redlandLogHandler level room
  | .signal => signal
  | .deadlySignal => deadlySignal

/-! ### The calls of libraries -/

section

variable (su : Surroundings)

/-- A call. -/
def callLibrary (call : LibraryCall) : ProgramM Bool := do
  (su.outcome call).happenings.forM happen
  pure (su.outcome call).succeeds

/-- A call that makes an object for a local variable. -/
def newLocal (object : Object) (call : LibraryCall) : ProgramM Bool := do
  let made ← callLibrary su call
  if made then make object
  pure made

/-- A call that makes an object for a global variable, or for one of `main`. -/
def newGlobal (object : Object) (call : LibraryCall) : ProgramM Bool := do
  let made ← newLocal su object call
  if made then assign object
  pure made

/-- A call that frees an object. -/
def release (object : Object) : ProgramM Unit := do
  let _ ← callLibrary su (.free object)
  drop object

/-- An object is freed if its variable is not NULL. -/
def releaseGlobal (object : Object) : ProgramM Unit := do
  if object ∈ (← get).pointers then release su object

/-- What failed is reported, and nothing more is done. -/
def orGiveUp (level : LogLevel) (succeeds : Bool) (rest : ProgramM Bool) : ProgramM Bool :=
  if succeeds then rest
  else do
    redstoreLog level
    pure false

/-- A failure is reported, and that is all. -/
def reportUnless (level : LogLevel) (succeeds : Bool) : ProgramM Unit :=
  if succeeds then pure () else redstoreLog level

/-! ### The switches -/

/-- `usage`. -/
def usage {α : Type} : ProgramM α := do
  let _ ← callLibrary su .enumerate
  stop (.exited 1)

/-- The loop of `main` over the switches, for one. -/
def parseSwitch (settings : Settings) : Switch → ProgramM Settings
  | .port arg => pure { settings with port := arg }
  | .address arg => pure { settings with address := some arg }
  | .storageType arg => pure { settings with storageType := some arg }
  | .storageOptions arg => pure { settings with storageOptions := some arg }
  | .new => pure { settings with storageNew := true }
  | .inputFilename arg => pure { settings with inputFilename := some arg }
  | .inputFormat arg => pure { settings with inputFormat := some arg }
  | .verbose => do
    modify fun p => { p with verbosity := { p.verbosity with verbose := true } }
    pure settings
  | .quiet => do
    modify fun p => { p with verbosity := { p.verbosity with quiet := true } }
    pure settings
  | .other => usage su

/-- The arguments behind the switches. -/
def readArguments (settings : Settings) : List CString → ProgramM Settings
  | [] => pure settings
  | [name] => pure { settings with storageName := some name }
  | _ => usage su

/-- The defaults of the storage: the options are those of the default type where no type is
given, also where options are. -/
def withDefaults (settings : Settings) : Settings :=
  let settings := { settings with
    storageName := some (settings.storageName.getD (CString.lit "redstore")) }
  match settings.storageType with
  | some _ => settings
  | none => { settings with
      storageType := some (CString.lit "hashes")
      storageOptions := some (CString.lit "hash-type='memory'") }

/-- The warnings of Redland are only all of interest to a verbose program. -/
def setWarningLevel : ProgramM Unit := do
  if !(← get).verbosity.verbose then
    let _ ← callLibrary su .setWarningLevel

/-- The settings that a command line makes. -/
def readSettings (switches : List Switch) (arguments : List CString) : ProgramM Settings := do
  let settings ← switches.foldlM (parseSwitch su) {}
  let settings ← readArguments su settings arguments
  let verbosity := (← get).verbosity
  if verbosity.quiet && verbosity.verbose then
    redstoreLog .error
    usage su
  else
    setWarningLevel su
    pure (withDefaults settings)

/-! ### Setting up -/

variable (settings : Settings)

/-- `redstore_setup_http_server`. -/
def redstoreSetupHttpServer : ProgramM Bool := newGlobal su .server .newServer

/-- `redstore_setup_storage`, for the global variable. -/
def redstoreSetupStorage : ProgramM Bool := do
  let made ← newLocal su .storageOptions (.newHash settings.storageOptions)
  orGiveUp .error made do
    redstoreLog .info
    redstoreLog .info
    let converted ← newGlobal su .publicStorageOptions
      (.hashToString settings.storageOptions settings.storageNew)
    redstoreLog (if converted then .info else .warn)
    let opened ← newGlobal su .storage (.newStorage settings.storageType settings.storageName
      settings.storageOptions settings.storageNew)
    reportUnless .error opened
    release su .storageOptions
    pure opened

/-- `redstore_load_input_file`: whether it returns zero. -/
def redstoreLoadInputFile : ProgramM Bool :=
  match settings.inputFilename with
  | none => pure true
  | some filename => do
    let made ← newLocal su .inputUri (.newUriFromFilename filename)
    orGiveUp .error made do
      redstoreLog .info
      redstoreLog .debug
      let loaded ← callLibrary su (.modelLoad filename settings.inputFormat)
      release su .inputUri
      pure loaded

/-- `description_init`: whether it returns zero. -/
def descriptionInit : ProgramM Bool := do
  let made ← newGlobal su .formatNsUri (.newUri (CString.lit "http://www.w3.org/ns/formats/"))
  orGiveUp .error made do
    let made ← newGlobal su .sdNsUri
      (.newUri (CString.lit "http://www.w3.org/ns/sparql-service-description#"))
    orGiveUp .error made do
      let made ← newGlobal su .voidNsUri (.newUri (CString.lit "http://rdfs.org/ns/void#"))
      orGiveUp .error made (pure true)

/-- `main` up to its loop: whether it gets there. -/
def startUp : ProgramM Bool := do
  let made ← redstoreSetupHttpServer su
  orGiveUp .fatal made do
    let made ← redstoreSetupStorage su settings
    orGiveUp .fatal made do
      let made ← newGlobal su .model .newModel
      orGiveUp .fatal made do
        let loaded ← redstoreLoadInputFile su settings
        orGiveUp .fatal loaded do
          let initialised ← descriptionInit su
          orGiveUp .fatal initialised do
            redstoreLog .info
            let listening ← callLibrary su (.listen settings.address settings.port)
            orGiveUp .fatal listening (pure true)

/-! ### Serving -/

/-- Something happens in a round. -/
def incident : Incident → ProgramM Unit
  | .request => resetErrorBuffer
  | .happening h => happen h
  | .failure => stop (.exited exitFailure)
  | .fault fault => stop (.faulted fault)

/-- `redhttp_server_run`, as far as the program sees it. -/
def serveRound (round : List Incident) : ProgramM Unit := do
  modify fun p => { p with rounds := p.rounds + 1 }
  round.forM incident

/-- The loop of `main`, as far as there are rounds: whether it is left. -/
def serveRounds : List (List Incident) → ProgramM Bool
  | [] => do pure !(← get).running
  | round :: rounds => do
    if (← get).running then
      serveRound round
      serveRounds rounds
    else pure true

/-! ### The program -/

/-- `description_free`. -/
def descriptionFree : ProgramM Unit := do
  releaseGlobal su .formatNsUri
  releaseGlobal su .sdNsUri
  releaseGlobal su .voidNsUri

/-- What `main` does in the end. -/
def cleanUp : ProgramM ℤ := do
  descriptionFree su
  resetErrorBuffer
  releaseGlobal su .model
  releaseGlobal su .storage
  releaseGlobal su .world
  releaseGlobal su .publicStorageOptions
  releaseGlobal su .server
  pure (← get).exitCode

/-- `main`: what it returns, if it does with the rounds that there are. -/
def main (switches : List Switch) (arguments : List CString) : ProgramM (Option ℤ) := do
  if su.newWorld then
    make .world
    assign .world
    let settings ← readSettings su switches arguments
    modify fun p => { p with handlesSignals := true }
    let started ← startUp su settings
    let left ← if started then serveRounds su.rounds else pure true
    if left then some <$> cleanUp su else pure none
  else
    redstoreLog .fatal
    pure (some (-1))

end

end Program

end RedStore.Service
