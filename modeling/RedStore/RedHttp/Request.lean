/-
`request.c`: the request object, its setters and getters, and the splitter for the
arguments of a query string.

A function on a request is a program over the request as its state.  Memory for the
short strings of a request is taken to be available; the buffers whose size the client
chooses are allocated in `RedStore.RedHttp.RequestRead`, where the heap may refuse.
-/
import RedStore.CLib.Command
import RedStore.RedHttp.Headers
import RedStore.RedHttp.Url

namespace RedStore.RedHttp
open CLib

/-- A call whose size depends on the client, in the order made. -/
inductive Call where
  /-- An allocation of so many bytes for a body. -/
  | alloc (size : ℕ)
  /-- `fread` into a buffer with `room` bytes for `asked` bytes. -/
  | fread (room asked : ℕ)
deriving DecidableEq, Repr

/-- The stream of the connection, as the process sees it: what has not been read yet, and what has
been given to it to be written.  Whether that comes to the client depends on what waits in the
buffer of the stream, which is `delivered`. -/
structure Socket where
  input : List UInt8 := []
  output : List UInt8 := []
deriving DecidableEq

/-- `struct redhttp_request_s`. -/
structure Request where
  headers : List Header := []
  arguments : List Header := []
  /-- The signature of `request->server`. -/
  serverSignature : Option CString := none
  socket : Socket := {}
  host : Option CString := none
  serverAddr : CString := default
  serverPort : CString := default
  method : Option CString := none
  pathAndQuery : Option CString := none
  version : Option CString := none
  url : Option CString := none
  path : Option CString := none
  pathGlob : Pointer CString := .null
  queryString : Option CString := none
  contentBuffer : Option (List UInt8) := none
  contentLength : ℕ := 0
  /-- The allocations and reads of the request's body so far. -/
  calls : List Call := []
deriving DecidableEq

/-- A program over a request. -/
abbrev RequestM : Type → Type := EStateM Fault Request

/-- Apply one of the functions on header lists to `request->headers`. -/
def updateHeaders (f : List Header → Except Fault (List Header)) : RequestM Unit := fun r =>
  match f r.headers with
  | .ok headers => .ok () { r with headers }
  | .error e => .error e r

/-- Apply one of the functions on header lists to `request->arguments`. -/
def updateArguments (f : List Header → Except Fault (List Header)) : RequestM Unit := fun r =>
  match f r.arguments with
  | .ok arguments => .ok () { r with arguments }
  | .error e => .error e r

/-- The request that `redhttp_server_handle_request` starts from. -/
def redhttpRequestNew (serverSignature : Option CString) (serverAddr serverPort : CString)
    (input : List UInt8) : Request :=
  { serverSignature, serverAddr, serverPort, socket := { input } }

namespace Request

/-- The request with another rest of its input. -/
def withInput (r : Request) (input : List UInt8) : Request :=
  { r with socket := { r.socket with input } }

/-- `redhttp_request_get_header`. -/
def getHeader (r : Request) (key : CString) : Option CString := redhttpHeadersGet r.headers key

/-- `redhttp_request_get_argument`. -/
def getArgument (r : Request) (key : CString) : Option CString :=
  redhttpHeadersGet r.arguments key

/-- `redhttp_request_argument_exists`. -/
def argumentExists (r : Request) (key : CString) : Bool := redhttpHeadersExists r.arguments key

end Request

/-! ### Arguments -/

/-- What one round of the loop of `redhttp_request_parse_arguments` takes off the front. -/
structure Argument where
  /-- From `ptr` to the first terminator written. -/
  key : List UInt8
  /-- What follows the `=` that belongs to this key. -/
  value : Option (List UInt8)
  /-- Where the next round starts, `none` for NULL. -/
  next : Option (List UInt8)
deriving DecidableEq

/-- The comparison `!p || q < p` of the results of two `strchr` calls. -/
def before (q : ℕ) : Option ℕ → Bool
  | none => true
  | some p => q < p

/-- Where the round ends: at `&` if it comes first, else at `;`. -/
def separator (ptr : List UInt8) : Option ℕ :=
  match strchr ptr (ch '&'), strchr ptr (ch ';') with
  | some amp, semi => if before amp semi then some amp else semi
  | none, semi => semi

/-- One round of the loop of `redhttp_request_parse_arguments`. -/
def nextArgument (ptr : List UInt8) : Argument :=
  let segment := (separator ptr).elim ptr fun i => ptr.take i
  let next := (separator ptr).map fun i => ptr.drop (i + 1)
  match strchr ptr (ch '=') with
  | some equals =>
    if before equals (strchr ptr (ch '&')) && before equals (strchr ptr (ch ';')) then
      { key := segment.take equals, value := some (segment.drop (equals + 1)), next }
    else { key := segment, value := none, next }
  | none => { key := segment, value := none, next }

lemma separator_lt {ptr : List UInt8} {i : ℕ} (h : separator ptr = some i) : i < ptr.length := by
  have hlt : ∀ c : UInt8, ∀ j, strchr ptr c = some j → j < ptr.length := by
    intro c j hj
    obtain ⟨a, b, hab, -, rfl⟩ := strchr_eq_some_iff.mp hj
    simp [hab]
  rw [separator] at h
  split at h
  · next amp semi hamp =>
    split at h
    · simp only [Option.some.injEq] at h
      exact hlt _ _ (h ▸ hamp)
    · exact hlt _ _ h
  · exact hlt _ _ h

lemma nextArgument_next (ptr : List UInt8) :
    (nextArgument ptr).next = (separator ptr).map fun i => ptr.drop (i + 1) := by
  rw [nextArgument]
  split
  · split <;> rfl
  · rfl

lemma length_next_lt {ptr rest : List UInt8} (h : (nextArgument ptr).next = some rest) :
    rest.length < ptr.length := by
  rw [nextArgument_next, Option.map_eq_some_iff] at h
  obtain ⟨i, hi, rfl⟩ := h
  have := separator_lt hi
  simp only [List.length_drop]
  omega

/-- The loop of `redhttp_request_parse_arguments`. -/
def parseArgumentsFrom (ptr : List UInt8) : RequestM Unit :=
  if ptr = [] then pure ()
  else do
    let argument := nextArgument ptr
    updateArguments fun first =>
      redhttpHeadersAdd first (unescaped argument.key) (argument.value.map unescaped)
    match _h : argument.next with
    | none => pure ()
    | some rest => parseArgumentsFrom rest
termination_by ptr.length
decreasing_by exact length_next_lt _h

/-- `redhttp_request_parse_arguments`. -/
def redhttpRequestParseArguments (input : Option CString) : RequestM Unit :=
  match input with
  | none => pure ()
  | some s => parseArgumentsFrom s.bytes

/-! ### Setters -/

/-- `redhttp_request_set_path_glob`.  Without a new glob the freed one stays in place. -/
def redhttpRequestSetPathGlob (pathGlob : Option CString) : RequestM Unit := do
  let old := (← get).pathGlob
  -- free the old glob
  let kept ← match old with
    | .null => pure Pointer.null
    | .valid _ => pure Pointer.freed
    | .freed => throw .useAfterFree
  match pathGlob with
  | some glob =>
    if glob.strlen = 0 then modify fun r => { r with pathGlob := kept }
    else modify fun r => { r with pathGlob := .valid glob }
  | none => modify fun r => { r with pathGlob := kept }

/-- A method as it is stored: in upper case. -/
def storedMethod (method : CString) : CString := CString.ofBytes (method.bytes.map toupper)

/-- `redhttp_request_set_method`. -/
def redhttpRequestSetMethod (method : Option CString) : RequestM Unit :=
  modify fun r => { r with method := method.map storedMethod }

/-- `redhttp_request_set_query_string`. -/
def redhttpRequestSetQueryString (queryString : Option CString) : RequestM Unit :=
  modify fun r => { r with queryString }

/-- `redhttp_request_set_version`. -/
def redhttpRequestSetVersion (version : Option CString) : RequestM Unit :=
  modify fun r => { r with version }

/-- `redhttp_request_set_path`. -/
def redhttpRequestSetPath (path : Option CString) : RequestM Unit :=
  modify fun r => { r with path }

/-- `redhttp_request_set_path_and_query`. -/
def redhttpRequestSetPathAndQuery (pathAndQuery : Option CString) : RequestM Unit := do
  match pathAndQuery with
  | none => modify fun r => { r with pathAndQuery := none }
  | some target =>
    modify fun r => { r with pathAndQuery := some target }
    -- check for query string
    match strchr target.bytes (ch '?') with
    | some i =>
      let query := CString.ofBytes (target.bytes.drop (i + 1))
      redhttpRequestSetQueryString (some query)
      redhttpRequestParseArguments (some query)
      modify fun r => { r with path := some (unescaped (target.bytes.take i)) }
    | none => modify fun r => { r with path := some (unescaped target.bytes) }

/-! ### Getters that compute -/

/-- The host that `redhttp_request_get_host` works out for a request. -/
def Request.computedHost (r : Request) : CString :=
  match r.getHeader (CString.lit "Host") with
  | some host => host
  | none =>
    if r.serverPort = CString.lit "80" then r.serverAddr
    else r.serverAddr ++ CString.lit ":" ++ r.serverPort

/-- `redhttp_request_get_host`. -/
def redhttpRequestGetHost : RequestM CString := do
  let r ← get
  match r.host with
  | some host => pure host
  | none =>
    let host := r.computedHost
    modify fun r => { r with host := some host }
    pure host

/-- `redhttp_request_get_url`. -/
def redhttpRequestGetUrl : RequestM (Option CString) := do
  match (← get).url with
  | some url => pure (some url)
  | none =>
    let host ← redhttpRequestGetHost
    match (← get).pathAndQuery with
    | some pathAndQuery =>
      let url := CString.lit "http://" ++ host ++ pathAndQuery
      modify fun r => { r with url := some url }
      pure (some url)
    | none => pure none

namespace Request

/-- The host of a request, whether it has been asked for already or not. -/
def currentHost (r : Request) : CString := r.host.getD r.computedHost

/-- The URL of a request, whether it has been asked for already or not. -/
def currentUrl (r : Request) : Option CString :=
  r.url.or (r.pathAndQuery.map fun target => CString.lit "http://" ++ r.currentHost ++ target)

/-- A request after its URL has been asked for. -/
def withUrl (r : Request) : Request :=
  { r with
    host := if r.url.isSome then r.host else some r.currentHost
    url := r.currentUrl }

end Request

lemma redhttpRequestGetHost_apply (r : Request) :
    redhttpRequestGetHost r = .ok r.currentHost { r with host := some r.currentHost } := by
  simp only [redhttpRequestGetHost, bind_apply, get_apply]
  cases h : r.host with
  | some host =>
    simp only [Request.currentHost, h, Option.getD_some, pure_apply]
    rw [← h]
  | none =>
    simp only [Request.currentHost, h, Option.getD_none, bind_apply, modify_apply, pure_apply]

lemma redhttpRequestGetUrl_apply (r : Request) :
    redhttpRequestGetUrl r = .ok r.currentUrl r.withUrl := by
  simp only [redhttpRequestGetUrl, bind_apply, get_apply]
  cases hurl : r.url with
  | some url =>
    simp only [pure_apply, Request.currentUrl, Request.withUrl, hurl, Option.some_or,
      Option.isSome_some, if_true]
    rw [← hurl]
  | none =>
    simp only [bind_apply, redhttpRequestGetHost_apply, get_apply]
    cases htarget : r.pathAndQuery with
    | some target =>
      simp only [Request.currentUrl, Request.withUrl, hurl, htarget, Option.none_or,
        Option.map_some, Option.isSome_none, Bool.false_eq_true, if_false, bind_apply,
        modify_apply, pure_apply]
    | none =>
      simp only [Request.currentUrl, Request.withUrl, hurl, htarget, Option.none_or,
        Option.map_none, Option.isSome_none, Bool.false_eq_true, if_false, pure_apply]

end RedStore.RedHttp
