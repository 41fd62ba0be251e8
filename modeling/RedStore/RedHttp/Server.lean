/-
`server.c`: routing a request to the handlers of a server.

What a handler works on is the connection: the request with its socket, and the state of
the application, of which the server knows nothing.
-/
import RedStore.RedHttp.Response

namespace RedStore.RedHttp
open CLib

/-- A request together with the state of the application that serves it. -/
structure Conn (A : Type) where
  request : Request
  app : A

/-- A program over a connection. -/
abbrev ConnM (A : Type) : Type → Type := EStateM Fault (Conn A)

variable {A α : Type}

/-- Run a program over a request on the request of a connection. -/
def onRequest (x : RequestM α) : ConnM A α := fun c =>
  match x c.request with
  | .ok a request => .ok a { c with request }
  | .error e request => .error e { c with request }

/-- What a program does to a request it does to the request of a connection. -/
lemma triple_request {P : Request → Prop} {Q : α → Request → Prop} {E : Request → Prop}
    {x : RequestM α} (h : Triple P x Q E) :
    Triple (fun c : Conn A => P c.request) (onRequest x) (fun a c => Q a c.request)
      (fun c => E c.request) := by
  intro c hc
  have hrun := h c.request hc
  rw [onRequest]
  cases hx : x c.request with
  | ok a r =>
    rw [hx] at hrun
    exact hrun
  | error e r =>
    rw [hx] at hrun
    exact hrun

/-- `struct redhttp_handler_s`; a handler that returns NULL declines the request. -/
structure Handler (A : Type) where
  method : Option CString
  path : Option CString
  func : ConnM A (Option Response)

/-- The comparison of a handler's path with that of a request, when the handler has one:
`none` when they do not match, else the glob to be set if there is one. -/
def matchPath (pattern path : List UInt8) : Except Fault (Option (Option CString)) :=
  match pattern.getLast? with
  -- `handler->path[path_len - 1]` of an empty path
  | none => .error .outOfBounds
  | some last =>
    if last = ch '*' ∧ pattern.dropLast.isPrefixOf path then
      .ok (some (some (CString.ofBytes (path.drop pattern.dropLast.length))))
    else if pattern = path then .ok (some none)
    else .ok none

/-- The comparison of the methods in `match_route`. -/
def matchMethod (pattern method : Option CString) : Except Fault Bool :=
  match pattern, method with
  | none, _ => .ok true
  | some pattern, some method => .ok (pattern == method)
  | some _, none => .error .nullPointer

/-- The comparison of the paths in `match_route`, which sets the glob. -/
def matchRoutePath (pattern path : Option CString) : RequestM Bool :=
  match pattern, path with
  | none, _ => pure true
  | some _, none => throw .nullPointer
  | some pattern, some path =>
    match matchPath pattern.bytes path.bytes with
    | .error e => throw e
    | .ok none => pure false
    | .ok (some none) => pure true
    | .ok (some (some glob)) => do
      redhttpRequestSetPathGlob (some glob)
      pure true

/-- `match_route`. -/
def matchRoute (handler : Handler A) : RequestM Bool := do
  let r ← get
  if ← ofExcept (matchMethod handler.method r.method) then matchRoutePath handler.path r.path
  else pure false

/-- Matching a route at most sets the glob. -/
lemma matchRoute_cases (handler : Handler A) (r : Request) :
    (∃ b, matchRoute handler r = .ok b r) ∨ (∃ e, matchRoute handler r = .error e r) ∨
      ∃ glob, matchRoute handler r =
        (redhttpRequestSetPathGlob (some glob) >>= fun _ => pure true) r := by
  unfold matchRoute
  simp only [bind_apply, get_apply]
  have hpath : (∃ b, matchRoutePath handler.path r.path r = .ok b r) ∨
      (∃ e, matchRoutePath handler.path r.path r = .error e r) ∨
      ∃ glob, matchRoutePath handler.path r.path r =
        (redhttpRequestSetPathGlob (some glob) >>= fun _ => pure true) r := by
    unfold matchRoutePath
    cases handler.path with
    | none => exact Or.inl ⟨true, rfl⟩
    | some pattern =>
      cases r.path with
      | none => exact Or.inr (Or.inl ⟨_, rfl⟩)
      | some path =>
        dsimp only
        cases matchPath pattern.bytes path.bytes with
        | error e => exact Or.inr (Or.inl ⟨e, rfl⟩)
        | ok glob =>
          match glob with
          | none => exact Or.inl ⟨false, rfl⟩
          | some none => exact Or.inl ⟨true, rfl⟩
          | some (some glob) => exact Or.inr (Or.inr ⟨glob, rfl⟩)
  cases matchMethod handler.method r.method with
  | error e => exact Or.inr (Or.inl ⟨e, rfl⟩)
  | ok b =>
    cases b with
    | false => exact Or.inl ⟨false, rfl⟩
    | true => exact hpath

/-! ### The methods that are allowed -/

/-- `MAX_ALLOWED_METHODS`. -/
def maxAllowedMethods : ℕ := 50

/-- `add_allowed_method`: the list with the method, and whether it was added. -/
def addAllowedMethod (allowed : List CString) (method : CString) : List CString × Bool :=
  if method ∈ allowed then (allowed, false)
  else if allowed.length < maxAllowedMethods then (allowed ++ [method], true)
  else (allowed, false)

/-- The methods that `check_allowed_responses` collects for a path, for any path if it is
NULL. -/
def allowedMethods (handlers : List (Handler A)) (path : Option CString) : List CString :=
  handlers.foldl (fun allowed it =>
    match it.method with
    | none => allowed
    | some method =>
      if path = none ∨ (it.path ≠ none ∧ it.path = path) then
        let (allowed, added) := addAllowedMethod allowed method
        if added ∧ method = CString.lit "GET" then
          (addAllowedMethod allowed (CString.lit "HEAD")).1
        else allowed
      else allowed) [CString.lit "OPTIONS"]

/-- The value of the Allow header: methods that would overflow the buffer are left out. -/
def allowString : List CString → CString
  | [] => default
  | first :: rest => rest.foldl (fun str method =>
      if str.strlen + method.strlen + 2 < bufsiz then str ++ CString.lit "," ++ method
      else str) first

/-- The explanation of a 405, which is cut at `BUFSIZ - 1` bytes. -/
def allowedMessage (allow : CString) : List UInt8 :=
  (bytesOf "Please use one of the allowed methods:<br /><code>" ++ allow.bytes ++
    bytesOf "</code>").take (bufsiz - 1)

/-- `check_allowed_responses`; adding a header to a NULL response fails an assertion. -/
def checkAllowedResponses (heap : Heap) (status : Status) (handlers : List (Handler A))
    (path : Option CString) : Except Fault Response :=
  let allow := allowString (allowedMethods handlers path)
  let response :=
    if status = .ok then some (redhttpResponseNewEmpty .ok)
    else redhttpResponseNewErrorPage heap status (allowedMessage allow)
  match response with
  | none => .error .assertion
  | some response => .ok (redhttpResponseAddHeader response HeaderName.allow (some allow))

/-- What a handler adds to the methods that are allowed. -/
def collectMethod (path : Option CString) (allowed : List CString) (it : Handler A) :
    List CString :=
  match it.method with
  | none => allowed
  | some method =>
    if path = none ∨ (it.path ≠ none ∧ it.path = path) then
      if (addAllowedMethod allowed method).2 ∧ method = CString.lit "GET" then
        (addAllowedMethod (addAllowedMethod allowed method).1 (CString.lit "HEAD")).1
      else (addAllowedMethod allowed method).1
    else allowed

lemma allowedMethods_eq (handlers : List (Handler A)) (path : Option CString) :
    allowedMethods handlers path =
      handlers.foldl (collectMethod path) [CString.lit "OPTIONS"] := rfl

/-- What a method adds to the value of the Allow header. -/
def allowMethod (str method : CString) : CString :=
  if str.strlen + method.strlen + 2 < bufsiz then str ++ CString.lit "," ++ method else str

lemma allowString_cons (first : CString) (rest : List CString) :
    allowString (first :: rest) = rest.foldl allowMethod first := rfl

/-! ### Dispatch -/

/-- The loop of `redhttp_server_dispatch_request` over the handlers. -/
def tryRoutes : List (Handler A) → ConnM A (Option Response)
  | [] => pure none
  | it :: rest => do
    if ← onRequest (matchRoute it) then
      match ← it.func with
      | some response => pure (some response)
      | none => tryRoutes rest
    else tryRoutes rest

/-- What a request is answered that no handler has answered. -/
def fallbackResponse (heap : Heap) (handlers : List (Handler A)) (method path : CString) :
    Except Fault (Option Response) :=
  if method = CString.lit "HEAD" then
    let found := handlers.any fun it =>
      it.method = some (CString.lit "GET") && it.path = some path
    .ok (some (redhttpResponseNewEmpty (if found then .ok else .notFound)))
  else if handlers.any fun it => it.path = some path then
    if method = CString.lit "OPTIONS" then
      (checkAllowedResponses heap .ok handlers (some path)).map some
    else (checkAllowedResponses heap .methodNotAllowed handlers (some path)).map some
  else .ok (redhttpResponseNewErrorPage heap .notFound [])

/-- What a request for `*` is answered. -/
def asteriskResponse (heap : Heap) (handlers : List (Handler A)) (method : CString) :
    Except Fault (Option Response) :=
  if method = CString.lit "OPTIONS" then
    (checkAllowedResponses heap .ok handlers none).map some
  else
    match redhttpResponseNewErrorPage heap .methodNotAllowed [] with
    | none => .error .assertion
    | some response => .ok (some (redhttpResponseAddHeader response HeaderName.allow
        (some (CString.lit "OPTIONS"))))

/-- The fallbacks for the request as the handlers have left it. -/
def answerFallback (heap : Heap) (handlers : List (Handler A)) : ConnM A (Option Response) := do
  match (← get).request.path, (← get).request.method with
  | some path, some method => ofExcept (fallbackResponse heap handlers method path)
  | _, _ => throw .nullPointer

/-- `redhttp_server_dispatch_request`; a NULL path or method is dereferenced. -/
def redhttpServerDispatchRequest (heap : Heap) (handlers : List (Handler A)) :
    ConnM A (Option Response) := do
  match (← get).request.path, (← get).request.method with
  | some path, some method =>
    if path = CString.lit "*" then ofExcept (asteriskResponse heap handlers method)
    else
      match ← tryRoutes handlers with
      | some response => pure (some response)
      | none => answerFallback heap handlers
  | _, _ => throw .nullPointer

/-- `redhttp_server_handle_request`, from the request on the socket to the response sent. -/
def redhttpServerHandleRequest (heap : Heap) (now : Option Tm) (handlers : List (Handler A)) :
    ConnM A Response := do
  let result ← onRequest (redhttpRequestRead heap)
  let response ←
    if result ≠ 0 then
      match redhttpResponseNewErrorPage heap .badRequest [] with
      | some response => pure (some response)
      | none => redhttpServerDispatchRequest heap handlers
    else redhttpServerDispatchRequest heap handlers
  match response with
  | none => throw .assertion
  | some response => onRequest (redhttpResponseSend now response)

/-! ### What serving a request is -/

/-- What is between reading a request and sending its response, by the result of the read. -/
def answerRequest (heap : Heap) (handlers : List (Handler A)) (result : ℕ) :
    ConnM A (Option Response) :=
  if result ≠ 0 then
    match redhttpResponseNewErrorPage heap .badRequest [] with
    | some response => pure (some response)
    | none => redhttpServerDispatchRequest heap handlers
  else redhttpServerDispatchRequest heap handlers

/-- The end of serving a request. -/
def sendAnswer (now : Option Tm) (response : Option Response) : ConnM A Response :=
  match response with
  | none => throw .assertion
  | some response => onRequest (redhttpResponseSend now response)

lemma redhttpServerHandleRequest_eq (heap : Heap) (now : Option Tm)
    (handlers : List (Handler A)) :
    redhttpServerHandleRequest heap now handlers =
      (onRequest (redhttpRequestRead heap) >>= fun result =>
        answerRequest heap handlers result >>= sendAnswer now) := by
  rw [redhttpServerHandleRequest]
  congr 1
  funext result
  rw [answerRequest]
  split
  · cases redhttpResponseNewErrorPage heap .badRequest [] <;> rfl
  · rfl

/-- A request that is served has been read and answered, and its response has been sent. -/
lemma handleRequest_of_ok {heap : Heap} {now : Option Tm} {handlers : List (Handler A)}
    {c c' : Conn A} {sent : Response}
    (h : redhttpServerHandleRequest heap now handlers c = .ok sent c') :
    ∃ result r response c₁, redhttpRequestRead heap c.request = .ok result r ∧
      answerRequest heap handlers result { c with request := r } = .ok (some response) c₁ ∧
      c'.app = c₁.app ∧ redhttpResponseSend now response c₁.request = .ok sent c'.request := by
  rw [redhttpServerHandleRequest_eq, bind_apply] at h
  cases hread : redhttpRequestRead heap c.request with
  | error e r => simp [onRequest, hread] at h
  | ok result r =>
    simp only [onRequest, hread, bind_apply] at h
    cases hanswer : answerRequest heap handlers result { c with request := r } with
    | error e c₁ => simp [hanswer] at h
    | ok response c₁ =>
      simp only [hanswer] at h
      cases response with
      | none => simp [sendAnswer] at h
      | some response =>
        simp only [sendAnswer, onRequest] at h
        cases hsend : redhttpResponseSend now response c₁.request with
        | error e r' => simp [hsend] at h
        | ok response' r' =>
          simp only [hsend, EStateM.Result.ok.injEq] at h
          obtain ⟨rfl, rfl⟩ := h
          exact ⟨result, r, response, c₁, rfl, hanswer, rfl, hsend⟩

end RedStore.RedHttp
