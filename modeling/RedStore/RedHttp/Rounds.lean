/-
`server.c`: the rounds of a server that listens.

`redhttp_server_run` waits for clients and serves the first of each socket that has one.  A
connection that has got a stream is closed twice, by `fclose` in `redhttp_request_free` and by
`close` behind it; in between nothing is opened, so that the second `close` hits nothing.
-/
import RedStore.RedHttp.Listening

namespace RedStore.RedHttp
open CLib

variable {A : Type}

/-- A client that a socket accepts. -/
structure Client where
  /-- What `getnameinfo` makes of its address, or `strerror` of the failure. -/
  remoteAddr : Except CString (CString × CString)
  /-- The same for the address that it has connected to. -/
  serverAddr : Except CString (CString × CString)
  /-- `fdopen` makes a stream of its connection. -/
  stream : Bool := true
  /-- The time when it is answered. -/
  now : Option Tm := none
  input : List UInt8
  /-- The descriptors that the libraries have open once it has been answered. -/
  library : Finset ℕ

/-- What comes of `select`: the sockets with clients, and what `accept` makes of them. -/
inductive Select where
  | interrupted
  | failed (error : CString)
  | ready (waiting : List (ℕ × Except CString Client))

/-- The request of a client before it is read. -/
def Client.request (client : Client) (server : Server) (serverAddr : CString × CString) : Request :=
  redhttpRequestNew server.signature serverAddr.1 serverAddr.2 client.input

section Run

variable (heap : Heap) (handlers : Option Tm → List (Handler A)) (server : Server)

/-- `redhttp_server_handle_request` from the reading of the request to its response.  The
handlers are given the time that they see. -/
def answerClient (client : Client) (serverAddr : CString × CString) : ProcessM A Unit := fun p =>
  match redhttpServerHandleRequest heap client.now (handlers client.now)
      ⟨client.request server serverAddr, p.app⟩ with
  | .ok _ c => .ok () { p with
      app := c.app
      outputs := p.outputs ++ [c.request.socket.output]
      descriptors := p.descriptors.called client.library }
  | .error fault c => .error (.faulted fault) { p with app := c.app }

/-- `redhttp_server_handle_request` up to `redhttp_request_free`.  Without a stream the first
`fgetc`, or the `fwrite` of an error page, is given NULL. -/
def meetClient (client : Client) : ProcessM A Unit :=
  match client.remoteAddr, client.serverAddr with
  | .error error, _ => perror "could not get numeric hostname of client" error
  | .ok _, .error error => perror "could not get numeric hostname of server" error
  | .ok _, .ok serverAddr =>
    if client.stream then answerClient heap handlers server client serverAddr
    else throw (.faulted .nullPointer)

/-- `redhttp_server_handle_request` on a descriptor, which `redhttp_request_free` closes with the
stream, if there is one. -/
def handleConnection (cs : ℕ) (client : Client) : ProcessM A Unit := do
  meetClient heap handlers server client
  if client.stream then closeDescriptor cs else pure ()

/-- The round of `redhttp_server_run` for a client. -/
def serveClient (client : Client) : ProcessM A Unit := do
  let cs ← openDescriptor
  handleConnection heap handlers server cs client
  closeDescriptor cs

/-- `FD_SET` for some sockets; a set has no room for larger ones. -/
def fdSetAll : List ℕ → ProcessM A Unit
  | [] => pure ()
  | sock :: sockets =>
    if sock < fdSetsize then fdSetAll sockets else throw (.faulted .bufferOverflow)

/-- `FD_ISSET` for a socket of the server behind `select`, which looks at the descriptors below
`nfds`; and what `accept` makes of the socket. -/
def accepted (nfds : ℤ) (waiting : List (ℕ × Except CString Client)) (sock : ℕ) :
    Option (Except CString Client) :=
  if (sock : ℤ) < nfds then waiting.lookup sock else none

/-- `accept` for a socket that is set, and the service of the client that it gives. -/
def acceptAt (waiting : List (ℕ × Except CString Client)) (sock : ℕ) : ProcessM A Unit :=
  match accepted (server.socketMax + 1) waiting sock with
  | none => pure ()
  | some (.error error) => do
    perror "accept" error
    throw (.exited exitFailure)
  | some (.ok client) => serveClient heap handlers server client

/-- The loop of `redhttp_server_run` over the sockets. -/
def acceptLoop (waiting : List (ℕ × Except CString Client)) : List ℕ → ProcessM A Unit
  | [] => pure ()
  | sock :: sockets => do
    acceptAt heap handlers server waiting sock
    acceptLoop waiting sockets

/-- `redhttp_server_run` behind `select`. -/
def behindSelect : Select → ProcessM A Unit
  | .interrupted => pure ()
  | .failed error => do
    perror "select" error
    throw (.exited exitFailure)
  | .ready waiting => acceptLoop heap handlers server waiting server.sockets

/-- `redhttp_server_run`. -/
def redhttpServerRun (select : Select) : ProcessM A Unit := do
  fdSetAll server.sockets
  behindSelect heap handlers server select

/-- The rounds of a server until its program stops it. -/
def serverRounds : List Select → ProcessM A Unit
  | [] => pure ()
  | select :: rounds => do
    redhttpServerRun heap handlers server select
    serverRounds rounds

end Run

/-! ### A client -/

/-- The address that a client is answered from, if it is not turned away. -/
def Client.answeredAt (client : Client) : Option (CString × CString) :=
  match client.remoteAddr, client.serverAddr with
  | .ok _, .ok serverAddr => some serverAddr
  | _, _ => none

/-- What closing its connection hits. -/
def Client.closings (client : Client) : List Closing :=
  if client.stream then [.own, .nothing] else [.own]

/-- The descriptors behind a client that has been answered. -/
def Client.leaves (client : Client) (d : Descriptors) : Descriptors :=
  (d.opened.called client.library).closed d.lowest

section Client

variable {heap : Heap} {handlers : Option Tm → List (Handler A)} {server : Server}
  {client : Client} {p p' : Process A}

lemma Client.leaves_own (client : Client) (d : Descriptors) : (client.leaves d).own = d.own :=
  Finset.erase_insert d.lowest_notMem_own

lemma closeDescriptor_own {d : Descriptors} {cs : ℕ} (hd : p.descriptors = d) (hcs : cs ∈ d.own) :
    closeDescriptor cs p =
      .ok () { p with descriptors := d.closed cs, closings := p.closings ++ [.own] } := by
  have hhit : closing d cs = .own := if_pos hcs
  simp only [closeDescriptor, modify_apply, hd, hhit]

/-- The two calls of `close` for a connection: the first closes it, the second hits nothing. -/
lemma close_twice {d : Descriptors} {cs : ℕ} (hd : p.descriptors = d) (hcs : cs ∈ d.own) :
    (closeDescriptor cs >>= fun _ => closeDescriptor cs) p =
      .ok () { p with
        descriptors := d.closed cs, closings := p.closings ++ [.own, .nothing] } := by
  have hlibrary : cs ∉ d.library := Finset.disjoint_left.mp d.disjoint hcs
  have hsecond : closing (d.closed cs) cs = .nothing := by
    simp [closing, Descriptors.closed, hlibrary]
  rw [bind_of_ok (closeDescriptor_own hd hcs)]
  simp only [closeDescriptor, modify_apply, hsecond, Descriptors.closed_closed, List.append_assoc,
    List.cons_append, List.nil_append]

/-- A connection that is still open when its client has been met is closed. -/
lemma serveClient_of_met {p₁ : Process A}
    (h : meetClient heap handlers server client { p with descriptors := p.descriptors.opened } =
      .ok () p₁) (hcs : p.descriptors.lowest ∈ p₁.descriptors.own) :
    serveClient heap handlers server client p = .ok () { p₁ with
      descriptors := p₁.descriptors.closed p.descriptors.lowest
      closings := p₁.closings ++ client.closings } := by
  have hopen : openDescriptor p =
    .ok p.descriptors.lowest { p with descriptors := p.descriptors.opened } := rfl
  rw [serveClient, bind_of_ok hopen]
  cases hstream : client.stream with
  | true =>
    have hclosings : client.closings = [.own, .nothing] := if_pos hstream
    rw [hclosings, ← close_twice rfl hcs]
    simp only [handleConnection, bind_apply, h, hstream, if_true]
  | false =>
    have hclosings : client.closings = [.own] := if_neg (by simp [hstream])
    rw [hclosings, ← closeDescriptor_own rfl hcs]
    simp only [handleConnection, bind_apply, h, hstream, Bool.false_eq_true, if_false, pure_apply]

lemma answeredAt_eq_some_iff {serverAddr : CString × CString} :
    client.answeredAt = some serverAddr ↔
      (∃ remoteAddr, client.remoteAddr = .ok remoteAddr) ∧ client.serverAddr = .ok serverAddr := by
  rw [Client.answeredAt]
  cases client.remoteAddr <;> cases client.serverAddr <;> simp

/-- A client that is turned away leaves a message. -/
lemma serveClient_of_turnedAway (h : client.answeredAt = none) :
    ∃ said, serveClient heap handlers server client p = .ok () { p with
      stderr := p.stderr ++ said, closings := p.closings ++ client.closings } := by
  have hmet : ∃ said, meetClient heap handlers server client
      { p with descriptors := p.descriptors.opened } =
        .ok () { p with descriptors := p.descriptors.opened, stderr := p.stderr ++ said } := by
    rw [Client.answeredAt] at h
    rw [meetClient]
    cases hremote : client.remoteAddr with
    | error error => exact ⟨_, rfl⟩
    | ok remoteAddr =>
      cases hserver : client.serverAddr with
      | error error => exact ⟨_, rfl⟩
      | ok serverAddr => simp [hremote, hserver] at h
  obtain ⟨said, hmet⟩ := hmet
  refine ⟨said, ?_⟩
  rw [serveClient_of_met hmet (Finset.mem_insert_self _ _)]
  simp only [Descriptors.closed_opened]

/-- Any other with a stream is answered as its request is, and leaves nothing open. -/
lemma serveClient_of_answered {serverAddr : CString × CString}
    (h : client.answeredAt = some serverAddr) (hstream : client.stream = true) {sent : Response}
    {c : Conn A}
    (hrun : redhttpServerHandleRequest heap client.now (handlers client.now)
      ⟨client.request server serverAddr, p.app⟩ = .ok sent c) :
    serveClient heap handlers server client p = .ok () { p with
      app := c.app
      outputs := p.outputs ++ [c.request.socket.output]
      descriptors := client.leaves p.descriptors
      closings := p.closings ++ client.closings } := by
  obtain ⟨⟨remoteAddr, hremote⟩, hserver⟩ := answeredAt_eq_some_iff.mp h
  have hmet : meetClient heap handlers server client
      { p with descriptors := p.descriptors.opened } = .ok () { p with
        app := c.app
        outputs := p.outputs ++ [c.request.socket.output]
        descriptors := p.descriptors.opened.called client.library } := by
    simp only [meetClient, hremote, hserver, hstream, if_true, answerClient, hrun]
  exact serveClient_of_met hmet (Finset.mem_insert_self _ _)

/-- The process does not survive a fault. -/
lemma serveClient_of_fault {serverAddr : CString × CString}
    (h : client.answeredAt = some serverAddr) (hstream : client.stream = true) {fault : Fault}
    {c : Conn A}
    (hrun : redhttpServerHandleRequest heap client.now (handlers client.now)
      ⟨client.request server serverAddr, p.app⟩ = .error fault c) :
    ∃ p', serveClient heap handlers server client p = .error (.faulted fault) p' := by
  obtain ⟨⟨remoteAddr, hremote⟩, hserver⟩ := answeredAt_eq_some_iff.mp h
  refine ⟨{ p with app := c.app, descriptors := p.descriptors.opened }, ?_⟩
  have hopen : openDescriptor p =
    .ok p.descriptors.lowest { p with descriptors := p.descriptors.opened } := rfl
  rw [serveClient, bind_of_ok hopen]
  simp only [handleConnection, bind_apply, meetClient, hremote, hserver, hstream, if_true,
    answerClient, hrun]

/-- Without a stream there is nothing to read the request from. -/
lemma serveClient_of_noStream {serverAddr : CString × CString}
    (h : client.answeredAt = some serverAddr) (hstream : client.stream = false) :
    ∃ p', serveClient heap handlers server client p = .error (.faulted .nullPointer) p' := by
  obtain ⟨⟨remoteAddr, hremote⟩, hserver⟩ := answeredAt_eq_some_iff.mp h
  refine ⟨{ p with descriptors := p.descriptors.opened }, ?_⟩
  have hopen : openDescriptor p =
    .ok p.descriptors.lowest { p with descriptors := p.descriptors.opened } := rfl
  rw [serveClient, bind_of_ok hopen]
  simp only [handleConnection, bind_apply, meetClient, hremote, hserver, hstream,
    Bool.false_eq_true, if_false, throw_apply]

end Client

/-! ### What is left open -/

section Balanced

variable {heap : Heap} {handlers : Option Tm → List (Handler A)} {server : Server}
  {client : Client} {base : Finset ℕ} {p p' : Process A}

/-- The program has the same descriptors open, and has closed none of a library. -/
structure Balanced (p p' : Process A) : Prop where
  own : p'.descriptors.own = p.descriptors.own
  careful : p.Careful → p'.Careful

lemma Balanced.refl (p : Process A) : Balanced p p := ⟨rfl, id⟩

lemma Balanced.trans {p₁ : Process A} (h : Balanced p p₁) (h' : Balanced p₁ p') : Balanced p p' :=
  ⟨h'.own.trans h.own, h'.careful ∘ h.careful⟩

lemma Process.Careful.closed (h : p.Careful)
    (hclosings : p'.closings = p.closings ++ client.closings) : p'.Careful := by
  rw [Process.Careful, hclosings, List.mem_append, not_or, Client.closings]
  refine ⟨h, ?_⟩
  split <;> simp

/-- A connection is closed, and nothing else is. -/
lemma serveClient_balanced (h : serveClient heap handlers server client p = .ok () p') :
    Balanced p p' := by
  cases hat : client.answeredAt with
  | none =>
    obtain ⟨said, hrun⟩ := @serveClient_of_turnedAway _ heap handlers server _ p hat
    obtain ⟨-, rfl⟩ := EStateM.Result.ok.inj (hrun.symm.trans h)
    exact ⟨rfl, fun hp => hp.closed rfl⟩
  | some serverAddr =>
    cases hstream : client.stream with
    | false =>
      obtain ⟨p₁, hfault⟩ := @serveClient_of_noStream _ heap handlers server _ p _ hat hstream
      cases hfault.symm.trans h
    | true =>
      cases hrun : redhttpServerHandleRequest heap client.now (handlers client.now)
          ⟨client.request server serverAddr, p.app⟩ with
      | error fault c =>
        obtain ⟨p₁, hfault⟩ := serveClient_of_fault hat hstream hrun
        cases hfault.symm.trans h
      | ok sent c =>
        obtain ⟨-, rfl⟩ :=
          EStateM.Result.ok.inj ((serveClient_of_answered hat hstream hrun).symm.trans h)
        exact ⟨client.leaves_own _, fun hp => hp.closed rfl⟩

/-- A program that leaves the descriptors balanced if it ends well. -/
def Balances (x : ProcessM A Unit) : Prop := ∀ p p', x p = .ok () p' → Balanced p p'

lemma balances_pure : Balances (pure () : ProcessM A Unit) := by
  intro p p' h
  obtain ⟨-, rfl⟩ := EStateM.Result.ok.inj h
  exact .refl p

lemma Balances.bind {x y : ProcessM A Unit} (hx : Balances x) (hy : Balances y) :
    Balances (x >>= fun _ => y) := by
  intro p p' h
  rw [bind_apply] at h
  cases hrun : x p with
  | error e p₁ => simp [hrun] at h
  | ok u p₁ =>
    rw [hrun] at h
    exact (hx p p₁ hrun).trans (hy p₁ p' h)

lemma balances_acceptAt (waiting : List (ℕ × Except CString Client)) (sock : ℕ) :
    Balances (acceptAt heap handlers server waiting sock) := by
  rw [acceptAt]
  cases accepted (server.socketMax + 1) waiting sock with
  | none => exact balances_pure
  | some outcome =>
    cases outcome with
    | error error => intro p p' h; simp [perror, printError, bind_apply] at h
    | ok client => exact fun p p' h => serveClient_balanced h

lemma balances_acceptLoop (waiting : List (ℕ × Except CString Client)) (sockets : List ℕ) :
    Balances (acceptLoop heap handlers server waiting sockets) := by
  induction sockets with
  | nil => exact balances_pure
  | cons sock sockets ih => exact (balances_acceptAt waiting sock).bind ih

/-- Without a socket that is too large, `FD_SET` changes nothing. -/
lemma fdSetAll_eq {sockets : List ℕ} (p : Process A) :
    fdSetAll sockets p = if ∀ sock ∈ sockets, sock < fdSetsize then .ok () p
      else .error (.faulted .bufferOverflow) p := by
  induction sockets with
  | nil => simp [fdSetAll]
  | cons sock sockets ih =>
    rw [fdSetAll]
    by_cases hsock : sock < fdSetsize
    · simp [hsock, ih]
    · simp [hsock]

lemma balances_redhttpServerRun (select : Select) :
    Balances (redhttpServerRun heap handlers server select) := by
  have hsets : Balances (fdSetAll server.sockets : ProcessM A Unit) := by
    intro p p' h
    rw [fdSetAll_eq] at h
    split_ifs at h
    obtain ⟨-, rfl⟩ := EStateM.Result.ok.inj h
    exact .refl p
  refine hsets.bind ?_
  cases select with
  | interrupted => exact balances_pure
  | failed error => intro p p' h; simp [behindSelect, perror, printError, bind_apply] at h
  | ready waiting => exact balances_acceptLoop waiting server.sockets

lemma balances_serverRounds (rounds : List Select) :
    Balances (serverRounds heap handlers server rounds) := by
  induction rounds with
  | nil => exact balances_pure
  | cons select rounds ih => exact (balances_redhttpServerRun select).bind ih

/-- When a server is freed, its sockets are closed. -/
lemma closeAll_listening {sockets : List ℕ} (hown : p.descriptors.own = base ∪ sockets.toFinset)
    (hapart : ∀ sock ∈ sockets, sock ∉ base) (hnodup : sockets.Nodup) (hcareful : p.Careful) :
    ∃ p', closeAll sockets p = .ok () p' ∧ p'.descriptors.own = base ∧
      p'.descriptors.library = p.descriptors.library ∧ p'.Careful := by
  induction sockets generalizing p with
  | nil => exact ⟨p, rfl, by simpa using hown, rfl, hcareful⟩
  | cons sock sockets ih =>
    have hsock : sock ∈ p.descriptors.own := by simp [hown]
    have hhit : closing p.descriptors sock = .own := if_pos hsock
    rw [List.nodup_cons] at hnodup
    have hkept : p.descriptors.own.erase sock = base ∪ sockets.toFinset := by
      have hbase := hapart sock (by simp)
      rw [hown, List.toFinset_cons, Finset.union_insert, Finset.erase_insert]
      simp [hbase, hnodup.1]
    obtain ⟨p', hrun, hbase, hlibrary, hcareful'⟩ := ih
      (p := { p with
        descriptors := p.descriptors.closed sock, closings := p.closings ++ [.own] }) hkept
      (fun s hs => hapart s (by simp [hs])) hnodup.2 (by
        rw [Process.Careful, List.mem_append, not_or]
        exact ⟨hcareful, by simp⟩)
    refine ⟨p', ?_, hbase, hlibrary.trans (Descriptors.closed_of_mem hsock), hcareful'⟩
    rw [closeAll, closeDescriptor, bind_apply, modify_apply, hhit]
    exact hrun

end Balanced

/-! ### The life of a server -/

/-- A server from its first socket to its end. -/
def serverLife (heap : Heap) (handlers : Option Tm → List (Handler A))
    (signature : Option CString) (calls : List (Except CString (List Address)))
    (rounds : List Select) : ProcessM A Unit := do
  let (_, server) ← listenCalls calls (signedServer signature)
  serverRounds heap handlers server rounds
  redhttpServerFree server

section Life

variable {heap : Heap} {handlers : Option Tm → List (Handler A)} {signature : Option CString}
  {calls : List (Except CString (List Address))} {rounds : List Select} {p p₁ p' : Process A}
  {results : List ℤ} {server : Server}

/-- Behind the rounds the sockets are still there to be closed. -/
lemma serverLife_eq
    (hlisten : listenCalls calls (signedServer signature) p = .ok (results, server) p₁) :
    serverLife heap handlers signature calls rounds p =
      (serverRounds heap handlers server rounds >>= fun _ => redhttpServerFree server) p₁ := by
  rw [serverLife, bind_of_ok hlisten]

end Life

/-- A client that is answered, and one whose address cannot be printed and that gets no stream;
before them, a round that is interrupted. -/
def twoClients : List Select := [
  .interrupted,
  .ready [(3, .ok {
    remoteAddr := .ok (CString.lit "127.0.0.1", CString.lit "50000")
    serverAddr := .ok (CString.lit "127.0.0.1", CString.lit "8080")
    input := bytesOf "HEAD /data/x HTTP/1.0\r\n\r\n"
    library := {4} })],
  .ready [(3, .ok {
    remoteAddr := .error (CString.lit "Invalid argument")
    serverAddr := .ok (CString.lit "127.0.0.1", CString.lit "8080")
    stream := false
    input := []
    library := ∅ })]]

/-- A program has come to its end. -/
def endsWell {ε s α : Type} : EStateM.Result ε s α → Bool
  | .ok _ _ => true
  | .error _ _ => false

lemma endsWell_iff {ε s α : Type} {result : EStateM.Result ε s α} :
    endsWell result = true ↔ ∃ a s', result = .ok a s' := by
  cases result <;> simp [endsWell]

/-- Memory for everything. -/
def ampleHeap : Heap := ⟨fun _ => true, fun _ => 0⟩

end RedStore.RedHttp
