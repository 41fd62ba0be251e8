/-
`server.c`: the sockets that a server listens on.

The process that a server runs in has descriptors, an error output and the state of the
application.  `redhttp_server_listen` tries the addresses that `getaddrinfo` has found, one
after the other, and closes the sockets that come to nothing; what the calls for an address
come to is part of the address.
-/
import RedStore.CLib.Descriptors
import RedStore.RedHttp.Server

namespace RedStore.RedHttp
open CLib

/-! ### The process -/

/-- What a `close` has hit. -/
inductive Closing where
  | own | library | nothing
deriving DecidableEq

/-- A process with a server. -/
structure Process (A : Type) where
  descriptors : Descriptors
  stderr : List UInt8 := []
  app : A
  /-- What has been sent to the clients so far. -/
  outputs : List (List UInt8) := []
  /-- What the calls of `close` have hit so far. -/
  closings : List Closing := []

/-- How a process comes to its end. -/
inductive Ended where
  | exited (status : ℕ)
  | faulted (fault : Fault)

/-- A program of a process. -/
abbrev ProcessM (A : Type) : Type → Type := EStateM Ended (Process A)

variable {A : Type}

/-- A call that gives a new descriptor. -/
def openDescriptor : ProcessM A ℕ := fun p =>
  .ok p.descriptors.lowest { p with descriptors := p.descriptors.opened }

/-- What a `close` hits. -/
def closing (d : Descriptors) (fd : ℕ) : Closing :=
  if fd ∈ d.own then .own else if fd ∈ d.library then .library else .nothing

/-- `close`. -/
def closeDescriptor (fd : ℕ) : ProcessM A Unit := modify fun p =>
  { p with
    descriptors := p.descriptors.closed fd
    closings := p.closings ++ [closing p.descriptors fd] }

/-- `fprintf(stderr, ...)`. -/
def printError (text : List UInt8) : ProcessM A Unit :=
  modify fun p => { p with stderr := p.stderr ++ text }

/-- `perror`. -/
def perror (text : String) (error : CString) : ProcessM A Unit :=
  printError (bytesOf text ++ bytesOf ": " ++ error.bytes ++ bytesOf "\n")

/-! ### The server -/

/-- `FD_SETSIZE`. -/
def fdSetsize : ℕ := 1024

/-- `EXIT_FAILURE`. -/
def exitFailure : ℕ := 1

/-- `struct redhttp_server_s`: the part of its array of sockets that is in use, and the largest
of them.  The handlers stand by themselves, as elsewhere. -/
structure Server where
  sockets : List ℕ := []
  socketMax : ℤ := -1
  signature : Option CString := none

/-- `redhttp_server_new`. -/
def redhttpServerNew : Server := {}

/-- `redhttp_server_set_signature`. -/
def redhttpServerSetSignature (server : Server) (signature : Option CString) : Server :=
  { server with signature }

/-- An address to listen on, as `getnameinfo` prints it; with each call for it comes what
`strerror` says of its failure, if it fails. -/
structure Address where
  host : CString
  serv : CString
  socket : Option CString := none
  setsockopt : Option CString := none
  bind : Option CString := none
  listen : Option CString := none

/-- A failure is reported as long as there is no socket. -/
def complain (server : Server) (text : List UInt8) : ProcessM A Unit :=
  if server.sockets.length < 1 then printError text else pure ()

/-- The report of a failure for an address. -/
def complainOf (server : Server) (call : String) (error : CString) (address : Address) :
    ProcessM A Unit :=
  complain server (bytesOf call ++ bytesOf "() failed: " ++ error.bytes ++ bytesOf ": [" ++
    address.host.bytes ++ bytesOf "]:" ++ address.serv.bytes ++ bytesOf "\n")

/-- `setsockopt` for a new socket, which is used even if it fails. -/
def reuseAddress (server : Server) (address : Address) : ProcessM A Unit :=
  match address.setsockopt with
  | some error =>
    complain server (bytesOf "setsockopt(SO_REUSEADDR) failed: " ++ error.bytes ++ bytesOf "\n")
  | none => pure ()

/-- A socket that cannot be used is closed. -/
def giveUp (server : Server) (call : String) (error : CString) (address : Address)
    (sock : ℕ) : ProcessM A Server := do
  complainOf server call error address
  closeDescriptor sock
  pure server

/-- The round of `redhttp_server_listen` for an address. -/
def listenOn (server : Server) (address : Address) : ProcessM A Server := do
  match address.socket with
  | some error =>
    -- reported as a failure of `bind`, too
    complainOf server "bind" error address
    pure server
  | none =>
    let sock ← openDescriptor
    reuseAddress server address
    match address.bind, address.listen with
    | some error, _ => giveUp server "bind" error address sock
    | none, some error => giveUp server "listen" error address sock
    | none, none =>
      pure { server with
        socketMax := if (sock : ℤ) > server.socketMax then sock else server.socketMax
        sockets := server.sockets ++ [sock] }

/-- The loop of `redhttp_server_listen`. -/
def listenOnAll : List Address → Server → ProcessM A Server
  | [], server => pure server
  | address :: addresses, server =>
    if server.sockets.length < fdSetsize then do
      let server ← listenOn server address
      listenOnAll addresses server
    else pure server

/-- `redhttp_server_listen`, for what `getaddrinfo` has found or what is wrong with it. -/
def redhttpServerListen (server : Server) (found : Except CString (List Address)) :
    ProcessM A (ℤ × Server) := do
  match found with
  | .error message =>
    printError (bytesOf "getaddrinfo: " ++ message.bytes ++ bytesOf "\n")
    pure (-1, server)
  | .ok addresses =>
    let server ← listenOnAll addresses server
    if server.sockets.length = 0 then pure (-1, server) else pure (0, server)

/-- The loop of `redhttp_server_free` over the sockets. -/
def closeAll : List ℕ → ProcessM A Unit
  | [] => pure ()
  | sock :: sockets => do
    closeDescriptor sock
    closeAll sockets

/-- `redhttp_server_free`. -/
def redhttpServerFree (server : Server) : ProcessM A Unit := closeAll server.sockets

/-! ### An address -/

/-- A socket comes of an address. -/
def Address.opens (address : Address) : Bool :=
  address.socket.isNone && address.bind.isNone && address.listen.isNone

/-- The server once it listens on a socket. -/
def Server.listeningAt (server : Server) (sock : ℕ) : Server :=
  { server with
    socketMax := if (sock : ℤ) > server.socketMax then sock else server.socketMax
    sockets := server.sockets ++ [sock] }

section Address

variable {server : Server} {address : Address} {p : Process A}

lemma complain_apply (server : Server) (text : List UInt8) (p : Process A) :
    ∃ said, complain server text p = .ok () { p with stderr := p.stderr ++ said } ∧
      (server.sockets ≠ [] → said = []) := by
  rw [complain]
  split
  · next h =>
    refine ⟨text, rfl, fun hne => absurd (List.length_pos_iff.mpr hne) (by omega)⟩
  · exact ⟨[], by simp, fun _ => rfl⟩

lemma reuseAddress_apply (server : Server) (address : Address) (p : Process A) :
    ∃ said, reuseAddress server address p = .ok () { p with stderr := p.stderr ++ said } ∧
      (server.sockets ≠ [] → said = []) := by
  rw [reuseAddress]
  cases address.setsockopt with
  | some error => exact complain_apply server _ p
  | none => exact ⟨[], by simp, fun _ => rfl⟩

/-- A socket that has just been opened and is given up leaves no trace. -/
lemma giveUp_apply (server : Server) (call : String) (error : CString) (address : Address)
    (p : Process A) :
    ∃ said, giveUp server call error address p.descriptors.lowest
        { p with descriptors := p.descriptors.opened } =
      .ok server { p with stderr := p.stderr ++ said, closings := p.closings ++ [.own] } ∧
      (server.sockets ≠ [] → said = []) := by
  obtain ⟨said, hsaid, hquiet⟩ := complain_apply server (bytesOf call ++ bytesOf "() failed: " ++
    error.bytes ++ bytesOf ": [" ++ address.host.bytes ++ bytesOf "]:" ++ address.serv.bytes ++
    bytesOf "\n") { p with descriptors := p.descriptors.opened }
  have hown : p.descriptors.lowest ∈ p.descriptors.opened.own := Finset.mem_insert_self _ _
  refine ⟨said, ?_, hquiet⟩
  rw [giveUp, complainOf, bind_of_ok hsaid]
  simp only [closeDescriptor, bind_apply, modify_apply, pure_apply, closing, if_pos hown,
    Descriptors.closed_opened]

/-- What becomes of an address: a socket of the server, or nothing but a report. -/
lemma listenOn_apply (server : Server) (address : Address) (p : Process A) :
    ∃ said closings, listenOn server address p =
        .ok (if address.opens then server.listeningAt p.descriptors.lowest else server)
          { p with
            descriptors := if address.opens then p.descriptors.opened else p.descriptors
            stderr := p.stderr ++ said
            closings := p.closings ++ closings } ∧
      (server.sockets ≠ [] → said = []) ∧ Closing.library ∉ closings := by
  rw [listenOn]
  cases hsocket : address.socket with
  | some error =>
    obtain ⟨said, hsaid, hquiet⟩ := complain_apply server (bytesOf "bind" ++ bytesOf "() failed: " ++
      error.bytes ++ bytesOf ": [" ++ address.host.bytes ++ bytesOf "]:" ++ address.serv.bytes ++
      bytesOf "\n") p
    have hopens : address.opens = false := by simp [Address.opens, hsocket]
    refine ⟨said, [], ?_, hquiet, by simp⟩
    simp only [complainOf, bind_of_ok hsaid, hopens, Bool.false_eq_true, if_false, pure_apply,
      List.append_nil]
  | none =>
    obtain ⟨said, hsaid, hquiet⟩ :=
      reuseAddress_apply server address { p with descriptors := p.descriptors.opened }
    have hgiveUp : ∀ call error, address.opens = false →
        ∃ said' closings, giveUp server call error address p.descriptors.lowest
            { p with descriptors := p.descriptors.opened, stderr := p.stderr ++ said } =
          .ok (if address.opens then server.listeningAt p.descriptors.lowest else server)
            { p with
              descriptors := if address.opens then p.descriptors.opened else p.descriptors
              stderr := p.stderr ++ said'
              closings := p.closings ++ closings } ∧
          (server.sockets ≠ [] → said' = []) ∧ Closing.library ∉ closings := by
      intro call error hopens
      obtain ⟨more, hmore, hquiet'⟩ :=
        giveUp_apply server call error address { p with stderr := p.stderr ++ said }
      refine ⟨said ++ more, [.own], ?_, fun hne => by rw [hquiet hne, hquiet' hne]; rfl, by simp⟩
      rw [hopens]
      simpa using hmore
    have hopened : openDescriptor p =
      .ok p.descriptors.lowest { p with descriptors := p.descriptors.opened } := rfl
    simp only [bind_of_ok hopened, bind_of_ok hsaid]
    cases hbind : address.bind with
    | some error => exact hgiveUp _ _ (by simp [Address.opens, hbind])
    | none =>
      cases hlisten : address.listen with
      | some error => exact hgiveUp _ _ (by simp [Address.opens, hlisten])
      | none =>
        have hopens : address.opens = true := by simp [Address.opens, hsocket, hbind, hlisten]
        refine ⟨said, [], ?_, hquiet, by simp⟩
        rw [hopens]
        simp [Server.listeningAt]

end Address

/-! ### The sockets of a server -/

/-- The sockets that a server listens on, in a process that had `base` open. -/
structure Listening (base : Finset ℕ) (server : Server) (p : Process A) : Prop where
  own : p.descriptors.own = base ∪ server.sockets.toFinset
  apart : ∀ sock ∈ server.sockets, sock ∉ base
  nodup : server.sockets.Nodup
  count : server.sockets.length ≤ fdSetsize
  bound : ∀ sock ∈ server.sockets, (sock : ℤ) ≤ server.socketMax
  attained : server.socketMax = -1 ∨ ∃ sock ∈ server.sockets, server.socketMax = sock

/-- What listening may change, and what comes of the addresses. -/
structure Listened (addresses : List Address) (server server' : Server) (p p' : Process A) :
    Prop where
  sockets : server.sockets <+: server'.sockets
  count : server'.sockets.length =
    min fdSetsize (server.sockets.length + addresses.countP Address.opens)
  rest : server' = { server with sockets := server'.sockets, socketMax := server'.socketMax }
  library : p'.descriptors.library = p.descriptors.library
  process : ∃ said closings, (server.sockets ≠ [] → said = []) ∧ Closing.library ∉ closings ∧
    p' = { p with
      descriptors := p'.descriptors
      stderr := p.stderr ++ said
      closings := p.closings ++ closings }

section Listening

variable {base : Finset ℕ} {server server' : Server} {p p' : Process A} {n : ℕ}

/-- The process may change where the descriptors do not. -/
lemma Listening.congr (h : Listening base server p) (hd : p'.descriptors = p.descriptors) :
    Listening base server p' :=
  ⟨by rw [hd]; exact h.own, h.apart, h.nodup, h.count, h.bound, h.attained⟩

/-- A new socket joins the others. -/
lemma Listening.opened (h : Listening base server p)
    (hcount : server.sockets.length < fdSetsize)
    (hd : p'.descriptors = p.descriptors.opened) :
    Listening base (server.listeningAt p.descriptors.lowest) p' := by
  have hnew := p.descriptors.lowest_notMem_own
  rw [h.own, Finset.mem_union, List.mem_toFinset, not_or] at hnew
  refine ⟨?_, ?_, ?_, ?_, ?_, ?_⟩
  · rw [hd]
    ext fd
    simp only [Descriptors.opened, Server.listeningAt, h.own, Finset.mem_insert, Finset.mem_union,
      List.mem_toFinset, List.mem_append, List.mem_singleton]
    tauto
  · intro sock hsock
    rcases List.mem_append.mp hsock with hsock | hsock
    · exact h.apart sock hsock
    · rw [List.mem_singleton.mp hsock]
      exact hnew.1
  · refine List.nodup_append.mpr ⟨h.nodup, List.nodup_singleton _, fun a ha b hb => ?_⟩
    rw [List.mem_singleton.mp hb]
    rintro rfl
    exact hnew.2 ha
  · simp only [Server.listeningAt, List.length_append, List.length_singleton]
    omega
  · intro sock hsock
    simp only [Server.listeningAt]
    rcases List.mem_append.mp hsock with hsock | hsock
    · have hbound := h.bound sock hsock
      split <;> omega
    · rw [List.mem_singleton.mp hsock]
      split <;> omega
  · simp only [Server.listeningAt]
    split
    · exact Or.inr ⟨_, by simp, rfl⟩
    · rcases h.attained with hnone | ⟨sock, hsock, hmax⟩
      · exact Or.inl hnone
      · exact Or.inr ⟨sock, by simp [hsock], hmax⟩

/-- There were no more sockets than descriptors before it, when a socket was opened. -/
def Server.Low (server : Server) (n : ℕ) : Prop :=
  ∀ sock ∈ server.sockets, sock < n + server.sockets.length

lemma Listening.low_opened (h : Listening base server p)
    (hn : base.card + p.descriptors.library.card ≤ n) (hlow : server.Low n) :
    (server.listeningAt p.descriptors.lowest).Low n := by
  have hcard := p.descriptors.lowest_spec.2
  have hall : p.descriptors.all.card ≤
      base.card + server.sockets.length + p.descriptors.library.card := by
    refine (Finset.card_union_le _ _).trans (Nat.add_le_add_right ?_ _)
    rw [h.own]
    exact (Finset.card_union_le _ _).trans (Nat.add_le_add_left (List.toFinset_card_le _) _)
  intro sock hsock
  simp only [Server.listeningAt, List.length_append, List.length_singleton]
  rcases List.mem_append.mp hsock with hsock | hsock
  · have hsmall := hlow sock hsock
    omega
  · rw [List.mem_singleton.mp hsock]
    omega

lemma Listened.refl (h : Listening base server p) : Listened [] server server p p where
  sockets := List.prefix_refl _
  count := by
    have hcount := h.count
    rw [List.countP_nil]
    omega
  rest := rfl
  library := rfl
  process := ⟨[], [], fun _ => rfl, by simp, by simp⟩

/-- A round of the loop, and the rounds behind it. -/
lemma Listened.cons {address : Address} {addresses : List Address} {server₁ : Server}
    {p₁ : Process A} (hcount : server.sockets.length < fdSetsize)
    (hfirst : Listened [address] server server₁ p p₁)
    (hrest : Listened addresses server₁ server' p₁ p') :
    Listened (address :: addresses) server server' p p' where
  sockets := hfirst.sockets.trans hrest.sockets
  count := by
    have hone := hfirst.count
    have hmore := hrest.count
    rw [List.countP_cons, List.countP_nil] at hone
    rw [List.countP_cons]
    split at hone <;> simp_all <;> omega
  rest := by rw [hrest.rest, hfirst.rest]
  library := hrest.library.trans hfirst.library
  process := by
    obtain ⟨said, closings, hquiet, hclosings, hp⟩ := hfirst.process
    obtain ⟨said', closings', hquiet', hclosings', hp'⟩ := hrest.process
    refine ⟨said ++ said', closings ++ closings', fun hne => ?_, ?_, ?_⟩
    · have hne' : server₁.sockets ≠ [] := fun hnil =>
        hne (List.prefix_nil.mp (hnil ▸ hfirst.sockets))
      rw [hquiet hne, hquiet' hne', List.append_nil]
    · rw [List.mem_append, not_or]
      exact ⟨hclosings, hclosings'⟩
    · rw [hp', hp]
      simp

/-- A round of the loop. -/
lemma listenOn_listening (h : Listening base server p) (hlow : server.Low n)
    (hn : base.card + p.descriptors.library.card ≤ n)
    (hcount : server.sockets.length < fdSetsize) (address : Address) :
    ∃ server' p', listenOn server address p = .ok server' p' ∧ Listening base server' p' ∧
      server'.Low n ∧ Listened [address] server server' p p' := by
  obtain ⟨said, closings, hrun, hquiet, hclosings⟩ := listenOn_apply server address p
  refine ⟨_, _, hrun, ?_, ?_, ?_⟩
  · cases address.opens with
    | true => exact h.opened hcount rfl
    | false => exact h.congr rfl
  · cases address.opens with
    | true => exact h.low_opened hn hlow
    | false => exact hlow
  · refine ⟨?_, ?_, ?_, ?_, said, closings, hquiet, hclosings, rfl⟩
    · cases address.opens with
      | true => exact List.prefix_append _ _
      | false => exact List.prefix_refl _
    · rw [List.countP_cons, List.countP_nil]
      cases address.opens with
      | true =>
        simp only [if_true, Server.listeningAt, List.length_append, List.length_singleton]
        omega
      | false =>
        simp only [Bool.false_eq_true, if_false]
        omega
    · cases address.opens <;> rfl
    · cases address.opens <;> rfl

lemma listenOnAll_listening (addresses : List Address) (h : Listening base server p)
    (hlow : server.Low n) (hn : base.card + p.descriptors.library.card ≤ n) :
    ∃ server' p', listenOnAll addresses server p = .ok server' p' ∧ Listening base server' p' ∧
      server'.Low n ∧ Listened addresses server server' p p' := by
  induction addresses generalizing server p with
  | nil => exact ⟨server, p, rfl, h, hlow, Listened.refl h⟩
  | cons address addresses ih =>
    rw [listenOnAll]
    by_cases hcount : server.sockets.length < fdSetsize
    · obtain ⟨server₁, p₁, hfirst, h₁, hlow₁, hlistened⟩ :=
        listenOn_listening h hlow hn hcount address
      obtain ⟨server', p', hrest, h', hlow', hlistened'⟩ :=
        ih h₁ hlow₁ (by rw [hlistened.library]; exact hn)
      refine ⟨server', p', ?_, h', hlow', hlistened.cons hcount hlistened'⟩
      rw [if_pos hcount, bind_of_ok hfirst, hrest]
    · -- the array is full, and the addresses that are left are not tried
      refine ⟨server, p, by rw [if_neg hcount]; rfl, h, hlow, List.prefix_refl _, ?_, rfl, rfl, [],
        [], fun _ => rfl, by simp, by simp⟩
      have hfull := h.count
      omega

/-- What a call of `redhttp_server_listen` has to try. -/
def foundAddresses (found : Except CString (List Address)) : List Address :=
  found.toOption.getD []

/-- `redhttp_server_listen` succeeds when the addresses were found and there is a socket. -/
lemma redhttpServerListen_listening (found : Except CString (List Address))
    (h : Listening base server p) (hlow : server.Low n)
    (hn : base.card + p.descriptors.library.card ≤ n) :
    ∃ result server' p', redhttpServerListen server found p = .ok (result, server') p' ∧
      Listening base server' p' ∧ server'.Low n ∧
      (∃ p₁, p'.descriptors = p₁.descriptors ∧ p'.closings = p₁.closings ∧
        Listened (foundAddresses found) server server' p p₁) ∧
      (result = 0 ↔ found.isOk = true ∧ server'.sockets ≠ []) := by
  cases found with
  | error message =>
    refine ⟨-1, server, _, rfl, h.congr rfl, hlow, ⟨p, rfl, rfl, Listened.refl h⟩, ?_⟩
    simp [Except.isOk, Except.toBool]
  | ok addresses =>
    obtain ⟨server', p', hrun, h', hlow', hlistened⟩ := listenOnAll_listening addresses h hlow hn
    refine ⟨if server'.sockets.length = 0 then -1 else 0, server', p', ?_, h', hlow',
      ⟨p', rfl, rfl, hlistened⟩, ?_⟩
    · rw [redhttpServerListen, bind_of_ok hrun]
      split <;> rfl
    · simp only [List.length_eq_zero_iff, Except.isOk, Except.toBool, true_and]
      split <;> simp_all

/-- Some calls of `redhttp_server_listen`, one after the other. -/
def listenCalls : List (Except CString (List Address)) → Server → ProcessM A (List ℤ × Server)
  | [], server => pure ([], server)
  | found :: calls, server => do
    let (result, server) ← redhttpServerListen server found
    let (results, server) ← listenCalls calls server
    pure (result :: results, server)

/-- The program has closed no descriptor of a library. -/
def Process.Careful (p : Process A) : Prop := Closing.library ∉ p.closings

lemma listenCalls_listening_from (calls : List (Except CString (List Address)))
    (h : Listening base server p) (hlow : server.Low n)
    (hn : base.card + p.descriptors.library.card ≤ n) (hcareful : p.Careful) :
    ∃ results server' p', listenCalls calls server p = .ok (results, server') p' ∧
      Listening base server' p' ∧ server'.Low n ∧
      server'.sockets.length = min fdSetsize
        (server.sockets.length + (calls.flatMap foundAddresses).countP Address.opens) ∧
      server'.signature = server.signature ∧
      p'.descriptors.library = p.descriptors.library ∧ p'.Careful := by
  induction calls generalizing server p with
  | nil =>
    refine ⟨[], server, p, rfl, h, hlow, ?_, rfl, rfl, hcareful⟩
    have hcount := h.count
    simp only [List.flatMap_nil, List.countP_nil]
    omega
  | cons found calls ih =>
    obtain ⟨result, server₁, p₁, hfirst, h₁, hlow₁, ⟨p₂, hd, hclosings, hlistened⟩, -⟩ :=
      redhttpServerListen_listening found h hlow hn
    have hlibrary : p₁.descriptors.library = p.descriptors.library := by
      rw [hd, hlistened.library]
    have hcareful₁ : p₁.Careful := by
      obtain ⟨said, closings, -, hnone, hp₂⟩ := hlistened.process
      rw [Process.Careful, hclosings, hp₂, List.mem_append, not_or]
      exact ⟨hcareful, hnone⟩
    have hsignature : server₁.signature = server.signature := by rw [hlistened.rest]
    obtain ⟨results, server', p', hrest, h', hlow', hcount, hsignature', hlibrary', hcareful'⟩ :=
      ih h₁ hlow₁ (by rw [hlibrary]; exact hn) hcareful₁
    refine ⟨result :: results, server', p', ?_, h', hlow', ?_, hsignature'.trans hsignature,
      hlibrary'.trans hlibrary, hcareful'⟩
    · rw [listenCalls, bind_of_ok hfirst]
      dsimp only
      rw [bind_of_ok hrest]
      rfl
    · have hone := hlistened.count
      rw [hcount, List.flatMap_cons, List.countP_append]
      omega

/-! ### What listening leaves alone -/

/-- What the clients have to do with. -/
def Process.served (p : Process A) : A × List (List UInt8) := (p.app, p.outputs)

lemma keeps_complain (server : Server) (text : List UInt8) :
    Keeps (Process.served (A := A)) (complain server text) :=
  keeps_ite (keeps_modify fun _ => rfl) (keeps_pure ())

lemma keeps_listenOn (server : Server) (address : Address) :
    Keeps (Process.served (A := A)) (listenOn server address) := by
  have hgiveUp : ∀ call error sock,
      Keeps (Process.served (A := A)) (giveUp server call error address sock) :=
    fun call error sock => keeps_bind (keeps_complain server _) fun _ =>
      keeps_bind (keeps_modify fun _ => rfl) fun _ => keeps_pure server
  have hopen : Keeps (Process.served (A := A)) openDescriptor := fun _ => rfl
  have hreuse : Keeps (Process.served (A := A)) (reuseAddress server address) := by
    rw [reuseAddress]
    cases address.setsockopt with
    | some error => exact keeps_complain server _
    | none => exact keeps_pure ()
  rw [listenOn]
  cases address.socket with
  | some error => exact keeps_bind (keeps_complain server _) fun _ => keeps_pure server
  | none =>
    refine keeps_bind hopen fun sock => keeps_bind hreuse fun _ => ?_
    cases address.bind with
    | some error => exact hgiveUp _ _ _
    | none =>
      cases address.listen with
      | some error => exact hgiveUp _ _ _
      | none => exact keeps_pure _

lemma keeps_redhttpServerListen (server : Server) (found : Except CString (List Address)) :
    Keeps (Process.served (A := A)) (redhttpServerListen server found) := by
  cases found with
  | error message => exact keeps_bind (keeps_modify fun _ => rfl) fun _ => keeps_pure _
  | ok addresses =>
    have hall : ∀ addresses server, Keeps (Process.served (A := A))
        (listenOnAll addresses server) := by
      intro addresses
      induction addresses with
      | nil => exact fun server => keeps_pure server
      | cons address addresses ih =>
        exact fun server => keeps_ite
          (keeps_bind (keeps_listenOn server address) fun server => ih server) (keeps_pure server)
    exact keeps_bind (hall addresses server) fun _ => keeps_ite (keeps_pure _) (keeps_pure _)

/-- To listen is nothing to the clients. -/
lemma keeps_listenCalls (calls : List (Except CString (List Address))) (server : Server) :
    Keeps (Process.served (A := A)) (listenCalls calls server) := by
  induction calls generalizing server with
  | nil => exact keeps_pure _
  | cons found calls ih =>
    exact keeps_bind (keeps_redhttpServerListen server found) fun first =>
      keeps_bind (ih first.2) fun _ => keeps_pure _

/-- A server with a signature and no sockets yet. -/
def signedServer (signature : Option CString) : Server :=
  redhttpServerSetSignature redhttpServerNew signature

/-- Whatever has come of the addresses, the sockets that a server is left with are the only
descriptors that it has open, and there are as many as could be listened on. -/
theorem listenCalls_listening (signature : Option CString)
    (calls : List (Except CString (List Address))) (p : Process A) (hcareful : p.Careful) :
    ∃ results server p', listenCalls calls (signedServer signature) p =
        .ok (results, server) p' ∧
      Listening p.descriptors.own server p' ∧
      server.sockets.length = min fdSetsize ((calls.flatMap foundAddresses).countP Address.opens) ∧
      (∀ sock ∈ server.sockets,
        sock < p.descriptors.own.card + p.descriptors.library.card + server.sockets.length) ∧
      server.signature = signature ∧
      p'.descriptors.library = p.descriptors.library ∧ p'.Careful := by
  have hnew : Listening p.descriptors.own (signedServer signature) p :=
    ⟨by simp [signedServer, redhttpServerSetSignature, redhttpServerNew],
      fun _ h => absurd h List.not_mem_nil, List.nodup_nil, Nat.zero_le _,
      fun _ h => absurd h List.not_mem_nil, Or.inl rfl⟩
  have hlow : (signedServer signature).Low
      (p.descriptors.own.card + p.descriptors.library.card) :=
    fun _ h => absurd h List.not_mem_nil
  obtain ⟨results, server, p', hrun, h, hlow', hcount, hsignature, hlibrary, hcareful'⟩ :=
    listenCalls_listening_from calls hnew hlow le_rfl hcareful
  refine ⟨results, server, p', hrun, h, ?_, hlow', hsignature, hlibrary, hcareful'⟩
  have hnone : (signedServer signature).sockets.length = 0 := rfl
  rw [hcount, hnone, Nat.zero_add]

end Listening

/-- Two addresses, of which one cannot be bound. -/
def twoAddresses : List Address := [
  { host := CString.lit "0.0.0.0", serv := CString.lit "8080" },
  { host := CString.lit "::", serv := CString.lit "8080",
    bind := some (CString.lit "Address already in use") }]

/-- A process with its three standard descriptors. -/
def startedProcess (app : A) : Process A where
  descriptors := ⟨{0, 1, 2}, ∅, Finset.disjoint_empty_right _⟩
  app

lemma startedProcess_careful (app : A) : (startedProcess app).Careful := List.not_mem_nil

theorem listenCalls_listening_two : ∃ results server p',
    listenCalls [.ok twoAddresses] (signedServer none) (startedProcess ()) =
        .ok (results, server) p' ∧
      Listening (startedProcess ()).descriptors.own server p' ∧
      server.sockets.length =
        min fdSetsize (([.ok twoAddresses].flatMap foundAddresses).countP Address.opens) ∧
      (∀ sock ∈ server.sockets, sock < (startedProcess ()).descriptors.own.card +
        (startedProcess ()).descriptors.library.card + server.sockets.length) ∧
      server.signature = none ∧
      p'.descriptors.library = (startedProcess ()).descriptors.library ∧ p'.Careful :=
  listenCalls_listening none [.ok twoAddresses] (startedProcess ()) (startedProcess_careful ())

end RedStore.RedHttp
