/-
`request.c`: a request in memory, from the first byte on its socket to the end.

Every line that is read has a buffer of its own, which the reader of the request line and the
loop over the headers free; what is kept of a line are the copies that belong to the request.  A
body stays in the buffer that it was read into.  The programs of `RedStore.RedHttp.RequestRead`
are followed here in memory, on any input.
-/
import RedStore.RedHttp.ReadBack
import RedStore.RedHttp.RequestNodes

namespace RedStore.RedHttp
open CLib

variable {α β : Type}

/-! ### The functions -/

/-- What is left to read on the socket of a request. -/
def setInput (request : ℕ) (input : List UInt8) : NodeM Unit := do
  let node ← loadRequest request
  save request (.request { node with socket := { node.socket with input } })

/-- One of the strings of a request, unless its pointer is NULL. -/
def readString (request : ℕ) (s : RequestString) : NodeM (Option CString) := do
  match (← loadRequest request).slot s with
  | none => pure none
  | some p => some <$> loadString (some p)

/-- The bytes of a line are taken off the socket. -/
def takeLine (heap : Heap) (request : ℕ) : NodeM (Option (List UInt8)) := do
  match readLineFrom heap bufsiz (← loadRequest request).socket.input with
  | .error fault => throw (.fault fault)
  | .ok (line, input) => do
    setInput request input
    pure line

/-- `redhttp_request_read_line`: the buffer of the line, and what is in it. -/
def redhttpRequestReadLineNode (heap : Heap) (request : ℕ) : NodeM (Option (ℕ × List UInt8)) := do
  match ← takeLine heap request with
  | none => pure none
  | some line => do
    let buffer ← malloc (.string (CString.ofBytes line))
    pure (some (buffer, line))

/-- What `redhttp_request_read_status_line` does with a line. -/
def setStatusLineNode (request : ℕ) (line : List UInt8) : NodeM ℕ :=
  if (CString.ofBytes line).strlen = 0 then pure badRequest
  else
    match splitStatusLine line with
    | .error fault => throw (.fault fault)
    | .ok none => pure badRequest
    | .ok (some parts) => do
      redhttpRequestSetMethodNode request (some parts.method)
      redhttpRequestSetPathAndQueryNode request (some parts.pathAndQuery)
      redhttpRequestSetVersionNode request (some parts.version)
      pure 0

/-- `redhttp_request_read_status_line`. -/
def redhttpRequestReadStatusLineNode (heap : Heap) (request : ℕ) : NodeM ℕ := do
  match ← redhttpRequestReadLineNode heap request with
  | none => pure badRequest
  | some (buffer, line) => do
    let result ← setStatusLineNode request line
    free buffer
    pure result

/-- The loop of `redhttp_request_read` that reads the headers, with a bound on its rounds. -/
def readHeadersNode (heap : Heap) (request : ℕ) : ℕ → NodeM Unit
  | 0 => throw .endless
  | fuel + 1 => do
    match ← redhttpRequestReadLineNode heap request with
    | none => pure ()
    | some (buffer, line) =>
      if (CString.ofBytes line).strlen < 1 then free buffer
      else do
        changeList request .headers (.parseLine (CString.ofBytes line))
        free buffer
        readHeadersNode heap request fuel

/-- `fread(buffer, 1, asked, socket)` into a buffer with the given room. -/
def freadNode (request : ℕ) (room asked : ℕ) : NodeM (List UInt8) := do
  let input := (← loadRequest request).socket.input
  if room < (input.take asked).length then throw (.fault .bufferOverflow)
  else do
    setInput request (input.drop asked)
    pure (input.take asked)

/-- `redhttp_request_read` on a urlencoded body, up to the check that it is complete. -/
def readFormBodyNode (heap : Heap) (request : ℕ) (contentLength : CString) : NodeM BodyRead := do
  let length := sizeOfInt (atoi contentLength)
  let size := (length + 1) % sizeRange
  if heap.malloc size then do
    let data ← freadNode request size length
    takeContentNode request data
    pure (formBodyRead length data)
  else pure .skipped

/-- What is done with a urlencoded body. -/
def takeFormNode (request : ℕ) : BodyRead → NodeM ℕ
  | .answered status => pure status
  | .skipped => pure 0
  | .complete body => do
    redhttpRequestParseArgumentsNode request (some (CString.ofBytes body))
    pure 0

/-- The part of `redhttp_request_read` that is concerned with a POST. -/
def redhttpRequestReadContentNode (heap : Heap) (request : ℕ) : NodeM ℕ := do
  let typeAt ← redhttpRequestGetHeaderNode request (CString.lit "Content-Type")
  let lengthAt ← redhttpRequestGetHeaderNode request (CString.lit "Content-Length")
  match typeAt, lengthAt with
  | some typeAt, some lengthAt => do
    let contentType ← loadString (some typeAt)
    if (bytesOf "application/x-www-form-urlencoded").isPrefixOf contentType.bytes then do
      let contentLength ← loadString (some lengthAt)
      takeFormNode request (← readFormBodyNode heap request contentLength)
    else pure 0
  | _, _ => pure badRequest

/-- The part of `redhttp_request_read` behind the request line. -/
def redhttpRequestReadRestNode (heap : Heap) (request : ℕ) : NodeM ℕ := do
  let version ← readString request .version
  if version.any fun version => !(bytesOf "0.9").isPrefixOf version.bytes then do
    -- every line takes at least one byte off the socket
    let node ← loadRequest request
    readHeadersNode heap request (node.socket.input.length + 1)
    let method ← readString request .method
    if method.any fun method => (bytesOf "POST").isPrefixOf method.bytes then
      redhttpRequestReadContentNode heap request
    else pure 0
  else pure 0

/-- `redhttp_request_read`. -/
def redhttpRequestReadNode (heap : Heap) (request : ℕ) : NodeM ℕ := do
  let result ← redhttpRequestReadStatusLineNode heap request
  if result ≠ 0 then pure result
  else redhttpRequestReadRestNode heap request

/-! ### Programs for some requests -/

/-- A program in memory does what a program on a request does, for some requests, and loses
nothing. -/
def SimulatesOn (request : ℕ) (pre : Request → Prop) (x : RequestM α) (y : NodeM α) : Prop :=
  ∀ rest lost r m, pre r → Owns rest request lost r m → RunsAs rest request lost 0 (x r) (y m)

section SimulatesOn

variable {request : ℕ} {pre : Request → Prop} {x : RequestM α} {y : NodeM α}

lemma Simulates.on {leak : Request → ℕ} (h : Simulates request x y leak)
    (hleak : ∀ r, pre r → leak r = 0) : SimulatesOn request pre x y := by
  intro rest lost r m hr howns
  have hrun := h rest lost r m howns
  rwa [hleak r hr] at hrun

/-- A program that loses nothing loses nothing on some requests. -/
lemma Simulates.everywhere (h : Simulates request x y fun _ => 0) : SimulatesOn request pre x y :=
  h.on fun _ _ => rfl

lemma simulatesOn_throw (fault : Fault) :
    SimulatesOn request pre (throw fault : RequestM α) (throw (.fault fault)) :=
  fun _ _ _ m _ _ => ⟨m, rfl⟩

lemma SimulatesOn.bind {f : α → RequestM β} {g : α → NodeM β} (hx : SimulatesOn request pre x y)
    (mid : Request → Prop) (hmid : ∀ r a r', pre r → x r = .ok a r' → mid r')
    (hf : ∀ a, SimulatesOn request mid (f a) (g a)) :
    SimulatesOn request pre (x >>= f) (y >>= g) := by
  intro rest lost r m hr h
  have hfirst := hx rest lost r m hr h
  rw [bind_apply]
  cases hrun : x r with
  | error fault r' =>
    rw [hrun] at hfirst
    obtain ⟨m', hm'⟩ := hfirst
    exact ⟨m', bind_of_error hm' _⟩
  | ok a r' =>
    rw [hrun] at hfirst
    obtain ⟨leaked, m', hm', hlength, h'⟩ := hfirst
    obtain rfl := List.length_eq_zero_iff.mp hlength
    rw [bind_of_ok hm']
    exact hf a rest lost r' m' (hmid r a r' hr hrun) h'

lemma SimulatesOn.ite {c : Prop} [Decidable c] {x' : RequestM α} {y' : NodeM α}
    (hx : SimulatesOn request pre x y) (hx' : SimulatesOn request pre x' y') :
    SimulatesOn request pre (if c then x else x') (if c then y else y') := by
  split
  · exact hx
  · exact hx'

/-- A block that is there for the time of a program. -/
lemma SimulatesOn.temporary (hx : SimulatesOn request pre x y) (b : Cell) :
    SimulatesOn request pre x (do let p ← malloc b; let a ← y; free p; pure a) :=
  fun rest _ r m hr h => runsAs_temporary b h fun howns => hx rest _ r (m.grow b) hr howns

end SimulatesOn

/-! ### Lines -/

section Lines

variable {request : ℕ} {rest : ℕ → Option Cell} {lost : List (ℕ × Cell)} {r r' : Request}
  {m : Memory Cell}

/-- Another socket for a request. -/
def PlacedRequest.withSocket (P : PlacedRequest) (socket : Socket) : PlacedRequest :=
  { P with socket }

lemma Represents.withInput {P : PlacedRequest} (h : Represents P r) (input : List UInt8) :
    Represents (P.withSocket { P.socket with input }) (r.withInput input) where
  strings s := (h.strings s).trans (by cases s <;> rfl)
  lists l := (h.lists l).trans (by cases l <;> rfl)
  dangling := h.dangling
  serverAddr := h.serverAddr
  serverPort := h.serverPort
  socket := by
    show ({ P.socket with input } : Socket) = { r.socket with input }
    rw [h.socket]

/-- Requests that have the same blocks. -/
structure SameBlocks (r r' : Request) : Prop where
  string : ∀ s, r'.string s = r.string s
  list : ∀ l, r'.list l = r.list l
  pathGlob : r'.pathGlob = r.pathGlob
  serverAddr : r'.serverAddr = r.serverAddr
  serverPort : r'.serverPort = r.serverPort
  socket : r'.socket = r.socket

lemma Owns.congr (h : Owns rest request lost r m) (hsame : SameBlocks r r') :
    Owns rest request lost r' m := by
  obtain ⟨P, hP, hrep, hholding, hdead⟩ := h
  exact ⟨P, hP, ⟨fun s => (hrep.strings s).trans (hsame.string s).symm,
    fun l => (hrep.lists l).trans (hsame.list l).symm, hsame.pathGlob ▸ hrep.dangling,
    hrep.serverAddr.trans hsame.serverAddr.symm, hrep.serverPort.trans hsame.serverPort.symm,
    hrep.socket.trans hsame.socket.symm⟩, hholding, hdead⟩

/-- What a request has on its socket is what its block says. -/
lemma loadRequest_of_owns (h : Owns rest request lost r m) :
    ∃ node, loadRequest request m = .ok node m ∧ node.socket = r.socket := by
  obtain ⟨P, rfl, hrep, hholding, -⟩ := h
  exact ⟨P.node, loadRequest_eq hholding, hrep.socket⟩

lemma setInput_eq (h : Owns rest request lost r m) (input : List UInt8) :
    ∃ m', setInput request input m = .ok () m' ∧
      Owns rest request lost (r.withInput input) m' := by
  obtain ⟨P, rfl, hrep, hholding, hdead⟩ := h
  have hload : loadRequest P.request m = .ok P.node m := loadRequest_eq hholding
  set Q := P.withSocket { P.socket with input } with hQ
  obtain ⟨hsave, h'⟩ := hholding.save (.request Q.node)
  have hrun : setInput P.request input m = .ok () (m.put P.request (.request Q.node)) := by
    rw [setInput, bind_of_ok hload]
    exact hsave
  have hkeeps : KeepsDead (setInput P.request input) :=
    keepsDead_bind (keepsDead_loadRequest _) fun _ => keepsDead_save _ _
  exact ⟨_, hrun, Q, rfl, hrep.withInput input, h', fun p hp =>
    (hkeeps p).of_ok (hdead p hp) hrun⟩

lemma simulates_takeLine (heap : Heap) :
    Simulates request (redhttpRequestReadLine heap) (takeLine heap request) fun _ => 0 := by
  intro rest lost r m h
  obtain ⟨node, hload, hsocket⟩ := loadRequest_of_owns h
  rw [redhttpRequestReadLine, takeLine, bind_of_ok hload, hsocket]
  cases readLineFrom heap bufsiz r.socket.input with
  | error fault => exact ⟨m, rfl⟩
  | ok result =>
    obtain ⟨line, input⟩ := result
    obtain ⟨m', hrun, h'⟩ := setInput_eq h input
    exact ⟨[], m', bind_of_ok hrun _, rfl, h'⟩

/-- One of the strings is read, other than the glob. -/
lemma readString_eq (h : Owns rest request lost r m) {s : RequestString} (hs : s ≠ .pathGlob) :
    readString request s m = .ok (r.string s) m := by
  obtain ⟨P, rfl, hrep, hholding, -⟩ := h
  have hload : loadRequest P.request m = .ok P.node m := loadRequest_eq hholding
  have hslot : P.node.slot s = (P.strings s).map Prod.fst :=
    slot_eq (P := P) fun heq => absurd heq hs
  rw [readString, bind_of_ok hload, hslot, ← hrep.strings s]
  cases hstring : P.strings s with
  | none => rfl
  | some v =>
    exact map_eq_ok_iff.mpr ⟨v.2, loadString_of_block (block_string hholding hstring), rfl⟩

end Lines

/-! ### The request line and the headers -/

section Reading

variable {request : ℕ} {heap : Heap}

/-- A request that has no path and no body yet. -/
def Bare (r : Request) : Prop := r.path = none ∧ r.contentBuffer = none

/-- What `redhttp_request_read_status_line` does with a line. -/
def setStatusLine (line : List UInt8) : RequestM ℕ :=
  if (CString.ofBytes line).strlen = 0 then pure badRequest
  else
    match splitStatusLine line with
    | .error fault => throw fault
    | .ok none => pure badRequest
    | .ok (some parts) => do
      redhttpRequestSetMethod (some parts.method)
      redhttpRequestSetPathAndQuery (some parts.pathAndQuery)
      redhttpRequestSetVersion (some parts.version)
      pure 0

lemma simulatesOn_setStatusLine (line : List UInt8) :
    SimulatesOn request Bare (setStatusLine line) (setStatusLineNode request line) := by
  refine SimulatesOn.ite (simulates_pure _).everywhere ?_
  cases splitStatusLine line with
  | error fault => exact simulatesOn_throw fault
  | ok parts =>
    cases parts with
    | none => exact (simulates_pure _).everywhere
    | some parts =>
      have hmethod : Simulates request (redhttpRequestSetMethod (some parts.method))
          (redhttpRequestSetMethodNode request (some parts.method)) fun _ => 0 :=
        RequestCall.simulates_apply (.setMethod (some parts.method))
      have hversion : Simulates request (redhttpRequestSetVersion (some parts.version))
          (redhttpRequestSetVersionNode request (some parts.version)) fun _ => 0 :=
        RequestCall.simulates_apply (.setVersion (some parts.version))
      have htarget : SimulatesOn request Bare
          (redhttpRequestSetPathAndQuery (some parts.pathAndQuery))
          (redhttpRequestSetPathAndQueryNode request (some parts.pathAndQuery)) :=
        (simulates_setPathAndQuery _).on fun r hr => by simp [wouldLose, Request.string, hr.1]
      refine hmethod.everywhere.bind Bare (fun r _ r' hr hrun => ?_) fun _ =>
        htarget.bind (fun _ => True) (fun _ _ _ _ _ => trivial) fun _ =>
        (hversion.seq (simulates_pure 0)).everywhere
      cases hrun
      exact hr

lemma simulatesOn_readStatusLine :
    SimulatesOn request Bare (redhttpRequestReadStatusLine heap)
      (redhttpRequestReadStatusLineNode heap request) := by
  have hnode : redhttpRequestReadStatusLineNode heap request = (do
      match ← takeLine heap request with
      | none => pure badRequest
      | some line => do
        let buffer ← malloc (.string (CString.ofBytes line))
        let result ← setStatusLineNode request line
        free buffer
        pure result) := by
    rw [redhttpRequestReadStatusLineNode, redhttpRequestReadLineNode, bind_assoc]
    refine congrArg (takeLine heap request >>= ·) (funext fun line => ?_)
    cases line <;> rfl
  rw [hnode]
  refine (simulates_takeLine heap).everywhere.bind Bare (fun r line r' hr hrun => ?_)
    fun line => ?_
  · rw [redhttpRequestReadLine] at hrun
    split at hrun
    · obtain ⟨-, rfl⟩ := EStateM.Result.ok.inj hrun
      exact hr
    · cases hrun
  · cases line with
    | none => exact (simulates_pure _).everywhere
    | some line => exact (simulatesOn_setStatusLine line).temporary _

/-- The loop over the headers, with as many rounds as there are bytes. -/
lemma simulatesOn_readHeaders (fuel : ℕ) :
    SimulatesOn request (fun r => r.socket.input.length < fuel) (readHeaders heap)
      (readHeadersNode heap request fuel) := by
  induction fuel with
  | zero => exact fun _ _ r _ hr _ => absurd hr (Nat.not_lt_zero _)
  | succ fuel ih =>
    have hnode : readHeadersNode heap request (fuel + 1) = (do
        match ← takeLine heap request with
        | none => pure ()
        | some line => do
          let buffer ← malloc (.string (CString.ofBytes line))
          if (CString.ofBytes line).strlen < 1 then free buffer
          else do
            changeList request .headers (.parseLine (CString.ofBytes line))
            free buffer
            readHeadersNode heap request fuel) := by
      rw [readHeadersNode, redhttpRequestReadLineNode, bind_assoc]
      refine congrArg (takeLine heap request >>= ·) (funext fun line => ?_)
      cases line <;> rfl
    rw [hnode]
    intro rest lost r m hr h
    have hline := simulates_takeLine heap rest lost r m h
    rw [readHeaders, readHeadersFrom]
    cases hrun : redhttpRequestReadLine heap r with
    | error fault r' =>
      rw [hrun] at hline
      obtain ⟨m', hm'⟩ := hline
      exact ⟨m', bind_of_error hm' _⟩
    | ok line r' =>
      rw [hrun] at hline
      obtain ⟨leaked, m', hm', hnone, h'⟩ := hline
      obtain rfl := List.length_eq_zero_iff.mp hnone
      rw [bind_of_ok hm']
      cases line with
      | none => exact ⟨[], m', rfl, rfl, h'⟩
      | some line =>
        have hless := redhttpRequestReadLine_input_lt hrun
        dsimp only
        by_cases hempty : (CString.ofBytes line).strlen < 1
        · simp only [if_pos hempty]
          exact (simulates_pure ()).temporary (.string (CString.ofBytes line)) rest lost r' m' h'
        · simp only [if_neg hempty]
          have hround := (simulates_changeList .headers (.parseLine (CString.ofBytes line))).temporary
            (.string (CString.ofBytes line)) rest lost r' m' h'
          have hassoc : (do
              let buffer ← malloc (.string (CString.ofBytes line))
              changeList request .headers (.parseLine (CString.ofBytes line))
              free buffer
              readHeadersNode heap request fuel) = (do
              let buffer ← malloc (.string (CString.ofBytes line))
              changeList request .headers (.parseLine (CString.ofBytes line))
              free buffer) >>= fun _ => readHeadersNode heap request fuel := by
            simp only [bind_assoc]
          rw [hassoc]
          rw [updateList_apply] at hround
          have happly : HeaderCall.apply (r'.list .headers) (.parseLine (CString.ofBytes line)) =
              redhttpHeadersParseLine r'.headers (CString.ofBytes line) := rfl
          rw [happly] at hround
          cases hparse : redhttpHeadersParseLine r'.headers (CString.ofBytes line) with
          | error fault =>
            rw [hparse] at hround
            obtain ⟨m'', hm''⟩ := hround
            exact ⟨m'', bind_of_error hm'' _⟩
          | ok headers =>
            rw [hparse] at hround
            obtain ⟨leaked, m'', hm'', hnone, h''⟩ := hround
            obtain rfl := List.length_eq_zero_iff.mp hnone
            rw [bind_of_ok hm'']
            exact ih rest lost _ m'' (Nat.lt_of_lt_of_le hless (Nat.le_of_lt_succ hr)) h''

/-! ### The body -/

/-- A body that arrives, for a request that has none. -/
lemma simulatesOn_readFormBody (contentLength : CString) :
    SimulatesOn request (fun r => r.contentBuffer = none) (readFormBody heap contentLength)
      (readFormBodyNode heap request contentLength) := by
  intro rest lost r m hr h
  set length := sizeOfInt (atoi contentLength) with hlength
  set size := (length + 1) % sizeRange with hsize
  rw [readFormBody_eq hlength.symm hsize.symm]
  show RunsAs rest request lost 0 _ ((if heap.malloc size = true then (do
    let data ← freadNode request size length
    takeContentNode request data
    pure (formBodyRead length data)) else pure .skipped : NodeM BodyRead) m)
  by_cases hmalloc : heap.malloc size = true
  · rw [if_pos hmalloc, if_pos hmalloc]
    obtain ⟨node, hload, hsocket⟩ := loadRequest_of_owns h
    by_cases hroom : size < (r.socket.input.take length).length
    · rw [if_pos hroom]
      have hfread : freadNode request size length m = .error (.fault .bufferOverflow) m := by
        rw [freadNode, bind_of_ok hload, hsocket, if_pos hroom]
        rfl
      exact ⟨m, bind_of_error hfread _⟩
    · rw [if_neg hroom]
      obtain ⟨m₁, hset, h₁⟩ := setInput_eq h (r.socket.input.drop length)
      have hfread : freadNode request size length m = .ok (r.socket.input.take length) m₁ := by
        rw [freadNode, bind_of_ok hload, hsocket, if_neg hroom, bind_of_ok hset]
        rfl
      have hnone : wouldLose .contentBuffer (r.withInput (r.socket.input.drop length)) = 0 := by
        simp [wouldLose, Request.string, Request.withInput, hr]
      have htake := simulates_takeContent (r.socket.input.take length) rest lost _ m₁ h₁
      rw [hnone] at htake
      obtain ⟨leaked, m₂, hm₂, hzero, h₂⟩ := htake
      obtain rfl := List.length_eq_zero_iff.mp hzero
      refine ⟨[], m₂, ?_, rfl, h₂.congr ⟨fun s => by cases s <;> rfl, fun l => by cases l <;> rfl,
        rfl, rfl, rfl, rfl⟩⟩
      rw [bind_of_ok hfread, bind_of_ok hm₂]
      rfl
  · rw [if_neg hmalloc, if_neg hmalloc]
    exact ⟨[], m, rfl, rfl, h.congr ⟨fun s => by cases s <;> rfl, fun l => by cases l <;> rfl,
      rfl, rfl, rfl, rfl⟩⟩

/-- What is done with a urlencoded body. -/
def takeForm : BodyRead → RequestM ℕ
  | .answered status => pure status
  | .skipped => pure 0
  | .complete body => do
    redhttpRequestParseArguments (some (CString.ofBytes body))
    pure 0

lemma simulates_takeForm (body : BodyRead) :
    Simulates request (takeForm body) (takeFormNode request body) fun _ => 0 := by
  cases body with
  | answered status => exact simulates_pure status
  | skipped => exact simulates_pure 0
  | complete body => exact (simulates_parseArguments _).seq (simulates_pure 0)

lemma simulatesOn_readContent :
    SimulatesOn request (fun r => r.contentBuffer = none) (redhttpRequestReadContent heap)
      (redhttpRequestReadContentNode heap request) := by
  rintro rest lost r m hr ⟨P, rfl, hrep, hholding, hdead⟩
  obtain ⟨typeAt, htype, hcontentType, hreadType⟩ :=
    redhttpRequestGetHeaderNode_eq hrep hholding (CString.lit "Content-Type")
  obtain ⟨lengthAt, hlength, hcontentLength, hreadLength⟩ :=
    redhttpRequestGetHeaderNode_eq hrep hholding (CString.lit "Content-Length")
  have howns : Owns rest P.request lost r m := ⟨P, rfl, hrep, hholding, hdead⟩
  rw [redhttpRequestReadContentNode, bind_of_ok htype, bind_of_ok hlength,
    redhttpRequestReadContent, bind_apply, get_apply]
  dsimp only
  rw [← hcontentType, ← hcontentLength]
  cases typeAt with
  | none => exact ⟨[], m, rfl, rfl, howns⟩
  | some typeAt =>
    cases lengthAt with
    | none => exact ⟨[], m, rfl, rfl, howns⟩
    | some lengthAt =>
      simp only [Option.map_some]
      rw [bind_of_ok (hreadType typeAt rfl)]
      by_cases hform : (bytesOf "application/x-www-form-urlencoded").isPrefixOf
          typeAt.2.bytes = true
      · rw [if_pos hform, if_pos hform, bind_of_ok (hreadLength lengthAt rfl)]
        have hread : SimulatesOn P.request (fun r => r.contentBuffer = none)
            (readFormBody heap lengthAt.2) (readFormBodyNode heap P.request lengthAt.2) :=
          simulatesOn_readFormBody lengthAt.2
        exact hread.bind (fun _ => True) (fun _ _ _ _ _ => trivial)
          (fun body => (simulates_takeForm body).everywhere) rest lost r m hr howns
      · rw [if_neg hform, if_neg hform]
        exact ⟨[], m, rfl, rfl, howns⟩

/-! ### A request as a whole -/

/-- A test of one of the strings, other than the glob. -/
lemma SimulatesOn.test {pre : Request → Prop} {x x' : RequestM α} {y y' : NodeM α}
    {s : RequestString} (hs : s ≠ .pathGlob) {p : Request → Bool} {q : Option CString → Bool}
    (hpq : ∀ r, p r = q (r.string s)) (hx : SimulatesOn request pre x y)
    (hx' : SimulatesOn request pre x' y') :
    SimulatesOn request pre (do if p (← get) then x else x')
      (do if q (← readString request s) then y else y') := by
  intro rest lost r m hr h
  rw [bind_apply, get_apply, bind_of_ok (readString_eq h hs)]
  dsimp only
  rw [hpq r]
  exact hx.ite hx' rest lost r m hr h

lemma simulatesOn_readAllHeaders {pre : Request → Prop} :
    SimulatesOn request pre (readHeaders heap) (do
      let node ← loadRequest request
      readHeadersNode heap request (node.socket.input.length + 1)) := by
  intro rest lost r m _ h
  obtain ⟨node, hload, hsocket⟩ := loadRequest_of_owns h
  rw [bind_of_ok hload, hsocket]
  exact simulatesOn_readHeaders _ rest lost r m (Nat.lt_succ_self _) h

lemma simulatesOn_readRest :
    SimulatesOn request (fun r => r.contentBuffer = none) (redhttpRequestReadRest heap)
      (redhttpRequestReadRestNode heap request) := by
  have hkeeps : Keeps Request.contentBuffer (readHeaders heap) :=
    keeps_readHeaders (fun _ _ _ => rfl) heap
  have hcontent : SimulatesOn request (fun r => r.contentBuffer = none)
      (do if (← get).isPost then redhttpRequestReadContent heap else pure 0)
      (do if (← readString request .method).any fun method =>
            (bytesOf "POST").isPrefixOf method.bytes then redhttpRequestReadContentNode heap request
          else pure 0) :=
    simulatesOn_readContent.test (by decide) (fun _ => rfl) (simulates_pure 0).everywhere
  have hheaders := simulatesOn_readAllHeaders.bind (fun r => r.contentBuffer = none)
    (fun r u r' hr hrun => by
      have hsame := hkeeps r
      rw [hrun, stateOf_ok] at hsame
      exact hsame.trans hr) fun _ => hcontent
  have hnode : redhttpRequestReadRestNode heap request = (do
      if (← readString request .version).any fun version =>
          !(bytesOf "0.9").isPrefixOf version.bytes then
        (do
          let node ← loadRequest request
          readHeadersNode heap request (node.socket.input.length + 1)) >>= fun _ => do
          if (← readString request .method).any fun method =>
              (bytesOf "POST").isPrefixOf method.bytes then
            redhttpRequestReadContentNode heap request
          else pure 0
      else pure 0) := by
    simp only [bind_assoc]
    rfl
  rw [hnode]
  exact hheaders.test (by decide) (fun _ => rfl) (simulates_pure 0).everywhere

/-- To read a request loses nothing, whatever is on the socket. -/
lemma simulatesOn_read :
    SimulatesOn request Bare (redhttpRequestRead heap) (redhttpRequestReadNode heap request) := by
  have hkeeps : Keeps Request.contentBuffer (redhttpRequestReadStatusLine heap) :=
    keeps_readStatusLine (fun _ _ _ _ _ _ _ _ => rfl) heap
  refine simulatesOn_readStatusLine.bind (fun r => r.contentBuffer = none)
    (fun r result r' hr hrun => ?_) fun result =>
      (simulates_pure result).everywhere.ite simulatesOn_readRest
  have hsame := hkeeps r
  rw [hrun, stateOf_ok] at hsame
  exact hsame.trans hr.2

end Reading

/-- A call that loses nothing, as those of the routes and of handlers are. -/
def RequestCall.LosesNothing : RequestCall → Prop
  | .setPathAndQuery pathAndQuery => pathAndQuery = none
  | .takeContent _ => False
  | _ => True

lemma RequestCall.leaks_of_losesNothing {calls : List RequestCall}
    (h : ∀ call ∈ calls, call.LosesNothing) (r : Request) : leaks calls r = 0 := by
  induction calls generalizing r with
  | nil => rfl
  | cons call calls ih =>
    have hcall : call.leak r = 0 := by
      have hloses := h call (by simp)
      cases call with
      | setPathAndQuery pathAndQuery =>
        rw [LosesNothing] at hloses
        rw [hloses]
        rfl
      | takeContent body => exact absurd hloses id
      | _ => rfl
    rw [leaks, hcall, ih fun other hother => h other (by simp [hother])]

/-- The life of a request on the server, from its first byte to its last block. -/
def requestLife (heap : Heap) (calls : List RequestCall) : RequestM ℕ := do
  let status ← redhttpRequestRead heap
  RequestCall.run calls
  pure status

/-- The same in memory. -/
def requestLifeNode (heap : Heap) (request : ℕ) (calls : List RequestCall) : NodeM ℕ := do
  let status ← redhttpRequestReadNode heap request
  RequestCall.runNode request calls
  pure status

lemma simulatesOn_requestLife (heap : Heap) (request : ℕ) {calls : List RequestCall}
    (h : ∀ call ∈ calls, call.LosesNothing) :
    SimulatesOn request Bare (requestLife heap calls) (requestLifeNode heap request calls) := by
  have hcalls : SimulatesOn request (fun _ => True) (RequestCall.run calls)
      (RequestCall.runNode request calls) :=
    (RequestCall.simulates_run calls).on fun r _ => RequestCall.leaks_of_losesNothing h r
  exact simulatesOn_read.bind (fun _ => True) (fun _ _ _ _ _ => trivial) fun status =>
    hcalls.bind (fun _ => True) (fun _ _ _ _ _ => trivial) fun _ =>
      (simulates_pure status).everywhere

/-- A request that arrives, is read and served leaves memory as it was.

Whatever bytes are on the socket, and whatever the routes and the handlers ask of the request, the
run in memory faults where the run on the fields does, ends with its status and has its strings and
lists in the blocks; and when the request is freed, every block that was made since it was new has
been freed once, those of the lines and of arguments among them.  Only a glob that an empty one
replaced is freed twice. -/
theorem requestLife_memory (m : Memory Cell) (heap : Heap) (signature : Option CString)
    (serverAddr serverPort : CString) (input : List UInt8) {calls : List RequestCall}
    (hcalls : ∀ call ∈ calls, call.LosesNothing) :
    ∃ request m₁, redhttpRequestNewNode serverAddr serverPort input m = .ok request m₁ ∧
      (∀ fault r, requestLife heap calls
          (redhttpRequestNew signature serverAddr serverPort input) = .error fault r →
        ∃ m₂, requestLifeNode heap request calls m₁ = .error (.fault fault) m₂) ∧
      ∀ status r, requestLife heap calls
          (redhttpRequestNew signature serverAddr serverPort input) = .ok status r →
        ∃ m₂, requestLifeNode heap request calls m₁ = .ok status m₂ ∧
          ReadsAsRequest r request m₂ ∧
          (r.pathGlob = .freed →
            ∃ m₃, redhttpRequestFreeNode request m₂ = .error (.fault .useAfterFree) m₃) ∧
          (r.pathGlob ≠ .freed →
            ∃ m₃, redhttpRequestFreeNode request m₂ = .ok () m₃ ∧ m₃.block = m.block) := by
  obtain ⟨m₁, hnew, howns⟩ := owns_new m signature serverAddr serverPort input
  refine ⟨m.fresh, m₁, hnew, ?_⟩
  have hbare : Bare (redhttpRequestNew signature serverAddr serverPort input) := ⟨rfl, rfl⟩
  have hrun := simulatesOn_requestLife heap m.fresh hcalls _ _ _ _ hbare howns
  refine ⟨fun fault r hfault => ?_, fun status r hok => ?_⟩
  · rw [hfault] at hrun
    exact hrun
  · rw [hok] at hrun
    obtain ⟨lost, m₂, hm₂, hnone, howns₂⟩ := hrun
    obtain rfl := List.length_eq_zero_iff.mp hnone
    obtain ⟨hfreed, hfree⟩ := free_of_owns howns₂
    refine ⟨m₂, hm₂, readsAsRequest_of_owns howns₂, hfreed, fun hkept => ?_⟩
    obtain ⟨m₃, hm₃, h₃⟩ := hfree hkept
    exact ⟨m₃, hm₃, h₃.block_eq⟩

/-- A run ends with 0 and with a glob that is not dangling. -/
def endsWithGlob (result : EStateM.Result Fault Request ℕ) : Bool :=
  match result with
  | .ok status r => status == 0 && decide (r.pathGlob ≠ .freed)
  | .error _ _ => false

lemma endsWithGlob_iff {result : EStateM.Result Fault Request ℕ} :
    endsWithGlob result = true ↔ ∃ r, result = .ok 0 r ∧ r.pathGlob ≠ .freed := by
  cases result <;> simp [endsWithGlob]

/-- A request for a graph, and what its route and its handler ask of it. -/
theorem requestLife_memory_graph : ∃ request m₁ m₂ m₃,
    redhttpRequestNewNode default default (bytesOf "GET /data/x HTTP/0.9\r\n") Memory.empty =
        .ok request m₁ ∧
      requestLifeNode ⟨fun _ => true, fun _ => 0⟩ request
        [.setPathGlob (some (CString.lit "x")), .getUrl] m₁ = .ok 0 m₂ ∧
      redhttpRequestFreeNode request m₂ = .ok () m₃ ∧
      m₃.block = (Memory.empty : Memory Cell).block := by
  have hcalls : ∀ call ∈ [RequestCall.setPathGlob (some (CString.lit "x")), .getUrl],
      call.LosesNothing := by simp [RequestCall.LosesNothing]
  obtain ⟨request, m₁, hnew, -, hlife⟩ := requestLife_memory Memory.empty
    ⟨fun _ => true, fun _ => 0⟩ none default default (bytesOf "GET /data/x HTTP/0.9\r\n") hcalls
  obtain ⟨r, hrun, hglob⟩ : ∃ r, requestLife ⟨fun _ => true, fun _ => 0⟩
      [.setPathGlob (some (CString.lit "x")), .getUrl]
      (redhttpRequestNew none default default (bytesOf "GET /data/x HTTP/0.9\r\n")) = .ok 0 r ∧
        r.pathGlob ≠ .freed := endsWithGlob_iff.mp (by decide +kernel)
  obtain ⟨m₂, hm₂, -, -, hfree⟩ := hlife 0 r hrun
  obtain ⟨m₃, hm₃, hblock⟩ := hfree hglob
  exact ⟨request, m₁, m₂, m₃, hnew, hm₂, hm₃, hblock⟩

end RedStore.RedHttp
