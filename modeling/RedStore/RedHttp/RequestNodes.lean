/-
`request.c`: a request in memory.

A request is a block with a pointer to each of its strings and to the first entry of each of its
two lists.  Setters free the string that was there, and `redhttp_request_free` frees whatever the
pointers of the request point to.  Two of the functions do not follow the rule:
`redhttp_request_set_path_and_query` loses the path that was there, and
`redhttp_request_set_path_glob` keeps its pointer to a glob that it has freed and not replaced.
-/
import RedStore.RedHttp.Arguments
import RedStore.RedHttp.HeaderNodes

namespace RedStore.RedHttp
open CLib

/-! ### The functions -/

/-- The request that a pointer points to. -/
def loadRequest (request : ℕ) : NodeM RequestNode := do
  match ← load request with
  | .request node => pure node
  | _ => throw (.fault .outOfBounds)

/-- `redhttp_strdup`, of NULL, too. -/
def strdupPointer : Option CString → NodeM (Option ℕ)
  | none => pure none
  | some s => some <$> redhttpStrdup s

/-- `redhttp_request_new`, with the address of the server and the socket that are filled in
later. -/
def redhttpRequestNewNode (serverAddr serverPort : CString) (input : List UInt8) : NodeM ℕ :=
  malloc (.request { serverAddr, serverPort, socket := { input } })

/-- One of the strings is freed. -/
def freeSlot (request : ℕ) (s : RequestString) : NodeM Unit := do
  freePointer ((← loadRequest request).slot s)

/-- One of the pointers to strings is set. -/
def setSlot (request : ℕ) (s : RequestString) (p : Option ℕ) : NodeM Unit := do
  let node ← loadRequest request
  save request (.request { node with slot := Function.update node.slot s p })

/-- What setters have in common: the old string is freed, and the new one copied. -/
def replaceString (request : ℕ) (s : RequestString) (value : Option CString) : NodeM Unit := do
  freeSlot request s
  setSlot request s (← strdupPointer value)

/-- `redhttp_request_set_method`. -/
def redhttpRequestSetMethodNode (request : ℕ) (method : Option CString) : NodeM Unit :=
  replaceString request .method (method.map storedMethod)

/-- `redhttp_request_set_version`. -/
def redhttpRequestSetVersionNode (request : ℕ) (version : Option CString) : NodeM Unit :=
  replaceString request .version version

/-- `redhttp_request_set_query_string`. -/
def redhttpRequestSetQueryStringNode (request : ℕ) (queryString : Option CString) : NodeM Unit :=
  replaceString request .queryString queryString

/-- `redhttp_request_set_path`. -/
def redhttpRequestSetPathNode (request : ℕ) (path : Option CString) : NodeM Unit :=
  replaceString request .path path

/-- `redhttp_request_set_path_glob`. -/
def redhttpRequestSetPathGlobNode (request : ℕ) (pathGlob : Option CString) : NodeM Unit := do
  freeSlot request .pathGlob
  match pathGlob with
  | some glob =>
    if glob.strlen = 0 then pure ()
    else setSlot request .pathGlob (some (← redhttpStrdup glob))
  | none => pure ()

/-- A function on header lists is called on one of the lists. -/
def changeList (request : ℕ) (l : RequestList) (call : HeaderCall) : NodeM Unit := do
  let node ← loadRequest request
  let first ← call.applyNode (node.list l)
  save request (.request { node with list := Function.update node.list l first })

/-- The end of a round of `redhttp_request_parse_arguments`: the decoded key and value are copied
once more by `redhttp_headers_add`, and freed. -/
def addArgument (request : ℕ) (key : CString) (value : Option CString) : NodeM Unit := do
  let keyAt ← redhttpStrdup key
  let valueAt ← strdupPointer value
  changeList request .arguments (.add key value)
  free keyAt
  freePointer valueAt

/-- The loop of `redhttp_request_parse_arguments`. -/
def parseArgumentsFromNode (request : ℕ) (ptr : List UInt8) : NodeM Unit :=
  if ptr = [] then pure ()
  else do
    let argument := nextArgument ptr
    addArgument request (unescaped argument.key) (argument.value.map unescaped)
    match _h : argument.next with
    | none => pure ()
    | some rest => parseArgumentsFromNode request rest
termination_by ptr.length
decreasing_by exact length_next_lt _h

/-- `redhttp_request_parse_arguments`, which works on a copy of its input. -/
def redhttpRequestParseArgumentsNode (request : ℕ) (input : Option CString) : NodeM Unit :=
  match input with
  | none => pure ()
  | some s => do
    let args ← redhttpStrdup s
    parseArgumentsFromNode request s.bytes
    free args

/-- A new string, without a look at the old one. -/
def storeString (request : ℕ) (s : RequestString) (value : CString) : NodeM Unit := do
  let p ← malloc (.string value)
  setSlot request s (some p)

/-- The path of `redhttp_request_set_path_and_query`, by way of a copy of what is escaped. -/
def unescapePath (request : ℕ) (escaped : List UInt8) : NodeM Unit := do
  let path ← malloc (.string (CString.ofBytes escaped))
  storeString request .path (unescaped escaped)
  free path

/-- `redhttp_request_set_path_and_query`. -/
def redhttpRequestSetPathAndQueryNode (request : ℕ) (pathAndQuery : Option CString) :
    NodeM Unit := do
  replaceString request .pathAndQuery pathAndQuery
  match pathAndQuery with
  | none => pure ()
  | some target =>
    match strchr target.bytes (ch '?') with
    | some i => do
      let query := CString.ofBytes (target.bytes.drop (i + 1))
      redhttpRequestSetQueryStringNode request (some query)
      redhttpRequestParseArgumentsNode request (some query)
      unescapePath request (target.bytes.take i)
    | none => unescapePath request target.bytes

/-- A body as `redhttp_request_read` takes it, into a new buffer. -/
def takeContentNode (request : ℕ) (body : List UInt8) : NodeM Unit :=
  storeString request .contentBuffer (CString.ofBytes body)

/-- `redhttp_request_get_header`. -/
def redhttpRequestGetHeaderNode (request : ℕ) (key : CString) : NodeM (Option ℕ) := do
  let node ← loadRequest request
  redhttpHeadersGetNode key (← walkBound) (node.list .headers)

/-- `redhttp_request_get_host`. -/
def redhttpRequestGetHostNode (request : ℕ) : NodeM (Option ℕ) := do
  let node ← loadRequest request
  match node.slot .host with
  | some host => pure (some host)
  | none => do
    let header ← redhttpRequestGetHeaderNode request (CString.lit "Host")
    let host ← match header with
      | some value => do redhttpStrdup (← loadString (some value))
      | none =>
        if node.serverPort = CString.lit "80" then redhttpStrdup node.serverAddr
        else malloc (.string (node.serverAddr ++ CString.lit ":" ++ node.serverPort))
    setSlot request .host (some host)
    pure (some host)

/-- `redhttp_request_get_url`. -/
def redhttpRequestGetUrlNode (request : ℕ) : NodeM (Option ℕ) := do
  match (← loadRequest request).slot .url with
  | some url => pure (some url)
  | none => do
    let host ← redhttpRequestGetHostNode request
    match (← loadRequest request).slot .pathAndQuery with
    | none => pure none
    | some pathAndQuery => do
      let h ← loadString host
      let target ← loadString (some pathAndQuery)
      let url ← malloc (.string (CString.lit "http://" ++ h ++ target))
      setSlot request .url (some url)
      pure (some url)

/-- The strings, as `redhttp_request_free` goes through them. -/
def requestStrings : List RequestString :=
  [.method, .pathAndQuery, .version, .path, .pathGlob, .queryString, .host, .url, .contentBuffer]

/-- Strings are freed, one after the other. -/
def freeSlots (request : ℕ) : List RequestString → NodeM Unit
  | [] => pure ()
  | s :: ss => do
    freeSlot request s
    freeSlots request ss

/-- `redhttp_request_free`; the socket is closed elsewhere. -/
def redhttpRequestFreeNode (request : ℕ) : NodeM Unit := do
  freeSlots request requestStrings
  let node ← loadRequest request
  redhttpHeadersFreeNodes (← walkBound) (node.list .headers)
  redhttpHeadersFreeNodes (← walkBound) (node.list .arguments)
  free request

/-! ### A request and its blocks -/

/-- A request, and where its blocks are; a glob that was freed and not replaced is where it
was. -/
structure PlacedRequest where
  request : ℕ
  strings : RequestString → Option (ℕ × CString)
  lists : RequestList → List PlacedHeader
  dangling : Option ℕ
  serverAddr : CString
  serverPort : CString
  socket : Socket

namespace PlacedRequest

variable (P : PlacedRequest)

/-- What one of its pointers to strings is. -/
def slot (s : RequestString) : Option ℕ :=
  ((P.strings s).map Prod.fst).or (if s = .pathGlob then P.dangling else none)

/-- The block of the request itself. -/
def node : RequestNode :=
  { slot := P.slot
    list := fun l => firstOf (P.lists l) none
    serverAddr := P.serverAddr
    serverPort := P.serverPort
    socket := P.socket }

/-- The blocks of some of its strings. -/
def stringCells (ss : List RequestString) : List (ℕ × Cell) :=
  ss.flatMap fun s => valueCells (P.strings s)

/-- The blocks of one of its lists. -/
def listCells (l : RequestList) : List (ℕ × Cell) := blocksOf (P.lists l) none

/-- All blocks of the request. -/
def cells : List (ℕ × Cell) :=
  (P.request, .request P.node) ::
    (P.stringCells requestStrings ++ (P.listCells .headers ++ P.listCells .arguments))

/-- The blocks of the other strings and of the lists. -/
def besideString (s : RequestString) : List (ℕ × Cell) :=
  P.stringCells (requestStrings.erase s) ++ (P.listCells .headers ++ P.listCells .arguments)

/-- The blocks of the strings and of the other list. -/
def besideList : RequestList → List (ℕ × Cell)
  | .headers => P.stringCells requestStrings ++ P.listCells .arguments
  | .arguments => P.stringCells requestStrings ++ P.listCells .headers

/-- The request with another string. -/
def withString (s : RequestString) (v : Option (ℕ × CString)) : PlacedRequest :=
  { P with strings := Function.update P.strings s v }

/-- The request with another list. -/
def withList (l : RequestList) (ps : List PlacedHeader) : PlacedRequest :=
  { P with lists := Function.update P.lists l ps }

@[simp] lemma withString_self (s : RequestString) (v : Option (ℕ × CString)) :
    (P.withString s v).strings s = v := by simp [withString]

lemma withString_of_ne {s t : RequestString} (h : t ≠ s) (v : Option (ℕ × CString)) :
    (P.withString s v).strings t = P.strings t := by simp [withString, h]

@[simp] lemma withList_self (l : RequestList) (ps : List PlacedHeader) :
    (P.withList l ps).lists l = ps := by simp [withList]

lemma withList_of_ne {l l' : RequestList} (h : l' ≠ l) (ps : List PlacedHeader) :
    (P.withList l ps).lists l' = P.lists l' := by simp [withList, h]

lemma mem_requestStrings (s : RequestString) : s ∈ requestStrings := by cases s <;> decide

lemma stringCells_perm (s : RequestString) :
    (P.stringCells requestStrings).Perm
      (valueCells (P.strings s) ++ P.stringCells (requestStrings.erase s)) := by
  have hperm := List.perm_cons_erase (mem_requestStrings s)
  exact hperm.flatMap_right _

/-- One string in front of the other blocks. -/
lemma cells_perm_string (s : RequestString) (more : List (ℕ × Cell)) :
    (P.cells ++ more).Perm ((P.request, .request P.node) ::
      (valueCells (P.strings s) ++ (P.besideString s ++ more))) := by
  refine List.Perm.cons _ ?_
  rw [besideString, ← List.append_assoc (valueCells _), ← List.append_assoc (valueCells _)]
  exact ((P.stringCells_perm s).append_right _).append_right more

/-- One list in front of the other blocks. -/
lemma cells_perm_list (l : RequestList) (more : List (ℕ × Cell)) :
    (P.cells ++ more).Perm ((P.request, .request P.node) ::
      (P.listCells l ++ (P.besideList l ++ more))) := by
  show ((P.request, Cell.request P.node) :: ((P.stringCells requestStrings ++
    (P.listCells .headers ++ P.listCells .arguments)) ++ more)).Perm _
  refine List.Perm.cons _ ?_
  rw [← Multiset.coe_eq_coe]
  cases l with
  | headers =>
    simp only [besideList, ← Multiset.coe_add]
    abel
  | arguments =>
    simp only [besideList, ← Multiset.coe_add]
    abel

lemma besideString_withString (s : RequestString) (v : Option (ℕ × CString)) :
    (P.withString s v).besideString s = P.besideString s := by
  have hothers : ∀ ss : List RequestString, s ∉ ss →
      (P.withString s v).stringCells ss = P.stringCells ss := by
    intro ss hss
    refine List.flatMap_congr fun t ht => ?_
    have hne : t ≠ s := fun heq => hss (heq ▸ ht)
    rw [P.withString_of_ne hne]
  have hnodup : requestStrings.Nodup := by decide
  rw [besideString, hothers _ hnodup.not_mem_erase]
  rfl

lemma besideList_withList (l : RequestList) (ps : List PlacedHeader) :
    (P.withList l ps).besideList l = P.besideList l := by
  cases l <;> rfl

lemma node_withString {s : RequestString} (hs : s = .pathGlob → P.dangling = none)
    (v : Option (ℕ × CString)) : (P.withString s v).node =
      { P.node with slot := Function.update P.node.slot s (v.map Prod.fst) } := by
  have hslot : (P.withString s v).slot = Function.update P.slot s (v.map Prod.fst) := by
    funext t
    by_cases ht : t = s
    · subst ht
      rw [Function.update_self, slot, withString_self]
      show (v.map Prod.fst).or (if t = .pathGlob then P.dangling else none) = _
      by_cases hglob : t = .pathGlob
      · rw [if_pos hglob, hs hglob, Option.or_none]
      · rw [if_neg hglob, Option.or_none]
    · rw [Function.update_of_ne ht, slot, P.withString_of_ne ht]
      rfl
  rw [node, hslot]
  rfl

lemma node_withList (l : RequestList) (ps : List PlacedHeader) : (P.withList l ps).node =
      { P.node with list := Function.update P.node.list l (firstOf ps none) } := by
  have hlist : (fun l' => firstOf ((P.withList l ps).lists l') none) =
      Function.update P.node.list l (firstOf ps none) := by
    funext l'
    by_cases hl : l' = l
    · subst hl
      rw [Function.update_self, withList_self]
    · rw [Function.update_of_ne hl, P.withList_of_ne hl]
      rfl
  rw [node, hlist]
  rfl

end PlacedRequest

section Blocks

variable {m : Memory Cell} {rest : ℕ → Option Cell} {P : PlacedRequest} {more : List (ℕ × Cell)}
  {node : RequestNode} {request : ℕ} {s : RequestString}

lemma loadRequest_eq (h : Holding m rest ((request, .request node) :: more)) :
    loadRequest request m = .ok node m := by
  rw [loadRequest, bind_of_ok h.load]
  rfl

lemma setSlot_eq (h : Holding m rest ((request, .request node) :: more)) (p : Option ℕ) :
    ∃ m', setSlot request s p m = .ok () m' ∧ Holding m' rest
      ((request, .request { node with slot := Function.update node.slot s p }) :: more) := by
  obtain ⟨hsave, h'⟩ := h.save (.request { node with slot := Function.update node.slot s p })
  refine ⟨_, ?_, h'⟩
  rw [setSlot, bind_of_ok (loadRequest_eq h)]
  exact hsave

/-- The string that a pointer points to is freed. -/
lemma freeSlot_eq {v : Option (ℕ × CString)}
    (h : Holding m rest ((request, .request node) :: (valueCells v ++ more)))
    (hslot : node.slot s = v.map Prod.fst) :
    ∃ m', freeSlot request s m = .ok () m' ∧
      Holding m' rest ((request, .request node) :: more) := by
  obtain ⟨m', hfree, h'⟩ := freePointer_value (h.perm List.perm_middle.symm)
  refine ⟨m', ?_, h'⟩
  rw [freeSlot, bind_of_ok (loadRequest_eq h), hslot]
  exact hfree

lemma strdupPointer_eq (h : Holding m rest more) (value : Option CString) :
    ∃ copy m', strdupPointer value m = .ok (copy.map Prod.fst) m' ∧
      copy.map Prod.snd = value ∧ Holding m' rest (valueCells copy ++ more) := by
  cases value with
  | none => exact ⟨none, m, rfl, rfl, h⟩
  | some v =>
    obtain ⟨hrun, h'⟩ := h.malloc (.string v)
    exact ⟨some (m.fresh, v), _, map_eq_ok_iff.mpr ⟨_, hrun, rfl⟩, rfl, h'⟩

lemma slot_eq (hs : s = .pathGlob → P.dangling = none) :
    P.slot s = (P.strings s).map Prod.fst := by
  rw [PlacedRequest.slot]
  by_cases hglob : s = .pathGlob
  · rw [if_pos hglob, hs hglob, Option.or_none]
  · rw [if_neg hglob, Option.or_none]

/-- A pointer to a new string, the old one being out of the way. -/
lemma setSlot_withString {v : Option (ℕ × CString)} (hs : s = .pathGlob → P.dangling = none)
    (h : Holding m rest ((P.request, .request P.node) ::
      (valueCells v ++ (P.besideString s ++ more)))) :
    ∃ m', setSlot P.request s (v.map Prod.fst) m = .ok () m' ∧
      Holding m' rest ((P.withString s v).cells ++ more) := by
  obtain ⟨m', hset, h'⟩ := setSlot_eq (s := s) h (v.map Prod.fst)
  refine ⟨m', hset, h'.perm ?_⟩
  have hperm := (P.withString s v).cells_perm_string s more
  rw [P.besideString_withString, P.node_withString hs] at hperm
  rw [P.withString_self] at hperm
  exact hperm.symm

/-- The old string goes, and a copy takes its place. -/
lemma replaceString_eq (hs : s = .pathGlob → P.dangling = none)
    (h : Holding m rest (P.cells ++ more)) (value : Option CString) :
    ∃ copy m', replaceString P.request s value m = .ok () m' ∧ copy.map Prod.snd = value ∧
      Holding m' rest ((P.withString s copy).cells ++ more) := by
  obtain ⟨m₁, hfree, h₁⟩ := freeSlot_eq (h.perm (P.cells_perm_string s more)) (slot_eq hs)
  obtain ⟨copy, m₂, hcopy, hvalue, h₂⟩ := strdupPointer_eq h₁ value
  obtain ⟨m', hset, h'⟩ := setSlot_withString hs (h₂.perm List.perm_middle)
  refine ⟨copy, m', ?_, hvalue, h'⟩
  rw [replaceString, bind_of_ok hfree, bind_of_ok hcopy]
  exact hset

/-- A call on one of the lists does to it what it does to a list. -/
lemma changeList_eq (h : Holding m rest (P.cells ++ more)) (l : RequestList) (call : HeaderCall) :
    (∀ fault, call.apply ((P.lists l).map PlacedHeader.header) = .error fault →
      ∃ m', changeList P.request l call m = .error (.fault fault) m') ∧
    ∀ first, call.apply ((P.lists l).map PlacedHeader.header) = .ok first →
      ∃ ps m', changeList P.request l call m = .ok () m' ∧
        ps.map PlacedHeader.header = first ∧ Holding m' rest ((P.withList l ps).cells ++ more) := by
  have hlist := h.perm (P.cells_perm_list l more)
  have hcall := endsAs_apply (hlist.perm List.perm_middle.symm) call
  have hfirst : P.node.list l = firstOf (P.lists l) none := rfl
  rw [changeList, bind_of_ok (loadRequest_eq hlist), hfirst]
  refine ⟨fun fault hfault => ?_, fun first hok => ?_⟩
  · rw [hfault] at hcall
    obtain ⟨m', hm'⟩ := hcall
    exact ⟨m', bind_of_error hm' _⟩
  · rw [hok] at hcall
    obtain ⟨ps, m₁, hrun, hmap, h₁⟩ := hcall
    obtain ⟨hsave, h₂⟩ := (h₁.perm List.perm_middle).save (.request (P.withList l ps).node)
    refine ⟨ps, _, ?_, hmap, h₂.perm ?_⟩
    · rw [bind_of_ok hrun, ← P.node_withList]
      exact hsave
    · have hperm := (P.withList l ps).cells_perm_list l more
      rw [P.besideList_withList, PlacedRequest.listCells, P.withList_self] at hperm
      exact hperm.symm

end Blocks

/-! ### What a request says -/

/-- One of the strings of a request. -/
def Request.string (r : Request) : RequestString → Option CString
  | .method => r.method
  | .pathAndQuery => r.pathAndQuery
  | .version => r.version
  | .path => r.path
  | .pathGlob => match r.pathGlob with
    | .valid glob => some glob
    | _ => none
  | .queryString => r.queryString
  | .host => r.host
  | .url => r.url
  | .contentBuffer => r.contentBuffer.map CString.ofBytes

/-- One of the lists of a request. -/
def Request.list (r : Request) : RequestList → List Header
  | .headers => r.headers
  | .arguments => r.arguments

/-- The blocks say what the request says. -/
structure Represents (P : PlacedRequest) (r : Request) : Prop where
  strings : ∀ s, (P.strings s).map Prod.snd = r.string s
  lists : ∀ l, (P.lists l).map PlacedHeader.header = r.list l
  dangling : P.dangling = none ↔ r.pathGlob ≠ .freed
  serverAddr : P.serverAddr = r.serverAddr
  serverPort : P.serverPort = r.serverPort
  socket : P.socket = r.socket

/-- Memory has the blocks of a request besides a rest and some blocks that are lost. -/
def Owns (rest : ℕ → Option Cell) (request : ℕ) (lost : List (ℕ × Cell)) (r : Request)
    (m : Memory Cell) : Prop :=
  ∃ P : PlacedRequest, P.request = request ∧ Represents P r ∧ Holding m rest (P.cells ++ lost) ∧
    ∀ p ∈ P.dangling, m.Dead p

/-- A run in memory ends as the one on the request: the blocks are those of the new request, and
some more are lost. -/
def RunsAs (rest : ℕ → Option Cell) (request : ℕ) (lost : List (ℕ × Cell)) (leaks : ℕ) :
    EStateM.Result Fault Request α → EStateM.Result Stuck (Memory Cell) α → Prop
  | .ok a r, result => ∃ leaked m', result = .ok a m' ∧ leaked.length = leaks ∧
      Owns rest request (leaked ++ lost) r m'
  | .error fault _, result => ∃ m', result = .error (.fault fault) m'

/-- A program in memory does what a program on a request does. -/
def Simulates (request : ℕ) (x : RequestM α) (y : NodeM α) (leak : Request → ℕ) : Prop :=
  ∀ rest lost r m, Owns rest request lost r m → RunsAs rest request lost (leak r) (x r) (y m)

section Simulates

variable {request : ℕ} {x : RequestM α} {y : NodeM α} {x' : RequestM Unit} {y' : NodeM Unit}
  {leak : Request → ℕ}

lemma simulates_pure (a : α) : Simulates request (pure a) (pure a) fun _ => 0 :=
  fun _ _ _ m h => ⟨[], m, rfl, rfl, h⟩

/-- One program after another: what they lose adds up. -/
lemma Simulates.bind {leak₁ leak₂ : Request → ℕ} (hx' : Simulates request x' y' leak₁)
    (hx : Simulates request x y leak₂)
    (hleak : ∀ r r', x' r = .ok () r' → leak r = leak₂ r' + leak₁ r) :
    Simulates request (x' >>= fun _ => x) (y' >>= fun _ => y) leak := by
  intro rest lost r m h
  have hfirst := hx' rest lost r m h
  rw [bind_apply]
  cases hrun : x' r with
  | error fault r' =>
    rw [hrun] at hfirst
    obtain ⟨m', hm'⟩ := hfirst
    exact ⟨m', bind_of_error hm' _⟩
  | ok u r' =>
    rw [hrun] at hfirst
    obtain ⟨leaked, m', hm', hlength, h'⟩ := hfirst
    have hsecond := hx rest (leaked ++ lost) r' m' h'
    rw [bind_of_ok hm']
    dsimp only
    cases hrun' : x r' with
    | error fault r'' =>
      rw [hrun'] at hsecond
      exact hsecond
    | ok a r'' =>
      rw [hrun'] at hsecond
      obtain ⟨leaked', m'', hm'', hlength', h''⟩ := hsecond
      refine ⟨leaked' ++ leaked, m'', hm'', ?_, ?_⟩
      · rw [List.length_append, hlength', hlength, hleak r r' hrun]
      · rwa [List.append_assoc]

/-- Two programs that lose nothing. -/
lemma Simulates.seq (hx' : Simulates request x' y' fun _ => 0)
    (hx : Simulates request x y fun _ => 0) :
    Simulates request (x' >>= fun _ => x) (y' >>= fun _ => y) fun _ => 0 :=
  hx'.bind hx fun _ _ _ => rfl

lemma runsAs_temporary {rest : ℕ → Option Cell} {lost : List (ℕ × Cell)} {leaks : ℕ} {r : Request}
    {m : Memory Cell} (b : Cell) (h : Owns rest request lost r m)
    (hrun : Owns rest request ((m.fresh, b) :: lost) r (m.grow b) →
      RunsAs rest request ((m.fresh, b) :: lost) leaks (x r) (y (m.grow b))) :
    RunsAs rest request lost leaks (x r)
      ((do let p ← malloc b; let a ← y; free p; pure a : NodeM α) m) := by
  obtain ⟨P, hP, hrep, hholding, hdead⟩ := h
  obtain ⟨hmalloc, h₁⟩ := hholding.malloc b
  replace hrun := hrun ⟨P, hP, hrep, h₁.perm List.perm_middle.symm, fun p hp =>
    (keepsDead_malloc b p).of_ok (hdead p hp) hmalloc⟩
  rw [bind_of_ok hmalloc]
  cases hresult : x r with
  | error fault r' =>
    rw [hresult] at hrun
    obtain ⟨m', hm'⟩ := hrun
    exact ⟨m', bind_of_error hm' _⟩
  | ok a r' =>
    rw [hresult] at hrun
    obtain ⟨leaked, m', hm', hleaks, P', hP', hrep', h', hdead'⟩ := hrun
    have hfront : Holding m' rest ((m.fresh, b) :: (P'.cells ++ (leaked ++ lost))) := by
      refine h'.perm ?_
      rw [← List.append_assoc, ← List.append_assoc]
      exact List.perm_middle
    obtain ⟨hfree, h''⟩ := hfront.free
    refine ⟨leaked, _, ?_, hleaks, P', hP', hrep', h'', fun p hp =>
      (keepsDead_free _ p).of_ok (hdead' p hp) hfree⟩
    rw [bind_of_ok hm', bind_of_ok hfree]
    rfl

/-- A block that is there for the time of a program. -/
lemma Simulates.temporary (hx' : Simulates request x' y' leak) (b : Cell) :
    Simulates request x' (do let p ← malloc b; y'; free p) leak := by
  intro rest lost r m h
  have hunit : (do let p ← malloc b; let u ← y'; free p; pure u : NodeM Unit) =
      (do let p ← malloc b; y'; free p) :=
    congrArg (malloc b >>= ·) (funext fun p => congrArg (y' >>= ·) (funext fun _ => bind_pure_unit))
  rw [← hunit]
  exact runsAs_temporary b h fun howns => hx' rest _ r (m.grow b) howns

/-! ### Strings -/

lemma keepsDead_loadRequest (request : ℕ) : KeepsDead (loadRequest request) := by
  refine keepsDead_bind (keepsDead_load request) fun b => ?_
  cases b with
  | request node => exact keepsDead_pure node
  | string s => exact keepsDead_throw _
  | header node => exact keepsDead_throw _

lemma keepsDead_setSlot (s : RequestString) (p : Option ℕ) : KeepsDead (setSlot request s p) :=
  keepsDead_bind (keepsDead_loadRequest request) fun _ => keepsDead_save _ _

lemma keepsDead_freeSlot (s : RequestString) : KeepsDead (freeSlot request s) :=
  keepsDead_bind (keepsDead_loadRequest request) fun _ => keepsDead_freePointer _

lemma keepsDead_strdupPointer (value : Option CString) : KeepsDead (strdupPointer value) := by
  cases value with
  | none => exact keepsDead_pure none
  | some v => exact keepsDead_map (keepsDead_malloc _)

lemma keepsDead_replaceString (s : RequestString) (value : Option CString) :
    KeepsDead (replaceString request s value) :=
  keepsDead_bind (keepsDead_freeSlot s) fun _ =>
    keepsDead_bind (keepsDead_strdupPointer value) fun p => keepsDead_setSlot s p

lemma keepsDead_storeString (s : RequestString) (value : CString) :
    KeepsDead (storeString request s value) :=
  keepsDead_bind (keepsDead_malloc _) fun p => keepsDead_setSlot s (some p)

/-- A request that differs from another in one string. -/
structure SetsString (s : RequestString) (value : Option CString) (r r' : Request) : Prop where
  string_self : r'.string s = value
  string_other : ∀ t, t ≠ s → r'.string t = r.string t
  list : ∀ l, r'.list l = r.list l
  freed : r'.pathGlob = .freed ↔ r.pathGlob = .freed
  serverAddr : r'.serverAddr = r.serverAddr
  serverPort : r'.serverPort = r.serverPort
  socket : r'.socket = r.socket

lemma Represents.withString {P : PlacedRequest} {r r' : Request} {s : RequestString}
    {value : Option CString} {copy : Option (ℕ × CString)} (h : Represents P r)
    (hsets : SetsString s value r r') (hcopy : copy.map Prod.snd = value) :
    Represents (P.withString s copy) r' where
  strings t := by
    by_cases ht : t = s
    · subst ht
      rw [P.withString_self, hcopy, hsets.string_self]
    · rw [P.withString_of_ne ht, h.strings, hsets.string_other t ht]
  lists l := (h.lists l).trans (hsets.list l).symm
  dangling := h.dangling.trans (not_congr hsets.freed).symm
  serverAddr := h.serverAddr.trans hsets.serverAddr.symm
  serverPort := h.serverPort.trans hsets.serverPort.symm
  socket := h.socket.trans hsets.socket.symm

/-- A setter that frees the old string. -/
lemma simulates_replaceString {s : RequestString} (hs : s ≠ .pathGlob) {value : Option CString}
    {f : Request → Request} (hf : ∀ r, SetsString s value r (f r)) :
    Simulates request (modify f) (replaceString request s value) fun _ => 0 := by
  rintro rest lost r m ⟨P, rfl, hrep, hholding, hdead⟩
  obtain ⟨copy, m', hrun, hcopy, h'⟩ := replaceString_eq (fun h => absurd h hs) hholding value
  exact ⟨[], m', hrun, rfl, P.withString s copy, rfl, hrep.withString (hf r) hcopy, h',
    fun p hp => (keepsDead_replaceString s value p).of_ok (hdead p hp) hrun⟩

/-- One that does not: the old string is lost, if there was one. -/
lemma simulates_storeString {s : RequestString} (hs : s ≠ .pathGlob) {value : CString}
    {f : Request → Request} (hf : ∀ r, SetsString s (some value) r (f r)) :
    Simulates request (modify f) (storeString request s value)
      fun r => if (r.string s).isSome then 1 else 0 := by
  rintro rest lost r m ⟨P, rfl, hrep, hholding, hdead⟩
  obtain ⟨hmalloc, h₁⟩ := hholding.malloc (.string value)
  -- the cells of the old string are moved to those that are lost
  have hfocus : Holding (m.grow (.string value)) rest ((P.request, .request P.node) ::
      (valueCells (some (m.fresh, value)) ++
        (P.besideString s ++ (valueCells (P.strings s) ++ lost)))) := by
    refine (h₁.perm (List.Perm.cons _ (P.cells_perm_string s lost))).perm ?_
    rw [← Multiset.coe_eq_coe]
    simp only [valueCells, Option.map_some, Option.toList_some, List.cons_append,
      List.nil_append, ← Multiset.coe_add, ← Multiset.cons_coe, ← Multiset.singleton_add]
    abel
  obtain ⟨m', hset, h'⟩ := setSlot_withString (fun h => absurd h hs) hfocus
  have hrun : storeString P.request s value m = .ok () m' := by
    rw [storeString, bind_of_ok hmalloc]
    exact hset
  refine ⟨valueCells (P.strings s), m', hrun, ?_, P.withString s (some (m.fresh, value)), rfl,
    hrep.withString (hf r) rfl, h', fun p hp =>
      (keepsDead_storeString s value p).of_ok (hdead p hp) hrun⟩
  show _ = if (r.string s).isSome then 1 else 0
  rw [← hrep.strings s]
  cases P.strings s <;> rfl

lemma setsString_pathGlob {r : Request} (h : r.pathGlob ≠ .freed) (glob : CString) :
    SetsString .pathGlob (some glob) r { r with pathGlob := .valid glob } where
  string_self := rfl
  string_other t ht := by cases t <;> first | rfl | exact absurd rfl ht
  list l := by cases l <;> rfl
  freed := iff_of_false (by simp) h
  serverAddr := rfl
  serverPort := rfl
  socket := rfl

/-- The request with its glob freed, and the pointer still there. -/
def PlacedRequest.dropGlob (P : PlacedRequest) : PlacedRequest :=
  { P.withString .pathGlob none with dangling := (P.strings .pathGlob).map Prod.fst }

lemma PlacedRequest.node_dropGlob {P : PlacedRequest} (h : P.dangling = none) :
    P.dropGlob.node = P.node := by
  have hslot : P.dropGlob.slot = P.slot := by
    funext t
    by_cases ht : t = .pathGlob
    · subst ht
      rw [slot_eq fun _ => h]
      show (((P.withString .pathGlob none).strings .pathGlob).map Prod.fst).or
        ((P.strings .pathGlob).map Prod.fst) = _
      rw [P.withString_self]
      rfl
    · show (((P.withString .pathGlob none).strings t).map Prod.fst).or
        (if t = .pathGlob then _ else none) = _
      rw [P.withString_of_ne ht, if_neg ht, PlacedRequest.slot, if_neg ht]
  rw [PlacedRequest.node, hslot]
  rfl

/-- What becomes of the glob when it is freed. -/
def keptGlob : Pointer CString → Pointer CString
  | .null => .null
  | _ => .freed

lemma Represents.dropGlob {P : PlacedRequest} {r : Request} (h : Represents P r)
    (hfreed : r.pathGlob ≠ .freed) :
    Represents P.dropGlob { r with pathGlob := keptGlob r.pathGlob } where
  strings t := by
    by_cases ht : t = .pathGlob
    · subst ht
      show ((P.withString .pathGlob none).strings .pathGlob).map Prod.snd = _
      rw [P.withString_self]
      cases hglob : r.pathGlob <;> rfl
    · show ((P.withString .pathGlob none).strings t).map Prod.snd = _
      rw [P.withString_of_ne ht, h.strings]
      cases t <;> first | rfl | exact absurd rfl ht
  lists l := by
    have hlist := h.lists l
    cases l <;> exact hlist
  dangling := by
    have hglob := h.strings .pathGlob
    show (P.strings .pathGlob).map Prod.fst = none ↔ keptGlob r.pathGlob ≠ .freed
    cases hr : r.pathGlob with
    | null =>
      have hnone : P.strings .pathGlob = none := by
        simpa [Request.string, hr] using hglob
      simp [hnone, keptGlob]
    | valid glob =>
      obtain ⟨cell, hcell, -⟩ : ∃ cell, P.strings .pathGlob = some cell ∧ cell.2 = glob := by
        simpa [Request.string, hr] using hglob
      simp [hcell, keptGlob]
    | freed => exact absurd hr hfreed
  serverAddr := h.serverAddr
  serverPort := h.serverPort
  socket := h.socket

/-- What becomes of it when it is set. -/
def globAfter (old : Pointer CString) (pathGlob : Option CString) : Pointer CString :=
  (pathGlob.filter fun glob => glob.strlen ≠ 0).elim (keptGlob old) Pointer.valid

lemma redhttpRequestSetPathGlob_eq {r : Request} (h : r.pathGlob ≠ .freed)
    (pathGlob : Option CString) : redhttpRequestSetPathGlob pathGlob r =
      .ok () { r with pathGlob := globAfter r.pathGlob pathGlob } := by
  simp only [redhttpRequestSetPathGlob, bind_apply, get_apply]
  cases hglob : r.pathGlob with
  | freed => exact absurd hglob h
  | null =>
    cases pathGlob with
    | none => rfl
    | some glob =>
      by_cases hempty : glob.strlen = 0 <;> simp [hempty, globAfter, keptGlob, Option.filter]
  | valid old =>
    cases pathGlob with
    | none => rfl
    | some glob =>
      by_cases hempty : glob.strlen = 0 <;> simp [hempty, globAfter, keptGlob, Option.filter]

/-- The glob: an old one is freed, and one that was freed before is freed again. -/
lemma simulates_setPathGlob (pathGlob : Option CString) :
    Simulates request (redhttpRequestSetPathGlob pathGlob)
      (redhttpRequestSetPathGlobNode request pathGlob) fun _ => 0 := by
  rintro rest lost r m ⟨P, rfl, hrep, hholding, hdead⟩
  have hnode := loadRequest_eq (hholding.perm (P.cells_perm_string .pathGlob lost))
  by_cases hfreed : r.pathGlob = .freed
  · obtain ⟨p, hp⟩ : ∃ p, P.dangling = some p :=
      Option.ne_none_iff_exists'.mp fun h => hrep.dangling.mp h hfreed
    have hnone : P.strings .pathGlob = none := by
      simpa [Request.string, hfreed] using hrep.strings .pathGlob
    have hslot : P.node.slot .pathGlob = some p := by
      show P.slot .pathGlob = some p
      rw [PlacedRequest.slot, hnone, if_pos rfl, hp]
      rfl
    have hfree : freeSlot P.request .pathGlob m = .error (.fault .useAfterFree) m := by
      rw [freeSlot, bind_of_ok hnode, hslot]
      exact (hdead p hp).free
    have hfault : redhttpRequestSetPathGlob pathGlob r = .error .useAfterFree r := by
      simp only [redhttpRequestSetPathGlob, bind_apply, get_apply, hfreed]
      rfl
    rw [hfault]
    exact ⟨m, bind_of_error hfree _⟩
  · have hnone := hrep.dangling.mpr hfreed
    obtain ⟨m₁, hfree, h₁⟩ := freeSlot_eq (hholding.perm (P.cells_perm_string .pathGlob lost))
      (slot_eq fun _ => hnone)
    have hkept : Owns rest P.request lost { r with pathGlob := keptGlob r.pathGlob } m₁ := by
      refine ⟨P.dropGlob, rfl, hrep.dropGlob hfreed, h₁.perm ?_, ?_⟩
      · have hperm := P.dropGlob.cells_perm_string .pathGlob lost
        have hbeside : P.dropGlob.besideString .pathGlob = P.besideString .pathGlob :=
          P.besideString_withString .pathGlob none
        have hcell : P.dropGlob.strings .pathGlob = none := P.withString_self .pathGlob none
        rw [hbeside, P.node_dropGlob hnone, hcell] at hperm
        exact hperm.symm
      · intro p hp
        obtain ⟨cell, hcell, rfl⟩ := Option.map_eq_some_iff.mp hp
        have hblock : m.block cell.1 = some (.string cell.2) := by
          refine hholding.holds (cell.1, .string cell.2) ?_
          rw [(P.cells_perm_string .pathGlob lost).mem_iff, hcell]
          simp [valueCells]
        have hrun : freeSlot P.request .pathGlob m = .ok () (m.drop cell.1) := by
          have hslot : P.node.slot .pathGlob = some cell.1 := by
            show P.slot .pathGlob = _
            rw [slot_eq fun _ => hnone, hcell]
            rfl
          rw [freeSlot, bind_of_ok hnode, hslot]
          show free cell.1 m = _
          rw [free, hblock]
        rw [hrun] at hfree
        obtain ⟨-, rfl⟩ := EStateM.Result.ok.inj hfree
        exact Memory.dead_drop hblock
    rw [redhttpRequestSetPathGlob_eq hfreed]
    cases pathGlob with
    | none => exact ⟨[], m₁, bind_of_ok hfree _, rfl, hkept⟩
    | some glob =>
      rw [redhttpRequestSetPathGlobNode, bind_of_ok hfree]
      by_cases hempty : glob.strlen = 0
      · rw [if_pos hempty]
        refine ⟨[], m₁, rfl, rfl, ?_⟩
        simpa [globAfter, Option.filter, hempty] using hkept
      · rw [if_neg hempty]
        obtain ⟨hmalloc, h₂⟩ := h₁.malloc (.string glob)
        have hset : Holding (m₁.grow (.string glob)) rest ((P.request, .request P.node) ::
            (valueCells (some (m₁.fresh, glob)) ++ (P.besideString .pathGlob ++ lost))) :=
          h₂.perm (List.Perm.swap _ _ _)
        obtain ⟨m', hrun, h'⟩ := setSlot_withString (fun _ => hnone) hset
        refine ⟨[], m', ?_, rfl, P.withString .pathGlob (some (m₁.fresh, glob)), rfl, ?_, h', ?_⟩
        · rw [redhttpStrdup, bind_of_ok hmalloc]
          exact hrun
        · have hsets := setsString_pathGlob hfreed glob
          simpa [globAfter, Option.filter, hempty] using hrep.withString hsets rfl
        · intro p hp
          have hp' : P.dangling = some p := hp
          rw [hnone] at hp'
          cases hp'

/-! ### Lists -/

lemma keepsDead_changeList (l : RequestList) (call : HeaderCall) :
    KeepsDead (changeList request l call) :=
  keepsDead_bind (keepsDead_loadRequest request) fun _ =>
    keepsDead_bind (keepsDead_applyNode _ call) fun _ => keepsDead_save _ _

/-- The request with another list. -/
def Request.withListOf (r : Request) (first : List Header) : RequestList → Request
  | .headers => { r with headers := first }
  | .arguments => { r with arguments := first }

/-- A function on header lists is called for a request. -/
def updateList (l : RequestList) (f : List Header → Except Fault (List Header)) : RequestM Unit :=
  match l with
  | .headers => updateHeaders f
  | .arguments => updateArguments f

lemma updateList_apply (l : RequestList) (f : List Header → Except Fault (List Header))
    (r : Request) : updateList l f r = match f (r.list l) with
      | .ok first => .ok () (r.withListOf first l)
      | .error fault => .error fault r := by
  cases l <;> rfl

lemma Represents.withList {P : PlacedRequest} {r : Request} {l : RequestList}
    {ps : List PlacedHeader} {first : List Header} (h : Represents P r)
    (hfirst : ps.map PlacedHeader.header = first) :
    Represents (P.withList l ps) (r.withListOf first l) where
  strings s := by
    refine (h.strings s).trans ?_
    cases l <;> cases s <;> rfl
  lists l' := by
    by_cases hl : l' = l
    · subst hl
      rw [P.withList_self, hfirst]
      cases l' <;> rfl
    · rw [P.withList_of_ne hl, h.lists]
      cases l <;> cases l' <;> first | rfl | exact absurd rfl hl
  dangling := by
    refine h.dangling.trans ?_
    cases l <;> rfl
  serverAddr := by
    refine h.serverAddr.trans ?_
    cases l <;> rfl
  serverPort := by
    refine h.serverPort.trans ?_
    cases l <;> rfl
  socket := by
    refine h.socket.trans ?_
    cases l <;> rfl

/-- A call on a list. -/
lemma simulates_changeList (l : RequestList) (call : HeaderCall) :
    Simulates request (updateList l fun first => call.apply first) (changeList request l call)
      fun _ => 0 := by
  rintro rest lost r m ⟨P, rfl, hrep, hholding, hdead⟩
  obtain ⟨hfault, hok⟩ := changeList_eq hholding l call
  rw [hrep.lists l] at hfault hok
  rw [updateList_apply]
  cases hcall : call.apply (r.list l) with
  | error fault => exact hfault fault hcall
  | ok first =>
    obtain ⟨ps, m', hrun, hmap, h'⟩ := hok first hcall
    exact ⟨[], m', hrun, rfl, P.withList l ps, rfl, hrep.withList hmap, h', fun p hp =>
      (keepsDead_changeList l call p).of_ok (hdead p hp) hrun⟩

/-- An argument, with the copies that its round makes. -/
lemma simulates_addArgument (key : CString) (value : Option CString) :
    Simulates request (updateArguments fun first => redhttpHeadersAdd first key value)
      (addArgument request key value) fun _ => 0 := by
  intro rest lost r m h
  obtain ⟨P, hP, hrep, hholding, hdead⟩ := h
  obtain ⟨hkey, h₁⟩ := hholding.malloc (.string key)
  obtain ⟨copy, m₂, hcopy, -, h₂⟩ := strdupPointer_eq h₁ value
  have hdead₂ : ∀ p ∈ P.dangling, m₂.Dead p := fun p hp =>
    (keepsDead_strdupPointer value p).of_ok
      ((keepsDead_malloc _ p).of_ok (hdead p hp) hkey) hcopy
  have howns : Owns rest request ((m.fresh, .string key) :: (valueCells copy ++ lost)) r m₂ := by
    refine ⟨P, hP, hrep, h₂.perm ?_, hdead₂⟩
    rw [← Multiset.coe_eq_coe]
    simp only [← Multiset.coe_add, ← Multiset.cons_coe, ← Multiset.singleton_add]
    abel
  have hcall := simulates_changeList .arguments (.add key value) rest _ r m₂ howns
  rw [addArgument, redhttpStrdup, bind_of_ok hkey, bind_of_ok hcopy]
  show RunsAs _ _ _ _ (updateList .arguments (fun first => redhttpHeadersAdd first key value) r) _
  have happly : (fun first => HeaderCall.apply first (.add key value)) =
      fun first => redhttpHeadersAdd first key value := rfl
  rw [happly] at hcall
  cases hrun : updateList .arguments (fun first => redhttpHeadersAdd first key value) r with
  | error fault r' =>
    rw [hrun] at hcall
    obtain ⟨m', hm'⟩ := hcall
    exact ⟨m', bind_of_error hm' _⟩
  | ok u r' =>
    rw [hrun] at hcall
    obtain ⟨leaked, m₃, hm₃, hnone, P', hP', hrep', h₃, hdead₃⟩ := hcall
    obtain rfl := List.length_eq_zero_iff.mp hnone
    obtain ⟨hfree, h₄⟩ := (h₃.perm List.perm_middle).free
    obtain ⟨m₅, hfree', h₅⟩ := freePointer_value (h₄.perm (by
      rw [← Multiset.coe_eq_coe]
      simp only [← Multiset.coe_add]
      abel : (P'.cells ++ (valueCells copy ++ lost)).Perm
        (valueCells copy ++ (P'.cells ++ lost))))
    refine ⟨[], m₅, ?_, rfl, P', hP', hrep', h₅, fun p hp =>
      (keepsDead_freePointer _ p).of_ok ((keepsDead_free _ p).of_ok (hdead₃ p hp) hfree) hfree'⟩
    rw [bind_of_ok hm₃, bind_of_ok hfree]
    exact hfree'

/-- The loop over the arguments. -/
lemma simulates_parseArgumentsFrom (ptr : List UInt8) :
    Simulates request (parseArgumentsFrom ptr) (parseArgumentsFromNode request ptr)
      fun _ => 0 := by
  induction hn : ptr.length using Nat.strong_induction_on generalizing ptr with
  | _ n ih =>
    subst hn
    rw [parseArgumentsFrom, parseArgumentsFromNode]
    by_cases hptr : ptr = []
    · rw [if_pos hptr, if_pos hptr]
      exact simulates_pure ()
    · rw [if_neg hptr, if_neg hptr]
      refine (simulates_addArgument _ _).seq ?_
      cases hnext : (nextArgument ptr).next with
      | none => exact simulates_pure ()
      | some rest => exact ih rest.length (length_next_lt hnext) rest rfl

lemma simulates_parseArguments (input : Option CString) :
    Simulates request (redhttpRequestParseArguments input)
      (redhttpRequestParseArgumentsNode request input) fun _ => 0 := by
  cases input with
  | none => exact simulates_pure ()
  | some s => exact (simulates_parseArgumentsFrom s.bytes).temporary (.string s)

/-! ### Targets and forms -/

/-- A string that would be lost. -/
def wouldLose (s : RequestString) (r : Request) : ℕ := if (r.string s).isSome then 1 else 0

lemma simulates_unescapePath (escaped : List UInt8) :
    Simulates request (modify fun r => { r with path := some (unescaped escaped) })
      (unescapePath request escaped) (wouldLose .path) := by
  have hsets : ∀ r : Request, SetsString .path (some (unescaped escaped)) r
      { r with path := some (unescaped escaped) } := fun r =>
    ⟨rfl, fun t ht => by cases t <;> first | rfl | exact absurd rfl ht,
      fun l => by cases l <;> rfl, Iff.rfl, rfl, rfl, rfl⟩
  exact (simulates_storeString (by decide) hsets).temporary _

lemma simulates_pathAndQuery (pathAndQuery : Option CString) :
    Simulates request (modify fun r => { r with pathAndQuery })
      (replaceString request .pathAndQuery pathAndQuery) fun _ => 0 :=
  simulates_replaceString (by decide) fun r =>
    ⟨rfl, fun t ht => by cases t <;> first | rfl | exact absurd rfl ht,
      fun l => by cases l <;> rfl, Iff.rfl, rfl, rfl, rfl⟩

lemma simulates_setQueryString (queryString : Option CString) :
    Simulates request (redhttpRequestSetQueryString queryString)
      (redhttpRequestSetQueryStringNode request queryString) fun _ => 0 :=
  simulates_replaceString (by decide) fun r =>
    ⟨rfl, fun t ht => by cases t <;> first | rfl | exact absurd rfl ht,
      fun l => by cases l <;> rfl, Iff.rfl, rfl, rfl, rfl⟩

/-- The path that a target is given is lost when there is another target. -/
lemma simulates_setPathAndQuery (pathAndQuery : Option CString) :
    Simulates request (redhttpRequestSetPathAndQuery pathAndQuery)
      (redhttpRequestSetPathAndQueryNode request pathAndQuery)
      fun r => if pathAndQuery.isSome then wouldLose .path r else 0 := by
  cases pathAndQuery with
  | none =>
    have hnode : redhttpRequestSetPathAndQueryNode request none =
        replaceString request .pathAndQuery none := bind_pure_unit
    rw [hnode]
    exact simulates_pathAndQuery none
  | some target =>
    rw [redhttpRequestSetPathAndQuery, redhttpRequestSetPathAndQueryNode]
    have htarget : Simulates request (modify fun r => { r with pathAndQuery := some target })
        (replaceString request .pathAndQuery (some target)) fun _ => 0 :=
      simulates_pathAndQuery (some target)
    cases strchr target.bytes (ch '?') with
    | none =>
      refine htarget.bind (simulates_unescapePath target.bytes) fun r r' hrun => ?_
      cases hrun
      rfl
    | some i =>
      set query := CString.ofBytes (target.bytes.drop (i + 1))
      have hpath : Simulates request
          (redhttpRequestParseArguments (some query) >>= fun _ =>
            modify fun r => { r with path := some (unescaped (target.bytes.take i)) })
          (redhttpRequestParseArgumentsNode request (some query) >>= fun _ =>
            unescapePath request (target.bytes.take i)) (wouldLose .path) := by
        refine (simulates_parseArguments _).bind (simulates_unescapePath _) fun r r' hrun => ?_
        have hkeeps : Keeps Request.path (redhttpRequestParseArguments (some query)) :=
          keeps_parseArguments (fun _ _ => rfl) _
        have hsame := hkeeps r
        rw [hrun, stateOf_ok] at hsame
        show (if r.path.isSome then 1 else 0) = (if r'.path.isSome then 1 else 0) + 0
        rw [hsame]
        rfl
      have hquery : Simulates request
          (redhttpRequestSetQueryString (some query) >>= fun _ =>
            redhttpRequestParseArguments (some query) >>= fun _ =>
            modify fun r => { r with path := some (unescaped (target.bytes.take i)) })
          (redhttpRequestSetQueryStringNode request (some query) >>= fun _ =>
            redhttpRequestParseArgumentsNode request (some query) >>= fun _ =>
            unescapePath request (target.bytes.take i)) (wouldLose .path) := by
        refine (simulates_setQueryString _).bind hpath fun r r' hrun => ?_
        cases hrun
        rfl
      refine htarget.bind hquery fun r r' hrun => ?_
      cases hrun
      rfl

/-- A body as `redhttp_request_read` takes it. -/
def takeContent (body : List UInt8) : RequestM Unit :=
  modify fun r => { r with contentBuffer := some body }

lemma simulates_takeContent (body : List UInt8) :
    Simulates request (takeContent body) (takeContentNode request body)
      (wouldLose .contentBuffer) :=
  simulates_storeString (by decide) fun r =>
    ⟨rfl, fun t ht => by cases t <;> first | rfl | exact absurd rfl ht,
      fun l => by cases l <;> rfl, Iff.rfl, rfl, rfl, rfl⟩

/-! ### Host and URL -/

section Host

variable {P : PlacedRequest} {m : Memory Cell} {rest : ℕ → Option Cell}
  {more : List (ℕ × Cell)} {r : Request}

lemma setsString_host (r : Request) (host : CString) :
    SetsString .host (some host) r { r with host := some host } :=
  ⟨rfl, fun t ht => by cases t <;> first | rfl | exact absurd rfl ht,
    fun l => by cases l <;> rfl, Iff.rfl, rfl, rfl, rfl⟩

lemma setsString_url (r : Request) (url : CString) :
    SetsString .url (some url) r { r with url := some url } :=
  ⟨rfl, fun t ht => by cases t <;> first | rfl | exact absurd rfl ht,
    fun l => by cases l <;> rfl, Iff.rfl, rfl, rfl, rfl⟩

/-- A new string for a pointer that is NULL. -/
lemma setSlot_new {s : RequestString} (hs : s ≠ .pathGlob) (hnone : P.strings s = none)
    (h : Holding m rest (P.cells ++ more)) (value : CString) :
    ∃ m', (do
        let p ← malloc (.string value)
        setSlot P.request s (some p)
        pure (some p) : NodeM (Option ℕ)) m = .ok (some m.fresh) m' ∧
      Holding m' rest ((P.withString s (some (m.fresh, value))).cells ++ more) := by
  obtain ⟨hmalloc, h₁⟩ := h.malloc (.string value)
  have hfocus : Holding (m.grow (.string value)) rest ((P.request, .request P.node) ::
      (valueCells (some (m.fresh, value)) ++ (P.besideString s ++ more))) := by
    refine (h₁.perm (List.Perm.cons _ (P.cells_perm_string s more))).perm ?_
    rw [hnone]
    exact List.Perm.swap _ _ _
  obtain ⟨m', hset, h'⟩ := setSlot_withString (fun heq => absurd heq hs) hfocus
  refine ⟨m', ?_, h'⟩
  rw [bind_of_ok hmalloc]
  exact bind_of_ok hset _

lemma inMemory_cells (h : Holding m rest (P.cells ++ more)) (l : RequestList) :
    InMemory m (blocksOf (P.lists l) none) := fun cell hcell =>
  h.holds cell ((P.cells_perm_list l more).mem_iff.mpr
    (List.mem_cons_of_mem _ (List.mem_append_left _ hcell)))

lemma block_string (h : Holding m rest (P.cells ++ more)) {s : RequestString}
    {v : ℕ × CString} (hv : P.strings s = some v) : m.block v.1 = some (.string v.2) := by
  refine h.holds (v.1, .string v.2) ?_
  rw [(P.cells_perm_string s more).mem_iff, hv]
  simp [valueCells]

/-- A header that is asked for: the pointer to its value. -/
lemma redhttpRequestGetHeaderNode_eq (hrep : Represents P r)
    (h : Holding m rest (P.cells ++ more)) (key : CString) :
    ∃ v : Option (ℕ × CString), redhttpRequestGetHeaderNode P.request key m =
        .ok (v.map Prod.fst) m ∧
      v.map Prod.snd = r.getHeader key ∧ ∀ c ∈ v, loadString (some c.1) m = .ok c.2 m := by
  have hload : loadRequest P.request m = .ok P.node m := loadRequest_eq h
  have hbound : walkBound m = .ok m.fresh m := rfl
  have hwalk : (P.lists .headers).length ≤ m.fresh :=
    length_le_fresh ((h.perm (P.cells_perm_list .headers more)).perm List.perm_middle.symm)
  have hmem := inMemory_cells h .headers
  have hlist : (P.lists .headers).map PlacedHeader.header = r.headers := hrep.lists .headers
  have hfirst : P.node.list .headers = firstOf (P.lists .headers) none := rfl
  refine ⟨(findPlaced key (P.lists .headers)).bind PlacedHeader.value, ?_, ?_, ?_⟩
  · rw [redhttpRequestGetHeaderNode, bind_of_ok hload, bind_of_ok hbound, hfirst,
      redhttpHeadersGetNode_eq hmem hwalk]
    cases findPlaced key (P.lists .headers) <;> rfl
  · rw [Request.getHeader, ← hlist, redhttpHeadersGet_placed]
    cases findPlaced key (P.lists .headers) <;> rfl
  · intro c hc
    obtain ⟨p, hfind, hvalue⟩ := Option.bind_eq_some_iff.mp hc
    have hblock := inMemory_value hmem (List.mem_of_find?_eq_some hfind)
    rw [hvalue] at hblock
    exact loadString_of_block (hblock (c.1, .string c.2) (by simp [valueCells]))

/-- The host is worked out once. -/
lemma redhttpRequestGetHostNode_eq (hrep : Represents P r)
    (h : Holding m rest (P.cells ++ more)) :
    ∃ v m', redhttpRequestGetHostNode P.request m = .ok (some v.1) m' ∧ v.2 = r.currentHost ∧
      Represents (P.withString .host (some v)) { r with host := some r.currentHost } ∧
      Holding m' rest ((P.withString .host (some v)).cells ++ more) := by
  have hload : loadRequest P.request m = .ok P.node m := loadRequest_eq h
  have hhost := hrep.strings .host
  have hslot : P.node.slot .host = (P.strings .host).map Prod.fst :=
    slot_eq (P := P) fun heq => absurd heq (by decide)
  rw [redhttpRequestGetHostNode, bind_of_ok hload, hslot]
  cases hstring : P.strings .host with
  | some v =>
    have hv : r.host = some v.2 := by
      rw [hstring] at hhost
      exact hhost.symm
    have hcurrent : v.2 = r.currentHost := by rw [Request.currentHost, hv, Option.getD_some]
    have hsame : P.withString .host (some v) = P := by
      rw [PlacedRequest.withString, ← hstring, Function.update_eq_self]
    refine ⟨v, m, rfl, hcurrent, hrep.withString (setsString_host r _) ?_, ?_⟩
    · rw [Option.map_some, hcurrent]
    · rwa [hsame]
  | none =>
    have hnone : r.host = none := by
      rw [hstring] at hhost
      exact hhost.symm
    have hcurrent : r.currentHost = r.computedHost := by
      rw [Request.currentHost, hnone, Option.getD_none]
    obtain ⟨v, hget, hheader, hread⟩ :=
      redhttpRequestGetHeaderNode_eq hrep h (CString.lit "Host")
    obtain ⟨m', hnew, h'⟩ := setSlot_new (s := .host) (by decide) hstring h r.computedHost
    refine ⟨(m.fresh, r.computedHost), m', ?_, hcurrent.symm,
      hrep.withString (setsString_host r _) (by rw [hcurrent]; rfl), h'⟩
    rw [Option.map_none]
    dsimp only
    rw [bind_of_ok hget]
    rw [Request.computedHost, ← hheader] at hnew
    cases v with
    | none =>
      have haddr : P.node.serverAddr = r.serverAddr := hrep.serverAddr
      have hport : P.node.serverPort = r.serverPort := hrep.serverPort
      rw [Option.map_none] at hnew ⊢
      dsimp only at hnew ⊢
      rw [haddr, hport]
      by_cases heighty : r.serverPort = CString.lit "80"
      · rw [if_pos heighty] at hnew ⊢
        exact hnew
      · rw [if_neg heighty] at hnew ⊢
        exact hnew
    | some v =>
      rw [Option.map_some] at hnew ⊢
      dsimp only
      rw [bind_of_ok (hread v rfl)]
      exact hnew

/-- The URL is put together once. -/
lemma redhttpRequestGetUrlNode_eq (hrep : Represents P r)
    (h : Holding m rest (P.cells ++ more)) :
    ∃ P' m', redhttpRequestGetUrlNode P.request m = .ok (P'.slot .url) m' ∧
      P'.request = P.request ∧ P'.dangling = P.dangling ∧ Represents P' r.withUrl ∧
      Holding m' rest (P'.cells ++ more) := by
  have hload := loadRequest_eq (h.perm (P.cells_perm_string .url more))
  have hurl := hrep.strings .url
  have hslot : P.node.slot .url = P.slot .url := rfl
  have hpointer : P.slot .url = (P.strings .url).map Prod.fst :=
    slot_eq fun heq => absurd heq (by decide)
  rw [redhttpRequestGetUrlNode, bind_of_ok hload, hslot]
  cases hstring : P.strings .url with
  | some v =>
    have hv : r.url = some v.2 := by
      rw [hstring] at hurl
      exact hurl.symm
    have hsame : r.withUrl = r := by
      simp only [Request.withUrl, Request.currentUrl, hv, Option.some_or, Option.isSome_some,
        if_true]
      rw [← hv]
    refine ⟨P, m, ?_, rfl, rfl, hsame.symm ▸ hrep, h⟩
    rw [hpointer, hstring]
    rfl
  | none =>
    have hnone : r.url = none := by
      rw [hstring] at hurl
      exact hurl.symm
    obtain ⟨v, m₁, hhost, hv, hrep₁, h₁⟩ := redhttpRequestGetHostNode_eq hrep h
    set P₁ := P.withString .host (some v) with hP₁
    have hload₁ := loadRequest_eq (h₁.perm (P₁.cells_perm_string .pathAndQuery more))
    have htarget := hrep₁.strings .pathAndQuery
    have hslot₁ : P₁.node.slot .pathAndQuery = (P₁.strings .pathAndQuery).map Prod.fst :=
      slot_eq (P := P₁) fun heq => absurd heq (by decide)
    have hpointer₁ : P₁.slot .url = none := by
      rw [slot_eq (P := P₁) fun heq => absurd heq (by decide), hP₁,
        P.withString_of_ne (by decide), hstring]
      rfl
    rw [hpointer, hstring, Option.map_none]
    dsimp only
    have hrequest : P.request = P₁.request := rfl
    rw [bind_of_ok hhost, hrequest, bind_of_ok hload₁, hslot₁]
    cases htstring : P₁.strings .pathAndQuery with
    | none =>
      have htnone : r.pathAndQuery = none := by
        rw [htstring] at htarget
        exact htarget.symm
      refine ⟨P₁, m₁, by rw [hpointer₁]; rfl, rfl, rfl, ?_, h₁⟩
      have hsame : r.withUrl = { r with host := some r.currentHost } := by
        simp only [Request.withUrl, Request.currentUrl, hnone, htnone, Option.none_or,
          Option.map_none, Option.isSome_none, Bool.false_eq_true, if_false]
      rwa [hsame]
    | some w =>
      have htsome : r.pathAndQuery = some w.2 := by
        rw [htstring] at htarget
        exact htarget.symm
      have hvblock : loadString (some v.1) m₁ = .ok v.2 m₁ :=
        loadString_of_block (block_string h₁ (P.withString_self .host (some v)))
      have hwblock : loadString (some w.1) m₁ = .ok w.2 m₁ :=
        loadString_of_block (block_string h₁ htstring)
      have hstring₁ : P₁.strings .url = none := by
        rw [hP₁, P.withString_of_ne (by decide), hstring]
      obtain ⟨m', hnew, h'⟩ := setSlot_new (s := .url) (by decide) hstring₁ h₁
        (CString.lit "http://" ++ v.2 ++ w.2)
      refine ⟨P₁.withString .url (some (m₁.fresh, CString.lit "http://" ++ v.2 ++ w.2)), m', ?_,
        rfl, rfl, ?_, h'⟩
      · rw [Option.map_some]
        dsimp only
        rw [bind_of_ok hvblock, bind_of_ok hwblock, hnew,
          slot_eq fun heq => absurd heq (by decide), PlacedRequest.withString_self]
        rfl
      · have hsame : r.withUrl = { ({ r with host := some r.currentHost } : Request) with
            url := some (CString.lit "http://" ++ v.2 ++ w.2) } := by
          simp only [Request.withUrl, Request.currentUrl, hnone, htsome, Option.none_or,
            Option.map_some, Option.isSome_none, Bool.false_eq_true, if_false, hv]
        rw [hsame]
        exact hrep₁.withString (setsString_url _ _) rfl

lemma keepsDead_getHost : KeepsDead (redhttpRequestGetHostNode request) := by
  refine keepsDead_bind (keepsDead_loadRequest request) fun node => ?_
  cases node.slot .host with
  | some host => exact keepsDead_pure _
  | none =>
    have hset : ∀ host, KeepsDead (do
        setSlot request .host (some host)
        pure (some host) : NodeM (Option ℕ)) := fun host =>
      keepsDead_bind (keepsDead_setSlot _ _) fun _ => keepsDead_pure _
    have hheader : KeepsDead (redhttpRequestGetHeaderNode request (CString.lit "Host")) :=
      keepsDead_bind (keepsDead_loadRequest request) fun _ =>
        keepsDead_bind keepsDead_walkBound fun fuel => keepsDead_get fuel _
    refine keepsDead_bind hheader fun header => ?_
    cases header with
    | some value =>
      exact keepsDead_bind (keepsDead_loadString _) fun s =>
        keepsDead_bind (keepsDead_malloc _) hset
    | none =>
      exact keepsDead_ite (keepsDead_bind (keepsDead_malloc _) hset)
        (keepsDead_bind (keepsDead_malloc _) hset)

lemma keepsDead_getUrl : KeepsDead (redhttpRequestGetUrlNode request) := by
  refine keepsDead_bind (keepsDead_loadRequest request) fun node => ?_
  cases node.slot .url with
  | some url => exact keepsDead_pure _
  | none =>
    refine keepsDead_bind keepsDead_getHost fun host =>
      keepsDead_bind (keepsDead_loadRequest request) fun node' => ?_
    cases node'.slot .pathAndQuery with
    | none => exact keepsDead_pure _
    | some target =>
      exact keepsDead_bind (keepsDead_loadString _) fun _ =>
        keepsDead_bind (keepsDead_loadString _) fun _ =>
        keepsDead_bind (keepsDead_malloc _) fun _ =>
        keepsDead_bind (keepsDead_setSlot _ _) fun _ => keepsDead_pure _

lemma simulates_getHost : Simulates request (discard redhttpRequestGetHost)
    (discard (redhttpRequestGetHostNode request)) fun _ => 0 := by
  rintro rest lost r m ⟨P, rfl, hrep, hholding, hdead⟩
  obtain ⟨v, m', hrun, -, hrep', h'⟩ := redhttpRequestGetHostNode_eq hrep hholding
  have hhost : discard redhttpRequestGetHost r = .ok () { r with host := some r.currentHost } :=
    map_eq_ok_iff.mpr ⟨_, redhttpRequestGetHost_apply r, rfl⟩
  rw [hhost]
  exact ⟨[], m', map_eq_ok_iff.mpr ⟨_, hrun, rfl⟩, rfl, P.withString .host (some v), rfl, hrep',
    h', fun p hp => (keepsDead_getHost p).of_ok (hdead p hp) hrun⟩

lemma simulates_getUrl : Simulates request (discard redhttpRequestGetUrl)
    (discard (redhttpRequestGetUrlNode request)) fun _ => 0 := by
  rintro rest lost r m ⟨P, rfl, hrep, hholding, hdead⟩
  obtain ⟨P', m', hrun, hrequest, hdangling, hrep', h'⟩ := redhttpRequestGetUrlNode_eq hrep hholding
  have hurl : discard redhttpRequestGetUrl r = .ok () r.withUrl :=
    map_eq_ok_iff.mpr ⟨_, redhttpRequestGetUrl_apply r, rfl⟩
  rw [hurl]
  refine ⟨[], m', map_eq_ok_iff.mpr ⟨_, hrun, rfl⟩, rfl, P', hrequest, hrep', h', fun p hp => ?_⟩
  rw [hdangling] at hp
  exact (keepsDead_getUrl p).of_ok (hdead p hp) hrun

end Host

end Simulates

/-! ### The end of a request -/

section Free

variable {m : Memory Cell} {rest : ℕ → Option Cell} {request : ℕ} {node : RequestNode}
  {more : List (ℕ × Cell)} {strings : RequestString → Option (ℕ × CString)}

lemma freeSlots_append (ss ss' : List RequestString) : freeSlots request (ss ++ ss') =
    (do freeSlots request ss; freeSlots request ss') := by
  induction ss with
  | nil => rfl
  | cons s ss ih =>
    rw [List.cons_append, freeSlots, freeSlots, ih, bind_assoc]

/-- Strings whose pointers are good are freed. -/
lemma freeSlots_eq {ss : List RequestString} (h : Holding m rest ((request, .request node) ::
      ((ss.flatMap fun s => valueCells (strings s)) ++ more)))
    (hslot : ∀ s ∈ ss, node.slot s = (strings s).map Prod.fst) :
    ∃ m', freeSlots request ss m = .ok () m' ∧
      Holding m' rest ((request, .request node) :: more) := by
  induction ss generalizing m with
  | nil => exact ⟨m, rfl, h⟩
  | cons s ss ih =>
    rw [List.flatMap_cons, List.append_assoc] at h
    obtain ⟨m₁, hfree, h₁⟩ := freeSlot_eq h (hslot s (by simp))
    obtain ⟨m', hrun, h'⟩ := ih h₁ fun t ht => hslot t (by simp [ht])
    exact ⟨m', by rw [freeSlots, bind_of_ok hfree]; exact hrun, h'⟩

lemma keepsDead_freeSlots (ss : List RequestString) : KeepsDead (freeSlots request ss) := by
  induction ss with
  | nil => exact keepsDead_pure ()
  | cons s ss ih => exact keepsDead_bind (keepsDead_freeSlot s) fun _ => ih

variable {P : PlacedRequest} {r : Request} {lost : List (ℕ × Cell)}

/-- A request whose glob is there or NULL is freed, every block of it. -/
lemma redhttpRequestFreeNode_eq (hglob : P.dangling = none)
    (h : Holding m rest (P.cells ++ lost)) :
    ∃ m', redhttpRequestFreeNode P.request m = .ok () m' ∧ Holding m' rest lost := by
  have hstrings : Holding m rest ((P.request, .request P.node) ::
      ((requestStrings.flatMap fun s => valueCells (P.strings s)) ++
        (P.listCells .headers ++ (P.listCells .arguments ++ lost)))) := by
    refine h.perm (List.Perm.cons _ (List.Perm.of_eq ?_))
    show (P.stringCells requestStrings ++ (P.listCells .headers ++ P.listCells .arguments)) ++
      lost = _
    rw [List.append_assoc, List.append_assoc]
    rfl
  obtain ⟨m₁, hfree, h₁⟩ := freeSlots_eq hstrings fun s _ => slot_eq fun _ => hglob
  have hload := loadRequest_eq h₁
  have hheaders : Holding m₁ rest (blocksOf (P.lists .headers) none ++
      (blocksOf (P.lists .arguments) none ++ ((P.request, .request P.node) :: lost))) := by
    refine h₁.perm ?_
    rw [← Multiset.coe_eq_coe]
    simp only [PlacedRequest.listCells, ← Multiset.coe_add, ← Multiset.cons_coe,
      ← Multiset.singleton_add]
    abel
  obtain ⟨m₂, hfree₂, h₂⟩ := redhttpHeadersFreeNodes_eq hheaders (length_le_fresh hheaders)
  obtain ⟨m₃, hfree₃, h₃⟩ := redhttpHeadersFreeNodes_eq h₂ (length_le_fresh h₂)
  obtain ⟨hfree₄, h₄⟩ := h₃.free
  have hbound : ∀ m' : Memory Cell, walkBound m' = .ok m'.fresh m' := fun _ => rfl
  refine ⟨_, ?_, h₄⟩
  rw [redhttpRequestFreeNode, bind_of_ok hfree, bind_of_ok hload, bind_of_ok (hbound m₁)]
  have hfirst : ∀ l, P.node.list l = firstOf (P.lists l) none := fun _ => rfl
  rw [hfirst, hfirst, bind_of_ok hfree₂, bind_of_ok (hbound m₂), bind_of_ok hfree₃]
  exact hfree₄

/-- A glob that was freed before is freed again. -/
lemma redhttpRequestFreeNode_freed {p : ℕ} (hnone : P.strings .pathGlob = none)
    (hp : P.dangling = some p) (hdead : m.Dead p) (h : Holding m rest (P.cells ++ lost)) :
    ∃ m', redhttpRequestFreeNode P.request m = .error (.fault .useAfterFree) m' := by
  set before : List RequestString := [.method, .pathAndQuery, .version, .path]
  set behind : List RequestString := [.queryString, .host, .url, .contentBuffer]
  have hsplit : requestStrings = before ++ (.pathGlob :: behind) := rfl
  have hbefore : Holding m rest ((P.request, .request P.node) ::
      ((before.flatMap fun s => valueCells (P.strings s)) ++
        (P.stringCells (.pathGlob :: behind) ++
          (P.listCells .headers ++ (P.listCells .arguments ++ lost))))) := by
    refine h.perm (List.Perm.cons _ (List.Perm.of_eq ?_))
    show (P.stringCells requestStrings ++ (P.listCells .headers ++ P.listCells .arguments)) ++
      lost = _
    rw [hsplit, PlacedRequest.stringCells, List.flatMap_append]
    simp only [List.append_assoc]
    rfl
  have hslot : ∀ s ∈ before, P.node.slot s = (P.strings s).map Prod.fst := by
    intro s hs
    have hglob : RequestString.pathGlob ∉ before := by decide
    exact slot_eq (P := P) fun heq => absurd (heq ▸ hs) hglob
  obtain ⟨m₁, hfree, h₁⟩ := freeSlots_eq hbefore hslot
  have hdead₁ := (keepsDead_freeSlots before p).of_ok hdead hfree
  have hpointer : P.node.slot .pathGlob = some p := by
    show P.slot .pathGlob = some p
    rw [PlacedRequest.slot, hnone, if_pos rfl, hp]
    rfl
  have hglob : freeSlot P.request .pathGlob m₁ = .error (.fault .useAfterFree) m₁ := by
    rw [freeSlot, bind_of_ok (loadRequest_eq h₁), hpointer]
    exact hdead₁.free
  have hslots : freeSlots P.request requestStrings m = .error (.fault .useAfterFree) m₁ := by
    rw [hsplit, freeSlots_append, bind_of_ok hfree, freeSlots]
    exact bind_of_error hglob _
  exact ⟨m₁, bind_of_error hslots _⟩

end Free

/-! ### Calls on a request -/

/-- A call of one of the functions on a request. -/
inductive RequestCall where
  | setMethod (method : Option CString)
  | setPathAndQuery (pathAndQuery : Option CString)
  | setVersion (version : Option CString)
  | setQueryString (queryString : Option CString)
  | setPath (path : Option CString)
  | setPathGlob (pathGlob : Option CString)
  | parseArguments (input : Option CString)
  | changeList (l : RequestList) (call : HeaderCall)
  | takeContent (body : List UInt8)
  | getHost
  | getUrl

namespace RequestCall

/-- What a call makes of a request. -/
def apply : RequestCall → RequestM Unit
  | .setMethod method => redhttpRequestSetMethod method
  | .setPathAndQuery pathAndQuery => redhttpRequestSetPathAndQuery pathAndQuery
  | .setVersion version => redhttpRequestSetVersion version
  | .setQueryString queryString => redhttpRequestSetQueryString queryString
  | .setPath path => redhttpRequestSetPath path
  | .setPathGlob pathGlob => redhttpRequestSetPathGlob pathGlob
  | .parseArguments input => redhttpRequestParseArguments input
  | .changeList l call => updateList l fun first => call.apply first
  | .takeContent body => RedHttp.takeContent body
  | .getHost => discard redhttpRequestGetHost
  | .getUrl => discard redhttpRequestGetUrl

/-- What a call does in memory. -/
def applyNode (request : ℕ) : RequestCall → NodeM Unit
  | .setMethod method => redhttpRequestSetMethodNode request method
  | .setPathAndQuery pathAndQuery => redhttpRequestSetPathAndQueryNode request pathAndQuery
  | .setVersion version => redhttpRequestSetVersionNode request version
  | .setQueryString queryString => redhttpRequestSetQueryStringNode request queryString
  | .setPath path => redhttpRequestSetPathNode request path
  | .setPathGlob pathGlob => redhttpRequestSetPathGlobNode request pathGlob
  | .parseArguments input => redhttpRequestParseArgumentsNode request input
  | .changeList l call => RedHttp.changeList request l call
  | .takeContent body => takeContentNode request body
  | .getHost => discard (redhttpRequestGetHostNode request)
  | .getUrl => discard (redhttpRequestGetUrlNode request)

/-- How many blocks a call loses: a target loses the path that was there, and a body the
buffer. -/
def leak : RequestCall → Request → ℕ
  | .setPathAndQuery pathAndQuery => fun r =>
    if pathAndQuery.isSome then wouldLose .path r else 0
  | .takeContent _ => wouldLose .contentBuffer
  | _ => fun _ => 0

/-- Some calls, one after the other. -/
def run : List RequestCall → RequestM Unit
  | [] => pure ()
  | call :: calls => do
    call.apply
    run calls

/-- Some calls in memory, one after the other. -/
def runNode (request : ℕ) : List RequestCall → NodeM Unit
  | [] => pure ()
  | call :: calls => do
    call.applyNode request
    runNode request calls

/-- How many blocks some calls lose. -/
def leaks : List RequestCall → Request → ℕ
  | [], _ => 0
  | call :: calls, r => leaks calls (stateOf (call.apply r)) + call.leak r

variable {request : ℕ}

lemma simulates_apply (call : RequestCall) :
    Simulates request call.apply (call.applyNode request) call.leak := by
  cases call with
  | setMethod method =>
    exact simulates_replaceString (by decide) fun r =>
      ⟨rfl, fun t ht => by cases t <;> first | rfl | exact absurd rfl ht,
        fun l => by cases l <;> rfl, Iff.rfl, rfl, rfl, rfl⟩
  | setPathAndQuery pathAndQuery => exact simulates_setPathAndQuery pathAndQuery
  | setVersion version =>
    exact simulates_replaceString (by decide) fun r =>
      ⟨rfl, fun t ht => by cases t <;> first | rfl | exact absurd rfl ht,
        fun l => by cases l <;> rfl, Iff.rfl, rfl, rfl, rfl⟩
  | setQueryString queryString => exact simulates_setQueryString queryString
  | setPath path =>
    exact simulates_replaceString (by decide) fun r =>
      ⟨rfl, fun t ht => by cases t <;> first | rfl | exact absurd rfl ht,
        fun l => by cases l <;> rfl, Iff.rfl, rfl, rfl, rfl⟩
  | setPathGlob pathGlob => exact simulates_setPathGlob pathGlob
  | parseArguments input => exact simulates_parseArguments input
  | changeList l call => exact simulates_changeList l call
  | takeContent body => exact simulates_takeContent body
  | getHost => exact simulates_getHost
  | getUrl => exact simulates_getUrl

/-- A whole run. -/
lemma simulates_run (calls : List RequestCall) :
    Simulates request (run calls) (runNode request calls) (leaks calls) := by
  induction calls with
  | nil => exact simulates_pure ()
  | cons call calls ih =>
    refine (simulates_apply call).bind ih fun r r' hrun => ?_
    rw [leaks, hrun, stateOf_ok]

end RequestCall

/-- What a request looks like in memory. -/
structure ReadsAsRequest (r : Request) (request : ℕ) (m : Memory Cell) : Prop where
  string : ∀ s value, r.string s = some value → ∃ node p, loadRequest request m = .ok node m ∧
    node.slot s = some p ∧ loadString (some p) m = .ok value m
  null : ∀ s, r.string s = none → (s = .pathGlob → r.pathGlob = .null) →
    ∃ node, loadRequest request m = .ok node m ∧ node.slot s = none
  list : ∀ l, ∃ node, loadRequest request m = .ok node m ∧
    ReadsAs m.fresh (r.list l) (node.list l) m

lemma readsAsRequest_of_owns {rest : ℕ → Option Cell} {request : ℕ} {lost : List (ℕ × Cell)}
    {r : Request} {m : Memory Cell} (h : Owns rest request lost r m) :
    ReadsAsRequest r request m := by
  obtain ⟨P, rfl, hrep, hholding, -⟩ := h
  have hload : loadRequest P.request m = .ok P.node m := loadRequest_eq hholding
  refine ⟨fun s value hs => ?_, fun s hs hglob => ?_, fun l => ?_⟩
  · rw [← hrep.strings s] at hs
    obtain ⟨v, hv, rfl⟩ := Option.map_eq_some_iff.mp hs
    refine ⟨P.node, v.1, hload, ?_, loadString_of_block (block_string hholding hv)⟩
    show P.slot s = _
    rw [PlacedRequest.slot, hv]
    rfl
  · rw [← hrep.strings s] at hs
    refine ⟨P.node, hload, ?_⟩
    have hnone : P.strings s = none := Option.map_eq_none_iff.mp hs
    have hdangling : s = .pathGlob → P.dangling = none := fun heq =>
      hrep.dangling.mpr (by rw [hglob heq]; decide)
    exact (slot_eq hdangling).trans (by rw [hnone]; rfl)
  · have hlist := hholding.perm (P.cells_perm_list l lost)
    have hreads := readsAs_of_inMemory (inMemory_cells hholding l)
      (length_le_fresh (hlist.perm List.perm_middle.symm))
    rw [hrep.lists l] at hreads
    exact ⟨P.node, hload, hreads⟩

/-- A new request owns its block. -/
lemma owns_new (m : Memory Cell) (signature : Option CString) (serverAddr serverPort : CString)
    (input : List UInt8) :
    ∃ m', redhttpRequestNewNode serverAddr serverPort input m = .ok m.fresh m' ∧
      Owns m.block m.fresh [] (redhttpRequestNew signature serverAddr serverPort input) m' := by
  set P : PlacedRequest :=
    ⟨m.fresh, fun _ => none, fun _ => [], none, serverAddr, serverPort, { input }⟩
  have hnode : P.node = { serverAddr, serverPort, socket := { input } } := by
    have hslot : P.slot = fun _ => none := by
      funext s
      cases s <;> rfl
    rw [PlacedRequest.node, hslot]
    rfl
  obtain ⟨hnew, h₁⟩ := (holding_nil m).malloc (.request P.node)
  refine ⟨m.grow (.request P.node), ?_, P, rfl, ⟨fun s => by cases s <;> rfl,
    fun l => by cases l <;> rfl, ?_, rfl, rfl, rfl⟩, h₁, fun p hp => by cases hp⟩
  · rw [hnode] at hnew ⊢
    exact hnew
  · exact iff_of_true rfl fun h => nomatch h

/-- How a request ends: what it owns is freed, but a glob that was freed before is freed twice. -/
lemma free_of_owns {rest : ℕ → Option Cell} {request : ℕ} {lost : List (ℕ × Cell)} {r : Request}
    {m : Memory Cell} (h : Owns rest request lost r m) :
    (r.pathGlob = .freed →
      ∃ m', redhttpRequestFreeNode request m = .error (.fault .useAfterFree) m') ∧
    (r.pathGlob ≠ .freed →
      ∃ m', redhttpRequestFreeNode request m = .ok () m' ∧ Holding m' rest lost) := by
  obtain ⟨P, rfl, hrep, hholding, hdead⟩ := h
  refine ⟨fun hfreed => ?_, fun hkept =>
    redhttpRequestFreeNode_eq (hrep.dangling.mpr hkept) hholding⟩
  obtain ⟨p, hp⟩ : ∃ p, P.dangling = some p :=
    Option.ne_none_iff_exists'.mp fun h => hrep.dangling.mp h hfreed
  have hnone : P.strings .pathGlob = none := by
    simpa [Request.string, hfreed] using hrep.strings .pathGlob
  exact redhttpRequestFreeNode_freed hnone hp (hdead p hp) hholding

/-- In memory a request is what its fields say, and what becomes of its blocks is known.

Whatever calls are made on a new request, they fault where the calls on the fields do; else the
strings and the lists in memory are those of the request that these calls make.  When it is
freed, one block is left for every path that a second target replaced and for every buffer that a
second body did, and nothing else; but if the glob was replaced by an empty one, it is freed
twice. -/
theorem requestCalls_memory (m : Memory Cell) (signature : Option CString)
    (serverAddr serverPort : CString) (input : List UInt8) (calls : List RequestCall) :
    ∃ request m₁, redhttpRequestNewNode serverAddr serverPort input m = .ok request m₁ ∧
      (∀ fault r, RequestCall.run calls
          (redhttpRequestNew signature serverAddr serverPort input) = .error fault r →
        ∃ m₂, RequestCall.runNode request calls m₁ = .error (.fault fault) m₂) ∧
      ∀ r, RequestCall.run calls
          (redhttpRequestNew signature serverAddr serverPort input) = .ok () r →
        ∃ m₂, RequestCall.runNode request calls m₁ = .ok () m₂ ∧
          ReadsAsRequest r request m₂ ∧
          (r.pathGlob = .freed →
            ∃ m₃, redhttpRequestFreeNode request m₂ = .error (.fault .useAfterFree) m₃) ∧
          (r.pathGlob ≠ .freed →
            ∃ m₃ lost, redhttpRequestFreeNode request m₂ = .ok () m₃ ∧
              Holding m₃ m.block lost ∧ lost.length = RequestCall.leaks calls
                (redhttpRequestNew signature serverAddr serverPort input)) := by
  obtain ⟨m₁, hnew, howns⟩ := owns_new m signature serverAddr serverPort input
  have hrun := RequestCall.simulates_run calls _ _ _ _ howns
  refine ⟨m.fresh, m₁, hnew, fun fault r hfault => ?_, fun r hok => ?_⟩
  · rw [hfault] at hrun
    exact hrun
  · rw [hok] at hrun
    obtain ⟨lost, m₂, hm₂, hlength, howns₂⟩ := hrun
    rw [List.append_nil] at howns₂
    obtain ⟨hfreed, hfree⟩ := free_of_owns howns₂
    refine ⟨m₂, hm₂, readsAsRequest_of_owns howns₂, hfreed, fun hkept => ?_⟩
    obtain ⟨m₃, hm₃, h₃⟩ := hfree hkept
    exact ⟨m₃, lost, hm₃, h₃, hlength⟩

end RedStore.RedHttp
