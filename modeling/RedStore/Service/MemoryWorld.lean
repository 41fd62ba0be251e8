/-
A world to run the service in: a store in memory, whose statements are lines of N-Triples.

It serves to show that what is assumed of Redland can be met, and to run the program on
concrete requests.  The parser takes every line that ends in a full stop for a statement and
any other for a syntax error, which it logs when the stream gets there.
-/
import RedStore.GraphStore.Dataset
import RedStore.Service.Redland
import RedStore.Uri.Rfc3986

namespace RedStore.Service
open CLib RedHttp

/-- The quads of a store: statements, each in a graph or in none. -/
abbrev MemoryStore : Type := List (CString × Option Node)

/-- The statements of some bytes, up to the first line that is none. -/
def parseLines : List (List UInt8) → Stream CString
  | [] => []
  | line :: lines =>
    if line = [] then parseLines lines
    else if line.getLast? = some (ch '.') then
      .object (some (CString.ofBytes line)) :: parseLines lines
    else [.log { level := .error, message := CString.lit "syntax error" }]

/-- The objects of a stream. -/
def streamObjects {T : Type} (stream : Stream T) : List T :=
  stream.filterMap fun event => match event with
    | .object o => o
    | .log _ => none

/-- The messages of a stream. -/
def streamLogs {T : Type} (stream : Stream T) : List LogMessage :=
  stream.filterMap fun event => match event with
    | .object _ => none
    | .log m => some m

/-- A stream that brings up some objects. -/
def streamOf {T : Type} (objects : List T) : Stream T := objects.map fun o => .object (some o)

/-- A statement is not stored twice in one graph. -/
def MemoryStore.insert (store : MemoryStore) (quad : CString × Option Node) : MemoryStore :=
  if quad ∈ store then store else store ++ [quad]

/-- The escaping of `raptor_xml_escape_string_write`. -/
def xmlEscapeByte (quote c : UInt8) : List UInt8 :=
  if c = ch '&' then bytesOf "&amp;"
  else if c = ch '<' then bytesOf "&lt;"
  else if c = ch '>' then bytesOf "&gt;"
  else if c = quote ∧ c = ch '"' then bytesOf "&quot;"
  else if c = quote ∧ c = ch '\'' then bytesOf "&apos;"
  else [c]

/-- A world with a store in memory, for which nothing fails. -/
def memoryWorld : World CString Unit MemoryStore where
  heap := ⟨fun _ => true, fun _ => 0⟩
  slack n := n < 24 || n % 16 ≠ 8
  random := 1804289383
  now := none
  buildTime := CString.lit "Sat, 01 Jan 2011 00:00:00 GMT"
  librdfVersion := CString.lit "1.0.14"
  raptorVersion := CString.lit "2.0.4"
  rasqalVersion := CString.lit "0.9.26"
  storageName := CString.lit "redstore"
  storageType := CString.lit "memory"
  publicStorageOptions := CString.lit "contexts='yes', write='yes'"
  xmlEscape s quote := s.flatMap (xmlEscapeByte quote)
  stringbufferAsString b := if b = [] then none else some (CString.ofBytes b)
  newUri u := if u.bytes = [] then none else some u
  newUriRelativeToBase base ref :=
    some (CString.ofBytes (Rfc3986.resolve base.bytes ref.bytes))
  newUriFromUri u := some u
  newNodeFromUri u := some (.uri u)
  newNodeFromUriString u := if u.bytes = [] then none else some (.uri u)
  parserDescriptions := [
    { name := CString.lit "ntriples"
      label := some (CString.lit "N-Triples")
      mimeTypes := [(CString.lit "text/plain", 10)] }]
  serializerDescriptions := [
    { name := CString.lit "ntriples"
      label := some (CString.lit "N-Triples")
      mimeTypes := [(CString.lit "text/plain", 10)] },
    { name := CString.lit "rdfxml"
      label := some (CString.lit "RDF/XML")
      mimeTypes := [(CString.lit "application/rdf+xml", 10)] }]
  queryResultsFormatsDescriptions := []
  queryLanguageDescriptions := []
  storageSize store := store.length
  storageGetContexts store := ⟨some (streamOf (store.filterMap Prod.snd).dedup), store, []⟩
  containsContext g store := ⟨store.any fun quad => quad.2 = some g, store, []⟩
  contextRemoveStatements g store := ⟨false, store.filter fun quad => quad.2 ≠ some g, []⟩
  contextAddStatements g stream store :=
    ⟨false, (streamObjects stream).foldl (fun store t => store.insert (t, g)) store,
      streamLogs stream⟩
  contextRemoveStatement g t store := match t with
    | some t => ⟨false, store.filter (· ≠ (t, g)), []⟩
    | none => ⟨true, store, []⟩
  removeStatement t store := ⟨false, store.filter (· ≠ (t, none)), []⟩
  modelAsStream store := ⟨some (streamOf (store.map Prod.fst)), store, []⟩
  contextAsStream g store :=
    ⟨some (streamOf ((store.filter fun quad => quad.2 = some g).map Prod.fst)), store, []⟩
  newParser _ store := ⟨true, store, []⟩
  parserGuessName type _ := some (type.getD (CString.lit "ntriples"))
  parserParseCountedString _ data _ store :=
    ⟨some (parseLines (data.splitOnP (· == ch '\n'))), store, []⟩
  parserParse _ _ _ store := ⟨none, store, []⟩
  newSerializer _ store := ⟨true, store, []⟩
  serializeStream _ stream store :=
    ⟨(false, (streamObjects stream).flatMap fun t => t.bytes ++ bytesOf "\n"), store, []⟩
  newQuery _ _ store := ⟨false, store, []⟩
  queryExecute _ _ store := ⟨none, store, []⟩
  newFormatter _ _ store := ⟨false, store, []⟩
  formatterWrite _ _ store := ⟨(true, []), store, []⟩
  newTemporaryModel := true
  temporaryModelAsStream _ store := ⟨none, store, []⟩

/-! ### The quads of the store -/

lemma streamObjects_streamOf {T : Type} (objects : List T) :
    streamObjects (streamOf objects) = objects := by
  induction objects with
  | nil => rfl
  | cons o objects ih => exact congrArg (o :: ·) ih

lemma streamLogs_streamOf {T : Type} (objects : List T) : streamLogs (streamOf objects) = [] := by
  induction objects with
  | nil => rfl
  | cons o objects ih => exact ih

/-- The triples of a stream. -/
def triplesOf {T : Type} (stream : Stream T) : Set T := {t | t ∈ streamObjects stream}

lemma mem_triplesOf_streamOf {T : Type} {objects : List T} {t : T} :
    t ∈ triplesOf (streamOf objects) ↔ t ∈ objects := by
  rw [triplesOf, Set.mem_ofPred_eq, streamObjects_streamOf]

/-- The quads of a store, as a set. -/
def memoryQuads (store : MemoryStore) : Set (CString × Option Node) := {q | q ∈ store}

lemma mem_insert {store : MemoryStore} {quad q : CString × Option Node} :
    q ∈ store.insert quad ↔ q ∈ store ∨ q = quad := by
  rw [MemoryStore.insert]
  split
  · next h =>
    constructor
    · exact Or.inl
    · rintro (hq | rfl)
      · exact hq
      · exact h
  · rw [List.mem_append, List.mem_singleton]

lemma mem_foldl_insert {g : Option Node} {ts : List CString} {store : MemoryStore}
    {q : CString × Option Node} :
    q ∈ ts.foldl (fun store t => store.insert (t, g)) store ↔
      q ∈ store ∨ q.1 ∈ ts ∧ q.2 = g := by
  induction ts generalizing store with
  | nil => simp
  | cons t ts ih =>
    rw [List.foldl_cons, ih, mem_insert, List.mem_cons, Prod.ext_iff]
    tauto

lemma memoryQuads_add (g : Option Node) (stream : Stream CString) (store : MemoryStore) :
    memoryQuads (memoryWorld.contextAddStatements g stream store).storage =
      Dataset.add (memoryQuads store) g (triplesOf stream) := by
  ext q
  exact mem_foldl_insert

lemma memoryQuads_clear (g : Node) (store : MemoryStore) :
    memoryQuads (memoryWorld.contextRemoveStatements g store).storage =
      Dataset.clear (memoryQuads store) (some g) := by
  ext q
  simp [memoryQuads, memoryWorld]

lemma memoryQuads_remove (t : CString) (store : MemoryStore) :
    memoryQuads (memoryWorld.removeStatement t store).storage =
      Dataset.remove (memoryQuads store) none {t} := by
  ext q
  simp only [memoryQuads, memoryWorld, Prod.ext_iff, List.mem_filter, Set.mem_ofPred_eq, ne_eq,
    decide_eq_true_eq, Dataset.mem_remove, Set.mem_singleton_iff]

lemma memoryQuads_removeContext (g : Option Node) (t : CString) (store : MemoryStore) :
    memoryQuads (memoryWorld.contextRemoveStatement g (some t) store).storage =
      Dataset.remove (memoryQuads store) g {t} := by
  ext q
  simp only [memoryQuads, memoryWorld, Prod.ext_iff, List.mem_filter, Set.mem_ofPred_eq, ne_eq,
    decide_eq_true_eq, Dataset.mem_remove, Set.mem_singleton_iff]

/-! ### Requests -/

/-- The service before its first request. -/
def emptyApp : App MemoryStore := { storage := [] }

/-- The status that a request is answered with and the store that it leaves. -/
def outcome (result : EStateM.Result Fault (Conn (App MemoryStore)) (Option Response)) :
    Option (Status × MemoryStore) :=
  match result with
  | .ok (some response) c => some (response.status, c.app.storage)
  | _ => none

lemma outcome_eq_some_iff {result : EStateM.Result Fault (Conn (App MemoryStore)) (Option Response)}
    {status : Status} {store : MemoryStore} : outcome result = some (status, store) ↔
      ∃ response c, result = .ok (some response) c ∧ response.status = status ∧
        c.app.storage = store := by
  match result with
  | .ok (some response) c => simp [outcome]
  | .ok none c => simp [outcome]
  | .error e c => simp [outcome]

/-- A PUT of some data to `/data/x`. -/
def putOf (data : String) : Request where
  headers := [⟨CString.lit "Content-Length",
    some (CString.ofBytes (decimal (bytesOf data).length))⟩]
  socket := { input := bytesOf data }
  host := some (CString.lit "localhost")
  method := some (CString.lit "PUT")
  pathAndQuery := some (CString.lit "/data/x")
  path := some (CString.lit "/data/x")
  version := some (CString.lit "1.0")

/-- A PUT of one triple. -/
def putRequest : Request := putOf "a."

/-- The graph of a PUT to `/data/x`, and a service in which it has a triple. -/
def graphX : Node := .uri (CString.lit "http://localhost/data/x")

def occupiedApp : App MemoryStore := { storage := [(CString.lit "b.", some graphX)] }

end RedStore.Service
