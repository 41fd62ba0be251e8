/-
The graph store as its clients see it.

As long as nothing goes wrong in Redland, the handlers of `data.c` are the steps of the graph
store protocol on the quads of the storage: whatever requests are made one after the other,
each does to the quads what its step does to a dataset, and it is answered with what the step
replies.
-/
import RedStore.CLib.Simulation
import RedStore.Service.FalseSuccess
import RedStore.Service.NewGraphs
import RedStore.Service.StoreRequests
import Mathlib.Data.List.Dedup

namespace RedStore.Service
open CLib RedHttp Dataset

variable {T R σ α : Type}

section Handlers

variable {w : World T R σ} {quads : σ → Set (T × Option Node)} {r : Request}
  {d d' : Set (T × Option Node)} {c : Conn (App σ)} {command : Command T Node}
  {action : Action T Node} {reply : Reply T Node}

/-! ### HEAD -/

/-- The empty response shows that a request is done. -/
lemma Quiet.answered_ok (h : Quiet quads r d c) (hstep : Step 10 d command d .done) :
    StepAnswered w quads d command
      ((some <$> (pure (redhttpResponseNew .ok) : ServiceM σ Response)) c) :=
  ⟨redhttpResponseNew .ok, c, .done, rfl, ⟨rfl, h.unwritten⟩, h.stored.symm ▸ hstep⟩

lemma Quiet.answered_head (hw : Faultless w quads) (h : Quiet quads r d c) (hanswer : CanAnswer r)
    {aim : Aim Node} (htarget : requestTarget w c.request = aimTarget aim) :
    StepAnswered w quads d ⟨.head, aim⟩ (handleDataHead w c) :=
  h.answered_withTarget hanswer htarget (fun _ => by simp) (h.answered_ok .headDefault)
    fun _ _ => h.urlConn.answered_ifContained hw hanswer .head fun _ hne hquiet =>
      hquiet.answered_ok (.head hne)

/-! ### GET -/

lemma Quiet.negotiateFormat (h : Quiet quads r d c) (hr : StoredValues r.arguments)
    (haccept : r.getHeader (CString.lit "Accept") = none) :
    redstoreNegotiateFormat c.request w.serializerDescriptions defaultGraphFormat =
      .ok (graphFormat w r) := by
  have hnone : acceptToNegotiate c.request = none := by
    rw [acceptToNegotiate, h.getHeader, haccept, Option.filter_none]
  rw [graphFormat]
  cases hformat : r.getArgument (CString.lit "format") with
  | some format =>
    exact redstoreNegotiateFormat_of_argument ((h.getArgument _).trans hformat)
      (hr.get_ne hformat)
  | none =>
    exact redstoreNegotiateFormat_of_default ((h.getArgument _).trans hformat) hnone (by decide)

/-- The head of a formatted response is written first, and then what writing the results comes
to. -/
lemma Quiet.sendFormatted_apply (h : Quiet quads r d c) (mimeType : Option CString)
    {write : σ → Answer σ (Bool × List UInt8)} (hwrite : Leaves quads d (write c.app.storage)) :
    ∃ response c', sendFormatted w mimeType write c = .ok response c' ∧ response.status = .ok ∧
      quads c'.app.storage = d ∧ ∃ head,
        c'.request.socket.output = head ++ (write c.app.storage).value.2 := by
  have hbuffer : (formattedResponse mimeType).contentBuffer = none := by cases mimeType <;> rfl
  have hstatus : (formattedResponse mimeType).status = .ok := by cases mimeType <;> rfl
  set head := sentHead w.now c.request (formattedResponse mimeType) with hhead
  set sent : Conn (App σ) := { c with request := c.request.write head } with hsent
  have hsend : onRequest (redhttpResponseSend w.now (formattedResponse mimeType)) c =
      .ok (sentResponse w.now c.request (formattedResponse mimeType)) sent := by
    simp only [onRequest, redhttpResponseSend_of_none hbuffer, hsent, hhead]
  refine ⟨sentResponse w.now c.request (formattedResponse mimeType),
    { Service.called sent (write c.app.storage) with
      request := sent.request.write (write c.app.storage).value.2 }, ?_,
    sentResponse_status.trans hstatus, ?_, head, ?_⟩
  · rw [sendFormatted, bind_of_ok hsend, bind_of_ok (call_apply _ _)]
    rfl
  · exact (h.called hwrite).stored
  · show c.request.socket.output ++ head ++ _ = _
    rw [h.unwritten, List.nil_append]

/-- A stream of triples is formatted, if the format is there. -/
lemma Quiet.answered_formatGraphStream (hw : Faultless w quads) (h : Quiet quads r d c)
    (hr : StoredValues r.arguments) (haccept : r.getHeader (CString.lit "Accept") = none)
    {ts : List T} {us : Set T} (hts : ∀ t, t ∈ ts ↔ t ∈ us)
    (hstep : Step 10 d command d (shownTriples (graphFormat w r).1.isSome us)) :
    StepAnswered w quads d command ((some <$> formatGraphStream w (streamOf ts)) c) := by
  have hformat := h.negotiateFormat (w := w) hr haccept
  rcases hchosen : graphFormat w r with ⟨desc, mimeType⟩
  rw [hchosen] at hformat hstep
  cases desc with
  | none =>
    have hpage : formatGraphStream w (streamOf ts) c =
        redstorePageNewWithMessage w .notAcceptable
          (bytesOf "Results format not supported for graph query type.") c := by
      rw [formatGraphStream, bind_of_ok (get_apply c), hformat, bind_of_ok (ofExcept_ok _ c)]
    rw [map_some_congr hpage]
    exact h.answered_page (canAnswer_of_noAccept haccept) hstep rfl fun _ => rfl
  | some desc =>
    have hmem : desc ∈ w.serializerDescriptions :=
      List.mem_of_find?_eq_some (congrArg Prod.fst hchosen)
    obtain ⟨hserializer, hvalue⟩ := hw.newSerializer desc.name c.app.storage
    rw [h.stored] at hserializer
    have hquiet := h.called hserializer
    set c₁ := Service.called c (w.newSerializer desc.name c.app.storage) with hc₁
    obtain ⟨hwrite, -⟩ := hw.serialize desc.name (streamOf ts) c₁.app.storage
    rw [hquiet.stored] at hwrite
    obtain ⟨response, c', hsend, hstatus, hstored, head, hwritten⟩ :=
      hquiet.sendFormatted_apply (w := w) mimeType hwrite
    refine ⟨response, c', .triples us, map_some_eq_ok_iff.mpr ?_, ⟨hstatus, ?_⟩, ?_⟩
    · rw [formatGraphStream, bind_of_ok (get_apply c), hformat, bind_of_ok (ofExcept_ok _ c)]
      dsimp only
      rw [bind_of_ok (call_apply _ _), hvalue, if_pos rfl]
      exact hsend
    · refine ⟨desc, hmem, head, streamOf ts, c₁.app.storage, ?_, ?_, hwritten⟩
      · ext t
        rw [mem_triplesOf_streamOf, hts]
      · exact streamLogs_streamOf ts
    · rw [hstored]
      exact hstep

/-- A stream is made and formatted. -/
lemma Quiet.answered_formatStreamOf (hw : Faultless w quads) (h : Quiet quads r d c)
    (hr : StoredValues r.arguments) (haccept : r.getHeader (CString.lit "Accept") = none)
    {message : String} {asStream : σ → Answer σ (Option (Stream T))} {us : Set T}
    (hstream : Leaves quads (quads c.app.storage) (asStream c.app.storage) ∧
      ∃ ts, (asStream c.app.storage).value = some (streamOf ts) ∧ ∀ t, t ∈ ts ↔ t ∈ us)
    (hstep : Step 10 d command d (shownTriples (graphFormat w r).1.isSome us)) :
    StepAnswered w quads d command ((some <$> formatStreamOf w message asStream) c) := by
  obtain ⟨hleaves, ts, hvalue, hts⟩ := hstream
  rw [h.stored] at hleaves
  have hrun : formatStreamOf w message asStream c =
      formatGraphStream w (streamOf ts) (Service.called c (asStream c.app.storage)) := by
    rw [formatStreamOf_apply, hvalue]
  rw [map_some_congr hrun]
  exact (h.called hleaves).answered_formatGraphStream hw hr haccept hts hstep

lemma Quiet.answered_get (hw : Faultless w quads) (h : Quiet quads r d c)
    (hr : StoredValues r.arguments) (haccept : r.getHeader (CString.lit "Accept") = none)
    {aim : Aim Node} (htarget : requestTarget w c.request = aimTarget aim) :
    StepAnswered w quads d ⟨.get (graphFormat w r).1.isSome, aim⟩ (handleDataGet w c) := by
  have hanswer := canAnswer_of_noAccept haccept
  refine h.answered_withTarget hanswer htarget (fun _ => by simp) ?_ fun g _ =>
    h.urlConn.answered_ifContained hw hanswer (.get _) fun c₁ hne hquiet => ?_
  · have hstream := hw.asStream c.app.storage
    rw [h.stored] at hstream
    exact h.answered_formatStreamOf hw hr haccept (h.stored.symm ▸ hstream) (.getDefault _)
  · have hstream := hw.contextAsStream g c₁.app.storage
    rw [hquiet.stored] at hstream
    exact hquiet.answered_formatStreamOf hw hr haccept (hquiet.stored.symm ▸ hstream) (.get _ hne)

/-! ### Uploads -/

/-- A connection whose body has not been read, with the URL of a request. -/
structure Unread (r : Request) (c : Conn (App σ)) : Prop where
  input : c.request.socket.input = r.socket.input
  url : c.request.currentUrl = r.currentUrl

/-- Asking for the URL does not change it. -/
lemma currentUrl_withUrl (r : Request) : r.withUrl.currentUrl = r.currentUrl := by
  rw [Request.currentUrl, Request.withUrl]
  cases hurl : r.currentUrl with
  | some url => rfl
  | none =>
    have hpath : r.pathAndQuery = none := by
      rw [Request.currentUrl, Option.or_eq_none_iff, Option.map_eq_none_iff] at hurl
      exact hurl.2
    rw [hpath]
    rfl

lemma Unread.urlConn (h : Unread r c) : Unread r (urlConn c) where
  input := h.input
  url := (currentUrl_withUrl c.request).trans h.url

/-- A node that a base URI can be made of, or none. -/
def HasUri (node : Option Node) : Prop := ∀ n ∈ node, ∃ u, n = .uri u

lemma chooseBaseUri_ok (hw : Faultless w quads) (hr : StoredValues r.arguments)
    {node : Option Node} (hnode : HasUri node) :
    ∃ base, chooseBaseUri w (r.getArgument (CString.lit "base-uri")) node = .ok base := by
  cases hbase : r.getArgument (CString.lit "base-uri") with
  | some base => exact ⟨some base, by rw [chooseBaseUri, hw.uris.newUri _ (hr.get_ne hbase)]⟩
  | none =>
    cases node with
    | none => exact ⟨none, rfl⟩
    | some node =>
      obtain ⟨u, rfl⟩ := hnode node rfl
      exact ⟨some u, by rw [chooseBaseUri, Node.getUri, Option.bind_some, hw.copy]⟩

/-- The body of a request is read. -/
lemma Quiet.readDataBody_apply (h : Quiet quads r d c) (hunread : Unread r c)
    {data rest : List UInt8} (hdata : Carries r data rest) :
    ∃ c₁, Quiet quads r d c₁ ∧
      onRequest (readDataBody w.heap (c.request.getHeader (CString.lit "Content-Length"))) c =
        .ok (if data = [] then .error (.badRequest, "Invalid content length header.")
          else if w.heap.malloc data.length then .ok data
          else .error (.internalServerError, "Failed to allocate memory for input data.")) c₁ := by
  obtain ⟨header, hheader, hexact⟩ := hdata.length
  have hsize : sizeOfInt (atoi header) = data.length := by
    have hlt : atoi header < intRange := atoi_lt header
    rw [sizeOfInt_of_nonneg (by omega) (hlt.trans (by decide)), hexact, Int.toNat_natCast]
  have hinput : c.request.socket.input = data ++ rest := hunread.input.trans hdata.input
  rw [h.getHeader, hheader]
  simp only [onRequest, readDataBody_eq hsize, hinput, List.take_left, List.drop_left,
    List.length_eq_zero_iff, ne_eq, not_true_eq_false, if_false]
  split_ifs
  · exact ⟨c, h, rfl⟩
  · refine ⟨_, ?_, rfl⟩
    exact ⟨h.headers, h.arguments, h.unwritten, h.buffer, h.stored⟩
  · refine ⟨_, ?_, rfl⟩
    exact ⟨h.headers, h.arguments, h.unwritten, h.buffer, h.stored⟩

/-- A document is parsed. -/
lemma Quiet.bufferStream_apply (hw : Faultless w quads) (h : Quiet quads r d c) {node : Option Node}
    {data : List UInt8} {name : CString} {base : Option CString}
    (hbase : chooseBaseUri w (r.getArgument (CString.lit "base-uri")) node = .ok base)
    {P : Stream T → Prop}
    (hparsed : ∀ s, ∃ stream, (w.parserParseCountedString name data base s).value = some stream ∧
      P stream) :
    ∃ stream c₁, Quiet quads r d c₁ ∧ bufferStream w data name node c = .ok (.ok stream) c₁ ∧
      P stream := by
  obtain ⟨hparser, hvalue⟩ := hw.newParser name c.app.storage
  rw [h.stored] at hparser
  have hquiet := h.called hparser
  set c₁ := Service.called c (w.newParser name c.app.storage)
  have hparse := hw.parse name data base c₁.app.storage
  rw [hquiet.stored] at hparse
  obtain ⟨stream, hstream, hP⟩ := hparsed c₁.app.storage
  refine ⟨stream, _, hquiet.called hparse, ?_, hP⟩
  rw [bufferStream, bind_of_ok (get_apply c), h.getArgument, hbase]
  dsimp only
  rw [bind_of_ok (call_apply _ _), hvalue, if_pos rfl, bind_of_ok (call_apply _ _), hstream]
  rfl

/-- An upload is refused, or what becomes of its triples is what becomes of the request. -/
lemma Quiet.answered_upload (hw : Faultless w quads) (h : Quiet quads r d c)
    (hunread : Unread r c) (hr : StoredValues r.arguments) (hanswer : CanAnswer r)
    {upload : Upload T Node} (hbrings : Brings w r upload) {node : Option Node}
    (hnode : HasUri node) {streamProc : StreamProcessor T σ}
    (hrefused : ∀ reply, upload.refusal = some reply → Step 10 d command d reply)
    (hproc : ∀ stream c₁, streamLogs stream = [] → triplesOf stream ∈ upload.meaning node →
      Quiet quads r d c₁ → StepAnswered w quads d command ((some <$> streamProc stream node) c₁)) :
    StepAnswered w quads d command
      ((some <$> parseDataFromRequestBody w node streamProc) c) := by
  cases hbrings with
  | empty hdata =>
    obtain ⟨c₁, hquiet, hread⟩ := h.readDataBody_apply (w := w) hunread hdata
    have hrun : parseDataFromRequestBody w node streamProc c =
        redstorePageNewWithMessage w .badRequest (bytesOf "Invalid content length header.") c₁ := by
      rw [parseDataFromRequestBody, bind_of_ok (get_apply c), bind_of_ok hread, if_pos rfl]
    rw [map_some_congr hrun]
    exact hquiet.answered_page hanswer (hrefused _ rfl) rfl fun _ => rfl
  | tooLarge hdata hne hmemory =>
    obtain ⟨c₁, hquiet, hread⟩ := h.readDataBody_apply (w := w) hunread hdata
    rw [if_neg hne, if_neg (by simp [hmemory])] at hread
    have hrun : parseDataFromRequestBody w node streamProc c =
        redstorePageNewWithMessage w .internalServerError
          (bytesOf "Failed to allocate memory for input data.") c₁ := by
      rw [parseDataFromRequestBody, bind_of_ok (get_apply c), bind_of_ok hread]
    rw [map_some_congr hrun]
    exact hquiet.answered_page hanswer (hrefused _ rfl) rfl fun _ => rfl
  | @document meaning data rest name hdata hne hmemory htype hparsed =>
    obtain ⟨c₁, hquiet, hread⟩ := h.readDataBody_apply (w := w) hunread hdata
    rw [if_neg hne, if_pos hmemory] at hread
    obtain ⟨base, hbase⟩ := chooseBaseUri_ok hw hr hnode
    obtain ⟨stream, c₂, hquiet₂, hstream, hsilent, hmem⟩ :=
      hquiet.bufferStream_apply hw hbase fun s => hparsed node base s hbase
    have hupload : uploadStream w node c = .ok (.ok stream) c₂ := by
      rw [uploadStream, bind_of_ok (get_apply c), bind_of_ok hread]
      dsimp only
      rw [h.getHeader, htype]
      exact hstream
    have hrun : parseDataFromRequestBody w node streamProc c = streamProc stream node c₂ := by
      rw [parseDataFromRequestBody_eq, bind_of_ok hupload]
      rfl
    rw [map_some_congr hrun]
    exact hproc stream c₂ hsilent hmem hquiet₂

/-- Triples are added to a graph. -/
lemma Quiet.answered_load (hw : Faultless w quads) (h : Quiet quads r d' c) (hanswer : CanAnswer r)
    {stream : Stream T} (hsilent : streamLogs stream = []) {graph : Option Node}
    (hstep : Step 10 d command (Dataset.add d' graph (triplesOf stream)) .done) :
    StepAnswered w quads d command ((some <$> loadStreamIntoGraph w stream graph) c) := by
  obtain ⟨hadded, hvalue⟩ := hw.add graph stream c.app.storage hsilent
  rw [h.stored] at hadded
  have hquiet := h.called hadded
  set c₁ := Service.called c (w.contextAddStatements graph stream c.app.storage) with hc₁
  have hrun : loadStreamIntoGraph w stream graph c = redstorePageNewWithMessage w .ok
      (bytesOf "Successfully added triples to: " ++ shown (graphName graph))
        (Service.looked c₁) := by
    rw [loadStreamIntoGraph_eq]
    simp only [hvalue, ← hc₁, hquiet.buffer, Option.isSome_none, Bool.false_eq_true, if_false]
  rw [map_some_congr hrun]
  exact hquiet.looked.answered_page hanswer hstep rfl fun _ => rfl

/-! ### PUT -/

lemma Quiet.answered_put (hw : Faultless w quads) (h : Quiet quads r d c)
    (hunread : Unread r c) (hr : StoredValues r.arguments) (hanswer : CanAnswer r)
    {upload : Upload T Node} (hbrings : Brings w r upload) {aim : Aim Node}
    (htarget : requestTarget w c.request = aimTarget aim)
    (haim : ∀ g, aim = .graph g → HasUri (some g)) :
    StepAnswered w quads d ⟨.put upload, aim⟩ (handleDataPut w c) := by
  refine h.answered_withTarget hanswer htarget (fun _ => by simp)
    (h.answered_page hanswer (.putDefault upload) rfl fun _ => rfl) fun g hg => ?_
  refine h.urlConn.answered_upload hw hunread.urlConn hr hanswer hbrings (haim g hg)
    (fun _ hreply => .putRefused hreply) fun stream c₁ hsilent hmem hquiet => ?_
  obtain ⟨hcleared, -⟩ := hw.clear g c₁.app.storage
  rw [hquiet.stored] at hcleared
  rw [map_some_congr (clearAndLoad_eq g stream c₁)]
  exact (hquiet.called hcleared).answered_load hw hanswer hsilent (.put hmem)

/-! ### POST -/

/-- A Location behind the type of a page. -/
lemma location_of_messagePage {response : Response} (h : MessagePage response) {u : CString}
    (hu : u.strlen ≠ 0) : redhttpHeadersGet
      (redhttpResponseAddHeader response HeaderName.location (some u)).headers
        (CString.lit "Location") = some u := by
  obtain ⟨type, -, hheaders⟩ := h.headers
  have hother : sameKey (CString.lit "Location") HeaderName.contentType.1 = false := by decide
  have hself : sameKey (CString.lit "Location") HeaderName.location.1 = true := by decide
  simp only [redhttpResponseAddHeader, hheaders, List.cons_append, List.nil_append,
    redhttpHeadersGet, hother, hself, Bool.false_eq_true, if_false, if_true,
    storedValue_of_ne hu]

/-- Triples are added to a graph of their own. -/
lemma Quiet.answered_loadNew (hw : Faultless w quads) (h : Quiet quads r d' c)
    (hanswer : CanAnswer r) {stream : Stream T} (hsilent : streamLogs stream = []) {u : CString}
    (hu : u.strlen ≠ 0)
    (hstep : Step 10 d command (Dataset.add d' (some (.uri u)) (triplesOf stream))
      (.created (.uri u))) :
    StepAnswered w quads d command
      ((some <$> loadStreamIntoNewGraph w stream (some (.uri u))) c) := by
  obtain ⟨hadded, hvalue⟩ := hw.add (some (.uri u)) stream c.app.storage hsilent
  rw [h.stored] at hadded
  have hquiet := (h.called hadded).looked
  set c₁ := Service.looked (Service.called c
    (w.contextAddStatements (some (.uri u)) stream c.app.storage)) with hc₁
  obtain ⟨page, hpage, hstatus⟩ := hquiet.page (w := w) hanswer .created
    (bytesOf "Successfully added triples to new graph: " ++ shown (some u))
  have hmessage : MessagePage page := (messageResponse_of_ok hpage).1.messagePage
  have hlocation := location_of_messagePage hmessage hu
  refine ⟨redhttpResponseAddHeader page HeaderName.location (some u), Service.looked c₁,
    .created (.uri u), map_some_eq_ok_iff.mpr ?_, ⟨hstatus, ?_, hlocation⟩,
    hquiet.looked.stored.symm ▸ hstep⟩
  · rw [loadStreamIntoNewGraph_eq]
    simp only [hvalue, (h.called hadded).buffer, Option.isSome_none, Bool.false_eq_true, if_false]
    exact map_eq_ok_iff.mpr ⟨page, hpage, rfl⟩
  · exact hquiet.looked.unwritten

lemma nextGraph_eq (hw : Faultless w quads) (hunread : Unread r c) {url : CString}
    (hurl : r.currentUrl = some url) (hne : url.bytes ≠ []) :
    nextGraph w c = some (.uri (newGraphUri url (currentBaseId w c.app))) := by
  have hrelative : ¬ Absolute (CString.lit "/data/" ++ genidText (currentBaseId w c.app)) := by
    have hscheme := Rfc3986.scheme_parse_of_slash
      (bytesOf "data/" ++ (genidText (currentBaseId w c.app)).bytes)
    intro habsolute
    rw [Absolute, show (CString.lit "/data/" ++ genidText (currentBaseId w c.app)).bytes =
      ch '/' :: (bytesOf "data/" ++ (genidText (currentBaseId w c.app)).bytes) from rfl, hscheme]
      at habsolute
    cases habsolute
  rw [nextGraph, graphNodeFor, hunread.url, hurl, Option.bind_some, hw.uris.newUri _ hne]
  simp only [hw.uris.relative _ _ hrelative, Option.bind_some, hw.uris.node]
  rfl

/-- The search for a graph of its own ends at one without triples, or all those tried have
some. -/
lemma Quiet.findNewGraph_apply (hw : Faultless w quads) {url : CString}
    (hurl : r.currentUrl = some url) (hne : url.bytes ≠ []) (attempts : ℕ)
    (h : Quiet quads r d c) (hunread : Unread r c) :
    ∃ result c₁, findNewGraph w attempts c = .ok result c₁ ∧ Quiet quads r d c₁ ∧ Unread r c₁ ∧
      ((∃ n, result = .ok (.uri (newGraphUri url n)) ∧
          content d (some (.uri (newGraphUri url n))) = ∅) ∨
        ∃ message, result = .error message ∧ ∀ i < attempts, (content d
          (some (.uri (newGraphUri url ((nextId w)^[i] (currentBaseId w c.app)))))).Nonempty) := by
  induction attempts generalizing c with
  | zero =>
    exact ⟨_, c, rfl, h, hunread, Or.inr ⟨_, rfl, fun i hi => absurd hi (Nat.not_lt_zero i)⟩⟩
  | succ attempts ih =>
    set n := currentBaseId w c.app with hn
    set g : Node := .uri (newGraphUri url n) with hg
    obtain ⟨hleaves, hcontains⟩ := hw.contains g c.app.storage
    rw [h.stored] at hleaves hcontains
    set c₁ := Service.called (Service.genidConn w (Service.urlConn c))
      (w.containsContext g c.app.storage) with hc₁
    have hquiet : Quiet quads r d c₁ := h.urlConn.genidConn.called hleaves
    have hunread' : Unread r c₁ := ⟨hunread.input, hunread.urlConn.url⟩
    rw [findNewGraph_succ, nextGraph_eq hw hunread hurl hne]
    dsimp only
    rw [← hn, ← hg]
    by_cases hvalue : (w.containsContext g c.app.storage).value = true
    · rw [if_pos hvalue]
      obtain ⟨result, c₂, hrun, hquiet₂, hunread₂, hresult⟩ := ih hquiet hunread'
      refine ⟨result, c₂, hrun, hquiet₂, hunread₂, hresult.imp_right ?_⟩
      rintro ⟨message, hmessage, hall⟩
      have hnext : currentBaseId w c₁.app = nextId w n := by
        rw [hc₁, Service.called, afterCall_of_silent _ hleaves.silent]
        rfl
      refine ⟨message, hmessage, fun i hi => ?_⟩
      cases i with
      | zero => exact hcontains.mp hvalue
      | succ i =>
        rw [Function.iterate_succ_apply, ← hnext]
        exact hall i (by omega)
    · rw [if_neg hvalue]
      refine ⟨_, _, rfl, hquiet, hunread', Or.inl ⟨n, rfl, ?_⟩⟩
      exact Set.not_nonempty_iff_eq_empty.mp fun hne => hvalue (hcontains.mpr hne)

lemma Quiet.answered_post (hw : Faultless w quads) (h : Quiet quads r d c)
    (hunread : Unread r c) (hr : StoredValues r.arguments) (hanswer : CanAnswer r)
    {upload : Upload T Node} (hbrings : Brings w r upload) {aim : Aim Node}
    (htarget : requestTarget w c.request = aimTarget aim)
    (haim : ∀ g, aim = .graph g → HasUri (some g)) {url : CString}
    (hurl : r.currentUrl = some url) (hne : url.bytes ≠ []) :
    StepAnswered w quads d ⟨.post upload, aim⟩ (handleDataPost w c) := by
  rw [handleDataPost_apply, htarget]
  cases aim with
  | both => exact h.answered_both hanswer
  | default =>
    refine h.answered_upload hw hunread hr hanswer hbrings (by rintro _ ⟨⟩)
      (fun _ hreply => .postRefused (by simp) hreply) fun stream c₁ hsilent hmem hquiet => ?_
    exact hquiet.answered_load hw hanswer hsilent (.postDefault hmem)
  | graph g =>
    refine h.urlConn.answered_upload hw hunread.urlConn hr hanswer hbrings (haim g rfl)
      (fun _ hreply => .postRefused (by simp) hreply) fun stream c₁ hsilent hmem hquiet => ?_
    exact hquiet.answered_load hw hanswer hsilent (.post hmem)
  | neither =>
    obtain ⟨result, c₁, hfind, hquiet, hunread₁, hresult⟩ :=
      h.findNewGraph_apply hw hurl hne 10 hunread
    rcases hresult with ⟨n, rfl, hempty⟩ | ⟨message, rfl, hfull⟩
    · have hrun : postToNewGraph w c = parseDataFromRequestBody w (some (.uri (newGraphUri url n)))
          (loadStreamIntoNewGraph w) c₁ := by
        rw [postToNewGraph, bind_of_ok hfind]
      rw [aimTarget, map_some_congr hrun]
      refine hquiet.answered_upload hw hunread₁ hr hanswer hbrings ?_
        (fun _ hreply => .postRefused (by simp) hreply) fun stream c₂ hsilent hmem hquiet₂ => ?_
      · rintro _ ⟨⟩
        exact ⟨_, rfl⟩
      · exact hquiet₂.answered_loadNew hw hanswer hsilent (newGraphUri_strlen url n)
          (.postNew hempty hmem)
    · have hrun : postToNewGraph w c =
          redstorePageNewWithMessage w .internalServerError (bytesOf message) c₁ := by
        rw [postToNewGraph, bind_of_ok hfind]
      rw [aimTarget, map_some_congr hrun]
      refine hquiet.answered_page hanswer (.postFull upload _ (nodup_tried hw.random url
        (currentBaseId w c.app)) (by simp) ?_) rfl fun _ => rfl
      intro g hg
      obtain ⟨i, hi, rfl⟩ := List.mem_map.mp hg
      exact hfull i (List.mem_range.mp hi)

/-! ### DELETE -/

lemma handedBack_streamOf (os : List α) : handedBack (streamOf os) = os := by
  induction os with
  | nil => rfl
  | cons o os ih => exact congrArg (o :: ·) ih

lemma silent_streamOf (os : List α) : Silent (streamOf os) := by
  induction os with
  | nil => trivial
  | cons o os ih => exact ih

/-- Removals that succeed and log nothing sweep. -/
lemma sweeps_of_leaves {remove : α → σ → Answer σ Bool} {left : α → σ → Set (T × Option Node)}
    (h : ∀ a s, Leaves quads (left a s) (remove a s) ∧ (remove a s).value = false) (as : List α)
    (s : σ) : Sweeps remove as s := by
  induction as generalizing s with
  | nil => trivial
  | cons a as ih => exact ⟨(h a s).2, (h a s).1.silent, ih _⟩

lemma Faultless.removes (hw : Faultless w quads) : Removes w quads where
  getContexts s := (hw.getContexts s).1.left
  asStream s := (hw.asStream s).1.left
  clear g s _ := (hw.clear g s).1.left
  remove t s _ := (hw.remove t s).1.left

/-- Deleting everything leaves nothing. -/
lemma Quiet.removeAllStatements_apply (hw : Faultless w quads) (h : Quiet quads r d c) :
    ∃ message c₁, removeAllStatements w c = redstorePageNewWithMessage w .ok message c₁ ∧
      c₁.request = c.request ∧ c₁.app.errorBuffer = none ∧ quads c₁.app.storage = ∅ := by
  obtain ⟨code, message, c₁, hrun, hrequest, hcode, hswept⟩ := removeAllStatements_cases w c
  obtain ⟨hcontexts, gs, hgs, hmemgs⟩ := hw.getContexts c.app.storage
  obtain ⟨hmodel, ts, hts, hmemts⟩ := hw.asStream (afterGraphs w c.app.storage (streamOf gs))
  have hclean : SweptClean w c.app (streamOf gs) (streamOf ts) :=
    ⟨h.buffer, hgs, hcontexts.silent, silent_streamOf gs, sweeps_of_leaves hw.clear _ _, hts,
      hmodel.silent, silent_streamOf ts, sweeps_of_leaves hw.remove _ _⟩
  obtain ⟨hbuffer, hstorage⟩ := hswept _ _ hclean
  obtain rfl := hcode.mpr ⟨_, _, hclean⟩
  refine ⟨message, c₁, hrun, hrequest, hbuffer, ?_⟩
  rw [hstorage, quads_afterStatements_eq_empty_iff hw.removes hclean, handedBack_streamOf,
    handedBack_streamOf]
  refine ⟨fun t g hq => (hmemgs g).mpr ⟨t, hq⟩, fun t hq => (hmemts t).mpr ⟨none, ?_⟩⟩
  rw [afterGraphs, mem_quads_sweep_graphs hw.removes (sweeps_of_leaves hw.clear _ _),
    hcontexts.left]
  exact ⟨hq, by simp⟩

lemma Quiet.answered_delete (hw : Faultless w quads) (h : Quiet quads r d c) (hanswer : CanAnswer r)
    {aim : Aim Node} (htarget : requestTarget w c.request = aimTarget aim) :
    StepAnswered w quads d ⟨.delete, aim⟩ (handleDataDelete w c) := by
  refine h.answered_withTarget hanswer htarget (fun _ => by simp) ?_ fun g _ =>
    h.urlConn.answered_ifContained hw hanswer .delete fun c₁ hne hquiet => ?_
  · obtain ⟨message, c₁, hrun, hrequest, hbuffer, hempty⟩ := h.removeAllStatements_apply hw
    have hquiet : Quiet quads r ∅ c₁ :=
      ⟨hrequest ▸ h.headers, hrequest ▸ h.arguments, hrequest ▸ h.unwritten, hbuffer, hempty⟩
    rw [map_some_congr hrun]
    exact hquiet.answered_page hanswer .deleteDefault rfl fun _ => rfl
  · obtain ⟨hcleared, hvalue⟩ := hw.clear g c₁.app.storage
    rw [hquiet.stored] at hcleared
    have hrun : (do
        if ← call (w.contextRemoveStatements g) then
          redstorePageNewWithMessage w .internalServerError
            (bytesOf "Error while trying to delete graph")
        else redstorePageNewWithMessage w .ok (bytesOf "Successfully deleted graph.") :
          ServiceM σ Response) c₁ = redstorePageNewWithMessage w .ok
            (bytesOf "Successfully deleted graph.")
              (Service.called c₁ (w.contextRemoveStatements g c₁.app.storage)) := by
      rw [bind_of_ok (call_apply _ _), hvalue, if_neg Bool.false_ne_true]
    rw [map_some_congr hrun]
    exact (hquiet.called hcleared).answered_page hanswer (.delete hne) rfl fun _ => rfl

/-! ### Runs -/

lemma quiet_dataConn {m : DataMethod} {suffix : CString} (h : StoreRequest r m suffix)
    (app : App σ) : Quiet quads r (quads app.storage) (dataConn ⟨r, app⟩ suffix) :=
  ⟨rfl, rfl, h.unanswered, rfl, rfl⟩

lemma Aimed.hasUri {suffix : CString} {aim : Aim Node} (h : Aimed r suffix aim) :
    ∀ g, aim = .graph g → HasUri (some g) := by
  rintro g rfl _ ⟨⟩
  cases h with
  | graph => exact ⟨_, rfl⟩

/-- A request that stands for a command is answered with a step of it. -/
lemma answered_dispatchRequest (hw : Faultless w quads) (h : StandsFor w r command) (app : App σ) :
    StepAnswered w quads (quads app.storage) command (dispatchRequest w ⟨r, app⟩) := by
  obtain ⟨action, aim⟩ := command
  obtain ⟨m, suffix, hr, haim, hasks⟩ := h
  have hquiet : Quiet quads r (quads app.storage) (dataConn ⟨r, app⟩ suffix) :=
    quiet_dataConn hr app
  have hunread : Unread r (dataConn ⟨r, app⟩ suffix) := ⟨rfl, rfl⟩
  have hanswer := canAnswer_of_noAccept hr.noAccept
  have htarget := requestTarget_of_aimed hw hr haim app
  obtain ⟨target, hpath⟩ := Option.ne_none_iff_exists'.mp hr.target
  have hurl : r.currentUrl = some (targetUrl r target) := by
    rw [Request.currentUrl, hr.url, hpath]
    rfl
  have hne : (targetUrl r target).bytes ≠ [] := by
    simp [targetUrl, CString.lit, CString.ofBytes, bytesOf, ch]
  rw [dispatchRequest_data (c := ⟨r, app⟩) hr.method hr.path hr.glob]
  cases hasks with
  | head => exact hquiet.answered_head hw hanswer htarget
  | get => exact hquiet.answered_get hw hr.arguments hr.noAccept htarget
  | put hbrings =>
    exact hquiet.answered_put hw hunread hr.arguments hanswer hbrings htarget haim.hasUri
  | post hbrings =>
    exact hquiet.answered_post hw hunread hr.arguments hanswer hbrings htarget haim.hasUri hurl hne
  | delete => exact hquiet.answered_delete hw hanswer htarget

/-- Every request that stands for a command is answered, and only with steps of it. -/
lemma simulates_serviceStep (hw : Faultless w quads) :
    Simulates (fun app : App σ => quads app.storage) (StandsFor w) (Shows w) (ServiceStep w)
      (Step 10) := by
  intro app r command app' answer h hstep
  obtain ⟨c, hrun, rfl, houtput⟩ := hstep
  obtain ⟨response, c', reply, hrun', hshows, hstep⟩ := answered_dispatchRequest hw h app
  obtain ⟨hresponse, rfl⟩ := (EStateM.Result.ok.injEq ..).mp (hrun.symm.trans hrun')
  obtain rfl := Option.some.inj hresponse
  rw [houtput] at hshows
  exact ⟨reply, hshows, hstep⟩

/-- Whatever requests are made one after the other, each is answered, and what they do to the
quads and are answered with is a run of the graph store protocol. -/
theorem graphStore_refines (hw : Faultless w quads) {requests : List Request}
    {commands : List (Command T Node)} (h : List.Forall₂ (StandsFor w) requests commands)
    (app : App σ) :
    (∃ app' answers, Run (ServiceStep w) app requests app' answers) ∧
      ∀ app' answers, Run (ServiceStep w) app requests app' answers →
        ∃ replies, List.Forall₂ (Shows w) answers replies ∧
          Run (Step 10) (quads app.storage) commands (quads app'.storage) replies := by
  constructor
  · refine Run.exists_of_total (fun {r command} hr app => ?_) h app
    obtain ⟨response, c, _, hrun, -⟩ := answered_dispatchRequest hw hr app
    exact ⟨c.app, (response, c.request.socket.output), c, hrun, rfl, rfl⟩
  · intro app' answers hrun
    exact (simulates_serviceStep hw).run h hrun

end Handlers

/-! ### In memory -/

/-- Nothing goes wrong in memory. -/
lemma formsWorld_faultless : Faultless formsWorld memoryQuads where
  random := by decide
  uris := formsWorld_resolvingUris
  copy _ := rfl
  contains g s := ⟨⟨rfl, rfl⟩, formsWorld_readableGraphs.contains g s⟩
  getContexts s := by
    refine ⟨⟨rfl, rfl⟩, _, rfl, fun g => ?_⟩
    rw [List.mem_dedup, List.mem_filterMap]
    constructor
    · rintro ⟨⟨t, _⟩, hmem, rfl⟩
      exact ⟨t, hmem⟩
    · rintro ⟨t, hmem⟩
      exact ⟨(t, some g), hmem, rfl⟩
  asStream s := by
    refine ⟨⟨rfl, rfl⟩, _, rfl, fun t => ?_⟩
    rw [List.mem_map]
    constructor
    · rintro ⟨⟨_, g⟩, hmem, rfl⟩
      exact ⟨g, hmem⟩
    · rintro ⟨g, hmem⟩
      exact ⟨(t, g), hmem, rfl⟩
  contextAsStream g s := by
    obtain ⟨stream, hstream, hts⟩ := formsWorld_readableGraphs.stream g s
    obtain rfl := Option.some.inj hstream
    refine ⟨⟨rfl, rfl⟩, _, rfl, fun t => ?_⟩
    rw [← hts]
    exact mem_triplesOf_streamOf.symm
  add g stream s hsilent := ⟨⟨hsilent, memoryQuads_add g stream s⟩, rfl⟩
  clear g s := ⟨⟨rfl, memoryQuads_clear g s⟩, rfl⟩
  remove t s := ⟨⟨rfl, memoryQuads_remove t s⟩, rfl⟩
  newParser _ _ := ⟨⟨rfl, rfl⟩, rfl⟩
  parse _ _ _ _ := ⟨rfl, rfl⟩
  newSerializer _ _ := ⟨⟨rfl, rfl⟩, rfl⟩
  serialize _ _ _ := ⟨⟨rfl, rfl⟩, rfl⟩

/-- A request with a query string, its arguments and some data. -/
def storeRequest (m : DataMethod) (query : String) (arguments : List (String × Option String))
    (data : String) : Request where
  headers := [⟨CString.lit "Content-Length",
    some (CString.ofBytes (decimal (bytesOf data).length))⟩]
  arguments := arguments.map fun a => ⟨CString.lit a.1, a.2.map CString.lit⟩
  socket := { input := bytesOf data }
  host := some (CString.lit "localhost")
  method := some m.name
  pathAndQuery := some (CString.lit ("/data" ++ query))
  path := some (CString.lit "/data")
  queryString := some (CString.lit query)
  version := some (CString.lit "1.0")

/-- The graph of the requests, and the ways to name it and the default graph. -/
def graphA : Node := .uri (CString.lit "http://g/a")

def onGraphA (m : DataMethod) (data : String) : Request :=
  storeRequest m "?graph=http://g/a" [("graph", some "http://g/a")] data

def onDefaultGraph (m : DataMethod) : Request :=
  storeRequest m "?default" [("default", none)] ""

lemma storeRequest_of (m : DataMethod) {query : String}
    {arguments : List (String × Option String)} {data : String}
    (h : StoredValues (storeRequest m query arguments data).arguments) :
    StoreRequest (storeRequest m query arguments data) m (CString.lit "") where
  method := rfl
  path := by
    rw [CString.ext_iff.mpr (show (CString.lit "/data" ++ CString.lit "").bytes =
      (CString.lit "/data").bytes from rfl)]
    rfl
  target := by simp [storeRequest]
  glob := rfl
  url := rfl
  unanswered := rfl
  noAccept := by
    have hother : sameKey (CString.lit "Accept") (CString.lit "Content-Length") = false := by decide
    simp only [Request.getHeader, storeRequest, redhttpHeadersGet, hother, Bool.false_eq_true,
      if_false]
  arguments := h

/-- What a document of one triple stands for. -/
def lineMeaning (data : String) : Upload CString Node :=
  .document fun _ => {triplesOf (parseLines ((bytesOf data).splitOnP (· == ch '\n')))}

lemma brings_line {m : DataMethod} {query : String} {arguments : List (String × Option String)}
    {data : String} (hne : bytesOf data ≠ [])
    (hlength : atoi (CString.ofBytes (decimal (bytesOf data).length)) = (bytesOf data).length)
    (hsilent : streamLogs (parseLines ((bytesOf data).splitOnP (· == ch '\n'))) = []) :
    Brings formsWorld (storeRequest m query arguments data) (lineMeaning data) := by
  have hdata : Carries (storeRequest m query arguments data) (bytesOf data) [] :=
    ⟨⟨_, rfl, hlength⟩, (List.append_nil _).symm⟩
  exact .document hdata hne rfl rfl fun _ _ _ _ => ⟨_, rfl, hsilent, rfl⟩

/-- A graph is made, another one is made for a document, the first is read, and all is deleted. -/
def session : List Request :=
  [onGraphA .put "a.", storeRequest .post "" [] "b.", onGraphA .get "", onDefaultGraph .delete]

theorem graphStore_refines_session :
    (∃ app' answers, Run (ServiceStep formsWorld) emptyApp session app' answers) ∧
      ∀ app' answers, Run (ServiceStep formsWorld) emptyApp session app' answers →
        ∃ replies, List.Forall₂ (Shows formsWorld) answers replies ∧
          Run (Step 10) (memoryQuads emptyApp.storage)
            [⟨.put (lineMeaning "a."), .graph graphA⟩, ⟨.post (lineMeaning "b."), .neither⟩,
              ⟨.get true, .graph graphA⟩, ⟨.delete, .default⟩] (memoryQuads app'.storage)
                replies := by
  have hgraph : ∀ m data, Aimed (onGraphA m data) (CString.lit "") (.graph graphA) :=
    fun m data => .graph rfl rfl (by decide)
  have hstored : ∀ m data, StoredValues (onGraphA m data).arguments :=
    fun m data => List.forall_mem_singleton.mpr (by decide)
  refine graphStore_refines formsWorld_faultless (.cons ?_ (.cons ?_ (.cons ?_ (.cons ?_ .nil))))
    emptyApp
  · exact ⟨.put, _, storeRequest_of _ (hstored _ _), hgraph _ _,
      .put (brings_line (by decide) (by decide +kernel) (by decide +kernel))⟩
  · exact ⟨.post, _, storeRequest_of _ (by rintro _ ⟨⟩), .neither rfl rfl rfl,
      .post (brings_line (by decide) (by decide +kernel) (by decide +kernel))⟩
  · exact ⟨.get, _, storeRequest_of _ (hstored _ _), hgraph _ _, .get⟩
  · exact ⟨.delete, _, storeRequest_of _ (List.forall_mem_singleton.mpr rfl), .default rfl rfl,
      .delete⟩

/-- A store that has triples in the ten graphs that are tried first. -/
def fullStore : MemoryStore :=
  (List.range 10).map fun i => (CString.lit "b.",
    some (.uri (newGraphUri (CString.lit "http://localhost/data") (memoryWorld.random + i))))

/-- The PUT of an empty document, which would leave the graph without triples, is refused, and so
is a document for no graph when ten graphs have triples. -/
theorem emptyPut_refused :
    Faultless formsWorld memoryQuads ∧
      StoreRequest (onGraphA .put "") .put (CString.lit "") ∧
      Aimed (onGraphA .put "") (CString.lit "") (.graph graphA) ∧
      Carries (onGraphA .put "") [] [] ∧
      (∃ response c, dispatchRequest formsWorld
          ⟨onGraphA .put "", { storage := [(CString.lit "b.", some graphA)] }⟩ =
            .ok (some response) c ∧
        response.status = .badRequest ∧
        ∀ reply, ¬ Step 10 {(CString.lit "b.", some graphA)}
          ⟨.put (.document fun _ => {∅}), .graph graphA⟩ (memoryQuads c.app.storage) reply) ∧
      outcome (dispatchRequest formsWorld
        ⟨storeRequest .post "" [] "a.", { storage := fullStore }⟩) =
          some (.internalServerError, fullStore) := by
  have hrun : outcome (dispatchRequest formsWorld
      ⟨onGraphA .put "", { storage := [(CString.lit "b.", some graphA)] }⟩) =
        some (.badRequest, [(CString.lit "b.", some graphA)]) := by decide +kernel
  obtain ⟨response, c, hresponse, hstatus, hstorage⟩ := outcome_eq_some_iff.mp hrun
  refine ⟨formsWorld_faultless, storeRequest_of _ (List.forall_mem_singleton.mpr (by decide)),
    .graph rfl rfl (by decide), ⟨⟨_, rfl, by decide +kernel⟩, rfl⟩,
    ⟨response, c, hresponse, hstatus, fun reply hstep => ?_⟩, by decide +kernel⟩
  rw [hstorage] at hstep
  have hmem : (CString.lit "b.", some graphA) ∈ memoryQuads [(CString.lit "b.", some graphA)] :=
    List.mem_singleton.mpr rfl
  generalize memoryQuads [(CString.lit "b.", some graphA)] = d at hstep hmem
  cases hstep with
  | putRefused h => cases h
  | put h =>
    obtain rfl := Set.mem_singleton_iff.mp h
    have hcontent : content (replace {(CString.lit "b.", some graphA)} (some graphA) ∅)
        (some graphA) = (∅ : Set CString) := content_replace_self
    have hempty : CString.lit "b." ∈ (∅ : Set CString) := hcontent ▸ hmem
    exact hempty
  | missing haction _ => cases haction

end RedStore.Service
