/-
Where the endpoint of a service description leads.

`sd_get_endpoint_node` resolves the name `sparql` against the URL of the request, so the endpoint
is a neighbour of what has been asked for.  The URL is put together from the Host header and the
target as they are: a Host with a delimiter in it is not the authority of the URL, and what
counts of the target is its path as it has been sent.  `/sparql` and `/description` are
neighbours of the endpoint, but `/sparql/` is not.
-/
import RedStore.RedHttp.UrlDecoding
import RedStore.Service.HeaderIntegrity
import RedStore.Service.IndexLinks
import RedStore.Uri.Names

namespace RedStore.Service
open CLib RedHttp Rfc3986

variable {T R σ : Type}

/-! ### The requests -/

/-- The handler of the table that a request comes to: the first that matches, behind the three
that every request passes. -/
def ComesTo (w : World T R σ) (r : Request) (it : Handler (App σ)) : Prop :=
  ∃ before after, requestHandlers w = before ++ it :: after ∧
    (∀ other ∈ before, matchRoute other r = .ok false r) ∧ matchRoute it r = .ok true r

/-- The paths of `handle_sparql`. -/
def sparqlPaths : List CString := [CString.lit "/sparql", CString.lit "/sparql/"]

/-- The routes of `handle_sparql`. -/
def sparqlRoutes (w : World T R σ) : List (Handler (App σ)) := [
  route (some "GET") (some "/sparql") (handleSparql w),
  route (some "GET") (some "/sparql/") (handleSparql w),
  route (some "POST") (some "/sparql") (handleSparql w),
  route (some "POST") (some "/sparql/") (handleSparql w)]

/-- A request for which `handle_description_get` is called: by the table, or by `handle_sparql`
for a GET without a query. -/
inductive ComesToDescription (w : World T R σ) (r : Request) : Prop where
  | description (h : ComesTo w r
    (route (some "GET") (some "/description") (handleDescriptionGet w)))
  | sparql {it : Handler (App σ)} (hit : it ∈ sparqlRoutes w) (h : ComesTo w r it)
    (hmethod : r.method = some (CString.lit "GET"))
    (hquery : r.getArgument (CString.lit "query") = none)

/-- A request that is answered with the description of the service as RDF. -/
structure AnsweredAsRdf (w : World T R σ) (c : Conn (App σ)) (statements : List Statement) :
    Prop where
  comes : ComesToDescription w c.request
  format : ∃ desc mimeType, redstoreNegotiateFormat c.request w.serializerDescriptions
    (CString.lit "text/html") = .ok (some desc, mimeType) ∧ desc.name ≠ CString.lit "html"
  temporary : w.newTemporaryModel = true
  made : statements = createServiceDescription w c.app.storage c.request.currentUrl
  stream : (w.temporaryModelAsStream statements c.app.storage).value.isSome = true

section Requests

variable {w : World T R σ} {c : Conn (App σ)} {r : Request} {it : Handler (App σ)}

/-- A request is what the handler that it comes to makes of it. -/
lemma ComesTo.dispatch (h : ComesTo w c.request it) {method path : CString}
    (hmethod : c.request.method = some method) (hpath : c.request.path = some path)
    (hstar : path ≠ CString.lit "*") (hanswers : ∀ c', it.func (beforeHandlers c) ≠ .ok none c') :
    dispatchRequest w c = it.func (beforeHandlers c) := by
  obtain ⟨before, after, hsplit, hbefore, hmatch⟩ := h
  have hroutes : tryRoutes (redstoreHandlers w) c = it.func (beforeHandlers c) := by
    rw [tryRoutes_redstoreHandlers, hsplit, tryRoutes_append (c := beforeHandlers c) hbefore]
    exact tryRoutes_of_answer (c := beforeHandlers c) hmatch hanswers
  exact dispatchRequest_of_tryRoutes hmethod hpath hstar hroutes hanswers

/-- A route for one method and one path matches no other. -/
lemma of_matchRoute_literal {method path : String} {func : ServiceM σ (Option Response)}
    {last : UInt8} (hlast : (CString.lit path).bytes.getLast? = some last) (hstar : last ≠ ch '*')
    (h : matchRoute (route (some method) (some path) func) r = .ok true r) :
    r.method = some (CString.lit method) ∧ r.path = some (CString.lit path) := by
  cases hmethod : r.method with
  | none =>
    have hfault : matchRoute (route (some method) (some path) func) r = .error .nullPointer r := by
      simp only [matchRoute, bind_apply, get_apply, hmethod]
      rfl
    rw [hfault] at h
    cases h
  | some method' =>
    cases hpath : r.path with
    | none =>
      by_cases hm : CString.lit method = method'
      · have hfault : matchRoute (route (some method) (some path) func) r =
            .error .nullPointer r := by
          simp only [matchRoute, bind_apply, get_apply, hmethod, hpath, route, Option.map_some,
            matchMethod, hm, beq_self_eq_true, ofExcept_ok, if_true]
          rfl
        rw [hfault] at h
        cases h
      · rw [matchRoute_of_method rfl hmethod hm] at h
        cases h
    | some path' =>
      have hm : CString.lit method = method' := by
        by_contra hne
        rw [matchRoute_of_method rfl hmethod hne] at h
        cases h
      have hp : CString.lit path = path' := by
        by_contra hne
        have hnot : matchPath (CString.lit path).bytes path'.bytes = .ok none :=
          matchPath_of_literal hlast hstar fun heq => hne (CString.ext heq)
        rw [matchRoute_of_path rfl rfl hmethod hpath hnot] at h
        cases h
      rw [hm, hp]
      exact ⟨rfl, rfl⟩

/-- The requests for `handle_sparql` are those for its paths. -/
lemma path_of_sparqlRoutes (hit : it ∈ sparqlRoutes w) (h : ComesTo w r it) :
    ∃ path ∈ sparqlPaths, r.path = some path := by
  obtain ⟨before, after, -, -, hmatch⟩ := h
  simp only [sparqlRoutes, List.mem_cons, List.not_mem_nil, or_false] at hit
  rcases hit with rfl | rfl | rfl | rfl
  · exact ⟨_, by decide, (of_matchRoute_literal rfl (by decide) hmatch).2⟩
  · exact ⟨_, by decide, (of_matchRoute_literal rfl (by decide) hmatch).2⟩
  · exact ⟨_, by decide, (of_matchRoute_literal rfl (by decide) hmatch).2⟩
  · exact ⟨_, by decide, (of_matchRoute_literal rfl (by decide) hmatch).2⟩

/-- A GET for one of its paths comes to `handle_sparql`. -/
lemma comesTo_sparqlRoutes (hmethod : r.method = some (CString.lit "GET")) {path : CString}
    (hmem : path ∈ sparqlPaths) (hpath : r.path = some path) :
    ∃ it ∈ sparqlRoutes w, ComesTo w r it := by
  have hlast : ∀ path ∈ sparqlPaths, matchPath path.bytes path.bytes = .ok (some none) := by decide
  have hmatch : ∀ it : Handler (App σ), it.method = some (CString.lit "GET") →
      it.path = some path → matchRoute it r = .ok true r :=
    fun it hitMethod hitPath => matchRoute_of_literal hmethod hpath hitMethod hitPath
      (hlast path hmem)
  have hskip : ∀ it : Handler (App σ), routeMismatch (CString.lit "GET") path it = true →
      matchRoute it r = .ok false r := fun it h => matchRoute_of_mismatch hmethod hpath h
  simp only [sparqlPaths, List.mem_cons, List.not_mem_nil, or_false] at hmem
  rcases hmem with rfl | rfl
  · refine ⟨_, List.mem_cons_self, [route (some "GET") (some "/query") (handleQuery w)], _, rfl, ?_,
      hmatch _ rfl rfl⟩
    simp only [List.forall_mem_singleton]
    exact hskip _ rfl
  · refine ⟨_, List.mem_cons_of_mem _ List.mem_cons_self,
      [route (some "GET") (some "/query") (handleQuery w),
        route (some "GET") (some "/sparql") (handleSparql w)], _, rfl, ?_, hmatch _ rfl rfl⟩
    simp only [List.forall_mem_cons]
    exact ⟨hskip _ rfl, hskip _ rfl, by simp⟩

end Requests

/-! ### The endpoints of a description -/

/-- The endpoints that some statements give. -/
def endpoints (statements : List Statement) : List Term :=
  statements.filterMap fun statement =>
    if statement.predicate = localName sdNs "endpoint" then some statement.object else none

section Endpoints

variable (w : World T R σ)

/-- The names of the other properties in a description. -/
def otherNames : List (String × String) :=
  [(rdfNs, "type"), (rdfsNs, "label"), (rdfsNs, "comment"), (rdfsNs, "seeAlso"),
    (rdfsNs, "isDefinedBy"), (formatNs, "media_type"), (voidNs, "triples"), (sdNs, "inputFormat"),
    (sdNs, "resultFormat"), (sdNs, "supportedLanguage"), (sdNs, "defaultDatasetDescription"),
    (sdNs, "defaultGraph"), (sdNs, "feature")]

lemma otherNames_ne : ∀ it ∈ otherNames, localName it.1 it.2 ≠ localName sdNs "endpoint" := by
  decide +kernel

lemma endpoints_add (m : DescriptionModel) (subject : Term) {ns name : String}
    (h : (ns, name) ∈ otherNames) (object : Option Term) :
    endpoints (m.add subject (localName ns name) object).triples = endpoints m.triples := by
  have hne : localName ns name ≠ localName sdNs "endpoint" := otherNames_ne (ns, name) h
  cases object with
  | none => rfl
  | some object => simp [DescriptionModel.add, endpoints, hne]

lemma endpoints_foldl {α : Type} {f : DescriptionModel → α → DescriptionModel}
    (h : ∀ m a, endpoints (f m a).triples = endpoints m.triples) (as : List α)
    (m : DescriptionModel) : endpoints (as.foldl f m).triples = endpoints m.triples := by
  induction as generalizing m with
  | nil => rfl
  | cons a as ih => exact (ih (f m a)).trans (h m a)

lemma endpoints_addFormatUris (node : Term) (uris : List CString) (m : DescriptionModel) :
    endpoints (addFormatUris w node uris m).triples = endpoints m.triples := by
  cases uris with
  | nil => rfl
  | cons uri uris =>
    rw [addFormatUris, endpoints_foldl fun m uri => endpoints_add m node (by simp [otherNames]) _,
      endpoints_add m node (by simp [otherNames])]

lemma endpoints_addFormat (service : Term) {type : String} (htype : (sdNs, type) ∈ otherNames)
    (desc : Description) (node : Term) (uris : List CString) (m : DescriptionModel) :
    endpoints (addFormat w service type desc node uris m).triples = endpoints m.triples := by
  rw [addFormat, endpoints_addFormatUris,
    endpoints_foldl fun m mimeType => endpoints_add m node (by simp [otherNames]) _]
  have hlabels : ∀ m : DescriptionModel, endpoints (desc.names.foldl (fun m name =>
      m.add node (localName rdfsNs "label") (some (.literal name))) m).triples =
      endpoints m.triples :=
    fun m => endpoints_foldl (fun m name => endpoints_add m node (by simp [otherNames]) _) _ m
  cases desc.label with
  | none => rw [hlabels, endpoints_add _ _ htype, endpoints_add _ _ (by simp [otherNames])]
  | some label =>
    rw [endpoints_add _ _ (by simp [otherNames]), hlabels, endpoints_add _ _ htype,
      endpoints_add _ _ (by simp [otherNames])]

lemma endpoints_sdAddFormatDescriptions (service : Term) {type : String}
    (htype : (sdNs, type) ∈ otherNames) (descs : List Description) (m : DescriptionModel) :
    endpoints (sdAddFormatDescriptions w service type descs m).triples = endpoints m.triples := by
  induction descs generalizing m with
  | nil => rfl
  | cons desc descs ih =>
    rw [sdAddFormatDescriptions]
    split
    · exact ih m
    · cases hnode : formatNode w desc m with
      | none => rfl
      | some it =>
        obtain ⟨node, m', uris⟩ := it
        have hm : m'.triples = m.triples := by
          rw [formatNode] at hnode
          split at hnode
          · split at hnode
            · obtain ⟨term, -, hterm⟩ := Option.map_eq_some_iff.mp hnode
              rw [Prod.mk.injEq, Prod.mk.injEq] at hterm
              rw [hterm.2.1]
            · cases hnode
              rfl
          · cases hnode
            rfl
        exact (ih _).trans ((endpoints_addFormat w service htype desc node uris m').trans
          (congrArg endpoints hm))

lemma endpoints_sdAddQueryLanguages (service : Term) (descs : List Description)
    (m : DescriptionModel) :
    endpoints (sdAddQueryLanguages w service descs m).triples = endpoints m.triples := by
  refine endpoints_foldl (fun m desc => ?_) descs m
  cases languageNode desc with
  | none => rfl
  | some lang =>
    dsimp only
    rw [endpoints_foldl fun m uri => endpoints_add m lang (by simp [otherNames]) _,
      endpoints_add _ _ (by simp [otherNames]), endpoints_add _ _ (by simp [otherNames])]

/-- The endpoint of a description is the node of `sd_get_endpoint_node`. -/
theorem endpoints_createServiceDescription (storage : σ) (url : Option CString) :
    endpoints (createServiceDescription w storage url) = (sdGetEndpointNode w url).toList := by
  have hother : ∀ (m : DescriptionModel) (subject : Term) (ns name : String)
      (object : Option Term), (ns, name) ∈ otherNames →
      endpoints (m.add subject (localName ns name) object).triples = endpoints m.triples :=
    fun m subject _ _ object h => endpoints_add m subject h object
  have hadd : ∀ (m : DescriptionModel) (service : Term) (object : Option Term),
      endpoints (m.add service (localName sdNs "endpoint") object).triples =
        endpoints m.triples ++ object.toList := by
    intro m service object
    cases object with
    | none => exact (List.append_nil _).symm
    | some object => simp [DescriptionModel.add, endpoints]
  have hdataset : ∀ (service : Term) (count : ℤ) (m : DescriptionModel),
      endpoints (sdAddDatasetDescription service count m).triples = endpoints m.triples := by
    intro service count m
    rw [sdAddDatasetDescription]
    simp only [DescriptionModel.newBlank]
    split
    · rw [hother _ _ _ _ _ (by simp [otherNames]), hother _ _ _ _ _ (by simp [otherNames]),
        hother _ _ _ _ _ (by simp [otherNames]), hother _ _ _ _ _ (by simp [otherNames]),
        hother _ _ _ _ _ (by simp [otherNames])]
    · rw [hother _ _ _ _ _ (by simp [otherNames]), hother _ _ _ _ _ (by simp [otherNames]),
        hother _ _ _ _ _ (by simp [otherNames]), hother _ _ _ _ _ (by simp [otherNames])]
  rw [createServiceDescription]
  simp only [DescriptionModel.newBlank]
  rw [hother _ _ _ _ _ (by simp [otherNames]), hadd, hother _ _ _ _ _ (by simp [otherNames]),
    hother _ _ _ _ _ (by simp [otherNames]), hdataset, endpoints_sdAddQueryLanguages,
    endpoints_sdAddFormatDescriptions w _ (by simp [otherNames]),
    endpoints_sdAddFormatDescriptions w _ (by simp [otherNames]),
    endpoints_sdAddFormatDescriptions w _ (by simp [otherNames]),
    hother _ _ _ _ _ (by simp [otherNames])]
  exact List.nil_append _

end Endpoints

/-! ### Where the endpoint is -/

/-- The name that `sd_get_endpoint_node` resolves. -/
def endpointName : List UInt8 := bytesOf "sparql"

/-- A GET for a URL of a host comes to `handle_sparql`. -/
def ServesSparql (w : World T R σ) (host : CString) (url : Reference) : Prop :=
  ∃ r it, redhttpRequestSetPathAndQuery (some (getTarget url)) (getFrom host) = .ok () r ∧
    it ∈ sparqlRoutes w ∧ ComesTo w r it

/-- A URI on a host for which `handle_sparql` is called. -/
structure EndpointServed (w : World T R σ) (host endpoint : CString) : Prop where
  scheme : (parse endpoint.bytes).scheme = some (bytesOf "http")
  authority : (parse endpoint.bytes).authority = some host.bytes
  served : ServesSparql w host (parse endpoint.bytes)

/-- The one endpoint of a description is on the host, and `handle_sparql` is called for it. -/
def AdvertisesServed (w : World T R σ) (host : CString) (statements : List Statement) : Prop :=
  ∃ endpoint, endpoints statements = [.uri endpoint] ∧ EndpointServed w host endpoint

/-- The directory of the path of a target, as it has been sent. -/
def targetDirectory (target : CString) : List UInt8 := directory (hierarchical target.bytes)

/-- The Host is the authority of the URL of the request, whose directory is the root or decodes,
up to an escaped NUL, to a path of `handle_sparql`. -/
structure EndpointFits (host target : CString) : Prop where
  host : ∀ c ∈ bytesOf "/?#", c ∉ host.bytes
  slash : target.bytes.head? = some (ch '/')
  directory : targetDirectory target = bytesOf "/" ∨
    bytesOf "%00" <:+: targetDirectory target ∧ unescaped (targetDirectory target) ∈ sparqlPaths

/-! ### Which URLs are served -/

lemma isName_endpointName : IsName endpointName := ⟨by decide, by decide +kernel⟩

section Served

variable {w : World T R σ} {host : CString} {url : Reference}

/-- `handle_sparql` is called for the URLs without a query whose paths decode to one of its own. -/
lemma servesSparql_iff (h : url.Hierarchical) (hquery : url.query = none)
    (h0 : (0 : UInt8) ∉ getPath url) :
    ServesSparql w host url ↔ unescaped (getPath url) ∈ sparqlPaths := by
  have hnul : (0 : UInt8) ∉ getPath url ++ prefixed [ch '?'] url.query := by
    rw [hquery]
    exact fun hmem => h0 (by simpa [prefixed] using hmem)
  have hset : redhttpRequestSetPathAndQuery (some (getTarget url)) (getFrom host) =
      .ok () (readGet host url) := by
    refine setPathAndQuery_of_keys ?_ _
    rw [queryBytes_getTarget h hnul, hquery]
    simp [KeysNonEmpty, argumentSegments_nil]
  have hpath : (readGet host url).path = some (unescaped (getPath url)) :=
    congrArg some (takeWhile_getTarget h hnul)
  constructor
  · rintro ⟨r, it, hrun, hit, hcomes⟩
    rw [hset, EStateM.Result.ok.injEq] at hrun
    obtain ⟨path, hmem, hr⟩ := path_of_sparqlRoutes hit hcomes
    rw [← hrun.2, hpath, Option.some.injEq] at hr
    rwa [hr]
  · intro hmem
    obtain ⟨it, hit, hcomes⟩ := comesTo_sparqlRoutes (w := w) (r := readGet host url) rfl hmem hpath
    exact ⟨_, it, hset, hit, hcomes⟩

end Served

section Decoded

variable {dir : List UInt8}

/-- A directory and the name behind it are decoded apart. -/
lemma unescape_append_endpointName (h : IsDirectory dir) :
    redhttpUrlUnescape (dir ++ endpointName) = redhttpUrlUnescape dir ++ endpointName := by
  obtain ⟨front, rfl⟩ := List.getLast?_eq_some_iff.mp h.last
  have hself : redhttpUrlUnescape endpointName = endpointName := by decide
  rw [List.append_assoc, List.singleton_append, redhttpUrlUnescape_append_slash, hself,
    redhttpUrlUnescape_append_slash]
  simp [redhttpUrlUnescape, unescapeFrom]

/-- Only the root decodes to the root. -/
lemma unescape_eq_root_iff (h : IsDirectory dir) :
    redhttpUrlUnescape dir = bytesOf "/" ↔ dir = bytesOf "/" := by
  refine ⟨fun hroot => ?_, fun hroot => by rw [hroot]; decide⟩
  obtain ⟨front, rfl⟩ := List.getLast?_eq_some_iff.mp h.last
  rw [redhttpUrlUnescape_append_slash] at hroot
  cases front with
  | nil => rfl
  | cons c front =>
    obtain rfl : c = ch '/' := by simpa using h.start
    have hfirst := redhttpUrlUnescape_append_slash [] front
    rw [List.nil_append] at hfirst
    rw [hfirst] at hroot
    have hlength := congrArg List.length hroot
    simp [bytesOf] at hlength
    omega

/-- The name behind a directory decodes to a path of `handle_sparql` only behind the root, or
where an escaped NUL cuts it off such a path. -/
lemma unescaped_append_endpointName (h : IsDirectory dir) (h0 : (0 : UInt8) ∉ dir) :
    unescaped (dir ++ endpointName) ∈ sparqlPaths ↔
      dir = bytesOf "/" ∨ bytesOf "%00" <:+: dir ∧ unescaped dir ∈ sparqlPaths := by
  rw [← zero_mem_decoding_iff (decoding_iff.mpr rfl) h0, ← unescape_eq_root_iff h]
  by_cases hcut : (0 : UInt8) ∈ redhttpUrlUnescape dir
  · have hsame : unescaped (dir ++ endpointName) = unescaped dir := by
      refine CString.ext ?_
      rw [unescaped, unescape_append_endpointName h]
      exact upTo_append_of_mem hcut endpointName
    have hroot : redhttpUrlUnescape dir ≠ bytesOf "/" := fun hroot =>
      absurd (hroot ▸ hcut) (by decide)
    simp [hsame, hcut, hroot]
  · have hbytes : (unescaped (dir ++ endpointName)).bytes =
        redhttpUrlUnescape dir ++ endpointName := by
      rw [unescaped, unescape_append_endpointName h]
      refine CString.bytes_ofBytes_of_not_mem ?_
      rw [List.mem_append, not_or]
      exact ⟨hcut, by decide⟩
    simp only [sparqlPaths, List.mem_cons, List.not_mem_nil, or_false, CString.ext_iff, hbytes,
      hcut, false_and]
    constructor
    · rintro (hpath | hpath)
      · have hname : (CString.lit "/sparql").bytes = bytesOf "/" ++ endpointName := by decide
        exact List.append_cancel_right (hpath.trans hname)
      · -- the name does not end in a slash
        have hlast := congrArg List.getLast? hpath
        rw [List.getLast?_append_of_ne_nil _ (by decide)] at hlast
        exact absurd hlast (by decide)
    · rintro hroot
      rw [hroot]
      exact Or.inl (by decide)

end Decoded

/-! ### The URL of the request -/

section Url

variable {w : World T R σ} {host target : CString}

/-- The URL of a request, as the server puts it together. -/
def requestUrl (host target : CString) : CString := CString.lit "http://" ++ host ++ target

lemma bytes_requestUrl (host target : CString) : (requestUrl host target).bytes =
    bytesOf "http" ++ ch ':' :: ch '/' :: ch '/' :: (host.bytes ++ target.bytes) := by
  rw [requestUrl, CString.bytes_append, CString.bytes_append, List.append_assoc]
  rfl

/-- The endpoint is the name, resolved against the URL. -/
lemma sdGetEndpointNode_eq (hw : IdealUris w) :
    sdGetEndpointNode w (some (requestUrl host target)) =
      some (.uri (CString.ofBytes (resolve (requestUrl host target).bytes endpointName))) := by
  have hne : (requestUrl host target).bytes ≠ [] := by
    rw [bytes_requestUrl]
    exact List.append_ne_nil_of_left_ne_nil (by decide) _
  rw [sdGetEndpointNode, Option.bind_some, hw.newUri _ hne, Option.bind_some, hw.relative,
    Option.bind_some, hw.node]
  rfl

/-- The endpoint is on the authority of the URL. -/
lemma parse_endpoint (host target : CString) :
    parse (CString.ofBytes (resolve (requestUrl host target).bytes endpointName)).bytes =
      { scheme := some (bytesOf "http"),
        authority := some (upTo (ch '/') (hierarchical (host.bytes ++ target.bytes))),
        path := directory (parse (requestUrl host target).bytes).path ++ endpointName } := by
  obtain ⟨hscheme, hauthority⟩ :=
    parse_of_authority (bytesOf "http") (by decide) (host.bytes ++ target.bytes)
  rw [← bytes_requestUrl] at hscheme hauthority
  have hnul : (0 : UInt8) ∉ resolve (requestUrl host target).bytes endpointName :=
    resolve_nul_free (requestUrl host target) (CString.lit "sparql")
  rw [CString.bytes_ofBytes_of_not_mem hnul,
    parse_resolve_name (by rw [hscheme]; rfl) (by rw [hauthority]; rfl) isName_endpointName,
    hscheme, hauthority]

/-- A target that begins a path, with nothing in front of its first delimiter, begins with the
slash. -/
lemma head_of_upTo_eq_nil (hpath : (RedHttp.pathOf target).bytes.head? = some (ch '/'))
    (h : upTo (ch '/') (hierarchical target.bytes) = []) :
    target.bytes.head? = some (ch '/') := by
  cases htarget : target.bytes with
  | nil =>
    rw [RedHttp.pathOf, htarget] at hpath
    cases hpath
  | cons c s =>
    -- what begins with a question mark or a hash is decoded to no path
    rw [RedHttp.pathOf, htarget, List.takeWhile_cons] at hpath
    rw [htarget, hierarchical, upTo, upTo, upTo, List.takeWhile_cons] at h
    by_cases hhash : c = ch '#'
    · subst hhash
      cases hpath
    · rw [if_pos (by simpa using hhash), List.takeWhile_cons] at h
      by_cases hquestion : c = ch '?'
      · subst hquestion
        cases hpath
      · rw [if_pos (by simpa using hquestion), List.takeWhile_cons] at h
        by_cases hslash : c = ch '/'
        · rw [hslash]
          rfl
        · rw [if_pos (by simpa using hslash)] at h
          cases h

/-- The authority of the URL is the Host exactly if that has no delimiters and the target, which
begins a path, begins with the slash. -/
lemma authority_eq_host_iff (hpath : (RedHttp.pathOf target).bytes.head? = some (ch '/')) :
    upTo (ch '/') (hierarchical (host.bytes ++ target.bytes)) = host.bytes ↔
      (∀ c ∈ bytesOf "/?#", c ∉ host.bytes) ∧ target.bytes.head? = some (ch '/') := by
  constructor
  · intro heq
    obtain ⟨hquestion, hhash⟩ := not_mem_hierarchical (host.bytes ++ target.bytes)
    have hslash := not_mem_upTo (ch '/') (hierarchical (host.bytes ++ target.bytes))
    have hhost : ∀ c ∈ bytesOf "/?#", c ∉ host.bytes := by
      have hsub : ∀ c ∈ host.bytes, c ∈ hierarchical (host.bytes ++ target.bytes) :=
        fun c hc => mem_of_mem_upTo (heq ▸ hc)
      rw [heq] at hslash
      have hall : bytesOf "/?#" = [ch '/', ch '?', ch '#'] := rfl
      rw [hall]
      simp only [List.forall_mem_cons]
      exact ⟨hslash, fun h => hquestion (hsub _ h), fun h => hhash (hsub _ h), by simp⟩
    rw [hierarchical_append (hhost _ (by decide)) (hhost _ (by decide)),
      upTo_append (hhost _ (by decide)), List.append_right_eq_self] at heq
    exact ⟨hhost, head_of_upTo_eq_nil hpath heq⟩
  · rintro ⟨hhost, hslash⟩
    obtain ⟨s, hs⟩ := List.head?_eq_some_iff.mp hslash
    rw [hierarchical_append (hhost _ (by decide)) (hhost _ (by decide)),
      upTo_append (hhost _ (by decide)), hs, hierarchical_cons_slash, upTo_cons_self,
      List.append_nil]

/-- Then the path of the URL is what is sent. -/
lemma path_requestUrl (hhost : ∀ c ∈ bytesOf "/?#", c ∉ host.bytes)
    (hslash : target.bytes.head? = some (ch '/')) :
    (parse (requestUrl host target).bytes).path = hierarchical target.bytes := by
  obtain ⟨s, hs⟩ := List.head?_eq_some_iff.mp hslash
  rw [bytes_requestUrl, hs, parse_of_path (by decide) (hhost _ (by decide)) (hhost _ (by decide))
    (hhost _ (by decide)), hierarchical_cons_slash]

end Url

/-! ### When the endpoint is served -/

section Answered

variable {w : World T R σ} {c : Conn (App σ)} {host target : CString} {statements : List Statement}

lemma ComesToDescription.path {r : Request} (h : ComesToDescription w r) :
    ∃ path, r.path = some path ∧ path.bytes.head? = some (ch '/') ∧ path ≠ CString.lit "*" := by
  cases h with
  | description h =>
    obtain ⟨before, after, -, -, hmatch⟩ := h
    exact ⟨_, (of_matchRoute_literal rfl (by decide) hmatch).2, by decide, by decide⟩
  | sparql hit h _ _ =>
    obtain ⟨path, hmem, hpath⟩ := path_of_sparqlRoutes hit h
    have hall : ∀ path ∈ sparqlPaths,
        path.bytes.head? = some (ch '/') ∧ path ≠ CString.lit "*" := by decide
    exact ⟨path, hpath, hall path hmem⟩

/-- Where a format other than HTML is chosen, the statements are sent. -/
lemma handleDescriptionGet_of_format {desc : Description} {mimeType : Option CString}
    {stream : Stream T}
    (hformat : redstoreNegotiateFormat c.request w.serializerDescriptions
      (CString.lit "text/html") = .ok (some desc, mimeType))
    (hname : desc.name ≠ CString.lit "html") (htemporary : w.newTemporaryModel = true)
    (hstream : (w.temporaryModelAsStream (createServiceDescription w c.app.storage
      c.request.currentUrl) c.app.storage).value = some stream) :
    ∃ c', handleDescriptionGet w c = (some <$> formatGraphStream w stream) c' := by
  refine ⟨called (urlConn c) (w.temporaryModelAsStream (createServiceDescription w c.app.storage
    c.request.currentUrl) c.app.storage), ?_⟩
  simp only [handleDescriptionGet, bind_apply, get_apply, hformat, ofExcept_ok, hname, if_false,
    onRequest, redhttpRequestGetUrl_apply, htemporary, if_true, call_apply, hstream]
  rfl

/-- A request that comes to the description is what `handle_description_get` makes of it, if that
answers. -/
lemma ComesToDescription.dispatch (h : ComesToDescription w c.request)
    (hanswers : ∀ c', handleDescriptionGet w (beforeHandlers c) ≠ .ok none c') :
    dispatchRequest w c = handleDescriptionGet w (beforeHandlers c) := by
  obtain ⟨path, hpath, -, hstar⟩ := h.path
  cases h with
  | description h =>
    obtain ⟨-, -, -, -, hmatch⟩ := id h
    exact h.dispatch (of_matchRoute_literal rfl (by decide) hmatch).1 hpath hstar hanswers
  | @sparql it hit h hmethod hquery =>
    have hfunc : it.func (beforeHandlers c) = handleDescriptionGet w (beforeHandlers c) := by
      have hsparql : it.func = handleSparql w := by
        simp only [sparqlRoutes, List.mem_cons, List.not_mem_nil, or_false] at hit
        rcases hit with rfl | rfl | rfl | rfl <;> rfl
      have hrequest : (beforeHandlers c).request = c.request := rfl
      rw [hsparql, handleSparql, bind_of_ok (get_apply _)]
      simp only [hrequest, hquery, hmethod, if_true]
    rw [← hfunc] at hanswers ⊢
    exact h.dispatch hmethod hpath hstar hanswers

/-- The response is the stream of the statements, in the format that is negotiated for it. -/
lemma AnsweredAsRdf.dispatch (h : AnsweredAsRdf w c statements) :
    ∃ stream c', (w.temporaryModelAsStream statements c.app.storage).value = some stream ∧
      dispatchRequest w c = (some <$> formatGraphStream w stream) c' := by
  obtain ⟨stream, hstream⟩ := Option.isSome_iff_exists.mp h.stream
  obtain ⟨desc, mimeType, hformat, hname⟩ := h.format
  have hmade := hstream
  rw [h.made] at hmade
  obtain ⟨c', hdescription⟩ := handleDescriptionGet_of_format (c := beforeHandlers c) hformat hname
    h.temporary hmade
  refine ⟨stream, c', hstream, ?_⟩
  rw [← hdescription]
  refine h.comes.dispatch fun c'' => ?_
  rw [hdescription]
  exact alwaysAnswers_some _ c' c''

/-- An endpoint on an authority and in a directory. -/
lemma endpointServed_iff (hpath : (RedHttp.pathOf target).bytes.head? = some (ch '/')) :
    EndpointServed w host (CString.ofBytes (resolve (requestUrl host target).bytes endpointName)) ↔
      EndpointFits host target := by
  have hparse := parse_endpoint host target
  have hhier := hierarchical_parse
    (s := (CString.ofBytes (resolve (requestUrl host target).bytes endpointName)).bytes)
    (by rw [hparse]; rfl) (by rw [hparse]; rfl)
  have hget : getPath (parse (CString.ofBytes (resolve (requestUrl host target).bytes
      endpointName)).bytes) = directory (parse (requestUrl host target).bytes).path ++
        endpointName := by
    rw [hparse, getPath, if_neg]
    exact List.append_ne_nil_of_right_ne_nil _ (by decide)
  have hnul : (0 : UInt8) ∉ directory (parse (requestUrl host target).bytes).path := by
    refine not_mem_directory (by decide) fun hmem => ?_
    have hall := all_parse (p := (· ≠ 0)) (s := (requestUrl host target).bytes)
      fun c hc h => (requestUrl host target).nul_free (h ▸ hc)
    exact hall.path 0 hmem rfl
  have hserved : ServesSparql w host (parse (CString.ofBytes (resolve
      (requestUrl host target).bytes endpointName)).bytes) ↔
      unescaped (directory (parse (requestUrl host target).bytes).path ++ endpointName) ∈
        sparqlPaths := by
    rw [← hget]
    refine servesSparql_iff hhier (by rw [hparse]) ?_
    rw [hget, List.mem_append, not_or]
    exact ⟨hnul, by decide⟩
  have hdirectory : IsDirectory (directory (parse (requestUrl host target).bytes).path) := by
    obtain ⟨hscheme, hauthority⟩ :=
      parse_of_authority (bytesOf "http") (by decide) (host.bytes ++ target.bytes)
    rw [← bytes_requestUrl] at hscheme hauthority
    exact isDirectory_directory
      (hierarchical_parse (by rw [hscheme]; rfl) (by rw [hauthority]; rfl)).path
  rw [unescaped_append_endpointName hdirectory hnul] at hserved
  constructor
  · rintro ⟨-, hauthority, hurl⟩
    rw [hparse, Option.some.injEq] at hauthority
    obtain ⟨hhost, hslash⟩ := (authority_eq_host_iff hpath).mp hauthority
    have hdir := hserved.mp hurl
    rw [path_requestUrl hhost hslash] at hdir
    exact ⟨hhost, hslash, hdir⟩
  · rintro ⟨hhost, hslash, hdir⟩
    refine ⟨by rw [hparse], ?_, hserved.mpr ?_⟩
    · rw [hparse, (authority_eq_host_iff hpath).mpr ⟨hhost, hslash⟩]
    · rw [path_requestUrl hhost hslash]
      exact hdir

section Read

variable {signature : Option CString} {addr port : CString} {input : List UInt8} {app : App σ}
  {result : ℕ} {r : Request}

/-- The description of a request advertises the name, resolved against the URL that has been
asked for. -/
lemma AnsweredAsRdf.endpoints_eq (hw : IdealUris w)
    (hread : redhttpRequestRead w.heap (redhttpRequestNew signature addr port input) =
      .ok result r) (htarget : r.pathAndQuery = some target)
    (hanswered : AnsweredAsRdf w ⟨r, app⟩ statements) : endpoints statements =
      [.uri (CString.ofBytes (resolve (requestUrl r.currentHost target).bytes endpointName))] := by
  have hurl : r.currentUrl = some (requestUrl r.currentHost target) := by
    have hkeeps := keeps_read w.heap (redhttpRequestNew signature addr port input)
    rw [hread] at hkeeps
    have hnone : r.url = none := congrArg ConnectionSide.url hkeeps
    rw [Request.currentUrl, hnone, htarget]
    rfl
  rw [hanswered.made, endpoints_createServiceDescription, hurl, sdGetEndpointNode_eq hw]
  rfl

/-- The endpoint of a description that a request is answered with is on the requested host and
served by `handle_sparql` exactly if it fits. -/
theorem advertisesServed_iff (hw : IdealUris w)
    (hread : redhttpRequestRead w.heap (redhttpRequestNew signature addr port input) =
      .ok result r) (htarget : r.pathAndQuery = some target)
    (hanswered : AnsweredAsRdf w ⟨r, app⟩ statements) :
    AdvertisesServed w r.currentHost statements ↔ EndpointFits r.currentHost target := by
  have hpath : (RedHttp.pathOf target).bytes.head? = some (ch '/') := by
    have hnew : (redhttpRequestNew signature addr port input).PathOfTarget := rfl
    have hown : r.path = r.pathAndQuery.map RedHttp.pathOf :=
      (redhttpRequestRead_path w.heap).of_ok hnew hread
    obtain ⟨path, hr, hhead, -⟩ := hanswered.comes.path
    rw [htarget, Option.map_some] at hown
    obtain rfl : RedHttp.pathOf target = path := Option.some.inj (hown.symm.trans hr)
    exact hhead
  rw [← endpointServed_iff (w := w) hpath, AdvertisesServed,
    hanswered.endpoints_eq hw hread htarget]
  constructor
  · rintro ⟨endpoint, heq, hserved⟩
    obtain rfl : _ = endpoint := Term.uri.inj (List.cons.inj heq).1
    exact hserved
  · exact fun hserved => ⟨_, rfl, hserved⟩

end Read

end Answered

/-! ### Two descriptions -/

/-- A node of a statement, as it is written in N-Triples. -/
def ntriplesTerm : Term → List UInt8
  | .uri u => bytesOf "<" ++ u.bytes ++ bytesOf ">"
  | .blank id => bytesOf "_:genid" ++ decimal id
  | .literal str => bytesOf "\"" ++ str.bytes ++ bytesOf "\""
  | .integer n => bytesOf "\"" ++ decimalInt n ++
      bytesOf "\"^^<http://www.w3.org/2001/XMLSchema#integer>"

/-- A statement, as it is written in N-Triples. -/
def ntriplesStatement (statement : Statement) : CString :=
  CString.ofBytes (ntriplesTerm statement.subject ++ bytesOf " " ++
    ntriplesTerm statement.predicate ++ bytesOf " " ++ ntriplesTerm statement.object ++
    bytesOf " .")

/-- The store in memory, with a model for the description. -/
def describingWorld : World CString Unit MemoryStore :=
  { memoryWorld with
    temporaryModelAsStream := fun statements store =>
      ⟨some (streamOf (statements.map ntriplesStatement)), store, []⟩ }

lemma describingWorld_idealUris : IdealUris describingWorld where
  newUri _ h := if_neg h
  relative _ _ := rfl
  copy _ := rfl
  node _ := rfl

/-- A GET for the description in RDF/XML, from a client that names its host. -/
def describeInput (target : String) : List UInt8 :=
  bytesOf "GET " ++ bytesOf target ++
    bytesOf "?format=rdfxml HTTP/1.1\r\nHost: localhost:8080\r\n\r\n"

/-- What is read of a request for the description at a path of `handle_sparql`. -/
lemma answeredAsRdf_describeInput (target : String)
    (hrun : (match redhttpRequestRead describingWorld.heap (localRequest (describeInput target)) with
      | .ok _ r => decide (r.method = some (CString.lit "GET") ∧
          r.getArgument (CString.lit "query") = none ∧
          r.getArgument (CString.lit "format") = some (CString.lit "rdfxml") ∧
          r.pathAndQuery = some (CString.lit (target ++ "?format=rdfxml")) ∧
          r.currentHost = CString.lit "localhost:8080" ∧
          ∃ path ∈ sparqlPaths, r.path = some path)
      | .error _ _ => false) = true) :
    ∃ result r statements, redhttpRequestRead describingWorld.heap
        (localRequest (describeInput target)) = .ok result r ∧
      r.pathAndQuery = some (CString.lit (target ++ "?format=rdfxml")) ∧
      r.currentHost = CString.lit "localhost:8080" ∧
      AnsweredAsRdf describingWorld ⟨r, emptyApp⟩ statements := by
  cases hread : redhttpRequestRead describingWorld.heap (localRequest (describeInput target)) with
  | error e r => simp [hread] at hrun
  | ok result r =>
    simp only [hread, decide_eq_true_eq] at hrun
    obtain ⟨hmethod, hquery, hformat, htarget, hhost, path, hmem, hpath⟩ := hrun
    obtain ⟨it, hit, hcomes⟩ := comesTo_sparqlRoutes (w := describingWorld) hmethod hmem hpath
    refine ⟨result, r, _, rfl, htarget, hhost, .sparql hit hcomes hmethod hquery, ?_, rfl, rfl, rfl⟩
    have hnegotiated : redstoreNegotiateFormat r describingWorld.serializerDescriptions
        (CString.lit "text/html") = .ok (some {
          name := CString.lit "rdfxml"
          label := some (CString.lit "RDF/XML")
          mimeTypes := [(CString.lit "application/rdf+xml", 10)] },
          some (CString.lit "application/rdf+xml")) := by
      rw [redstoreNegotiateFormat]
      simp only [hformat]
      rfl
    exact ⟨_, _, hnegotiated, by decide⟩

/-- The description at `/sparql` advertises an endpoint that is served. -/
theorem advertisesServed_sparql : ∃ result r statements,
    redhttpRequestRead describingWorld.heap (localRequest (describeInput "/sparql")) =
      .ok result r ∧
    AnsweredAsRdf describingWorld ⟨r, emptyApp⟩ statements ∧
    AdvertisesServed describingWorld r.currentHost statements := by
  obtain ⟨result, r, statements, hread, htarget, hhost, hanswered⟩ :=
    answeredAsRdf_describeInput "/sparql" (by decide +kernel)
  refine ⟨result, r, statements, hread, hanswered,
    (advertisesServed_iff describingWorld_idealUris hread htarget hanswered).mpr ?_⟩
  rw [hhost]
  exact ⟨by decide +kernel, by decide, Or.inl (by decide)⟩

/-- The description at `/sparql/` advertises `/sparql/sparql`, which is not. -/
theorem advertisesServed_astray : ∃ result r statements,
    redhttpRequestRead describingWorld.heap (localRequest (describeInput "/sparql/")) =
      .ok result r ∧
    AnsweredAsRdf describingWorld ⟨r, emptyApp⟩ statements ∧
    endpoints statements = [.uri (CString.lit "http://localhost:8080/sparql/sparql")] ∧
    ¬ AdvertisesServed describingWorld r.currentHost statements := by
  obtain ⟨result, r, statements, hread, htarget, hhost, hanswered⟩ :=
    answeredAsRdf_describeInput "/sparql/" (by decide +kernel)
  have hendpoints := hanswered.endpoints_eq describingWorld_idealUris hread htarget
  rw [hhost] at hendpoints
  refine ⟨result, r, statements, hread, hanswered, ?_, ?_⟩
  · rw [hendpoints]
    decide +kernel
  · rintro ⟨endpoint, heq, hserved⟩
    rw [hendpoints, List.cons.injEq, Term.uri.injEq] at heq
    rw [← heq.1, hhost] at hserved
    have hpath : (RedHttp.pathOf (CString.lit ("/sparql/" ++ "?format=rdfxml"))).bytes.head? =
        some (ch '/') := by decide
    have hdirectory : targetDirectory (CString.lit ("/sparql/" ++ "?format=rdfxml")) =
        bytesOf "/sparql/" := by decide
    rcases ((endpointServed_iff hpath).mp hserved).directory with hroot | ⟨hcut, -⟩
    · exact absurd (hdirectory.symm.trans hroot) (by decide)
    · rw [hdirectory] at hcut
      have hpercent : ch '%' ∈ bytesOf "/sparql/" := hcut.subset (by decide)
      exact absurd hpercent (by decide)

end RedStore.Service
