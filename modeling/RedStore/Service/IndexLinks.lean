/-
Following the links of the HTML list of graphs.

A graph whose URI contains the root URL of the server is linked to directly, every other one
through its escaped URI in a graph argument.  The second kind leads back to any graph with an
ASCII URI.  The first kind leads back to graphs that the graph store itself serves at their
URI; but the root URL may occur anywhere in a URI, not all that is served is a graph, and what
a client sends of a URI has no fragment.
-/
import RedStore.Uri.Recompose
import RedStore.RedHttp.RequestLine
import RedStore.Service.GraphForms
import RedStore.Service.InsertedText

namespace RedStore.Service
open CLib RedHttp Markup Rfc3986

variable {T R σ : Type}

/-! ### Links -/

/-- The URL of the root of a server. -/
def rootUrl (host : CString) : CString := CString.lit "http://" ++ host ++ CString.lit "/"

/-- What `handle_html_graph_index` writes for a graph. -/
def graphLink (w : World T R σ) (host uri : CString) : Except Fault (List UInt8) :=
  (appendGraphItem w (rootUrl host) ⟨redhttpResponseNew .ok, []⟩ uri).map Page.buffer

/-- What stands in front of the target of a link. -/
def linkStart : List UInt8 := bytesOf "<li><a href=\""

/-- The target of a link, as a reader finds it between the quotes. -/
def hrefOf (link : List UInt8) : List UInt8 :=
  textAt .doubleQuoted (link.drop linkStart.length)

/-- The URL that a link leads to. -/
def linkUrl (host : CString) (link : List UInt8) : List UInt8 :=
  resolve (rootUrl host).bytes (hrefOf link)

/-- The path that a client asks for. -/
def getPath (url : Reference) : List UInt8 := if url.path = [] then bytesOf "/" else url.path

/-- The target of a GET for a URL. -/
def getTarget (url : Reference) : CString :=
  CString.ofBytes (getPath url ++ prefixed [ch '?'] url.query)

/-- A GET for something on a server, as far as it does not depend on the target. -/
def getFrom (authority : CString) : Request where
  headers := [⟨CString.lit "Host", some authority⟩]
  method := some (CString.lit "GET")

/-- A GET for a URL comes to `handle_data_get`, which works on a graph. -/
def ServedAs (w : World T R σ) (app : App σ) (authority : CString) (url : Reference)
    (graph : CString) : Prop :=
  ∃ r suffix,
    redhttpRequestSetPathAndQuery (some (getTarget url)) (getFrom authority) = .ok () r ∧
    r.path = some (CString.lit "/data" ++ suffix) ∧
    dispatchRequest w ⟨r, app⟩ = handleDataGet w (dataConn ⟨r, app⟩ suffix) ∧
    requestTarget w (dataConn ⟨r, app⟩ suffix).request = .graph (.uri graph)

/-- The link for a graph leads back to it: it is to a URL of the server, and a GET for that is
served as one for the graph. -/
def LeadsBack (w : World T R σ) (app : App σ) (host uri : CString) : Prop :=
  ∃ link authority, graphLink w host uri = .ok link ∧
    authority.bytes ≠ [] ∧ (parse (rootUrl host).bytes).authority = some authority.bytes ∧
    (parse (linkUrl host link)).scheme = some (bytesOf "http") ∧
    (parse (linkUrl host link)).authority = some authority.bytes ∧
    ServedAs w app authority (parse (linkUrl host link)) uri

/-! ### When they lead back -/

/-- The arguments in a query. -/
def queryArguments (query : Option (List UInt8)) : List Header :=
  (argumentSegments (query.getD [])).map segmentHeader

/-- The graph argument of a URL, resolved against the URL. -/
def ArgumentResolves (url graph : List UInt8) (query : Option (List UInt8)) : Prop :=
  match redhttpHeadersGet (queryArguments query) (CString.lit "graph") with
  | none => url = graph
  | some argument => resolve url argument.bytes = graph

/-- There is no graph argument with a value, and no fragment; or the argument is nothing but
the fragment. -/
def SelfArgument (uri : Reference) : Prop :=
  match redhttpHeadersGet (queryArguments uri.query) (CString.lit "graph") with
  | none => uri.fragment = none
  | some argument =>
    (parse argument.bytes).SameDocument ∧ (parse argument.bytes).fragment = uri.fragment

/-- A path and a query with which the graph store serves a named graph. -/
structure NamedGraphAt (path : List UInt8) (query : Option (List UInt8)) : Prop where
  keys : KeysNonEmpty (query.getD [])
  named : ∃ suffix, unescaped path = CString.lit "/data" ++ suffix ∧
    (redhttpHeadersExists (queryArguments query) (CString.lit "graph") = true ∨
      suffix.strlen ≠ 0)
  notDefault : redhttpHeadersExists (queryArguments query) (CString.lit "default") = false

/-- The graph store serves the graph at its own URI. -/
structure ServedAtUri (host uri : CString) : Prop where
  unquoted : ch '"' ∉ upTo (ch '#') uri.bytes
  scheme : (parse uri.bytes).scheme = some (bytesOf "http")
  authority : (parse uri.bytes).authority = (parse (rootUrl host).bytes).authority
  path_ne : (parse uri.bytes).path ≠ []
  dots : removeDotSegments (parse uri.bytes).path = (parse uri.bytes).path
  graph : NamedGraphAt (parse uri.bytes).path (parse uri.bytes).query
  argument : SelfArgument (parse uri.bytes)

/-- The condition for the link of a graph to lead back. -/
def LinkServed (host uri : CString) : Prop :=
  (parse (rootUrl host).bytes).authority ≠ some [] ∧
    if strstr uri.bytes (rootUrl host).bytes then ServedAtUri host uri
    else (∀ c ∈ uri.bytes, c < 128) ∧
      removeDotSegments (parse uri.bytes).path = (parse uri.bytes).path

/-! ### What is asked for -/

section Request

variable {w : World T R σ} {app : App σ} {authority : CString} {url : Reference}
  {graph : CString}

/-- The URL of a GET, as the server puts it together. -/
def askedUrl (authority : CString) (url : Reference) : List UInt8 :=
  bytesOf "http://" ++ authority.bytes ++ (getPath url ++ prefixed [ch '?'] url.query)

lemma bytes_getTarget (h : (0 : UInt8) ∉ getPath url ++ prefixed [ch '?'] url.query) :
    (getTarget url).bytes = getPath url ++ prefixed [ch '?'] url.query :=
  CString.bytes_ofBytes_of_not_mem h

lemma question_not_mem_getPath (h : url.Hierarchical) : ch '?' ∉ getPath url := by
  rw [getPath]
  split
  · decide
  · exact h.path_query

lemma takeWhile_getTarget (h : url.Hierarchical)
    (h0 : (0 : UInt8) ∉ getPath url ++ prefixed [ch '?'] url.query) :
    RedHttp.pathOf (getTarget url) = unescaped (getPath url) := by
  have hcut : upTo (ch '?') (getTarget url).bytes = getPath url := by
    rw [bytes_getTarget h0, upTo_append (question_not_mem_getPath h), upTo_prefixed,
      List.append_nil]
  rw [RedHttp.pathOf]
  exact congrArg unescaped hcut

lemma queryBytes_getTarget (h : url.Hierarchical)
    (h0 : (0 : UInt8) ∉ getPath url ++ prefixed [ch '?'] url.query) :
    queryBytes (getTarget url) = url.query.getD [] := by
  rw [queryBytes, queryStringOf, bytes_getTarget h0]
  cases hquery : url.query with
  | none =>
    have hnone : strchr (getPath url ++ prefixed [ch '?'] none) (ch '?') = none := by
      rw [strchr_eq_none_iff]
      simpa [prefixed] using question_not_mem_getPath h
    rw [hnone]
    rfl
  | some q =>
    have hsome : strchr (getPath url ++ prefixed [ch '?'] (some q)) (ch '?') =
        some (getPath url).length := by
      rw [strchr_append_of_not_mem (question_not_mem_getPath h)]
      simp [prefixed]
    have h0' : (0 : UInt8) ∉ q := by
      intro hmem
      refine h0 (List.mem_append_right _ ?_)
      rw [hquery]
      exact List.mem_cons_of_mem _ hmem
    have hdrop : (getPath url ++ prefixed [ch '?'] (some q)).drop ((getPath url).length + 1) =
        q := by
      rw [List.drop_append]
      simp [prefixed]
    rw [hsome, Option.map_some, hdrop]
    exact CString.bytes_ofBytes_of_not_mem h0'

/-- The request that is read of a GET. -/
def readGet (authority : CString) (url : Reference) : Request :=
  (getFrom authority).withTarget (getTarget url)

lemma arguments_readGet (h : url.Hierarchical)
    (h0 : (0 : UInt8) ∉ getPath url ++ prefixed [ch '?'] url.query) :
    (readGet authority url).arguments = queryArguments url.query := by
  show [] ++ (argumentSegments (queryBytes (getTarget url))).map segmentHeader = _
  rw [queryBytes_getTarget h h0, List.nil_append]
  rfl

lemma currentUrl_readGet (authority : CString)
    (h0 : (0 : UInt8) ∉ getPath url ++ prefixed [ch '?'] url.query) :
    ∃ asked, (readGet authority url).currentUrl = some asked ∧
      asked.bytes = askedUrl authority url := by
  refine ⟨CString.lit "http://" ++ authority ++ getTarget url, rfl, ?_⟩
  rw [CString.bytes_append, CString.bytes_append, bytes_getTarget h0]
  rfl

/-- The node for a request is that of the graph exactly if its argument resolves to the graph. -/
lemma requestNode_readGet (hw : IdealUris w) (h : url.Hierarchical)
    (h0 : (0 : UInt8) ∉ getPath url ++ prefixed [ch '?'] url.query) (glob : Pointer CString) :
    requestNode w { readGet authority url with pathGlob := glob } = some (.uri graph) ↔
      ArgumentResolves (askedUrl authority url) graph.bytes url.query := by
  obtain ⟨asked, hasked, hbytes⟩ := currentUrl_readGet authority h0
  have hurl : ({ readGet authority url with pathGlob := glob } : Request).currentUrl =
      some asked := hasked
  have hargument : ({ readGet authority url with pathGlob := glob } : Request).getArgument
      (CString.lit "graph") = redhttpHeadersGet (queryArguments url.query) (CString.lit "graph") :=
    congrArg (redhttpHeadersGet · (CString.lit "graph")) (arguments_readGet h h0)
  have hne : asked.bytes ≠ [] := by
    rw [hbytes]
    simp [askedUrl, bytesOf]
  rw [requestNode, graphNodeFor, hurl, hargument, Option.bind_some, hw.newUri _ hne,
    ArgumentResolves, ← hbytes]
  cases redhttpHeadersGet (queryArguments url.query) (CString.lit "graph") with
  | none =>
    simp only [hw.copy, Option.bind_some, hw.node, Option.some.injEq, Node.uri.injEq]
    exact CString.ext_iff
  | some argument =>
    simp only [hw.relative, Option.bind_some, hw.node, Option.some.injEq, Node.uri.injEq]
    rw [CString.ext_iff, CString.bytes_ofBytes_of_not_mem (resolve_nul_free _ _)]

lemma requestTarget_readGet (hw : IdealUris w) (h : url.Hierarchical)
    (h0 : (0 : UInt8) ∉ getPath url ++ prefixed [ch '?'] url.query) (suffix : CString) :
    requestTarget w (dataConn ⟨readGet authority url, app⟩ suffix).request =
        .graph (.uri graph) ↔
      (redhttpHeadersExists (queryArguments url.query) (CString.lit "graph") = true ∨
          suffix.strlen ≠ 0) ∧
        redhttpHeadersExists (queryArguments url.query) (CString.lit "default") = false ∧
        ArgumentResolves (askedUrl authority url) graph.bytes url.query := by
  rw [← requestNode_readGet hw h h0 (newGlob suffix)]
  have hexists : ∀ key, (dataConn ⟨readGet authority url, app⟩ suffix).request.argumentExists key =
      redhttpHeadersExists (queryArguments url.query) key :=
    fun key => congrArg (redhttpHeadersExists · key) (arguments_readGet h h0)
  have hpath : hasPath (dataConn ⟨readGet authority url, app⟩ suffix).request =
      decide (suffix.strlen ≠ 0) := by
    rw [hasPath]
    refine decide_eq_decide.mpr ?_
    show newGlob suffix ≠ .null ↔ _
    rw [newGlob]
    split <;> simp_all
  rw [requestTarget, hasGraph, hasDefault, hexists, hexists, hpath]
  have hrequest : (dataConn ⟨readGet authority url, app⟩ suffix).request =
      { readGet authority url with pathGlob := newGlob suffix } := rfl
  rw [hrequest]
  cases redhttpHeadersExists (queryArguments url.query) (CString.lit "graph") <;>
    cases redhttpHeadersExists (queryArguments url.query) (CString.lit "default") <;>
    by_cases hsuffix : suffix.strlen = 0 <;>
    cases requestNode w { readGet authority url with pathGlob := newGlob suffix } <;>
    simp [hsuffix]

/-- A GET is served as one for a graph exactly if the store serves a named graph there, and the
graph argument resolves to it. -/
lemma servedAs_iff (hw : IdealUris w) (h : url.Hierarchical)
    (h0 : (0 : UInt8) ∉ getPath url ++ prefixed [ch '?'] url.query) :
    ServedAs w app authority url graph ↔
      NamedGraphAt (getPath url) url.query ∧
        ArgumentResolves (askedUrl authority url) graph.bytes url.query := by
  have hquery := queryBytes_getTarget h h0
  have hpathOf : (readGet authority url).path = some (unescaped (getPath url)) :=
    congrArg some (takeWhile_getTarget h h0)
  constructor
  · rintro ⟨r, suffix, hset, hpath, -, htarget⟩
    have hkeys : KeysNonEmpty (queryBytes (getTarget url)) := by
      by_contra hkeys
      obtain ⟨r', hr'⟩ := setPathAndQuery_of_not_keys hkeys (getFrom authority)
      rw [hr'] at hset
      cases hset
    rw [setPathAndQuery_of_keys hkeys, EStateM.Result.ok.injEq] at hset
    obtain rfl : readGet authority url = r := hset.2
    obtain ⟨hnamed, hdefault, hresolves⟩ := (requestTarget_readGet hw h h0 suffix).mp htarget
    refine ⟨⟨hquery ▸ hkeys, ⟨suffix, ?_, hnamed⟩, hdefault⟩, hresolves⟩
    exact Option.some.inj (hpathOf.symm.trans hpath)
  · rintro ⟨⟨hkeys, ⟨suffix, hsuffix, hnamed⟩, hdefault⟩, hresolves⟩
    have hpath : (readGet authority url).path = some (CString.lit "/data" ++ suffix) :=
      hpathOf.trans (congrArg some hsuffix)
    refine ⟨readGet authority url, suffix,
      setPathAndQuery_of_keys (hquery.symm ▸ hkeys) (getFrom authority), hpath, ?_,
      (requestTarget_readGet hw h h0 suffix).mpr ⟨hnamed, hdefault, hresolves⟩⟩
    exact dispatchRequest_data (m := .get) rfl hpath rfl

end Request

/-! ### What a reader finds -/

section Links

variable {w : World T R σ} {host uri : CString}

lemma graphLink_eq : graphLink w host uri = (graphItem w (rootUrl host) uri).map render := by
  rw [graphLink, appendGraphItem_eq]
  cases graphItem w (rootUrl host) uri with
  | error e => rfl
  | ok item => rfl

/-- The target of a link is what has been inserted, up to the first quote. -/
lemma hrefOf_link (hx : EscapesXml w) {front : String} (pre : List UInt8) {target : CString}
    (hfront : bytesOf front = linkStart ++ pre) (hpre : ∀ c ∈ pre, ¬ XmlSpecial 0 c) :
    hrefOf (render (linkPieces w front target uri)) = upTo (ch '"') (pre ++ target.bytes) := by
  obtain ⟨rest, hrest⟩ : ∃ rest, render (linkPieces w front target uri) =
      linkStart ++ (pre ++ w.xmlEscape target.bytes 0 ++ ch '"' :: rest) := by
    refine ⟨ch '>' :: (w.xmlEscape uri.bytes 0 ++ bytesOf "</a></li>\n"), ?_⟩
    have hclose : bytesOf "\">" = [ch '"', ch '>'] := rfl
    simp [linkPieces, hfront, hclose]
  rw [hrefOf, hrest, List.drop_left]
  exact textAt_of_escaped .doubleQuoted
    ((hx target.bytes 0).append_plain hpre) (by decide) (by decide) rest

/-- A direct link is to the URI itself, up to the first quote. -/
lemma hrefOf_direct (hx : EscapesXml w)
    (h : strstr uri.bytes (rootUrl host).bytes = true) :
    ∃ link, graphLink w host uri = .ok link ∧ hrefOf link = upTo (ch '"') uri.bytes := by
  refine ⟨render (linkPieces w "<li><a href=\"" uri uri), ?_,
    hrefOf_link hx [] (List.append_nil _).symm (by simp)⟩
  rw [graphLink_eq, graphItem, if_pos h]
  rfl

/-- Another link is to the graph store, with the URI escaped in the graph argument. -/
lemma hrefOf_indirect (hx : EscapesXml w) (h : strstr uri.bytes (rootUrl host).bytes = false)
    {link : List UInt8} (hlink : graphLink w host uri = .ok link) :
    ∃ escaped, redhttpUrlEscape uri.bytes = .ok escaped ∧ EscapedFrom uri.bytes escaped ∧
      hrefOf link = bytesOf "/data/?graph=" ++ escaped := by
  have hnot : ¬ strstr uri.bytes (rootUrl host).bytes = true := by simp [h]
  rw [graphLink_eq, graphItem, if_neg hnot] at hlink
  cases hescaped : redhttpUrlEscape uri.bytes with
  | error e => simp [hescaped, bind, Except.bind, Except.map] at hlink
  | ok escaped =>
    simp only [hescaped, bind, Except.bind, Except.map, Except.ok.injEq] at hlink
    have hfrom := escapedFrom_of_ok hescaped
    refine ⟨escaped, rfl, hfrom, ?_⟩
    have h0 : (0 : UInt8) ∉ escaped := hfrom.text.not_mem (by decide) (by decide)
    have hquote : ch '"' ∉ bytesOf "/data/?graph=" ++ escaped := by
      rw [List.mem_append, not_or]
      exact ⟨by decide, hfrom.text.not_mem (by decide) (by decide)⟩
    rw [← hlink, hrefOf_link hx (bytesOf "/data/?graph=") (by decide)
      (forall_mem_of_all (by decide)), CString.bytes_ofBytes_of_not_mem h0, upTo_eq_self hquote]

/-- The scheme is in front of the first quote. -/
lemma scheme_upTo_quote {s scheme : List UInt8} (h : (parse s).scheme = some scheme) :
    (parse (upTo (ch '"') s)).scheme = some scheme := by
  have hscheme : isScheme scheme = true := (upTo_colon_of_scheme h).2.1
  have hquote : ch '"' ∉ scheme :=
    fun hmem => absurd (mem_of_isScheme hscheme _ hmem) (by decide)
  obtain ⟨rest, hsplit⟩ := eq_of_scheme h
  have hcut : upTo (ch '"') (ch ':' :: rest) = ch ':' :: upTo (ch '"') rest := by
    rw [upTo, List.takeWhile_cons_of_pos (by decide), upTo]
  rw [hsplit, upTo_append hquote, hcut]
  exact scheme_parse_of_colon hscheme _

/-! ### Links through the graph store -/

/-- The root URL has a scheme and an authority. -/
lemma parse_rootUrl (host : CString) :
    (parse (rootUrl host).bytes).scheme = some (bytesOf "http") ∧
      ∃ authority : CString, (parse (rootUrl host).bytes).authority = some authority.bytes := by
  have hbytes : (rootUrl host).bytes =
      bytesOf "http" ++ ch ':' :: ch '/' :: ch '/' :: (host.bytes ++ bytesOf "/") := by
    show bytesOf "http://" ++ host.bytes ++ bytesOf "/" = _
    simp [bytesOf]
  have hall := all_parse (p := (· ≠ 0)) (s := (rootUrl host).bytes)
    fun c hc h => (rootUrl host).nul_free (h ▸ hc)
  obtain ⟨hscheme, hauthority⟩ :=
    parse_of_authority (bytesOf "http") (by decide) (host.bytes ++ bytesOf "/")
  rw [← hbytes] at hscheme hauthority
  exact ⟨hscheme, ⟨_, fun h => hall.authority _ hauthority 0 h rfl⟩, hauthority⟩

/-- The URL of a link through the graph store. -/
def storeUrl (authority : CString) (escaped : List UInt8) : Reference where
  scheme := some (bytesOf "http")
  authority := some authority.bytes
  path := bytesOf "/data/"
  query := some (bytesOf "graph=" ++ escaped)

lemma parse_storeHref {escaped : List UInt8} (h : ch '#' ∉ escaped) :
    parse (bytesOf "/data/?graph=" ++ escaped) =
      { path := bytesOf "/data/", query := some (bytesOf "graph=" ++ escaped) } := by
  have hcut : upTo (ch '#') (bytesOf "/data/?graph=" ++ escaped) =
      bytesOf "/data/" ++ ch '?' :: (bytesOf "graph=" ++ escaped) := by
    rw [upTo_append (by decide), upTo_eq_self h]
    rfl
  have hquestion : ch '?' ∉ bytesOf "/data/" := by decide
  have hhier : hierarchical (bytesOf "/data/?graph=" ++ escaped) = bytesOf "/data/" := by
    rw [hierarchical, hcut, upTo_append hquestion, upTo_cons_self, List.append_nil]
  have hquery : behind (ch '?') (upTo (ch '#') (bytesOf "/data/?graph=" ++ escaped)) =
      some (bytesOf "graph=" ++ escaped) := by
    rw [hcut, behind_append hquestion, behind_cons_self]
  have hfragment : behind (ch '#') (bytesOf "/data/?graph=" ++ escaped) = none := by
    refine behind_of_not_mem ?_
    rw [List.mem_append, not_or]
    exact ⟨by decide, h⟩
  rw [parse, hhier, hquery, hfragment]
  rfl

lemma parse_storeLink {authority : CString} {escaped : List UInt8}
    (hauthority : (parse (rootUrl host).bytes).authority = some authority.bytes)
    (h : ch '#' ∉ escaped) :
    parse (resolve (rootUrl host).bytes (bytesOf "/data/?graph=" ++ escaped)) =
        storeUrl authority escaped ∧ (storeUrl authority escaped).Hierarchical := by
  have hscheme := (parse_rootUrl host).1
  have hroot := hierarchical_parse (s := (rootUrl host).bytes) (by rw [hscheme]; rfl)
    (by rw [hauthority]; rfl)
  have hslash : (bytesOf "/data/").head? = some (ch '/') := by decide
  have hquestion : ch '?' ∉ bytesOf "/data/" := by decide
  have hhash : ch '#' ∉ bytesOf "/data/" := by decide
  have htransform : transform (parse (rootUrl host).bytes)
      (parse (bytesOf "/data/?graph=" ++ escaped)) = storeUrl authority escaped := by
    have hpath : removeDotSegments (bytesOf "/data/") = bytesOf "/data/" := by decide
    rw [parse_storeHref h, transform_of_path rfl rfl hslash, hscheme, hauthority, hpath]
    rfl
  have hurl : (storeUrl authority escaped).Hierarchical := by
    refine ⟨⟨_, rfl, by decide⟩, ?_, Or.inr hslash, hquestion, hhash, ?_⟩
    · obtain ⟨a, ha, hdelimiters⟩ := hroot.authority
      obtain rfl := Option.some.inj (hauthority.symm.trans ha)
      exact ⟨_, rfl, hdelimiters⟩
    · intro q hq
      obtain rfl := Option.some.inj hq
      rw [List.mem_append, not_or]
      exact ⟨by decide, h⟩
  rw [resolve, htransform]
  exact ⟨parse_recompose hurl, hurl⟩

/-- The graph argument of the link is the URI. -/
lemma queryArguments_storeUrl {escaped : List UInt8} (hfrom : EscapedFrom uri.bytes escaped)
    (hne : uri.bytes ≠ []) :
    KeysNonEmpty (bytesOf "graph=" ++ escaped) ∧
      queryArguments (some (bytesOf "graph=" ++ escaped)) =
        [⟨CString.lit "graph", some uri⟩] := by
  have hseparator : ∀ c ∈ bytesOf "graph=" ++ escaped, isSeparator c = false := by
    intro c hc
    rcases List.mem_append.mp hc with hc | hc
    · exact forall_mem_of_all (p := fun c => isSeparator c = false) (by decide) c hc
    · rw [isSeparator, Bool.or_eq_false_iff, beq_eq_false_iff_ne, beq_eq_false_iff_ne]
      constructor <;> rintro rfl
      · exact hfrom.text.not_mem (by decide) (by decide) hc
      · exact hfrom.text.not_mem (by decide) (by decide) hc
  have hsegments := argumentSegments_of_last hseparator (by simp [bytesOf])
  have hkey : segmentKey (bytesOf "graph=" ++ escaped) = bytesOf "graph" := by
    show (bytesOf "graph" ++ ch '=' :: escaped).takeWhile (· != ch '=') = bytesOf "graph"
    exact (upTo_append (by decide) _).trans (by simp)
  have hvalue : segmentValue (bytesOf "graph=" ++ escaped) = some escaped := by
    rfl
  have hunescaped : unescaped escaped = uri := by
    rw [unescaped, hfrom.unescape, CString.ofBytes_bytes]
  have hgraph : unescaped (bytesOf "graph") = CString.lit "graph" := by decide
  constructor
  · rw [KeysNonEmpty, hsegments, List.forall_mem_singleton, hkey, hgraph]
    decide
  · have hstored : storedValue (some uri) = some uri := by
      simp [storedValue, CString.strlen, hne]
    rw [queryArguments, Option.getD_some, hsegments, List.map_singleton, segmentHeader, hkey,
      hvalue, hgraph, Option.map_some, hunescaped, hstored]

/-- A link through the graph store leads back exactly if it can be made, there is an authority
to go to, and resolution leaves the URI as it is. -/
lemma leadsBack_indirect_iff (hx : EscapesXml w) (hw : IdealUris w) {app : App σ}
    (habsolute : Absolute uri) (h : strstr uri.bytes (rootUrl host).bytes = false) :
    LeadsBack w app host uri ↔ (parse (rootUrl host).bytes).authority ≠ some [] ∧
      (∀ c ∈ uri.bytes, c < 128) ∧
        removeDotSegments (parse uri.bytes).path = (parse uri.bytes).path := by
  have hne : uri.bytes ≠ [] := by
    rintro hnil
    rw [Absolute, hnil] at habsolute
    exact absurd habsolute (by decide)
  -- what is served for the link, once its parts are known
  have hserved : ∀ {authority : CString} {escaped : List UInt8},
      (parse (rootUrl host).bytes).authority = some authority.bytes →
      EscapedFrom uri.bytes escaped →
        (ServedAs w app authority (storeUrl authority escaped) uri ↔
          removeDotSegments (parse uri.bytes).path = (parse uri.bytes).path) := by
    intro authority escaped hauthority hfrom
    have hhash : ch '#' ∉ escaped := hfrom.text.not_mem (by decide) (by decide)
    have h0 : (0 : UInt8) ∉ getPath (storeUrl authority escaped) ++
        prefixed [ch '?'] (storeUrl authority escaped).query := by
      show (0 : UInt8) ∉ bytesOf "/data/" ++ (bytesOf "?graph=" ++ escaped)
      rw [List.mem_append, List.mem_append, not_or, not_or]
      exact ⟨by decide, by decide, hfrom.text.not_mem (by decide) (by decide)⟩
    obtain ⟨hkeys, harguments⟩ := queryArguments_storeUrl hfrom hne
    have hnamed : NamedGraphAt (getPath (storeUrl authority escaped))
        (storeUrl authority escaped).query := by
      have harguments' : queryArguments (storeUrl authority escaped).query = _ := harguments
      have hpath : unescaped (bytesOf "/data/") = CString.lit "/data" ++ CString.lit "/" := by
        decide
      refine ⟨hkeys, ⟨CString.lit "/", hpath, Or.inr (by decide)⟩, ?_⟩
      rw [harguments']
      simp only [redhttpHeadersExists, List.any_cons, List.any_nil, Bool.or_false]
      decide
    have hresolves : ArgumentResolves (askedUrl authority (storeUrl authority escaped)) uri.bytes
        (storeUrl authority escaped).query ↔
          removeDotSegments (parse uri.bytes).path = (parse uri.bytes).path := by
      have hget : redhttpHeadersGet (queryArguments (storeUrl authority escaped).query)
          (CString.lit "graph") = some uri := by
        show redhttpHeadersGet (queryArguments (some (bytesOf "graph=" ++ escaped))) _ = _
        rw [harguments]
        rfl
      rw [ArgumentResolves, hget]
      exact resolve_eq_self_iff habsolute _
    rw [servedAs_iff hw (parse_storeLink hauthority hhash).2 h0, hresolves,
      and_iff_right hnamed]
  constructor
  · rintro ⟨link, authority, hlink, hauthority_ne, hauthority, -, -, hleads⟩
    obtain ⟨escaped, hescaped, hfrom, hhref⟩ := hrefOf_indirect hx h hlink
    have hhash : ch '#' ∉ escaped := hfrom.text.not_mem (by decide) (by decide)
    rw [linkUrl, hhref, (parse_storeLink hauthority hhash).1, hserved hauthority hfrom] at hleads
    refine ⟨?_, (redhttpUrlEscape_ok_iff uri.bytes).mp ⟨escaped, hescaped⟩, hleads⟩
    rw [hauthority]
    exact fun hnil => hauthority_ne (Option.some.inj hnil)
  · rintro ⟨hauthority_ne, hascii, hdots⟩
    obtain ⟨-, authority, hauthority⟩ := parse_rootUrl host
    obtain ⟨page, hpage⟩ : ∃ page,
        appendGraphItem w (rootUrl host) ⟨redhttpResponseNew .ok, []⟩ uri = .ok page :=
      (appendGraphItem_ok_iff _).mpr (Or.inr hascii)
    have hlink : graphLink w host uri = .ok page.buffer := by
      rw [graphLink, hpage]
      rfl
    obtain ⟨escaped, -, hfrom, hhref⟩ := hrefOf_indirect hx h hlink
    have hhash : ch '#' ∉ escaped := hfrom.text.not_mem (by decide) (by decide)
    have hurl : parse (linkUrl host page.buffer) = storeUrl authority escaped := by
      rw [linkUrl, hhref]
      exact (parse_storeLink hauthority hhash).1
    refine ⟨page.buffer, authority, hlink, ?_, hauthority, by rw [hurl]; rfl, by rw [hurl]; rfl, ?_⟩
    · rintro hnil
      rw [hauthority, hnil] at hauthority_ne
      exact hauthority_ne rfl
    · rw [hurl]
      exact (hserved hauthority hfrom).mpr hdots

/-! ### Direct links -/

/-- A value of an argument is not longer than the query. -/
lemma length_le_of_argument {query : Option (List UInt8)} {key value : CString}
    (h : redhttpHeadersGet (queryArguments query) key = some value) :
    ∃ q, query = some q ∧ value.bytes.length ≤ q.length := by
  have hmem : ∀ headers : List Header, redhttpHeadersGet headers key = some value →
      ∃ it ∈ headers, it.value = some value := by
    intro headers
    induction headers with
    | nil => simp [redhttpHeadersGet]
    | cons it rest ih =>
      intro h
      rw [redhttpHeadersGet] at h
      split at h
      · exact ⟨it, List.mem_cons_self, h⟩
      · obtain ⟨it', hit', hvalue⟩ := ih h
        exact ⟨it', List.mem_cons_of_mem _ hit', hvalue⟩
  obtain ⟨it, hit, hvalue⟩ := hmem _ h
  obtain ⟨seg, hseg, rfl⟩ := List.mem_map.mp hit
  cases query with
  | none => simp at hseg
  | some q =>
    refine ⟨q, rfl, ?_⟩
    obtain ⟨hstored, -⟩ := Option.filter_eq_some_iff.mp hvalue
    obtain ⟨v, hv, rfl⟩ := Option.map_eq_some_iff.mp hstored
    obtain ⟨i, -, rfl⟩ := Option.map_eq_some_iff.mp hv
    calc (unescaped (seg.drop (i + 1))).bytes.length
        ≤ (seg.drop (i + 1)).length := length_unescaped_le _
      _ ≤ seg.length := by simp
      _ ≤ q.length := length_le_of_mem_argumentSegments hseg

/-- The graph argument of a URL resolves to a graph with a query that is not shorter than that
of the URL only if it is nothing but the fragment: any other reference would bring the query
along, in which it would have to be itself. -/
lemma argumentResolves_iff {asked graph : List UInt8} {query : Option (List UInt8)}
    (hasked : ch '#' ∉ asked) (hquery : ∀ q, query = some q →
      ∃ q', (parse graph).query = some q' ∧ q.length ≤ q'.length) :
    ArgumentResolves asked graph query ↔ asked = upTo (ch '#') graph ∧
      match redhttpHeadersGet (queryArguments query) (CString.lit "graph") with
      | none => (parse graph).fragment = none
      | some argument =>
        (parse argument.bytes).SameDocument ∧
          (parse argument.bytes).fragment = (parse graph).fragment := by
  have hsplit : upTo (ch '#') graph ++ prefixed [ch '#'] (parse graph).fragment = graph :=
    upTo_append_behind (ch '#') graph
  have hparts : ∀ fragment, asked ++ prefixed [ch '#'] fragment = graph ↔
      asked = upTo (ch '#') graph ∧ fragment = (parse graph).fragment := by
    intro fragment
    constructor
    · rintro rfl
      refine ⟨?_, ?_⟩
      · rw [upTo_append hasked, upTo_prefixed, List.append_nil]
      · show fragment = behind (ch '#') _
        rw [behind_append hasked, behind_prefixed]
    · rintro ⟨hcut, rfl⟩
      rw [hcut]
      exact hsplit
  rw [ArgumentResolves]
  cases hargument : redhttpHeadersGet (queryArguments query) (CString.lit "graph") with
  | none =>
    have hnone := hparts none
    rw [show prefixed [ch '#'] none = [] from rfl, List.append_nil] at hnone
    exact hnone.trans (and_congr_right fun _ => eq_comm)
  | some argument =>
    by_cases hsame : (parse argument.bytes).SameDocument
    · simp only [resolve_of_sameDocument hasked hsame, hparts, hsame, true_and]
    · refine iff_of_false (fun hresolve => ?_) fun h => hsame h.2.1
      obtain ⟨q, hq, hlength⟩ := length_le_of_argument hargument
      obtain ⟨q', hq', hle⟩ := hquery q hq
      rw [← hresolve, query_resolve asked hsame] at hq'
      have hlt : q'.length < (upTo (ch '#') argument.bytes).length := length_behind_lt hq'
      have hcut : (upTo (ch '#') argument.bytes).length ≤ argument.bytes.length :=
        (List.takeWhile_sublist _).length_le
      omega

section Direct

variable {authority : CString} {u : List UInt8} {url : Reference}

lemma askedUrl_eq (hscheme : url.scheme = some (bytesOf "http"))
    (hauthority : url.authority = some authority.bytes) :
    askedUrl authority url =
      recompose ({ url with path := getPath url }.withFragment none) := by
  simp [askedUrl, Reference.withFragment, recompose, hscheme, hauthority, prefixed, bytesOf]

lemma hierarchical_getPath (h : url.Hierarchical) :
    ({ url with path := getPath url }.withFragment none).Hierarchical := by
  have hpath : getPath url = [] ∨ (getPath url).head? = some (ch '/') := by
    rw [getPath]
    split
    · exact Or.inr rfl
    · exact h.path
  have hhash : ch '#' ∉ getPath url := by
    rw [getPath]
    split
    · decide
    · exact h.path_fragment
  exact ⟨h.scheme, h.authority, hpath, question_not_mem_getPath h, hhash, h.query⟩

lemma hash_not_mem_askedUrl (h : url.Hierarchical)
    (hscheme : url.scheme = some (bytesOf "http"))
    (hauthority : url.authority = some authority.bytes) : ch '#' ∉ askedUrl authority url := by
  have hparts := parse_recompose (hierarchical_getPath h)
  rw [askedUrl_eq hscheme hauthority]
  refine hash_not_mem_of_fragment ?_
  rw [hparts]
  rfl

/-- No NUL gets into a target. -/
lemma nul_not_mem_target {s : List UInt8} (h : ∀ c ∈ s, c ≠ 0) :
    (0 : UInt8) ∉ getPath (parse s) ++ prefixed [ch '?'] (parse s).query := by
  have hall := all_parse h
  rw [List.mem_append, not_or]
  refine ⟨?_, not_mem_prefixed (by decide) fun q hq hmem => hall.query q hq 0 hmem rfl⟩
  rw [getPath]
  split
  · decide
  · exact fun hmem => hall.path 0 hmem rfl

/-- The query of the URL of a direct link is that of the URI, if it is not cut. -/
lemma query_directUrl (habsolute : (parse u).scheme.isSome = true) (root : List UInt8)
    {q : List UInt8} (h : (parse (resolve root (upTo (ch '"') u))).query = some q) :
    ∃ q', (parse u).query = some q' ∧ q.length ≤ q'.length := by
  obtain ⟨scheme, hscheme⟩ := Option.isSome_iff_exists.mp habsolute
  have hother : ¬ (parse (upTo (ch '"') u)).SameDocument := by
    rintro ⟨hnone, -⟩
    rw [scheme_upTo_quote hscheme] at hnone
    cases hnone
  rw [query_resolve root hother] at h
  have hcut : behind (ch '?') (upTo (ch '"') (upTo (ch '#') u)) = some q := by
    rw [← upTo_comm]
    exact h
  exact behind_upTo (by decide) hcut

/-- The URL of a direct link, up to the dot segments. -/
lemma directUrl_eq (habsolute : (parse u).scheme.isSome = true) (root : List UInt8) :
    resolve root (upTo (ch '"') u) = recompose
      { parse (upTo (ch '"') u) with
        path := removeDotSegments (parse (upTo (ch '"') u)).path } := by
  obtain ⟨scheme, hscheme⟩ := Option.isSome_iff_exists.mp habsolute
  exact resolve_of_scheme (by rw [scheme_upTo_quote hscheme]; rfl) root

lemma upTo_hash_of_unquoted (h : ch '"' ∉ upTo (ch '#') u) :
    upTo (ch '#') (upTo (ch '"') u) = upTo (ch '#') u := by
  rw [upTo_comm, upTo_eq_self h]

/-- What is asked for on following a direct link has no quote. -/
lemma quote_not_mem_directUrl (habsolute : (parse u).scheme.isSome = true) (root : List UInt8) :
    ch '"' ∉ resolve root (upTo (ch '"') u) := by
  have hall := all_parse (p := (· ≠ ch '"')) (s := upTo (ch '"') u)
    fun c hc h => not_mem_upTo (ch '"') u (h ▸ hc)
  have hdots : ch '"' ∉ removeDotSegments (parse (upTo (ch '"') u)).path :=
    not_mem_removeDotSegments (by decide) fun hmem => hall.path _ hmem rfl
  have hurl := all_recompose (p := (· ≠ ch '"'))
    (r := { parse (upTo (ch '"') u) with
      path := removeDotSegments (parse (upTo (ch '"') u)).path })
    { hall with path := fun c hc h => hdots (h ▸ hc) } (forall_mem_of_all (by decide))
  rw [directUrl_eq habsolute]
  exact fun hmem => hurl _ hmem rfl

/-- If what is asked for is the URI without its fragment, the URI is an `http` URI of the server
with a path in which there are no quotes and no dot segments. -/
lemma direct_of_asked (habsolute : (parse u).scheme.isSome = true) {root : List UInt8}
    (hurl : parse (resolve root (upTo (ch '"') u)) = url)
    (hscheme : url.scheme = some (bytesOf "http"))
    (hauthority : url.authority = some authority.bytes)
    (hasked : askedUrl authority url = upTo (ch '#') u) :
    ch '"' ∉ upTo (ch '#') u ∧ parse u = url.withFragment (parse u).fragment ∧
      url.path ≠ [] ∧ removeDotSegments url.path = url.path := by
  have hhier : url.Hierarchical := by
    rw [← hurl]
    exact hierarchical_parse (by rw [hurl, hscheme]; rfl) (by rw [hurl, hauthority]; rfl)
  rw [askedUrl_eq hscheme hauthority] at hasked
  have hunquoted : ch '"' ∉ upTo (ch '#') u := by
    have hall := all_parse (p := (· ≠ ch '"')) (s := resolve root (upTo (ch '"') u))
      fun c hc h => quote_not_mem_directUrl habsolute root (h ▸ hc)
    rw [hurl] at hall
    have hpath : ∀ c ∈ getPath url, c ≠ ch '"' := by
      rw [getPath]
      split
      · exact forall_mem_of_all (by decide)
      · exact hall.path
    have hbytes := all_recompose (p := (· ≠ ch '"'))
      (r := { url with path := getPath url }.withFragment none)
      ⟨hall.scheme, hall.authority, hpath, hall.query, by rintro _ ⟨⟩⟩ (forall_mem_of_all (by decide))
    rw [hasked] at hbytes
    exact fun hmem => hbytes _ hmem rfl
  -- the parts of the URI are those that are asked for
  have hparse : parse u =
      { url with path := getPath url }.withFragment (parse u).fragment := by
    have hcut : upTo (ch '#') u = upTo (ch '#') (upTo (ch '#') u) :=
      (upTo_eq_self (not_mem_upTo _ _)).symm
    have hcongr := parse_congr hcut
    rw [← hasked, parse_recompose (hierarchical_getPath hhier)] at hcongr
    exact hcongr
  -- and those of the URL are the same but for its dot segments
  have hhash : ch '#' ∉ getPath url := (hierarchical_getPath hhier).path_fragment
  have hpath : removeDotSegments (getPath url) = url.path := by
    have hlink := parse_congr (upTo_hash_of_unquoted hunquoted)
    rw [hparse] at hlink
    have hfull := directUrl_eq habsolute root
    rw [← recompose_parse (resolve root _), hurl, hlink] at hfull
    exact path_of_recompose_eq hhier hfull rfl rfl
      (not_mem_removeDotSegments (by decide) (question_not_mem_getPath hhier))
      (not_mem_removeDotSegments (by decide) hhash) rfl
  have hne : url.path ≠ [] := by
    intro hnil
    rw [getPath, if_pos hnil, hnil] at hpath
    exact absurd hpath (by decide)
  have hget : getPath url = url.path := if_neg hne
  rw [hget] at hparse hpath
  exact ⟨hunquoted, hparse, hne, hpath⟩

/-- Such a URI is asked for as it is. -/
lemma asked_of_direct (habsolute : (parse u).scheme.isSome = true) (root : List UInt8)
    (hunquoted : ch '"' ∉ upTo (ch '#') u) (hscheme : (parse u).scheme = some (bytesOf "http"))
    (hauthority : (parse u).authority = some authority.bytes) (hne : (parse u).path ≠ [])
    (hdots : removeDotSegments (parse u).path = (parse u).path) :
    ∃ fragment, parse (resolve root (upTo (ch '"') u)) = (parse u).withFragment fragment ∧
      askedUrl authority ((parse u).withFragment fragment) = upTo (ch '#') u := by
  have hlink := parse_congr (upTo_hash_of_unquoted hunquoted)
  have hself : resolve root (upTo (ch '"') u) = upTo (ch '"') u := by
    rw [resolve_eq_self_iff, hlink]
    · exact hdots
    · rw [hlink]
      exact habsolute
  refine ⟨(parse (upTo (ch '"') u)).fragment, by rw [hself, ← hlink], ?_⟩
  rw [askedUrl_eq (by exact hscheme) (by exact hauthority), ← recompose_withFragment_none u]
  have hget : getPath ((parse u).withFragment (parse (upTo (ch '"') u)).fragment) =
      (parse u).path := if_neg hne
  rw [hget]
  rfl

end Direct

/-- A direct link leads back exactly if the graph store serves the graph at its own URI. -/
lemma leadsBack_direct_iff (hx : EscapesXml w) (hw : IdealUris w) {app : App σ}
    (habsolute : Absolute uri) (h : strstr uri.bytes (rootUrl host).bytes = true) :
    LeadsBack w app host uri ↔ (parse (rootUrl host).bytes).authority ≠ some [] ∧
      ServedAtUri host uri := by
  obtain ⟨link, hlink, hhref⟩ := hrefOf_direct hx h
  have hurl : linkUrl host link = resolve (rootUrl host).bytes (upTo (ch '"') uri.bytes) := by
    rw [linkUrl, hhref]
  -- no NUL gets into the target
  have h0 : ∀ url : Reference, parse (linkUrl host link) = url →
      (0 : UInt8) ∉ getPath url ++ prefixed [ch '?'] url.query := by
    rintro url rfl
    rw [hurl]
    exact nul_not_mem_target (forall_mem_resolve (p := (· ≠ 0)) (forall_mem_of_all (by decide))
      (fun c hc h0 => (rootUrl host).nul_free (h0 ▸ hc))
      (fun c hc h0 => uri.nul_free (h0 ▸ mem_of_mem_upTo hc)))
  -- the query of the URL is that of the URI, if it is not cut
  have hquery : ∀ q, (parse (linkUrl host link)).query = some q →
      ∃ q', (parse uri.bytes).query = some q' ∧ q.length ≤ q'.length := by
    rw [hurl]
    exact fun q => query_directUrl habsolute _
  have hserved : ∀ {authority : CString} {url : Reference},
      parse (linkUrl host link) = url → url.scheme = some (bytesOf "http") →
      url.authority = some authority.bytes → (ServedAs w app authority url uri ↔
        NamedGraphAt (getPath url) url.query ∧ askedUrl authority url = upTo (ch '#') uri.bytes ∧
        match redhttpHeadersGet (queryArguments url.query) (CString.lit "graph") with
        | none => (parse uri.bytes).fragment = none
        | some argument =>
          (parse argument.bytes).SameDocument ∧
            (parse argument.bytes).fragment = (parse uri.bytes).fragment) := by
    rintro authority url rfl hscheme hauthority
    have hhier : (parse (linkUrl host link)).Hierarchical :=
      hierarchical_parse (by rw [hscheme]; rfl) (by rw [hauthority]; rfl)
    rw [servedAs_iff hw hhier (h0 _ rfl),
      argumentResolves_iff (hash_not_mem_askedUrl hhier hscheme hauthority) hquery]
  constructor
  · rintro ⟨link', authority, hlink', hne, hroot, hscheme, hauthority, hleads⟩
    obtain rfl : link = link' := Except.ok.inj (hlink.symm.trans hlink')
    obtain ⟨hnamed, hasked, hargument⟩ := (hserved rfl hscheme hauthority).mp hleads
    obtain ⟨hunquoted, hparse, hpath, hdots⟩ :=
      direct_of_asked habsolute (by rw [hurl]) hscheme hauthority hasked
    have hget : getPath (parse (linkUrl host link)) = (parse (linkUrl host link)).path :=
      if_neg hpath
    rw [hget] at hnamed
    refine ⟨?_, ⟨hunquoted, ?_, ?_, ?_, ?_, ?_, ?_⟩⟩
    · rw [hroot]
      exact fun hnil => hne (Option.some.inj hnil)
    · rw [hparse, Reference.withFragment_scheme]
      exact hscheme
    · rw [hparse, hroot, Reference.withFragment_authority]
      exact hauthority
    · rw [hparse, Reference.withFragment_path]
      exact hpath
    · rw [hparse, Reference.withFragment_path]
      exact hdots
    · rw [hparse, Reference.withFragment_path, Reference.withFragment_query]
      exact hnamed
    · have hquery' : (parse uri.bytes).query = (parse (linkUrl host link)).query := by
        rw [hparse, Reference.withFragment_query]
      rw [SelfArgument, hquery']
      exact hargument
  · rintro ⟨hne, hserves⟩
    obtain ⟨-, authority, hroot⟩ := parse_rootUrl host
    have hauthority := hserves.authority.trans hroot
    obtain ⟨fragment, hparse, hasked⟩ := asked_of_direct habsolute (rootUrl host).bytes
      hserves.unquoted hserves.scheme hauthority hserves.path_ne hserves.dots
    rw [← hurl] at hparse
    have hget : getPath ((parse uri.bytes).withFragment fragment) = (parse uri.bytes).path :=
      if_neg hserves.path_ne
    refine ⟨link, authority, hlink, ?_, hroot, ?_, ?_, ?_⟩
    · rintro hnil
      rw [hroot, hnil] at hne
      exact hne rfl
    · rw [hparse, Reference.withFragment_scheme]
      exact hserves.scheme
    · rw [hparse, Reference.withFragment_authority]
      exact hauthority
    · rw [hparse]
      refine (hserved hparse hserves.scheme hauthority).mpr ⟨?_, hasked, hserves.argument⟩
      rw [hget, Reference.withFragment_query]
      exact hserves.graph

/-- The link for a graph leads back to it exactly if there is an authority to go to, and, where
the URI contains the root URL of the server, the graph store serves the graph at its URI, and
elsewhere the URI is in ASCII and without dot segments. -/
theorem indexLinks_iff (hx : EscapesXml w) (hw : IdealUris w) {app : App σ}
    (habsolute : Absolute uri) : LeadsBack w app host uri ↔ LinkServed host uri := by
  rw [LinkServed]
  by_cases h : strstr uri.bytes (rootUrl host).bytes = true
  · rw [if_pos h]
    exact leadsBack_direct_iff hx hw habsolute h
  · rw [if_neg h]
    exact leadsBack_indirect_iff hx hw habsolute (by simpa using h)

end Links

/-! ### Two graphs -/

/-- A graph of another server can be asked for, and one that is served at its URI. -/
theorem indexLinks_served :
    LeadsBack memoryWorld emptyApp (CString.lit "localhost:8080")
        (CString.lit "http://example.com/a?b#c") ∧
      LeadsBack memoryWorld emptyApp (CString.lit "localhost:8080")
        (CString.lit "http://localhost:8080/data/g") := by
  refine ⟨(indexLinks_iff escapesXml_memoryWorld memoryWorld_idealUris (by decide)).mpr ?foreign,
    (indexLinks_iff escapesXml_memoryWorld memoryWorld_idealUris (by decide)).mpr ?own⟩
  case foreign =>
    refine ⟨by decide +kernel, ?_⟩
    rw [if_neg (by decide +kernel)]
    exact ⟨forall_mem_of_all (by decide +kernel), by decide +kernel⟩
  case own =>
    refine ⟨by decide +kernel, ?_⟩
    rw [if_pos (by decide +kernel)]
    have hself : SelfArgument (parse (CString.lit "http://localhost:8080/data/g").bytes) := by
      show (parse (CString.lit "http://localhost:8080/data/g").bytes).fragment = none
      decide +kernel
    have hnamed : NamedGraphAt (parse (CString.lit "http://localhost:8080/data/g").bytes).path
        (parse (CString.lit "http://localhost:8080/data/g").bytes).query :=
      ⟨by decide +kernel, ⟨CString.lit "/g", by decide +kernel, Or.inr (by decide)⟩,
        by decide +kernel⟩
    exact ⟨by decide +kernel, by decide +kernel, by decide +kernel, by decide +kernel,
      by decide +kernel, hnamed, hself⟩

/-- A graph with a URI of the server that is not one of the graph store, and one of another
server in whose URI the root URL occurs, cannot. -/
theorem indexLinks_astray :
    ¬ LeadsBack memoryWorld emptyApp (CString.lit "localhost") (CString.lit "http://localhost/a") ∧
      ¬ LeadsBack memoryWorld emptyApp (CString.lit "localhost")
        (CString.lit "http://example.com/?u=http://localhost/") := by
  constructor
  · rw [leadsBack_direct_iff escapesXml_memoryWorld memoryWorld_idealUris (by decide) (by decide)]
    rintro ⟨-, hserves⟩
    obtain ⟨suffix, hsuffix, -⟩ := hserves.graph.named
    -- the path is too short to lie under `/data`
    have hlength := congrArg (·.bytes.length) hsuffix
    rw [show (unescaped (parse (CString.lit "http://localhost/a").bytes).path).bytes.length = 2
      from by decide, CString.bytes_append, List.length_append,
      show (CString.lit "/data").bytes.length = 5 from rfl] at hlength
    omega
  · rw [leadsBack_direct_iff escapesXml_memoryWorld memoryWorld_idealUris (by decide) (by decide)]
    rintro ⟨-, hserves⟩
    exact absurd hserves.authority (by decide)

end RedStore.Service
