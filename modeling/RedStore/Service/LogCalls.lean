/-
What is printed while a request is served, and by which formats.

`redstore_log` and `redstore_page_new_with_message` take a format and its arguments.  At every
place but one the format is a literal; `redland_log_handler` hands over the message of Redland in
its place.  A message with a percent sign in it is then not printed as it is, and takes arguments
that nobody has supplied; and messages quote what a client has sent.
-/
import RedStore.CLib.Format
import RedStore.Service.HeaderIntegrity

namespace RedStore.Service
open CLib RedHttp

variable {T R σ : Type}

/-! ### The two functions -/

/-- The functions that take a format. -/
inductive FormatFunction where
  | redstoreLog | redstorePageNewWithMessage
deriving DecidableEq

/-- The globals `verbose` and `quiet`. -/
structure Verbosity where
  verbose : Bool
  quiet : Bool

/-- Whether messages of a level are printed. -/
def Verbosity.shows (v : Verbosity) : LogLevel → Bool
  | .debug => v.verbose
  | .info => !v.quiet
  | _ => true

/-- What stands in front of a message. -/
def levelTag : LogLevel → String
  | .debug => "[DEBUG]   "
  | .info => "[INFO]    "
  | .warn => "[WARNING] "
  | .error => "[ERROR]   "
  | .fatal => "[FATAL]   "
  | .none => "[UNKNOWN] "

/-- `redstore_log` at a time: what it prints, where that is defined. -/
def redstoreLog (v : Verbosity) (tm : Tm) (level : LogLevel) (format : List UInt8)
    (args : List Arg) : Option (List UInt8) :=
  if v.shows level then
    (vprintf format args).map fun text =>
      bytesOf (levelTag level) ++ ctime tm ++ bytesOf "  " ++ text ++ bytesOf "\n"
  else some []

/-- The message that `redstore_page_new_with_message` makes.  Its `vsnprintf` returns an `int`
as `vprintf` does. -/
def pageMessage (format : List UInt8) (args : List Arg) : Option (List UInt8) :=
  vprintf format args

/-! ### The places where they are called -/

/-- A place with a literal for a format: the function that it calls, the level, unless it has
been handed one, the format, and what its arguments are. -/
structure LogSite where
  callee : FormatFunction
  level : Option LogLevel
  format : String
  arguments : List ArgKind

/-- `redstore_debug`. -/
def redstoreDebug (format : String) (arguments : List ArgKind) : LogSite :=
  ⟨.redstoreLog, some .debug, format, arguments⟩

/-- `redstore_info`. -/
def redstoreInfo (format : String) (arguments : List ArgKind) : LogSite :=
  ⟨.redstoreLog, some .info, format, arguments⟩

/-- `redstore_error`. -/
def redstoreError (format : String) (arguments : List ArgKind) : LogSite :=
  ⟨.redstoreLog, some .error, format, arguments⟩

/-- A place where a page with a message is made. -/
def pageSite (level : LogLevel) (format : String) (arguments : List ArgKind) : LogSite :=
  ⟨.redstorePageNewWithMessage, some level, format, arguments⟩

/-- The calls in `utils.c`. -/
def utilsSites : List LogSite := [
  -- `redstore_negotiate_format`
  redstoreDebug "format_arg: %s" [.string],
  redstoreDebug "Using default format: %s" [.string],
  redstoreDebug "Chosen format: %s" [.string],
  redstoreInfo "Failed to negotiate a serialisation format" [],
  -- `redstore_negotiate_string`
  redstoreDebug "format_arg: %s" [.string],
  redstoreDebug "supported: %s" [.string],
  redstoreDebug "accept: %s" [.string],
  redstoreDebug "chosen: %s" [.string],
  redstoreDebug "Using default format: %s" [.string]]

/-- The calls in `pages.c`. -/
def pagesSites : List LogSite := [
  -- `redstore_page_new_with_message`
  ⟨.redstoreLog, none, "Response: %s - %s", [.string, .string]⟩]

/-- The calls in `data.c`. -/
def dataSites : List LogSite := [
  -- `new_graph_node`
  redstoreError "Failed to create path for new graph." [],
  redstoreError "Failed to create librdf_uri for current request." [],
  redstoreDebug "New Graph URI: %s" [.string],
  redstoreError "Failed to create librdf_uri for new graph." [],
  redstoreError "Failed to create graph node from librdf_uri." [],
  -- `get_graph_node`
  redstoreError "Failed to create librdf_uri for current request." [],
  redstoreDebug "Graph URI: %s" [.string],
  redstoreError "Failed to create librdf_uri for graph." [],
  redstoreError "Failed to create graph node from librdf_uri." [],
  -- `remove_all_statements`
  pageSite .error "Failed to get list of graphs." [],
  redstoreError "librdf_iterator_get_next returned NULL" [],
  pageSite .error "Failed to stream model." [],
  redstoreError "librdf_stream_next returned NULL in remove_all_statements()" [],
  pageSite .error "Error deleting some statements." [],
  pageSite .info "Successfully deleted all statements." [],
  -- `post_to_new_graph`
  pageSite .error "Failed to create node for graph identifier." [],
  redstoreDebug "Graph already exists while trying to create new graph identifier: %s" [.string],
  pageSite .error "Failed to create new graph identifier." [],
  -- `handle_data_head`
  pageSite .debug "The 'graph' and 'default' arguments can not be used together." [],
  pageSite .debug "Missing graph path or argument." [],
  pageSite .error "Failed to get node for graph." [],
  pageSite .info "Graph not found." [],
  -- `handle_data_get`
  pageSite .debug "The 'graph' and 'default' arguments can not be used together." [],
  pageSite .debug "Missing graph path or argument." [],
  pageSite .error "Failed to stream model." [],
  pageSite .error "Failed to get node for graph." [],
  pageSite .info "Graph not found." [],
  pageSite .error "Failed to stream context." [],
  -- `handle_data_post`
  pageSite .debug "The 'graph' and 'default' arguments can not be used together." [],
  pageSite .error "Failed to get node for graph." [],
  -- `handle_data_put`
  pageSite .debug "The 'graph' and 'default' arguments can not be used together." [],
  pageSite .debug "Missing graph path or argument." [],
  pageSite .debug "PUTing data into the default graph is not implemented." [],
  pageSite .error "Failed to get node for graph." [],
  -- `handle_data_delete`
  pageSite .debug "The 'graph' and 'default' arguments can not be used together." [],
  pageSite .debug "Missing graph path or argument." [],
  pageSite .error "Failed to get node for graph." [],
  pageSite .info "Graph not found." [],
  pageSite .error "Error while trying to delete graph" [],
  pageSite .info "Successfully deleted graph." []]

/-- The calls in `update.c`. -/
def updateSites : List LogSite := [
  -- `load_stream_into_new_graph`
  pageSite .error "Failed to add triples to graph." [],
  pageSite .info "Error while adding triples to new graph: %s" [.string],
  pageSite .info "Successfully added triples to new graph: %s" [.string],
  -- `load_stream_into_graph`
  pageSite .error "Failed to add triples to graph." [],
  pageSite .info "Error while adding triples to: %s" [.string],
  pageSite .info "Successfully added triples to: %s" [.string],
  -- `delete_stream_from_graph`
  pageSite .info "Error while deleting triples." [],
  pageSite .info "Successfully deleted %d triples." [.int],
  pageSite .info "No triples deleted." [],
  -- `parse_data_from_buffer`
  pageSite .info "Failed to create base URI." [],
  redstoreDebug "base-uri: %s" [.string],
  pageSite .info "Failed to create base URI from graph URI." [],
  redstoreDebug "Warning: neither graph nor base-uri are set" [],
  redstoreDebug "Parsing using: %s" [.string],
  pageSite .info "Failed to create parser." [],
  pageSite .info "Failed to parse data." [],
  -- `parse_data_from_request_body`
  pageSite .debug "Invalid content length header." [],
  pageSite .debug "Missing content length header." [],
  pageSite .error "Failed to allocate memory for input data." [],
  pageSite .error "Error reading content from client." [],
  pageSite .info "Failed to guess parser type." [],
  -- `handle_load_post`
  pageSite .debug "Missing URI to load." [],
  pageSite .error "librdf_new_uri failed for URI" [],
  pageSite .error "librdf_new_uri failed for Base URI" [],
  pageSite .error "librdf_new_uri failed for Graph URI" [],
  redstoreInfo "Loading URI: %s" [.string],
  redstoreDebug "Base URI: %s" [.string],
  redstoreDebug "Graph URI: %s" [.string],
  redstoreInfo "Parsing using: %s" [.string],
  pageSite .error "Failed to create parser" [],
  pageSite .error "Failed to parse RDF as stream." [],
  pageSite .error "librdf_new_node_from_uri failed for graph-uri." [],
  -- `handle_insert_post`
  pageSite .debug "Missing the 'content' argument." [],
  pageSite .error "Error creating graph node from URI string" [],
  -- `handle_delete_post`
  pageSite .debug "Missing the 'content' argument." [],
  pageSite .error "Error creating graph node from URI string" []]

/-- The calls in `query.c`. -/
def querySites : List LogSite := [
  -- `perform_query`
  redstoreDebug "query_lang='%s'" [.string],
  redstoreDebug "query_string='%s'" [.string],
  pageSite .error "There was an error while creating the query." [],
  pageSite .info "There was an error while executing the query." [],
  pageSite .debug "Failed to get query results graph." [],
  pageSite .info "Syntax results format is not supported." [],
  pageSite .info "Unknown librdf results type." [],
  -- `handle_sparql`
  pageSite .info "Missing query string." []]

/-- The calls in `formatters.c`. -/
def formattersSites : List LogSite := [
  -- `format_graph_stream`
  pageSite .info "Results format not supported for graph query type." [],
  pageSite .error "Failed to create serialiser." [],
  redstoreError "Failed to serialize graph" [],
  -- `format_bindings_query_result`
  pageSite .info "Results format not supported for bindings query type." [],
  pageSite .error "Failed to create results formatter." [],
  pageSite .error "Failed to create raptor_iostream for results output." [],
  redstoreError "Failed to serialise query results" [],
  redstoreDebug "Query returned %d results" [.int]]

/-- The calls in `graphs.c`. -/
def graphsSites : List LogSite := [
  -- `handle_html_graph_index`
  redstoreError "librdf_iterator_get_next returned NULL" [],
  redstoreError "Failed to get URI for context node" [],
  -- `handle_text_graph_index`
  redstoreError "librdf_iterator_get_next returned NULL" [],
  redstoreError "Failed to get URI for context node" [],
  -- `handle_graph_index`
  pageSite .error "Failed to get list of graphs." [],
  pageSite .info "No acceptable format supported." []]

/-- The calls in `description.c`. -/
def descriptionSites : List LogSite := [
  -- `sd_get_endpoint_node`
  redstoreError "Failed to create request_uri" [],
  redstoreError "Failed to create endpoint_uri" [],
  redstoreError "Failed to create endpoint_node" [],
  -- `context_count`
  redstoreError "librdf_storage_get_contexts returned NULL" [],
  -- `sd_add_format_descriptions`
  redstoreError "Failed to create new node for format." [],
  -- `sd_add_dataset_description`
  redstoreError "Failed to create default dataset bnode - librdf_new_node returned NULL" [],
  redstoreError "Failed to create default graph bnode - librdf_new_node returned NULL" [],
  -- `create_service_description`
  redstoreError "Failed to create model for service description." [],
  redstoreError "Failed to create service description bnode - librdf_new_node returned NULL" [],
  -- `handle_description_get`
  redstoreError "Failed to create temporary storage for service description." [],
  redstoreError "Failed to create model for service description." [],
  redstoreError "Failed to create stream for service description." [],
  redstoreError "Failed to create temporary storage for service description." []]

/-- The calls in `redstore.c`. -/
def redstoreSites : List LogSite := [
  -- `request_log`
  redstoreInfo "%s - %s %s" [.string, .string, .string],
  -- `redland_log_handler`
  redstoreError "raptor_new_stringbuffer returned NULL" [],
  -- `handle_not_found`
  pageSite .debug "Unsupported path." []]

/-- The places that a request can come to.  Those of the start of the program and of its signals
are not among them. -/
def logSites : List LogSite :=
  utilsSites ++ pagesSites ++ dataSites ++ updateSites ++ querySites ++ formattersSites ++
    graphsSites ++ descriptionSites ++ redstoreSites

/-- The arguments of a place match its format. -/
def LogSite.FormatMatched (site : LogSite) : Prop :=
  conversions (directives (bytesOf site.format)) = site.arguments.map some

lemma LogSite.formatMatched_ofList {callee : FormatFunction} {level : Option LogLevel}
    {format : List Char} {arguments : List ArgKind}
    (h : conversions (directives (format.map ch)) = arguments.map some) :
    LogSite.FormatMatched ⟨callee, level, String.ofList format, arguments⟩ := by
  rw [LogSite.FormatMatched, bytesOf_ofList]
  exact h

/-- Every format that is a literal is matched by the arguments next to it. -/
lemma formatMatched_of_mem : ∀ site ∈ logSites, site.FormatMatched := by
  simp only [logSites, utilsSites, pagesSites, dataSites, updateSites, querySites,
    formattersSites, graphsSites, descriptionSites, redstoreSites, redstoreDebug, redstoreInfo,
    redstoreError, pageSite, List.forall_mem_append, List.forall_mem_cons, List.not_mem_nil,
    false_implies, implies_true, and_true]
  and_intros <;> exact LogSite.formatMatched_ofList (by decide +kernel)

/-! ### The calls of a request -/

/-- A call of one of the two functions: at one of the places, with a level and arguments, or in
`redland_log_handler`, with a message of Redland. -/
inductive LogCall where
  | site (place : LogSite) (level : LogLevel) (args : List Arg)
  | handler (m : LogMessage)

namespace LogCall

/-- The function that is called. -/
def callee : LogCall → FormatFunction
  | .site place _ _ => place.callee
  | .handler _ => .redstoreLog

/-- The level that it is called with. -/
def level : LogCall → LogLevel
  | .site _ level _ => level
  | .handler m => m.level

/-- The format that it is called with. -/
def format : LogCall → List UInt8
  | .site place _ _ => bytesOf place.format
  | .handler m => m.message.bytes

/-- The arguments behind the format. -/
def args : LogCall → List Arg
  | .site _ _ args => args
  | .handler _ => []

/-- The strings that are there to be printed. -/
def supplied : LogCall → List CString
  | .site _ _ args => args.filterMap Arg.asString
  | .handler m => [m.message]

/-- The message of Redland that a call is for. -/
def message : LogCall → Option LogMessage
  | .site _ _ _ => none
  | .handler m => some m

/-- What is printed by a call, or put into its page. -/
def printed (v : Verbosity) (tm : Tm) (call : LogCall) : Option (List UInt8) :=
  match call.callee with
  | .redstoreLog => redstoreLog v tm call.level call.format call.args
  | .redstorePageNewWithMessage => pageMessage call.format call.args

/-- A page always shows its message, the log only at some levels. -/
def Shown (v : Verbosity) (call : LogCall) : Prop :=
  call.callee = .redstoreLog → v.shows call.level = true

/-- The format of a call is matched by its arguments, and where it is shown, what is printed has
the strings in it as they are. -/
structure Sound (v : Verbosity) (tm : Tm) (call : LogCall) : Prop where
  matched : Matched call.format call.args
  verbatim : call.Shown v → ∃ text, call.printed v tm = some text ∧
    ∀ s ∈ call.supplied, s.bytes <:+: text

/-- What a call shows is short enough for an `int`. -/
def Fits (v : Verbosity) (call : LogCall) : Prop :=
  call.Shown v → textLength (directives call.format) call.args < intRange

end LogCall

/-- A message has percent signs in pairs only, and none at all where it is shown. -/
structure Harmless (v : Verbosity) (m : LogMessage) : Prop where
  paired : PercentsPaired m.message.bytes
  plain : v.shows m.level = true → ch '%' ∉ m.message.bytes

/-- The messages of Redland while a request is served. -/
def loggedWhile (w : World T R σ) (c : Conn (App σ)) : List LogMessage :=
  (stateOf (handleRequest w { c with app := { c.app with logged := [] } })).app.logged

/-- The calls that a request may cause: one in `redland_log_handler` for every message of
Redland, and among them any number at the places, with such arguments as there are. -/
structure CausedBy (w : World T R σ) (c : Conn (App σ)) (calls : List LogCall) : Prop where
  handled : calls.filterMap LogCall.message = loggedWhile w c
  placed : ∀ place level args, LogCall.site place level args ∈ calls →
    place ∈ logSites ∧ (∀ l ∈ place.level, l = level) ∧ args.map Arg.kind = place.arguments

/-! ### Which of them are sound -/

section Calls

variable {v : Verbosity} {tm : Tm} {call : LogCall}

/-- What is shown of a call has the text in it that its format makes. -/
lemma LogCall.printed_eq (hshown : call.Shown v) (tm : Tm) :
    ∃ front back, ch '%' ∉ front ∧ ch '%' ∉ back ∧
      call.printed v tm =
        (vprintf call.format call.args).map fun text => front ++ text ++ back := by
  rw [LogCall.printed]
  cases hcallee : call.callee with
  | redstoreLog =>
    have htag : ∀ level, ch '%' ∉ bytesOf (levelTag level) := by
      rintro (_ | _ | _ | _ | _ | _) <;> decide
    have hblanks : ch '%' ∉ bytesOf "  " := by decide
    refine ⟨bytesOf (levelTag call.level) ++ ctime tm ++ bytesOf "  ", bytesOf "\n", ?_, by decide,
      if_pos (hshown hcallee)⟩
    simp [htag, hblanks, percent_not_mem_ctime]
  | redstorePageNewWithMessage =>
    refine ⟨[], [], List.not_mem_nil, List.not_mem_nil, ?_⟩
    simp [pageMessage]

/-- A sound call fits. -/
lemma LogCall.Sound.fits (h : call.Sound v tm) : call.Fits v := by
  intro hshown
  obtain ⟨front, back, -, -, hprinted⟩ := LogCall.printed_eq hshown tm
  obtain ⟨whole, hwhole, -⟩ := h.verbatim hshown
  rw [hprinted, Option.map_eq_some_iff] at hwhole
  obtain ⟨text, htext, -⟩ := hwhole
  exact (vprintf_of_matched h.matched htext).1

/-- A call that is matched and fits is sound if the text of its format has the strings in it. -/
lemma LogCall.sound_of_fits (hmatched : Matched call.format call.args) (hfits : call.Fits v)
    (hsupplied : call.Shown v → ∀ text, vprintf call.format call.args = some text →
      ∀ s ∈ call.supplied, s.bytes <:+: text) : call.Sound v tm where
  matched := hmatched
  verbatim hshown := by
    obtain ⟨front, back, -, -, hprinted⟩ := LogCall.printed_eq hshown tm
    obtain ⟨text, htext⟩ := exists_vprintf hmatched (hfits hshown)
    refine ⟨front ++ text ++ back, by rw [hprinted, htext]; rfl, fun s hs => ?_⟩
    exact (hsupplied hshown text htext s hs).trans ⟨front, back, rfl⟩

/-- A call at one of the places is sound if it fits. -/
lemma sound_site {place : LogSite} {level : LogLevel} {args : List Arg}
    (hplace : place ∈ logSites) (hargs : args.map Arg.kind = place.arguments)
    (hfits : (LogCall.site place level args).Fits v) :
    (LogCall.site place level args).Sound v tm := by
  have hmatched : Matched (bytesOf place.format) args := by
    rw [Matched, formatMatched_of_mem place hplace, ← hargs, List.map_map]
    rfl
  refine LogCall.sound_of_fits hmatched hfits fun _ text htext s hs => ?_
  obtain ⟨arg, harg, hstring⟩ := List.mem_filterMap.mp hs
  have hverbatim := (vprintf_of_matched hmatched htext).2 arg harg
  cases arg with
  | string str =>
    obtain rfl : str = some s := hstring
    exact hverbatim
  | int n => cases hstring

/-- A call with a message of Redland is sound if the message is harmless and the call fits. -/
lemma sound_handler_iff {m : LogMessage} : (LogCall.handler m).Sound v tm ↔
    Harmless v m ∧ (LogCall.handler m).Fits v := by
  constructor
  · intro h
    have hpaired : PercentsPaired m.message.bytes := matched_nil_iff.mp h.matched
    refine ⟨⟨hpaired, fun hshows => ?_⟩, h.fits⟩
    have hshown : (LogCall.handler m).Shown v := fun _ => hshows
    obtain ⟨front, back, hfront, hback, hprinted⟩ := LogCall.printed_eq hshown tm
    obtain ⟨whole, hwhole, hverbatim⟩ := h.verbatim hshown
    rw [hprinted, Option.map_eq_some_iff] at hwhole
    obtain ⟨text, htext, rfl⟩ := hwhole
    exact not_mem_of_verbatim hpaired (expand_of_vprintf htext).1 hfront hback
      (hverbatim m.message (List.mem_singleton.mpr rfl))
  · rintro ⟨hharmless, hfits⟩
    refine LogCall.sound_of_fits (matched_nil_iff.mpr hharmless.paired) hfits
      fun hshown text htext s hs => ?_
    obtain rfl : s = m.message := List.mem_singleton.mp hs
    have hexpand := (expand_of_vprintf htext).1
    rw [LogCall.format, expand_of_not_mem (hharmless.plain (hshown rfl)), Option.some.injEq]
      at hexpand
    exact hexpand ▸ List.infix_rfl

end Calls

/-- All calls of a request are sound exactly if every message of Redland is harmless and no text
is too long for an `int`. -/
theorem logCalls_sound_iff {w : World T R σ} {c : Conn (App σ)} {calls : List LogCall}
    {v : Verbosity} {tm : Tm} (h : CausedBy w c calls) :
    (∀ call ∈ calls, call.Sound v tm) ↔
      (∀ m ∈ loggedWhile w c, Harmless v m) ∧ ∀ call ∈ calls, call.Fits v := by
  have hmem : ∀ m, m ∈ loggedWhile w c ↔ LogCall.handler m ∈ calls := by
    intro m
    rw [← h.handled, List.mem_filterMap]
    constructor
    · rintro ⟨call, hcall, hmessage⟩
      cases call with
      | site place level args => cases hmessage
      | handler m' =>
        obtain rfl : m' = m := Option.some.inj hmessage
        exact hcall
    · exact fun hcall => ⟨_, hcall, rfl⟩
  constructor
  · intro hsound
    refine ⟨fun m hm => ?_, fun call hcall => (hsound call hcall).fits⟩
    exact (sound_handler_iff.mp (hsound _ ((hmem m).mp hm))).1
  · rintro ⟨hharmless, hfits⟩ call hcall
    cases call with
    | site place level args =>
      obtain ⟨hplace, -, hargs⟩ := h.placed place level args hcall
      exact sound_site hplace hargs (hfits _ hcall)
    | handler m => exact sound_handler_iff.mpr ⟨hharmless m ((hmem m).mpr hcall), hfits _ hcall⟩

/-! ### Two queries -/

/-- The world in memory, with a query language that has no queries. -/
def quotingWorld : World CString Unit MemoryStore :=
  { memoryWorld with
    newQuery := fun _ query store => ⟨false, store,
      [{ level := .error, message := CString.lit "syntax error near " ++ query }]⟩ }

/-- A query that is waiting to be read. -/
def quotedConn (query : String) : Conn (App MemoryStore) :=
  ⟨localRequest (plainInput "GET" ("/query?query=" ++ query)), emptyApp⟩

/-- The message for a query. -/
def quotedQuery (query : String) : LogMessage :=
  { level := .error, message := CString.lit "syntax error near " ++ CString.lit query }

/-- The calls that it causes. -/
def queryCalls (query : String) : List LogCall := [
  .site (redstoreInfo "%s - %s %s" [.string, .string, .string]) .info
    [.string (CString.lit "127.0.0.1"), .string (CString.lit "GET"),
      .string (CString.lit "/query")],
  .site (redstoreDebug "query_lang='%s'" [.string]) .debug [.string defaultQueryLanguage],
  .site (redstoreDebug "query_string='%s'" [.string]) .debug [.string (CString.lit query)],
  .handler (quotedQuery query),
  .site (pageSite .error "There was an error while creating the query." []) .error [],
  .site (redstoreDebug "Using default format: %s" [.string]) .debug
    [.string (CString.lit "text/plain")],
  .site ⟨.redstoreLog, none, "Response: %s - %s", [.string, .string]⟩ .error
    [.string (CString.lit "Internal Server Error"),
      .string (CString.lit "There was an error while creating the query.")]]

lemma causedBy_queryCalls {escaped query : String}
    (h : loggedWhile quotingWorld (quotedConn escaped) = [quotedQuery query]) :
    CausedBy quotingWorld (quotedConn escaped) (queryCalls query) where
  handled := h.symm
  placed := by
    intro place level args hcall
    simp only [queryCalls, List.mem_cons, LogCall.site.injEq, reduceCtorEq, List.not_mem_nil,
      or_false, false_or] at hcall
    rcases hcall with ⟨rfl, rfl, rfl⟩ | ⟨rfl, rfl, rfl⟩ | ⟨rfl, rfl, rfl⟩ | ⟨rfl, rfl, rfl⟩ |
      ⟨rfl, rfl, rfl⟩ | ⟨rfl, rfl, rfl⟩
    · exact ⟨by simp [logSites, redstoreSites], by simp [redstoreInfo], rfl⟩
    · exact ⟨by simp [logSites, querySites], by simp [redstoreDebug], rfl⟩
    · exact ⟨by simp [logSites, querySites], by simp [redstoreDebug], rfl⟩
    · exact ⟨by simp [logSites, querySites], by simp [pageSite], rfl⟩
    · exact ⟨by simp [logSites, utilsSites], by simp [redstoreDebug], rfl⟩
    · exact ⟨by simp [logSites, pagesSites], by simp, rfl⟩

/-- The calls of a query without percent signs are sound. -/
theorem logCalls_sound_query : CausedBy quotingWorld (quotedConn "ask") (queryCalls "ask") ∧
    ∀ call ∈ queryCalls "ask", call.Sound ⟨true, false⟩ ⟨0, 0, 0, 1, 0, 2011, 6⟩ := by
  have hlogged : loggedWhile quotingWorld (quotedConn "ask") = [quotedQuery "ask"] := by
    decide +kernel
  have hcaused := causedBy_queryCalls hlogged
  refine ⟨hcaused, (logCalls_sound_iff hcaused).mpr ⟨?_, ?_⟩⟩
  · simp only [hlogged, List.forall_mem_singleton]
    exact ⟨matched_nil_iff.mp (by decide), fun _ => by decide⟩
  · simp only [queryCalls, List.forall_mem_cons]
    exact ⟨fun _ => by decide, fun _ => by decide, fun _ => by decide, fun _ => by decide,
      fun _ => by decide, fun _ => by decide, fun _ => by decide, by simp⟩

/-- The message for a query that is `%s` takes an argument that is not there. -/
theorem logCalls_unsound_query : CausedBy quotingWorld (quotedConn "%25s") (queryCalls "%s") ∧
    ∀ v tm, ¬ ∀ call ∈ queryCalls "%s", call.Sound v tm := by
  have hlogged : loggedWhile quotingWorld (quotedConn "%25s") = [quotedQuery "%s"] := by
    decide +kernel
  refine ⟨causedBy_queryCalls hlogged, fun v tm hsound => ?_⟩
  have hmatched := (hsound (.handler (quotedQuery "%s")) (by simp [queryCalls])).matched
  exact absurd hmatched (by decide)

end RedStore.Service
