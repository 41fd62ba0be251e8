/-
Where the redirect of `remove_trailing_slash` leads.

The handler looks at the path as it has been decoded, and the path without its slash becomes the
value of a Location header as it is.  A client takes the value for a reference: it stops at the
end of the line, splits at question marks and hashes, finds a host behind two slashes and
resolves dot segments, and what it asks for is decoded once more.
-/
import RedStore.Service.HeaderIntegrity
import RedStore.Service.IndexLinks

namespace RedStore.Service
open CLib RedHttp Rfc3986

variable {T R σ : Type}

/-! ### What a client makes of a redirect -/

/-- White space around the value of a header. -/
def isBlank (c : UInt8) : Bool := c == ch ' ' || c == ch '\t'

/-- The value on the line that is printed for a header: what stands behind the colon, without
the white space around it. -/
def fieldValue (it : Header) : List UInt8 :=
  ((((printHeader it).drop (it.key.strlen + 1)).takeWhile fun c => decide (LineByte c)).dropWhile
    isBlank).rdropWhile isBlank

/-- The Location value of a response, as it is sent. -/
def locationOf (response : Response) : Option (List UInt8) :=
  (response.headers.find? fun it => sameKey HeaderName.location.1 it.key).map fieldValue

/-- A client that follows a response from a URL stays on the host, and what it asks for next is
a request for the path. -/
def FollowedTo (base : CString) (again : Request) (response : Response) (path : CString) : Prop :=
  ∃ location r', locationOf response = some location ∧
    (parse (resolve base.bytes location)).scheme = (parse base.bytes).scheme ∧
    (parse (resolve base.bytes location)).authority = (parse base.bytes).authority ∧
    redhttpRequestSetPathAndQuery (some (getTarget (parse (resolve base.bytes location)))) again =
      .ok () r' ∧
    r'.path = some path

/-- There is memory for the redirect from a path, and room for the terminator that is stored
behind the copy of the path. -/
structure RedirectFits (w : World T R σ) (path : CString) : Prop where
  copy : w.heap.malloc path.strlen = true
  terminator : w.slack path.strlen = true
  message : w.heap.malloc ((redirectMessage (withoutSlash path)).length + 1) = true
  range : (errorPageText .movedPermanently (redirectMessage (withoutSlash path))).length < intRange
  page : w.heap.malloc
    ((errorPageText .movedPermanently (redirectMessage (withoutSlash path))).length + 1) = true

/-- The redirect as it should be: the path is read inside, and if it ends in a slash, a client
is led to the path without it. -/
structure SlashRemoved (w : World T R σ) (base : CString) (again : Request)
    (c : Conn (App σ)) (path : CString) : Prop where
  inside : ∀ c', removeTrailingSlash w c ≠ .error .outOfBounds c'
  redirected : path.bytes.getLast? = some (ch '/') → RedirectFits w path →
    ∃ response c', removeTrailingSlash w c = .ok (some response) c' ∧
      FollowedTo base again response (withoutSlash path)

/-- A path that can be written as the value of a Location header as it is. -/
structure OwnReference (path : CString) : Prop where
  slash : path.bytes.head? = some (ch '/')
  host : ∀ rest, path.bytes ≠ ch '/' :: ch '/' :: rest
  question : ch '?' ∉ path.bytes
  hash : ch '#' ∉ path.bytes
  dots : removeDotSegments path.bytes = path.bytes
  decoded : Undecoded path.bytes
  line : SingleLine path
  blank : ∀ c ∈ path.bytes.getLast?, isBlank c = false

/-! ### The value that is sent -/

lemma rdropWhile_cons_of_neg {p : UInt8 → Bool} {c : UInt8} (h : p c = false)
    (s : List UInt8) : (c :: s).rdropWhile p = c :: s.rdropWhile p := by
  rw [List.rdropWhile, List.reverse_cons, dropWhile_append_of_head (by simp [h]),
    List.reverse_append]
  rfl

section Value

variable {key : CString} {value : Option CString}

lemma fieldValue_eq (key : CString) (value : Option CString) :
    fieldValue ⟨key, value⟩ =
      (((value.elim (bytesOf "(null)") CString.bytes).takeWhile fun c =>
        decide (LineByte c)).dropWhile isBlank).rdropWhile isBlank := by
  set text := value.elim (bytesOf "(null)") CString.bytes with htext
  have hprint : printHeader ⟨key, value⟩ =
      (key.bytes ++ bytesOf ":") ++ (ch ' ' :: (text ++ bytesOf "\r\n")) := by
    simp [printHeader, htext, bytesOf]
  have hdrop : (printHeader ⟨key, value⟩).drop (key.strlen + 1) =
      ch ' ' :: (text ++ bytesOf "\r\n") := by
    rw [hprint]
    exact List.drop_left' (by simp [CString.strlen, bytesOf])
  have hend : ∀ c ∈ (bytesOf "\r\n").head?, decide (LineByte c) = false := by
    rintro _ ⟨⟩
    decide
  rw [fieldValue, hdrop, List.takeWhile_cons_of_pos (by decide), takeWhile_append_of_head hend,
    List.dropWhile_cons_of_pos (by decide)]

/-- A value that starts with a slash is cut at the end of its line, and then behind its last
character that is not a blank. -/
lemma fieldValue_of_slash {v : CString} {s : List UInt8} (h : v.bytes = ch '/' :: s) :
    fieldValue ⟨key, some v⟩ =
      ch '/' :: (s.takeWhile fun c => decide (LineByte c)).rdropWhile isBlank := by
  rw [fieldValue_eq, Option.elim_some, h, List.takeWhile_cons_of_pos (by decide),
    List.dropWhile_cons_of_neg (by decide), rdropWhile_cons_of_neg (by decide)]

/-- A value is sent whole if it stays on its line and ends in no blank. -/
lemma fieldValue_of_line {v : CString} (hslash : v.bytes.head? = some (ch '/'))
    (hline : SingleLine v) (hblank : ∀ c ∈ v.bytes.getLast?, isBlank c = false) :
    fieldValue ⟨key, some v⟩ = v.bytes := by
  have htake : v.bytes.takeWhile (fun c => decide (LineByte c)) = v.bytes :=
    List.takeWhile_eq_self_iff.mpr fun c hc => decide_eq_true (hline c hc)
  have hdrop : v.bytes.dropWhile isBlank = v.bytes := by
    obtain ⟨s, hs⟩ := List.head?_eq_some_iff.mp hslash
    rw [hs, List.dropWhile_cons_of_neg (by decide)]
  rw [fieldValue_eq, Option.elim_some, htake, hdrop, List.rdropWhile_eq_self_iff]
  intro hne
  simpa using hblank _ (List.getLast?_eq_some_getLast hne)

/-- Only such a value is sent whole. -/
lemma line_of_fieldValue {v : CString} {s : List UInt8} (h : v.bytes = ch '/' :: s)
    (hlength : s.length ≤ ((s.takeWhile fun c => decide (LineByte c)).rdropWhile isBlank).length) :
    SingleLine v ∧ ∀ c ∈ v.bytes.getLast?, isBlank c = false := by
  have hcut := List.rdropWhile_prefix isBlank (s.takeWhile fun c => decide (LineByte c))
  have htake : s.takeWhile (fun c => decide (LineByte c)) = s :=
    (List.takeWhile_prefix _).eq_of_length_le (hlength.trans hcut.length_le)
  rw [htake] at hcut hlength
  have hkept := hcut.eq_of_length_le hlength
  constructor
  · rw [SingleLine, h, List.forall_mem_cons]
    exact ⟨by decide, fun c hc => of_decide_eq_true (List.takeWhile_eq_self_iff.mp htake c hc)⟩
  · intro c hc
    have hwhole : (ch '/' :: s).rdropWhile isBlank = ch '/' :: s := by
      rw [rdropWhile_cons_of_neg (by decide), hkept]
    rw [h, List.getLast?_eq_some_getLast (List.cons_ne_nil _ _), Option.mem_some_iff] at hc
    rw [← hc]
    simpa using List.rdropWhile_eq_self_iff.mp hwhole (List.cons_ne_nil _ _)

end Value

/-! ### The handler -/

section Handler

variable {w : World T R σ} {c : Conn (App σ)} {path : CString}

lemma removeTrailingSlash_of_ok {response : Option Response} (hpath : c.request.path = some path)
    (h : trailingSlashResponse w path = .ok response) :
    removeTrailingSlash w c = .ok response c := by
  rw [removeTrailingSlash, bind_of_ok (get_apply _), hpath]
  simp only [h, ofExcept_ok]

lemma removeTrailingSlash_of_error {e : Fault} (hpath : c.request.path = some path)
    (h : trailingSlashResponse w path = .error e) : removeTrailingSlash w c = .error e c := by
  rw [removeTrailingSlash, bind_of_ok (get_apply _), hpath]
  simp only [h, ofExcept_error]

/-- The path is read outside exactly if it is empty. -/
lemma removeTrailingSlash_inside_iff (hpath : c.request.path = some path) :
    (∀ c', removeTrailingSlash w c ≠ .error .outOfBounds c') ↔ path.bytes ≠ [] := by
  cases hlast : path.bytes.getLast? with
  | none =>
    have hread : trailingSlashResponse w path = .error .outOfBounds := by
      rw [trailingSlashResponse, hlast]
    exact iff_of_false (fun h => h c (removeTrailingSlash_of_error hpath hread))
      (not_not_intro (List.getLast?_eq_none_iff.mp hlast))
  | some last =>
    have hread : trailingSlashResponse w path ≠ .error .outOfBounds := by
      rw [trailingSlashResponse, hlast]
      dsimp only
      split_ifs <;> simp
    refine iff_of_true (fun c' hrun => ?_) fun hnil => by simp [hnil] at hlast
    cases hresponse : trailingSlashResponse w path with
    | ok response =>
      rw [removeTrailingSlash_of_ok hpath hresponse] at hrun
      cases hrun
    | error e =>
      rw [removeTrailingSlash_of_error hpath hresponse] at hrun
      cases hrun
      exact hread hresponse

/-- With memory for it the redirect is made, and its Location header is the path without its
slash. -/
lemma removeTrailingSlash_of_fits (hpath : c.request.path = some path)
    (hslash : path.bytes.getLast? = some (ch '/')) (hfits : RedirectFits w path) :
    ∃ response, removeTrailingSlash w c = .ok (some response) c ∧
      locationOf response =
        some (fieldValue ⟨HeaderName.location.1, storedValue (some (withoutSlash path))⟩) := by
  have hpos : ¬ snprintfLength
      (errorPageText .movedPermanently (redirectMessage (withoutSlash path))) ≤ 0 := by
    have hne := List.length_pos_of_ne_nil
      (errorPageText_ne_nil .movedPermanently (redirectMessage (withoutSlash path)))
    rw [snprintfLength, if_pos hfits.range]
    omega
  obtain ⟨page, hpage⟩ : ∃ page, redhttpResponseNewErrorPage w.heap .movedPermanently
      (redirectMessage (withoutSlash path)) = some page := by
    simp [redhttpResponseNewErrorPage, hpos, hfits.page]
  refine ⟨redhttpResponseAddHeader page HeaderName.location (some (withoutSlash path)), ?_, ?_⟩
  · have hredirect : redhttpResponseNewRedirect w.heap (withoutSlash path) .movedPermanently =
        some (redhttpResponseAddHeader page HeaderName.location (some (withoutSlash path))) := by
      rw [redhttpResponseNewRedirect, if_pos hfits.message, hpage]
      rfl
    refine removeTrailingSlash_of_ok hpath ?_
    rw [trailingSlashResponse, hslash]
    simp only [hfits.copy, hfits.terminator, if_true]
    exact congrArg Except.ok hredirect
  · rw [locationOf, redhttpResponseAddHeader, (errorPage_spec hpage).2]
    rfl

end Handler

/-! ### The request that follows -/

section Followed

variable {base path : CString} {again : Request} {response : Response}

lemma length_getPath_le (url : Reference) : (getPath url).length ≤ max 1 url.path.length := by
  rw [getPath]
  split
  · exact le_max_left _ _
  · exact le_max_right _ _

lemma head_unescaped_of_slash {s : List UInt8} (h : s.head? = some (ch '/')) :
    (unescaped s).bytes.head? = some (ch '/') := by
  obtain ⟨rest, rfl⟩ := List.head?_eq_some_iff.mp h
  rfl

lemma head_getPath {url : Reference} (h : url.Hierarchical) :
    (getPath url).head? = some (ch '/') := by
  rw [getPath]
  split
  · rfl
  · next hne => exact h.path.resolve_left hne

lemma nul_free_fieldValue (key : CString) (value : Option CString) :
    ∀ c ∈ fieldValue ⟨key, value⟩, c ≠ 0 := by
  have htext : ∀ c ∈ value.elim (bytesOf "(null)") CString.bytes, c ≠ 0 := by
    cases value with
    | none => exact forall_mem_of_all (by decide)
    | some v => exact fun c hc h => v.nul_free (h ▸ hc)
  intro c hc
  rw [fieldValue_eq] at hc
  have hkept := (List.dropWhile_suffix _).subset ((List.rdropWhile_prefix _ _).subset hc)
  exact htext c ((List.takeWhile_prefix _).subset hkept)

/-- A redirect with a Location value leads to the path exactly if the value refers to the host of
the base, and its path there decodes to the path. -/
lemma followedTo_iff {location : List UInt8} (hscheme : (parse base.bytes).scheme.isSome = true)
    (hauthority : (parse base.bytes).authority.isSome = true)
    (hlocation : locationOf response = some location) (hnul : ∀ c ∈ location, c ≠ 0) :
    FollowedTo base again response path ↔
      (parse (resolve base.bytes location)).scheme = (parse base.bytes).scheme ∧
      (parse (resolve base.bytes location)).authority = (parse base.bytes).authority ∧
      KeysNonEmpty ((parse (resolve base.bytes location)).query.getD []) ∧
      unescaped (getPath (parse (resolve base.bytes location))) = path := by
  have h0 := nul_not_mem_target (forall_mem_resolve (p := (· ≠ 0)) (forall_mem_of_all (by decide))
    (fun c hc h => base.nul_free (h ▸ hc)) hnul)
  have hurl : (parse (resolve base.bytes location)).scheme = (parse base.bytes).scheme →
      (parse (resolve base.bytes location)).authority = (parse base.bytes).authority →
      (parse (resolve base.bytes location)).Hierarchical := fun hs ha =>
    hierarchical_parse (hs ▸ hscheme) (ha ▸ hauthority)
  constructor
  · rintro ⟨location', r', hlocation', hs, ha, hset, hpath⟩
    obtain rfl : location = location' := Option.some.inj (hlocation.symm.trans hlocation')
    have hu := hurl hs ha
    have hkeys : KeysNonEmpty (queryBytes (getTarget (parse (resolve base.bytes location)))) := by
      by_contra hkeys
      obtain ⟨r'', hr''⟩ := setPathAndQuery_of_not_keys hkeys again
      rw [hr''] at hset
      cases hset
    rw [setPathAndQuery_of_keys hkeys, EStateM.Result.ok.injEq] at hset
    rw [← hset.2] at hpath
    refine ⟨hs, ha, queryBytes_getTarget hu h0 ▸ hkeys, ?_⟩
    exact (takeWhile_getTarget hu h0).symm.trans (Option.some.inj hpath)
  · rintro ⟨hs, ha, hkeys, hpath⟩
    have hu := hurl hs ha
    refine ⟨location, _, hlocation, hs, ha,
      setPathAndQuery_of_keys (queryBytes_getTarget hu h0 ▸ hkeys) again, ?_⟩
    exact congrArg some ((takeWhile_getTarget hu h0).trans hpath)

/-- A path that can be written as it is refers to itself. -/
lemma followedTo_of_ownReference (hscheme : (parse base.bytes).scheme.isSome = true)
    (hauthority : (parse base.bytes).authority.isSome = true) (h : OwnReference path)
    (hlocation : locationOf response =
      some (fieldValue ⟨HeaderName.location.1, storedValue (some path)⟩)) :
    FollowedTo base again response path := by
  obtain ⟨s, hs⟩ := List.head?_eq_some_iff.mp h.slash
  have hstored : storedValue (some path) = some path :=
    Option.filter_eq_some_iff.mpr ⟨rfl, by simp [CString.strlen, hs]⟩
  have hvalue : fieldValue ⟨HeaderName.location.1, some path⟩ = path.bytes :=
    fieldValue_of_line h.slash h.line h.blank
  rw [hstored, hvalue, hs] at hlocation
  have hnone : (parse (ch '/' :: s)).authority = none :=
    authority_parse_of_slash_iff.mpr fun rest hrest => h.host rest (hs.trans (congrArg _ hrest))
  have hfront : ch '/' :: hierarchical s = ch '/' :: s := by
    rw [← hierarchical_cons_slash, ← hs, hierarchical, upTo_eq_self h.hash, upTo_eq_self h.question]
  have hquery : (parse (ch '/' :: s)).query = none := by
    show behind (ch '?') (upTo (ch '#') (ch '/' :: s)) = none
    rw [← hs, upTo_eq_self h.hash, behind_of_not_mem h.question]
  have hdots : removeDotSegments (ch '/' :: s) = ch '/' :: s := hs ▸ h.dots
  have hparts := parse_resolve_of_slash hscheme hauthority s
  rw [hnone, path_parse_of_slash hnone, hfront, hdots] at hparts
  refine (followedTo_iff hscheme hauthority hlocation fun c hc => ?_).mpr ?_
  · rintro rfl
    exact path.nul_free (hs ▸ hc)
  · rw [hparts]
    refine ⟨rfl, Option.none_or, by simp [hquery, KeysNonEmpty, argumentSegments_nil], ?_⟩
    rw [getPath, if_neg (List.cons_ne_nil _ _), ← hs]
    exact (unescaped_eq_self_iff path).mpr h.decoded

/-- Only such a path does. -/
lemma ownReference_of_followedTo (hscheme : (parse base.bytes).scheme.isSome = true)
    (hauthority : (parse base.bytes).authority.isSome = true)
    (hlocation : locationOf response =
      some (fieldValue ⟨HeaderName.location.1, storedValue (some path)⟩))
    (hfollowed : FollowedTo base again response path) : OwnReference path := by
  have hnul := nul_free_fieldValue HeaderName.location.1 (storedValue (some path))
  obtain ⟨location, hvalue⟩ : ∃ location,
      fieldValue ⟨HeaderName.location.1, storedValue (some path)⟩ = location := ⟨_, rfl⟩
  rw [hvalue] at hlocation hnul
  obtain ⟨hs, ha, -, hpath⟩ := (followedTo_iff hscheme hauthority hlocation hnul).mp hfollowed
  -- what is asked for starts with a slash
  have hslash : path.bytes.head? = some (ch '/') := by
    rw [← hpath]
    refine head_unescaped_of_slash (head_getPath (hierarchical_parse ?_ ?_))
    · rw [hs, hscheme]
    · rw [ha, hauthority]
  obtain ⟨s, hbytes⟩ := List.head?_eq_some_iff.mp hslash
  have hstored : storedValue (some path) = some path :=
    Option.filter_eq_some_iff.mpr ⟨rfl, by simp [CString.strlen, hbytes]⟩
  obtain ⟨sent, hsent⟩ : ∃ sent,
      (s.takeWhile fun c => decide (LineByte c)).rdropWhile isBlank = sent := ⟨_, rfl⟩
  rw [hstored, fieldValue_of_slash hbytes, hsent] at hvalue
  subst hvalue
  have hparts := parse_resolve_of_slash hscheme hauthority sent
  have hupath : (parse (resolve base.bytes (ch '/' :: sent))).path =
      removeDotSegments (parse (ch '/' :: sent)).path := by rw [hparts]
  -- nothing is longer than what it has been made of, so nothing has been changed
  have hcut : sent <+: s := by
    rw [← hsent]
    exact (List.rdropWhile_prefix _ _).trans (List.takeWhile_prefix _)
  have hlong : s.length + 1 ≤ max 1 (removeDotSegments (parse (ch '/' :: sent)).path).length := by
    have hdecoded := length_unescaped_le (getPath (parse (resolve base.bytes (ch '/' :: sent))))
    have hget := length_getPath_le (parse (resolve base.bytes (ch '/' :: sent)))
    rw [hpath, hbytes, List.length_cons] at hdecoded
    rw [hupath] at hget
    exact hdecoded.trans hget
  obtain ⟨hown, hwhole, hdots⟩ := own_path_of_length
    ((Nat.succ_le_succ hcut.length_le).trans hlong)
  have hsame : removeDotSegments (parse (ch '/' :: sent)).path = ch '/' :: sent := by
    rw [path_parse_of_slash hown, ← hierarchical_cons_slash, hwhole, hdots]
  obtain rfl : sent = s := by
    refine hcut.eq_of_length_le ?_
    rw [hsame, List.length_cons] at hlong
    omega
  obtain ⟨hline, hblank⟩ := line_of_fieldValue hbytes (hsent.symm ▸ le_rfl)
  obtain ⟨hquestion, hhash⟩ := not_mem_hierarchical (ch '/' :: sent)
  rw [hwhole] at hquestion hhash
  refine ⟨hslash, fun rest hrest => ?_, hbytes ▸ hquestion, hbytes ▸ hhash, hbytes ▸ hdots, ?_,
    hline, hblank⟩
  · exact authority_parse_of_slash_iff.mp hown rest (List.cons.inj (hbytes.symm.trans hrest)).2
  · rw [getPath, hupath, hsame, if_neg (List.cons_ne_nil _ _), ← hbytes] at hpath
    exact (unescaped_eq_self_iff path).mp hpath

end Followed

/-! ### When the redirect is to the same resource -/

section Redirect

variable {w : World T R σ} {target base path : CString} {r again : Request} {c : Conn (App σ)}

lemma path_of_setPathAndQuery
    (h : redhttpRequestSetPathAndQuery (some target) r = .ok () c.request) :
    c.request.path = some (RedHttp.pathOf target) := by
  by_cases hkeys : KeysNonEmpty (queryBytes target)
  · rw [setPathAndQuery_of_keys hkeys, EStateM.Result.ok.injEq] at h
    rw [← h.2]
    rfl
  · obtain ⟨r', hr'⟩ := setPathAndQuery_of_not_keys hkeys r
    rw [hr'] at h
    cases h

/-- A redirect that is made leads to the path without its slash exactly if that can be written
as it is. -/
lemma redirected_iff (hscheme : (parse base.bytes).scheme.isSome = true)
    (hauthority : (parse base.bytes).authority.isSome = true)
    (hpath : c.request.path = some path) (hslash : path.bytes.getLast? = some (ch '/'))
    (hfits : RedirectFits w path) :
    (∃ response c', removeTrailingSlash w c = .ok (some response) c' ∧
      FollowedTo base again response (withoutSlash path)) ↔ OwnReference (withoutSlash path) := by
  obtain ⟨response, hrun, hlocation⟩ := removeTrailingSlash_of_fits hpath hslash hfits
  constructor
  · rintro ⟨response', c', hrun', hfollowed⟩
    obtain ⟨rfl, rfl⟩ : response = response' ∧ c = c' := by
      simpa using hrun.symm.trans hrun'
    exact ownReference_of_followedTo hscheme hauthority hlocation hfollowed
  · exact fun h => ⟨response, c, hrun, followedTo_of_ownReference hscheme hauthority h hlocation⟩

/-- The path is read inside and the redirect is to the same resource exactly if the path is not
empty and, where it is redirected, can be written without its slash as it is. -/
theorem removeTrailingSlash_slashRemoved_iff
    (hset : redhttpRequestSetPathAndQuery (some target) r = .ok () c.request)
    (hscheme : (parse base.bytes).scheme.isSome = true)
    (hauthority : (parse base.bytes).authority.isSome = true) :
    SlashRemoved w base again c (RedHttp.pathOf target) ↔
      (RedHttp.pathOf target).bytes ≠ [] ∧
        ((RedHttp.pathOf target).bytes.getLast? = some (ch '/') →
          RedirectFits w (RedHttp.pathOf target) →
            OwnReference (withoutSlash (RedHttp.pathOf target))) := by
  have hpath := path_of_setPathAndQuery hset
  constructor
  · rintro ⟨hinside, hredirected⟩
    refine ⟨(removeTrailingSlash_inside_iff hpath).mp hinside, fun hslash hfits => ?_⟩
    exact (redirected_iff hscheme hauthority hpath hslash hfits).mp (hredirected hslash hfits)
  · rintro ⟨hne, hown⟩
    refine ⟨(removeTrailingSlash_inside_iff hpath).mpr hne, fun hslash hfits => ?_⟩
    exact (redirected_iff hscheme hauthority hpath hslash hfits).mpr (hown hslash hfits)

end Redirect

/-! ### Two paths -/

/-- A host that requests are made to. -/
def localHost : CString := CString.lit "localhost:8080"

/-- The redirect from `/graphs/` is to the same resource, and there is memory for it. -/
theorem slashRemoved_graphs : ∃ r,
    redhttpRequestSetPathAndQuery (some (CString.lit "/graphs/")) (getFrom localHost) =
      .ok () r ∧
    RedirectFits memoryWorld (RedHttp.pathOf (CString.lit "/graphs/")) ∧
    SlashRemoved memoryWorld (CString.lit "http://localhost:8080/graphs/") (getFrom localHost)
      ⟨r, emptyApp⟩ (RedHttp.pathOf (CString.lit "/graphs/")) := by
  have hkeys : KeysNonEmpty (queryBytes (CString.lit "/graphs/")) := by decide
  have hset := setPathAndQuery_of_keys hkeys (getFrom localHost)
  refine ⟨_, hset, ⟨rfl, by decide, rfl, by decide +kernel, rfl⟩,
    (removeTrailingSlash_slashRemoved_iff (c := ⟨_, emptyApp⟩) hset (by decide)
      (by decide)).mpr ⟨by decide, fun _ _ => ?_⟩⟩
  refine ⟨by decide, fun rest hrest => ?_, by decide, by decide, by decide,
    (redhttpUrlUnescape_eq_self_iff _).mp (by decide), by decide, ?_⟩
  · exact absurd (List.cons.inj (List.cons.inj hrest).2).1 (by decide)
  · rintro _ ⟨⟩
    decide

/-- A question mark that was escaped in the request begins a query in the Location value. -/
theorem slashRemoved_question : ∃ r sent c',
    localExchange (plainInput "GET" "/a%3Fb/") = some (r, sent, c') ∧
      sent.status = .movedPermanently ∧ locationOf sent = some (bytesOf "/a?b") ∧
      r.path = some (CString.lit "/a?b/") ∧
      ¬ SlashRemoved memoryWorld (CString.lit "http://localhost:8080/a%3Fb/") (getFrom localHost)
        ⟨r, emptyApp⟩ (CString.lit "/a?b/") := by
  obtain ⟨⟨r, sent, c'⟩, hexchange, hrun⟩ := (Option.any_eq_true _ _).mp
    (show (localExchange (plainInput "GET" "/a%3Fb/")).any (fun it =>
      decide (it.2.1.status = .movedPermanently ∧ locationOf it.2.1 = some (bytesOf "/a?b") ∧
        it.1.path = some (CString.lit "/a?b/"))) = true by decide +kernel)
  obtain ⟨hstatus, hlocation, hpath⟩ := of_decide_eq_true hrun
  refine ⟨r, sent, c', hexchange, hstatus, hlocation, hpath, fun h => ?_⟩
  have hfits : RedirectFits memoryWorld (CString.lit "/a?b/") :=
    ⟨rfl, by decide, rfl, by decide +kernel, rfl⟩
  have hown := (redirected_iff (by decide) (by decide) hpath (by decide) hfits).mp
    (h.redirected (by decide) hfits)
  exact hown.question (by decide)

end RedStore.Service
