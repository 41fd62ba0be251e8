/-
What a request is when it comes to its handler.

The texts of a request that an answer can be made of are its target, the values of its
headers and the address of the server.  They come from the lines of the request, and so
they have no line end in them; what is decoded, the path and the arguments, may have one.
-/
import RedStore.RedHttp.PrintedHeaders

namespace RedStore.RedHttp
open CLib

/-- A URL as it is made for a request. -/
structure HttpUrl (url : CString) : Prop where
  text : SingleLine url
  start : bytesOf "http://" <+: url.bytes

/-- What stands around the target of a request stays on one line. -/
structure AroundTarget (r : Request) : Prop where
  serverAddr : SingleLine r.serverAddr
  serverPort : SingleLine r.serverPort
  headers : ∀ it ∈ r.headers, ∀ v ∈ it.value, SingleLine v
  host : ∀ host ∈ r.host, SingleLine host
  url : ∀ url ∈ r.url, HttpUrl url

/-- The texts of a request that are not decoded stay on one line. -/
structure OnLines (r : Request) : Prop extends AroundTarget r where
  pathAndQuery : ∀ target ∈ r.pathAndQuery, SingleLine target

/-- A request that has been read and not been answered. -/
structure Arrived (signature : Option CString) (r : Request) : Prop extends AroundTarget r where
  signature : r.serverSignature = signature
  unanswered : r.socket.output = []
  pathGlob : r.pathGlob = .null

lemma singleLine_append {s t : CString} (hs : SingleLine s) (ht : SingleLine t) :
    SingleLine (s ++ t) := by
  intro c hc
  rcases List.mem_append.mp hc with hc | hc
  · exact hs c hc
  · exact ht c hc

/-- A string that is cut out of some bytes stays on one line if they do. -/
lemma singleLine_ofBytes {s : List UInt8} (h : ∀ c ∈ s, LineByte c) :
    SingleLine (CString.ofBytes s) :=
  fun c hc => h c ((CString.bytes_ofBytes_sublist s).subset hc)

/-! ### The URL -/

namespace OnLines

variable {r : Request}

lemma getHeader (h : OnLines r) {key v : CString} (hv : r.getHeader key = some v) :
    SingleLine v := by
  have hget : ∀ headers : List Header, redhttpHeadersGet headers key = some v →
      ∃ it ∈ headers, v ∈ it.value := by
    intro headers
    induction headers with
    | nil => simp [redhttpHeadersGet]
    | cons it headers ih =>
      rw [redhttpHeadersGet]
      split
      · exact fun hit => ⟨it, by simp, hit⟩
      · intro hrest
        obtain ⟨it', hit', hv'⟩ := ih hrest
        exact ⟨it', by simp [hit'], hv'⟩
  obtain ⟨it, hit, hv'⟩ := hget r.headers hv
  exact h.headers it hit v hv'

lemma currentHost (h : OnLines r) : SingleLine r.currentHost := by
  rw [Request.currentHost]
  cases hhost : r.host with
  | some host => exact h.host host hhost
  | none =>
    rw [Option.getD_none, Request.computedHost]
    split
    · next host hheader => exact h.getHeader hheader
    · split
      · exact h.serverAddr
      · exact singleLine_append (singleLine_append h.serverAddr (by decide)) h.serverPort

lemma currentUrl (h : OnLines r) : ∀ url ∈ r.currentUrl, HttpUrl url := by
  intro url hurl
  rw [Request.currentUrl, Option.mem_def, Option.or_eq_some_iff] at hurl
  rcases hurl with hurl | ⟨-, hurl⟩
  · exact h.url url hurl
  · obtain ⟨target, htarget, rfl⟩ := Option.map_eq_some_iff.mp hurl
    refine ⟨singleLine_append (singleLine_append (by decide) h.currentHost)
      (h.pathAndQuery target htarget), ?_⟩
    rw [CString.bytes_append, CString.bytes_append, List.append_assoc]
    exact List.prefix_append _ _

lemma withHost (h : OnLines r) : OnLines { r with host := some r.currentHost } where
  serverAddr := h.serverAddr
  serverPort := h.serverPort
  headers := h.headers
  pathAndQuery := h.pathAndQuery
  host := by
    rintro _ ⟨⟩
    exact h.currentHost
  url := h.url

lemma withUrl (h : OnLines r) : OnLines r.withUrl where
  serverAddr := h.serverAddr
  serverPort := h.serverPort
  headers := h.headers
  pathAndQuery := h.pathAndQuery
  host := by
    intro host hhost
    simp only [Request.withUrl] at hhost
    split at hhost
    · exact h.host host hhost
    · exact Option.some.inj hhost ▸ h.currentHost
  url := h.currentUrl

end OnLines

/-! ### Reading -/

section Read

variable {heap : Heap} {signature : Option CString}

/-- The target of a request line has only bytes of its line. -/
lemma splitStatusLine_lineByte {memory : List UInt8} {parts : StatusLine}
    (hmemory : ∀ c ∈ memory, LineByte c) (h : splitStatusLine memory = .ok (some parts)) :
    SingleLine parts.pathAndQuery := by
  have hsplit : ∀ method s, (∀ c ∈ s, LineByte c) →
      SingleLine (splitTarget method s).pathAndQuery := by
    intro method s hs
    have htrim : ∀ {p : UInt8 → Bool} {t : List UInt8}, (∀ c ∈ t, LineByte c) →
        ∀ c ∈ t.rdropWhile p, LineByte c := fun ht c hc =>
      ht c ((List.rdropWhile_prefix _ _).subset hc)
    simp only [splitTarget]
    split
    · exact singleLine_ofBytes (htrim (htrim (htrim hs)))
    · exact singleLine_ofBytes (htrim hs)
  rw [splitStatusLine] at h
  split at h
  · cases h
  · next c ptr hptr =>
    split at h
    · cases h
    · next c' ptr' hptr' =>
      split_ifs at h
      · simp at h
      obtain rfl := Option.some.inj (Except.ok.inj h)
      have hptr : ∀ b ∈ ptr, b ∈ memory := fun b hb =>
        (List.dropWhile_sublist _).subset ((List.dropWhile_sublist _).subset
          (hptr ▸ List.mem_cons_of_mem _ hb))
      refine hsplit _ _ (singleLine_ofBytes fun b hb => hmemory b (hptr b ?_))
      exact (List.dropWhile_sublist _).subset (hptr' ▸ hb)

/-- A line that its first buffer is long enough for has nothing but zeros behind it. -/
lemma readLineLoop_memory {initial : ℕ} {input stored line rest : List UInt8}
    (hstored : ∀ c ∈ stored, LineByte c)
    (hshort : stored.length + (input.takeWhile (· != ch '\n')).length + 1 < initial)
    (h : readLineLoop heap initial input stored initial = .ok (some line, rest)) :
    ∀ c ∈ line, LineByte c := by
  induction input generalizing stored with
  | nil => simp [readLineLoop] at h
  | cons c input ih =>
    rw [readLineLoop] at h
    split_ifs at h with h0 hsize hnl hfull hint hmalloc
    · simp at h
    · simp only [Except.ok.injEq, Prod.mk.injEq, Option.some.injEq] at h
      rw [← h.1]
      intro b hb
      rcases List.mem_append.mp hb with hb | hb
      · exact hstored b hb
      · rcases List.mem_cons.mp hb with rfl | hb
        · decide
        · obtain ⟨i, -, rfl⟩ := List.mem_map.mp hb
          rw [if_pos rfl]
          decide
    all_goals
      rw [List.takeWhile_cons_of_pos (by simpa using hnl), List.length_cons] at hshort
    · omega
    · simp at h
    · refine ih ?_ ?_ h
      · intro b hb
        rcases List.mem_append.mp hb with hb | hb
        · exact hstored b hb
        · rw [List.mem_singleton.mp hb]
          exact lineByte_storedByte hnl
      · rw [List.length_append, List.length_singleton]
        omega

lemma arrived_new {serverAddr serverPort : CString} (haddr : SingleLine serverAddr)
    (hport : SingleLine serverPort) (input : List UInt8) :
    Arrived signature (redhttpRequestNew signature serverAddr serverPort input) where
  serverAddr := haddr
  serverPort := hport
  headers := by simp [redhttpRequestNew]
  host := by simp [redhttpRequestNew]
  url := by simp [redhttpRequestNew]
  signature := rfl
  unanswered := rfl
  pathGlob := rfl

/-- Reading the request line leaves an arrived request; a line that is refused leaves it
without a version. -/
lemma readStatusLine_arrived :
    Triple (fun r => Arrived signature r ∧ r.version = none) (redhttpRequestReadStatusLine heap)
      (fun n r => Arrived signature r ∧ (n ≠ 0 → r.version = none)) fun _ => True := by
  rintro r ⟨h, hversion⟩
  simp only [redhttpRequestReadStatusLine, bind_apply, redhttpRequestReadLine]
  have hrest : ∀ rest, Arrived signature (r.withInput rest) := fun rest =>
    { h with }
  rcases hline : readLineFrom heap bufsiz r.socket.input with e | ⟨_ | line, rest⟩
  · trivial
  · exact ⟨hrest rest, fun _ => hversion⟩
  · dsimp only
    split_ifs
    · exact ⟨hrest rest, fun _ => hversion⟩
    · rcases hparts : splitStatusLine line with e | _ | parts
      · trivial
      · exact ⟨hrest rest, fun _ => hversion⟩
      · simp only [bind_apply, redhttpRequestSetMethod, modify_apply]
        by_cases hkeys : KeysNonEmpty (queryBytes parts.pathAndQuery)
        · simp only [setPathAndQuery_of_keys hkeys, redhttpRequestSetVersion, modify_apply,
            pure_apply]
          exact ⟨{ hrest rest with }, fun hn => absurd rfl hn⟩
        · obtain ⟨r', hr'⟩ := setPathAndQuery_of_not_keys hkeys
            { r.withInput rest with method := some (storedMethod parts.method) }
          simp only [Option.map_some, hr']

/-- Reading the headers leaves an arrived request. -/
lemma readHeaders_arrived : Triple (Arrived signature) (readHeaders heap)
    (fun _ => Arrived signature) fun _ => True := by
  intro r h
  rw [readHeaders]
  by_cases hkeys : ∀ line ∈ (headerBlock heap r.socket.input).lines, LineKeyNonEmpty line
  · have hres := readHeadersFrom_of_keys heap r hkeys
    rw [readHeadersResult] at hres
    split at hres
    · rw [hres]
      refine { h with headers := ?_ }
      intro it hit v hv
      rcases List.mem_append.mp hit with hit | hit
      · exact h.headers it hit v hv
      · obtain ⟨line, hline, hheader⟩ := List.mem_filterMap.mp hit
        obtain ⟨-, v', hv', hplain⟩ := plainHeader_of_headerOfLine
          (headerBlock_singleLine heap _ line hline) (hkeys line hline) hheader
        obtain rfl : v' = v := Option.some.inj (hv'.symm.trans hv)
        exact hplain.text
    · obtain ⟨input, hres⟩ := hres
      rw [hres]
      trivial
  · obtain ⟨r', hr'⟩ := readHeadersFrom_of_not_keys heap r hkeys
    rw [hr']
    trivial

/-- Reading the body leaves an arrived request, and does not change the method. -/
lemma readContent_arrived (heap : Heap) : Maintains
    (fun r => Arrived signature r ∧ r.isPost = true) (redhttpRequestReadContent heap) := by
  have hkeeps : Keeps (fun r : Request =>
      ({ r with arguments := [], contentBuffer := none, contentLength := 0, calls := [],
                socket := { r.socket with input := [] } } : Request))
      (redhttpRequestReadContent heap) := keeps_readContent (fun _ _ _ _ _ _ => rfl) heap
  refine hkeeps.maintains (p := fun r => Arrived signature r ∧ r.isPost = true) fun r => ?_
  constructor
  · exact fun h => ⟨{ h.1 with }, h.2⟩
  · exact fun h => ⟨{ h.1 with }, h.2⟩

lemma readRest_arrived : Triple (Arrived signature) (redhttpRequestReadRest heap)
    (fun n r => Arrived signature r ∧ (n ≠ 0 → r.isPost = true)) fun _ => True := by
  have hzero : ∀ r, Arrived signature r → Arrived signature r ∧ (0 ≠ 0 → r.isPost = true) :=
    fun r hr => ⟨hr, fun hn => absurd rfl hn⟩
  refine triple_get_bind fun r hr => ?_
  split
  · refine triple_bind (readHeaders_arrived.mono (R := fun r' => r' = r)
      (fun r' hr' => hr' ▸ hr) fun _ _ h => h) fun _ => triple_get_bind fun r' hr' => ?_
    split
    · next hpost =>
      rintro _ rfl
      have hcontent := readContent_arrived heap _ ⟨hr', hpost⟩
      split
      · next hrun =>
        rw [hrun] at hcontent
        exact ⟨hcontent.1, fun _ => hcontent.2⟩
      · trivial
    · exact triple_pure fun r'' heq => hzero r'' (heq ▸ hr')
  · exact triple_pure fun r' heq => hzero r' (heq ▸ hr)

/-- A request that has been read has arrived.  One that is refused has no version, or it is a
POST. -/
theorem redhttpRequestRead_arrived :
    Triple (fun r => Arrived signature r ∧ r.version = none) (redhttpRequestRead heap)
      (fun n r => Arrived signature r ∧ (n ≠ 0 → r.version = none ∨ r.isPost = true))
      fun _ => True := by
  refine triple_bind readStatusLine_arrived fun n => ?_
  by_cases hn : n = 0
  · rw [if_neg (by simp [hn])]
    exact readRest_arrived.mono (fun r hr => hr.1) fun n r hr => ⟨hr.1, fun hn => Or.inr (hr.2 hn)⟩
  · rw [if_pos hn]
    exact triple_pure fun r hr => ⟨hr.1, fun _ => Or.inl (hr.2 hn)⟩

/-! ### The target -/

/-- The target is that of the request line, if there is one. -/
lemma readStatusLine_target (input : List UInt8) :
    Triple (fun r => r.pathAndQuery = none ∧ r.socket.input = input)
      (redhttpRequestReadStatusLine heap)
      (fun _ r => ∀ target ∈ r.pathAndQuery, ∃ parts rest,
        requestLine heap input = some (parts, rest) ∧ parts.pathAndQuery = target)
      fun _ => True := by
  rintro r ⟨hnone, rfl⟩
  have hrefused : ∀ target ∈ r.pathAndQuery, ∃ parts rest,
      requestLine heap r.socket.input = some (parts, rest) ∧ parts.pathAndQuery = target := by
    simp [hnone]
  simp only [redhttpRequestReadStatusLine, bind_apply, redhttpRequestReadLine]
  rcases hline : readLineFrom heap bufsiz r.socket.input with e | ⟨_ | line, rest⟩
  · trivial
  · exact hrefused
  · dsimp only
    split_ifs with hlen
    · exact hrefused
    · rcases hparts : splitStatusLine line with e | _ | parts
      · trivial
      · exact hrefused
      · simp only [bind_apply, redhttpRequestSetMethod, modify_apply]
        by_cases hkeys : KeysNonEmpty (queryBytes parts.pathAndQuery)
        · simp only [setPathAndQuery_of_keys hkeys, redhttpRequestSetVersion, modify_apply,
            pure_apply]
          rintro _ ⟨⟩
          exact ⟨parts, rest, requestLine_eq_some_iff.mpr ⟨line, hline, hlen, hparts⟩, rfl⟩
        · obtain ⟨r', hr'⟩ := setPathAndQuery_of_not_keys hkeys
            { r.withInput rest with method := some (storedMethod parts.method) }
          simp only [Option.map_some, hr']

/-- Headers and body leave the target. -/
lemma keeps_target_readRest : Keeps Request.pathAndQuery (redhttpRequestReadRest heap) :=
  keeps_bind keeps_get fun _ => keeps_ite
    (keeps_bind (keeps_readHeaders (fun _ _ _ => rfl) heap) fun _ => keeps_bind keeps_get fun _ =>
      keeps_ite (keeps_readContent (fun _ _ _ _ _ _ => rfl) heap) (keeps_pure 0))
    (keeps_pure 0)

/-- A target is cut out of its line if the line fits into the first line buffer; behind a longer
one there is memory that has not been written. -/
theorem singleLine_target {serverAddr serverPort : CString} {input : List UInt8} {n : ℕ}
    {r : Request} (hshort : (input.takeWhile (· != ch '\n')).length + 1 < bufsiz)
    (hread : redhttpRequestRead heap
      (redhttpRequestNew signature serverAddr serverPort input) = .ok n r) :
    ∀ target ∈ r.pathAndQuery, SingleLine target := by
  have htarget : ∀ parts rest, requestLine heap input = some (parts, rest) →
      SingleLine parts.pathAndQuery := by
    intro parts rest hline
    obtain ⟨line, hline, -, hparts⟩ := requestLine_eq_some_iff
      (r := redhttpRequestNew signature serverAddr serverPort input).mp hline
    rw [readLineFrom] at hline
    split at hline
    · refine splitStatusLine_lineByte (readLineLoop_memory (by simp) ?_ hline) hparts
      rw [List.length_nil, Nat.zero_add]
      exact hshort
    · simp at hline
  have hstatus : Triple (fun r => r.pathAndQuery = none ∧ r.socket.input = input)
      (redhttpRequestReadStatusLine heap)
      (fun _ r => ∀ target ∈ r.pathAndQuery, SingleLine target) fun _ => True := by
    refine (readStatusLine_target input).mono (fun _ h => h) fun n r h target hmem => ?_
    obtain ⟨parts, rest, hline, rfl⟩ := h target hmem
    exact htarget parts rest hline
  have hrest : Maintains (fun r => ∀ target ∈ r.pathAndQuery, SingleLine target)
      (redhttpRequestReadRest heap) :=
    keeps_target_readRest.maintains (p := fun t => ∀ target ∈ t, SingleLine target)
      fun _ => Iff.rfl
  have hrun : Triple (fun r => r.pathAndQuery = none ∧ r.socket.input = input)
      (redhttpRequestRead heap)
      (fun _ r => ∀ target ∈ r.pathAndQuery, SingleLine target) fun _ => True := by
    refine triple_bind hstatus fun n => ?_
    by_cases hn : n = 0
    · rw [if_neg (by simp [hn])]
      exact hrest.weaken (fun _ _ => trivial)
    · rw [if_pos hn]
      exact triple_pure fun _ h => h
  exact hrun.of_ok ⟨rfl, rfl⟩ hread

end Read

end RedStore.RedHttp
