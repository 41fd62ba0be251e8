/-
What `redstore_negotiate_format` chooses.

Its three loops look at every offer that the media types of a table make to the Accept header,
and keep the first best one in three variables, the score, the description and the media type.
The header is sorted by quality, so that `redhttp_negotiate_choose`, which leaves its inner
loop early, comes to the same media type when it is given those of the table.
-/
import RedStore.RedHttp.Arguments
import RedStore.RedHttp.NegotiateBest
import RedStore.Service.Utils

namespace RedStore.Service
open CLib RedHttp

/-! ### The table as a list of the server -/

/-- A media type of a description, as an entry. -/
def mimeEntry (mimeType : CString × ℕ) : Negotiate := ⟨mimeType.1, mimeType.2⟩

/-- The media types of a table, in its order. -/
def mimeEntries (descs : List Description) : List Negotiate :=
  descs.flatMap fun desc => desc.mimeTypes.map mimeEntry

/-- What the innermost loop looks at: a description, one of its media types, and an entry of the
header that it meets. -/
def tableOffers (accept : List Negotiate) (descs : List Description) :
    List (Description × (CString × ℕ) × Negotiate) :=
  descs.flatMap fun desc => desc.mimeTypes.flatMap fun mimeType =>
    (meets accept mimeType.1).map fun entry => (desc, mimeType, entry)

/-- The score of an offer. -/
def tableScore (offer : Description × (CString × ℕ) × Negotiate) : ℕ :=
  offer.2.1.2 * offer.2.2.q

/-- The three variables once an offer is the best. -/
def keepOffer (offer : Description × (CString × ℕ) × Negotiate) : Best :=
  ⟨(tableScore offer : ℕ), some offer.1, some offer.2.1.1⟩

/-- The comparison of an offer with the best one so far. -/
def betterOffer (best : Best) (offer : Description × (CString × ℕ) × Negotiate) : Best :=
  if best.score < tableScore offer then keepOffer offer else best

/-- The innermost loop compares the offers of a media type. -/
lemma scoreMimeType_eq (accept : List Negotiate) (desc : Description) (best : Best)
    (mimeType : CString × ℕ) : scoreMimeType accept desc best mimeType =
      ((meets accept mimeType.1).map fun entry => (desc, mimeType, entry)).foldl betterOffer
        best := by
  rw [scoreMimeType, meets, List.foldl_map, List.foldl_filter]
  congr 1
  funext best entry
  by_cases hmeets : redhttpNegotiateCompareTypes mimeType.1 entry.type = true
  · simp only [hmeets, Bool.true_and, decide_eq_true_eq, if_true]
    rfl
  · simp [hmeets]

/-- The three loops keep the first best of all offers. -/
lemma bestDescription_eq (accept : List Negotiate) (descs : List Description) :
    bestDescription accept descs =
      ((tableOffers accept descs).argmax tableScore).elim {} keepOffer := by
  have hkeep : (tableOffers accept descs).foldl betterOffer {} = _ :=
    foldl_keep_best Best.score keepOffer {} tableScore (fun _ => rfl) (by decide) _
  rw [← hkeep, bestDescription, tableOffers, List.foldl_flatMap]
  congr 1
  funext best desc
  rw [List.foldl_flatMap]
  congr 1
  funext best mimeType
  exact scoreMimeType_eq accept desc best mimeType

/-- The offers of the table are those of its media types. -/
lemma offers_mimeEntries (accept : List Negotiate) (descs : List Description) :
    offers (mimeEntries descs) accept =
      (tableOffers accept descs).map fun offer => (mimeEntry offer.2.1, offer.2.2) := by
  simp only [offers, mimeEntries, tableOffers, List.flatMap_assoc, List.map_flatMap,
    List.flatMap_map, List.map_map]
  rfl

/-- The media type that the loops end with is that of a scan of all offers. -/
lemma bestDescription_mime (accept : List Negotiate) (descs : List Description) :
    (bestDescription accept descs).mime = exhaustiveChoice (mimeEntries descs) accept := by
  have hscore : (offerScore ∘ fun offer : Description × (CString × ℕ) × Negotiate =>
      (mimeEntry offer.2.1, offer.2.2)) = tableScore := rfl
  rw [bestDescription_eq, exhaustiveChoice, offers_mimeEntries, argmax_map, hscore]
  cases (tableOffers accept descs).argmax tableScore with
  | none => rfl
  | some offer => rfl

/-! ### The first description -/

/-- The description and its media type are the first of the table to attain the greatest
score. -/
def FirstOffering (descs : List Description) (accept : List Negotiate) (desc : Description)
    (mime : CString) : Prop :=
  (∃ front rest, descs = front ++ desc :: rest ∧ ∀ d ∈ front, ∀ mimeType ∈ d.mimeTypes,
    ¬ Attains (mimeEntries descs) accept (mimeEntry mimeType)) ∧
  ∃ front mimeType rest, desc.mimeTypes = front ++ mimeType :: rest ∧ mimeType.1 = mime ∧
    Attains (mimeEntries descs) accept (mimeEntry mimeType) ∧
    ∀ m ∈ front, ¬ Attains (mimeEntries descs) accept (mimeEntry m)

/-- An offer that is beaten by another one is not the best of its entry's. -/
lemma not_attains_of_lt {server client : List Negotiate} {s s' c' : Negotiate}
    (hs' : s' ∈ server) (hc' : c' ∈ meets client s'.type)
    (h : ∀ c ∈ meets client s.type, s.q * c.q < s'.q * c'.q) : ¬ Attains server client s := by
  rintro ⟨c, hc, hall⟩
  exact absurd (hall s' hs' c' hc') (not_le.mpr (h c hc))

lemma mem_mimeEntries {descs : List Description} {desc : Description} {mimeType : CString × ℕ}
    (hdesc : desc ∈ descs) (hmime : mimeType ∈ desc.mimeTypes) :
    mimeEntry mimeType ∈ mimeEntries descs :=
  List.mem_flatMap.mpr ⟨desc, hdesc, List.mem_map.mpr ⟨mimeType, hmime, rfl⟩⟩

/-- The best offer is one of the first description, and of its first media type. -/
lemma firstOffering_of_firstBest {descs : List Description} {accept : List Negotiate}
    {desc : Description} {mimeType : CString × ℕ} {entry : Negotiate}
    (h : FirstBest tableScore (tableOffers accept descs) (desc, mimeType, entry)) :
    FirstOffering descs accept desc mimeType.1 := by
  have hle := h.le
  rw [tableOffers, firstBest_flatMap] at h
  obtain ⟨front, desc', rest, rfl, hbest, hfront, -⟩ := h
  rw [firstBest_flatMap] at hbest
  obtain ⟨mfront, mimeType', mrest, hmimes, hbest, hmfront, -⟩ := hbest
  obtain ⟨entry', hentry, heq⟩ := firstBest_map.mp hbest
  obtain ⟨rfl, rfl, rfl⟩ : desc' = desc ∧ mimeType' = mimeType ∧ entry' = entry := by
    simpa only [Prod.mk.injEq] using heq
  have hmime : mimeType' ∈ desc'.mimeTypes := by rw [hmimes]; simp
  have hmem : mimeEntry mimeType' ∈ mimeEntries (front ++ desc' :: rest) :=
    mem_mimeEntries (by simp) hmime
  refine ⟨⟨front, rest, rfl, fun d hd m hm => ?_⟩, mfront, mimeType', mrest, hmimes, rfl,
    ⟨entry', hentry.mem, ?_⟩, fun m hm => ?_⟩
  · refine not_attains_of_lt hmem hentry.mem fun c hc => ?_
    exact hfront d hd (d, m, c) (List.mem_flatMap.mpr ⟨m, hm, List.mem_map.mpr ⟨c, hc, rfl⟩⟩)
  · intro s hs c hc
    obtain ⟨d, hd, hs⟩ := List.mem_flatMap.mp hs
    obtain ⟨m, hm, rfl⟩ := List.mem_map.mp hs
    exact hle (d, m, c) (List.mem_flatMap.mpr ⟨d, hd,
      List.mem_flatMap.mpr ⟨m, hm, List.mem_map.mpr ⟨c, hc, rfl⟩⟩⟩)
  · refine not_attains_of_lt hmem hentry.mem fun c hc => ?_
    exact hmfront m hm (desc', m, c) (List.mem_map.mpr ⟨c, hc, rfl⟩)

/-! ### The three cases -/

/-- The first description with a name, and its first media type. -/
def namedFormat (descs : List Description) (name : CString) :
    Option Description × Option CString :=
  let desc := descs.find? fun desc => name ∈ desc.names
  (desc, desc.bind fun desc => desc.mimeTypes.head?.map Prod.fst)

lemma redstoreGetFormatByName_of_ne (descs : List Description) {name : CString}
    (h : name.bytes ≠ []) : redstoreGetFormatByName descs (some name) =
      descs.find? fun desc => name ∈ desc.names := by
  rw [redstoreGetFormatByName, if_neg h]

section Cases

variable {r : Request} {descs : List Description} {name accept defaultFormat : CString}
  {list : List Negotiate}

lemma redstoreNegotiateFormat_of_argument
    (h : r.getArgument (CString.lit "format") = some name) (hname : name.bytes ≠ []) :
    redstoreNegotiateFormat r descs defaultFormat = .ok (namedFormat descs name) := by
  simp only [redstoreNegotiateFormat, h, redstoreGetFormatByName_of_ne descs hname, namedFormat,
    bind, Except.bind]
  cases descs.find? fun desc => name ∈ desc.names with
  | none => rfl
  | some desc => rfl

lemma redstoreNegotiateFormat_of_default (h : r.getArgument (CString.lit "format") = none)
    (haccept : acceptToNegotiate r = none) (hname : defaultFormat.bytes ≠ []) :
    redstoreNegotiateFormat r descs defaultFormat = .ok (namedFormat descs defaultFormat) := by
  simp only [redstoreNegotiateFormat, h, haccept, redstoreGetFormatByName_of_ne descs hname,
    namedFormat, bind, Except.bind]
  cases descs.find? fun desc => defaultFormat ∈ desc.names with
  | none => rfl
  | some desc => rfl

lemma redstoreNegotiateFormat_of_accept (h : r.getArgument (CString.lit "format") = none)
    (haccept : acceptToNegotiate r = some accept)
    (hparse : redhttpNegotiateParse (some accept) = .ok list) :
    redstoreNegotiateFormat r descs defaultFormat =
      .ok ((bestDescription list descs).desc, (bestDescription list descs).mime) := by
  simp only [redstoreNegotiateFormat, h, haccept, hparse, bestDescription_eq, bind, Except.bind]
  cases (tableOffers list descs).argmax tableScore with
  | none => rfl
  | some offer => rfl

/-- In the Accept case the media type is the choice of `redhttp_negotiate_choose`. -/
lemma bestDescription_mime_eq_choose
    (hparse : redhttpNegotiateParse (some accept) = .ok list) :
    (bestDescription list descs).mime = redhttpNegotiateChoose (mimeEntries descs) list := by
  rw [bestDescription_mime, redhttpNegotiateChoose_of_sorted
    (redhttpNegotiateParse_decreasing hparse)]

/-- A positive offer makes the loops end with the first description that has the greatest
score. -/
lemma bestDescription_of_positive (hpositive : SomePositive (mimeEntries descs) list) :
    ∃ desc mime, (bestDescription list descs).desc = some desc ∧
      (bestDescription list descs).mime = some mime ∧ FirstOffering descs list desc mime := by
  obtain ⟨s, hs, -⟩ := exhaustiveChoice_of_positive hpositive
  rw [← bestDescription_mime, bestDescription_eq] at hs
  rw [bestDescription_eq]
  cases hbest : (tableOffers list descs).argmax tableScore with
  | none =>
    rw [hbest] at hs
    cases hs
  | some offer =>
    obtain ⟨desc, mimeType, entry⟩ := offer
    exact ⟨desc, mimeType.1, rfl, rfl,
      firstOffering_of_firstBest (argmax_eq_some_iff_firstBest.mp hbest)⟩

end Cases

/-- The media type is one of the description, and there is none without a description. -/
def MimeOf (result : Option Description × Option CString) : Prop :=
  ∀ mime ∈ result.2, ∃ desc ∈ result.1, mime ∈ desc.mimeTypes.map Prod.fst

lemma mimeOf_namedFormat (descs : List Description) (name : CString) :
    MimeOf (namedFormat descs name) := by
  intro mime hmime
  obtain ⟨desc, hdesc, hmime⟩ := Option.mem_bind_iff.mp hmime
  refine ⟨desc, hdesc, ?_⟩
  obtain ⟨mimeType, hhead, rfl⟩ := Option.mem_map.mp hmime
  exact List.mem_map.mpr ⟨mimeType, List.mem_of_mem_head? hhead, rfl⟩

lemma mimeOf_bestDescription (accept : List Negotiate) (descs : List Description) :
    MimeOf ((bestDescription accept descs).desc, (bestDescription accept descs).mime) := by
  rw [bestDescription_eq]
  cases hbest : (tableOffers accept descs).argmax tableScore with
  | none =>
    intro mime hmime
    cases hmime
  | some offer =>
    obtain ⟨desc, mimeType, entry⟩ := offer
    intro mime hmime
    obtain rfl : mimeType.1 = mime := Option.some.inj hmime
    have hmem := List.argmax_mem hbest
    simp only [tableOffers, List.mem_flatMap, List.mem_map, Prod.mk.injEq] at hmem
    obtain ⟨d, -, m, hm, c, -, rfl, rfl, -⟩ := hmem
    exact ⟨d, rfl, List.mem_map.mpr ⟨m, hm, rfl⟩⟩

/-- What a request is given of a table: by its format argument, by its Accept header, or by
the default. -/
def Negotiated (r : Request) (descs : List Description) (defaultFormat : CString)
    (result : Option Description × Option CString) : Prop :=
  match r.getArgument (CString.lit "format"), acceptToNegotiate r with
  | some name, _ => result = namedFormat descs name
  | none, none => result = namedFormat descs defaultFormat
  | none, some accept => ∃ list, redhttpNegotiateParse (some accept) = .ok list ∧
      (SomePositive (mimeEntries descs) list → ∃ desc mime, result = (some desc, some mime) ∧
        FirstOffering descs list desc mime ∧
        redhttpNegotiateChoose (mimeEntries descs) list = some mime)

/-- `redstore_negotiate_format`, for every table and every request whose Accept header can be
parsed. -/
theorem redstoreNegotiateFormat_negotiated (r : Request) (descs : List Description)
    (defaultFormat : CString) (harguments : StoredValues r.arguments)
    (hdefault : defaultFormat.bytes ≠ [])
    (hitems : ∀ accept ∈ acceptToNegotiate r, ∀ item ∈ negotiateItems accept.bytes,
      ItemNamed item) :
    ∃ result, redstoreNegotiateFormat r descs defaultFormat = .ok result ∧
      Negotiated r descs defaultFormat result ∧ MimeOf result := by
  cases hargument : r.getArgument (CString.lit "format") with
  | some name =>
    have hname := harguments.get_ne hargument
    refine ⟨_, redstoreNegotiateFormat_of_argument hargument hname, ?_, mimeOf_namedFormat _ _⟩
    rw [Negotiated, hargument]
  | none =>
    cases haccept : acceptToNegotiate r with
    | none =>
      refine ⟨_, redstoreNegotiateFormat_of_default hargument haccept hdefault, ?_,
        mimeOf_namedFormat _ _⟩
      rw [Negotiated, hargument, haccept]
    | some accept =>
      obtain ⟨list, hparse⟩ := exists_redhttpNegotiateParse (hitems accept haccept)
      refine ⟨_, redstoreNegotiateFormat_of_accept hargument haccept hparse, ?_,
        mimeOf_bestDescription _ _⟩
      rw [Negotiated, hargument, haccept]
      refine ⟨list, hparse, fun hpositive => ?_⟩
      obtain ⟨desc, mime, hdesc, hmime, hfirst⟩ := bestDescription_of_positive hpositive
      refine ⟨desc, mime, by rw [hdesc, hmime], hfirst, ?_⟩
      rw [← bestDescription_mime_eq_choose hparse, hmime]

/-- A table of two formats, and a request for the media type of the second one. -/
theorem redstoreNegotiateFormat_negotiated_turtle : ∃ result,
    redstoreNegotiateFormat
      { headers := [⟨CString.lit "Accept", some (CString.lit "*/*;q=0.1, text/turtle;q=0.7")⟩] }
      [{ name := CString.lit "rdfxml", mimeTypes := [(CString.lit "application/rdf+xml", 10)] },
        { name := CString.lit "turtle", mimeTypes := [(CString.lit "text/turtle", 8)] }]
      (CString.lit "rdfxml") = .ok result ∧
    Negotiated
      { headers := [⟨CString.lit "Accept", some (CString.lit "*/*;q=0.1, text/turtle;q=0.7")⟩] }
      [{ name := CString.lit "rdfxml", mimeTypes := [(CString.lit "application/rdf+xml", 10)] },
        { name := CString.lit "turtle", mimeTypes := [(CString.lit "text/turtle", 8)] }]
      (CString.lit "rdfxml") result ∧ MimeOf result := by
  refine redstoreNegotiateFormat_negotiated _ _ _ (fun it hit => by cases hit) (by decide) ?_
  intro accept haccept
  have haccept' : acceptToNegotiate
      { headers := [⟨CString.lit "Accept", some (CString.lit "*/*;q=0.1, text/turtle;q=0.7")⟩] } =
        some (CString.lit "*/*;q=0.1, text/turtle;q=0.7") := by decide
  obtain rfl := Option.some.inj (haccept'.symm.trans haccept)
  decide

/-! ### What the client refuses -/

/-- No type is chosen that the client refuses, exactly when some offer has a positive score or
the client takes the first type that it names at all; and so for the media types of a table in
the Accept case. -/
theorem refused_never_chosen_iff (server client : List Negotiate) (r : Request)
    (descs : List Description) (defaultFormat : CString) :
    ((∀ type, redhttpNegotiateChoose server client = some type → Taken client type) ↔
      SomePositive server client ∨ ∀ s ∈ firstMet server client, Taken client s.type) ∧
    ∀ accept list, r.getArgument (CString.lit "format") = none →
      acceptToNegotiate r = some accept → redhttpNegotiateParse (some accept) = .ok list →
      ((∀ desc mime, redstoreNegotiateFormat r descs defaultFormat = .ok (desc, some mime) →
          Taken list mime) ↔
        SomePositive (mimeEntries descs) list ∨
          ∀ s ∈ firstMet (mimeEntries descs) list, Taken list s.type) := by
  refine ⟨redhttpNegotiateChoose_taken_iff server client, ?_⟩
  intro accept list hargument haccept hparse
  rw [← redhttpNegotiateChoose_taken_iff, redstoreNegotiateFormat_of_accept hargument haccept hparse,
    ← bestDescription_mime_eq_choose hparse]
  constructor
  · intro h type htype
    exact h _ type (by rw [htype])
  · intro h desc mime heq
    exact h mime (congrArg Prod.snd (Except.ok.inj heq))

/-- A request that refuses HTML, and prefers plain text. -/
def refusesHtml : Request :=
  { headers := [⟨CString.lit "Accept", some (CString.lit "text/html;q=0.0, text/plain")⟩] }

/-- The refusal of a type that another one is preferred to. -/
theorem refused_never_chosen_preferred :
    ∃ list, redhttpNegotiateParse (some (CString.lit "text/html;q=0.0, text/plain")) = .ok list ∧
      ((∀ desc mime, redstoreNegotiateFormat refusesHtml
          [{ name := CString.lit "text", mimeTypes := [(CString.lit "text/plain", 10)] }]
          (CString.lit "html") = .ok (desc, some mime) → Taken list mime) ↔
        SomePositive (mimeEntries
            [{ name := CString.lit "text", mimeTypes := [(CString.lit "text/plain", 10)] }]) list ∨
          ∀ s ∈ firstMet (mimeEntries
            [{ name := CString.lit "text", mimeTypes := [(CString.lit "text/plain", 10)] }]) list,
              Taken list s.type) := by
  have hparse : redhttpNegotiateParse (some (CString.lit "text/html;q=0.0, text/plain")) =
      .ok [⟨CString.lit "text/plain", 10⟩, ⟨CString.lit "text/html", 0⟩] := by decide +kernel
  exact ⟨_, hparse, (refused_never_chosen_iff [] [] refusesHtml
    [{ name := CString.lit "text", mimeTypes := [(CString.lit "text/plain", 10)] }]
    (CString.lit "html")).2 _ _ (by decide) (by decide) hparse⟩

/-- A client that refuses HTML is given HTML when there is nothing else, and a request that
refuses RDF/XML is given RDF/XML. -/
theorem refused_type_chosen :
    (redhttpNegotiateChoose [⟨CString.lit "text/html", 10⟩] [⟨CString.lit "text/html", 0⟩] =
        some (CString.lit "text/html") ∧
      ¬ Taken [⟨CString.lit "text/html", 0⟩] (CString.lit "text/html")) ∧
    redhttpNegotiateParse (some (CString.lit "application/rdf+xml;q=0.0")) =
        .ok [⟨CString.lit "application/rdf+xml", 0⟩] ∧
    (redstoreNegotiateFormat
        { headers := [⟨CString.lit "Accept", some (CString.lit "application/rdf+xml;q=0.0")⟩] }
        [{ name := CString.lit "rdfxml", mimeTypes := [(CString.lit "application/rdf+xml", 10)] }]
        (CString.lit "rdfxml")).map Prod.snd =
      .ok (some (CString.lit "application/rdf+xml")) ∧
    ¬ Taken [⟨CString.lit "application/rdf+xml", 0⟩] (CString.lit "application/rdf+xml") :=
  ⟨by decide, by decide +kernel, by decide +kernel, by decide⟩

end RedStore.Service
