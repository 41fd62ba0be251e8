/-
`utils.c`: the negotiation of formats.
-/
import RedStore.RedHttp.Negotiate
import RedStore.Service.Redland

namespace RedStore.Service
open CLib RedHttp

/-- `redstore_get_format_by_name`. -/
def redstoreGetFormatByName (descs : List Description) (formatName : Option CString) :
    Option Description :=
  match formatName with
  | none => none
  | some name => if name.bytes = [] then none else descs.find? fun desc => name ∈ desc.names

/-- The best score so far, with the description and the media type that have it. -/
structure Best where
  score : ℤ := -1
  desc : Option Description := none
  mime : Option CString := none

/-- The innermost loop of `redstore_negotiate_format`, over the entries of the Accept
header. -/
def scoreMimeType (accept : List Negotiate) (desc : Description) (best : Best)
    (mimeType : CString × ℕ) : Best :=
  accept.foldl (fun best entry =>
    if redhttpNegotiateCompareTypes mimeType.1 entry.type &&
        best.score < (mimeType.2 * entry.q : ℕ) then
      ⟨(mimeType.2 * entry.q : ℕ), some desc, some mimeType.1⟩
    else best) best

/-- The loop of `redstore_negotiate_format` over the descriptions. -/
def bestDescription (accept : List Negotiate) (descs : List Description) : Best :=
  descs.foldl (fun best desc => desc.mimeTypes.foldl (scoreMimeType accept desc) best) {}

/-- The Accept header when it is to be negotiated with: it is there, and not `*/*`. -/
def acceptToNegotiate (r : Request) : Option CString :=
  (r.getHeader (CString.lit "Accept")).filter fun accept =>
    accept.bytes ≠ [] ∧ accept ≠ CString.lit "*/*"

/-- `redstore_negotiate_format`: the description, and the media type that goes with it. -/
def redstoreNegotiateFormat (r : Request) (descs : List Description)
    (defaultFormat : CString) : Except Fault (Option Description × Option CString) := do
  let best : Best ←
    match r.getArgument (CString.lit "format"), acceptToNegotiate r with
    | some formatArg, _ =>
      .ok { desc := redstoreGetFormatByName descs (some formatArg) }
    | none, some accept => do
      let accept ← redhttpNegotiateParse (some accept)
      .ok (bestDescription accept descs)
    | none, none => .ok { desc := redstoreGetFormatByName descs (some defaultFormat) }
  match best.desc with
  | some desc => .ok (some desc, best.mime.or (desc.mimeTypes.head?.map Prod.fst))
  | none => .ok (none, none)

/-- `redstore_negotiate_string`. -/
def redstoreNegotiateString (r : Request) (supported defaultFormat : CString) :
    Except Fault (Option CString) :=
  match r.getArgument (CString.lit "format"), acceptToNegotiate r with
  | some formatArg, _ => .ok (some formatArg)
  | none, some accept => do
    let accept ← redhttpNegotiateParse (some accept)
    let supported ← redhttpNegotiateParse (some supported)
    .ok (redhttpNegotiateChoose supported accept)
  | none, none => .ok (some defaultFormat)

/-- The comparison of a string, which `strcmp` needs, with some others. -/
def isOneOf (formats : List CString) (str : Option CString) : Except Fault Bool :=
  match str with
  | none => .error .nullPointer
  | some str => .ok (str ∈ formats)

/-- The formats of `redstore_is_html_format`. -/
def htmlFormats : List CString :=
  [CString.lit "html", CString.lit "text/html", CString.lit "application/xhtml+xml"]

/-- The formats of `redstore_is_text_format`. -/
def textFormats : List CString := [CString.lit "text", CString.lit "text/plain"]

/-- `redstore_is_html_format`. -/
def redstoreIsHtmlFormat : Option CString → Except Fault Bool := isOneOf htmlFormats

/-- `redstore_is_text_format`. -/
def redstoreIsTextFormat : Option CString → Except Fault Bool := isOneOf textFormats

end RedStore.Service
