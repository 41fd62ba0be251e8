/-
The headers that the library adds to a response can all be printed: lengths, dates, the
signature of the server and the methods that are allowed.
-/
import RedStore.RedHttp.ArrivedRequest
import RedStore.RedHttp.Server

namespace RedStore.RedHttp
open CLib

/-! ### Values -/

lemma plainValue_ofBytes {c : UInt8} {s : List UInt8} (h0 : c ≠ 0) (hspace : isspace c = false)
    (h : ∀ b ∈ c :: s, LineByte b) : PlainValue (CString.ofBytes (c :: s)) where
  start := by
    refine ⟨c, ?_, hspace⟩
    rw [CString.bytes_ofBytes, List.takeWhile_cons_of_pos (by simpa using h0)]
    rfl
  text := singleLine_ofBytes h

lemma PlainValue.append {s t : CString} (hs : PlainValue s) (ht : SingleLine t) :
    PlainValue (s ++ t) where
  start := by
    obtain ⟨c, hc, hspace⟩ := hs.start
    obtain ⟨rest, hrest⟩ := List.head?_eq_some_iff.mp hc
    exact ⟨c, by rw [CString.bytes_append, hrest]; rfl, hspace⟩
  text := singleLine_append hs.text ht

lemma storedValue_of_plain {v : CString} (h : PlainValue v) : storedValue (some v) = some v := by
  refine storedValue_of_ne ?_
  obtain ⟨c, hc, -⟩ := h.start
  obtain ⟨rest, hrest⟩ := List.head?_eq_some_iff.mp hc
  simp [CString.strlen, hrest]

/-- A digit can stand anywhere on a line. -/
lemma digit_plain {c : UInt8} (h : isdigit c = true) :
    c ≠ 0 ∧ isspace c = false ∧ LineByte c := by
  revert h
  refine forall_uint8 (p := fun c => isdigit c = true → c ≠ 0 ∧ isspace c = false ∧ LineByte c)
    ?_ c
  decide +kernel

lemma lineByte_of_mem_decimal {n : ℕ} {c : UInt8} (h : c ∈ decimal n) : LineByte c :=
  (digit_plain (isdigit_of_mem_decimal h)).2.2

lemma plainValue_decimalInt (n : ℤ) : PlainValue (CString.ofBytes (decimalInt n)) := by
  rw [decimalInt]
  split
  · refine plainValue_ofBytes (by decide) (by decide) ?_
    rw [List.forall_mem_cons]
    exact ⟨by decide, fun c hc => lineByte_of_mem_decimal hc⟩
  · obtain ⟨c, s, hdigits⟩ := List.exists_cons_of_ne_nil (decimal_ne_nil n.natAbs)
    have hc := digit_plain (isdigit_of_mem_decimal (n := n.natAbs) (c := c) (by simp [hdigits]))
    rw [hdigits]
    refine plainValue_ofBytes hc.1 hc.2.1 fun b hb => ?_
    exact lineByte_of_mem_decimal (n := n.natAbs) (hdigits ▸ hb)

lemma lineByte_of_mem_twoDigits {n : ℕ} {c : UInt8} (h : c ∈ twoDigits n) : LineByte c := by
  rw [twoDigits] at h
  split at h
  · rcases List.mem_cons.mp h with rfl | h
    · decide
    · exact lineByte_of_mem_decimal h
  · exact lineByte_of_mem_decimal h

/-- A date can be printed. -/
lemma plainValue_rfc1123 (tm : Tm) : PlainValue (CString.ofBytes (rfc1123 tm)) := by
  have hday : ∀ wday : Fin 7, (weekday wday).all (fun c => decide (LineByte c)) = true ∧
      (weekday wday).head?.any (fun c => c != 0 && !isspace c) = true := by decide
  have hmonth : ∀ mon : Fin 12, (monthName mon).all (fun c => decide (LineByte c)) = true := by
    decide
  have happend : ∀ {s t : List UInt8}, (∀ c ∈ s, LineByte c) → (∀ c ∈ t, LineByte c) →
      ∀ c ∈ s ++ t, LineByte c := fun hs ht c hc =>
    (List.mem_append.mp hc).elim (hs c) (ht c)
  have htwo : ∀ n, ∀ c ∈ twoDigits n, LineByte c := fun _ _ hc => lineByte_of_mem_twoDigits hc
  have hcomma : ∀ c ∈ bytesOf ", ", LineByte c := forall_mem_of_all (by decide)
  have hblank : ∀ c ∈ bytesOf " ", LineByte c := forall_mem_of_all (by decide)
  have hcolon : ∀ c ∈ bytesOf ":", LineByte c := forall_mem_of_all (by decide)
  have hzone : ∀ c ∈ bytesOf " GMT", LineByte c := forall_mem_of_all (by decide)
  have hdate : ∀ c ∈ weekday tm.wday ++ bytesOf ", " ++ twoDigits tm.mday ++ bytesOf " " ++
      monthName tm.mon ++ bytesOf " " ++ decimal tm.year, LineByte c :=
    happend (happend (happend (happend (happend (happend (forall_mem_of_all (hday tm.wday).1)
      hcomma) (htwo _)) hblank) (forall_mem_of_all (hmonth tm.mon))) hblank)
      fun _ hc => lineByte_of_mem_decimal hc
  have hline : ∀ c ∈ rfc1123 tm, LineByte c :=
    happend (happend (happend (happend (happend (happend (happend hdate hblank) (htwo _)) hcolon)
      (htwo _)) hcolon) (htwo _)) hzone
  obtain ⟨c, hhead, hc⟩ := (Option.any_eq_true _ _).mp (hday tm.wday).2
  obtain ⟨rest, hrest⟩ := List.head?_eq_some_iff.mp hhead
  simp only [Bool.and_eq_true, bne_iff_ne, Bool.not_eq_true'] at hc
  obtain ⟨more, hmore⟩ : ∃ more, rfc1123 tm = c :: more := by
    simp only [rfc1123, hrest, List.cons_append]
    exact ⟨_, rfl⟩
  rw [hmore] at hline ⊢
  exact plainValue_ofBytes hc.1 hc.2 hline

/-! ### Headers -/

/-- All headers of a response can be printed. -/
def PlainHeaders (response : Response) : Prop := ∀ it ∈ response.headers, PlainHeader it

section Headers

variable {response : Response}

lemma plainHeader_of_value {key : CString} (hkey : PlainKey key) {v : CString}
    (hv : PlainValue v) : PlainHeader ⟨key, storedValue (some v)⟩ :=
  ⟨hkey, v, storedValue_of_plain hv, hv⟩

lemma PlainHeaders.add (h : PlainHeaders response) (key : HeaderName) (hkey : PlainKey key.1)
    {v : CString} (hv : PlainValue v) :
    PlainHeaders (redhttpResponseAddHeader response key (some v)) := by
  intro it hit
  rcases List.mem_append.mp hit with hit | hit
  · exact h it hit
  · rw [List.mem_singleton.mp hit]
    exact plainHeader_of_value hkey hv

lemma plainHeaders_nil (h : response.headers = []) : PlainHeaders response := by
  simp [PlainHeaders, h]

/-- Sending adds headers that can be printed. -/
lemma PlainHeaders.send (h : PlainHeaders response) {r : Request}
    (hsignature : ∀ signature ∈ r.serverSignature, PlainValue signature) (now : Option Tm) :
    PlainHeaders (addSendHeaders now r response) := by
  have hlength : PlainHeaders (if response.contentLength ≥ 0 then
      redhttpResponseAddHeader response HeaderName.contentLength
        (some (CString.ofBytes (decimalInt response.contentLength))) else response) := by
    split
    · exact h.add _ (by decide) (plainValue_decimalInt _)
    · exact h
  unfold addSendHeaders
  cases now with
  | none =>
    have hconnection := hlength.add HeaderName.connection
      (v := CString.lit "Close") (by decide) (by decide)
    cases hsig : r.serverSignature with
    | none => exact hconnection
    | some signature => exact hconnection.add _ (by decide) (hsignature signature hsig)
  | some tm =>
    have hdate := hlength.add HeaderName.date (by decide) (plainValue_rfc1123 tm)
    have hconnection := hdate.add HeaderName.connection
      (v := CString.lit "Close") (by decide) (by decide)
    cases hsig : r.serverSignature with
    | none => exact hconnection
    | some signature => exact hconnection.add _ (by decide) (hsignature signature hsig)

lemma PlainHeaders.sent (h : PlainHeaders response) {r : Request}
    (hsignature : ∀ signature ∈ r.serverSignature, PlainValue signature) (now : Option Tm) :
    PlainHeaders (sentResponse now r response) := by
  rw [sentResponse]
  split
  · exact h
  · exact h.send hsignature now

lemma plainHeaders_errorPage {heap : Heap} {code : Status} {explanation : List UInt8}
    (h : redhttpResponseNewErrorPage heap code explanation = some response) :
    PlainHeaders response := by
  simp only [redhttpResponseNewErrorPage] at h
  split at h
  · cases h
  · split at h
    · obtain rfl := Option.some.inj h
      have hnew : PlainHeaders (redhttpResponseNew code) := plainHeaders_nil rfl
      exact hnew.add HeaderName.contentType (v := CString.lit "text/html") (by decide)
        (by decide)
    · cases h

end Headers

/-! ### The methods that are allowed -/

section Allowed

variable {A : Type} {handlers : List (Handler A)}

/-- The list of methods begins with OPTIONS, and all methods on it stay on a line. -/
def AllowedList (allowed : List CString) : Prop :=
  ∃ rest, allowed = CString.lit "OPTIONS" :: rest ∧ ∀ method ∈ rest, SingleLine method

lemma AllowedList.add {allowed : List CString} (h : AllowedList allowed) {method : CString}
    (hmethod : SingleLine method) : AllowedList (addAllowedMethod allowed method).1 := by
  obtain ⟨rest, rfl, hrest⟩ := h
  rw [addAllowedMethod]
  split
  · exact ⟨rest, rfl, hrest⟩
  · split
    · refine ⟨rest ++ [method], rfl, fun m hm => ?_⟩
      rcases List.mem_append.mp hm with hm | hm
      · exact hrest m hm
      · exact List.mem_singleton.mp hm ▸ hmethod
    · exact ⟨rest, rfl, hrest⟩

lemma AllowedList.collect {allowed : List CString} (h : AllowedList allowed) {it : Handler A}
    (hit : ∀ method ∈ it.method, SingleLine method) (path : Option CString) :
    AllowedList (collectMethod path allowed it) := by
  rw [collectMethod]
  split
  · exact h
  · next method hmethod =>
    have hadd := h.add (hit method hmethod)
    split_ifs
    · exact hadd.add (by decide)
    · exact hadd
    · exact h

lemma allowedMethods_allowedList (h : ∀ it ∈ handlers, ∀ method ∈ it.method, SingleLine method)
    (path : Option CString) : AllowedList (allowedMethods handlers path) := by
  have hfold : ∀ (rest : List (Handler A)) (allowed : List CString),
      (∀ it ∈ rest, ∀ method ∈ it.method, SingleLine method) → AllowedList allowed →
      AllowedList (rest.foldl (collectMethod path) allowed) := by
    intro rest
    induction rest with
    | nil => exact fun allowed _ hallowed => hallowed
    | cons it rest ih =>
      intro allowed hrest hallowed
      exact ih _ (fun it' hit' => hrest it' (by simp [hit']))
        (hallowed.collect (hrest it (by simp)) path)
  exact hfold handlers _ h ⟨[], rfl, by simp⟩

lemma allowString_plain {allowed : List CString} (h : AllowedList allowed) :
    PlainValue (allowString allowed) := by
  obtain ⟨rest, rfl, hrest⟩ := h
  have hfold : ∀ (rest : List CString) (str : CString), (∀ method ∈ rest, SingleLine method) →
      PlainValue str → PlainValue (rest.foldl allowMethod str) := by
    intro rest
    induction rest with
    | nil => exact fun _ _ hstr => hstr
    | cons method rest ih =>
      intro str hmethods hstr
      refine ih _ (fun m hm => hmethods m (by simp [hm])) ?_
      rw [allowMethod]
      split
      · exact (hstr.append (by decide)).append (hmethods method (by simp))
      · exact hstr
  rw [allowString_cons]
  exact hfold rest _ hrest (by decide)

variable (h : ∀ it ∈ handlers, ∀ method ∈ it.method, SingleLine method)
include h

lemma checkAllowedResponses_plain {heap : Heap} {status : Status} {path : Option CString}
    {response : Response}
    (hresponse : checkAllowedResponses heap status handlers path = .ok response) :
    PlainHeaders response := by
  have hallow := allowString_plain (allowedMethods_allowedList h path)
  rw [checkAllowedResponses] at hresponse
  split at hresponse
  · cases hresponse
  · next page hpage =>
    obtain rfl := Except.ok.inj hresponse
    have hplain : PlainHeaders page := by
      split at hpage
      · exact plainHeaders_nil (Option.some.inj hpage ▸ rfl)
      · exact plainHeaders_errorPage hpage
    exact hplain.add _ (by decide) hallow

lemma fallbackResponse_plain {heap : Heap} {method path : CString} {response : Response}
    (hresponse : fallbackResponse heap handlers method path = .ok (some response)) :
    PlainHeaders response := by
  have hchecked : ∀ status, (checkAllowedResponses heap status handlers (some path)).map some =
      .ok (some response) → PlainHeaders response := by
    intro status hmap
    cases hcheck : checkAllowedResponses heap status handlers (some path) with
    | error e => simp [hcheck, Except.map] at hmap
    | ok page =>
      simp only [hcheck, Except.map, Except.ok.injEq, Option.some.injEq] at hmap
      exact hmap ▸ checkAllowedResponses_plain h hcheck
  rw [fallbackResponse] at hresponse
  dsimp only at hresponse
  split at hresponse
  · exact plainHeaders_nil (Option.some.inj (Except.ok.inj hresponse) ▸ rfl)
  · split at hresponse
    · split at hresponse
      · exact hchecked _ hresponse
      · exact hchecked _ hresponse
    · exact plainHeaders_errorPage (Except.ok.inj hresponse)

lemma asteriskResponse_plain {heap : Heap} {method : CString} {response : Response}
    (hresponse : asteriskResponse heap handlers method = .ok (some response)) :
    PlainHeaders response := by
  rw [asteriskResponse] at hresponse
  split at hresponse
  · cases hcheck : checkAllowedResponses heap .ok handlers none with
    | error e => simp [hcheck, Except.map] at hresponse
    | ok page =>
      simp only [hcheck, Except.map, Except.ok.injEq, Option.some.injEq] at hresponse
      exact hresponse ▸ checkAllowedResponses_plain h hcheck
  · split at hresponse
    · cases hresponse
    · next page hpage =>
      obtain rfl := Option.some.inj (Except.ok.inj hresponse)
      exact (plainHeaders_errorPage hpage).add _ (by decide) (by decide)

end Allowed

end RedStore.RedHttp
