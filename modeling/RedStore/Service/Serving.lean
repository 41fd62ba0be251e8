/-
The service over a run: connections are served one after the other.

A connection arrives with the address it was made to and with all that its client sends, at a
time that `redhttp_response_send` puts into the answer.  The requests of a run share the state
of the service; a fault ends the process, and the run with it.
-/
import RedStore.RedHttp.FramedResponses
import RedStore.Service.Main

namespace RedStore.Service
open CLib RedHttp

variable {T R σ : Type}

/-- A connection as it arrives. -/
structure Arrival where
  serverAddr : CString := default
  serverPort : CString := default
  now : Option Tm := none
  input : List UInt8

/-- The request object that an arrival starts with. -/
def Arrival.request (a : Arrival) : Request :=
  redhttpRequestNew (some serverSignature) a.serverAddr a.serverPort a.input

/-- The request that an arrival is read as, if the reading does not fault. -/
def Arrival.read (heap : Heap) (a : Arrival) : Option Request :=
  match redhttpRequestRead heap a.request with
  | .ok _ r => some r
  | .error _ _ => none

/-- The surroundings at a time. -/
def World.at (w : World T R σ) (now : Option Tm) : World T R σ := { w with now }

/-- One connection: the state behind it and what has been written to it. -/
def serve (w : World T R σ) (app : App σ) (a : Arrival) : Option (App σ × List UInt8) :=
  match handleRequest (w.at a.now) ⟨a.request, app⟩ with
  | .ok _ c => some (c.app, c.request.socket.output)
  | .error _ _ => none

/-- One connection whose bytes come in portions: the state behind it and what its client gets. -/
def serveOn (w : World T R σ) (app : App σ) (a : Arrival) (portions : List (Portion UInt8)) :
    Option (App σ × List UInt8) :=
  match handleRequest (w.at a.now)
      ⟨{ a with input := portionBytes portions }.request, app⟩ with
  | .ok _ c => some (c.app, delivered portions c.request)
  | .error _ _ => none

/-- Some connections, one after the other. -/
def serveAll (w : World T R σ) : App σ → List Arrival → Option (App σ × List (List UInt8))
  | app, [] => some (app, [])
  | app, a :: arrivals =>
    match serve w app a with
    | none => none
    | some (app', output) =>
      (serveAll w app' arrivals).map fun behind => (behind.1, output :: behind.2)

variable {w : World T R σ} {app app' : App σ} {a : Arrival} {arrivals : List Arrival}
  {output : List UInt8} {outputs : List (List UInt8)}

lemma Arrival.read_eq_some_iff {heap : Heap} {r : Request} :
    a.read heap = some r ↔ ∃ result, redhttpRequestRead heap a.request = .ok result r := by
  rw [Arrival.read]
  cases redhttpRequestRead heap a.request <;> simp

lemma serve_eq_some_iff : serve w app a = some (app', output) ↔
    ∃ response c, handleRequest (w.at a.now) ⟨a.request, app⟩ = .ok response c ∧
      c.app = app' ∧ c.request.socket.output = output := by
  rw [serve]
  cases handleRequest (w.at a.now) ⟨a.request, app⟩ <;> simp

/-- A run is its first connection and the run behind it. -/
lemma serveAll_cons_eq_some_iff : serveAll w app (a :: arrivals) = some (app', outputs) ↔
    ∃ app₁ output rest, serve w app a = some (app₁, output) ∧
      serveAll w app₁ arrivals = some (app', rest) ∧ outputs = output :: rest := by
  rw [serveAll]
  cases serve w app a with
  | none => simp
  | some first =>
    obtain ⟨app₁, output⟩ := first
    simp only [Option.map_eq_some_iff, Prod.mk.injEq, Prod.exists, Option.some.injEq]
    constructor
    · rintro ⟨app₂, rest, hrest, rfl, rfl⟩
      exact ⟨app₁, output, rest, ⟨rfl, rfl⟩, hrest, rfl⟩
    · rintro ⟨_, _, rest, ⟨rfl, rfl⟩, hrest, rfl⟩
      exact ⟨app', rest, hrest, rfl, rfl⟩

end RedStore.Service
