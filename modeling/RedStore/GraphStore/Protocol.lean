/-
The graph store protocol, on datasets.

A request is for the graph without a name, for a named graph, for both or for neither.  What
it does to the dataset and what it is replied is a step; a document that is sent along may
stand for more than one set of triples, since its blank nodes are made anew each time, and
what it stands for may depend on the graph it is sent to.
-/
import RedStore.GraphStore.Dataset

namespace Dataset

variable {T G : Type}

/-- The triples of all graphs. -/
def triples (d : Set (T × Option G)) : Set T := {t | ∃ g, (t, g) ∈ d}

/-! ### Requests and replies -/

/-- What a request is for. -/
inductive Aim (G : Type) where
  | both
  | neither
  | default
  | graph (g : G)

/-- What is sent along. -/
inductive Upload (T G : Type) where
  /-- A document, by the sets of triples that it may stand for in a graph. -/
  | document (meaning : Option G → Set (Set T))
  | empty
  /-- There is no memory for it. -/
  | tooLarge

/-- What a request asks for. -/
inductive Action (T G : Type) where
  | head
  /-- The triples, in a format that there may be or not. -/
  | get (formatted : Bool)
  | put (upload : Upload T G)
  | post (upload : Upload T G)
  | delete

structure Command (T G : Type) where
  action : Action T G
  aim : Aim G

/-- What a request is replied. -/
inductive Reply (T G : Type) where
  | done
  | created (g : G)
  | triples (ts : Set T)
  /-- The format is not there. -/
  | unformatted
  | notFound
  /-- The request makes no sense. -/
  | rejected
  | unsupported
  /-- There is no memory, or no graph without triples. -/
  | exhausted

/-- The sets of triples that an upload may stand for. -/
def Upload.meaning : Upload T G → Option G → Set (Set T)
  | .document meaning, g => meaning g
  | .empty, _ => ∅
  | .tooLarge, _ => ∅

/-- The reply to an upload that stands for nothing. -/
def Upload.refusal : Upload T G → Option (Reply T G)
  | .document _ => none
  | .empty => some .rejected
  | .tooLarge => some .exhausted

/-- Triples in a format, if that is there. -/
def shownTriples (formatted : Bool) (ts : Set T) : Reply T G :=
  if formatted then .triples ts else .unformatted

/-- The actions for which a graph has to be there. -/
inductive NeedsGraph : Action T G → Prop where
  | head : NeedsGraph .head
  | get (formatted : Bool) : NeedsGraph (.get formatted)
  | delete : NeedsGraph .delete

/-! ### Steps -/

/-- The steps of a store that tries a number of graphs for a document that is for none. -/
inductive Step (attempts : ℕ) (d : Set (T × Option G)) :
    Command T G → Set (T × Option G) → Reply T G → Prop where
  | both (action : Action T G) : Step attempts d ⟨action, .both⟩ d .rejected
  | neither {action : Action T G} (h : ∀ upload, action ≠ .post upload) :
    Step attempts d ⟨action, .neither⟩ d .rejected
  | missing {action : Action T G} {g : G} (haction : NeedsGraph action)
    (h : content d (some g) = ∅) : Step attempts d ⟨action, .graph g⟩ d .notFound
  | headDefault : Step attempts d ⟨.head, .default⟩ d .done
  | head {g : G} (h : (content d (some g)).Nonempty) : Step attempts d ⟨.head, .graph g⟩ d .done
  | getDefault (formatted : Bool) :
    Step attempts d ⟨.get formatted, .default⟩ d (shownTriples formatted (triples d))
  | get (formatted : Bool) {g : G} (h : (content d (some g)).Nonempty) :
    Step attempts d ⟨.get formatted, .graph g⟩ d (shownTriples formatted (content d (some g)))
  | putDefault (upload : Upload T G) : Step attempts d ⟨.put upload, .default⟩ d .unsupported
  | putRefused {upload : Upload T G} {g : G} {reply : Reply T G}
    (h : upload.refusal = some reply) : Step attempts d ⟨.put upload, .graph g⟩ d reply
  | put {upload : Upload T G} {g : G} {ts : Set T} (h : ts ∈ upload.meaning (some g)) :
    Step attempts d ⟨.put upload, .graph g⟩ (replace d (some g) ts) .done
  | postRefused {upload : Upload T G} {aim : Aim G} {reply : Reply T G} (haim : aim ≠ .both)
    (h : upload.refusal = some reply) : Step attempts d ⟨.post upload, aim⟩ d reply
  | postDefault {upload : Upload T G} {ts : Set T} (h : ts ∈ upload.meaning none) :
    Step attempts d ⟨.post upload, .default⟩ (add d none ts) .done
  | post {upload : Upload T G} {g : G} {ts : Set T} (h : ts ∈ upload.meaning (some g)) :
    Step attempts d ⟨.post upload, .graph g⟩ (add d (some g) ts) .done
  | postNew {upload : Upload T G} {g : G} {ts : Set T} (hempty : content d (some g) = ∅)
    (h : ts ∈ upload.meaning (some g)) :
    Step attempts d ⟨.post upload, .neither⟩ (add d (some g) ts) (.created g)
  | postFull (upload : Upload T G) (tried : List G) (hnodup : tried.Nodup)
    (hlength : tried.length = attempts) (h : ∀ g ∈ tried, (content d (some g)).Nonempty) :
    Step attempts d ⟨.post upload, .neither⟩ d .exhausted
  | deleteDefault : Step attempts d ⟨.delete, .default⟩ ∅ .done
  | delete {g : G} (h : (content d (some g)).Nonempty) :
    Step attempts d ⟨.delete, .graph g⟩ (clear d (some g)) .done

end Dataset
