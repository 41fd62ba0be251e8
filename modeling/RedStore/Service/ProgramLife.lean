/-
How the program ends.

A message or a signal can come during every call, every call can fail, and a request can be the end
of the process.  Whatever happens: what has been made is freed before `main` returns, and nothing is
freed twice; the program serves until the first round that stops it; its exit code counts the fatal
errors, of which there is at most one, as a second one, or one behind a signal, exits at once.
-/
import RedStore.Service.Program

namespace RedStore.Service
open CLib RedHttp

/-! ### What stops a program -/

/-- A fatal error, or a signal that is handled. -/
def Note.stops : Note → Bool
  | .logged level => level = .fatal
  | .signalled => true
  | .deadly => false

/-- What is noted as such. -/
def Happening.stops : Happening → Bool
  | .message level _ => level = .fatal
  | .signal => true
  | .deadlySignal => false

/-- What happens as such in a round. -/
def Incident.stops : Incident → Bool
  | .happening h => h.stops
  | _ => false

/-- How many rounds there are up to the first that stops a program. -/
def roundsUntilStop : List (List Incident) → ℕ
  | [] => 0
  | round :: rounds => if round.any Incident.stops then 1 else roundsUntilStop rounds + 1

/-- Some round stops a program. -/
def stopsAtLast (rounds : List (List Incident)) : Bool := rounds.any (·.any Incident.stops)

/-! ### How a program ends -/

/-- Command lines that `main` does not take. -/
def wrongUsage (switches : List Switch) (arguments : List CString) : Bool :=
  .other ∈ switches || 1 < arguments.length || (.quiet ∈ switches && .verbose ∈ switches)

/-- What a program that serves has made. -/
def essentials : Finset Object :=
  {.world, .server, .storage, .model, .formatNsUri, .sdNsUri, .voidNsUri}

/-- The end of a program at any time: a fatal error where it has been stopped already, a signal
before there is a handler, or one that is not handled. -/
inductive Cut (p : Program) : Prop where
  | fatal {before : List Note} (hnotes : p.notes = before ++ [.logged .fatal])
    (hstopped : before.any Note.stops = true) (hended : p.ended = some (.exited (-1)))
  | killed (hhandler : p.handlesSignals = false) (hended : p.ended = some .killed)
  | deadly {before : List Note} (hnotes : p.notes = before ++ [.deadly])
    (hended : p.ended = some .killed)

/-- The ends of a program where `main` does not return. -/
inductive Abandoned (su : Surroundings) (switches : List Switch) (arguments : List CString)
    (p : Program) : Prop where
  | usage (hwrong : wrongUsage switches arguments = true) (hended : p.ended = some (.exited 1))
  | failure {round : List Incident} (hround : round ∈ su.rounds) (hfailure : .failure ∈ round)
    (hended : p.ended = some (.exited exitFailure))
  | fault {round : List Incident} {fault : Fault} (hround : round ∈ su.rounds)
    (hfault : .fault fault ∈ round) (hended : p.ended = some (.faulted fault))
  | cut (h : Cut p)

/-- A program whose `main` has returned. -/
structure Finished (su : Surroundings) (code : ℤ) (p : Program) : Prop where
  /-- There has been a fatal error, or a signal. -/
  stopped : p.running = false ∧ p.notes.any Note.stops = true
  exitCode : code = p.notes.count (.logged .fatal)
  atMostOne : code ≤ 1
  /-- A message that comes while `main` frees what it has made leaves a buffer. -/
  objects : p.objects ≤ {.errorBuffer}
  served : p.rounds = 0 ∨ stopsAtLast su.rounds = true ∧ p.rounds = roundsUntilStop su.rounds
  /-- Without a fatal error it has been serving. -/
  ready : code = 0 → essentials ⊆ p.pointers

/-- A program that runs, behind the rounds that there are. -/
structure Serving (su : Surroundings) (p : Program) : Prop where
  running : p.running = true ∧ p.notes.any Note.stops = false
  objects : p.objects = p.pointers.val
  served : stopsAtLast su.rounds = false ∧ p.rounds = su.rounds.length
  ready : essentials ⊆ p.pointers

/-- What a run of a program comes to. -/
def Accounted (su : Surroundings) (switches : List Switch) (arguments : List CString) :
    EStateM.Result Unit Program (Option ℤ) → Prop
  | .ok none p => wrongUsage switches arguments = false ∧ Serving su p
  | .ok (some code) p =>
    su.newWorld = false ∧ code = -1 ∧ p.notes = [.logged .fatal] ∧ p.objects = 0 ∨
      wrongUsage switches arguments = false ∧ Finished su code p
  | .error _ p => Abandoned su switches arguments p

namespace Program

/-! ### The invariant -/

/-- A program that has made all of `needed` and nothing but `allowed`, an error buffer aside, and
has freed all of `freed`.  It has had as many fatal errors as `fatal` says, and has been stopped if
`halted` says so. -/
structure Holding (needed allowed freed : Finset Object) (locals : Multiset Object) (served : ℕ)
    (fatal : ℤ) (halted : Bool) (p : Program) : Prop where
  running : p.running = !p.notes.any Note.stops
  exitCode : p.exitCode = p.notes.count (.logged .fatal)
  atMostOne : p.exitCode ≤ if p.running then 0 else 1
  fatal_le : fatal ≤ p.exitCode
  halts : halted = true → p.running = false
  needed_subset : needed ⊆ p.pointers.erase .errorBuffer
  subset_allowed : p.pointers.erase .errorBuffer ⊆ allowed
  notMem_freed : .errorBuffer ∉ freed
  objects : p.objects = (p.pointers \ freed).val + locals
  rounds : p.rounds = served

variable {su : Surroundings} {switches : List Switch} {arguments : List CString}
  {needed allowed freed : Finset Object} {locals : Multiset Object} {served : ℕ} {fatal : ℤ}
  {halted : Bool} {p : Program} {object : Object}

lemma Holding.mono (h : Holding needed allowed freed locals served fatal halted p)
    {needed' allowed' : Finset Object} {fatal' : ℤ} (hneeded : needed' ⊆ needed)
    (hallowed : allowed ⊆ allowed') (hfatal : fatal' ≤ fatal) :
    Holding needed' allowed' freed locals served fatal' halted p :=
  { h with
    fatal_le := hfatal.trans h.fatal_le
    needed_subset := hneeded.trans h.needed_subset
    subset_allowed := h.subset_allowed.trans hallowed }

/-! ### Messages and signals -/

lemma redstoreLog_apply (level : LogLevel) (p : Program) : redstoreLog level p =
    if level = .fatal then
      if p.running then .ok () { p with
        notes := p.notes ++ [.logged .fatal], exitCode := p.exitCode + 1, running := false }
      else .error () { p with
        notes := p.notes ++ [.logged .fatal], exitCode := p.exitCode + 1
        ended := some (.exited (-1)) }
    else if p.verbosity.shows level then .ok () { p with notes := p.notes ++ [.logged level] }
    else .ok () p := by
  by_cases hfatal : level = .fatal
  · have hshows : p.verbosity.shows .fatal = true := rfl
    subst hfatal
    cases hrunning : p.running <;>
      simp [redstoreLog, bind_apply, hshows, hrunning, stop]
  · cases hshows : p.verbosity.shows level <;>
      simp [redstoreLog, bind_apply, hshows, hfatal]

/-- A message that does not stop the program. -/
lemma Holding.logged (h : Holding needed allowed freed locals served fatal halted p)
    {level : LogLevel} (hlevel : level ≠ .fatal) : Holding needed allowed freed locals served fatal halted
      { p with notes := p.notes ++ [.logged level] } :=
  { h with
    running := by simpa [Note.stops, hlevel] using h.running
    exitCode := by simpa [hlevel] using h.exitCode }

/-- The first fatal error. -/
lemma Holding.loggedFatal (h : Holding needed allowed freed locals served fatal halted p)
    (hrunning : p.running = true) : Holding needed allowed freed locals served 1 halted
      { p with
        notes := p.notes ++ [.logged .fatal], exitCode := p.exitCode + 1, running := false } := by
  have hzero : p.exitCode ≤ 0 := by simpa [hrunning] using h.atMostOne
  have hcount := h.exitCode
  exact { h with
    running := by simp [Note.stops]
    exitCode := by simp [hcount]
    atMostOne := by simp only [Bool.false_eq_true, if_false]; omega
    fatal_le := by simp only; omega
    halts := fun _ => rfl }

lemma Holding.fatal_le_one (h : Holding needed allowed freed locals served fatal halted p) :
    fatal ≤ 1 := by
  have hle := h.fatal_le
  have hone := h.atMostOne
  split at hone <;> omega

/-- A program that is stopped has a note of what has stopped it. -/
lemma Holding.stopped (h : Holding needed allowed freed locals served fatal halted p)
    (hrunning : p.running ≠ true) : p.notes.any Note.stops = true := by
  have hnotes := h.running
  rw [Bool.eq_false_of_not_eq_true hrunning] at hnotes
  simpa using hnotes

lemma triple_redstoreLog (level : LogLevel) :
    Triple (Holding needed allowed freed locals served fatal halted) (redstoreLog level)
      (fun _ => Holding needed allowed freed locals served (if level = .fatal then 1 else fatal)
        halted) Cut := by
  intro p h
  rw [redstoreLog_apply]
  by_cases hfatal : level = .fatal
  · by_cases hrunning : p.running = true
    · simp only [if_pos hfatal, if_pos hrunning]
      exact h.loggedFatal hrunning
    · simp only [if_pos hfatal, if_neg hrunning]
      exact .fatal rfl (h.stopped hrunning) rfl
  · simp only [if_neg hfatal]
    by_cases hshows : p.verbosity.shows level = true
    · simp only [if_pos hshows]
      exact h.logged hfatal
    · simp only [if_neg hshows]
      exact h

/-- Whatever its level, a message leaves the invariant. -/
lemma triple_redstoreLog' (level : LogLevel) :
    Triple (Holding needed allowed freed locals served fatal halted) (redstoreLog level)
      (fun _ => Holding needed allowed freed locals served fatal halted) Cut := by
  intro p h
  have hle : fatal ≤ if level = .fatal then 1 else fatal := by
    split
    · exact h.fatal_le_one
    · exact le_rfl
  exact (triple_redstoreLog level).mono (fun _ h => h)
    (fun _ _ h => h.mono subset_rfl subset_rfl hle) p h

/-- A message behind which less has to be known. -/
lemma triple_redstoreLog_mono (level : LogLevel) {needed' allowed' : Finset Object}
    (hneeded : needed' ⊆ needed) (hallowed : allowed ⊆ allowed') :
    Triple (Holding needed allowed freed locals served fatal halted) (redstoreLog level)
      (fun _ => Holding needed' allowed' freed locals served fatal halted) Cut :=
  (triple_redstoreLog' level).mono (fun _ h => h) fun _ _ h => h.mono hneeded hallowed le_rfl

/-! ### The error buffer -/

lemma Holding.madeErrorBuffer (h : Holding needed allowed freed locals served fatal halted p)
    (hnull : .errorBuffer ∉ p.pointers) : Holding needed allowed freed locals served fatal halted
      { p with
        objects := .errorBuffer ::ₘ p.objects, pointers := insert .errorBuffer p.pointers } := by
  have hsame : (insert .errorBuffer p.pointers).erase .errorBuffer =
      p.pointers.erase .errorBuffer := by
    rw [Finset.erase_insert hnull, Finset.erase_eq_of_notMem hnull]
  have hnew : .errorBuffer ∉ p.pointers \ freed := fun hmem => hnull (Finset.mem_sdiff.mp hmem).1
  exact { h with
    needed_subset := h.needed_subset.trans hsame.ge
    subset_allowed := hsame.le.trans h.subset_allowed
    objects := by
      simp only [h.objects]
      rw [Finset.insert_sdiff_of_notMem _ h.notMem_freed, Finset.insert_val_of_notMem hnew,
        Multiset.cons_add] }

lemma Holding.freedErrorBuffer (h : Holding needed allowed freed locals served fatal halted p)
    (hnull : .errorBuffer ∈ p.pointers) : .errorBuffer ∈ p.objects ∧
      Holding needed allowed freed locals served fatal halted
        { p with
          objects := p.objects.erase .errorBuffer, pointers := p.pointers.erase .errorBuffer } := by
  have hthere : .errorBuffer ∈ (p.pointers \ freed).val :=
    Finset.mem_sdiff.mpr ⟨hnull, h.notMem_freed⟩
  refine ⟨by rw [h.objects]; exact Multiset.mem_add.mpr (.inl hthere), ?_⟩
  have hsame : (p.pointers.erase .errorBuffer).erase .errorBuffer =
      p.pointers.erase .errorBuffer := Finset.erase_idem
  exact { h with
    needed_subset := h.needed_subset.trans hsame.ge
    subset_allowed := hsame.le.trans h.subset_allowed
    objects := by
      simp only [h.objects]
      rw [Finset.erase_sdiff_comm, Finset.erase_val, Multiset.erase_add_left_pos _ hthere] }

lemma resetErrorBuffer_apply (p : Program) : resetErrorBuffer p =
    if .errorBuffer ∈ p.pointers then
      if .errorBuffer ∈ p.objects then .ok () { p with
        objects := p.objects.erase .errorBuffer, pointers := p.pointers.erase .errorBuffer }
      else .error () { p with ended := some (.faulted .useAfterFree) }
    else .ok () p := by
  by_cases hnull : .errorBuffer ∈ p.pointers
  · by_cases hthere : .errorBuffer ∈ p.objects <;>
      simp [resetErrorBuffer, drop, stop, bind_apply, hnull, hthere]
  · simp [resetErrorBuffer, bind_apply, hnull]

lemma triple_resetErrorBuffer {E : Program → Prop} :
    Triple (Holding needed allowed freed locals served fatal halted) resetErrorBuffer
      (fun _ => Holding needed allowed freed locals served fatal halted) E := by
  intro p h
  rw [resetErrorBuffer_apply]
  by_cases hnull : .errorBuffer ∈ p.pointers
  · obtain ⟨hthere, h'⟩ := h.freedErrorBuffer hnull
    simp only [if_pos hnull, if_pos hthere]
    exact h'
  · simp only [if_neg hnull]
    exact h

lemma triple_redlandLogHandler (level : LogLevel) (room : Bool) :
    Triple (Holding needed allowed freed locals served fatal halted) (redlandLogHandler level room)
      (fun _ => Holding needed allowed freed locals served fatal halted) Cut := by
  refine triple_bind (triple_redstoreLog' level) fun _ => triple_get_bind fun p h => ?_
  by_cases hnull : .errorBuffer ∈ p.pointers
  · simp only [hnull, not_true, if_false]
    exact triple_pure fun p' hp' => hp' ▸ h
  · simp only [hnull, not_false_eq_true, if_true]
    cases room with
    | false => exact (triple_redstoreLog' .error).fromState h
    | true =>
      rintro _ rfl
      exact h.madeErrorBuffer hnull

lemma triple_signal :
    Triple (Holding needed allowed freed locals served fatal halted) signal
      (fun _ => Holding needed allowed freed locals served fatal halted) Cut := by
  refine triple_get_bind fun p h => ?_
  by_cases hhandler : p.handlesSignals = true
  · simp only [if_pos hhandler]
    refine triple_bind ((triple_redstoreLog' .info).fromState h) fun _ p h => ?_
    have hone : p.exitCode ≤ 1 := by
      have := h.atMostOne
      split at this <;> omega
    exact { h with
      running := by simp [Note.stops]
      exitCode := by simpa using h.exitCode
      atMostOne := by simpa using hone
      halts := fun _ => rfl }
  · simp only [if_neg hhandler]
    rintro _ rfl
    exact .killed (Bool.eq_false_of_not_eq_true hhandler) rfl

lemma triple_happen (h : Happening) :
    Triple (Holding needed allowed freed locals served fatal halted) (happen h)
      (fun _ => Holding needed allowed freed locals served fatal halted) Cut := by
  cases h with
  | message level room => exact triple_redlandLogHandler level room
  | signal => exact triple_signal
  | deadlySignal => exact fun p _ => .deadly rfl rfl

/-! ### Calls -/

variable (su) in
lemma triple_callLibrary (call : LibraryCall) :
    Triple (Holding needed allowed freed locals served fatal halted) (callLibrary su call)
      (fun _ => Holding needed allowed freed locals served fatal halted) Cut :=
  triple_bind (triple_forM _ fun h _ => triple_happen h) fun _ => triple_pure fun _ h => h

lemma drop_apply (object : Object) (p : Program) : drop object p =
    if object ∈ p.objects then .ok () { p with objects := p.objects.erase object }
    else .error () { p with ended := some (.faulted .useAfterFree) } := by
  by_cases hthere : object ∈ p.objects <;> simp [drop, stop, bind_apply, hthere]

variable (su) in
lemma triple_newLocal (object : Object) (call : LibraryCall) :
    Triple (Holding needed allowed freed locals served fatal halted) (newLocal su object call)
      (fun made => Holding needed allowed freed (bif made then object ::ₘ locals else locals)
        served fatal halted) Cut := by
  refine triple_bind (triple_callLibrary su call) fun made => ?_
  cases made with
  | false => exact triple_pure fun _ h => h
  | true =>
    intro p h
    exact { h with
      objects := by
        show object ::ₘ p.objects = _
        rw [h.objects, cond_true, Multiset.add_cons] }

/-- A variable is assigned the object that has just been made. -/
lemma Holding.assigned
    (h : Holding needed allowed freed (object ::ₘ locals) served fatal halted p)
    (hnew : object ∉ allowed) (hfreed : object ∉ freed) (hother : object ≠ .errorBuffer) :
    Holding (insert object needed) (insert object allowed) freed locals served fatal halted
      { p with pointers := insert object p.pointers } := by
  have hnull : object ∉ p.pointers := fun hmem =>
    hnew (h.subset_allowed (Finset.mem_erase.mpr ⟨hother, hmem⟩))
  have herase : (insert object p.pointers).erase .errorBuffer =
      insert object (p.pointers.erase .errorBuffer) := Finset.erase_insert_of_ne hother
  have hthere : object ∉ p.pointers \ freed := fun hmem => hnull (Finset.mem_sdiff.mp hmem).1
  exact { h with
    needed_subset := (Finset.insert_subset_insert object h.needed_subset).trans herase.ge
    subset_allowed := herase.le.trans (Finset.insert_subset_insert object h.subset_allowed)
    objects := by
      simp only [h.objects]
      rw [Finset.insert_sdiff_of_notMem _ hfreed, Finset.insert_val_of_notMem hthere,
        Multiset.cons_add, Multiset.add_cons] }

variable (su) in
lemma triple_newGlobal (object : Object) (call : LibraryCall) (hnew : object ∉ allowed)
    (hfreed : object ∉ freed) (hother : object ≠ .errorBuffer) :
    Triple (Holding needed allowed freed locals served fatal halted) (newGlobal su object call)
      (fun made => Holding (bif made then insert object needed else needed) (insert object allowed)
        freed locals served fatal halted) Cut := by
  refine triple_bind (triple_newLocal su object call) fun made => ?_
  cases made with
  | false =>
    exact triple_pure fun p h => h.mono subset_rfl (Finset.subset_insert object allowed) le_rfl
  | true =>
    intro p h
    exact h.assigned hnew hfreed hother

variable (su) in
lemma triple_release (object : Object) :
    Triple (Holding needed allowed freed (object ::ₘ locals) served fatal halted)
      (release su object) (fun _ => Holding needed allowed freed locals served fatal halted)
      Cut := by
  refine triple_bind (triple_callLibrary su (.free object)) fun _ p h => ?_
  have hmem : object ∈ object ::ₘ locals := Multiset.mem_cons_self object locals
  have hthere : object ∈ p.objects := by
    rw [h.objects]
    exact Multiset.mem_add.mpr (.inr hmem)
  rw [drop_apply, if_pos hthere]
  exact { h with
    objects := by
      simp only [h.objects]
      rw [Multiset.erase_add_right_pos _ hmem, Multiset.erase_cons_head] }

variable (su) in
lemma triple_releaseGlobal (object : Object) (hfreed : object ∉ freed)
    (hother : object ≠ .errorBuffer) :
    Triple (Holding needed allowed freed 0 served fatal halted) (releaseGlobal su object)
      (fun _ => Holding needed allowed (insert object freed) 0 served fatal halted) Cut := by
  have hkept : ∀ {q : Program}, Holding needed allowed freed 0 served fatal halted q →
      .errorBuffer ∉ insert object freed := fun h hmem =>
    (Finset.mem_insert.mp hmem).elim (fun heq => hother heq.symm) h.notMem_freed
  refine triple_get_bind fun p h => ?_
  by_cases hnull : object ∈ p.pointers
  · -- the variable is not NULL, and nothing that comes while its object is freed changes that
    have hneeded : Holding (insert object needed) allowed freed 0 served fatal halted p :=
      { h with
        needed_subset := Finset.insert_subset
          (Finset.mem_erase.mpr ⟨hother, hnull⟩) h.needed_subset }
    simp only [if_pos hnull]
    refine triple_bind ((triple_callLibrary su (.free object)).fromState hneeded)
      fun _ q hq => ?_
    have hthere : object ∈ (q.pointers \ freed).val := Finset.mem_sdiff.mpr
      ⟨Finset.mem_of_mem_erase (hq.needed_subset (Finset.mem_insert_self object needed)), hfreed⟩
    have hmem : object ∈ q.objects := by
      rw [hq.objects]
      exact Multiset.mem_add.mpr (.inl hthere)
    rw [drop_apply, if_pos hmem]
    have hless := hq.mono (Finset.subset_insert object needed) subset_rfl le_rfl
    exact { hless with
      notMem_freed := hkept hless
      objects := by
        simp only [hq.objects]
        rw [Multiset.add_zero, Multiset.add_zero, Finset.sdiff_insert, Finset.erase_val] }
  · simp only [if_neg hnull]
    refine triple_pure fun q hq => ?_
    subst hq
    exact { h with
      notMem_freed := hkept h
      objects := by rw [Finset.sdiff_insert_of_notMem hnull, h.objects] }

/-! ### Setting up -/

/-- Where nothing is done after a failure, what is reported of it comes last. -/
lemma triple_orGiveUp {P : Program → Prop} {Q : Bool → Program → Prop} {E : Program → Prop}
    {level : LogLevel} {succeeds : Bool} {rest : ProgramM Bool}
    (hrest : succeeds = true → Triple P rest Q E)
    (hfail : succeeds = false → Triple P (redstoreLog level) (fun _ => Q false) E) :
    Triple P (orGiveUp level succeeds rest) Q E := by
  cases succeeds with
  | true => exact hrest rfl
  | false => exact triple_bind (hfail rfl) fun _ => triple_pure fun _ h => h

lemma triple_reportUnless (level : LogLevel) (succeeds : Bool) :
    Triple (Holding needed allowed freed locals served fatal halted) (reportUnless level succeeds)
      (fun _ => Holding needed allowed freed locals served fatal halted) Cut :=
  triple_ite (triple_pure fun _ h => h) (triple_redstoreLog' level)

lemma triple_redstoreSetupStorage (settings : Settings)
    (hpublic : .publicStorageOptions ∉ allowed) (hstorage : .storage ∉ allowed) :
    Triple (Holding needed allowed ∅ 0 served fatal halted) (redstoreSetupStorage su settings)
      (fun opened => Holding (bif opened then insert .storage needed else needed)
        (insert .storage (insert .publicStorageOptions allowed)) ∅ 0 served fatal halted)
      Cut := by
  have hstorage' : .storage ∉ insert .publicStorageOptions allowed := by simpa using hstorage
  refine triple_bind (triple_newLocal su .storageOptions _) fun made => triple_orGiveUp ?_ ?_
  · rintro rfl
    simp only [cond_true]
    refine triple_bind (triple_redstoreLog' .info) fun _ => ?_
    refine triple_bind (triple_redstoreLog' .info) fun _ => ?_
    refine triple_bind (triple_newGlobal su .publicStorageOptions _ hpublic
      (Finset.notMem_empty _) nofun) fun converted => ?_
    have hneeded : needed ⊆ bif converted then insert .publicStorageOptions needed else needed := by
      cases converted with
      | false => exact subset_rfl
      | true => exact Finset.subset_insert _ _
    refine triple_bind (triple_redstoreLog_mono (if converted then .info else .warn) hneeded
      subset_rfl) fun _ => ?_
    refine triple_bind (triple_newGlobal su .storage _ hstorage' (Finset.notMem_empty _) nofun)
      fun opened => ?_
    exact triple_bind (triple_reportUnless .error opened) fun _ =>
      triple_bind (triple_release su .storageOptions) fun _ => triple_pure fun _ h => h
  · rintro rfl
    exact triple_redstoreLog_mono .error subset_rfl
      ((Finset.subset_insert _ _).trans (Finset.subset_insert _ _))

lemma triple_redstoreLoadInputFile (settings : Settings) :
    Triple (Holding needed allowed freed 0 served fatal halted)
      (redstoreLoadInputFile su settings)
      (fun _ => Holding needed allowed freed 0 served fatal halted) Cut := by
  rw [redstoreLoadInputFile]
  cases settings.inputFilename with
  | none => exact triple_pure fun _ h => h
  | some filename =>
    refine triple_bind (triple_newLocal su .inputUri _) fun made => triple_orGiveUp ?_ ?_
    · rintro rfl
      simp only [cond_true]
      refine triple_bind (triple_redstoreLog' .info) fun _ => ?_
      refine triple_bind (triple_redstoreLog' .debug) fun _ => ?_
      refine triple_bind (triple_callLibrary su _) fun loaded => ?_
      exact triple_bind (triple_release su .inputUri) fun _ => triple_pure fun _ h => h
    · rintro rfl
      exact triple_redstoreLog' .error

lemma triple_descriptionInit (hformat : .formatNsUri ∉ allowed) (hsd : .sdNsUri ∉ allowed)
    (hvoid : .voidNsUri ∉ allowed) :
    Triple (Holding needed allowed ∅ 0 served fatal halted) (descriptionInit su)
      (fun initialised => Holding (bif initialised then
          insert .voidNsUri (insert .sdNsUri (insert .formatNsUri needed)) else needed)
        (insert .voidNsUri (insert .sdNsUri (insert .formatNsUri allowed))) ∅ 0 served fatal halted)
      Cut := by
  have hsd' : .sdNsUri ∉ insert .formatNsUri allowed := by simpa using hsd
  have hvoid' : .voidNsUri ∉ insert .sdNsUri (insert .formatNsUri allowed) := by simpa using hvoid
  refine triple_bind (triple_newGlobal su .formatNsUri _ hformat (Finset.notMem_empty _) nofun)
    fun made => triple_orGiveUp ?_ ?_
  · rintro rfl
    refine triple_bind (triple_newGlobal su .sdNsUri _ hsd' (Finset.notMem_empty _) nofun)
      fun made => triple_orGiveUp ?_ ?_
    · rintro rfl
      refine triple_bind (triple_newGlobal su .voidNsUri _ hvoid' (Finset.notMem_empty _) nofun)
        fun made => triple_orGiveUp ?_ ?_
      · rintro rfl
        exact triple_pure fun _ h => h
      · rintro rfl
        exact triple_redstoreLog_mono .error
          ((Finset.subset_insert _ _).trans (Finset.subset_insert _ _)) subset_rfl
    · rintro rfl
      exact triple_redstoreLog_mono .error (Finset.subset_insert _ _) (Finset.subset_insert _ _)
  · rintro rfl
    exact triple_redstoreLog_mono .error subset_rfl
      ((Finset.subset_insert _ _).trans (Finset.subset_insert _ _))

/-- The variables that outlive the functions that assign them. -/
def globals : Finset Object := insert .publicStorageOptions essentials

/-- A fatal error on the way to the loop. -/
lemma triple_giveUp (hallowed : allowed ⊆ globals) :
    Triple (Holding needed allowed ∅ 0 served 0 false) (redstoreLog .fatal)
      (fun _ => Holding ∅ globals ∅ 0 served 1 true) Cut := by
  refine (triple_redstoreLog .fatal).mono (fun _ h => h) fun _ p h => ?_
  have hnotRunning : p.running = false := by
    have hfatal := h.fatal_le
    have hone := h.atMostOne
    cases hrunning : p.running with
    | false => rfl
    | true =>
      simp only [hrunning, if_true] at hone hfatal
      omega
  have h' := h.mono (Finset.empty_subset needed) hallowed le_rfl
  exact { h' with halts := fun _ => hnotRunning }

lemma triple_startUp (settings : Settings) :
    Triple (Holding {.world} {.world} ∅ 0 served 0 false) (startUp su settings)
      (fun started => Holding (bif started then essentials else ∅) globals ∅ 0 served
        (bif started then 0 else 1) (!started)) Cut := by
  refine triple_bind (triple_newGlobal su .server _ (by decide) (Finset.notMem_empty _) nofun)
    fun made => triple_orGiveUp ?_ fun _ => triple_giveUp (by decide)
  rintro rfl
  refine triple_bind (triple_redstoreSetupStorage settings (by decide) (by decide))
    fun made => triple_orGiveUp ?_ fun _ => triple_giveUp (by decide)
  rintro rfl
  refine triple_bind (triple_newGlobal su .model _ (by decide) (Finset.notMem_empty _) nofun)
    fun made => triple_orGiveUp ?_ fun _ => triple_giveUp (by decide)
  rintro rfl
  refine triple_bind (triple_redstoreLoadInputFile settings)
    fun loaded => triple_orGiveUp ?_ fun _ => triple_giveUp (by decide)
  rintro rfl
  refine triple_bind (triple_descriptionInit (by decide) (by decide) (by decide))
    fun initialised => triple_orGiveUp ?_ fun _ => triple_giveUp (by decide)
  rintro rfl
  refine triple_bind (triple_redstoreLog' .info) fun _ => ?_
  refine triple_bind (triple_callLibrary su _)
    fun listening => triple_orGiveUp ?_ fun _ => triple_giveUp (by decide)
  rintro rfl
  exact triple_pure fun _ h => h.mono (by decide) (by decide) le_rfl

/-! ### Serving -/

section Serving

variable {b : Bool} {round : List Incident}

/-- Whether the program runs on, a message decides by its level. -/
lemma live_redstoreLog (level : LogLevel) :
    Triple (fun p => p.running = b) (redstoreLog level)
      (fun _ p => p.running = (b && !(Note.logged level).stops)) (fun _ => True) := by
  intro p hp
  rw [redstoreLog_apply]
  by_cases hfatal : level = .fatal
  · cases hrunning : p.running with
    | true => simp [hfatal, Note.stops]
    | false => simp [hfatal]
  · by_cases hshows : p.verbosity.shows level = true
    · simp [hfatal, hshows, Note.stops, hp]
    · simp [hfatal, hshows, Note.stops, hp]

lemma live_happen (h : Happening) :
    Triple (fun p => p.running = b) (happen h) (fun _ p => p.running = (b && !h.stops))
      (fun _ => True) := by
  cases h with
  | message level room =>
    refine triple_bind (live_redstoreLog level) fun _ => triple_get_bind fun p hp => ?_
    by_cases hnull : .errorBuffer ∈ p.pointers
    · simp only [hnull, not_true, if_false]
      exact triple_pure fun q hq => hq ▸ hp
    · simp only [hnull, not_false_eq_true, if_true]
      cases room with
      | true => exact fun q hq => by subst hq; exact hp
      | false =>
        refine ((live_redstoreLog .error).fromState hp).mono (fun _ h => h) fun _ q hq => ?_
        simpa [Note.stops, Happening.stops] using hq
  | signal =>
    refine triple_get_bind fun p hp => ?_
    by_cases hhandler : p.handlesSignals = true
    · simp only [if_pos hhandler]
      refine triple_bind ((live_redstoreLog .info).fromState hp) fun _ q _ => ?_
      simp [Happening.stops]
    · simp only [if_neg hhandler]
      exact fun q _ => trivial
  | deadlySignal => exact fun p _ => trivial

lemma live_incident (i : Incident) :
    Triple (fun p => p.running = b) (incident i) (fun _ p => p.running = (b && !i.stops))
      (fun _ => True) := by
  cases i with
  | request =>
    intro p hp
    rw [incident, resetErrorBuffer_apply]
    by_cases hnull : .errorBuffer ∈ p.pointers
    · by_cases hthere : .errorBuffer ∈ p.objects <;> simp [hnull, hthere, Incident.stops, hp]
    · simp [hnull, Incident.stops, hp]
  | happening h => exact live_happen h
  | failure => exact fun p _ => trivial
  | fault fault => exact fun p _ => trivial

/-- Behind a round the program runs unless something in the round has stopped it. -/
lemma live_forM (round : List Incident) :
    Triple (fun p => p.running = b) (round.forM incident)
      (fun _ p => p.running = (b && !round.any Incident.stops)) (fun _ => True) := by
  induction round generalizing b with
  | nil => exact triple_pure fun p hp => by simpa using hp
  | cons i round ih =>
    refine triple_bind (live_incident i) fun _ => ih.mono (fun _ h => h) fun _ p hp => ?_
    rw [List.any_cons, Bool.not_or, ← Bool.and_assoc]
    exact hp

lemma triple_incident (hround : round ∈ su.rounds) {i : Incident} (hi : i ∈ round) :
    Triple (Holding needed allowed freed locals served fatal halted) (incident i)
      (fun _ => Holding needed allowed freed locals served fatal halted)
      (Abandoned su switches arguments) := by
  cases i with
  | request => exact triple_resetErrorBuffer
  | happening h => exact (triple_happen h).weaken fun _ hcut => .cut hcut
  | failure => exact fun p _ => .failure hround hi rfl
  | fault fault => exact fun p _ => .fault hround hi rfl

lemma triple_serveRound (hround : round ∈ su.rounds) :
    Triple (fun p => Holding needed allowed freed locals served fatal false p ∧ p.running = true)
      (serveRound round)
      (fun _ p => Holding needed allowed freed locals (served + 1) fatal
        (round.any Incident.stops) p ∧ p.running = !round.any Incident.stops)
      (Abandoned su switches arguments) := by
  have hround' := (triple_forM (I := Holding needed allowed freed locals (served + 1) fatal false)
    (E := Abandoned su switches arguments) round fun i hi => triple_incident hround hi).and
      (live_forM (b := true) round)
  refine triple_bind (Q := fun _ p => Holding needed allowed freed locals (served + 1) fatal false
    p ∧ p.running = true) ?_ fun _ => hround'.mono (fun _ h => h) fun _ p h => ?_
  · rintro p ⟨h, hrunning⟩
    exact ⟨{ h with rounds := congrArg (· + 1) h.rounds }, hrunning⟩
  · have hrunning : p.running = !round.any Incident.stops := by simpa using h.2
    exact ⟨{ h.1 with halts := fun hstops => by rw [hrunning, hstops]; rfl }, hrunning⟩

lemma serveRounds_of_stopped (rounds : List (List Incident)) (hstopped : p.running = false) :
    serveRounds rounds p = .ok true p := by
  cases rounds with
  | nil => simp [serveRounds, bind_apply, hstopped]
  | cons round rounds => simp [serveRounds, bind_apply, hstopped]

/-- The loop ends behind the first round that stops the program. -/
lemma triple_serveRounds {rounds : List (List Incident)}
    (hrounds : ∀ round ∈ rounds, round ∈ su.rounds) :
    Triple (fun p => Holding needed allowed freed locals served fatal false p ∧ p.running = true)
      (serveRounds rounds)
      (fun left p => left = stopsAtLast rounds ∧ p.running = !left ∧
        Holding needed allowed freed locals (served + roundsUntilStop rounds) fatal left p)
      (Abandoned su switches arguments) := by
  induction rounds generalizing served with
  | nil =>
    rintro p ⟨h, hrunning⟩
    simp only [serveRounds, bind_apply, get_apply, hrunning]
    exact ⟨rfl, hrunning, h⟩
  | cons round rounds ih =>
    rw [serveRounds]
    refine triple_get_bind fun p₀ hp₀ => ?_
    simp only [if_pos hp₀.2]
    refine triple_bind ((triple_serveRound (hrounds round (by simp))).fromState hp₀) fun _ => ?_
    have hlater := @ih (served + 1) fun r hr => hrounds r (by simp [hr])
    cases hstops : round.any Incident.stops with
    | true =>
      rintro p ⟨h, hrunning⟩
      have hlast : stopsAtLast (round :: rounds) = true := by simp [stopsAtLast, hstops]
      have hcount : roundsUntilStop (round :: rounds) = 1 := by simp [roundsUntilStop, hstops]
      rw [serveRounds_of_stopped rounds hrunning, hlast, hcount]
      exact ⟨rfl, hrunning, h⟩
    | false =>
      have hlast : stopsAtLast (round :: rounds) = stopsAtLast rounds := by
        simp [stopsAtLast, hstops]
      have hcount : served + roundsUntilStop (round :: rounds) =
          served + 1 + roundsUntilStop rounds := by
        simp only [roundsUntilStop, hstops, Bool.false_eq_true, if_false]
        omega
      rw [hlast, hcount]
      exact hlater

lemma roundsUntilStop_eq_length {rounds : List (List Incident)}
    (h : stopsAtLast rounds = false) : roundsUntilStop rounds = rounds.length := by
  induction rounds with
  | nil => rfl
  | cons round rounds ih =>
    rw [stopsAtLast, List.any_cons, Bool.or_eq_false_iff] at h
    simp [roundsUntilStop, h.1, ih h.2]

/-- Rounds that have been served when the loop is left, or when there are no more. -/
def ServedTo (su : Surroundings) (left : Bool) (served : ℕ) : Prop :=
  left = true ∧ served = 0 ∨ left = stopsAtLast su.rounds ∧ served = roundsUntilStop su.rounds

/-- The loop from the start, where the program may have been stopped already. -/
lemma triple_serveAllRounds :
    Triple (Holding needed allowed freed locals 0 fatal false) (serveRounds su.rounds)
      (fun left p => ServedTo su left p.rounds ∧ p.running = !left ∧
        Holding needed allowed freed locals p.rounds fatal left p)
      (Abandoned su switches arguments) := by
  intro p h
  cases hrunning : p.running with
  | false =>
    rw [serveRounds_of_stopped su.rounds hrunning]
    have hzero := h.rounds
    exact ⟨.inl ⟨rfl, hzero⟩, hrunning, { h with rounds := rfl, halts := fun _ => hrunning }⟩
  | true =>
    refine (triple_serveRounds fun _ hround => hround).mono (fun _ h => h) ?_ p ⟨h, hrunning⟩
    rintro left p' ⟨hleft, hstill, h'⟩
    have hserved : p'.rounds = roundsUntilStop su.rounds := by simpa using h'.rounds
    exact ⟨.inr ⟨hleft, hserved⟩, hstill, { h' with rounds := rfl }⟩

end Serving

/-! ### The command line -/

section CommandLine

lemma triple_usage {α : Type} {Q : α → Program → Prop}
    (hwrong : wrongUsage switches arguments = true) :
    Triple (Holding needed allowed freed locals served fatal halted) (usage su) Q
      (Abandoned su switches arguments) :=
  triple_bind ((triple_callLibrary su .enumerate).weaken fun _ hcut => .cut hcut)
    fun _ _ _ => .usage hwrong rfl

lemma triple_parseSwitches {rest : List Switch} (settings : Settings) (v : Verbosity)
    (hother : .other ∈ rest → wrongUsage switches arguments = true) :
    Triple (fun p => Holding needed allowed freed locals served fatal halted p ∧ p.verbosity = v)
      (rest.foldlM (parseSwitch su) settings)
      (fun _ p => Holding needed allowed freed locals served fatal halted p ∧ .other ∉ rest ∧
        p.verbosity = ⟨v.verbose || decide (.verbose ∈ rest), v.quiet || decide (.quiet ∈ rest)⟩)
      (Abandoned su switches arguments) := by
  induction rest generalizing settings v with
  | nil =>
    refine triple_pure fun p h => ⟨h.1, List.not_mem_nil, ?_⟩
    simpa using h.2
  | cons switch rest ih =>
    have hrest := fun settings v => ih settings v fun h => hother (List.mem_cons_of_mem switch h)
    -- a switch that leaves the verbosity alone
    have hplain : ∀ settings, switch ≠ .verbose → switch ≠ .quiet → switch ≠ .other →
        Triple (fun p => Holding needed allowed freed locals served fatal halted p ∧
            p.verbosity = v)
          (rest.foldlM (parseSwitch su) settings)
          (fun _ p => Holding needed allowed freed locals served fatal halted p ∧
            .other ∉ switch :: rest ∧ p.verbosity =
              ⟨v.verbose || decide (.verbose ∈ switch :: rest),
                v.quiet || decide (.quiet ∈ switch :: rest)⟩)
          (Abandoned su switches arguments) := by
      intro settings hverbose hquiet hother'
      refine (hrest settings v).mono (fun _ h => h) fun _ p h => ?_
      simpa [hverbose.symm, hquiet.symm, hother'.symm] using h
    rw [List.foldlM_cons]
    cases switch with
    | port arg => exact hplain _ nofun nofun nofun
    | address arg => exact hplain _ nofun nofun nofun
    | storageType arg => exact hplain _ nofun nofun nofun
    | storageOptions arg => exact hplain _ nofun nofun nofun
    | new => exact hplain _ nofun nofun nofun
    | inputFilename arg => exact hplain _ nofun nofun nofun
    | inputFormat arg => exact hplain _ nofun nofun nofun
    | verbose =>
      refine triple_bind (Q := fun s p => Holding needed allowed freed locals served fatal halted
        p ∧ p.verbosity = { v with verbose := true }) ?_ fun s =>
          (hrest s _).mono (fun _ h => h) fun _ p h => ?_
      · rintro p ⟨h, rfl⟩
        exact ⟨{ h with }, rfl⟩
      · simpa using h
    | quiet =>
      refine triple_bind (Q := fun s p => Holding needed allowed freed locals served fatal halted
        p ∧ p.verbosity = { v with quiet := true }) ?_ fun s =>
          (hrest s _).mono (fun _ h => h) fun _ p h => ?_
      · rintro p ⟨h, rfl⟩
        exact ⟨{ h with }, rfl⟩
      · simpa using h
    | other =>
      refine triple_bind (Q := fun _ _ => False) ?_ fun s p hp => hp.elim
      exact (triple_usage (hother (by simp))).mono (fun _ h => h.1) fun _ _ h => h

lemma triple_readArguments {P : Program → Prop} {names : List CString} (settings : Settings)
    (hmany : 1 < names.length → wrongUsage switches arguments = true)
    (hP : ∀ p, P p → Holding needed allowed freed locals served fatal halted p) :
    Triple P (readArguments su settings names) (fun _ p => P p ∧ names.length ≤ 1)
      (Abandoned su switches arguments) := by
  match names with
  | [] => exact triple_pure fun _ h => ⟨h, by simp⟩
  | [name] => exact triple_pure fun _ h => ⟨h, by simp⟩
  | name :: name' :: names => exact (triple_usage (hmany (by simp))).mono hP fun _ _ h => h

lemma triple_setWarningLevel :
    Triple (Holding needed allowed freed locals served fatal halted) (setWarningLevel su)
      (fun _ => Holding needed allowed freed locals served fatal halted) Cut := by
  refine triple_get_bind fun p h => triple_ite ?_ ?_
  · exact triple_bind ((triple_callLibrary su .setWarningLevel).fromState h) fun _ =>
      triple_pure fun _ h => h
  · exact triple_pure fun q hq => hq ▸ h

lemma triple_readSettings :
    Triple (fun p => Holding needed allowed freed locals served fatal halted p ∧
        p.verbosity = ⟨false, false⟩)
      (readSettings su switches arguments)
      (fun _ p => Holding needed allowed freed locals served fatal halted p ∧
        wrongUsage switches arguments = false) (Abandoned su switches arguments) := by
  have hother : .other ∈ switches → wrongUsage switches arguments = true := fun h => by
    simp [wrongUsage, h]
  have hmany : 1 < arguments.length → wrongUsage switches arguments = true := fun h => by
    simp [wrongUsage, h]
  refine triple_bind (triple_parseSwitches {} ⟨false, false⟩ hother) fun settings => ?_
  refine triple_bind (triple_readArguments settings hmany fun _ h => h.1) fun settings => ?_
  refine triple_get_bind fun p hp => ?_
  obtain ⟨⟨h, hknown, hverbosity⟩, hfew⟩ := hp
  have hverbose : p.verbosity.verbose = decide (.verbose ∈ switches) := by
    simp [hverbosity]
  have hquiet : p.verbosity.quiet = decide (.quiet ∈ switches) := by
    simp [hverbosity]
  by_cases hboth : (p.verbosity.quiet && p.verbosity.verbose) = true
  · simp only [if_pos hboth]
    have hwrong : wrongUsage switches arguments = true := by
      rw [hquiet, hverbose] at hboth
      simp [wrongUsage, hboth]
    exact triple_bind (((triple_redstoreLog' .error).weaken fun _ hcut => .cut hcut).fromState h)
      fun _ => triple_usage hwrong
  · simp only [if_neg hboth]
    have hright : wrongUsage switches arguments = false := by
      rw [hquiet, hverbose] at hboth
      simpa [wrongUsage, hknown, hfew] using hboth
    exact triple_bind ((triple_setWarningLevel.weaken fun _ hcut => .cut hcut).fromState h)
      fun _ => triple_pure fun _ h => ⟨h, hright⟩

end CommandLine

/-! ### The end -/

/-- What `main` frees in the end. -/
def cleaned : Finset Object :=
  insert .server (insert .publicStorageOptions (insert .world (insert .storage (insert .model
    (insert .voidNsUri (insert .sdNsUri (insert .formatNsUri ∅)))))))

lemma triple_cleanUp :
    Triple (Holding needed allowed ∅ 0 served fatal halted) (cleanUp su)
      (fun code p => Holding needed allowed cleaned 0 served fatal halted p ∧ code = p.exitCode)
      Cut := by
  have hdescription : Triple (Holding needed allowed ∅ 0 served fatal halted) (descriptionFree su)
      (fun _ => Holding needed allowed (insert .voidNsUri (insert .sdNsUri
        (insert .formatNsUri ∅))) 0 served fatal halted) Cut := by
    refine triple_bind (triple_releaseGlobal su .formatNsUri (by decide) nofun) fun _ => ?_
    refine triple_bind (triple_releaseGlobal su .sdNsUri (by decide) nofun) fun _ => ?_
    exact triple_releaseGlobal su .voidNsUri (by decide) nofun
  refine triple_bind hdescription fun _ => triple_bind triple_resetErrorBuffer fun _ => ?_
  refine triple_bind (triple_releaseGlobal su .model (by decide) nofun) fun _ => ?_
  refine triple_bind (triple_releaseGlobal su .storage (by decide) nofun) fun _ => ?_
  refine triple_bind (triple_releaseGlobal su .world (by decide) nofun) fun _ => ?_
  refine triple_bind (triple_releaseGlobal su .publicStorageOptions (by decide) nofun) fun _ => ?_
  refine triple_bind (triple_releaseGlobal su .server (by decide) nofun) fun _ => ?_
  refine triple_get_bind fun p h => triple_pure fun q hq => ?_
  subst hq
  exact ⟨h, rfl⟩

/-- What a program comes to that cleans up. -/
lemma Holding.finished {left : Bool}
    (h : Holding (bif left then essentials else ∅) globals cleaned 0 p.rounds
      (bif left then 0 else 1) true p)
    (hserved : p.rounds = 0 ∨ stopsAtLast su.rounds = true ∧ p.rounds = roundsUntilStop su.rounds) :
    Finished su p.exitCode p where
  stopped := by
    have hrunning := h.halts rfl
    exact ⟨hrunning, h.stopped (by simp [hrunning])⟩
  exitCode := h.exitCode
  atMostOne := by
    have := h.atMostOne
    split at this <;> omega
  objects := by
    rw [h.objects, Multiset.add_zero, ← Finset.singleton_val, Finset.val_le_iff]
    intro object hmem
    rw [Finset.mem_sdiff] at hmem
    by_contra hother
    have hallowed : object ∈ globals := h.subset_allowed
      (Finset.mem_erase.mpr ⟨fun heq => hother (Finset.mem_singleton.mpr heq), hmem.1⟩)
    have hcleaned : globals ⊆ cleaned := by decide
    exact hmem.2 (hcleaned hallowed)
  served := hserved
  ready := by
    intro hcode
    cases left with
    | false =>
      have hfatal := h.fatal_le
      simp only [cond_false] at hfatal
      omega
    | true => exact h.needed_subset.trans (Finset.erase_subset _ _)

/-- What a program comes to that is still serving. -/
lemma Holding.serving (h : Holding essentials allowed ∅ 0 p.rounds fatal false p)
    (hrunning : p.running = true) (hserved : ServedTo su false p.rounds) : Serving su p where
  running := by
    have hnotes := h.running
    rw [hrunning] at hnotes
    exact ⟨hrunning, by simpa using hnotes.symm⟩
  objects := by simpa using h.objects
  served := by
    rcases hserved with ⟨hleft, -⟩ | ⟨hleft, hserved⟩
    · cases hleft
    · exact ⟨hleft.symm, hserved.trans (roundsUntilStop_eq_length hleft.symm)⟩
  ready := h.needed_subset.trans (Finset.erase_subset _ _)

/-- The last step of a program whose loop has been left, or not been reached. -/
lemma triple_finish (reached : Bool) (husage : wrongUsage switches arguments = false)
    (hserved : served = 0 ∨ stopsAtLast su.rounds = true ∧ served = roundsUntilStop su.rounds) :
    Triple (Holding (bif reached then essentials else ∅) globals ∅ 0 served
        (bif reached then 0 else 1) true) (some <$> cleanUp su)
      (fun code p => Accounted su switches arguments (.ok code p))
      (Abandoned su switches arguments) := by
  refine triple_map ((triple_cleanUp.weaken fun _ hcut => .cut hcut).mono (fun _ h => h) ?_)
  rintro code p ⟨h, rfl⟩
  have hrounds := h.rounds
  subst hrounds
  exact .inr ⟨husage, h.finished hserved⟩

/-- `main` behind the reading of the settings. -/
lemma triple_serve (settings : Settings) (husage : wrongUsage switches arguments = false) :
    Triple (Holding {.world} {.world} ∅ 0 0 0 false)
      (do
        let started ← startUp su settings
        let left ← if started then serveRounds su.rounds else pure true
        if left then some <$> cleanUp su else pure none)
      (fun code p => Accounted su switches arguments (.ok code p))
      (Abandoned su switches arguments) := by
  refine triple_bind ((triple_startUp settings).weaken fun _ hcut => .cut hcut) fun started => ?_
  cases started with
  | false =>
    refine triple_bind (Q := fun left p => left = true ∧
      Holding ∅ globals ∅ 0 0 1 true p) (triple_pure fun _ h => ⟨rfl, h⟩) fun left p hp => ?_
    obtain ⟨rfl, h⟩ := hp
    exact triple_finish false husage (.inl rfl) p h
  | true =>
    refine triple_bind triple_serveAllRounds fun left => ?_
    cases left with
    | true =>
      rintro p ⟨hserved, -, h⟩
      refine triple_finish true husage ?_ p h
      rcases hserved with ⟨-, hzero⟩ | ⟨hleft, hserved⟩
      · exact .inl hzero
      · exact .inr ⟨hleft.symm, hserved⟩
    | false =>
      refine triple_pure fun p hp => ?_
      obtain ⟨hserved, hrunning, h⟩ := hp
      exact ⟨husage, h.serving hrunning hserved⟩

/-- The world has been made. -/
lemma holding_world : Holding {.world} {.world} ∅ 0 0 0 false
    { pointers := {.world}, objects := {.world} } where
  running := rfl
  exitCode := rfl
  atMostOne := le_rfl
  fatal_le := le_rfl
  halts := nofun
  needed_subset := by decide
  subset_allowed := by decide
  notMem_freed := by decide
  objects := rfl
  rounds := rfl

lemma triple_main : Triple (fun p => p = {}) (main su switches arguments)
    (fun code p => Accounted su switches arguments (.ok code p))
    (Abandoned su switches arguments) := by
  rw [main]
  by_cases hworld : su.newWorld = true
  · rw [if_pos hworld]
    refine triple_bind (Q := fun _ p => p = { objects := {.world} })
      (fun p hp => by subst hp; rfl) fun _ => ?_
    refine triple_bind (Q := fun _ p => Holding {.world} {.world} ∅ 0 0 0 false p ∧
      p.verbosity = ⟨false, false⟩)
      (fun p hp => by subst hp; exact ⟨holding_world, rfl⟩) fun _ => ?_
    refine triple_bind triple_readSettings fun settings => ?_
    refine triple_bind (Q := fun _ p => Holding {.world} {.world} ∅ 0 0 0 false p ∧
      wrongUsage switches arguments = false) (fun p h => ⟨{ h.1 with }, h.2⟩) fun _ p h => ?_
    exact triple_serve settings h.2 p h.1
  · rw [if_neg hworld]
    rintro _ rfl
    exact .inl ⟨Bool.eq_false_of_not_eq_true hworld, rfl, rfl, rfl⟩

end Program

open Program

end RedStore.Service
