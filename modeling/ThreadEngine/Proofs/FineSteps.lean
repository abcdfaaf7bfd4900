import ThreadEngine.Proofs.Accounts

set_option autoImplicit false

/-!
# Changes of state in two steps

A change of state is checked against the state that a thread has, and then written, both under the
lock of the registry that it is asked of.  Everybody who asks the same registry has to wait for that
lock; but the thread may be retired in the meantime, because a thread is retired under the lock of
its home.  `FineWorld` takes the two apart: between the check and the write, the world goes on with
whatever does not need the lock.  The write is carried out as if the thread were still in the state
that was seen (`World.withState`), which is all that is known where it happens.

An interpreter that has another thread put in the place of the one it runs gets the displaced thread
back.  Here it is kept, and anybody may take it into his hands again, to start or to create it,
while its first body is not over.

A run comes with a log: the deeds of its operations, the checks, and what can only happen in fine
steps, a dead thread that is revived, a displaced thread that is reclaimed, and a thread that
somebody tries to create once more.
-/

namespace ThreadEngine

/-! ## Locks -/

/-- The registry whose lock a request is served under. -/
def Request.lock? : Request → Option RegistryId
  | .awaitApplications r | .retire r _ | .transition r _ _ | .tally r => some r
  | .detach _ | .stateOf _ | .replace _ | .park | .spawn .. | .reportLaunch _ | .unpark _
  | .reportUnpark | .emit _ => none

/-- The context that takes a step. -/
def Operation.ctx? {σ : Type} : Operation σ → Option Ctx
  | .step _ c => some c
  | _ => none

namespace World

variable {σ : Type}

/-- The registry whose lock the next step of a context is taken under. -/
def stepLock? (w : World σ) (c : Ctx) : Option RegistryId :=
  match w.roster.taskAt c with
  | some task => task.request?.bind Request.lock?
  | none =>
    match c with
    | .host =>
      match w.host with
      | .waiting r => some r
      | .idle | .running .. | .waited _ => none
    | .body t =>
      match w.strands[t]?.bind Strand.child with
      | some (.recording thread) => some thread.registry
      | _ => none
    | .creator _ => none

/-- The registry whose lock an operation is carried out under. -/
def lock? (w : World σ) : Operation σ → Option RegistryId
  | .step _ c => w.stepLock? c
  | .expire =>
    match w.host with
    | .waiting r => some r
    | .idle | .running .. | .waited _ => none
  | .add _ r _ | .transition _ r _ _ => some r
  | .removeRegistry _ => w.installed
  | _ => none

/-- A step that does something else than to take a thread somewhere does what its task asks for. -/
theorem request_of_step {w : World σ} {I : Interpreter σ} {c : Ctx} {d : Deed}
    (deed_eq : w.stepDeed? I c = some d) (stays : d.relocates = false) :
    ∃ task r, w.roster.taskAt c = some task ∧ task.request? = some r ∧
      w.requestDeed? r = some d := by
  have asked {task : Task σ} (deed_eq : w.taskDeed? I task = some d) :
      ∃ r, task.request? = some r ∧ w.requestDeed? r = some d := by
    unfold taskDeed? at deed_eq
    split at deed_eq
    · split at deed_eq
      · cases deed_eq
        cases stays
      · cases deed_eq
    · exact Option.bind_eq_some_iff.mp deed_eq
  cases c with
  | host =>
      simp only [stepDeed?] at deed_eq
      split at deed_eq
      · rename_i slot task host_eq
        obtain ⟨r, asks, served⟩ := asked deed_eq
        exact ⟨task, r, by simp [Roster.taskAt, roster, host_eq, Host.task?], asks, served⟩
      all_goals cases deed_eq
  | body t =>
      simp only [stepDeed?] at deed_eq
      split at deed_eq
      · cases deed_eq
        cases stays
      · cases deed_eq
        cases stays
      · rename_i task child_eq
        obtain ⟨s, strand_eq, child_eq⟩ := Option.bind_eq_some_iff.mp child_eq
        obtain ⟨r, asks, served⟩ := asked deed_eq
        refine ⟨task, r, ?_, asks, served⟩
        simp [Roster.taskAt, launches_getElem?, strand_eq, Strand.launchState, child_eq,
          Child.task?]
      all_goals cases deed_eq
  | creator t => cases deed_eq

/-- A state is changed from outside, or by the step of a task that asks for it. -/
theorem moved_cases {w : World σ} {op : Operation σ} {t : ThreadId} {next : State}
    (deed_eq : w.deed? op = some (.moved t next)) :
    w.change? t next = some (.moved t next) ∧
      ((∃ c r, op = .transition c r t next) ∨
        ∃ I c task r, op = .step I c ∧ w.roster.taskAt c = some task ∧
          task.request? = some (.transition r t next)) := by
  cases op with
  | step I c =>
      obtain ⟨task, request, task_eq, asks, served⟩ := request_of_step deed_eq rfl
      cases request with
      | transition r' t' next' =>
          cases (change?_eq_some served).1
          exact ⟨served, .inr ⟨I, c, task, r', rfl, task_eq, asks⟩⟩
      | retire r' t' => cases (retirement?_eq_some served).1
      | spawn slot object =>
          obtain ⟨thread, _, other⟩ := Option.map_eq_some_iff.mp served
          cases other
      | _ => cases served
  | transition c r t' next' =>
      cases (change?_eq_some deed_eq).1
      exact ⟨deed_eq, .inl ⟨c, r, rfl⟩⟩
  | application m args env =>
      simp only [deed?] at deed_eq
      split at deed_eq <;> cases deed_eq
  | start I slot | create slot object =>
      obtain ⟨thread, _, other⟩ := Option.map_eq_some_iff.mp deed_eq
      cases other
  | installRegistry c =>
      simp only [deed?] at deed_eq
      split at deed_eq <;> cases deed_eq
  | _ => cases deed_eq

/-! ## Writing a state -/

/-- The world, with a thread in another state. -/
def withState (w : World σ) (t : ThreadId) (s : State) : World σ :=
  w.modifyHandle t ({ · with state := s })

@[simp] theorem roster_withState (w : World σ) (t : ThreadId) (s : State) :
    (w.withState t s).roster = w.roster := roster_modifyHandle w t _

theorem ledger_withState (w : World σ) (t : ThreadId) (s : State) :
    (w.withState t s).ledger = w.ledger.after (.moved t s) := by
  simp only [ledger, withState, modifyHandle, modifyStrand, Ledger.after]
  rw [map_modify _ _ (fun card : Card => { card with state := s }) fun _ => rfl]

theorem state?_withState (w : World σ) (t u : ThreadId) (s : State) :
    (w.withState t s).state? u = if t = u then (w.state? u).map fun _ => s else w.state? u := by
  rw [← ledger_state?, ledger_withState, Ledger.state?_after, ledger_state?]

/-- A change of state that is not refused writes the state. -/
theorem transition_of_change {w : World σ} {t : ThreadId} {next : State} {d : Deed}
    (changes : w.change? t next = some d) (c : Ctx) (r : RegistryId) :
    ∃ notes, w.transition c r t next = (.changed, (w.withState t next).note c notes) := by
  cases state_eq : w.state? t with
  | none => simp [change?, state_eq] at changes
  | some current =>
      simp only [change?, state_eq] at changes
      simp only [transition, state_eq]
      split at changes
      · cases changes
      · rename_i legal
        rw [if_neg legal]
        exact ⟨_, rfl⟩

/-! ## Displaced threads -/

/-- The thread that a step puts another one in the place of. -/
def displaced? (w : World σ) : Operation σ → Option Thread
  | .step _ c =>
    (w.roster.taskAt c).bind fun task =>
      match task.request? with
      | some (.replace slot) => (w.held? slot).map fun _ => task.thread
      | _ => none
  | _ => none

/-- Whether an operation creates a thread whose creation has begun before. -/
def recreates (w : World σ) (op : Operation σ) : Bool :=
  match w.deed? op with
  | some (.created t) => (w.strands[t]?.bind Strand.creation).isSome
  | _ => false

end World

/-! ## Fine steps -/

/-- A change of state between its check and its write. -/
structure PendingChange (σ : Type) where
  /-- what is being carried out -/
  op : Operation σ
  /-- the registry that was asked, whose lock is held -/
  registry : RegistryId
  thread : ThreadId
  /-- the state that was found -/
  seen : State
  next : State

/-- A world in which changes of state are under way. -/
structure FineWorld (σ : Type) where
  world : World σ
  pending : List (PendingChange σ)
  /-- threads that were displaced, and that nobody has taken since -/
  displaced : List Thread

/-- What is done in a fine step. -/
inductive FineDeed where
  | deed (d : Deed)
  /-- a registry has found that a thread may change its state -/
  | checked (r : RegistryId) (t : ThreadId)
  /-- a state was written to a thread that had died since the check -/
  | revived (t : ThreadId) (next : State)
  /-- somebody has taken a displaced thread into his hands -/
  | reclaimed (t : ThreadId)
  /-- somebody has tried to create a thread whose object is bound -/
  | rebound (t : ThreadId)
  deriving DecidableEq, Repr, Inhabited

/-- The deeds of a log. -/
def deedsOf (log : List FineDeed) : List Deed :=
  log.filterMap fun
    | .deed d => some d
    | .checked .. | .revived .. | .reclaimed _ | .rebound _ => none

theorem deedsOf_append (first second : List FineDeed) :
    deedsOf (first ++ second) = deedsOf first ++ deedsOf second := List.filterMap_append

theorem deedsOf_map (h : List Deed) : deedsOf (h.map .deed) = h := by
  rw [deedsOf, List.filterMap_map]
  exact List.filterMap_some

theorem mem_deedsOf {d : Deed} {log : List FineDeed} : d ∈ deedsOf log ↔ .deed d ∈ log := by
  rw [deedsOf, List.mem_filterMap]
  constructor
  · rintro ⟨e, member, same⟩
    cases e with
    | deed d' =>
        cases same
        exact member
    | _ => cases same
  · intro member
    exact ⟨.deed d, member, rfl⟩

/-- Something that can be done to a world in fine steps. -/
inductive FineOperation (σ : Type) where
  /-- an operation is carried out as a whole -/
  | act (op : Operation σ)
  /-- an operation that changes a state makes its check -/
  | check (op : Operation σ)
  /-- a change of state is written -/
  | store (i : Nat)
  /-- somebody takes a displaced thread into his hands, at a place -/
  | reclaim (i : Nat) (slot : ThreadId)
  /-- somebody creates the thread that he holds at a place, which was created before -/
  | recreate (slot : ThreadId)

/-- What a fine operation carries out, or begins to, is allowed. -/
def FineOperation.Within {σ : Type} (Allowed : Operation σ → Prop) : FineOperation σ → Prop
  | .act op | .check op => Allowed op
  | .store _ | .reclaim .. | .recreate _ => True

namespace FineWorld

variable {σ : Type}

/-- A world with some registries and no threads. -/
def ofRegistries (n : Nat) (config : ConfigCell) : FineWorld σ :=
  ⟨World.ofRegistries n config, [], []⟩

/-- Nobody holds the lock that an operation needs, and the context that takes a step is not in the
middle of another one. -/
def Free (f : FineWorld σ) (op : Operation σ) : Prop :=
  ∀ p ∈ f.pending, f.world.lock? op ≠ some p.registry ∧ (op.ctx? = none ∨ op.ctx? ≠ p.op.ctx?)

instance (f : FineWorld σ) (op : Operation σ) : Decidable (f.Free op) :=
  inferInstanceAs (Decidable (∀ p ∈ f.pending, _ ∧ _))

/-- What the write of a change does: it revives a thread that has died since the check, and changes
the state of another one, unless somebody else has done so. -/
def storeDeeds (f : FineWorld σ) (p : PendingChange σ) : List FineDeed :=
  if f.world.state? p.thread = some .died then [.revived p.thread p.next]
  else (f.world.change? p.thread p.next).toList.map .deed

/-- The operation that a fine step has to do with. -/
def operation? (f : FineWorld σ) : FineOperation σ → Option (Operation σ)
  | .act op | .check op => some op
  | .store i => f.pending[i]?.map PendingChange.op
  | .reclaim .. | .recreate _ => none

/-- Takes a fine step, with what is done in it; `none` if it is not possible now. -/
def perform (f : FineWorld σ) : FineOperation σ → Option (List FineDeed × FineWorld σ)
  | .act op =>
    if f.Free op ∧ f.world.recreates op = false then
      (f.world.perform op).map fun v =>
        ((f.world.deed? op).toList.map .deed,
          { f with world := v, displaced := f.displaced ++ (f.world.displaced? op).toList })
    else none
  | .check op =>
    if f.Free op then
      match f.world.deed? op, f.world.lock? op with
      | some (.moved t next), some r =>
        (f.world.state? t).map fun seen =>
          ([.checked r t], { f with pending := f.pending ++ [⟨op, r, t, seen, next⟩] })
      | _, _ => none
    else none
  | .store i =>
    match f.pending[i]? with
    | none => none
    | some p =>
      if (f.world.withState p.thread p.seen).deed? p.op = some (.moved p.thread p.next) then
        ((f.world.withState p.thread p.seen).perform p.op).map fun v =>
          (f.storeDeeds p, { f with world := v, pending := f.pending.eraseIdx i })
      else none
  | .reclaim i slot =>
    match f.displaced[i]?, f.world.strands[slot]? with
    | some thread, some s =>
      if s.held = none then
        some ([.reclaimed thread.id],
          { f with world := f.world.putHeld slot thread, displaced := f.displaced.eraseIdx i })
      else none
    | _, _ => none
  | .recreate slot =>
    match f.world.held? slot with
    | none => none
    | some thread =>
      if ((f.world.strands[thread.id]?).bind Strand.creation).isSome then
        some ([.rebound thread.id],
          { f with
            world := (f.world.takeHeld slot).note (.creator thread.id)
              (Abort.invariant .boundTwice).notes })
      else none

/-- What a fine step can be, with the operations in it restricted. -/
inductive Step (Allowed : Operation σ → Prop) (f : FineWorld σ) :
    List FineDeed → FineWorld σ → Prop
  | acted {op : Operation σ} {v : World σ} (allowed : Allowed op) (free : f.Free op)
      (fresh : f.world.recreates op = false) (done : f.world.perform op = some v) :
      Step Allowed f ((f.world.deed? op).toList.map .deed)
        { f with world := v, displaced := f.displaced ++ (f.world.displaced? op).toList }
  | checked {op : Operation σ} {r : RegistryId} {t : ThreadId} {seen next : State}
      (allowed : Allowed op) (free : f.Free op) (deed_eq : f.world.deed? op = some (.moved t next))
      (lock_eq : f.world.lock? op = some r) (state_eq : f.world.state? t = some seen) :
      Step Allowed f [.checked r t] { f with pending := f.pending ++ [⟨op, r, t, seen, next⟩] }
  | stored {i : Nat} {p : PendingChange σ} {v : World σ} (pending_eq : f.pending[i]? = some p)
      (allowed : Allowed p.op)
      (deed_eq : (f.world.withState p.thread p.seen).deed? p.op = some (.moved p.thread p.next))
      (done : (f.world.withState p.thread p.seen).perform p.op = some v) :
      Step Allowed f (f.storeDeeds p) { f with world := v, pending := f.pending.eraseIdx i }
  | reclaimed {i : Nat} {slot : ThreadId} {thread : Thread} {s : Strand σ}
      (displaced_eq : f.displaced[i]? = some thread) (strand_eq : f.world.strands[slot]? = some s)
      (free : s.held = none) :
      Step Allowed f [.reclaimed thread.id]
        { f with world := f.world.putHeld slot thread, displaced := f.displaced.eraseIdx i }
  | rebound {slot : ThreadId} {thread : Thread} (held_eq : f.world.held? slot = some thread)
      (begun : ((f.world.strands[thread.id]?).bind Strand.creation).isSome = true) :
      Step Allowed f [.rebound thread.id]
        { f with
          world := (f.world.takeHeld slot).note (.creator thread.id)
            (Abort.invariant .boundTwice).notes }

theorem step_of_perform {Allowed : Operation σ → Prop} {f g : FineWorld σ} {op : FineOperation σ}
    {more : List FineDeed} (allowed : ∀ o ∈ f.operation? op, Allowed o)
    (done : f.perform op = some (more, g)) : Step Allowed f more g := by
  cases op with
  | act op =>
      simp only [perform] at done
      split at done
      · rename_i possible
        obtain ⟨v, performed, same⟩ := Option.map_eq_some_iff.mp done
        cases same
        exact .acted (allowed op rfl) possible.1 possible.2 performed
      · cases done
  | check op =>
      simp only [perform] at done
      split at done
      · rename_i free
        split at done
        · rename_i t next r deed_eq lock_eq
          obtain ⟨seen, state_eq, same⟩ := Option.map_eq_some_iff.mp done
          cases same
          exact .checked (allowed op rfl) free deed_eq lock_eq state_eq
        · cases done
      · cases done
  | store i =>
      simp only [perform] at done
      split at done
      · cases done
      · rename_i p pending_eq
        split at done
        · rename_i deed_eq
          obtain ⟨v, performed, same⟩ := Option.map_eq_some_iff.mp done
          cases same
          have allowed' : Allowed p.op := allowed p.op (by simp [operation?, pending_eq])
          exact .stored pending_eq allowed' deed_eq performed
        · cases done
  | reclaim i slot =>
      simp only [perform] at done
      split at done
      · rename_i thread s displaced_eq strand_eq
        split at done
        · rename_i free
          cases done
          exact .reclaimed displaced_eq strand_eq free
        · cases done
      · cases done
  | recreate slot =>
      simp only [perform] at done
      split at done
      · cases done
      · rename_i thread held_eq
        split at done
        · rename_i begun
          cases done
          exact .rebound held_eq begun
        · cases done

/-- Runs in fine steps: any of them in any order, with what is done in them. -/
inductive Run (Allowed : Operation σ → Prop) (f : FineWorld σ) : List FineDeed → FineWorld σ → Prop
  | refl : Run Allowed f [] f
  | snoc {log more : List FineDeed} {g g' : FineWorld σ} (run : Run Allowed f log g)
      (step : Step Allowed g more g') : Run Allowed f (log ++ more) g'

/-- One run after another. -/
theorem Run.trans {Allowed : Operation σ → Prop} {f g g' : FineWorld σ}
    {log log' : List FineDeed} (first : Run Allowed f log g) (second : Run Allowed g log' g') :
    Run Allowed f (log ++ log') g' := by
  induction second with
  | refl => simpa using first
  | snoc _ step ih => simpa using ih.snoc step

/-- Fine steps of some operations are fine steps of more. -/
theorem Step.mono {Allowed Allowed' : Operation σ → Prop} {f g : FineWorld σ}
    {more : List FineDeed} (weaker : ∀ op, Allowed op → Allowed' op)
    (step : Step Allowed f more g) : Step Allowed' f more g := by
  cases step with
  | acted allowed free fresh done => exact .acted (weaker _ allowed) free fresh done
  | checked allowed free deed_eq lock_eq state_eq =>
      exact .checked (weaker _ allowed) free deed_eq lock_eq state_eq
  | stored pending_eq allowed deed_eq done =>
      exact .stored pending_eq (weaker _ allowed) deed_eq done
  | reclaimed displaced_eq strand_eq free => exact .reclaimed displaced_eq strand_eq free
  | rebound held_eq begun => exact .rebound held_eq begun

/-- A run of some operations is one of more. -/
theorem Run.mono {Allowed Allowed' : Operation σ → Prop} {f g : FineWorld σ}
    {log : List FineDeed} (weaker : ∀ op, Allowed op → Allowed' op) (run : Run Allowed f log g) :
    Run Allowed' f log g := by
  induction run with
  | refl => exact .refl
  | snoc _ step ih => exact ih.snoc (step.mono weaker)

/-- Takes fine steps one after the other, with what is done in them; `none` if one of them is not
possible then. -/
def performAll (f : FineWorld σ) : List (FineOperation σ) → Option (List FineDeed × FineWorld σ)
  | [] => some ([], f)
  | op :: ops =>
    match f.perform op with
    | none => none
    | some (more, g) => (g.performAll ops).map fun done => (more ++ done.1, done.2)

/-- A change that is pending was so before, or has just been checked. -/
theorem Step.pending {Allowed : Operation σ → Prop} {f g : FineWorld σ} {more : List FineDeed}
    (step : Step Allowed f more g) {p : PendingChange σ} (member : p ∈ g.pending) :
    p ∈ f.pending ∨
      Allowed p.op ∧ more = [.checked p.registry p.thread] ∧ g.world = f.world ∧
        f.world.state? p.thread = some p.seen ∧
        f.world.deed? p.op = some (.moved p.thread p.next) := by
  cases step with
  | acted | reclaimed | rebound => exact .inl member
  | checked allowed free deed_eq lock_eq state_eq =>
      rcases List.mem_append.mp member with old | new
      · exact .inl old
      · cases List.mem_singleton.mp new
        exact .inr ⟨allowed, rfl, rfl, state_eq, deed_eq⟩
  | stored pending_eq allowed deed_eq done => exact .inl (List.mem_of_mem_eraseIdx member)

/-- What was carried out is a run. -/
theorem run_of_performAll {Allowed : Operation σ → Prop} {f g : FineWorld σ} {log : List FineDeed}
    {ops : List (FineOperation σ)} (pending : ∀ p ∈ f.pending, Allowed p.op)
    (within : ∀ op ∈ ops, op.Within Allowed) (done : f.performAll ops = some (log, g)) :
    Run Allowed f log g := by
  induction ops generalizing f log with
  | nil =>
      cases done
      exact .refl
  | cons op ops ih =>
      unfold performAll at done
      split at done
      · cases done
      · rename_i more f' first
        obtain ⟨⟨log', g'⟩, rest, same⟩ := Option.map_eq_some_iff.mp done
        cases same
        rw [List.forall_mem_cons] at within
        have allowed : ∀ o ∈ f.operation? op, Allowed o := by
          intro o member
          cases op with
          | act op | check op =>
              cases member
              exact within.1
          | store i =>
              obtain ⟨p, pending_eq, rfl⟩ := Option.map_eq_some_iff.mp member
              exact pending p (List.mem_of_getElem? pending_eq)
          | reclaim i slot | recreate slot => cases member
        have step := step_of_perform allowed first
        have pending' : ∀ p ∈ f'.pending, Allowed p.op := by
          intro p member
          rcases step.pending member with old | ⟨new, _⟩
          · exact pending p old
          · exact new
        have one : Run Allowed f more f' := Run.refl.snoc step
        exact one.trans (ih pending' within.2 rest)

/-- What was carried out while no change is pending is a run, whatever one looks at in the end. -/
theorem exists_run_of_performAll {α : Type} {Allowed : Operation σ → Prop} {f : FineWorld σ}
    {ops : List (FineOperation σ)} {view : List FineDeed × FineWorld σ → α} {x : α}
    (idle : f.pending = []) (within : ∀ op ∈ ops, op.Within Allowed)
    (done : (f.performAll ops).map view = some x) :
    ∃ log g, Run Allowed f log g ∧ view (log, g) = x := by
  obtain ⟨⟨log, g⟩, reached, seen⟩ := Option.map_eq_some_iff.mp done
  have pending : ∀ p ∈ f.pending, Allowed p.op := by simp [idle]
  exact ⟨log, g, run_of_performAll pending within reached, seen⟩

/-! ## A thread that writes the state of another one -/

/-- Runs the method as one that has the state of the first thread changed, by the registry of
whoever runs it. -/
def writingInterpreter : Interpreter Script.Activation :=
  Script.interpreter
    { methods := [World.promptMethod], codes := [[.transition (.thread 0) .waiting]] }

theorem isPublic_writingInterpreter : writingInterpreter.IsPublic := Script.isPublic_interpreter _

/-- The next step of the second thread. -/
def writerStep : Operation Script.Activation := .step writingInterpreter (.body 1)

/-- The second thread is launched, and goes on until it asks for that change. -/
def launchWriter : List (FineOperation Script.Activation) := List.flatten
  [[.act (.create 1 .null)], List.replicate 4 (.act (.step writingInterpreter (.creator 1))),
    List.replicate 5 (.act writerStep)]

end FineWorld

end ThreadEngine
