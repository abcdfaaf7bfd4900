import ThreadEngine.Proofs.Operation

set_option autoImplicit false

/-!
# The ledger

The ledger keeps of every thread its kind, its home and its state, and of every registry all but its
waiters.  `Run.ledger_eq` says that the ledger of a world is the replay of the deeds that led to it,
so what a run does to tables, counters and states can be read off its list of deeds.
-/

namespace ThreadEngine

/-- What the ledger keeps of a thread. -/
structure Card where
  kind : Kind
  home : RegistryId
  state : State
  deriving DecidableEq, Repr, Inhabited

/-- Who is counted where. -/
structure Ledger where
  /-- the threads, by their number -/
  cards : List Card
  /-- the registries, by their number and without their waiters -/
  books : List Registry
  deriving DecidableEq, Repr, Inhabited

/-- The ledger after a deed. -/
def Ledger.after (l : Ledger) : Deed → Ledger
  | .built kind home => { l with cards := l.cards ++ [⟨kind, home, .running⟩] }
  | .installed => { l with books := l.books ++ [Registry.empty] }
  | .created _ | .started _ => l
  | .enlisted r t | .added r t => { l with books := l.books.modify r (·.add t) }
  | .moved t next => { l with cards := l.cards.modify t ({ · with state := next }) }
  | .retired r t =>
    { cards := l.cards.modify t ({ · with state := .died })
      books := l.books.modify r fun reg => (reg.remove t).1 }

/-- The state of a thread. -/
def Ledger.state? (l : Ledger) (t : ThreadId) : Option State := l.cards[t]?.map Card.state

/-- Whether a deed can be done. -/
def Ledger.Admits (l : Ledger) : Deed → Prop
  | .built _ home => home < l.books.length
  | .installed | .created _ | .started _ => True
  | .enlisted r t | .added r t => r < l.books.length ∧ t < l.cards.length
  | .moved t next => next ≠ .died ∧ ∃ s, l.state? t = some s ∧ s ≠ .died
  | .retired r t =>
    r < l.books.length ∧ ∃ card, l.cards[t]? = some card ∧ card.home = r ∧ card.state ≠ .died

/-- What the ledger keeps of a registry. -/
def Registry.book (reg : Registry) : Registry := { reg with waiters := [] }

theorem Registry.book_remove (reg : Registry) (t : ThreadId) :
    (reg.remove t).1.book = (reg.book.remove t).1 := by
  unfold Registry.remove Registry.book
  dsimp only
  split
  · split
    · rfl
    · simp [Registry.discount]
  · rfl

/-- What the ledger keeps of a thread. -/
def Handle.card (h : Handle) : Card := ⟨h.kind, h.home, h.state⟩

/-- A change at one place of a list commutes with a map that carries it over. -/
theorem map_modify {α β : Type} (g : α → β) (f : α → α) (f' : β → β)
    (carries : ∀ a, g (f a) = f' (g a)) (l : List α) (i : Nat) :
    (l.modify i f).map g = (l.map g).modify i f' := by
  apply List.ext_getElem?
  intro j
  simp only [List.getElem?_map, List.getElem?_modify]
  cases l[j]? with
  | none => rfl
  | some a =>
      by_cases same : i = j
      · simp [same, carries]
      · simp [same]

namespace World

variable {σ : Type}

/-- The ledger of a world. -/
def ledger (w : World σ) : Ledger :=
  ⟨w.strands.map fun s => s.handle.card, w.registries.map Registry.book⟩

theorem ledger_state? (w : World σ) (t : ThreadId) : w.ledger.state? t = w.state? t := by
  rw [Ledger.state?, state?, handle?]
  simp only [ledger, List.getElem?_map, Option.map_map]
  rfl

/-! ### What leaves the ledger alone -/

@[simp] theorem ledger_note (w : World σ) (c : Ctx) (notes : List Note) :
    (w.note c notes).ledger = w.ledger := rfl

theorem ledger_modifyStrand (w : World σ) (t : ThreadId) {f : Strand σ → Strand σ}
    (same : ∀ s, (f s).handle.card = s.handle.card) : (w.modifyStrand t f).ledger = w.ledger := by
  have cards : ((w.strands.modify t f).map fun s => s.handle.card) =
      w.strands.map fun s => s.handle.card := by
    rw [map_modify _ f id same, List.modify_id]
  simp only [ledger, modifyStrand, cards]

theorem ledger_modifyRegistry (w : World σ) (r : RegistryId) {f : Registry → Registry}
    (same : ∀ reg, (f reg).book = reg.book) : (w.modifyRegistry r f).ledger = w.ledger := by
  have books : (w.registries.modify r f).map Registry.book = w.registries.map Registry.book := by
    rw [map_modify _ f id same, List.modify_id]
  simp only [ledger, modifyRegistry, books]

@[simp] theorem ledger_takeHeld (w : World σ) (slot : ThreadId) :
    (w.takeHeld slot).ledger = w.ledger := ledger_modifyStrand w slot fun _ => rfl

@[simp] theorem ledger_putHeld (w : World σ) (slot : ThreadId) (thread : Thread) :
    (w.putHeld slot thread).ledger = w.ledger := ledger_modifyStrand w slot fun _ => rfl

@[simp] theorem ledger_create (w : World σ) (slot : ThreadId) (thread : Thread) (object : Value) :
    (w.create slot thread object).ledger = w.ledger := by
  unfold create
  rw [ledger_modifyStrand, ledger_modifyStrand, ledger_takeHeld]
  · exact fun _ => rfl
  · exact fun _ => rfl

@[simp] theorem ledger_storeChild (t : ThreadId) (w : World σ) (child : Child σ) :
    (storeChild t w child).ledger = w.ledger := ledger_modifyStrand w t fun _ => rfl

@[simp] theorem ledger_setCreation (w : World σ) (t : ThreadId) (c : Creation) :
    (w.setCreation t c).ledger = w.ledger := ledger_modifyStrand w t fun _ => rfl

@[simp] theorem ledger_unpark (w : World σ) (t : ThreadId) : (w.unpark t).2.ledger = w.ledger := by
  unfold unpark
  split
  · rfl
  · split
    · exact ledger_modifyStrand w t fun _ => rfl
    · rfl

@[simp] theorem ledger_modifyHeld (w : World σ) (slot : ThreadId) (f : Thread → Thread) :
    (w.modifyHeld slot f).ledger = w.ledger := by
  unfold modifyHeld
  split
  · rfl
  · exact ledger_putHeld w slot _

@[simp] theorem ledger_engage (w : World σ) (slot : ThreadId) (work : Task σ × List Note) :
    (w.engage slot work).ledger = w.ledger := ledger_takeHeld w slot

@[simp] theorem ledger_hook (w : World σ) (t : ThreadId) (h : Handle) :
    (w.hook t h).ledger = w.ledger := by
  unfold hook
  split
  · rw [ledger_setCreation]
    exact ledger_modifyStrand w t fun _ => rfl
  · exact ledger_setCreation w t _

/-! ### What changes the ledger -/

theorem ledger_add (w : World σ) (c : Ctx) (r : RegistryId) (t : ThreadId) :
    (w.add c r t).ledger = w.ledger.after (.added r t) := by
  unfold add
  split
  · rename_i missing
    have short : w.registries.length ≤ r := List.getElem?_eq_none_iff.mp missing
    simp [ledger, Ledger.after, List.modify_eq_self, short]
  · rw [ledger_note]
    simp only [ledger, modifyRegistry, Ledger.after]
    rw [map_modify Registry.book (·.add t) (·.add t) fun _ => rfl]

theorem ledger_retire (w : World σ) (c : Ctx) (r : RegistryId) (t : ThreadId) :
    (w.retire c r t).2.ledger = (w.retirement? r t).toList.foldl Ledger.after w.ledger := by
  unfold retire retirement?
  cases state_eq : w.state? t with
  | none => rfl
  | some s =>
      cases registry_eq : w.registries[r]? with
      | none => rfl
      | some reg =>
          dsimp only
          split
          · rfl
          · have states : ((w.strands.modify t fun s =>
                { s with handle := { s.handle with state := .died } }).map fun s => s.handle.card) =
                (w.strands.map fun s => s.handle.card).modify t ({ · with state := .died }) := by
              apply map_modify
              exact fun _ => rfl
            have books : (w.registries.modify r fun _ => (reg.remove t).1).map Registry.book =
                (w.registries.map Registry.book).modify r fun b => (b.remove t).1 := by
              apply List.ext_getElem?
              intro j
              by_cases same : r = j
              · subst same
                simp [registry_eq, Registry.book_remove]
              · simp [same]
            have done : ((w.modifyHandle t ({ · with state := .died })).modifyRegistry r
                fun _ => (reg.remove t).1).ledger = w.ledger.after (.retired r t) := by
              simp only [ledger, modifyRegistry, modifyHandle, modifyStrand, Ledger.after, books]
              rw [states]
            rcases removed : reg.remove t with ⟨reg', found⟩
            rw [removed] at done
            cases found with
            | none => exact done
            | some wasRecorded => exact done

theorem ledger_transition (w : World σ) (c : Ctx) (r : RegistryId) (t : ThreadId) (next : State) :
    (w.transition c r t next).2.ledger = (w.change? t next).toList.foldl Ledger.after w.ledger := by
  unfold transition change?
  cases state_eq : w.state? t with
  | none => rfl
  | some current =>
      dsimp only
      split
      · rfl
      · simp only [ledger_note, Option.toList_some, List.foldl_cons, List.foldl_nil]
        simp only [ledger, modifyHandle, modifyStrand, Ledger.after]
        rw [map_modify _ _ (fun card : Card => { card with state := next }) fun _ => rfl]

theorem ledger_build (w : World σ) (kind : Kind) (m : MethodRef) (args : List Value) (env : Env) :
    (w.build kind m args env).2.ledger = w.ledger.after (.built kind env.registry) := by
  simp [build, ledger, Ledger.after, Handle.card]

theorem ledger_installRegistry (w : World σ) (c : Ctx) :
    (w.installRegistry c).2.ledger =
      (if w.installed = none then some Deed.installed else none).toList.foldl Ledger.after
        w.ledger := by
  unfold installRegistry
  cases w.installed with
  | none => simp [note, ledger, Ledger.after, Registry.book, Registry.empty]
  | some r => rfl

/-! ### What operations do to the ledger -/

theorem ledger_serveAwait {w w' : World σ} {c : Ctx} {r : RegistryId}
    (h : (w.serveAwait c r).world? = some w') : w'.ledger = w.ledger := by
  unfold serveAwait at h
  split at h
  · cases h
    rfl
  · split at h
    · cases h
    · split at h
      · cases h
        rfl
      · cases h
        exact ledger_modifyRegistry w r fun _ => rfl

theorem ledger_servePark {w w' : World σ} {c : Ctx} (h : (w.servePark c).world? = some w') :
    w'.ledger = w.ledger := by
  unfold servePark at h
  split at h
  · cases h
    rfl
  · cases h
    rfl
  · split at h
    · cases h
      rfl
    · cases h
      exact ledger_modifyStrand w _ fun _ => rfl
    · cases h
    · cases h
      exact ledger_modifyStrand w _ fun _ => rfl

theorem ledger_serveUnpark {w w' : World σ} {c : Ctx} {t : ThreadId}
    (h : (w.serveUnpark c t).world? = some w') : w'.ledger = w.ledger := by
  have same := ledger_unpark w t
  unfold serveUnpark at h
  split at h
  · rename_i unparked
    rw [unparked] at same
    cases h
    exact same
  · rename_i unparked
    rw [unparked] at same
    cases h
    exact same

theorem ledger_serveSpawn {w w' : World σ} {c : Ctx} {slot : ThreadId} {object : Value}
    (h : (w.serveSpawn c slot object).world? = some w') : w'.ledger = w.ledger := by
  unfold serveSpawn at h
  split at h
  · cases h
    rfl
  · split at h
    · cases h
      rfl
    · cases h
      exact ledger_create w slot _ object

/-- Creating a thread is not yet counting it. -/
theorem foldl_creation? (l : Ledger) (w : World σ) (slot : ThreadId) :
    (w.creation? slot).toList.foldl Ledger.after l = l := by
  unfold creation?
  cases w.held? slot <;> rfl

/-- Serving a request does to the ledger what its deed says. -/
theorem ledger_serve {w w' : World σ} {c : Ctx} {r : Request}
    (h : (w.serve c r).world? = some w') :
    w'.ledger = (w.requestDeed? r).toList.foldl Ledger.after w.ledger := by
  cases r with
  | detach t =>
      cases h
      refine ledger_modifyStrand w t fun s => ?_
      unfold Handle.detach
      split <;> rfl
  | awaitApplications r => exact ledger_serveAwait h
  | stateOf t =>
      simp only [serve] at h
      split at h
      · cases h
        rfl
      · cases h
        rfl
  | retire r t =>
      cases h
      exact ledger_retire w c r t
  | transition r t next =>
      cases h
      exact ledger_transition w c r t next
  | tally r =>
      simp only [serve] at h
      split at h
      · cases h
        rfl
      · cases h
        rfl
  | replace slot =>
      cases h
      exact ledger_takeHeld w slot
  | park => exact ledger_servePark h
  | spawn slot object => exact (ledger_serveSpawn h).trans (foldl_creation? _ w slot).symm
  | reportLaunch t =>
      cases h
      rfl
  | unpark t => exact ledger_serveUnpark h
  | reportUnpark =>
      cases h
      rfl
  | emit v =>
      cases h
      rfl

/-- A task that takes a local step asks for nothing. -/
theorem taskDeed?_of_request {I : Interpreter σ} (w : World σ) {task : Task σ} {r : Request}
    (asks : task.request? = some r) : w.taskDeed? I task = w.requestDeed? r := by
  unfold taskDeed?
  split
  · rename_i s depth mode_eq
    simp [Task.request?, mode_eq] at asks
  · simp [asks]

theorem foldl_taskDeed?_of_advance {I : Interpreter σ} (w : World σ) {task : Task σ}
    (asks : task.request? = none) (l : Ledger) :
    (w.taskDeed? I task).toList.foldl Ledger.after l = l := by
  unfold taskDeed?
  split
  · split
    · rfl
    · rfl
  · simp [asks]

/-- A step of a task does to the ledger what its deed says. -/
theorem ledger_stepTask {I : Interpreter σ} {w v : World σ} {c : Ctx} {task : Task σ}
    {store : World σ → Task σ → World σ} (stores : ∀ w task, (store w task).ledger = w.ledger)
    (h : w.stepTask I c task store = some v) :
    v.ledger = (w.taskDeed? I task).toList.foldl Ledger.after w.ledger := by
  obtain ⟨r, a, w', asks, served, rfl⟩ | ⟨r, r', w', asks, served, rfl⟩ |
    ⟨task', notes, asks, _, rfl⟩ := stepTask_cases h
  · have reached : (w.serve c r).world? = some w' := by rw [served]; rfl
    rw [ledger_note, stores, taskDeed?_of_request w asks, ledger_serve reached]
  · have reached : (w.serve c r).world? = some w' := by rw [served]; rfl
    rw [stores, taskDeed?_of_request w asks, ledger_serve reached]
  · rw [ledger_note, stores, foldl_taskDeed?_of_advance w asks]

theorem ledger_stepBody {I : Interpreter σ} {w v : World σ} {t : ThreadId}
    (h : w.stepBody I t = some v) :
    v.ledger = (w.stepDeed? I (.body t)).toList.foldl Ledger.after w.ledger := by
  obtain ⟨s, strand_eq, ⟨thread, child_eq, _, rfl⟩ | ⟨thread, child_eq, _, _, rfl⟩ |
    ⟨thread, child_eq, rfl⟩ | ⟨thread, child_eq, rfl⟩ | ⟨task, child_eq, step⟩⟩ := stepBody_cases h
  · simp [stepDeed?, strand_eq, child_eq]
  · simp [stepDeed?, strand_eq, child_eq]
  · simp only [stepDeed?, strand_eq, child_eq, Option.bind_some, ledger_storeChild]
    exact ledger_add _ _ _ _
  · simp only [stepDeed?, strand_eq, child_eq, Option.bind_some, ledger_note, ledger_storeChild]
    exact ledger_modifyStrand w t fun _ => rfl
  · simp only [stepDeed?, strand_eq, child_eq, Option.bind_some]
    exact ledger_stepTask (fun _ _ => ledger_storeChild t _ _) step

theorem ledger_stepCreator {w v : World σ} {t : ThreadId} (h : w.stepCreator t = some v) :
    v.ledger = w.ledger := by
  obtain ⟨s, _, ⟨thread, object, _, _, rfl⟩ | ⟨thread, _, rfl⟩ | ⟨_, rfl⟩ | ⟨_, rfl⟩ |
    ⟨_, _, rfl⟩ | ⟨_, rfl⟩ | ⟨a, _, _, rfl⟩ | ⟨_, _, _, _, _, rfl⟩ | ⟨a, _, _, rfl⟩⟩ :=
    stepCreator_cases h
  · rw [ledger_setCreation]
    exact ledger_modifyStrand w t fun _ => rfl
  · rw [ledger_setCreation, ledger_storeChild]
  · rw [ledger_setCreation]
    exact ledger_modifyStrand w t fun _ => rfl
  · rw [ledger_setCreation]
    exact ledger_modifyStrand w t fun _ => rfl
  · rw [ledger_note, ledger_setCreation]
  · rw [ledger_hook]
  · rw [ledger_setCreation]
  · rw [ledger_note, ledger_setCreation]
  · rw [ledger_setCreation]

theorem ledger_stepHost {I : Interpreter σ} {w v : World σ} (h : w.stepHost I = some v) :
    v.ledger = (w.stepDeed? I .host).toList.foldl Ledger.after w.ledger := by
  obtain ⟨slot, task, host_eq, step⟩ | ⟨r, w', host_eq, served, done⟩ := stepHost_cases h
  · simp only [stepDeed?, host_eq]
    refine ledger_stepTask ?_ step
    exact fun _ _ => rfl
  · simp only [stepDeed?, host_eq, Option.toList_none, List.foldl_nil]
    have same := ledger_serveAwait served
    rcases done with rfl | rfl
    · exact same
    · exact same

/-- What one operation does to the ledger is what its deed says. -/
theorem ledger_perform {w v : World σ} {op : Operation σ} (h : w.perform op = some v) :
    v.ledger = (w.deed? op).toList.foldl Ledger.after w.ledger := by
  cases op with
  | step I c =>
      cases c with
      | host => exact ledger_stepHost h
      | body t => exact ledger_stepBody h
      | creator t => exact ledger_stepCreator h
  | expire =>
      simp only [perform] at h
      split at h <;> cases h
      rename_i r host_eq
      simp only [expire, host_eq]
      exact ledger_modifyRegistry w r fun _ => rfl
  | application m args env =>
      simp only [perform] at h
      split at h <;> cases h
      simp only [buildApplication, deed?]
      split
      · exact ledger_build w .application m args env
      · rfl
  | main m args env =>
      simp only [perform] at h
      split at h <;> cases h
      exact ledger_build w .main m args env
  | drop slot =>
      cases h
      exact ledger_takeHeld w slot
  | setPc slot pc =>
      cases h
      exact ledger_modifyHeld w slot _
  | editFrame slot op =>
      cases h
      exact ledger_modifyHeld w slot _
  | call I slot m args =>
      simp only [perform] at h
      split at h <;> cases h
      unfold hostCall
      split
      · rfl
      · exact ledger_engage w slot _
  | start I slot =>
      simp only [perform] at h
      split at h <;> cases h
      simp only [hostStart, deed?]
      cases w.held? slot with
      | none => rfl
      | some thread => exact ledger_engage w slot _
  | takeBack =>
      simp only [perform] at h
      split at h <;> cases h
      unfold disengage
      split
      · exact ledger_putHeld _ _ _
      all_goals rfl
  | create slot object =>
      cases h
      simp only [deed?, foldl_creation?]
      unfold createHeld
      split
      · rfl
      · exact ledger_create w slot _ object
  | add c r t =>
      simp only [perform] at h
      split at h <;> cases h
      exact ledger_add w c r t
  | transition c r t next =>
      cases h
      exact ledger_transition w c r t next
  | unpark t =>
      cases h
      exact ledger_unpark w t
  | beginWait r =>
      simp only [perform] at h
      split at h <;> cases h
      rfl
  | endWait =>
      simp only [perform] at h
      split at h <;> cases h
      rfl
  | installRegistry c =>
      cases h
      exact ledger_installRegistry w c
  | removeRegistry c =>
      cases h
      unfold removeRegistry
      split <;> rfl
  | installConfig config =>
      cases h
      rfl
  | readConfig =>
      cases h
      rfl

/-- The ledger of a world is the replay of the deeds that led to it. -/
theorem Run.ledger_eq {w v : World σ} {h : List Deed} (run : Run w h v) :
    v.ledger = h.foldl Ledger.after w.ledger := by
  induction run with
  | refl => rfl
  | snoc op run isPublic done ih => rw [List.foldl_append, ← ih, ledger_perform done]

end World

end ThreadEngine
