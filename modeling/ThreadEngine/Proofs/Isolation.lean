import ThreadEngine.Proofs.Commons
import ThreadEngine.Proofs.Registration

set_option autoImplicit false

/-!
# Isolation of registries

A thread reports to the registry that was in its environment when it was built, whatever happens to
the process-wide registry afterwards.  A run is looked at here together with the calls at the
process-wide registry and their answers (`GlobalRun`): the answers alone say which registry is the
process-wide one (`latestRegistry`), and the deeds alone say where each thread belongs (`homes`).
`registries_isolated` says what is answered next, and what the next operation can do to the books of
each registry.
-/

namespace ThreadEngine

/-! ## Calls at the process-wide registry -/

/-- A call at the process-wide registry, with its answer. -/
inductive GlobalCall where
  | initialized (answer : Except Error RegistryId)
  | lookedUp (answer : Except Error RegistryId)
  /-- an environment was made from the process-wide registry -/
  | equipped (answer : Except Error World.Env)
  | shutDown (answer : Except Error RegistryId)

/-- The process-wide registry after a call, by its answer. -/
def GlobalCall.installed (current : Option RegistryId) : GlobalCall → Option RegistryId
  | .initialized (.ok r) => some r
  | .shutDown (.ok _) => none
  | .initialized (.error _) | .shutDown (.error _) | .lookedUp _ | .equipped _ => current

/-- The registry of the latest initialisation that succeeded, unless it was shut down since. -/
def latestRegistry (log : List GlobalCall) : Option RegistryId :=
  log.foldl GlobalCall.installed none

/-- What is answered to whoever asks for the process-wide registry. -/
def lookupAnswer (log : List GlobalCall) : Except Error RegistryId :=
  match latestRegistry log with
  | some r => .ok r
  | none => .error .registryNotInitialized

theorem latestRegistry_append (log : List GlobalCall) (a : Option GlobalCall) :
    latestRegistry (log ++ a.toList) =
      a.elim (latestRegistry log) (GlobalCall.installed (latestRegistry log)) := by
  cases a with
  | none => simp
  | some a => simp [latestRegistry]

/-- Something that is done in a run: an operation, or a look at the process-wide registry. -/
inductive GlobalStep (σ : Type) where
  | operation (op : Operation σ)
  | lookup
  /-- an environment is made from the process-wide registry -/
  | equip (dialect : Dialect)

/-- Whoever takes turns is a public interpreter. -/
def GlobalStep.IsPublic {σ : Type} : GlobalStep σ → Prop
  | .operation op => op.IsPublic
  | .lookup | .equip _ => True

/-! ## Where threads belong -/

/-- The registry that a thread was built with. -/
def Deed.home? : Deed → Option RegistryId
  | .built _ home => some home
  | .installed | .created _ | .started _ | .enlisted .. | .added .. | .moved .. | .retired .. =>
    none

/-- The registries that the threads of a history were built with, by the numbers of the threads. -/
def homes (h : List Deed) : List RegistryId := h.filterMap Deed.home?

/-- A thread keeps the home that it was built with. -/
theorem Ledger.homes_after (l : Ledger) (d : Deed) :
    (l.after d).cards.map Card.home = l.cards.map Card.home ++ homes [d] := by
  have kept (t : ThreadId) (next : State) :
      (l.cards.modify t ({ · with state := next })).map Card.home = l.cards.map Card.home := by
    rw [map_modify Card.home (fun card => { card with state := next }) id fun _ => rfl,
      List.modify_id]
  cases d with
  | built kind home => simp [after, homes, Deed.home?]
  | installed | created t | started t | enlisted r t | added r t => simp [after, homes, Deed.home?]
  | moved t next => simp [after, homes, Deed.home?, kept]
  | retired r t => simp [after, homes, Deed.home?, kept]

theorem Ledger.homes_foldl (l : Ledger) (h : List Deed) :
    (h.foldl after l).cards.map Card.home = l.cards.map Card.home ++ homes h := by
  induction h generalizing l with
  | nil => simp [homes]
  | cons d h ih =>
      rw [List.foldl_cons, ih, homes_after, List.append_assoc]
      simp only [homes, ← List.filterMap_append, List.singleton_append]

namespace World

variable {σ : Type}

/-- The table, the counter and the total of a registry. -/
def book? (w : World σ) (r : RegistryId) : Option Registry := w.registries[r]?.map Registry.book

theorem ledger_book? (w : World σ) (r : RegistryId) : w.ledger.books[r]? = w.book? r :=
  List.getElem?_map

/-- After every run the home of a thread is the registry that it was built with. -/
theorem Run.homes_eq {n : Nat} {config : ConfigCell} {h : List Deed} {u : World σ}
    (run : Run (ofRegistries n config) h u) : u.ledger.cards.map Card.home = homes h := by
  rw [run.ledger_eq, Ledger.homes_foldl]
  rfl

theorem Run.home_of_card {n : Nat} {config : ConfigCell} {h : List Deed} {u : World σ}
    (run : Run (ofRegistries n config) h u) {t : ThreadId} {card : Card}
    (card_eq : u.ledger.cards[t]? = some card) : (homes h)[t]? = some card.home := by
  rw [← run.homes_eq, List.getElem?_map, card_eq]
  rfl

/-! ## Runs with the calls that were made -/

/-- Does it; `none` if it is not possible now. -/
def performStep (u : World σ) : GlobalStep σ → Option (World σ)
  | .operation op => u.perform op
  | .lookup => some u
  | .equip dialect => some (u.globalEnv dialect).2

/-- The deed of something that is done in a run. -/
def globalDeed? (u : World σ) : GlobalStep σ → Option Deed
  | .operation op => u.deed? op
  | .lookup | .equip _ => none

/-- The call at the process-wide registry that is made, with its answer. -/
def globalCall? (u : World σ) : GlobalStep σ → Option GlobalCall
  | .operation (.installRegistry c) => some (.initialized (u.installRegistry c).1)
  | .operation (.removeRegistry c) => some (.shutDown (u.removeRegistry c).1)
  | .operation _ => none
  | .lookup => some (.lookedUp u.globalRegistry)
  | .equip dialect => some (.equipped (u.globalEnv dialect).1)

/-- Runs, with the deeds that were done and the calls made at the process-wide registry. -/
inductive GlobalRun (w : World σ) : List Deed → List GlobalCall → World σ → Prop
  | refl : GlobalRun w [] [] w
  | snoc {h : List Deed} {log : List GlobalCall} {u v : World σ} (step : GlobalStep σ)
      (globalRun : GlobalRun w h log u) (isPublic : step.IsPublic)
      (done : u.performStep step = some v) :
      GlobalRun w (h ++ (u.globalDeed? step).toList) (log ++ (u.globalCall? step).toList) v

/-- Does things one after the other, with the deeds and the calls; `none` if one of them is not
possible then. -/
def performSteps (w : World σ) :
    List (GlobalStep σ) → Option (List Deed × List GlobalCall × World σ)
  | [] => some ([], [], w)
  | step :: rest =>
    match w.performStep step with
    | none => none
    | some u =>
      (u.performSteps rest).map fun (h, log, v) =>
        ((w.globalDeed? step).toList ++ h, (w.globalCall? step).toList ++ log, v)

/-- One run after another. -/
theorem GlobalRun.trans {w u v : World σ} {h₁ h₂ : List Deed} {log₁ log₂ : List GlobalCall}
    (first : GlobalRun w h₁ log₁ u) (second : GlobalRun u h₂ log₂ v) :
    GlobalRun w (h₁ ++ h₂) (log₁ ++ log₂) v := by
  induction second with
  | refl => simpa using first
  | snoc step _ isPublic done ih => simpa using ih.snoc step isPublic done

/-- What was done is a run. -/
theorem globalRun_of_performSteps {w v : World σ} {h : List Deed} {log : List GlobalCall}
    {list : List (GlobalStep σ)} (isPublic : ∀ step ∈ list, step.IsPublic)
    (done : w.performSteps list = some (h, log, v)) : GlobalRun w h log v := by
  induction list generalizing w h log with
  | nil =>
      cases done
      exact .refl
  | cons step rest ih =>
      unfold performSteps at done
      split at done
      · cases done
      · rename_i u first
        obtain ⟨⟨h', log', v'⟩, later, same⟩ := Option.map_eq_some_iff.mp done
        cases same
        have one : GlobalRun w (w.globalDeed? step).toList (w.globalCall? step).toList u :=
          .snoc step .refl (isPublic step List.mem_cons_self) first
        exact one.trans
          (ih (fun other member => isPublic other (List.mem_cons_of_mem step member)) later)

/-- Making an environment reads the configuration, or does nothing. -/
theorem globalEnv_snd (u : World σ) (dialect : Dialect) :
    (u.globalEnv dialect).2 = u ∨ u.perform .readConfig = some (u.globalEnv dialect).2 := by
  unfold globalEnv
  split
  · exact .inl rfl
  · exact .inr rfl

theorem globalEnv_registries (u : World σ) (dialect : Dialect) :
    (u.globalEnv dialect).2.registries = u.registries := by
  unfold globalEnv
  split <;> rfl

/-- The same deeds make a run. -/
theorem GlobalRun.run {w u : World σ} {h : List Deed} {log : List GlobalCall}
    (globalRun : GlobalRun w h log u) : Run w h u := by
  induction globalRun with
  | refl => exact .refl
  | @snoc h log u v step _ isPublic done ih =>
      cases step with
      | operation op => exact ih.snoc op isPublic done
      | lookup =>
          cases done
          simpa [globalDeed?] using ih
      | equip dialect =>
          cases done
          rw [globalDeed?, Option.toList_none, List.append_nil]
          rcases u.globalEnv_snd dialect with same | read
          · rw [same]
            exact ih
          · simpa [deed?] using ih.snoc .readConfig trivial read

theorem globalRegistry_eq {u : World σ} {log : List GlobalCall}
    (installed : u.installed = latestRegistry log) :
    u.globalRegistry = lookupAnswer log := by
  unfold globalRegistry lookupAnswer
  cases found : latestRegistry log with
  | none => rw [installed.trans found]
  | some r => rw [installed.trans found]

theorem removeRegistry_fst (u : World σ) (c : Ctx) : (u.removeRegistry c).1 = u.globalRegistry := by
  unfold removeRegistry globalRegistry
  cases u.installed <;> rfl

theorem globalEnv_registry (u : World σ) (dialect : Dialect) :
    (u.globalEnv dialect).1.map Env.registry = u.globalRegistry := by
  unfold globalEnv
  split
  · rename_i e none_eq
    rw [none_eq]
    rfl
  · rename_i r some_eq
    rw [some_eq]
    rfl

/-- What is done moves the process-wide registry as the answers say. -/
theorem installed_performStep {u v : World σ} {step : GlobalStep σ}
    (done : u.performStep step = some v) :
    v.installed = (u.globalCall? step).elim u.installed (GlobalCall.installed u.installed) := by
  cases step with
  | lookup =>
      cases done
      rfl
  | equip dialect =>
      cases done
      unfold globalEnv
      split <;> rfl
  | operation op =>
      rw [installed_perform done]
      cases op with
      | installRegistry c =>
          simp only [installedAfter, globalCall?, installRegistry]
          cases u.installed <;> rfl
      | removeRegistry c =>
          simp only [installedAfter, globalCall?, removeRegistry]
          cases u.installed <;> rfl
      | _ => rfl

/-- The answers say which registry is the process-wide one. -/
theorem GlobalRun.installed_eq {n : Nat} {config : ConfigCell} {h : List Deed}
    {log : List GlobalCall} {u : World σ} (globalRun : GlobalRun (ofRegistries n config) h log u) :
    u.installed = latestRegistry log := by
  induction globalRun with
  | refl => rfl
  | snoc step _ _ done ih => rw [installed_performStep done, latestRegistry_append, ih]

/-! ## What an operation does to the books -/

/-- What an operation may do to the books of a registry: nothing, or open them, or enter a thread,
or take one out.  Except by a call to record it, a thread is entered and taken out only where it
belongs. -/
inductive Booked (h : List Deed) (u : World σ) (op : Operation σ) (v : World σ) (r : RegistryId) :
    Prop
  | untouched (same : v.book? r = u.book? r)
  | opened (deed_eq : u.deed? op = some .installed) (before : u.book? r = none)
      (after : v.book? r = some Registry.empty)
  | added {c : Ctx} {t : ThreadId} {reg : Registry} (op_eq : op = .add c r t)
      (before : u.book? r = some reg) (after : v.book? r = some (reg.add t))
  | launched {t : ThreadId} {reg : Registry} (deed_eq : u.deed? op = some (.enlisted r t))
      (home : (homes h)[t]? = some r) (before : u.book? r = some reg)
      (after : v.book? r = some (reg.add t))
  | retired {t : ThreadId} {reg : Registry} (deed_eq : u.deed? op = some (.retired r t))
      (home : (homes h)[t]? = some r) (before : u.book? r = some reg)
      (after : v.book? r = some (reg.remove t).1)

/-- Only a call to record a thread records it for somebody else. -/
theorem op_of_added {u : World σ} {op : Operation σ} {r : RegistryId} {t : ThreadId}
    (deed_eq : u.deed? op = some (.added r t)) : ∃ c, op = .add c r t := by
  have ofTask {I : Interpreter σ} {task : Task σ} : u.taskDeed? I task ≠ some (.added r t) := by
    intro task_eq
    unfold taskDeed? at task_eq
    split at task_eq
    · split at task_eq <;> cases task_eq
    · obtain ⟨request, _, request_eq⟩ := Option.bind_eq_some_iff.mp task_eq
      cases request with
      | retire r' t' => cases (retirement?_eq_some request_eq).1
      | transition r' t' next => cases (change?_eq_some request_eq).1
      | spawn slot object =>
          obtain ⟨thread, _, other⟩ := Option.map_eq_some_iff.mp request_eq
          cases other
      | _ => cases request_eq
  cases op with
  | add c r' t' =>
      cases deed_eq
      exact ⟨c, rfl⟩
  | step I c =>
      simp only [deed?, stepDeed?] at deed_eq
      split at deed_eq
      · split at deed_eq
        · exact absurd deed_eq ofTask
        all_goals cases deed_eq
      · split at deed_eq
        · cases deed_eq
        · cases deed_eq
        · exact absurd deed_eq ofTask
        all_goals cases deed_eq
      · cases deed_eq
  | application m args env | installRegistry c =>
      simp only [deed?] at deed_eq
      split at deed_eq <;> cases deed_eq
  | start I slot | create slot object =>
      obtain ⟨thread, _, other⟩ := Option.map_eq_some_iff.mp deed_eq
      cases other
  | transition c r' t' next => cases (change?_eq_some deed_eq).1
  | _ => cases deed_eq

section Books

variable {n : Nat} {config : ConfigCell} {h : List Deed} {u v : World σ} {op : Operation σ}

/-- A thread is recorded by its own context where it belongs. -/
theorem Run.home_of_enlisted (run : Run (ofRegistries n config) h u) (isPublic : op.IsPublic)
    (done : u.perform op = some v) {r : RegistryId} {t : ThreadId}
    (deed_eq : u.deed? op = some (.enlisted r t)) : (homes h)[t]? = some r := by
  obtain ⟨s, thread, launch_eq, child_eq, pass_eq, _⟩ :=
    (shift_perform isPublic done).enlisted_launch run.launching deed_eq
  have member : thread.pass ∈ u.roster.passesAt (.strand t .body) :=
    mem_passesAt_of_child launch_eq child_eq (List.mem_singleton.mpr rfl)
  rw [pass_eq] at member
  obtain ⟨card, card_eq, _, home_eq, _⟩ := run.orderly.card_of_pass member
  rw [run.home_of_card card_eq, home_eq]

/-- A thread is retired where it belongs. -/
theorem Run.home_of_retired (run : Run (ofRegistries n config) h u) (isPublic : op.IsPublic)
    (done : u.perform op = some v) {r : RegistryId} {t : ThreadId}
    (deed_eq : u.deed? op = some (.retired r t)) : (homes h)[t]? = some r := by
  obtain ⟨_, card, card_eq, home_eq, _⟩ :=
    (shift_perform isPublic done).admits run.orderly.toConsistent run.guarded deed_eq
  rw [run.home_of_card card_eq, home_eq]

/-- A change of one book of a ledger. -/
theorem books_modify {l : Ledger} {r r' : RegistryId} {f : Registry → Registry} :
    (l.books.modify r' f)[r]? = if r' = r then l.books[r]?.map f else l.books[r]? := by
  rw [List.getElem?_modify]
  by_cases same : r' = r
  · simp [same]
  · simp [same]

/-- What an operation does to the books of a registry, after every run. -/
theorem Run.booked (run : Run (ofRegistries n config) h u) (isPublic : op.IsPublic)
    (done : u.perform op = some v) (r : RegistryId) : Booked h u op v r := by
  have ledger_eq := ledger_perform done
  cases deed_eq : u.deed? op with
  | none =>
      rw [deed_eq] at ledger_eq
      exact .untouched (by rw [← ledger_book?, ← ledger_book?, ledger_eq]; rfl)
  | some d =>
      have admits :=
        (shift_perform isPublic done).admits run.orderly.toConsistent run.guarded deed_eq
      have books_eq : v.book? r = (u.ledger.after d).books[r]? := by
        rw [← ledger_book?, ledger_eq, deed_eq]
        rfl
      -- a deed at another registry leaves this one alone, and one at this registry finds it
      have elsewhere {r' : RegistryId} {f : Registry → Registry} (other : r' ≠ r)
          (modified : (u.ledger.after d).books = u.ledger.books.modify r' f) :
          v.book? r = u.book? r := by
        rw [books_eq, modified, books_modify, if_neg other, ledger_book?]
      have found (exists_ : r < u.ledger.books.length) : ∃ reg, u.book? r = some reg :=
        ⟨_, by rw [← ledger_book?]; exact List.getElem?_eq_getElem exists_⟩
      have here {f : Registry → Registry} {reg : Registry} (before : u.book? r = some reg)
          (modified : (u.ledger.after d).books = u.ledger.books.modify r f) :
          v.book? r = some (f reg) := by
        rw [books_eq, modified, books_modify, if_pos rfl, ledger_book?, before]
        rfl
      cases d with
      | built kind home | created t | started t | moved t next =>
          exact .untouched (by rw [books_eq, ← ledger_book?]; rfl)
      | installed =>
          have opened : v.book? r = (u.ledger.books ++ [Registry.empty])[r]? := books_eq
          rcases Nat.lt_trichotomy r u.ledger.books.length with lt | rfl | gt
          · refine .untouched ?_
            rw [opened, List.getElem?_append_left lt, ledger_book?]
          · refine .opened deed_eq ?_ ?_
            · rw [← ledger_book?, List.getElem?_eq_none (Nat.le_refl _)]
            · simpa using opened
          · refine .untouched ?_
            rw [opened, ← ledger_book?, List.getElem?_eq_none (Nat.le_of_lt gt),
              List.getElem?_eq_none]
            simpa using Nat.succ_le_of_lt gt
      | enlisted r' t =>
          by_cases same : r' = r
          · subst same
            obtain ⟨reg, before⟩ := found admits.1
            exact .launched deed_eq (run.home_of_enlisted isPublic done deed_eq) before
              (here before rfl)
          · exact .untouched (elsewhere same rfl)
      | added r' t =>
          by_cases same : r' = r
          · subst same
            obtain ⟨reg, before⟩ := found admits.1
            obtain ⟨c, op_eq⟩ := op_of_added deed_eq
            exact .added op_eq before (here before rfl)
          · exact .untouched (elsewhere same rfl)
      | retired r' t =>
          by_cases same : r' = r
          · subst same
            obtain ⟨reg, before⟩ := found admits.1
            exact .retired deed_eq (run.home_of_retired isPublic done deed_eq) before
              (here before rfl)
          · exact .untouched (elsewhere same rfl)

end Books

/-! ## Isolation -/

/-- Registries are isolated.  After every run, whatever was initialised, looked up and shut down in
it and in whatever order:

* an initialisation succeeds exactly if nothing is installed, and then it adds a registry that is
  empty and was never there before, and makes it the process-wide one;
* a look at the process-wide registry, an environment that is made from it and a shutdown get the
  registry of the latest successful initialisation that was not shut down, or the error that says
  that there is none;
* every thread has the home that its environment had when it was built, and is recorded at its
  launch, and retired, there and nowhere else;
* the next operation changes the books of a registry only as `Booked` says. -/
theorem registries_isolated {n : Nat} {config : ConfigCell} {h : List Deed} {log : List GlobalCall}
    {u : World σ} (globalRun : GlobalRun (ofRegistries n config) h log u) :
    (∀ c, match latestRegistry log with
      | none =>
        (u.installRegistry c).1 = .ok u.registries.length ∧
          (u.installRegistry c).2.registries = u.registries ++ [Registry.empty] ∧
          (u.installRegistry c).2.globalRegistry = .ok u.registries.length
      | some _ => u.installRegistry c = (.error .registryAlreadyInitialized, u)) ∧
      u.globalRegistry = lookupAnswer log ∧
      (∀ c, (u.removeRegistry c).1 = lookupAnswer log) ∧
      (∀ dialect, (u.globalEnv dialect).1.map Env.registry = lookupAnswer log ∧
        (u.globalEnv dialect).2.registries = u.registries) ∧
      (∀ t, (u.handle? t).map Handle.home = (homes h)[t]?) ∧
      ∀ op v, op.IsPublic → u.perform op = some v →
        (∀ r t, u.deed? op = some (.enlisted r t) ∨ u.deed? op = some (.retired r t) →
          (homes h)[t]? = some r) ∧
        ∀ r, Booked h u op v r := by
  have installed := globalRun.installed_eq
  have global_eq := globalRegistry_eq installed
  have run := globalRun.run
  refine ⟨?_, global_eq, ?_, ?_, ?_, ?_⟩
  · intro c
    unfold installRegistry
    rw [installed]
    cases latestRegistry log with
    | none => exact ⟨rfl, rfl, rfl⟩
    | some r => rfl
  · intro c
    rw [removeRegistry_fst, global_eq]
  · intro dialect
    exact ⟨(u.globalEnv_registry dialect).trans global_eq, u.globalEnv_registries dialect⟩
  · intro t
    rw [← run.homes_eq, List.getElem?_map]
    simp only [handle?, ledger, List.getElem?_map, Option.map_map]
    rfl
  · intro op v isPublic done
    refine ⟨?_, fun r => run.booked isPublic done r⟩
    rintro r t (enlisted | retired)
    · exact run.home_of_enlisted isPublic done enlisted
    · exact run.home_of_retired isPublic done retired

/-- A thread is built from the process-wide registry, which is then shut down and replaced by
another one; only after that is the thread launched.  It has been recorded in the first registry,
and its last step retires it there. -/
theorem registries_isolated_of_late_launch :
    ∃ (h : List Deed) (log : List GlobalCall) (u v : World Script.Activation),
      GlobalRun (ofRegistries 0 ConfigCell.fresh) h log u ∧ latestRegistry log = some 1 ∧
        u.globalRegistry = .ok 1 ∧ u.registries = [⟨[0], 1, 1, []⟩, Registry.empty] ∧
        u.perform (.step promptInterpreter (.body 0)) = some v ∧
        v.registries = [⟨[], 0, 1, []⟩, Registry.empty] ∧ (homes h)[0]? = some 0 ∧
        ∀ r, Booked h u (.step promptInterpreter (.body 0)) v r := by
  let I := promptInterpreter
  let list : List (GlobalStep Script.Activation) := List.flatten
    [[.operation (.installRegistry .host), .equip .script,
        .operation (.application promptMethod [.null] ⟨0, 1024, .script⟩),
        .operation (.removeRegistry .host), .lookup, .operation (.installRegistry .host),
        .operation (.create 0 .null)],
      List.replicate 4 (.operation (.step I (.creator 0))),
      List.replicate 6 (.operation (.step I (.body 0)))]
  have isPublic : ∀ step ∈ list, step.IsPublic := by
    simp [list, I, GlobalStep.IsPublic, Operation.IsPublic, isPublic_promptInterpreter]
  have done : ((ofRegistries 0 ConfigCell.fresh : World Script.Activation).performSteps list).map
      (fun done => (latestRegistry done.2.1, done.2.2.registries,
        done.2.2.deed? (.step I (.body 0)),
        (done.2.2.perform (.step I (.body 0))).map World.registries)) =
      some (some 1, [⟨[0], 1, 1, []⟩, Registry.empty], some (.retired 0 0),
        some [⟨[], 0, 1, []⟩, Registry.empty]) := rfl
  obtain ⟨⟨h, log, u⟩, reached, seen⟩ := Option.map_eq_some_iff.mp done
  simp only [Prod.mk.injEq] at seen
  obtain ⟨latest_eq, registries_eq, deed_eq, next⟩ := seen
  obtain ⟨v, step, after⟩ := Option.map_eq_some_iff.mp next
  have globalRun := globalRun_of_performSteps isPublic reached
  obtain ⟨_, global_eq, _, _, _, effect⟩ := registries_isolated globalRun
  obtain ⟨home, booked⟩ := effect (.step I (.body 0)) v isPublic_promptInterpreter step
  refine ⟨h, log, u, v, globalRun, latest_eq, ?_, registries_eq, step, after,
    home 0 0 (.inr deed_eq), booked⟩
  rw [global_eq, lookupAnswer, latest_eq]

end World

end ThreadEngine
