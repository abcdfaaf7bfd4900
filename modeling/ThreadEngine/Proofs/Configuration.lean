import ThreadEngine.Proofs.Isolation
import ThreadEngine.Proofs.Limits

set_option autoImplicit false

/-!
# The process-wide configuration

The configuration is decided once, by whatever comes first: an installation, or a reading, which
decides for the standard one.  An environment is made by a reading if there is a registry, and by
none if there is not.  A run is looked at here together with the calls at the configuration and
their answers (`Consulted`); the answers alone say what is decided (`decision`).  By
`configuration_decided_once` all later calls agree with that, and so do the limits of all threads
that are built from what they answer.
-/

namespace ThreadEngine

/-! ## Calls at the configuration -/

/-- A call at the process-wide configuration, with its answer, or the building of a thread. -/
inductive Consultation where
  | installed (config : Config) (answer : Except Error Unit)
  | read (answer : Config)
  /-- an environment was made from the process-wide registry and configuration -/
  | equipped (answer : Except Error World.Env)
  | built (thread : ThreadId) (env : World.Env)

namespace Consultation

/-- The configuration that a call decides for if nothing is decided. -/
def decides? : Consultation → Option Config
  | installed config (.ok ()) => some config
  | read _ | equipped (.ok _) => some Config.standard
  | installed _ (.error _) | equipped (.error _) | built .. => none

/-- How a call is answered, by what is decided before it. -/
def Answered (decided : Option Config) : Consultation → Prop
  | installed _ answer =>
    answer = if decided.isNone then .ok () else .error .configAlreadyInstalled
  | read answer => answer = decided.getD Config.standard
  | equipped (.ok env) => env.maxDepth = (decided.getD Config.standard).maxStackDepth
  | equipped (.error e) => e = .registryNotInitialized
  | built .. => True

end Consultation

/-- The configuration that the first of some calls to decide anything has decided for. -/
def decision (log : List Consultation) : Option Config := log.findSome? Consultation.decides?

theorem decision_append (log log' : List Consultation) :
    decision (log ++ log') = (decision log).or (decision log') := List.findSome?_append

theorem decision_toList (call : Option Consultation) :
    decision call.toList = call.bind Consultation.decides? := by
  cases call with
  | none => rfl
  | some call => simp [decision]

/-! ## The cell -/

namespace ConfigCell

variable (cell : ConfigCell) (config : Config)

theorem install_fst :
    (cell.install config).1 =
      if cell.decided.isNone then .ok () else .error .configAlreadyInstalled := by
  unfold install
  cases cell.decided <;> rfl

theorem decided_install : (cell.install config).2.decided = cell.decided.or (some config) := by
  unfold install
  cases decided_eq : cell.decided with
  | none => rfl
  | some c => exact decided_eq

theorem read_fst : cell.read.1 = cell.decided.getD Config.standard := by
  unfold read
  cases cell.decided <;> rfl

theorem decided_read : cell.read.2.decided = cell.decided.or (some Config.standard) := by
  unfold read
  cases decided_eq : cell.decided with
  | none => rfl
  | some c => exact decided_eq

end ConfigCell

/-! ## What operations do to the configuration -/

namespace World

variable {σ : Type}

/-- The configuration cell after an operation. -/
def configAfter (u : World σ) : Operation σ → ConfigCell
  | .installConfig config => (u.config.install config).2
  | .readConfig => u.config.read.2
  | _ => u.config

theorem config_add (w : World σ) (c : Ctx) (r : RegistryId) (t : ThreadId) :
    (w.add c r t).config = w.config := by
  unfold add
  split <;> rfl

theorem config_retire (w : World σ) (c : Ctx) (r : RegistryId) (t : ThreadId) :
    (w.retire c r t).2.config = w.config := by
  unfold retire
  split
  · split
    · rfl
    · dsimp only
      split <;> rfl
  · rfl

theorem config_transition (w : World σ) (c : Ctx) (r : RegistryId) (t : ThreadId) (next : State) :
    (w.transition c r t next).2.config = w.config := by
  unfold transition
  split
  · rfl
  · split <;> rfl

/-- Serving a request leaves the configuration alone. -/
theorem config_serve {w w' : World σ} {c : Ctx} {r : Request}
    (h : (w.serve c r).world? = some w') : w'.config = w.config := by
  obtain ⟨r', t, rfl, rfl⟩ | ⟨r', t, next, rfl, rfl⟩ | ⟨_, keeps⟩ := serve_cases h
  · exact config_retire w c r' t
  · exact config_transition w c r' t next
  · exact keeps.config_eq

theorem config_stepTask {I : Interpreter σ} {w v : World σ} {c : Ctx} {task : Task σ}
    {store : World σ → Task σ → World σ} (stores : ∀ w task, (store w task).config = w.config)
    (h : w.stepTask I c task store = some v) : v.config = w.config := by
  obtain ⟨r, a, w', _, served, rfl⟩ | ⟨r, r', w', _, served, rfl⟩ | ⟨task', notes, _, _, rfl⟩ :=
    stepTask_cases h
  · exact (stores w' _).trans (config_serve (congrArg Served.world? served))
  · exact (stores w' _).trans (config_serve (congrArg Served.world? served))
  · exact stores w task'

theorem config_step {I : Interpreter σ} {w v : World σ} {c : Ctx} (h : w.step I c = some v) :
    v.config = w.config := by
  cases c with
  | host =>
      obtain ⟨slot, task, _, step⟩ | ⟨r, w', _, served, done⟩ := stepHost_cases h
      · refine config_stepTask ?_ step
        exact fun _ _ => rfl
      · have same := (keepsRecords_serveAwait served).config_eq
        rcases done with rfl | rfl
        · exact same
        · exact same
  | body t =>
      obtain ⟨s, _, ⟨thread, _, _, rfl⟩ | ⟨thread, _, _, _, rfl⟩ | ⟨thread, _, rfl⟩ |
        ⟨thread, _, rfl⟩ | ⟨task, _, step⟩⟩ := stepBody_cases h
      case inr.inr.inl => exact config_add _ _ _ _
      case inr.inr.inr.inr =>
        refine config_stepTask ?_ step
        exact fun _ _ => rfl
      all_goals rfl
  | creator t =>
      obtain ⟨s, _, ⟨thread, object, _, _, rfl⟩ | ⟨thread, _, rfl⟩ | ⟨_, rfl⟩ | ⟨_, rfl⟩ |
        ⟨_, _, rfl⟩ | ⟨_, rfl⟩ | ⟨a, _, _, rfl⟩ | ⟨_, _, _, _, _, rfl⟩ | ⟨a, _, _, rfl⟩⟩ :=
        stepCreator_cases h
      case inr.inr.inr.inr.inr.inl =>
        unfold hook
        split <;> rfl
      all_goals rfl

/-- Only an installation and a reading change the configuration. -/
theorem config_perform {u v : World σ} {op : Operation σ} (h : u.perform op = some v) :
    v.config = u.configAfter op := by
  cases op with
  | step I c => exact config_step h
  | expire =>
      simp only [perform] at h
      split at h <;> cases h
      rename_i r host_eq
      simp only [expire, host_eq]
      rfl
  | application m args env =>
      simp only [perform] at h
      split at h <;> cases h
      unfold buildApplication
      split <;> rfl
  | main m args env | beginWait r | endWait =>
      simp only [perform] at h
      split at h <;> cases h
      rfl
  | drop slot | installConfig config | readConfig =>
      cases h
      rfl
  | setPc slot pc | editFrame slot op =>
      cases h
      simp only [setPc, editFrame, modifyHeld]
      split <;> rfl
  | call I slot m args | start I slot =>
      simp only [perform] at h
      split at h <;> cases h
      simp only [hostCall, hostStart]
      split <;> rfl
  | takeBack =>
      simp only [perform] at h
      split at h <;> cases h
      unfold disengage
      split <;> rfl
  | create slot object =>
      cases h
      unfold createHeld
      split <;> rfl
  | add c r t =>
      simp only [perform] at h
      split at h <;> cases h
      exact config_add u c r t
  | transition c r t next =>
      cases h
      exact config_transition u c r t next
  | unpark t =>
      cases h
      exact (keepsRecords_unpark u t).config_eq
  | installRegistry c =>
      cases h
      unfold installRegistry
      split <;> rfl
  | removeRegistry c =>
      cases h
      unfold removeRegistry
      split <;> rfl

/-! ## Runs with the calls that were made -/

/-- The call at the configuration that is made, with its answer, or the thread that is built. -/
def consultation? (u : World σ) : GlobalStep σ → Option Consultation
  | .operation (.installConfig config) => some (.installed config (u.config.install config).1)
  | .operation .readConfig => some (.read u.config.read.1)
  | .operation op => op.environment?.map (.built u.strands.length)
  | .lookup => none
  | .equip dialect => some (.equipped (u.globalEnv dialect).1)

/-- Runs, with the calls made at the configuration and the threads built. -/
inductive Consulted (w : World σ) : List Consultation → World σ → Prop
  | refl : Consulted w [] w
  | snoc {log : List Consultation} {u v : World σ} (step : GlobalStep σ)
      (consulted : Consulted w log u) (isPublic : step.IsPublic)
      (done : u.performStep step = some v) :
      Consulted w (log ++ (u.consultation? step).toList) v

/-- Does things one after the other, with the calls made at the configuration and the threads built;
`none` if one of them is not possible then. -/
def consultAll (w : World σ) : List (GlobalStep σ) → Option (List Consultation × World σ)
  | [] => some ([], w)
  | step :: rest =>
    match w.performStep step with
    | none => none
    | some u => (u.consultAll rest).map fun (log, v) => ((w.consultation? step).toList ++ log, v)

section

variable {n : Nat} {log log' : List Consultation} {w u v : World σ} {step : GlobalStep σ}

/-- One run after another. -/
theorem Consulted.trans (first : Consulted w log u) (second : Consulted u log' v) :
    Consulted w (log ++ log') v := by
  induction second with
  | refl => simpa using first
  | snoc step _ isPublic done ih => simpa using ih.snoc step isPublic done

/-- What was done is a run. -/
theorem consulted_of_consultAll {list : List (GlobalStep σ)}
    (isPublic : ∀ step ∈ list, step.IsPublic) (done : w.consultAll list = some (log, v)) :
    Consulted w log v := by
  induction list generalizing w log with
  | nil =>
      cases done
      exact .refl
  | cons step rest ih =>
      unfold consultAll at done
      split at done
      · cases done
      · rename_i u first
        obtain ⟨⟨log', v'⟩, later, same⟩ := Option.map_eq_some_iff.mp done
        cases same
        have one : Consulted w (w.consultation? step).toList u :=
          .snoc step .refl (isPublic step List.mem_cons_self) first
        exact one.trans
          (ih (fun other member => isPublic other (List.mem_cons_of_mem step member)) later)

theorem Consulted.globalRun (consulted : Consulted w log u) :
    ∃ h calls, GlobalRun w h calls u := by
  induction consulted with
  | refl => exact ⟨_, _, .refl⟩
  | snoc step _ isPublic done ih =>
      obtain ⟨h, calls, globalRun⟩ := ih
      exact ⟨_, _, globalRun.snoc step isPublic done⟩

theorem globalEnv_eq (u : World σ) (dialect : Dialect) :
    u.globalEnv dialect =
      match u.globalRegistry with
      | .error e => (.error e, u)
      | .ok r => (.ok ⟨r, (u.config.decided.getD Config.standard).maxStackDepth, dialect⟩,
          { u with config := u.config.read.2 }) := by
  unfold globalEnv
  cases u.globalRegistry with
  | error e => rfl
  | ok r => simp only [← ConfigCell.read_fst]

/-- The building of a thread decides for nothing. -/
theorem decides?_built (env : Option Env) (t : ThreadId) :
    (env.map (Consultation.built t)).bind Consultation.decides? = none := by
  cases env <;> rfl

/-- A call decides for something unless that was done before. -/
theorem decided_performStep (done : u.performStep step = some v) :
    v.config.decided =
      u.config.decided.or ((u.consultation? step).bind Consultation.decides?) := by
  cases step with
  | lookup =>
      cases done
      simp [consultation?]
  | equip dialect =>
      cases done
      rw [consultation?, globalEnv_eq]
      cases u.globalRegistry with
      | error e => simp [Consultation.decides?]
      | ok r => exact u.config.decided_read
  | operation op =>
      have config_eq : v.config = u.configAfter op := config_perform done
      rw [config_eq]
      cases op with
      | installConfig config =>
          rw [configAfter, ConfigCell.decided_install, consultation?, ConfigCell.install_fst]
          cases u.config.decided <;> rfl
      | readConfig => exact u.config.decided_read
      | _ => simp only [consultation?, configAfter, decides?_built, Option.or_none]

/-- A call is answered by what is decided. -/
theorem answered_performStep {call : Consultation} (called : u.consultation? step = some call) :
    call.Answered u.config.decided := by
  cases step with
  | lookup => cases called
  | equip dialect =>
      cases called
      rw [globalEnv_eq]
      cases global_eq : u.globalRegistry with
      | ok r => rfl
      | error e =>
          unfold globalRegistry at global_eq
          split at global_eq <;> cases global_eq
          rfl
  | operation op =>
      cases op with
      | installConfig config =>
          cases called
          exact u.config.install_fst config
      | readConfig =>
          cases called
          exact u.config.read_fst
      | _ =>
          simp only [consultation?, Option.map_eq_some_iff] at called
          obtain ⟨env, _, rfl⟩ := called
          trivial

/-- The answers say what is decided. -/
theorem Consulted.decided_eq (consulted : Consulted (ofRegistries n ConfigCell.fresh) log u) :
    u.config.decided = decision log := by
  induction consulted with
  | refl => rfl
  | snoc step _ _ done ih =>
      rw [decided_performStep done, decision_append, decision_toList, ih]

/-- Every call was answered by what was decided before it. -/
theorem Consulted.answered (consulted : Consulted (ofRegistries n ConfigCell.fresh) log u)
    {before after : List Consultation} {call : Consultation}
    (log_eq : log = before ++ call :: after) : call.Answered (decision before) := by
  induction consulted generalizing after with
  | refl => simp at log_eq
  | @snoc log u v step consulted _ done ih =>
      cases called : u.consultation? step with
      | none =>
          rw [called, Option.toList_none, List.append_nil] at log_eq
          exact ih log_eq
      | some last =>
          rw [called, Option.toList_some] at log_eq
          rcases List.eq_nil_or_concat after with rfl | ⟨after, last', rfl⟩
          · obtain ⟨rfl, same⟩ := List.append_inj' log_eq rfl
            cases same
            rw [← consulted.decided_eq]
            exact answered_performStep called
          · rw [List.concat_eq_append, ← List.cons_append, ← List.append_assoc] at log_eq
            exact ih (List.append_inj' log_eq rfl).1

/-- An environment that was made has the limit of what is decided. -/
theorem Consulted.maxDepth_eq (consulted : Consulted (ofRegistries n ConfigCell.fresh) log u)
    {env : Env} (equipped : .equipped (.ok env) ∈ log) :
    ∃ c, decision log = some c ∧ env.maxDepth = c.maxStackDepth := by
  obtain ⟨before, after, rfl⟩ := List.append_of_mem equipped
  have limit_eq : env.maxDepth = ((decision before).getD Config.standard).maxStackDepth :=
    consulted.answered rfl
  refine ⟨(decision before).getD Config.standard, ?_, limit_eq⟩
  rw [decision_append]
  cases decision before <;> rfl

/-- The thread that has just been built is in the host's hands, with no frames and with the limit of
its environment. -/
theorem held_build (u : World σ) (kind : Kind) (m : MethodRef) (args : List Value) (env : Env) :
    ∃ thread, (u.build kind m args env).2.held? (u.build kind m args env).1 = some thread ∧
      thread.frames = FrameStack.empty env.maxDepth := by
  let thread : Thread :=
    { id := u.strands.length
      kind := kind
      registry := env.registry
      dialect := env.dialect
      frames := FrameStack.empty env.maxDepth
      method := m
      args := args
      pc := 0 }
  exact ⟨thread, by simp [build, held?, thread], rfl⟩

/-- Whatever is no operation leaves the threads alone, and builds none. -/
theorem performStep_cases (done : u.performStep step = some v) :
    (∃ op, step = .operation op ∧ u.perform op = some v) ∨
      v.strands = u.strands ∧ v.roster = u.roster ∧
        ∀ t env, u.consultation? step ≠ some (.built t env) := by
  cases step with
  | operation op => exact .inl ⟨op, rfl, done⟩
  | lookup =>
      cases done
      exact .inr ⟨rfl, rfl, nofun⟩
  | equip dialect =>
      cases done
      rw [globalEnv_eq]
      cases u.globalRegistry <;> exact .inr ⟨rfl, rfl, nofun⟩

/-- Threads do not go away. -/
theorem length_strands_perform {op : Operation σ} (done : u.perform op = some v) :
    u.strands.length ≤ v.strands.length := by
  have cards (w : World σ) : w.ledger.cards.length = w.strands.length := by simp [ledger]
  rw [← cards, ← cards, ledger_perform done]
  cases u.deed? op with
  | none => exact Nat.le_refl _
  | some d => cases d <;> simp [Ledger.after]

theorem environment?_of_built {op : Operation σ} {t : ThreadId} {env : Env}
    (called : u.consultation? (.operation op) = some (.built t env)) :
    op.environment? = some env ∧ t = u.strands.length := by
  cases op with
  | installConfig config | readConfig => cases called
  | _ =>
      simp only [consultation?, Option.map_eq_some_iff] at called
      obtain ⟨env', env_eq, same⟩ := called
      cases same
      exact ⟨env_eq, rfl⟩

/-- Threads have the limits of what they were built from, wherever they are. -/
theorem Consulted.limits (consulted : Consulted (ofRegistries n ConfigCell.fresh) log u)
    {t : ThreadId} {env : Env} (built : .built t env ∈ log) :
    t < u.strands.length ∧ ∀ place thread, u.roster.threadAt place = some thread →
      thread.id = t → thread.frames.maxDepth = env.maxDepth := by
  induction consulted with
  | refl => cases built
  | @snoc log u v step consulted isPublic done ih =>
      rw [List.mem_append, Option.mem_toList] at built
      rcases performStep_cases done with ⟨op, rfl, performed⟩ | ⟨strands_eq, roster_eq, none_built⟩
      · rcases built with old | called
        · obtain ⟨lt, limits⟩ := ih old
          refine ⟨Nat.lt_of_lt_of_le lt (length_strands_perform performed), ?_⟩
          intro place thread found id_eq
          obtain ⟨place', thread', found', same⟩ | ⟨_, _, new, _⟩ := limits_perform performed found
          · exact same.limit_eq.trans (limits place' thread' found' (same.id_eq.symm.trans id_eq))
          · exact absurd (new.symm.trans id_eq) (Nat.ne_of_gt lt)
        · obtain ⟨env_eq, rfl⟩ := environment?_of_built called
          obtain ⟨kind, m, args, rfl⟩ := eq_build performed env_eq
          refine ⟨by simp [build], ?_⟩
          intro place thread found id_eq
          rcases threadAt_build found with old | ⟨_, frames_eq⟩
          · -- nobody has a thread that was not built yet
            obtain ⟨h, _, globalRun⟩ := consulted.globalRun
            obtain ⟨card, card_eq, _⟩ := globalRun.run.orderly.card_of_pass
              (Roster.mem_passesAt_of_threadAt old)
            have lt : thread.id < u.ledger.cards.length := (List.getElem?_eq_some_iff.mp card_eq).1
            simp [ledger, id_eq] at lt
          · rw [frames_eq]
            rfl
      · rcases built with old | called
        · rw [strands_eq, roster_eq]
          exact ih old
        · exact absurd called (none_built t env)

theorem globalRegistry_eq_error {e : Error} (global_eq : u.globalRegistry = .error e) :
    e = .registryNotInitialized := by
  unfold globalRegistry at global_eq
  split at global_eq <;> cases global_eq
  rfl

/-- What the calls do while nothing is decided. -/
theorem calls_of_undecided (config_eq : u.config = ⟨none⟩) :
    (∀ config, u.config.install config = (.ok (), ⟨some config⟩)) ∧
      u.config.read = (Config.standard, ⟨some Config.standard⟩) ∧
      ∀ dialect, u.globalEnv dialect =
        match u.globalRegistry with
        | .ok r => (.ok ⟨r, Config.standard.maxStackDepth, dialect⟩,
            { u with config := ⟨some Config.standard⟩ })
        | .error _ => (.error .registryNotInitialized, u) := by
  refine ⟨fun config => by rw [config_eq]; rfl, by rw [config_eq]; rfl, fun dialect => ?_⟩
  rw [globalEnv_eq, config_eq]
  cases global_eq : u.globalRegistry with
  | ok r => rfl
  | error e => rw [globalRegistry_eq_error global_eq]

/-- What the calls do once something is decided. -/
theorem calls_of_decided {c : Config} (config_eq : u.config = ⟨some c⟩) :
    (∀ config, u.config.install config = (.error .configAlreadyInstalled, u.config) ∧
        u.perform (.installConfig config) = some u) ∧
      u.config.read = (c, u.config) ∧ u.perform .readConfig = some u ∧
      ∀ dialect, u.globalEnv dialect =
        match u.globalRegistry with
        | .ok r => (.ok ⟨r, c.maxStackDepth, dialect⟩, u)
        | .error _ => (.error .registryNotInitialized, u) := by
  have read_eq : u.config.read = (c, u.config) := by rw [config_eq]; rfl
  have install_eq (config : Config) :
      u.config.install config = (.error .configAlreadyInstalled, u.config) := by
    rw [config_eq]
    rfl
  refine ⟨fun config => ⟨install_eq config, ?_⟩, read_eq, ?_, fun dialect => ?_⟩
  · rw [perform, install_eq]
  · rw [perform, read_eq]
  · unfold globalEnv
    rw [read_eq]
    cases global_eq : u.globalRegistry with
    | ok r => rfl
    | error e => rw [globalRegistry_eq_error global_eq]

end

/-- The configuration is decided once.  After every run from an undecided start, whatever else was
done in it:

* every call was answered by what the calls before it had decided, and what was decided then is
  decided still;
* if nothing is decided, the next installation succeeds, and the next reading, or the next
  environment that is made while there is a registry, decides for the standard configuration;
* if something is decided, every installation is refused, whoever reads gets what is decided,
  environments are made from that, and nothing of it changes anything;
* an environment that was made has the limit of what is decided, and so does every thread that is
  built from it, then and wherever it goes. -/
theorem configuration_decided_once {n : Nat} {log : List Consultation} {u : World σ}
    (consulted : Consulted (ofRegistries n ConfigCell.fresh) log u) :
    (∀ before call after, log = before ++ call :: after →
      call.Answered (decision before) ∧
        (decision before = none ∨ decision before = decision log)) ∧
      (match decision log with
      | none =>
        (∀ config, u.config.install config = (.ok (), ⟨some config⟩)) ∧
          u.config.read = (Config.standard, ⟨some Config.standard⟩) ∧
          ∀ dialect, u.globalEnv dialect =
            match u.globalRegistry with
            | .ok r => (.ok ⟨r, Config.standard.maxStackDepth, dialect⟩,
                { u with config := ⟨some Config.standard⟩ })
            | .error _ => (.error .registryNotInitialized, u)
      | some c =>
        (∀ config, u.config.install config = (.error .configAlreadyInstalled, u.config) ∧
            u.perform (.installConfig config) = some u) ∧
          u.config.read = (c, u.config) ∧ u.perform .readConfig = some u ∧
          ∀ dialect, u.globalEnv dialect =
            match u.globalRegistry with
            | .ok r => (.ok ⟨r, c.maxStackDepth, dialect⟩, u)
            | .error _ => (.error .registryNotInitialized, u)) ∧
      ∀ env, .equipped (.ok env) ∈ log → ∃ c, decision log = some c ∧
        env.maxDepth = c.maxStackDepth ∧
        (∀ kind m args, ∃ thread,
          (u.build kind m args env).2.held? (u.build kind m args env).1 = some thread ∧
            thread.frames = FrameStack.empty c.maxStackDepth) ∧
        ∀ t place thread, .built t env ∈ log → u.roster.threadAt place = some thread →
          thread.id = t → thread.frames.maxDepth = c.maxStackDepth := by
  have config_eq : u.config = ⟨decision log⟩ := by
    rw [← consulted.decided_eq]
  refine ⟨?_, ?_, ?_⟩
  · rintro before call after rfl
    refine ⟨consulted.answered rfl, ?_⟩
    rw [decision_append]
    cases decision before with
    | none => exact .inl rfl
    | some c => exact .inr rfl
  · cases decision_eq : decision log with
    | none => exact calls_of_undecided (decision_eq ▸ config_eq)
    | some c => exact calls_of_decided (decision_eq ▸ config_eq)
  · intro env equipped
    obtain ⟨c, decision_eq, limit_eq⟩ := consulted.maxDepth_eq equipped
    refine ⟨c, decision_eq, limit_eq, ?_, ?_⟩
    · intro kind m args
      rw [← limit_eq]
      exact held_build u kind m args env
    · intro t place thread built found id_eq
      rw [← limit_eq]
      exact (consulted.limits built).2 place thread found id_eq

/-- Nothing is decided by an environment that could not be made.  Then a configuration is installed,
an environment is made and a thread is built from it; the registry goes, another one comes, and
another installation is refused.  The thread has the limit that was installed first. -/
theorem configuration_decided_once_by_installation :
    ∃ (log : List Consultation) (u : World Script.Activation) (env : Env) (thread : Thread),
      Consulted (ofRegistries 0 ConfigCell.fresh) log u ∧ decision log = some ⟨7⟩ ∧
        u.installed = some 1 ∧ .equipped (.ok env) ∈ log ∧ .built 0 env ∈ log ∧
        u.roster.threadAt (.strand 0 .held) = some thread ∧ thread.frames.maxDepth = 7 ∧
        u.perform (.installConfig ⟨9⟩) = some u := by
  let list : List (GlobalStep Script.Activation) :=
    [.equip .script, .operation (.installConfig ⟨7⟩), .operation (.installRegistry .host),
      .equip .script, .operation (.main promptMethod [] ⟨0, 7, .script⟩),
      .operation (.removeRegistry .host), .operation (.installRegistry .host),
      .operation (.installConfig ⟨9⟩)]
  have isPublic : ∀ step ∈ list, step.IsPublic := by
    simp [list, GlobalStep.IsPublic, Operation.IsPublic]
  have done : ((ofRegistries 0 ConfigCell.fresh : World Script.Activation).consultAll list).map
      (fun done => (done.1, done.2.installed,
        (done.2.roster.threadAt (.strand 0 .held)).map Thread.id)) =
      some ([.equipped (.error .registryNotInitialized), .installed ⟨7⟩ (.ok ()),
        .equipped (.ok ⟨0, 7, .script⟩), .built 0 ⟨0, 7, .script⟩,
        .installed ⟨9⟩ (.error .configAlreadyInstalled)], some 1, some 0) := rfl
  obtain ⟨⟨log, u⟩, reached, seen⟩ := Option.map_eq_some_iff.mp done
  simp only [Prod.mk.injEq] at seen
  obtain ⟨rfl, installed_eq, held⟩ := seen
  obtain ⟨thread, found, id_eq⟩ := Option.map_eq_some_iff.mp held
  have consulted := consulted_of_consultAll isPublic reached
  obtain ⟨_, next, limits⟩ := configuration_decided_once consulted
  obtain ⟨c, decision_eq, _, _, lasting⟩ := limits ⟨0, 7, .script⟩ (by simp)
  cases decision_eq
  have limit_eq : thread.frames.maxDepth = 7 := lasting 0 _ thread (by simp) found id_eq
  exact ⟨_, u, ⟨0, 7, .script⟩, thread, consulted, rfl, installed_eq, by simp, by simp, found,
    limit_eq, (next.1 ⟨9⟩).2⟩

end World

end ThreadEngine
