import ThreadEngine.Proofs.Outliving
import Mathlib.Data.List.Chain

set_option autoImplicit false

/-!
# Lifecycle histories

The state of a thread is written in two ways: somebody changes it, or a guard retires the thread.
`writes` picks the states that a run has written to one thread out of its deeds.  A write finds the
thread alive and in another state (`state?_of_write`), so the history of a thread is a chain from
`running` of states that differ from the one before, and `died` can only be the end of it.
-/

namespace ThreadEngine

/-- The state that a deed writes to a thread. -/
def Deed.write? (t : ThreadId) : Deed → Option State
  | .moved u next => if u = t then some next else none
  | .retired _ u => if u = t then some .died else none
  | .built .. | .installed | .created _ | .started _ | .enlisted .. | .added .. => none

/-- The states that were written to a thread, in order. -/
def writes (t : ThreadId) (h : List Deed) : List State := h.filterMap (Deed.write? t)

theorem writes_append (t : ThreadId) (h₁ h₂ : List Deed) :
    writes t (h₁ ++ h₂) = writes t h₁ ++ writes t h₂ := List.filterMap_append

theorem writes_toList (t : ThreadId) (d : Option Deed) :
    writes t d.toList = (d.bind (Deed.write? t)).toList := by
  cases d with
  | none => rfl
  | some d =>
      simp only [Option.toList_some, Option.bind_some, writes, List.filterMap_cons]
      cases d.write? t <;> rfl

namespace World

variable {σ : Type}

/-! ## Writes -/

/-- A deed that writes a state comes from a change or from a retirement. -/
theorem requestDeed?_of_write {u : World σ} {r : Request} {d : Deed} {t : ThreadId} {s : State}
    (deed_eq : u.requestDeed? r = some d) (wrote : d.write? t = some s) :
    (∃ next, u.change? t next = some d) ∨ ∃ r, u.retirement? r t = some d := by
  cases r with
  | retire r t' =>
      obtain ⟨rfl, _⟩ := retirement?_eq_some deed_eq
      simp only [Deed.write?] at wrote
      split at wrote
      · rename_i same
        subst same
        exact .inr ⟨r, deed_eq⟩
      · cases wrote
  | transition r t' next =>
      obtain ⟨rfl, _⟩ := change?_eq_some deed_eq
      simp only [Deed.write?] at wrote
      split at wrote
      · rename_i same
        subst same
        exact .inl ⟨next, deed_eq⟩
      · cases wrote
  | spawn slot object =>
      obtain ⟨thread, _, rfl⟩ := Option.map_eq_some_iff.mp deed_eq
      cases wrote
  | _ => cases deed_eq

theorem taskDeed?_of_write {I : Interpreter σ} {u : World σ} {task : Task σ} {d : Deed}
    {t : ThreadId} {s : State} (deed_eq : u.taskDeed? I task = some d)
    (wrote : d.write? t = some s) :
    (∃ next, u.change? t next = some d) ∨ ∃ r, u.retirement? r t = some d := by
  unfold taskDeed? at deed_eq
  split at deed_eq
  · split at deed_eq
    · cases deed_eq
      cases wrote
    · cases deed_eq
  · obtain ⟨r, _, asked⟩ := Option.bind_eq_some_iff.mp deed_eq
    exact requestDeed?_of_write asked wrote

theorem deed?_of_write {u : World σ} {op : Operation σ} {d : Deed} {t : ThreadId} {s : State}
    (deed_eq : u.deed? op = some d) (wrote : d.write? t = some s) :
    (∃ next, u.change? t next = some d) ∨ ∃ r, u.retirement? r t = some d := by
  cases op with
  | step I c =>
      cases c with
      | host =>
          simp only [deed?, stepDeed?] at deed_eq
          split at deed_eq
          · exact taskDeed?_of_write deed_eq wrote
          all_goals cases deed_eq
      | body t' =>
          simp only [deed?, stepDeed?] at deed_eq
          split at deed_eq
          · cases deed_eq
            cases wrote
          · cases deed_eq
            cases wrote
          · exact taskDeed?_of_write deed_eq wrote
          all_goals cases deed_eq
      | creator t' => cases deed_eq
  | application m args env =>
      simp only [deed?] at deed_eq
      split at deed_eq <;> cases deed_eq
      cases wrote
  | main m args env | add c r t' =>
      cases deed_eq
      cases wrote
  | start I slot | create slot object =>
      obtain ⟨thread, _, rfl⟩ := Option.map_eq_some_iff.mp deed_eq
      cases wrote
  | transition c r t' next => exact requestDeed?_of_write (r := .transition r t' next) deed_eq wrote
  | installRegistry c =>
      simp only [deed?] at deed_eq
      split at deed_eq <;> cases deed_eq
      cases wrote
  | _ => cases deed_eq

/-- A change is to another state. -/
theorem ne_of_change? {u : World σ} {t : ThreadId} {next current : State} {d : Deed}
    (changes : u.change? t next = some d) (state_eq : u.state? t = some current) :
    current ≠ next := by
  simp only [change?, state_eq] at changes
  split at changes
  · cases changes
  · rename_i legal
    simp only [Bool.or_eq_true, Bool.not_eq_true', not_or, Bool.not_eq_false,
      State.canTransitionTo_iff] at legal
    exact legal.2.2

/-- A write finds its thread alive, and in another state. -/
theorem state?_of_write {u : World σ} {op : Operation σ} {t : ThreadId} {s : State}
    (wrote : (u.deed? op).bind (Deed.write? t) = some s) :
    ∃ current, u.state? t = some current ∧ current ≠ .died ∧ current ≠ s := by
  obtain ⟨d, deed_eq, wrote⟩ := Option.bind_eq_some_iff.mp wrote
  rcases deed?_of_write deed_eq wrote with ⟨next, changes⟩ | ⟨r, retires⟩
  · obtain ⟨rfl, _, current, state_eq, alive⟩ := change?_eq_some changes
    have same : next = s := by simpa [Deed.write?] using wrote
    subst same
    exact ⟨current, state_eq, alive, ne_of_change? changes state_eq⟩
  · obtain ⟨rfl, ⟨current, state_eq, alive⟩, _⟩ := retirement?_eq_some retires
    have same : State.died = s := by simpa [Deed.write?] using wrote
    subst same
    exact ⟨current, state_eq, alive, alive⟩

/-- What one operation does to the state of a thread: what is written is what is there afterwards,
and nothing else changes it. -/
theorem state?_perform {u v : World σ} {op : Operation σ} (done : u.perform op = some v)
    (t : ThreadId) :
    (∀ s, (u.deed? op).bind (Deed.write? t) = some s → v.state? t = some s) ∧
      ((u.deed? op).bind (Deed.write? t) = none →
        v.state? t = u.state? t ∨ u.state? t = none ∧ v.state? t = some .running) := by
  have after := congrArg (·.state? t) (ledger_perform done)
  simp only [ledger_state?] at after
  refine ⟨fun s wrote => ?_, fun unwritten => ?_⟩
  · obtain ⟨current, state_eq, _⟩ := state?_of_write wrote
    obtain ⟨d, deed_eq, wrote⟩ := Option.bind_eq_some_iff.mp wrote
    rw [deed_eq, Option.toList_some, List.foldl_cons, List.foldl_nil, Ledger.state?_after,
      ledger_state?, state_eq] at after
    cases d with
    | moved t' next | retired r t' =>
        simp only [Deed.write?] at wrote
        split at wrote
        · rename_i same
          cases wrote
          simpa [same] using after
        · cases wrote
    | _ => cases wrote
  · cases deed_eq : u.deed? op with
    | none =>
        rw [deed_eq] at after
        rw [after]
        exact .inl (ledger_state? u t)
    | some d =>
        rw [deed_eq, Option.bind_some] at unwritten
        rw [deed_eq, Option.toList_some, List.foldl_cons, List.foldl_nil, Ledger.state?_after,
          ledger_state?] at after
        cases d with
        | built kind home =>
            simp only at after
            split at after
            · rename_i new
              refine .inr ⟨?_, after⟩
              rw [← ledger_state?, Ledger.state?, new, List.getElem?_eq_none (Nat.le_refl _)]
              rfl
            · exact .inl after
        | moved t' next | retired r t' =>
            simp only [Deed.write?] at unwritten
            split at unwritten
            · cases unwritten
            · rename_i other
              simp only [other, if_false] at after
              exact .inl after
        | _ => exact .inl after

/-! ## Histories -/

/-- In a chain of states none of which leaves `died`, `died` can only be the last. -/
theorem eq_nil_of_died {s : State} {l after : List State} {before : List State}
    (chain : (s :: l).IsChain fun s next => s ≠ .died ∧ s ≠ next)
    (split : l = before ++ .died :: after) : after = [] := by
  cases after with
  | nil => rfl
  | cons next after =>
      rw [split, ← List.cons_append] at chain
      have last := (List.isChain_append_cons_cons.mp chain).2.1
      exact absurd rfl last.1

section Histories

variable {n : Nat} {config : ConfigCell} {h : List Deed} {v : World σ}

/-- The states written to a thread form a chain that ends in the state it has now. -/
theorem Run.lifecycle (run : Run (ofRegistries n config) h v) (t : ThreadId) :
    (State.running :: writes t h).IsChain (fun s next => s ≠ .died ∧ s ≠ next) ∧
      (v.state? t = none ∧ writes t h = [] ∨
        v.state? t = (State.running :: writes t h).getLast?) := by
  induction run with
  | refl => exact ⟨List.isChain_singleton _, .inl ⟨rfl, rfl⟩⟩
  | @snoc h u v op run isPublic done ih =>
      obtain ⟨chain, now⟩ := ih
      obtain ⟨written, unwritten⟩ := state?_perform done t
      rw [writes_append, writes_toList, ← List.cons_append]
      cases wrote : (u.deed? op).bind (Deed.write? t) with
      | none =>
          rw [Option.toList_none, List.append_nil, List.append_nil]
          refine ⟨chain, ?_⟩
          rcases unwritten wrote with same | ⟨new, running⟩
          · rwa [same]
          · -- nothing has been written to a thread that was not there
            rcases now with ⟨_, blank⟩ | last
            · exact .inr (by rw [running, blank]; rfl)
            · rw [new, List.getLast?_eq_some_getLast (List.cons_ne_nil _ _)] at last
              cases last
      | some s =>
          obtain ⟨current, state_eq, alive, other⟩ := state?_of_write wrote
          have last : (State.running :: writes t h).getLast? = some current := by
            rcases now with ⟨none_eq, _⟩ | last
            · cases none_eq.symm.trans state_eq
            · exact last.symm.trans state_eq
          refine ⟨?_, .inr ?_⟩
          · refine chain.append (List.isChain_singleton s) ?_
            intro x x_last y y_first
            cases last.symm.trans x_last
            cases y_first
            exact ⟨alive, other⟩
          · rw [written s wrote, List.getLast?_append]
            rfl

end Histories

/-! ## Requested changes -/

/-- A change is refused if and only if the thread has died, is to die by it, or is in that state
already. -/
theorem transition_fst {w : World σ} {t : ThreadId} {current : State} (c : Ctx) (r : RegistryId)
    (next : State) (state_eq : w.state? t = some current) :
    (w.transition c r t next).1 =
      if current = .died ∨ next = .died ∨ next = current then
        .refused (.illegalStateTransition current.name next.name)
      else .changed := by
  simp only [transition, state_eq]
  cases current <;> cases next <;> rfl

/-- A change that is refused changes nothing. -/
theorem transition_of_refused {w : World σ} {t : ThreadId} {c : Ctx} {r : RegistryId}
    {next : State} (refused : (w.transition c r t next).1 ≠ .changed) :
    (w.transition c r t next).2 = w := by
  unfold transition at refused ⊢
  cases state_eq : w.state? t with
  | none => rfl
  | some current =>
      simp only [state_eq] at refused ⊢
      split
      · rfl
      · rename_i legal
        rw [if_neg legal] at refused
        exact absurd rfl refused

/-- A change that is made writes the state of the thread, and nothing else. -/
theorem transition_of_changed {w : World σ} {t : ThreadId} {c : Ctx} {r : RegistryId}
    {next : State} (changed : (w.transition c r t next).1 = .changed) :
    { (w.transition c r t next).2 with journal := w.journal } =
      w.modifyHandle t ({ · with state := next }) := by
  unfold transition at changed ⊢
  cases state_eq : w.state? t with
  | none =>
      simp only [state_eq] at changed
      cases changed
  | some current =>
      simp only [state_eq] at changed ⊢
      split
      · rename_i illegal
        rw [if_pos illegal] at changed
        cases changed
      · rfl

/-- Retiring a dead thread changes no registry. -/
theorem registries_retire_of_died {w : World σ} {t : ThreadId} (c : Ctx) (r : RegistryId)
    (died : w.state? t = some .died) : (w.retire c r t).2.registries = w.registries := by
  unfold retire
  rw [died]
  cases w.registries[r]? with
  | none => rfl
  | some reg => rfl

/-- What a guard of a dead thread does when its turn has come changes no registry. -/
theorem registries_of_dead_guard {I : Interpreter σ} {u v : World σ} {c : Ctx} {task : Task σ}
    {g : Guard} (task_eq : u.roster.taskAt c = some task)
    (acts : (∃ a, task.mode = .inspecting g a) ∨ ∃ passing, task.mode = .retiring g passing)
    (died : u.state? g.thread = some .died) (done : u.step I c = some v) :
    v.registries = u.registries := by
  have served {r : Request} (asks : task.request? = some r) :
      ∃ w, (u.serve c r).world? = some w ∧ v.registries = w.registries :=
    served_of_step World.registries (fun _ _ _ => rfl) (fun _ _ => rfl) (fun _ _ _ => rfl) task_eq
      asks done
  rcases acts with ⟨a, mode_eq⟩ | ⟨passing, mode_eq⟩
  · have asks : task.request? = some (.stateOf g.thread) := by simp [Task.request?, mode_eq]
    obtain ⟨w, reached, same⟩ := served asks
    simp only [serve, died, Served.world?, Option.some.injEq] at reached
    rw [same, reached]
  · have asks : task.request? = some (.retire g.registry g.thread) := by
      simp [Task.request?, mode_eq]
    obtain ⟨w, reached, same⟩ := served asks
    simp only [serve, Served.world?, Option.some.injEq] at reached
    rw [same, ← reached, registries_retire_of_died c g.registry died]

/-! ## Deaths -/

section Deaths

variable {n : Nat} {config : ConfigCell} {h h' : List Deed} {u v x : World σ} {op : Operation σ}
  {t : ThreadId}

/-- A thread dies by a retirement: a guard that a start of it has left retires it, in a step of the
context that has the guard. -/
theorem Run.retiring_of_death (reached : Run (ofRegistries n config) h u) (isPublic : op.IsPublic)
    (done : u.perform op = some v) (wrote : (u.deed? op).bind (Deed.write? t) = some .died) :
    ∃ (I : Interpreter σ) (task : Task σ) (g : Guard) (passing : Option Abort),
      op = .step I op.performer ∧ u.roster.taskAt op.performer = some task ∧
        task.mode = .retiring g passing ∧ g.thread = t ∧ .started t ∈ h := by
  obtain ⟨d, deed_eq, wrote⟩ := Option.bind_eq_some_iff.mp wrote
  have retired : ∃ r, d = .retired r t := by
    rcases deed?_of_write deed_eq wrote with ⟨next, changes⟩ | ⟨r, retires⟩
    · obtain ⟨rfl, alive, _⟩ := change?_eq_some changes
      exact absurd (by simpa [Deed.write?] using wrote) alive
    · exact ⟨r, (retirement?_eq_some retires).1⟩
  obtain ⟨r, rfl⟩ := retired
  obtain ⟨I, op_eq⟩ := step_of_retirement deed_eq
  obtain ⟨task, g, passing, task_eq, mode_eq, _, rfl⟩ :=
    (shift_perform isPublic done).retired_by reached.guarded.proper deed_eq
  have member := mem_guardsAt_of_retiring task_eq mode_eq
  exact ⟨I, task, g, passing, op_eq, task_eq, mode_eq, rfl, reached.guarded.begun _ g member⟩

/-- No start of a dead thread returns. -/
theorem Run.not_startReturns_of_died (reached : Run (ofRegistries n config) h u)
    (died : u.state? t = some .died) (run : Run u h' v) (isPublic : op.IsPublic)
    (done : v.perform op = some x) {c : Ctx} {g : Guard} (own : g.thread = t) :
    ¬ v.StartReturns x c g := by
  intro returns
  have alive := ((reached.trans run).sound.dies_at_return isPublic done returns).1
  rw [own] at alive
  exact alive (reached.died_of_died run died)

end Deaths

/-- Lifecycles are well formed, and death is final.  After any run, the states that were written to
a thread are a chain from `running` in which no state follows itself and nothing follows `died`, and
the thread is in the last of them.  What an operation writes is what it leaves, and what it does not
write it leaves alone.  A thread dies only when a guard that one of its starts has put up retires
it.

A change of state fails if and only if the thread has died, is to die by it, or is in that state
already.  If it fails, nothing happens, and if it succeeds, nothing else happens.

If a thread is started after it has died, no start of it returns from then on, and its guards leave
all registries as they are. -/
theorem death_is_final {n : Nat} {config : ConfigCell} {h : List Deed} {w : World σ}
    (reached : Run (ofRegistries n config) h w) :
    (∀ t, (State.running :: writes t h).IsChain (· ≠ ·) ∧
        (∀ before after, writes t h = before ++ .died :: after → after = []) ∧
        (w.state? t = none ∧ writes t h = [] ∨
          w.state? t = (State.running :: writes t h).getLast?)) ∧
      (∀ (op : Operation σ) (v : World σ) (t : ThreadId), op.IsPublic → w.perform op = some v →
        (∀ s, (w.deed? op).bind (Deed.write? t) = some s → v.state? t = some s) ∧
          ((w.deed? op).bind (Deed.write? t) = none →
            v.state? t = w.state? t ∨ w.state? t = none ∧ v.state? t = some .running) ∧
          ((w.deed? op).bind (Deed.write? t) = some .died →
            ∃ (I : Interpreter σ) (task : Task σ) (g : Guard) (passing : Option Abort),
              op = .step I op.performer ∧ w.roster.taskAt op.performer = some task ∧
                task.mode = .retiring g passing ∧ g.thread = t ∧ .started t ∈ h)) ∧
      (∀ (c : Ctx) (r : RegistryId) (t : ThreadId) (current next : State),
        w.state? t = some current →
        (w.transition c r t next).1 =
            (if current = .died ∨ next = .died ∨ next = current then
              .refused (.illegalStateTransition current.name next.name)
            else .changed) ∧
          ((w.transition c r t next).1 ≠ .changed → (w.transition c r t next).2 = w) ∧
          ((w.transition c r t next).1 = .changed →
            { (w.transition c r t next).2 with journal := w.journal } =
              w.modifyHandle t ({ · with state := next }))) ∧
      (∀ (op : Operation σ) (v : World σ) (t : ThreadId), op.IsPublic → w.perform op = some v →
        w.deed? op = some (.started t) → w.state? t = some .died →
        (∃ g : Guard, g.thread = t ∧ v.guardsAt op.performer = g :: w.guardsAt op.performer) ∧
          ∀ (h' : List Deed) (x y : World σ) (op' : Operation σ) (c : Ctx) (g : Guard),
            Run v h' x → op'.IsPublic → x.perform op' = some y → g.thread = t →
            ¬ x.StartReturns y c g ∧
              ∀ (I : Interpreter σ) (task : Task σ), op' = .step I c →
                x.roster.taskAt c = some task →
                (∃ a, task.mode = .inspecting g a) ∨ (∃ passing, task.mode = .retiring g passing) →
                y.registries = x.registries) := by
  refine ⟨fun t => ?_, fun op v t isPublic done => ?_, fun c r t current next state_eq => ?_, ?_⟩
  · obtain ⟨chain, now⟩ := reached.lifecycle t
    refine ⟨chain.imp fun _ _ step => step.2, fun before after split => ?_, now⟩
    exact eq_nil_of_died chain split
  · obtain ⟨written, unwritten⟩ := state?_perform done t
    exact ⟨written, unwritten, reached.retiring_of_death isPublic done⟩
  · exact ⟨transition_fst c r next state_eq, transition_of_refused, transition_of_changed⟩
  · intro op v t isPublic done starts died
    refine ⟨reached.sound.guarded_start isPublic done starts, ?_⟩
    intro h' x y op' c g run isPublic' done' own
    have next : Run w (w.deed? op).toList v := .snoc op .refl isPublic done
    refine ⟨reached.not_startReturns_of_died died (next.trans run) isPublic' done' own, ?_⟩
    intro I task op_eq task_eq acts
    have still := reached.died_of_died (next.trans run) died
    rw [← own] at still
    rw [op_eq] at done'
    exact registries_of_dead_guard task_eq acts still done'

/-- A thread that was put to sleep and then started has died.  It can be started once more, but that
start never returns. -/
theorem death_is_final_for_sleeper :
    ∃ (h : List Deed) (w v : World Script.Activation),
      Run (ofRegistries 1 ConfigCell.fresh) h w ∧ writes 0 h = [.sleeping, .died] ∧
        w.state? 0 = some .died ∧ w.perform (.start promptInterpreter 0) = some v ∧
        (∀ c r next, (w.transition c r 0 next).1 ≠ .changed) ∧
        ∀ h' x y I c g, Run v h' x → I.IsPublic → x.perform (.step I c) = some y → g.thread = 0 →
          ¬ x.StartReturns y c g := by
  let I := promptInterpreter
  let ops : List (Operation Script.Activation) :=
    [.application promptMethod [.null] ⟨0, 4, .script⟩, .transition .host 0 0 .sleeping,
      .start I 0, .step I .host, .step I .host, .step I .host, .step I .host, .step I .host,
      .takeBack]
  have isPublic : ∀ op ∈ ops, op.IsPublic := by
    simp [ops, Operation.IsPublic, I, isPublic_promptInterpreter]
  have reaches : ((ofRegistries 1 ConfigCell.fresh : World Script.Activation).performAll ops).map
      (fun done => (writes 0 done.1, done.2.state? 0, done.2.deed? (.start I 0),
        (done.2.perform (.start I 0)).isSome)) =
      some ([.sleeping, .died], some .died, some (.started 0), true) := rfl
  obtain ⟨h, w, reached, seen⟩ := exists_run_of_performAll isPublic reaches
  simp only [Prod.mk.injEq] at seen
  obtain ⟨writes_eq, died, starts, possible⟩ := seen
  obtain ⟨v, done⟩ := Option.isSome_iff_exists.mp possible
  have isPublicStart : (Operation.start I 0).IsPublic := isPublic_promptInterpreter
  obtain ⟨_, _, changes, restarts⟩ := death_is_final reached
  refine ⟨h, w, v, reached, writes_eq, died, done, ?_, ?_⟩
  · intro c r next
    simp [(changes c r 0 .died next died).1]
  · intro h' x y J c g run isPublicJ done' own
    exact ((restarts _ v 0 isPublicStart done starts died).2 h' x y (.step J c) c g run isPublicJ
      done' own).1

end World

end ThreadEngine
