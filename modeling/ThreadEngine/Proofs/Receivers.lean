import ThreadEngine.Proofs.DeniedStarts

set_option autoImplicit false

/-!
# Receivers

An application thread is built with one argument, its receiver.  The thread keeps it wherever it
goes, until its body passes its checks for the first time and calls its method on it; from then on
the thread has no argument, and no start of it gets past its checks again (`receiver_is_used_once`).
`Receives` is the invariant behind this.
-/

namespace ThreadEngine

variable {σ : Type}

/-- The calls of the body of one thread. -/
def callsOf (t : ThreadId) (calls : List BodyCall) : List BodyCall :=
  calls.filter (·.thread = t)

theorem callsOf_append (t : ThreadId) (calls calls' : List BodyCall) :
    callsOf t (calls ++ calls') = callsOf t calls ++ callsOf t calls' := List.filter_append ..

/-- The arguments that an application thread has after some calls of bodies. -/
def remaining (t : ThreadId) (receiver : Value) (calls : List BodyCall) : List Value :=
  if callsOf t calls = [] then [receiver] else []

namespace World

variable {n : Nat} {config : ConfigCell} {h : List Deed} {u v w : World σ} {op : Operation σ}
  {t : ThreadId} {m : MethodRef} {receiver : Value} {calls : List BodyCall} {thread : Thread}

/-- An application thread has its receiver until its body has called its method on it, which it has
done at most once. -/
structure Receives (t : ThreadId) (m : MethodRef) (receiver : Value) (calls : List BodyCall)
    (w : World σ) : Prop where
  /-- the thread exists -/
  known : ∃ home, w.ledger.pass? t = some ⟨t, .application, home⟩
  keeps : ∀ (place : Place) (thread : Thread), w.roster.threadAt place = some thread →
    thread.id = t → thread.method = m ∧ thread.args = remaining t receiver calls
  once : callsOf t calls = [] ∨ callsOf t calls = [⟨t, m, [receiver]⟩]

/-- A thread that is somewhere is what everybody knows of it. -/
theorem Orderly.kind_of_thread {place : Place} {kind : Kind} {home : RegistryId}
    (orderly : Orderly h w) (known : w.ledger.pass? t = some ⟨t, kind, home⟩)
    (found : w.roster.threadAt place = some thread) (own : thread.id = t) :
    thread.kind = kind := by
  have agrees := orderly.agrees place _ (Roster.mem_passesAt_of_threadAt found)
  have same : w.ledger.pass? t = some thread.pass := by
    rw [← own]
    exact agrees
  exact congrArg Pass.kind (Option.some.inj (same.symm.trans known))

/-- A thread is in one place only. -/
theorem Orderly.thread_unique {place place' : Place} {thread' : Thread} (orderly : Orderly h w)
    (found : w.roster.threadAt place = some thread)
    (found' : w.roster.threadAt place' = some thread') (same : thread.id = thread'.id) :
    thread = thread' := by
  have here := orderly.alone place place' _ _ (Roster.mem_passesAt_of_threadAt found)
    (Roster.mem_passesAt_of_threadAt found') same
  rw [here] at found
  exact Option.some.inj (found.symm.trans found')

/-- The step in which a body calls its method. -/
theorem bodyCall?_eq_some {b : BodyCall} (made : u.bodyCall? op = some b) :
    ∃ (I : Interpreter σ) (c : Ctx) (task : Task σ) (g : Guard), op = .step I c ∧
      u.roster.taskAt c = some task ∧ task.mode = .detaching g ∧ task.bodyCall? = some b := by
  cases op with
  | step I c =>
      obtain ⟨task, task_eq, made⟩ := Option.bind_eq_some_iff.mp made
      have detaching : ∃ g, task.mode = .detaching g := by
        unfold Task.bodyCall? at made
        split at made
        · rename_i g mode_eq
          exact ⟨g, mode_eq⟩
        · cases made
      obtain ⟨g, mode_eq⟩ := detaching
      exact ⟨I, c, task, g, rfl, task_eq, mode_eq, made⟩
  | _ => cases made

/-- The body of the thread calls its method: it was the first time, and the receiver is gone. -/
theorem Receives.call {b : BodyCall} (reached : Run (ofRegistries n config) h u)
    (receives : u.Receives t m receiver calls) (isPublic : op.IsPublic)
    (done : u.perform op = some v) (made : u.bodyCall? op = some b) (own : b.thread = t) :
    callsOf t calls = [] ∧ b = ⟨t, m, [receiver]⟩ ∧
      ∀ (place : Place) (thread : Thread), v.roster.threadAt place = some thread →
        thread.id = t → thread.method = m ∧ thread.args = [] := by
  obtain ⟨I, c, task, g, rfl, task_eq, mode_eq, made⟩ := bodyCall?_eq_some made
  have application := reached.sparesMain task_eq g mode_eq
  obtain ⟨v', step_eq, after⟩ := step_of_detaching I task_eq mode_eq
  obtain rfl : v = v' := Option.some.inj (done.symm.trans step_eq)
  have body := Task.runBody_thread I mode_eq application
  rw [made] at body
  obtain ⟨rfl, one, same⟩ := body
  obtain ⟨method_eq, args_eq⟩ :=
    receives.keeps c.place task.thread (Roster.threadAt_of_taskAt task_eq) own
  -- there is an argument, so there was no call before
  have first : callsOf t calls = [] := by
    by_contra called
    rw [args_eq, remaining, if_neg called] at one
    cases one
  rw [remaining, if_pos first] at args_eq
  have task_own : task.thread.id = t := own
  refine ⟨first, ?_, ?_⟩
  · rw [method_eq, args_eq, task_own]
  · intro place thread found thread_own
    have reached' := reached.snoc (.step I c) isPublic done
    have here := Roster.threadAt_of_taskAt after
    have spent_own : (Task.runBody I task.thread task.layers g).1.thread.id = t :=
      same.id_eq.trans task_own
    have thread_eq := reached'.orderly.thread_unique found here (thread_own.trans spent_own.symm)
    rw [thread_eq]
    exact ⟨same.method_eq.trans method_eq, same.args_eq⟩

/-- What one operation preserves. -/
theorem Receives.perform (reached : Run (ofRegistries n config) h u)
    (receives : u.Receives t m receiver calls) (isPublic : op.IsPublic)
    (done : u.perform op = some v) :
    v.Receives t m receiver (calls ++ (u.bodyCall? op).toList) := by
  have reached' := reached.snoc op isPublic done
  have known : ∃ home, v.ledger.pass? t = some ⟨t, .application, home⟩ := by
    obtain ⟨home, pass_eq⟩ := receives.known
    refine ⟨home, ?_⟩
    rw [ledger_perform done]
    exact Ledger.pass?_foldl _ pass_eq
  by_cases calling : ∃ b, u.bodyCall? op = some b ∧ b.thread = t
  · obtain ⟨b, made, own⟩ := calling
    obtain ⟨first, b_eq, spent⟩ := receives.call reached isPublic done made own
    have now : callsOf t (calls ++ (u.bodyCall? op).toList) = [⟨t, m, [receiver]⟩] := by
      rw [callsOf_append, first, made, b_eq]
      simp [callsOf]
    refine ⟨known, ?_, .inr now⟩
    intro place thread found thread_own
    rw [remaining, now, if_neg (List.cons_ne_nil _ _)]
    exact spent place thread found thread_own
  · have same : callsOf t (calls ++ (u.bodyCall? op).toList) = callsOf t calls := by
      rw [callsOf_append]
      have others : callsOf t (u.bodyCall? op).toList = [] := by
        apply List.filter_eq_nil_iff.mpr
        intro b member own
        exact calling ⟨b, Option.mem_toList.mp member, of_decide_eq_true own⟩
      rw [others, List.append_nil]
    refine ⟨known, ?_, same.symm ▸ receives.once⟩
    intro place thread found own
    rw [remaining, same]
    obtain ⟨home, known⟩ := known
    have application := reached'.orderly.kind_of_thread known found own
    obtain ⟨place', thread', was, body_eq⟩ | ⟨kind, home', _, new⟩ |
      ⟨I, J, c, task, g, rfl, task_eq, mode_eq, thread_eq⟩ :=
      threads_perform isPublic done found application
    · obtain ⟨method_eq, args_eq⟩ :=
        receives.keeps place' thread' was (body_eq.id_eq.symm.trans own)
      exact ⟨body_eq.method_eq.trans method_eq, body_eq.args_eq.trans args_eq⟩
    · obtain ⟨_, before⟩ := receives.known
      have old := Ledger.lt_of_pass? before
      rw [← length_launches, ← own, new] at old
      simp [roster] at old
    · -- the body has failed its checks, or is that of another thread
      have body := Task.runBody_thread J mode_eq (reached.sparesMain task_eq g mode_eq)
      have made : u.bodyCall? (.step I c) = task.bodyCall? := by simp [bodyCall?, task_eq]
      cases call_eq : task.bodyCall? with
      | none =>
          rw [call_eq] at body
          rw [thread_eq, body] at own ⊢
          exact receives.keeps c.place _ (Roster.threadAt_of_taskAt task_eq) own
      | some b =>
          rw [call_eq] at body
          obtain ⟨b_eq, _, body_eq⟩ := body
          refine absurd ⟨b, made.trans call_eq, ?_⟩ calling
          rw [b_eq, ← own, thread_eq]
          exact body_eq.id_eq.symm

/-- What a whole run preserves. -/
theorem Receives.bodyCallRun {calls' : List BodyCall} (reached : Run (ofRegistries n config) h u)
    (receives : u.Receives t m receiver calls) (calling : BodyCallRun u calls' v) :
    v.Receives t m receiver (calls ++ calls') := by
  induction calling with
  | refl => simpa using receives
  | @snoc calls' x y op calling isPublic done ih =>
      obtain ⟨h', run⟩ := calling.run
      rw [← List.append_assoc]
      exact ih.perform (reached.trans run) isPublic done

/-- A thread that has just been built has its receiver. -/
theorem receives_of_built {env : Env} (reached : Run (ofRegistries n config) h u)
    (built : u.perform (.application m [receiver] env) = some w) :
    w.Receives u.strands.length m receiver [] := by
  have reached' := reached.snoc (.application m [receiver] env) trivial built
  let thread : Thread :=
    ⟨u.strands.length, .application, env.registry, env.dialect, .empty env.maxDepth, m, [receiver],
      0⟩
  have held_eq : w.held? u.strands.length = some thread := by
    simp only [perform] at built
    split at built
    · cases built
      simp [buildApplication, build, held?, thread]
    · cases built
  have here := threadAt_of_held held_eq
  refine ⟨⟨env.registry, ?_⟩, ?_, .inl rfl⟩
  · exact reached'.orderly.agrees _ _ (Roster.mem_passesAt_of_threadAt here)
  · intro place other found own
    rw [reached'.orderly.thread_unique found here own]
    exact ⟨rfl, rfl⟩

end World

/-- The checks of an application body. -/
theorem Thread.refusal?_of_application {t : Thread} (application : t.kind = .application) :
    t.refusal? =
      if t.frames.isEmpty = false then some (.invariant .activeFrames)
      else if t.args.length ≠ 1 then some (.invariant .receiverArgument)
      else none := by
  unfold Thread.refusal? IntMachine.Job.refusal? IntMachine.Job.ofThread
  simp only [application, true_and, Bool.not_eq_true']

namespace World

variable {n : Nat} {config : ConfigCell} {h : List Deed} {u v w : World σ} {t : ThreadId}
  {m : MethodRef} {receiver : Value} {calls : List BodyCall}

/-- A body that comes to its checks calls its method on the receiver if no frame is active and it
has not done so before; otherwise it aborts. -/
theorem Receives.checks {c : Ctx} {task : Task σ} {g : Guard}
    (reached : Run (ofRegistries n config) h v) (receives : v.Receives t m receiver calls)
    (I : Interpreter σ) (task_eq : v.roster.taskAt c = some task)
    (mode_eq : task.mode = .detaching g) (own : task.thread.id = t) :
    ∃ x, v.step I c = some x ∧ x.roster.taskAt c = some
      (if task.thread.frames.isEmpty = false then
        ⟨task.thread, .body g :: task.layers, .unwinding (.invariant .activeFrames)⟩
      else if callsOf t calls ≠ [] then
        ⟨task.thread, .body g :: task.layers, .unwinding (.invariant .receiverArgument)⟩
      else (Task.call I { task.thread with args := [] } (.body g :: task.layers) m
        [receiver]).1) := by
  obtain ⟨x, step_eq, after⟩ := step_of_detaching I task_eq mode_eq
  refine ⟨x, step_eq, ?_⟩
  have found := Roster.threadAt_of_taskAt task_eq
  obtain ⟨home, known⟩ := receives.known
  have application := reached.orderly.kind_of_thread known found own
  obtain ⟨method_eq, args_eq⟩ := receives.keeps c.place task.thread found own
  have kind_eq : g.kind = task.thread.kind :=
    (reached.sparesMain task_eq g mode_eq).trans application.symm
  rw [after, Task.runBody_fst I task.thread task.layers kind_eq,
    Thread.refusal?_of_application application]
  by_cases active : task.thread.frames.isEmpty = false
  · rw [if_pos active, if_pos active]
  · rw [if_neg active, if_neg active]
    by_cases called : callsOf t calls = []
    · have one : task.thread.args = [receiver] := by rw [args_eq, remaining, if_pos called]
      simp [one, called, method_eq]
    · have spent : task.thread.args = [] := by rw [args_eq, remaining, if_neg called]
      simp [spent, called]

/-- After its body has called its method, no start of an application thread gets past its checks. -/
theorem Receives.start_aborts {op : Operation σ} (reached : Run (ofRegistries n config) h v)
    (receives : v.Receives t m receiver calls) (called : callsOf t calls ≠ [])
    (isPublic : op.IsPublic) (done : v.perform op = some w)
    (starts : v.deed? op = some (.started t)) :
    ∃ (thread : Thread) (layers : List (Layer σ)) (a : Abort), thread.id = t ∧
      thread.refusal? = some a ∧
      w.roster.taskAt op.performer = some ⟨thread, layers, .detaching (Task.guardOf thread)⟩ := by
  have reached' := reached.snoc op isPublic done
  have receives' := receives.perform reached isPublic done
  obtain ⟨I, thread, layers, own, task_eq⟩ := reached.start_task isPublic done starts
  -- the context has the thread, and the thread has no argument
  have found := Roster.threadAt_of_taskAt task_eq
  have pass_eq := (Task.start_guards I thread layers).1
  have own' : (Task.start I thread layers).1.thread.id = t :=
    (congrArg Pass.thread pass_eq).trans own
  obtain ⟨home, known⟩ := receives'.known
  have application : thread.kind = .application :=
    (congrArg Pass.kind pass_eq).symm.trans (reached'.orderly.kind_of_thread known found own')
  have start_eq := Task.start_of_application I layers application
  obtain ⟨_, args_eq⟩ := receives'.keeps _ _ found own'
  have still : callsOf t (calls ++ (v.bodyCall? op).toList) ≠ [] := by
    rw [callsOf_append]
    exact List.append_ne_nil_of_left_ne_nil called _
  rw [start_eq, remaining, if_neg still] at args_eq
  rw [start_eq] at task_eq
  have refused : ∃ a, thread.refusal? = some a := by
    rw [Thread.refusal?_of_application application, args_eq]
    split
    · exact ⟨_, rfl⟩
    · exact ⟨_, rfl⟩
  obtain ⟨a, refused⟩ := refused
  exact ⟨thread, layers, a, own, refused, task_eq⟩

/-- The body of an application thread runs at most once, on its receiver.  In every run from where
the thread was built, whoever has the thread finds the receiver as its only argument until its body
has passed its checks for the first time, and no argument ever after.  So the body calls the method
of the thread at most once, and on the receiver.

Whenever a body of the thread comes to its checks it aborts if a frame is active, or if it has made
its call already, and makes it otherwise.  After that call every start of the thread aborts before
it gets to an interpreter, and needs no other context for that. -/
theorem receiver_is_used_once {env : Env} (reached : Run (ofRegistries n config) h u)
    (built : u.perform (.application m [receiver] env) = some w) (calling : BodyCallRun w calls v) :
    (∀ (place : Place) (thread : Thread), v.roster.threadAt place = some thread →
        thread.id = u.strands.length →
        thread.kind = .application ∧ thread.method = m ∧
          thread.args = if callsOf u.strands.length calls = [] then [receiver] else []) ∧
      (callsOf u.strands.length calls = [] ∨
        callsOf u.strands.length calls = [⟨u.strands.length, m, [receiver]⟩]) ∧
      (∀ (I : Interpreter σ) (c : Ctx) (task : Task σ) (g : Guard),
        v.roster.taskAt c = some task → task.mode = .detaching g →
        task.thread.id = u.strands.length →
        ∃ x, v.step I c = some x ∧ x.roster.taskAt c = some
          (if task.thread.frames.isEmpty = false then
            ⟨task.thread, .body g :: task.layers, .unwinding (.invariant .activeFrames)⟩
          else if callsOf u.strands.length calls ≠ [] then
            ⟨task.thread, .body g :: task.layers, .unwinding (.invariant .receiverArgument)⟩
          else (Task.call I { task.thread with args := [] } (.body g :: task.layers) m
            [receiver]).1)) ∧
      (callsOf u.strands.length calls ≠ [] →
        ∀ (op : Operation σ) (x : World σ), op.IsPublic → v.perform op = some x →
          v.deed? op = some (.started u.strands.length) →
          ∃ (thread : Thread) (layers : List (Layer σ)) (a : Abort),
            thread.id = u.strands.length ∧
              x.roster.taskAt op.performer =
                some ⟨thread, layers, .detaching (Task.guardOf thread)⟩ ∧
              (∀ h' y, Run x h' y → x.StartAborts y op.performer thread layers a) ∧
              ∀ J : Interpreter σ, J.IsPublic → ∃ y, Alone J op.performer x y ∧
                y.roster.taskAt op.performer = some ⟨thread, layers, .unwinding a⟩) := by
  have begun := reached.snoc (.application m [receiver] env) trivial built
  have receives : v.Receives u.strands.length m receiver calls := by
    simpa using (receives_of_built reached built).bodyCallRun begun calling
  obtain ⟨h', run⟩ := calling.run
  have reached' := begun.trans run
  refine ⟨?_, receives.once, ?_, ?_⟩
  · intro place thread found own
    obtain ⟨home, known⟩ := receives.known
    exact ⟨reached'.orderly.kind_of_thread known found own,
      receives.keeps place thread found own⟩
  · intro I c task g task_eq mode_eq own
    exact receives.checks reached' I task_eq mode_eq own
  · intro called op x isPublic done starts
    obtain ⟨thread, layers, a, own, refused, task_eq⟩ :=
      receives.start_aborts reached' called isPublic done starts
    have application : thread.kind = .application :=
      (reached'.snoc op isPublic done).sparesMain task_eq _ rfl
    have denied : Task.Denied thread layers a
        (⟨thread, layers, .detaching (Task.guardOf thread)⟩ : Task σ) := .detaching application
    refine ⟨thread, layers, a, own, task_eq, ?_, ?_⟩
    · intro h'' y run'
      exact (reached'.snoc op isPublic done).denied refused task_eq denied run'
    · intro J isPublicJ
      exact (reached'.snoc op isPublic done).denied_progress isPublicJ refused task_eq denied

/-- A thread that the host has started runs its body on its receiver; the host takes it back and
starts it again, and that start aborts. -/
theorem receiver_is_used_once_by_restarted :
    ∃ (w v x : World Script.Activation),
      (ofRegistries 1 ConfigCell.fresh).perform (.application promptMethod [.null] ⟨0, 4, .script⟩) =
          some w ∧
        BodyCallRun w [⟨0, promptMethod, [.null]⟩] v ∧
        v.perform (.start promptInterpreter 0) = some x ∧
        (∀ place thread, v.roster.threadAt place = some thread → thread.id = 0 →
          thread.args = []) ∧
        ∃ (thread : Thread) (layers : List (Layer Script.Activation)) (a : Abort)
          (y : World Script.Activation), thread.id = 0 ∧ Alone promptInterpreter .host x y ∧
            y.roster.taskAt .host = some ⟨thread, layers, .unwinding a⟩ := by
  let first : World Script.Activation := ofRegistries 1 ConfigCell.fresh
  let w := (first.buildApplication promptMethod [.null] ⟨0, 4, .script⟩).2
  let ops : List (Operation Script.Activation) :=
    .start promptInterpreter 0 :: List.replicate 5 (.step promptInterpreter .host) ++ [.takeBack]
  have isPublic : ∀ op ∈ ops, op.IsPublic := by
    simp [ops, Operation.IsPublic, isPublic_promptInterpreter]
  have built : first.perform (.application promptMethod [.null] ⟨0, 4, .script⟩) = some w := rfl
  have reaches : (w.performAll ops).map (fun done => (done.2.deed? (.start promptInterpreter 0),
      (done.2.perform (.start promptInterpreter 0)).isSome)) = some (some (.started 0), true) := rfl
  obtain ⟨⟨h, v⟩, carried, seen⟩ := Option.map_eq_some_iff.mp reaches
  simp only [Prod.mk.injEq] at seen
  obtain ⟨starts, possible⟩ := seen
  obtain ⟨x, done⟩ := Option.isSome_iff_exists.mp possible
  have calling : BodyCallRun w [⟨0, promptMethod, [.null]⟩] v :=
    bodyCallRun_of_performAll isPublic carried
  obtain ⟨keeps, _, _, aborts⟩ := receiver_is_used_once (h := []) .refl built calling
  obtain ⟨thread, layers, a, own, _, _, comes⟩ := aborts (by decide)
    (.start promptInterpreter 0) x isPublic_promptInterpreter done starts
  obtain ⟨y, alone, out⟩ := comes promptInterpreter isPublic_promptInterpreter
  refine ⟨w, v, x, built, calling, done, ?_, thread, layers, a, y, own, alone, out⟩
  intro place thread' found own'
  exact (keeps place thread' found own').2.2

end World

end ThreadEngine
