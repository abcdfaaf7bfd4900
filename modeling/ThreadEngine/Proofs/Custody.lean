import ThreadEngine.Proofs.Shift

set_option autoImplicit false

/-!
# Custody

A thread is a value that only one party has at a time: the host holds it at some place, a creator is
about to hand it on, or an execution context works on it.  This module says where the passes of
threads are, a guard's among them, and what an operation can do about it: they stay, some are lost,
or all that is in one place goes to another (`custody_of_shift`).
-/

namespace ThreadEngine

/-! ## Places -/

/-- In what way a strand has a thread. -/
inductive Role where
  /-- the host holds it there -/
  | held
  /-- the creator of the launch's thread has it -/
  | creator
  /-- the execution context of the launch's thread has it -/
  | body
  deriving DecidableEq, Repr, Inhabited

/-- Where a thread can be. -/
inductive Place where
  /-- the host works on it -/
  | host
  | strand (t : ThreadId) (role : Role)
  deriving DecidableEq, Repr, Inhabited

/-- The place of a context. -/
def Ctx.place : Ctx → Place
  | .host => .host
  | .body t => .strand t .body
  | .creator t => .strand t .creator

theorem Ctx.place_ne_held (c : Ctx) (slot : ThreadId) : c.place ≠ .strand slot .held := by
  cases c <;> simp [Ctx.place]

theorem Ctx.place_inj {c c' : Ctx} (same : c.place = c'.place) : c = c' := by
  cases c <;> cases c' <;> simp_all [Ctx.place]

/-- The passes that a creator has. -/
def Creation.passes : Creation → List Pass
  | .binding thread _ | .spawning thread => [thread.pass]
  | .attaching | .launching | .awaitingReady | .hooking | .joining | .done _ | .aborted _ => []

/-- The passes that an execution context has. -/
def Child.passes {σ : Type} : Child σ → List Pass
  | .idle thread | .recording thread | .reporting thread => [thread.pass]
  | .running task => task.passes
  | .ended _ => []

/-- The passes at a strand. -/
def LaunchState.passes {σ : Type} (s : LaunchState σ) : Role → List Pass
  | .held => s.held.toList.map Thread.pass
  | .creator => s.creation.toList.flatMap Creation.passes
  | .body => s.child.toList.flatMap Child.passes

namespace Roster

variable {σ : Type}

/-- The passes at a place. -/
def passesAt (ro : Roster σ) : Place → List Pass
  | .host => ro.host.task?.toList.flatMap Task.passes
  | .strand t role => ro.launches[t]?.toList.flatMap (·.passes role)

theorem passesAt_strand {ro : Roster σ} {t : ThreadId} {s : LaunchState σ}
    (launch_eq : ro.launches[t]? = some s) (role : Role) :
    ro.passesAt (.strand t role) = s.passes role := by
  simp [passesAt, launch_eq]

/-- A change of one launch state changes only what is there. -/
theorem mem_passesAt_modify {ro : Roster σ} {t : ThreadId} {f : LaunchState σ → LaunchState σ}
    {place : Place}
    {pass : Pass} (member : pass ∈ (ro.modify t f).passesAt place) :
    (∃ s role, place = .strand t role ∧ ro.launches[t]? = some s ∧ pass ∈ (f s).passes role) ∨
      (∀ role, place ≠ .strand t role) ∧ pass ∈ ro.passesAt place := by
  cases place with
  | host =>
      refine .inr ⟨?_, member⟩
      intro role same
      cases same
  | strand u role =>
      by_cases same : t = u
      · subst same
        cases launch_eq : ro.launches[t]? with
        | none => simp [passesAt, modify, launch_eq] at member
        | some s =>
            refine .inl ⟨s, role, rfl, rfl, ?_⟩
            simpa [passesAt, modify, launch_eq] using member
      · refine .inr ⟨?_, ?_⟩
        · intro role' same'
          cases same'
          exact same rfl
        · simpa [passesAt, modify, same] using member

/-! ### Tasks in their places -/

theorem passesAt_of_taskAt {ro : Roster σ} {c : Ctx} {task : Task σ}
    (task_eq : ro.taskAt c = some task) : ro.passesAt c.place = task.passes := by
  cases c with
  | host =>
      have host_eq : ro.host.task? = some task := task_eq
      simp [passesAt, Ctx.place, host_eq]
  | creator t => cases task_eq
  | body t =>
      obtain ⟨s, launch_eq, child_eq⟩ := launch_of_taskAt task_eq
      rw [Ctx.place, passesAt_strand launch_eq, LaunchState.passes, child_eq]
      simp [Child.passes]

theorem passes_ofTask (task : Task σ) (pass : Pass) (member : pass ∈ (Child.ofTask task).passes) :
    pass ∈ task.passes := by
  unfold Child.ofTask at member
  split at member
  · exact member
  · cases member
  · cases member
  · cases member

/-- A task that is put back changes only what its context has. -/
theorem mem_passesAt_put {ro : Roster σ} {c : Ctx} {task task' : Task σ} {place : Place}
    {pass : Pass} (task_eq : ro.taskAt c = some task)
    (member : pass ∈ (ro.put c task').passesAt place) :
    (place = c.place ∧ pass ∈ task'.passes) ∨ (place ≠ c.place ∧ pass ∈ ro.passesAt place) := by
  cases c with
  | creator t => cases task_eq
  | host =>
      cases host_eq : ro.host with
      | idle | waiting r | waited b =>
          simp only [taskAt, host_eq, Host.task?] at task_eq
          cases task_eq
      | running slot old =>
          cases place with
          | host => exact .inl ⟨rfl, by simpa [put, host_eq, passesAt, Host.task?] using member⟩
          | strand t role =>
              refine .inr ⟨?_, by simpa [put, host_eq, passesAt] using member⟩
              intro same
              cases same
  | body t =>
      obtain ⟨s, role, rfl, launch_eq, member⟩ | ⟨elsewhere, member⟩ := mem_passesAt_modify member
      · cases role with
        | body =>
            simp only [LaunchState.passes, Option.toList_some, List.flatMap_cons, List.flatMap_nil,
              List.append_nil] at member
            exact .inl ⟨rfl, passes_ofTask task' pass member⟩
        | held | creator =>
            refine .inr ⟨?_, by rw [passesAt_strand launch_eq]; exact member⟩
            intro same
            cases same
      · exact .inr ⟨elsewhere .body, member⟩

end Roster

/-! ### Steps of tasks -/

namespace Task

variable {σ : Type}

theorem mem_passes {task : Task σ} {pass : Pass} :
    pass ∈ task.passes ↔ pass = task.thread.pass ∨ ∃ g ∈ task.guards, g.pass = pass := by
  simp [passes]

theorem mem_passes_call {I : Interpreter σ} {thread : Thread} {m : MethodRef} {args : List Value}
    {pass : Pass} (member : pass ∈ (call I thread [] m args).1.passes) : pass = thread.pass := by
  obtain ⟨pass_eq, guards_eq⟩ := call_guards I thread [] m args
  rw [mem_passes, pass_eq, guards_eq] at member
  simpa using member

theorem mem_passes_start {I : Interpreter σ} {thread : Thread} {pass : Pass}
    (member : pass ∈ (start I thread []).1.passes) : pass = thread.pass := by
  obtain ⟨pass_eq, guards_eq⟩ := start_guards I thread []
  rw [mem_passes, pass_eq, guards_eq] at member
  rcases member with own | ⟨g, guard_mem, rfl⟩
  · exact own
  · have same : g = guardOf thread := by simpa using guard_mem
    rw [same]
    rfl

theorem mem_passes_advance {I : Interpreter σ} {task task' : Task σ} {notes : List Note}
    (advances : task.advance I = some (task', notes)) {pass : Pass}
    (member : pass ∈ task'.passes) : pass ∈ task.passes := by
  rw [mem_passes] at member ⊢
  obtain ⟨pass_eq, ⟨_, _, _, _, _, _, g, guard_eq, pushed⟩ | ⟨_, same⟩⟩ := advance_guards advances
  · rw [pass_eq, pushed] at member
    rcases member with own | ⟨g', guard_mem, rfl⟩
    · exact .inl own
    · rcases List.mem_cons.mp guard_mem with rfl | old
      · exact .inl guard_eq
      · exact .inr ⟨g', old, rfl⟩
  · rw [pass_eq, same] at member
    exact member

/-- After an answer a task has what it had, and possibly the thread that the answer brings. -/
theorem mem_passes_answer {I : Interpreter σ} {task : Task σ} {r : Request} {a : Answer}
    (asks : task.request? = some r) {pass : Pass} (member : pass ∈ (task.answer I a).1.passes) :
    pass ∈ task.passes ∨ pass = (threadAfter task.thread a).pass := by
  rw [mem_passes] at member ⊢
  obtain ⟨_, _, _, thread_eq, guards_eq⟩ | ⟨pass_eq, ⟨_, guards_eq⟩ | ⟨g, popped, _⟩⟩ :=
    answer_guards I asks a
  · rw [thread_eq, guards_eq] at member
    rcases member with own | guarded
    · exact .inr own
    · exact .inl (.inr guarded)
  · rw [pass_eq, guards_eq] at member
    exact .inl member
  · rw [pass_eq] at member
    rcases member with own | ⟨g', guard_mem, pass_eq'⟩
    · exact .inl (.inl own)
    · refine .inl (.inr ⟨g', ?_, pass_eq'⟩)
      rw [popped]
      exact List.mem_cons_of_mem g guard_mem

theorem passes_reask (task : Task σ) (r : Request) : (task.reask r).passes = task.passes := by
  rw [passes, passes, reask_thread, reask_guards]

end Task

/-! ## What an operation does to the places -/

namespace Roster

variable {σ : Type}

/-- Passes stay where they are, or are lost. -/
def Keeps (ro ro' : Roster σ) : Prop :=
  ∀ place pass, pass ∈ ro'.passesAt place → pass ∈ ro.passesAt place

/-- What is at one place goes to another; other passes stay where they are, or are lost. -/
def Hands (ro ro' : Roster σ) (p q : Place) : Prop :=
  ∀ place pass, pass ∈ ro'.passesAt place →
    (place ≠ p ∧ pass ∈ ro.passesAt place) ∨ (place = q ∧ pass ∈ ro.passesAt p)

/-- What an operation can do to the places of passes. -/
inductive Custody (ro ro' : Roster σ) : Option Deed → Prop
  | kept {d : Option Deed} (builds : ∀ kind home, d ≠ some (.built kind home))
      (creates : ∀ t, d ≠ some (.created t)) (keeps : ro.Keeps ro') : Custody ro ro' d
  /-- the host holds it, or works on it, and gives it away -/
  | handed {d : Option Deed} {p q : Place} (builds : ∀ kind home, d ≠ some (.built kind home))
      (creates : ∀ t, d ≠ some (.created t)) (loose : p = .host ∨ ∃ slot, p = .strand slot .held)
      (hands : ro.Hands ro' p q) : Custody ro ro' d
  | launched {t : ThreadId} (hands : ro.Hands ro' (.strand t .creator) (.strand t .body)) :
      Custody ro ro' none
  | created {slot : ThreadId} {thread : Thread}
      (only : ro.passesAt (.strand slot .held) = [thread.pass])
      (hands : ro.Hands ro' (.strand slot .held) (.strand thread.id .creator)) :
      Custody ro ro' (some (.created thread.id))
  | built {kind : Kind} {home : RegistryId}
      (grows : ∀ place pass, pass ∈ ro'.passesAt place →
        pass ∈ ro.passesAt place ∨
          place = .strand ro.launches.length .held ∧ pass = ⟨ro.launches.length, kind, home⟩) :
      Custody ro ro' (some (.built kind home))

theorem Keeps.refl (ro : Roster σ) : ro.Keeps ro := fun _ _ member => member

/-- Changing one launch state keeps the passes if the new one does. -/
theorem Keeps.modify {ro : Roster σ} {t : ThreadId} {s : LaunchState σ}
    {f : LaunchState σ → LaunchState σ}
    (launch_eq : ro.launches[t]? = some s)
    (keeps : ∀ role pass, pass ∈ (f s).passes role → pass ∈ s.passes role) :
    ro.Keeps (ro.modify t f) := by
  intro place pass member
  obtain ⟨s', role, rfl, launch_eq', member⟩ | ⟨_, member⟩ := mem_passesAt_modify member
  · obtain rfl : s = s' := Option.some.inj (launch_eq.symm.trans launch_eq')
    rw [passesAt_strand launch_eq]
    exact keeps role pass member
  · exact member

/-- Putting a task back keeps the passes if the task does. -/
theorem Keeps.put {ro : Roster σ} {c : Ctx} {task task' : Task σ}
    (task_eq : ro.taskAt c = some task)
    (keeps : ∀ pass, pass ∈ task'.passes → pass ∈ task.passes) : ro.Keeps (ro.put c task') := by
  intro place pass member
  obtain ⟨place_eq, own⟩ | ⟨_, other⟩ := mem_passesAt_put task_eq member
  · rw [place_eq, passesAt_of_taskAt task_eq]
    exact keeps pass own
  · exact other

/-- Only held threads go when a strand is cleared of them. -/
theorem mem_passesAt_takeHeld {ro : Roster σ} {slot : ThreadId} {place : Place} {pass : Pass}
    (member : pass ∈ (ro.modify slot ({ · with held := none })).passesAt place) :
    place ≠ .strand slot .held ∧ pass ∈ ro.passesAt place := by
  obtain ⟨s, role, rfl, launch_eq, member⟩ | ⟨elsewhere, member⟩ := mem_passesAt_modify member
  · rw [passesAt_strand launch_eq]
    cases role with
    | held => cases member
    | creator =>
        refine ⟨?_, member⟩
        intro same
        cases same
    | body =>
        refine ⟨?_, member⟩
        intro same
        cases same
  · exact ⟨elsewhere .held, member⟩

/-- What the host holds goes to the creator. -/
theorem hands_create {ro : Roster σ} {slot : ThreadId} {thread : Thread} (object : Value)
    (only : ro.passesAt (.strand slot .held) = [thread.pass]) :
    ro.Hands (ro.create slot thread object) (.strand slot .held) (.strand thread.id .creator) := by
  intro place pass member
  obtain ⟨s, role, rfl, launch_eq, own⟩ | ⟨_, other⟩ := mem_passesAt_modify member
  · cases role with
    | creator =>
        refine .inr ⟨rfl, ?_⟩
        rw [only]
        simpa [LaunchState.passes, Creation.passes] using own
    | held =>
        left
        apply mem_passesAt_takeHeld
        rw [passesAt_strand launch_eq]
        exact own
    | body =>
        left
        apply mem_passesAt_takeHeld
        rw [passesAt_strand launch_eq]
        exact own
  · exact .inl (mem_passesAt_takeHeld other)

end Roster

namespace World

variable {σ : Type}

theorem passesAt_of_held {u : World σ} {slot : ThreadId} {thread : Thread}
    (held_eq : u.held? slot = some thread) :
    u.roster.passesAt (.strand slot .held) = [thread.pass] := by
  rw [held?_eq, Option.bind_eq_some_iff] at held_eq
  obtain ⟨s, launch_eq, held_eq⟩ := held_eq
  rw [Roster.passesAt_strand launch_eq, LaunchState.passes, held_eq]
  rfl

end World

/-- What happens at one strand keeps its passes there, except that the creator hands its thread to
the execution context. -/
theorem LaunchState.Step.passes {σ : Type} {s s' : LaunchState σ} {d : Option Deed}
    (step : s.Step d s') :
    (∀ role pass, pass ∈ s'.passes role → pass ∈ s.passes role) ∨
      d = none ∧ s'.passes .held = s.passes .held ∧ s'.passes .creator = [] ∧
        s'.passes .body = s.passes .creator := by
  cases step with
  | spawned creation_eq =>
      refine .inr ⟨rfl, rfl, rfl, ?_⟩
      simp [LaunchState.passes, creation_eq, Creation.passes, Child.passes]
  | dropped =>
      refine .inl fun role pass member => ?_
      cases role with
      | held => cases member
      | creator | body => exact member
  | edited held_eq same =>
      refine .inl fun role pass member => ?_
      cases role with
      | held => simpa [LaunchState.passes, held_eq, same.pass_eq] using member
      | creator | body => exact member
  | bound creation_eq =>
      refine .inl fun role pass member => ?_
      cases role with
      | creator => simpa [LaunchState.passes, creation_eq, Creation.passes] using member
      | held | body => exact member
  | hooked creation_eq next =>
      refine .inl fun role pass member => ?_
      cases role with
      | creator => rcases next with rfl | rfl <;> cases member
      | held | body => exact member
  | attached creation_eq | told creation_eq | heard creation_eq _ | joined creation_eq _
  | refused creation_eq | abandoned creation_eq _ =>
      refine .inl fun role pass member => ?_
      cases role with
      | creator => cases member
      | held | body => exact member
  | @woken thread child_eq _ =>
      refine .inl fun role pass member => ?_
      cases role with
      | body => cases kind_eq : thread.kind <;>
          simpa [LaunchState.passes, child_eq, Child.passes, kind_eq, Kind.isRecorded] using member
      | held | creator => exact member
  | enlisted child_eq =>
      refine .inl fun role pass member => ?_
      cases role with
      | body => simpa [LaunchState.passes, child_eq, Child.passes] using member
      | held | creator => exact member
  | deserted child_eq _ _ =>
      refine .inl fun role pass member => ?_
      cases role with
      | body => cases member
      | held | creator => exact member

theorem LaunchState.Step.deed {σ : Type} {s s' : LaunchState σ} {d : Option Deed}
    (step : s.Step d s') :
    d = none ∨ ∃ r t, d = some (.enlisted r t) := by
  cases step with
  | enlisted child_eq => exact .inr ⟨_, _, rfl⟩
  | _ => exact .inl rfl

namespace World

variable {σ : Type}

theorem custody_of_launch {u : World σ} {t : ThreadId} {s s' : LaunchState σ} {d : Option Deed}
    (launch_eq : u.roster.launches[t]? = some s) (step : s.Step d s') :
    u.roster.Custody (u.roster.modify t fun _ => s') d := by
  rcases step.passes with keeps | ⟨rfl, held_eq, creator_eq, body_eq⟩
  · have kept : u.roster.Keeps (u.roster.modify t fun _ => s') := .modify launch_eq keeps
    rcases step.deed with rfl | ⟨r, t', rfl⟩
    · exact .kept (by simp) (by simp) kept
    · exact .kept (by simp) (by simp) kept
  · refine .launched (t := t) ?_
    intro place pass member
    obtain ⟨s₁, role, rfl, launch_eq₁, own⟩ | ⟨elsewhere, other⟩ :=
      Roster.mem_passesAt_modify member
    · cases role with
      | held =>
          refine .inl ⟨by simp, ?_⟩
          rw [Roster.passesAt_strand launch_eq, ← held_eq]
          exact own
      | creator =>
          rw [creator_eq] at own
          cases own
      | body =>
          refine .inr ⟨rfl, ?_⟩
          rw [Roster.passesAt_strand launch_eq, ← body_eq]
          exact own
    · exact .inl ⟨elsewhere .creator, other⟩

/-- The deed of a local step is at most a start. -/
theorem taskDeed?_of_advance {I : Interpreter σ} (u : World σ) {task task' : Task σ}
    {notes : List Note} (advances : task.advance I = some (task', notes)) :
    u.taskDeed? I task = none ∨ u.taskDeed? I task = some (.started task.thread.id) := by
  unfold taskDeed?
  split
  · split
    · exact .inr rfl
    · exact .inl rfl
  · left
    obtain ⟨s, depth, mode_eq, _⟩ | ⟨c, mode_eq, _⟩ | ⟨a, mode_eq, _⟩ :=
      Task.advance_cases advances
    · simp [Task.request?, mode_eq]
    · simp [Task.request?, mode_eq]
    · simp [Task.request?, mode_eq]

/-- What a step of a task does is a start, what was asked for, or a creation. -/
theorem TaskStep.deed_cases {u : World σ} {c : Ctx} {task task' : Task σ} {d : Option Deed}
    {ro : Roster σ} {e : Deed} (step : u.TaskStep c task d ro task') (deed_eq : d = some e) :
    (e = .started task.thread.id ∧ ro = u.roster) ∨
      (e.relocates = false ∧ ∃ r, task.request? = some r ∧ u.requestDeed? r = some e) ∨
      ∃ t, e = .created t := by
  cases step with
  | advanced isPublic advances =>
      rcases taskDeed?_of_advance u advances with none_eq | started_eq
      · cases none_eq.symm.trans deed_eq
      · exact .inl ⟨Option.some.inj (deed_eq.symm.trans started_eq), rfl⟩
  | @answered I r a w asks served keeps stays =>
      exact .inr (.inl ⟨stays e deed_eq, r, asks, deed_eq⟩)
  | replaced asks | deferred isPublic => cases deed_eq
  | @launches slot object thread held_eq =>
      exact .inr (.inr ⟨thread.id, (Option.some.inj deed_eq).symm⟩)

theorem custody_of_task {u : World σ} {c : Ctx} {task task' : Task σ} {d : Option Deed}
    {ro : Roster σ} (task_eq : u.roster.taskAt c = some task)
    (step : u.TaskStep c task d ro task') : u.roster.Custody (ro.put c task') d := by
  cases step with
  | @advanced I _ notes isPublic advances =>
      have kept : u.roster.Keeps (u.roster.put c task') :=
        .put task_eq fun pass => Task.mem_passes_advance advances
      rcases taskDeed?_of_advance u advances with deed_eq | deed_eq
      · rw [deed_eq]
        exact .kept (by simp) (by simp) kept
      · rw [deed_eq]
        exact .kept (by simp) (by simp) kept
  | @answered I r a w asks served keeps stays =>
      have kept : u.roster.Keeps (u.roster.put c (task.answer I a).1) := by
        refine .put task_eq fun pass member => ?_
        rcases Task.mem_passes_answer asks member with old | new
        · exact old
        · rw [keeps] at new
          exact Task.mem_passes.mpr (.inl new)
      refine .kept (fun kind home deed_eq => ?_) (fun t deed_eq => ?_) kept
      · cases stays _ deed_eq
      · cases stays _ deed_eq
  | @replaced I slot asks =>
      refine .handed (by simp) (by simp) (.inr ⟨slot, rfl⟩) (q := c.place) ?_
      intro place pass member
      have cleared : (u.roster.modify slot ({ · with held := none })).taskAt c = some task := by
        rw [Roster.taskAt_modify_held, task_eq]
      obtain ⟨place_eq, own⟩ | ⟨_, other⟩ := Roster.mem_passesAt_put cleared member
      · rcases Task.mem_passes_answer asks own with old | new
        · refine .inl ⟨?_, ?_⟩
          · rw [place_eq]
            cases c <;> simp [Ctx.place]
          · rw [place_eq, Roster.passesAt_of_taskAt task_eq]
            exact old
        · cases held_eq : u.held? slot with
          | none =>
              rw [held_eq] at new
              refine .inl ⟨place_eq ▸ c.place_ne_held slot, ?_⟩
              rw [place_eq, Roster.passesAt_of_taskAt task_eq]
              exact Task.mem_passes.mpr (.inl new)
          | some thread =>
              rw [held_eq] at new
              refine .inr ⟨place_eq, ?_⟩
              rw [passesAt_of_held held_eq, new]
              exact List.mem_singleton.mpr rfl
      · exact .inl (Roster.mem_passesAt_takeHeld other)
  | deferred isPublic =>
      refine .kept (by simp) (by simp) (.put task_eq fun pass member => ?_)
      rw [Task.passes_reask] at member
      exact member
  | @launches slot object thread held_eq =>
      have only := passesAt_of_held held_eq
      refine .created only ?_
      intro place pass member
      have begun : (u.roster.create slot thread object).taskAt c = some task := by
        rw [Roster.taskAt_create, task_eq]
      obtain ⟨place_eq, own⟩ | ⟨_, other⟩ := Roster.mem_passesAt_put begun member
      · refine .inl ⟨place_eq ▸ c.place_ne_held slot, ?_⟩
        rw [Task.passes_reask] at own
        rw [place_eq, Roster.passesAt_of_taskAt task_eq]
        exact own
      · exact Roster.hands_create object only place pass other

/-- What the host holds goes to the host's own work. -/
theorem custody_of_engagement {u : World σ} {slot : ThreadId} {thread : Thread} {task : Task σ}
    {d : Option Deed} (builds : ∀ kind home, d ≠ some (.built kind home))
    (creates : ∀ t, d ≠ some (.created t)) (held_eq : u.held? slot = some thread)
    (only : ∀ pass ∈ task.passes, pass = thread.pass) :
    u.roster.Custody
      { u.roster.modify slot ({ · with held := none }) with host := .running slot task } d := by
  refine .handed builds creates (.inr ⟨slot, rfl⟩) (q := .host) ?_
  intro place pass member
  cases place with
  | host =>
      refine .inr ⟨rfl, ?_⟩
      rw [passesAt_of_held held_eq, List.mem_singleton]
      exact only pass (by simpa [Roster.passesAt, Host.task?] using member)
  | strand t role => exact .inl (Roster.mem_passesAt_takeHeld member)

/-- What a shift of the roster does to the places of passes. -/
theorem custody_of_shift {u : World σ} {who : Ctx} {d : Option Deed} {ro : Roster σ}
    (shift : Shift u who d ro) : u.roster.Custody ro d := by
  cases shift with
  | rest stays retires admits =>
      refine .kept (fun kind home deed_eq => ?_) (fun t deed_eq => ?_) (.refl _)
      · cases stays _ deed_eq
      · cases stays _ deed_eq
  | @built _ kind home thread pass_eq home_lt =>
      have length_eq : u.roster.launches.length = u.strands.length := by simp [roster]
      refine .built ?_
      intro place pass member
      cases place with
      | host => exact .inl member
      | strand t role =>
          rcases Nat.lt_trichotomy t u.roster.launches.length with old | new | beyond
          · left
            simpa [Roster.passesAt, List.getElem?_append_left old] using member
          · subst new
            cases role with
            | held =>
                right
                simpa [Roster.passesAt, LaunchState.passes, pass_eq, length_eq] using member
            | creator | body => simp [Roster.passesAt, LaunchState.passes] at member
          · have missing : (u.roster.launches ++ [⟨some thread, none, false, false, none⟩])[t]? =
                none := by
              rw [List.getElem?_eq_none_iff, List.length_append]
              exact beyond
            simp [Roster.passesAt, missing] at member
  | launchStep launch_eq step => exact custody_of_launch launch_eq step
  | @begun I t s thread launch_eq child_eq =>
      refine .kept (by simp) (by simp) (.modify launch_eq ?_)
      intro role pass member
      cases role with
      | held | creator => exact member
      | body =>
          have started : pass ∈ (Task.start I thread []).1.passes := by
            simpa [LaunchState.passes, Child.passes] using member
          rw [Task.mem_passes_start started]
          simp [LaunchState.passes, child_eq, Child.passes]
  | @waits host' before after =>
      refine .kept (by simp) (by simp) ?_
      intro place pass member
      cases place with
      | host => simp [Roster.passesAt, after] at member
      | strand t role => exact member
  | called idle held_eq =>
      exact custody_of_engagement (by simp) (by simp) held_eq fun pass => Task.mem_passes_call
  | started idle held_eq =>
      exact custody_of_engagement (by simp) (by simp) held_eq fun pass => Task.mem_passes_start
  | @takenBack slot task c host_eq finished =>
      refine .handed (by simp) (by simp) (.inl rfl) (q := .strand slot .held) ?_
      intro place pass member
      cases place with
      | host => cases member
      | strand t role =>
          have changed : pass ∈ (u.roster.modify slot
              ({ · with held := some task.thread })).passesAt (.strand t role) := member
          obtain ⟨s, role', place_eq, launch_eq, own⟩ | ⟨_, other⟩ :=
            Roster.mem_passesAt_modify changed
          · cases place_eq
            cases role with
            | held =>
                refine .inr ⟨rfl, ?_⟩
                have same : pass = task.thread.pass := by simpa [LaunchState.passes] using own
                simp [Roster.passesAt, roster, host_eq, Host.task?, Task.mem_passes, same]
            | creator | body =>
                refine .inl ⟨by simp, ?_⟩
                rw [Roster.passesAt_strand launch_eq]
                exact own
          · exact .inl ⟨by simp, other⟩
  | created held_eq =>
      have only := passesAt_of_held held_eq
      exact .created only (Roster.hands_create _ only)
  | stepped task_eq step => exact custody_of_task task_eq step

end World

end ThreadEngine
