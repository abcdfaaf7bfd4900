import ThreadEngine.Proofs.FineInvariants
import Mathlib.Data.List.Nodup

set_option autoImplicit false

/-!
# Registration and retirement match

Suppose that threads enter registries only through their own execution contexts, no thread is
started before it is created, and no displaced one is reclaimed.  Then every table is the list of
the application threads that have recorded themselves and were not retired, in the order in which
they did, whatever order the steps of all the contexts are taken in and however the bodies end
(`Run.table_eq`).  Those are the ones that have not died, unless a thread was revived after its
retirement.

A context records its thread at most once (`Run.hasEnlisted`), and before it starts the body
(`Run.not_started`), hence before the thread is retired.
-/

namespace ThreadEngine

/-- An execution context that is past recording its thread, if it has to. -/
def Child.HasRecorded {σ : Type} : Child σ → Prop
  | .reporting _ | .running _ | .ended _ => True
  | .idle _ | .recording _ => False

theorem Child.HasBegun.hasRecorded {σ : Type} {child : Child σ} (begun : child.HasBegun) :
    child.HasRecorded := by
  cases child with
  | running task | ended a => trivial
  | idle thread | recording thread | reporting thread => cases begun

namespace LaunchState

variable {σ : Type}

/-- The execution context of a strand is past recording its thread. -/
def HasRecorded (s : LaunchState σ) : Prop := ∃ child, s.child = some child ∧ child.HasRecorded

/-- The execution context of a strand has started the body of its thread. -/
def HasBegun (s : LaunchState σ) : Prop := ∃ child, s.child = some child ∧ child.HasBegun

theorem hasRecorded_some {s : LaunchState σ} {child : Child σ} (child_eq : s.child = some child) :
    s.HasRecorded ↔ child.HasRecorded := by
  constructor
  · rintro ⟨child', child_eq', recorded⟩
    cases child_eq.symm.trans child_eq'
    exact recorded
  · intro recorded
    exact ⟨child, child_eq, recorded⟩

/-- A context that has started the body does not go back. -/
theorem Next.hasBegun {u : World σ} {t : ThreadId} {s s' : LaunchState σ} {d : Option Deed}
    (next : s.Next u t d s') (order : s.InOrder t)
    (fresh : d = some (.created t) → s.creation = none) (begun : s.HasBegun) : s'.HasBegun := by
  obtain ⟨child, child_eq, hasBegun⟩ := begun
  cases next with
  | same _ held => exact ⟨child, child_eq, hasBegun⟩
  | created held_eq own deed_eq child_eq' =>
      simp only [InOrder, fresh deed_eq] at order
      cases child_eq.symm.trans order.1
  | step step =>
      cases step with
      | spawned creation_eq =>
          simp only [InOrder, creation_eq] at order
          cases child_eq.symm.trans order.2.1
      | woken idle_eq _ | deserted idle_eq _ _ =>
          cases child_eq.symm.trans idle_eq
          cases hasBegun
      | enlisted recording_eq =>
          cases child_eq.symm.trans recording_eq
          cases hasBegun
      | _ => exact ⟨child, child_eq, hasBegun⟩
  | begun _ _ => exact ⟨_, rfl, trivial⟩
  | ran _ _ => exact ⟨_, rfl, Child.hasBegun_ofTask _⟩

theorem not_hasRecorded_of_none {s : LaunchState σ}
    (child_eq : s.child = none) : ¬ s.HasRecorded := by
  rintro ⟨child, child_eq', _⟩
  cases child_eq.symm.trans child_eq'

/-- When a context gets past recording its thread: when it has recorded it, or need not. -/
theorem Next.hasRecorded {u : World σ} {t : ThreadId} {s s' : LaunchState σ} {d : Option Deed}
    (next : s.Next u t d s') (order : s.InOrder t)
    (fresh : d = some (.created t) → s.creation = none) :
    (s'.HasRecorded ↔ s.HasRecorded) ∨
      ∃ thread : Thread, thread.id = t ∧
        (s.child = some (.idle thread) ∧ thread.kind = .main ∨
          s.child = some (.recording thread) ∧
            d = some (.enlisted thread.registry t)) := by
  cases next with
  | same _ held => exact .inl Iff.rfl
  | created held_eq own deed_eq child_eq =>
      simp only [InOrder, fresh deed_eq] at order
      rcases child_eq with rfl | ⟨task, running_eq⟩
      · exact .inl Iff.rfl
      · cases order.1.symm.trans running_eq
  | step step =>
      cases step with
      | spawned creation_eq =>
          simp only [InOrder, creation_eq] at order
          left
          rw [hasRecorded_some rfl]
          exact ⟨False.elim, fun recorded => absurd recorded (not_hasRecorded_of_none order.2.1)⟩
      | @woken thread child_eq sent =>
          cases kind_eq : thread.kind with
          | application =>
              left
              rw [hasRecorded_some rfl, hasRecorded_some child_eq]
              exact Iff.rfl
          | main =>
              obtain ⟨_, own, _⟩ := order.early child_eq id (.inl sent)
              exact .inr ⟨thread, own, .inl ⟨child_eq, kind_eq⟩⟩
      | @enlisted thread child_eq =>
          obtain ⟨_, ⟨own, _⟩, _⟩ := order.early child_eq id (.inr (by simp))
          exact .inr ⟨thread, own, .inr ⟨child_eq, by rw [own]⟩⟩
      | deserted idle_eq _ gone => exact absurd idle_eq (order.not_deserted gone _)
      | _ => exact .inl Iff.rfl
  | begun child_eq deed_eq =>
      left
      rw [hasRecorded_some rfl, hasRecorded_some child_eq]
      exact Iff.rfl
  | @ran task task' held creates child_eq =>
      left
      rw [hasRecorded_some rfl, hasRecorded_some child_eq]
      exact ⟨fun _ => trivial, fun _ => (Child.hasBegun_ofTask task').hasRecorded⟩

end LaunchState

namespace World

variable {σ : Type}

/-- An application thread of a registry whose execution context has recorded it. -/
def HasEnlisted (w : World σ) (r : RegistryId) (t : ThreadId) : Prop :=
  ∃ s, w.strands[t]? = some s ∧ s.handle.kind = .application ∧ s.handle.home = r ∧
    s.launchState.HasRecorded

theorem hasEnlisted_iff (w : World σ) (r : RegistryId) (t : ThreadId) :
    w.HasEnlisted r t ↔
      w.ledger.pass? t = some ⟨t, .application, r⟩ ∧
        ∃ s, w.roster.launches[t]? = some s ∧ s.HasRecorded := by
  rw [launches_getElem?, Ledger.pass?, HasEnlisted]
  simp only [ledger, List.getElem?_map]
  cases w.strands[t]? with
  | none => simp
  | some s => simp [Handle.card, and_assoc]

/-! ## Recording -/

/-- Where a thread is recorded: at its own strand, by its own context. -/
theorem Shift.enlisted_launch {u : World σ} {who : Ctx} {d : Option Deed} {ro : Roster σ}
    {h : List Deed} {r : RegistryId} {t : ThreadId} (shift : Shift u who d ro)
    (launching : Launching h u) (deed_eq : d = some (.enlisted r t)) :
    ∃ s thread, u.roster.launches[t]? = some s ∧ s.child = some (.recording thread) ∧
      thread.pass = ⟨t, .application, r⟩ ∧
      ro = u.roster.modify t fun _ => { s with child := some (.reporting thread) } := by
  cases shift with
  | rest stays retires admits => cases stays _ deed_eq
  | @launchStep _ t' s s' _ launch_eq step =>
      cases step with
      | @enlisted thread child_eq =>
          cases deed_eq
          obtain ⟨_, ⟨rfl, kind_eq⟩, _⟩ :=
            (launching.inOrder t' s launch_eq).early child_eq id (.inr (by simp))
          exact ⟨s, thread, launch_eq, child_eq, by rw [Thread.pass, kind_eq], rfl⟩
      | _ => cases deed_eq
  | stepped task_eq step =>
      obtain ⟨other, _⟩ | ⟨stays, _⟩ | ⟨_, other⟩ := step.deed_cases deed_eq
      · cases other
      · cases stays
      · cases other
  | built pass_eq home_lt | begun launch_eq child_eq | waits before after | called idle held_eq
  | started idle held_eq | takenBack host_eq finished | created held_eq => cases deed_eq

theorem mem_passesAt_of_child {u : World σ} {t : ThreadId} {s : LaunchState σ} {child : Child σ}
    {pass : Pass} (launch_eq : u.roster.launches[t]? = some s) (child_eq : s.child = some child)
    (member : pass ∈ child.passes) : pass ∈ u.roster.passesAt (.strand t .body) := by
  rw [Roster.passesAt_strand launch_eq]
  simpa [LaunchState.passes, child_eq] using member

/-- A thread that has a launch state is what it will be. -/
theorem pass?_of_launch {u : World σ} {t : ThreadId} {s : LaunchState σ} {pass : Pass}
    {h : List Deed}
    (launch_eq : u.roster.launches[t]? = some s)
    (known : (h.foldl Ledger.after u.ledger).pass? t = some pass) :
    u.ledger.pass? t = some pass := by
  have lt : t < u.ledger.cards.length := by
    rw [← length_launches]
    exact (List.getElem?_eq_some_iff.mp launch_eq).1
  have before : u.ledger.pass? t = some ⟨t, u.ledger.cards[t].kind, u.ledger.cards[t].home⟩ := by
    rw [Ledger.pass?, List.getElem?_eq_getElem lt]
    rfl
  rw [before, ← known, Ledger.pass?_foldl h before]

/-- An operation has a thread enlisted exactly if that is its deed. -/
theorem hasEnlisted_perform {u v : World σ} {op : Operation σ} {h : List Deed}
    (isPublic : op.IsPublic) (done : u.perform op = some v) (orderly : Orderly h u)
    (launching : Launching h u) (r : RegistryId) (t : ThreadId) :
    (v.HasEnlisted r t ↔ u.HasEnlisted r t ∨ u.deed? op = some (.enlisted r t)) ∧
      (u.deed? op = some (.enlisted r t) → ¬ u.HasEnlisted r t) := by
  have shift := shift_perform isPublic done
  have ledger_eq := ledger_perform done
  by_cases deed_eq : u.deed? op = some (.enlisted r t)
  · obtain ⟨s, thread, launch_eq, child_eq, pass_eq, roster_eq⟩ :=
      shift.enlisted_launch launching deed_eq
    have notBefore : ¬ u.HasEnlisted r t := by
      rw [hasEnlisted_iff]
      rintro ⟨_, s', launch_eq', recorded⟩
      cases launch_eq.symm.trans launch_eq'
      exact (LaunchState.hasRecorded_some child_eq).mp recorded
    refine ⟨⟨fun _ => .inr deed_eq, fun _ => ?_⟩, fun _ => notBefore⟩
    rw [hasEnlisted_iff, roster_eq, ledger_eq]
    have member : thread.pass ∈ u.roster.passesAt (.strand t .body) :=
      mem_passesAt_of_child launch_eq child_eq (List.mem_singleton.mpr rfl)
    have known := orderly.agrees _ _ member
    rw [pass_eq] at known
    refine ⟨Ledger.pass?_foldl _ known, { s with child := some (.reporting thread) }, ?_, ?_⟩
    · simp [Roster.modify, launch_eq]
    · exact ⟨_, rfl, trivial⟩
  · refine ⟨?_, fun now => absurd now deed_eq⟩
    have nothingNew : (u.HasEnlisted r t ∨ u.deed? op = some (.enlisted r t)) ↔ u.HasEnlisted r t :=
      or_iff_left deed_eq
    -- an application thread of the registry gets past recording only by being enlisted
    have same {s s' : LaunchState σ} (known : u.ledger.pass? t = some ⟨t, .application, r⟩)
        (launch_eq : u.roster.launches[t]? = some s) (next : s.Next u t (u.deed? op) s') :
        s'.HasRecorded ↔ s.HasRecorded := by
      have order := launching.inOrder t s launch_eq
      rcases next.hasRecorded order (creation_fresh orderly launching launch_eq next) with
        same | ⟨thread, own, ⟨child_eq, kind_eq⟩ | ⟨child_eq, enlisted_eq⟩⟩
      · exact same
      · have agreed := orderly.agrees _ thread.pass
          (mem_passesAt_of_child launch_eq child_eq (List.mem_singleton.mpr rfl))
        rw [show thread.pass.thread = t from own, known] at agreed
        cases (congrArg Pass.kind (Option.some.inj agreed)).trans kind_eq
      · have agreed := orderly.agrees _ thread.pass
          (mem_passesAt_of_child launch_eq child_eq (List.mem_singleton.mpr rfl))
        rw [show thread.pass.thread = t from own, known] at agreed
        have registry_eq : r = thread.registry := congrArg Pass.registry (Option.some.inj agreed)
        rw [← registry_eq] at enlisted_eq
        exact absurd enlisted_eq deed_eq
    rw [nothingNew, hasEnlisted_iff, hasEnlisted_iff, ledger_eq]
    constructor
    · rintro ⟨known', s', launch_eq', recorded'⟩
      obtain ⟨thread, kind, home, _, _, rfl⟩ | ⟨s, launch_eq, next⟩ := shift.launch_next launch_eq'
      · exact absurd recorded' (LaunchState.not_hasRecorded_of_none rfl)
      · have known := pass?_of_launch launch_eq known'
        exact ⟨known, s, launch_eq, (same known launch_eq next).mp recorded'⟩
    · rintro ⟨known, s, launch_eq, recorded⟩
      have known' := Ledger.pass?_foldl (u.deed? op).toList known
      refine ⟨known', ?_⟩
      have lt : t < v.roster.launches.length := by
        rw [length_launches, ledger_eq]
        exact Ledger.lt_of_pass? known'
      have launch_eq' := List.getElem?_eq_getElem lt
      refine ⟨_, launch_eq', ?_⟩
      obtain ⟨thread, kind, home, at_end, _, _⟩ | ⟨s₁, launch_eq₁, next⟩ :=
        shift.launch_next launch_eq'
      · rw [at_end, List.getElem?_eq_none (Nat.le_refl _)] at launch_eq
        cases launch_eq
      · cases launch_eq.symm.trans launch_eq₁
        exact (same known launch_eq next).mpr recorded

/-! ## Starting -/

/-- Who starts a thread: its own context, the host that holds it, or a context at work on it. -/
theorem Shift.started_by {u : World σ} {who : Ctx} {d : Option Deed} {ro : Roster σ}
    {t : ThreadId} (shift : Shift u who d ro) (deed_eq : d = some (.started t)) :
    (∃ t' s thread task, u.roster.launches[t']? = some s ∧ s.child = some (.reporting thread) ∧
        thread.id = t ∧
        ro = u.roster.modify t' fun _ =>
          { s with readySent := true, child := some (.running task) }) ∨
      (∃ slot thread, u.held? slot = some thread ∧ thread.id = t) ∨
      ∃ task task', u.roster.taskAt who = some task ∧ task.thread.id = t ∧
        ro = u.roster.put who task' := by
  cases shift with
  | rest stays retires admits => cases stays _ deed_eq
  | launchStep launch_eq step => rcases step.deed with rfl | ⟨r', t', rfl⟩ <;> cases deed_eq
  | begun launch_eq child_eq =>
      cases deed_eq
      exact .inl ⟨_, _, _, _, launch_eq, child_eq, rfl, rfl⟩
  | started idle held_eq =>
      cases deed_eq
      exact .inr (.inl ⟨_, _, held_eq, rfl⟩)
  | stepped task_eq step =>
      obtain ⟨own, rfl⟩ | ⟨stays, _⟩ | ⟨_, other⟩ := step.deed_cases deed_eq
      · cases own
        exact .inr (.inr ⟨_, _, task_eq, rfl, rfl⟩)
      · cases stays
      · cases other
  | built pass_eq home_lt | waits before after | called idle held_eq | takenBack host_eq finished
  | created held_eq => cases deed_eq

/-- A thread that has been created is started by its own context. -/
theorem hasBegun_of_started {u : World σ} {who : Ctx} {d : Option Deed} {ro : Roster σ}
    {h : List Deed} {t : ThreadId} {s' : LaunchState σ} (shift : Shift u who d ro)
    (orderly : Orderly h u) (launching : Launching h u) (deed_eq : d = some (.started t))
    (was : .created t ∈ h) (launch_eq' : ro.launches[t]? = some s') : s'.HasBegun := by
  obtain ⟨t', s, thread, task, launch_eq, child_eq, own, rfl⟩ | ⟨slot, thread, held_eq, own⟩ |
    ⟨task, task', task_eq, own, rfl⟩ := shift.started_by deed_eq
  · obtain ⟨_, own', _⟩ :=
      (launching.inOrder t' s launch_eq).early child_eq id (.inr (by simp))
    obtain rfl : t' = t := Eq.trans (Eq.symm own') own
    rw [Roster.modify, List.getElem?_modify_eq, launch_eq] at launch_eq'
    cases launch_eq'
    exact ⟨_, rfl, trivial⟩
  · rw [← own] at was
    exact absurd was (orderly.not_created_of_held held_eq)
  · have member : task.thread.pass ∈ u.roster.passesAt who.place := by
      rw [Roster.passesAt_of_taskAt task_eq]
      exact Task.mem_passes.mpr (.inl rfl)
    rw [← own] at was
    cases who with
    | host => rcases orderly.settled _ _ member was with elsewhere | elsewhere <;> cases elsewhere
    | creator t' => cases task_eq
    | body t' =>
        have at_own : t' = t := by
          rcases orderly.settled _ _ member was with elsewhere | at_body
          · cases elsewhere
          · cases at_body
            exact own
        subst at_own
        obtain ⟨s, launch_eq, _⟩ := Roster.launch_of_taskAt task_eq
        rw [Roster.put, Roster.modify, List.getElem?_modify_eq, launch_eq] at launch_eq'
        cases launch_eq'
        exact ⟨_, rfl, Child.hasBegun_ofTask task'⟩

/-- No thread was started before it was created. -/
def StartsAfterCreation (h : List Deed) : Prop :=
  ∀ t before after, h = before ++ .created t :: after → .started t ∉ before

theorem StartsAfterCreation.of_append {h₁ h₂ : List Deed}
    (ordered : StartsAfterCreation (h₁ ++ h₂)) :
    StartsAfterCreation h₁ := by
  intro t before after split
  refine ordered t before (after ++ h₂) ?_
  rw [split, List.append_assoc, List.cons_append]

/-- No thread was started before the last creation. -/
theorem StartsAfterCreation.of_creations_first {h₁ h₂ : List Deed} (noStart : ∀ t, .started t ∉ h₁)
    (noCreation : ∀ t, .created t ∉ h₂) : StartsAfterCreation (h₁ ++ h₂) := by
  intro t before after split started
  rcases List.append_eq_append_iff.mp split with ⟨mid, rfl, h₂_eq⟩ | ⟨mid, rfl, _⟩
  · refine noCreation t ?_
    rw [h₂_eq]
    exact List.mem_append_right mid List.mem_cons_self
  · exact noStart t (List.mem_append_left mid started)

end World

/-! ## Tables -/

/-- The threads that were retired, in order. -/
def retirements (h : List Deed) : List ThreadId :=
  h.filterMap fun
    | .retired _ t => some t
    | _ => none

theorem retirements_append (h₁ h₂ : List Deed) :
    retirements (h₁ ++ h₂) = retirements h₁ ++ retirements h₂ := List.filterMap_append

theorem mem_retirements {h : List Deed} {t : ThreadId} :
    t ∈ retirements h ↔ ∃ r, .retired r t ∈ h := by
  rw [retirements, List.mem_filterMap]
  constructor
  · rintro ⟨d, member, same⟩
    cases d with
    | retired r t' =>
        cases same
        exact ⟨r, member⟩
    | _ => cases same
  · rintro ⟨r, member⟩
    exact ⟨.retired r t, member, rfl⟩

/-- Retiring one thread more takes out what is left of it. -/
theorem filter_retired {ts gone : List ThreadId} (nodup : ts.Nodup) (t : ThreadId) :
    ts.filter (· ∉ gone ++ [t]) = (ts.filter (· ∉ gone)).erase t := by
  rw [(nodup.filter _).erase_eq_filter, List.filter_filter]
  apply List.filter_congr
  intro u _
  by_cases same : u = t
  · simp [same]
  · simp [same]

/-- One deed keeps a table to what was recorded and not retired, unless a thread is recorded that
was retired, or retired elsewhere than it was recorded. -/
theorem Ledger.table_after_eq {l : Ledger} {h : List Deed} {d : Deed} {r : RegistryId}
    (admits : l.Admits d)
    (before : l.table r = (recordings r h).filter (· ∉ retirements h))
    (nodup : (recordings r h).Nodup) (timely : ∀ t ∈ recordings r [d], t ∉ retirements h)
    (atHome : ∀ r' t, d = .retired r' t → t ∈ recordings r h → r' = r) :
    (l.after d).table r = (recordings r (h ++ [d])).filter (· ∉ retirements (h ++ [d])) := by
  rw [table_after admits, recordings_append, retirements_append]
  cases d with
  | enlisted r' t | added r' t =>
      rw [show retirements [_] = [] from rfl, List.append_nil, List.filter_append, ← before]
      by_cases same : r' = r
      · have notRetired : t ∉ retirements h := timely t (by simp [recordings, same])
        simp [recordings, same, notRetired]
      · simp [recordings, same]
  | retired r' t =>
      rw [show recordings r [_] = [] from rfl, List.append_nil, show retirements [_] = [t] from rfl,
        filter_retired nodup t, ← before]
      by_cases same : r' = r
      · simp only [same, if_true]
      · have notHere : t ∉ l.table r := by
          rw [before]
          intro member
          exact same (atHome r' t rfl (List.mem_filter.mp member).1)
        simp only [same, if_false]
        exact (List.erase_of_not_mem notHere).symm
  | built kind home | installed | created t | started t | moved t next =>
      rw [show recordings r [_] = [] from rfl, show retirements [_] = [] from rfl, List.append_nil,
        List.append_nil]
      exact before

/-! ## Runs -/

namespace FineWorld

open World (Env StartsAfterCreation promptInterpreter promptMethod isPublic_promptInterpreter)

variable {σ : Type} {n : Nat} {config : ConfigCell} {log : List FineDeed} {f g : FineWorld σ}
  {r home : RegistryId} {t : ThreadId}

/-- A thread has been enlisted exactly if its context says so, and then once. -/
theorem Run.hasEnlisted (run : Run Operation.IsPublic (ofRegistries n config) log f)
    (reclaims : ∀ t, .reclaimed t ∉ log) (r : RegistryId) (t : ThreadId) :
    (f.world.HasEnlisted r t ↔ .enlisted r t ∈ deedsOf log) ∧
      (deedsOf log).count (.enlisted r t) ≤ 1 := by
  induction run with
  | refl =>
      refine ⟨⟨?_, ?_⟩, Nat.zero_le 1⟩
      · rintro ⟨s, strand_eq, _⟩
        cases strand_eq
      · intro member
        cases member
  | @snoc log more f g run step ih =>
      simp only [List.mem_append, not_or] at reclaims
      obtain ⟨iff_mem, once⟩ := ih fun t => (reclaims t).1
      have orderly := (run.orderly fun t => (reclaims t).1).1
      rw [deedsOf_append, List.mem_append, List.count_append]
      obtain ⟨short, ⟨same, none_eq⟩ |
        ⟨u, op, roster_eq, pass_eq, orderly', sound, isPublic, done, done_iff⟩⟩ :=
        step.performed run.sound orderly fun t => (reclaims t).2
      · rw [same, none_eq]
        simpa using ⟨iff_mem, once⟩
      obtain ⟨now_iff, firstTime⟩ :=
        World.hasEnlisted_perform isPublic done orderly' sound.launching r t
      have before : u.HasEnlisted r t ↔ .enlisted r t ∈ deedsOf log := by
        rw [← iff_mem, World.hasEnlisted_iff, World.hasEnlisted_iff, roster_eq, pass_eq]
      rw [now_iff, before, ← done_iff _ (by simp)]
      refine ⟨Iff.rfl, ?_⟩
      by_cases now : .enlisted r t ∈ deedsOf more
      · have never : (deedsOf log).count (.enlisted r t) = 0 := by
          rw [List.count_eq_zero]
          intro member
          exact firstTime ((done_iff _ (by simp)).mp now) (before.mpr member)
        rw [never, Nat.zero_add]
        exact Nat.le_trans List.count_le_length short
      · rw [List.count_eq_zero.mpr now]
        exact once

/-- A thread that has been created, and whose context has not started the body, has not been
started. -/
theorem Run.not_started (run : Run Operation.IsPublic (ofRegistries n config) log f)
    (reclaims : ∀ t, .reclaimed t ∉ log) (ordered : StartsAfterCreation (deedsOf log))
    {s : LaunchState σ} (launch_eq : f.world.roster.launches[t]? = some s)
    (was : .created t ∈ deedsOf log) (notBegun : ¬ s.HasBegun) : .started t ∉ deedsOf log := by
  induction run generalizing s with
  | refl => cases was
  | @snoc log more f g run step ih =>
      simp only [List.mem_append, not_or] at reclaims
      rw [deedsOf_append] at ordered was ⊢
      have orderly := (run.orderly fun t => (reclaims t).1).1
      have earlier {s₀ : LaunchState σ} :=
        ih (s := s₀) (fun t => (reclaims t).1) ordered.of_append
      obtain ⟨_, ⟨same, none_eq⟩ |
        ⟨u, op, roster_eq, _, orderly', sound, isPublic, done, done_iff⟩⟩ :=
        step.performed run.sound orderly fun t => (reclaims t).2
      · rw [none_eq, List.append_nil] at was ⊢
        rw [same] at launch_eq
        exact earlier launch_eq was notBegun
      have shift := World.shift_perform isPublic done
      intro started
      rw [List.mem_append] at was started
      rw [done_iff _ (by simp)] at started
      obtain ⟨thread, kind, home, at_end, built_eq, _⟩ | ⟨s₀, launch_eq₀, next⟩ :=
        shift.launch_next launch_eq
      · -- a thread that has just been built was not created
        rcases was with before | now
        · have lt := orderly'.known t before
          rw [at_end, World.length_launches] at lt
          exact Nat.lt_irrefl _ lt
        · cases built_eq.symm.trans ((done_iff _ (by simp)).mp now)
      rcases was with before | now
      · rcases started with old | now
        · by_cases begun : s₀.HasBegun
          · have order := sound.launching.inOrder t s₀ launch_eq₀
            have fresh := World.creation_fresh orderly' sound.launching launch_eq₀ next
            exact notBegun (next.hasBegun order fresh begun)
          · rw [roster_eq] at launch_eq₀
            exact earlier launch_eq₀ before begun old
        · exact notBegun
            (World.hasBegun_of_started shift orderly' sound.launching now before launch_eq)
      · rcases started with old | later
        · obtain ⟨a, b, more_eq⟩ := List.append_of_mem now
          rw [more_eq, ← List.append_assoc] at ordered
          exact ordered t (deedsOf log ++ a) b rfl (List.mem_append_left a old)
        · cases ((done_iff _ (by simp)).mp now).symm.trans later

/-- Only a thread that was started is retired. -/
theorem Run.started_of_retired (run : Run Operation.IsPublic (ofRegistries n config) log f)
    (reclaims : ∀ t, .reclaimed t ∉ log) (retired : t ∈ retirements (deedsOf log)) :
    .started t ∈ deedsOf log := by
  induction run with
  | refl => cases retired
  | snoc run step ih =>
      simp only [List.mem_append, not_or] at reclaims
      rw [deedsOf_append, retirements_append, List.mem_append] at retired
      rw [deedsOf_append]
      refine List.mem_append_left _ ?_
      rcases retired with before | now
      · exact ih (fun t => (reclaims t).1) before
      have orderly := (run.orderly fun t => (reclaims t).1).1
      obtain ⟨r, now⟩ := mem_retirements.mp now
      obtain ⟨_, ⟨_, none_eq⟩ | ⟨u, op, _, _, _, sound, isPublic, done, done_iff⟩⟩ :=
        step.performed run.sound orderly fun t => (reclaims t).2
      · rw [none_eq] at now
        cases now
      · obtain ⟨task, gd, passing, task_eq, mode_eq, _, rfl⟩ :=
          (World.shift_perform isPublic done).retired_by sound.guarded.proper
            ((done_iff _ (by simp)).mp now)
        exact sound.guarded.begun _ gd (World.mem_guardsAt_of_retiring task_eq mode_eq)

/-- A thread that is recorded by its context has not been retired. -/
theorem Run.not_retired_of_enlisted (run : Run Operation.IsPublic (ofRegistries n config) log f)
    (reclaims : ∀ t, .reclaimed t ∉ log) (ordered : StartsAfterCreation (deedsOf log))
    (step : Step Operation.IsPublic f [.deed (.enlisted r t)] g) :
    t ∉ retirements (deedsOf log) := by
  have orderly := (run.orderly reclaims).1
  obtain ⟨_, ⟨_, none_eq⟩ | ⟨u, op, roster_eq, _, _, sound, isPublic, done, done_iff⟩⟩ :=
    step.performed run.sound orderly (by simp)
  · cases none_eq
  have deed_eq := (done_iff (.enlisted r t) (by simp)).mp (List.mem_singleton.mpr rfl)
  obtain ⟨s, thread, launch_eq, child_eq, _, _⟩ :=
    (World.shift_perform isPublic done).enlisted_launch sound.launching deed_eq
  obtain ⟨creation_eq, _, _⟩ :=
    (sound.launching.inOrder t s launch_eq).early child_eq id (.inr (by simp))
  have created := sound.launching.recorded t s launch_eq (by simp [creation_eq])
  have notBegun : ¬ s.HasBegun := by
    rintro ⟨child, child_eq', begun⟩
    cases child_eq.symm.trans child_eq'
    cases begun
  rw [roster_eq] at launch_eq
  intro retired
  exact run.not_started reclaims ordered launch_eq created notBegun
    (run.started_of_retired reclaims retired)

section Tables

variable (run : Run Operation.IsPublic (ofRegistries n config) log f)
  (reclaims : ∀ t, .reclaimed t ∉ log) (noAdds : ∀ r t, .deed (.added r t) ∉ log)

include run reclaims noAdds

/-- Where only execution contexts record threads, what is recorded is enlisted. -/
theorem Run.mem_recordings_iff (r : RegistryId) (t : ThreadId) :
    t ∈ recordings r (deedsOf log) ↔ f.world.HasEnlisted r t := by
  rw [mem_recordings, (run.hasEnlisted reclaims r t).1]
  refine or_iff_left ?_
  rw [mem_deedsOf]
  exact noAdds r t

/-- Nobody is recorded twice in a registry. -/
theorem Run.nodup_recordings (r : RegistryId) : (recordings r (deedsOf log)).Nodup := by
  rw [List.nodup_iff_count_le_one]
  intro t
  have never : (deedsOf log).count (.added r t) = 0 := by
    rw [List.count_eq_zero, mem_deedsOf]
    exact noAdds r t
  rw [count_recordings, never]
  exact (run.hasEnlisted reclaims r t).2

end Tables

/-- A table is what was recorded and not retired. -/
theorem Run.table_eq (run : Run Operation.IsPublic (ofRegistries n config) log f)
    (reclaims : ∀ t, .reclaimed t ∉ log) (noAdds : ∀ r t, .deed (.added r t) ∉ log)
    (ordered : StartsAfterCreation (deedsOf log)) (r : RegistryId) :
    f.world.ledger.table r =
      (recordings r (deedsOf log)).filter (· ∉ retirements (deedsOf log)) := by
  induction run with
  | refl =>
      simp only [ofRegistries, World.ofRegistries, World.ledger, Ledger.table, List.map_replicate,
        List.getElem?_replicate]
      split <;> rfl
  | @snoc log more f g run step ih =>
      have whole := run.snoc step
      have nodup := whole.nodup_recordings reclaims noAdds r
      simp only [List.mem_append, not_or] at reclaims noAdds
      rw [deedsOf_append] at ordered nodup ⊢
      have before := ih (fun t => (reclaims t).1) (fun r t => (noAdds r t).1) ordered.of_append
      have ledgerStep := step.ledgerStep run.sound
      generalize g.world.ledger = l' at ledgerStep ⊢
      cases ledgerStep with
      | @deed d admits =>
          refine Ledger.table_after_eq admits before ?_ ?_ ?_
          · rw [recordings_append] at nodup
            exact (List.nodup_append.mp nodup).1
          · intro t member
            rcases mem_recordings.mp member with enlisted | added
            · cases List.mem_singleton.mp enlisted
              exact run.not_retired_of_enlisted (fun t => (reclaims t).1) ordered.of_append step
            · cases List.mem_singleton.mp added
              exact absurd (List.mem_singleton.mpr rfl) (noAdds r t).2
          · rintro home t rfl member
            have enlisted :=
              (run.mem_recordings_iff (fun t => (reclaims t).1) (fun r t => (noAdds r t).1) r t).mp
                member
            obtain ⟨s, strand_eq, _, rfl, _⟩ := enlisted
            obtain ⟨_, card, card_eq, rfl, _⟩ := admits
            rw [World.ledger, List.getElem?_map, strand_eq] at card_eq
            cases card_eq
            rfl
      | revived died lives =>
          rw [show deedsOf [.revived _ _] = [] from rfl, List.append_nil]
          exact before
      | rest deeds_eq revives =>
          rw [deeds_eq, List.append_nil]
          exact before

/-- A thread that is dead has been retired. -/
theorem Run.retired_of_died (run : Run Operation.IsPublic (ofRegistries n config) log f)
    (died : f.world.state? t = some .died) : t ∈ retirements (deedsOf log) := by
  induction run with
  | refl => cases died
  | @snoc log more f g run step ih =>
      rw [deedsOf_append, retirements_append, List.mem_append]
      by_cases before : f.world.state? t = some .died
      · exact .inl (ih before)
      · rcases step.alive run.sound before with ⟨alive, _⟩ | ⟨_, r, rfl⟩
        · exact absurd died alive
        · exact .inr (mem_retirements.mpr ⟨r, List.mem_singleton.mpr rfl⟩)

/-- Registration and retirement match.  In every state of every run in which nobody but the
execution contexts records threads, no thread is started before it is created, and no displaced one
is reclaimed:

* The table of a registry is the list of the application threads of it that have recorded themselves
  and were not retired, each once and in the order in which they did.  The counters are the length
  of that list, and the number of those that have recorded themselves.
* It is the list of those that have not died exactly if whoever was retired is dead.  A thread that
  was retired is dead unless it was revived.
* An application thread whose creation is over has been recorded exactly once, at its home. -/
theorem registration_matches (run : Run Operation.IsPublic (ofRegistries n config) log f)
    (noAdds : ∀ r t, .deed (.added r t) ∉ log) (ordered : StartsAfterCreation (deedsOf log))
    (reclaims : ∀ t, .reclaimed t ∉ log) :
    (∀ r reg, f.world.registries[r]? = some reg →
      reg.table = (recordings r (deedsOf log)).filter (· ∉ retirements (deedsOf log)) ∧
        (reg.table = (recordings r (deedsOf log)).filter (fun t => f.world.state? t ≠ some .died) ↔
          ∀ t ∈ recordings r (deedsOf log), t ∈ retirements (deedsOf log) →
            f.world.state? t = some .died) ∧
        (recordings r (deedsOf log)).Nodup ∧
        (∀ t, t ∈ recordings r (deedsOf log) ↔ f.world.HasEnlisted r t) ∧
        reg.appThreads = reg.table.length ∧ reg.total = (recordings r (deedsOf log)).length ∧
        ∀ t ∈ reg.table, (f.world.handle? t).map Handle.kind = some .application) ∧
      (∀ t ∈ retirements (deedsOf log), (∀ next, .revived t next ∉ log) →
        f.world.state? t = some .died) ∧
      ∀ t s, f.world.strands[t]? = some s → s.handle.kind = .application →
        s.creation = some (.done none) →
          ∀ r, (recordings r (deedsOf log)).count t = if r = s.handle.home then 1 else 0 := by
  have recorded_iff := run.mem_recordings_iff reclaims noAdds
  have nodup := run.nodup_recordings reclaims noAdds
  refine ⟨?_, ?_, ?_⟩
  · intro r reg reg_eq
    have counted := run.sound.counted reg_eq
    have table_eq := run.table_eq reclaims noAdds ordered r
    rw [World.ledger_table reg_eq] at table_eq
    refine ⟨table_eq, ⟨?_, ?_⟩, nodup r, recorded_iff r, counted.1, counted.2, ?_⟩
    · intro same t recorded retired
      by_contra alive
      have present : t ∈ reg.table := by
        rw [same]
        exact List.mem_filter.mpr ⟨recorded, decide_eq_true alive⟩
      rw [table_eq] at present
      exact of_decide_eq_true (List.mem_filter.mp present).2 retired
    · intro dies
      rw [table_eq]
      apply List.filter_congr
      intro t recorded
      rw [decide_eq_decide]
      exact not_congr ⟨dies t recorded, run.retired_of_died⟩
    · intro t member
      rw [table_eq] at member
      obtain ⟨s, strand_eq, kind_eq, _⟩ := (recorded_iff r t).mp (List.mem_filter.mp member).1
      rw [World.handle?, strand_eq]
      exact congrArg some kind_eq
  · intro t retired revives
    obtain ⟨r, member⟩ := mem_retirements.mp retired
    rw [← World.ledger_state?]
    exact (run.entries revives).died_of_retired member
  · intro t s strand_eq kind_eq creation_eq r
    have launch_eq : f.world.roster.launches[t]? = some s.launchState := by
      rw [World.launches_getElem?, strand_eq]
      rfl
    have order := run.sound.launching.inOrder t s.launchState launch_eq
    simp only [LaunchState.InOrder, show s.launchState.creation = s.creation from rfl,
      creation_eq] at order
    obtain ⟨child, child_eq, begun, _⟩ := order
    have enlisted : f.world.HasEnlisted s.handle.home t :=
      ⟨s, strand_eq, kind_eq, rfl, child, child_eq, begun.hasRecorded⟩
    split
    · rename_i at_home
      subst at_home
      exact List.count_eq_one_of_mem (nodup _) ((recorded_iff _ t).mpr enlisted)
    · rename_i elsewhere
      rw [List.count_eq_zero, recorded_iff]
      rintro ⟨s', strand_eq', _, home_eq, _⟩
      cases strand_eq.symm.trans strand_eq'
      exact elsewhere home_eq.symm

/-- Two application threads and an entry point are created, the second one records itself first and
dies while the state of the first is being changed, and the entry point waits: the table has the
first one. -/
theorem registration_matches_of_interleaved_launches :
    ∃ (log : List FineDeed) (f : FineWorld Script.Activation) (reg : Registry),
      Run Operation.IsPublic (ofRegistries 2 ConfigCell.fresh) log f ∧
        (∀ r t, .deed (.added r t) ∉ log) ∧ StartsAfterCreation (deedsOf log) ∧
        (∀ t, .reclaimed t ∉ log) ∧ recordings 0 (deedsOf log) = [1, 0] ∧
        f.world.state? 0 = some .waiting ∧ f.world.state? 1 = some .died ∧
        f.world.registries[0]? = some reg ∧ reg.table = [0] ∧ reg.total = 2 ∧
        reg.table =
          (recordings 0 (deedsOf log)).filter (fun t => f.world.state? t ≠ some .died) := by
  let I := promptInterpreter
  let env : Env := ⟨0, 4, .script⟩
  let ops : List (FineOperation Script.Activation) := List.flatten
    [[.act (.application promptMethod [.null] env), .act (.application promptMethod [.null] env),
        .act (.main promptMethod [] env), .act (.create 0 .null), .act (.create 1 .null),
        .act (.create 2 .null)],
      List.replicate 4 (.act (.step I (.creator 0))),
      List.replicate 4 (.act (.step I (.creator 1))),
      List.replicate 4 (.act (.step I (.creator 2))), List.replicate 2 (.act (.step I (.body 1))),
      List.replicate 5 (.act (.step I (.body 2))), List.replicate 2 (.act (.step I (.body 0))),
      [.check (.transition .host 1 0 .waiting)], List.replicate 6 (.act (.step I (.body 1))),
      [.store 0], List.replicate 2 (.act (.step I (.creator 1)))]
  have within : ∀ op ∈ ops, op.Within Operation.IsPublic := by
    simp [ops, I, FineOperation.Within, Operation.IsPublic, isPublic_promptInterpreter]
  let launches : List Deed :=
    [.built .application 0, .built .application 0, .built .main 0, .created 0, .created 1,
      .created 2]
  let before : List Deed := [.enlisted 0 1, .started 2, .enlisted 0 0]
  let after : List Deed := [.started 1, .retired 0 1, .moved 0 .waiting]
  have done : ((ofRegistries 2 ConfigCell.fresh : FineWorld Script.Activation).performAll ops).map
      (fun done => (done.1, done.2.world.state? 0, done.2.world.state? 1,
        done.2.world.registries[0]?)) =
        some ((launches ++ before).map .deed ++ .checked 1 0 :: after.map .deed, some .waiting,
          some .died, some ⟨[0], 1, 2, [.body 2]⟩) := by decide +kernel
  obtain ⟨log, f, run, seen⟩ := exists_run_of_performAll rfl within done
  simp only [Prod.mk.injEq] at seen
  obtain ⟨log_eq, waiting, died, reg_eq⟩ := seen
  have noAdds : ∀ r t, .deed (.added r t) ∉ log := by
    rw [log_eq]
    simp [launches, before, after]
  have reclaims : ∀ t, .reclaimed t ∉ log := by
    rw [log_eq]
    simp [launches, before, after]
  have revives : ∀ t next, .revived t next ∉ log := by
    rw [log_eq]
    simp [launches, before, after]
  have deeds_eq : deedsOf log = launches ++ (before ++ after) := by
    rw [log_eq]
    rfl
  have ordered : StartsAfterCreation (deedsOf log) := by
    rw [deeds_eq]
    exact .of_creations_first (by simp [launches]) (by simp [before, after])
  have recorded : recordings 0 (deedsOf log) = [1, 0] := by
    rw [deeds_eq]
    rfl
  obtain ⟨matched, dies, _⟩ := registration_matches run noAdds ordered reclaims
  have table_eq := (matched 0 _ reg_eq).2.1.mpr fun t _ retired => dies t retired (revives t)
  exact ⟨log, f, _, run, noAdds, ordered, reclaims, recorded, waiting, died, reg_eq, rfl, rfl,
    table_eq⟩

/-- The body of a thread that reports to another registry changes the state of a thread, which is
retired between the check and the write: it has recorded itself, it waits, and it is not in the
table. -/
theorem revived_thread_is_not_registered :
    ∃ (log : List FineDeed) (f : FineWorld Script.Activation) (reg : Registry),
      Run Operation.IsPublic (ofRegistries 2 ConfigCell.fresh) log f ∧
        (∀ r t, .deed (.added r t) ∉ log) ∧ StartsAfterCreation (deedsOf log) ∧
        (∀ t, .reclaimed t ∉ log) ∧ recordings 0 (deedsOf log) = [0] ∧
        f.world.state? 0 = some .waiting ∧ f.world.registries[0]? = some reg ∧ reg.table = [] := by
  let I := promptInterpreter
  let ops : List (FineOperation Script.Activation) := List.flatten
    [[.act (.application promptMethod [.null] ⟨0, 4, .script⟩),
        .act (.application promptMethod [.null] ⟨1, 4, .script⟩), .act (.create 0 .null)],
      List.replicate 4 (.act (.step I (.creator 0))), launchWriter,
      List.replicate 6 (.act (.step I (.body 0))),
      [.check writerStep, .act (.step I (.body 0)), .store 0]]
  have within : ∀ op ∈ ops, op.Within Operation.IsPublic := by
    simp [ops, I, launchWriter, writerStep, FineOperation.Within, Operation.IsPublic,
      isPublic_promptInterpreter, isPublic_writingInterpreter]
  let launches : List Deed := [.built .application 0, .built .application 1, .created 0, .created 1]
  let work : List Deed := [.enlisted 1 1, .started 1, .enlisted 0 0, .started 0]
  have done : ((ofRegistries 2 ConfigCell.fresh : FineWorld Script.Activation).performAll ops).map
      (fun done => (done.1, done.2.world.state? 0, done.2.world.registries[0]?)) =
        some ((launches ++ work).map .deed ++
          [.checked 1 0, .deed (.retired 0 0), .revived 0 .waiting], some .waiting,
          some ⟨[], 0, 1, []⟩) := by decide +kernel
  obtain ⟨log, f, run, seen⟩ := exists_run_of_performAll rfl within done
  simp only [Prod.mk.injEq] at seen
  obtain ⟨log_eq, waiting, reg_eq⟩ := seen
  have deeds_eq : deedsOf log = launches ++ (work ++ [.retired 0 0]) := by
    rw [log_eq]
    rfl
  refine ⟨log, f, _, run, ?_, ?_, ?_, ?_, waiting, reg_eq, rfl⟩
  · rw [log_eq]
    simp [launches, work]
  · rw [deeds_eq]
    exact .of_creations_first (by simp [launches]) (by simp [work])
  · rw [log_eq]
    simp [launches, work]
  · rw [deeds_eq]
    rfl

end FineWorld

end ThreadEngine
