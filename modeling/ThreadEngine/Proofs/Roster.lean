import ThreadEngine.Proofs.Guards
import ThreadEngine.Proofs.Ledger

set_option autoImplicit false

/-!
# The roster

The roster of a world says who has which thread in his hands: what the host is doing, and for every
thread what is held at its place, how far its creation has come, and what its execution context is
doing.  Most operations leave the roster alone; the lemmas below say what the others do to it.
-/

namespace ThreadEngine

/-- The part of a strand that has to do with where threads are. -/
structure LaunchState (σ : Type) where
  held : Option Thread
  creation : Option Creation
  launchSent : Bool
  readySent : Bool
  child : Option (Child σ)

/-- Who has which thread in his hands. -/
structure Roster (σ : Type) where
  host : Host σ
  /-- by the number of the thread -/
  launches : List (LaunchState σ)

/-- The launch state of a strand. -/
def Strand.launchState {σ : Type} (s : Strand σ) : LaunchState σ :=
  ⟨s.held, s.creation, s.launchSent, s.readySent, s.child⟩

/-- Changes one launch state. -/
def Roster.modify {σ : Type} (ro : Roster σ) (t : ThreadId)
    (f : LaunchState σ → LaunchState σ) : Roster σ :=
  { ro with launches := ro.launches.modify t f }

/-- The roster after the creation of a held thread has begun. -/
def Roster.create {σ : Type} (ro : Roster σ) (slot : ThreadId) (thread : Thread)
    (object : Value) : Roster σ :=
  (ro.modify slot ({ · with held := none })).modify thread.id
    ({ · with creation := some (.binding thread object) })

namespace World

variable {σ : Type}

/-- The roster of a world. -/
def roster (w : World σ) : Roster σ := ⟨w.host, w.strands.map Strand.launchState⟩

theorem launches_getElem? (w : World σ) (t : ThreadId) :
    w.roster.launches[t]? = w.strands[t]?.map Strand.launchState := by simp [roster]

/-! ## What leaves the roster alone -/

@[simp] theorem roster_note (w : World σ) (c : Ctx) (notes : List Note) :
    (w.note c notes).roster = w.roster := rfl

@[simp] theorem roster_modifyRegistry (w : World σ) (r : RegistryId) (f : Registry → Registry) :
    (w.modifyRegistry r f).roster = w.roster := rfl

/-- A change of a strand shows on the roster as far as it changes the launch state. -/
theorem roster_modifyStrand (w : World σ) (t : ThreadId) {f : Strand σ → Strand σ}
    {f' : LaunchState σ → LaunchState σ} (carries : ∀ s, (f s).launchState = f' s.launchState) :
    (w.modifyStrand t f).roster = w.roster.modify t f' := by
  simp only [roster, modifyStrand, Roster.modify, map_modify _ f f' carries]

theorem roster_modifyStrand_of_same (w : World σ) (t : ThreadId) {f : Strand σ → Strand σ}
    (same : ∀ s, (f s).launchState = s.launchState) : (w.modifyStrand t f).roster = w.roster := by
  have changed : (w.modifyStrand t f).roster = w.roster.modify t id := roster_modifyStrand w t same
  rw [changed, Roster.modify, List.modify_id]

@[simp] theorem roster_modifyHandle (w : World σ) (t : ThreadId) (f : Handle → Handle) :
    (w.modifyHandle t f).roster = w.roster := roster_modifyStrand_of_same w t fun _ => rfl

@[simp] theorem roster_add (w : World σ) (c : Ctx) (r : RegistryId) (t : ThreadId) :
    (w.add c r t).roster = w.roster := by
  unfold add
  split <;> rfl

@[simp] theorem roster_retire (w : World σ) (c : Ctx) (r : RegistryId) (t : ThreadId) :
    (w.retire c r t).2.roster = w.roster := by
  unfold World.retire
  split
  · split
    · rfl
    · dsimp only
      split
      · rw [roster_modifyRegistry, roster_modifyHandle]
      · rw [roster_note, roster_modifyRegistry, roster_modifyHandle]
  · rfl

@[simp] theorem roster_transition (w : World σ) (c : Ctx) (r : RegistryId) (t : ThreadId)
    (next : State) : (w.transition c r t next).2.roster = w.roster := by
  unfold World.transition
  split
  · rfl
  · split
    · rfl
    · rw [roster_note, roster_modifyHandle]

@[simp] theorem roster_unpark (w : World σ) (t : ThreadId) : (w.unpark t).2.roster = w.roster := by
  unfold World.unpark
  split
  · rfl
  · split
    · exact roster_modifyStrand_of_same w t fun _ => rfl
    · rfl

@[simp] theorem roster_installRegistry (w : World σ) (c : Ctx) :
    (w.installRegistry c).2.roster = w.roster := by
  unfold World.installRegistry
  split <;> rfl

@[simp] theorem roster_removeRegistry (w : World σ) (c : Ctx) :
    (w.removeRegistry c).2.roster = w.roster := by
  unfold World.removeRegistry
  split <;> rfl

theorem roster_serveAwait {w w' : World σ} {c : Ctx} {r : RegistryId}
    (h : (w.serveAwait c r).world? = some w') : w'.roster = w.roster := by
  unfold serveAwait at h
  split at h
  · cases h
    rfl
  · split at h
    · cases h
    · split at h
      · cases h
        rfl
      · cases h
        rfl

theorem roster_servePark {w w' : World σ} {c : Ctx} (h : (w.servePark c).world? = some w') :
    w'.roster = w.roster := by
  unfold servePark at h
  split at h
  · cases h
    rfl
  · cases h
    rfl
  · split at h
    · cases h
      rfl
    · cases h
      exact roster_modifyStrand_of_same w _ fun _ => rfl
    · cases h
    · cases h
      exact roster_modifyStrand_of_same w _ fun _ => rfl

theorem roster_serveUnpark {w w' : World σ} {c : Ctx} {t : ThreadId}
    (h : (w.serveUnpark c t).world? = some w') : w'.roster = w.roster := by
  have same := roster_unpark w t
  unfold serveUnpark at h
  split at h
  · rename_i unparked
    rw [unparked] at same
    cases h
    exact same
  · rename_i unparked
    rw [unparked] at same
    cases h
    exact same

/-! ## What changes the roster -/

@[simp] theorem roster_takeHeld (w : World σ) (slot : ThreadId) :
    (w.takeHeld slot).roster = w.roster.modify slot ({ · with held := none }) :=
  roster_modifyStrand w slot fun _ => rfl

@[simp] theorem roster_putHeld (w : World σ) (slot : ThreadId) (thread : Thread) :
    (w.putHeld slot thread).roster = w.roster.modify slot ({ · with held := some thread }) :=
  roster_modifyStrand w slot fun _ => rfl

@[simp] theorem roster_storeChild (t : ThreadId) (w : World σ) (child : Child σ) :
    (storeChild t w child).roster = w.roster.modify t ({ · with child := some child }) :=
  roster_modifyStrand w t fun _ => rfl

@[simp] theorem roster_setCreation (w : World σ) (t : ThreadId) (c : Creation) :
    (w.setCreation t c).roster = w.roster.modify t ({ · with creation := some c }) :=
  roster_modifyStrand w t fun _ => rfl

@[simp] theorem roster_sendLaunch (w : World σ) (t : ThreadId) :
    (w.modifyStrand t ({ · with launchSent := true })).roster =
      w.roster.modify t ({ · with launchSent := true }) :=
  roster_modifyStrand w t fun _ => rfl

@[simp] theorem roster_sendReady (w : World σ) (t : ThreadId) :
    (w.modifyStrand t ({ · with readySent := true })).roster =
      w.roster.modify t ({ · with readySent := true }) :=
  roster_modifyStrand w t fun _ => rfl

@[simp] theorem roster_create (w : World σ) (slot : ThreadId) (thread : Thread) (object : Value) :
    (w.create slot thread object).roster = w.roster.create slot thread object := by
  unfold World.create
  rw [roster_modifyStrand, roster_modifyStrand_of_same, roster_takeHeld]
  · rfl
  · exact fun _ => rfl
  · exact fun _ => rfl

theorem roster_engage (w : World σ) (slot : ThreadId) (work : Task σ × List Note) :
    (w.engage slot work).roster =
      { w.roster.modify slot ({ · with held := none }) with host := .running slot work.1 } := by
  rw [← roster_takeHeld]
  rfl

theorem roster_disengage {w : World σ} {slot : ThreadId} {task : Task σ}
    (host_eq : w.host = .running slot task) :
    w.disengage.roster =
      { w.roster.modify slot ({ · with held := some task.thread }) with host := .idle } := by
  unfold disengage
  rw [host_eq]
  dsimp only
  rw [roster_putHeld]
  rfl

theorem roster_hook (w : World σ) (t : ThreadId) (h : Handle) :
    ∃ c, (c = .joining ∨ c = .done none) ∧
      (w.hook t h).roster = w.roster.modify t ({ · with creation := some c }) := by
  unfold hook
  split
  · exact ⟨.joining, .inl rfl, by rw [roster_setCreation, roster_modifyHandle]⟩
  · exact ⟨.done none, .inr rfl, roster_setCreation w t _⟩

theorem roster_build (w : World σ) (kind : Kind) (m : MethodRef) (args : List Value) (env : Env) :
    ∃ thread : Thread, thread.pass = ⟨w.strands.length, kind, env.registry⟩ ∧
      (w.build kind m args env).2.roster =
        { w.roster with
          launches := w.roster.launches ++ [⟨some thread, none, false, false, none⟩] } := by
  let thread : Thread :=
    { id := w.strands.length
      kind := kind
      registry := env.registry
      dialect := env.dialect
      frames := FrameStack.empty env.maxDepth
      method := m
      args := args
      pc := 0 }
  refine ⟨thread, rfl, ?_⟩
  simp [build, roster, Strand.launchState, thread]

/-! ## Serving requests -/

theorem roster_serveSpawn {w w' : World σ} {c : Ctx} {slot : ThreadId} {object : Value}
    (h : (w.serveSpawn c slot object).world? = some w') :
    (∃ thread, w.held? slot = some thread ∧
        w.serveSpawn c slot object = .deferred (.reportLaunch thread.id) w' ∧
        w'.roster = w.roster.create slot thread object) ∨
      ∃ l, w.held? slot = none ∧ w.serveSpawn c slot object = .answered (.launch l) w ∧ w' = w := by
  unfold serveSpawn at h ⊢
  unfold held?
  cases strand_eq : w.strands[slot]? with
  | none =>
      rw [strand_eq] at h
      cases h
      exact .inr ⟨_, rfl, rfl, rfl⟩
  | some s =>
      rw [strand_eq] at h
      dsimp only at h ⊢
      cases held_eq : s.held with
      | none =>
          rw [held_eq] at h
          cases h
          exact .inr ⟨_, held_eq, rfl, rfl⟩
      | some thread =>
          rw [held_eq] at h
          cases h
          exact .inl ⟨thread, held_eq, rfl, roster_create w slot thread object⟩

/-- A request that is answered leaves the roster alone, unless it takes a held thread away for the
context that asks. -/
theorem roster_of_answered {w w' : World σ} {c : Ctx} {r : Request} {a : Answer}
    (h : w.serve c r = .answered a w') :
    (∃ slot, r = .replace slot ∧ a = .replaced (w.held? slot) ∧
        w'.roster = w.roster.modify slot ({ · with held := none })) ∨
      (∀ thread, Task.threadAfter thread a = thread) ∧
        (∀ d ∈ w.requestDeed? r, d.relocates = false) ∧ w'.roster = w.roster := by
  cases r with
  | detach t =>
      cases h
      exact .inr ⟨fun _ => rfl, by simp [requestDeed?], roster_modifyHandle w t _⟩
  | awaitApplications r =>
      have reached : (w.serveAwait c r).world? = some w' := congrArg Served.world? h
      refine .inr ⟨?_, by simp [requestDeed?], roster_serveAwait reached⟩
      simp only [serve, serveAwait] at h
      split at h
      · cases h
        exact fun _ => rfl
      · split at h
        · cases h
        · split at h
          · cases h
            exact fun _ => rfl
          · cases h
  | stateOf t =>
      simp only [serve] at h
      split at h
      · cases h
        exact .inr ⟨fun _ => rfl, by simp [requestDeed?], rfl⟩
      · cases h
        exact .inr ⟨fun _ => rfl, by simp [requestDeed?], rfl⟩
  | retire r t =>
      cases h
      refine .inr ⟨fun _ => rfl, fun d did => ?_, roster_retire w c r t⟩
      obtain ⟨rfl, _⟩ := retirement?_eq_some did
      rfl
  | transition r t next =>
      cases h
      refine .inr ⟨fun _ => rfl, fun d did => ?_, roster_transition w c r t next⟩
      obtain ⟨rfl, _⟩ := change?_eq_some did
      rfl
  | tally r =>
      simp only [serve] at h
      split at h
      · cases h
        exact .inr ⟨fun _ => rfl, by simp [requestDeed?], rfl⟩
      · cases h
        exact .inr ⟨fun _ => rfl, by simp [requestDeed?], rfl⟩
  | replace slot =>
      cases h
      exact .inl ⟨slot, rfl, rfl, roster_takeHeld w slot⟩
  | park =>
      have reached : (w.servePark c).world? = some w' := congrArg Served.world? h
      refine .inr ⟨?_, by simp [requestDeed?], roster_servePark reached⟩
      simp only [serve, servePark] at h
      split at h
      · cases h
        exact fun _ => rfl
      · cases h
        exact fun _ => rfl
      · split at h
        all_goals cases h
        all_goals exact fun _ => rfl
  | spawn slot object =>
      have reached : (w.serveSpawn c slot object).world? = some w' := congrArg Served.world? h
      obtain ⟨thread, _, deferred, _⟩ | ⟨l, held_eq, answered, rfl⟩ := roster_serveSpawn reached
      · cases deferred.symm.trans h
      · cases answered.symm.trans h
        exact .inr ⟨fun _ => rfl, by simp [requestDeed?, creation?, held_eq], rfl⟩
  | reportLaunch t =>
      cases h
      exact .inr ⟨fun _ => rfl, by simp [requestDeed?], rfl⟩
  | unpark t =>
      have reached : (w.serveUnpark c t).world? = some w' := congrArg Served.world? h
      refine .inr ⟨?_, by simp [requestDeed?], roster_serveUnpark reached⟩
      simp only [serve, serveUnpark] at h
      split at h
      · cases h
      · cases h
        exact fun _ => rfl
  | reportUnpark =>
      cases h
      exact .inr ⟨fun _ => rfl, by simp [requestDeed?], rfl⟩
  | emit v =>
      cases h
      exact .inr ⟨fun _ => rfl, by simp [requestDeed?], rfl⟩

/-- A request that is put off leaves the roster alone, unless it has a held thread created. -/
theorem roster_of_deferred {w w' : World σ} {c : Ctx} {r r' : Request}
    (h : w.serve c r = .deferred r' w') :
    (∃ slot object thread, r = .spawn slot object ∧ w.held? slot = some thread ∧
        r' = .reportLaunch thread.id ∧ w'.roster = w.roster.create slot thread object) ∨
      r'.isPublic = true ∧ w.requestDeed? r = none ∧ w'.roster = w.roster := by
  cases r with
  | awaitApplications r =>
      have reached : (w.serveAwait c r).world? = some w' := congrArg Served.world? h
      refine .inr ⟨?_, rfl, roster_serveAwait reached⟩
      simp only [serve, serveAwait] at h
      split at h
      · cases h
      · split at h
        · cases h
        · split at h
          · cases h
          · cases h
            rfl
  | stateOf t =>
      simp only [serve] at h
      split at h
      · cases h
      · cases h
  | tally r =>
      simp only [serve] at h
      split at h
      · cases h
      · cases h
  | park =>
      have reached : (w.servePark c).world? = some w' := congrArg Served.world? h
      refine .inr ⟨?_, rfl, roster_servePark reached⟩
      simp only [serve, servePark] at h
      split at h
      · cases h
      · cases h
      · split at h
        all_goals cases h
        rfl
  | spawn slot object =>
      have reached : (w.serveSpawn c slot object).world? = some w' := congrArg Served.world? h
      obtain ⟨thread, held_eq, deferred, roster_eq⟩ | ⟨l, _, answered, _⟩ :=
        roster_serveSpawn reached
      · cases deferred.symm.trans h
        exact .inl ⟨slot, object, thread, rfl, held_eq, rfl, roster_eq⟩
      · cases answered.symm.trans h
  | unpark t =>
      have reached : (w.serveUnpark c t).world? = some w' := congrArg Served.world? h
      refine .inr ⟨?_, rfl, roster_serveUnpark reached⟩
      simp only [serve, serveUnpark] at h
      split at h
      · cases h
        rfl
      · cases h
  | detach t | retire r t | transition r t next | replace slot | reportLaunch t | reportUnpark
  | emit v => cases h

end World

end ThreadEngine
