import ThreadEngine.Proofs.TaskRuns

set_option autoImplicit false

/-!
# Accounts

A ledger admits a deed if the deed can be done then: threads and registries exist, only a thread
that has not died is moved or retired, and it is retired in its home.  Every deed of a run is
admitted (`Run.history`), so what a run does to tables, counters and states is a fact about admitted
histories, without worlds, contexts or tasks.

`History.entries` says how many entries of a thread a table has: as many as were recorded, less the
one that its retirement took out, if there was one.
-/

namespace ThreadEngine

/-- The threads that were recorded in a registry, in order. -/
def recordings (r : RegistryId) (h : List Deed) : List ThreadId :=
  h.filterMap fun
    | .enlisted r' t | .added r' t => if r' = r then some t else none
    | _ => none

theorem recordings_append (r : RegistryId) (h₁ h₂ : List Deed) :
    recordings r (h₁ ++ h₂) = recordings r h₁ ++ recordings r h₂ := List.filterMap_append

theorem count_recordings (r : RegistryId) (t : ThreadId) (h : List Deed) :
    (recordings r h).count t = h.count (.enlisted r t) + h.count (.added r t) := by
  induction h with
  | nil => rfl
  | cons d h ih =>
      have split : recordings r (d :: h) = recordings r [d] ++ recordings r h :=
        recordings_append r [d] h
      rw [split, List.count_append, ih, List.count_cons, List.count_cons]
      cases d with
      | enlisted r' t' | added r' t' =>
          by_cases same : r' = r
          · by_cases at_t : t' = t
            · simp [recordings, same, at_t]
              omega
            · simp [recordings, same, at_t]
          · simp [recordings, same]
      | _ => simp [recordings]

theorem mem_recordings {r : RegistryId} {h : List Deed} {t : ThreadId} :
    t ∈ recordings r h ↔ .enlisted r t ∈ h ∨ .added r t ∈ h := by
  rw [← List.count_pos_iff, ← List.count_pos_iff, ← List.count_pos_iff, count_recordings]
  omega

/-- A counter that is right is not zero while there is an entry to take out. -/
theorem Registry.remove_eq {reg : Registry} (t : ThreadId)
    (counts : reg.appThreads = reg.table.length) :
    reg.remove t =
      if t ∈ reg.table then ({ reg with table := reg.table.erase t }.discount, some true)
      else (reg, some false) := by
  unfold Registry.remove
  split
  · rename_i present
    have positive := List.length_pos_of_mem present
    have counted : reg.appThreads ≠ 0 := by omega
    dsimp only
    rw [if_neg counted]
  · rfl

namespace Ledger

/-! ## Views -/

/-- The table of a registry. -/
def table (l : Ledger) (r : RegistryId) : List ThreadId :=
  (l.books[r]?.map Registry.table).getD []

theorem table_remove (reg : Registry) (t : ThreadId) :
    (reg.remove t).1.table = reg.table.erase t := by
  unfold Registry.remove
  split
  · split <;> rfl
  · rename_i absent
    exact (List.erase_of_not_mem absent).symm

theorem table_modify (l : Ledger) (r r' : RegistryId) (f : Registry → Registry)
    (g : List ThreadId → List ThreadId) (carries : ∀ reg, (f reg).table = g reg.table)
    (known : r' < l.books.length) :
    ({ l with books := l.books.modify r' f } : Ledger).table r =
      if r' = r then g (l.table r) else l.table r := by
  unfold table
  split
  · rename_i same
    subst same
    simp [known, carries]
  · rename_i other
    simp [other]

/-- What a deed does to the tables. -/
theorem table_after {l : Ledger} {d : Deed} (admits : l.Admits d) (r : RegistryId) :
    (l.after d).table r =
      match d with
      | .enlisted r' t | .added r' t => if r' = r then l.table r ++ [t] else l.table r
      | .retired r' t => if r' = r then (l.table r).erase t else l.table r
      | .built .. | .installed | .created _ | .started _ | .moved .. => l.table r := by
  cases d with
  | enlisted r' t | added r' t =>
      exact table_modify l r r' (·.add t) (· ++ [t]) (fun _ => rfl) admits.1
  | retired r' t =>
      exact table_modify l r r' (fun reg => (reg.remove t).1) (·.erase t)
        (fun reg => table_remove reg t) admits.1
  | installed =>
      unfold table after
      rw [List.getElem?_append]
      split
      · rfl
      · rename_i beyond
        rw [List.getElem?_eq_none_iff.mpr (Nat.le_of_not_lt beyond), List.getElem?_singleton]
        split <;> rfl
  | built kind home | created t | started t | moved t next => rfl

theorem state?_modify (l : Ledger) (t u : ThreadId) (next : State) :
    (l.cards.modify u ({ · with state := next }))[t]?.map Card.state =
      if u = t then (l.state? t).map fun _ => next else l.state? t := by
  rw [List.getElem?_modify, state?]
  cases l.cards[t]? with
  | none => simp
  | some card => by_cases same : u = t <;> simp [same]

/-- What a deed does to the states. -/
theorem state?_after (l : Ledger) (d : Deed) (t : ThreadId) :
    (l.after d).state? t =
      match d with
      | .built .. => if t = l.cards.length then some .running else l.state? t
      | .moved u next => if u = t then (l.state? t).map fun _ => next else l.state? t
      | .retired _ u => if u = t then (l.state? t).map fun _ => .died else l.state? t
      | .installed | .created _ | .started _ | .enlisted .. | .added .. => l.state? t := by
  cases d with
  | built kind home =>
      rcases Nat.lt_trichotomy t l.cards.length with old | rfl | beyond
      · simp [state?, after, List.getElem?_append_left old, Nat.ne_of_lt old]
      · simp [state?, after]
      · have short : (l.cards ++ [(⟨kind, home, .running⟩ : Card)]).length ≤ t := by
          rw [List.length_append]
          exact beyond
        simp [state?, after, List.getElem?_eq_none_iff.mpr short,
          List.getElem?_eq_none_iff.mpr (Nat.le_of_lt beyond), Nat.ne_of_gt beyond]
  | moved u next => exact state?_modify l t u next
  | retired r u => exact state?_modify l t u .died
  | installed | created u | started u | enlisted r u | added r u => rfl

/-! ## Histories -/

/-- Ledgers by the admitted deeds that led to them, from registries without threads. -/
inductive History (n : Nat) : List Deed → Ledger → Prop
  | nil : History n [] ⟨[], List.replicate n Registry.empty⟩
  | snoc {h : List Deed} {l : Ledger} {d : Deed} (before : History n h l) (admits : l.Admits d) :
      History n (h ++ [d]) (l.after d)

/-- How many entries of a thread the tables have. -/
inductive Entries (l : Ledger) (h : List Deed) (t : ThreadId) : Prop
  | live (alive : l.state? t ≠ some .died) (retires : ∀ r, .retired r t ∉ h)
      (counts : ∀ r, (l.table r).count t = (recordings r h).count t)
  /-- retiring the thread took out one entry at its home, if there was one -/
  | dead {pass : Pass} {before after : List Deed} (pass_eq : l.pass? t = some pass)
      (died : l.state? t = some .died) (split : h = before ++ .retired pass.registry t :: after)
      (first : ∀ r, .retired r t ∉ before) (last : ∀ r, .retired r t ∉ after)
      (counts : ∀ r, (l.table r).count t =
        ((recordings r before).count t - if pass.registry = r then 1 else 0) +
          (recordings r after).count t)

/-- Deeds other than the retirement of a thread only add entries of it. -/
theorem count_after {l : Ledger} {d : Deed} {t : ThreadId} (admits : l.Admits d)
    (other : ∀ r, d ≠ .retired r t) (r : RegistryId) :
    ((l.after d).table r).count t = (l.table r).count t + (recordings r [d]).count t := by
  rw [table_after admits]
  cases d with
  | enlisted r' u | added r' u =>
      by_cases same : r' = r
      · simp [recordings, same]
      · simp [recordings, same]
  | retired r' u =>
      have ne : t ≠ u := by
        rintro rfl
        exact other r' rfl
      by_cases same : r' = r
      · simp [recordings, same, List.count_erase_of_ne ne]
      · simp [recordings, same]
  | built kind home | installed | created u | started u | moved u next => simp [recordings]

/-- A thread dies only by being retired. -/
theorem died_of_after {l : Ledger} {d : Deed} {t : ThreadId} (admits : l.Admits d)
    (died : (l.after d).state? t = some .died) :
    l.state? t = some .died ∨ ∃ r, d = .retired r t := by
  rw [state?_after] at died
  cases d with
  | built kind home =>
      dsimp only at died
      split at died
      · cases died
      · exact .inl died
  | moved u next =>
      dsimp only at died
      split at died
      · obtain ⟨s, _, rfl⟩ := Option.map_eq_some_iff.mp died
        exact absurd rfl admits.1
      · exact .inl died
  | retired r u =>
      dsimp only at died
      split at died
      · rename_i same
        exact .inr ⟨r, by rw [same]⟩
      · exact .inl died
  | installed | created u | started u | enlisted r u | added r u => exact .inl died

/-- A thread that has died stays dead. -/
theorem died_after {l : Ledger} {d : Deed} {t : ThreadId} (admits : l.Admits d)
    (died : l.state? t = some .died) : (l.after d).state? t = some .died := by
  rw [state?_after]
  cases d with
  | built kind home =>
      have old : t ≠ l.cards.length := by
        rintro rfl
        simp [state?] at died
      simpa [old] using died
  | moved u next =>
      obtain ⟨_, s, state_eq, alive⟩ := admits
      have other : u ≠ t := by
        rintro rfl
        exact alive (Option.some.inj (state_eq.symm.trans died))
      simpa [other] using died
  | retired r u =>
      by_cases same : u = t
      · simp [same, died]
      · simpa [same] using died
  | installed | created u | started u | enlisted r u | added r u => exact died

/-- A thread that is retired has not died before. -/
theorem alive_of_retired {l : Ledger} {r : RegistryId} {t : ThreadId}
    (admits : l.Admits (.retired r t)) : l.state? t ≠ some .died := by
  obtain ⟨_, card, card_eq, _, alive⟩ := admits
  rw [state?, card_eq]
  exact fun died => alive (Option.some.inj died)

theorem entries_after {l : Ledger} {h : List Deed} {d : Deed} {t : ThreadId}
    (entries : Entries l h t) (admits : l.Admits d) : Entries (l.after d) (h ++ [d]) t := by
  by_cases retirement : ∃ r, d = .retired r t
  · obtain ⟨r, rfl⟩ := retirement
    have alive := alive_of_retired admits
    obtain ⟨_, card, card_eq, home_eq, _⟩ := id admits
    cases entries with
    | dead _ died _ _ _ _ => exact absurd died alive
    | live _ retires counts =>
        have pass_eq : l.pass? t = some ⟨t, card.kind, card.home⟩ := by rw [pass?, card_eq]; rfl
        refine .dead (pass?_after _ pass_eq) ?_ (by rw [home_eq]) retires (by simp) ?_
        · rw [state?_after, state?, card_eq]
          simp
        · intro r'
          rw [table_after admits, home_eq]
          by_cases same : r = r'
          · simp [same, counts, recordings]
          · simp [same, counts, recordings]
  · have other : ∀ r, d ≠ .retired r t := fun r same => retirement ⟨r, same⟩
    cases entries with
    | live alive retires counts =>
        refine .live ?_ ?_ ?_
        · intro died
          rcases died_of_after admits died with before | now
          · exact alive before
          · exact retirement now
        · intro r member
          rcases List.mem_append.mp member with old | new
          · exact retires r old
          · exact other r (List.mem_singleton.mp new).symm
        · intro r
          rw [count_after admits other, recordings_append, List.count_append, counts]
    | @dead pass before after pass_eq died split first last counts =>
        have split' : h ++ [d] = before ++ .retired pass.registry t :: (after ++ [d]) := by
          rw [split, List.append_assoc, List.cons_append]
        refine .dead (pass?_after d pass_eq) (died_after admits died) split' first ?_ ?_
        · intro r member
          rcases List.mem_append.mp member with old | new
          · exact last r old
          · exact other r (List.mem_singleton.mp new).symm
        · intro r
          rw [count_after admits other, recordings_append, List.count_append, counts,
            Nat.add_assoc]

/-- What the tables have of each thread, by the history. -/
theorem History.entries {n : Nat} {h : List Deed} {l : Ledger} (history : History n h l)
    (t : ThreadId) : Entries l h t := by
  induction history with
  | nil =>
      refine .live (by simp [state?]) (by simp) ?_
      intro r
      rw [table, List.getElem?_replicate]
      split <;> simp [recordings, Registry.empty]
  | snoc _ admits ih => exact entries_after ih admits

/-- A thread that has been retired is dead. -/
theorem Entries.died_of_retired {l : Ledger} {h : List Deed} {t : ThreadId} {r : RegistryId}
    (entries : Entries l h t) (member : .retired r t ∈ h) : l.state? t = some .died := by
  cases entries with
  | live _ retires _ => exact absurd member (retires r)
  | dead _ died _ _ _ _ => exact died

/-- A thread that is dead has been retired. -/
theorem Entries.retired_of_died {l : Ledger} {h : List Deed} {t : ThreadId}
    (entries : Entries l h t) (died : l.state? t = some .died) : ∃ r, .retired r t ∈ h := by
  cases entries with
  | live alive _ _ => exact absurd died alive
  | @dead pass before after _ _ split _ _ _ =>
      refine ⟨pass.registry, ?_⟩
      rw [split]
      exact List.mem_append_right before List.mem_cons_self

/-! ## Counters -/

/-- The counters of a registry agree with its table and with the history. -/
def Counted (h : List Deed) (r : RegistryId) (reg : Registry) : Prop :=
  reg.appThreads = reg.table.length ∧ reg.total = (recordings r h).length

theorem counted_add {h : List Deed} {r : RegistryId} {reg : Registry} {t : ThreadId} {d : Deed}
    (counted : Counted h r reg) (records : recordings r [d] = [t]) :
    Counted (h ++ [d]) r (reg.add t) := by
  obtain ⟨app_eq, total_eq⟩ := counted
  refine ⟨?_, ?_⟩
  · simp [Registry.add, app_eq]
  · simp [Registry.add, recordings_append, records, total_eq]

theorem counted_remove {h : List Deed} {r : RegistryId} {reg : Registry} (t : ThreadId)
    (counted : Counted h r reg) : Counted h r (reg.remove t).1 := by
  obtain ⟨app_eq, total_eq⟩ := counted
  rw [Registry.remove_eq t app_eq]
  split
  · rename_i present
    have length_eq := List.length_erase_of_mem present
    refine ⟨?_, total_eq⟩
    simp only [Registry.discount]
    omega
  · exact ⟨app_eq, total_eq⟩

/-- Deeds that record nothing in a registry leave its counts right. -/
theorem counted_other {h : List Deed} {r : RegistryId} {reg : Registry} {d : Deed}
    (counted : Counted h r reg) (records : recordings r [d] = []) : Counted (h ++ [d]) r reg := by
  refine ⟨counted.1, ?_⟩
  rw [recordings_append, records, List.append_nil]
  exact counted.2

/-- Only registries that exist have recorded threads, and their counters are right. -/
structure Accounted (l : Ledger) (h : List Deed) : Prop where
  recorded_lt : ∀ r t, t ∈ recordings r h → r < l.books.length
  counted : ∀ r reg, l.books[r]? = some reg → Counted h r reg

/-- What one deed preserves. -/
theorem Accounted.after {l : Ledger} {h : List Deed} {d : Deed} (accounted : l.Accounted h)
    (admits : l.Admits d) : (l.after d).Accounted (h ++ [d]) := by
  refine ⟨?_, ?_⟩
  · intro r t member
    refine Nat.lt_of_lt_of_le ?_ (length_books_after l d)
    rw [recordings_append, List.mem_append] at member
    rcases member with old | new
    · exact accounted.recorded_lt r t old
    · rcases mem_recordings.mp new with enlisted | added
      · cases List.mem_singleton.mp enlisted
        exact admits.1
      · cases List.mem_singleton.mp added
        exact admits.1
  · intro r reg reg_eq
    cases d with
    | enlisted r' t | added r' t =>
        simp only [Ledger.after] at reg_eq
        by_cases same : r' = r
        · subst same
          rw [List.getElem?_modify_eq] at reg_eq
          obtain ⟨old, old_eq, rfl⟩ := Option.map_eq_some_iff.mp reg_eq
          exact counted_add (accounted.counted r' old old_eq) (by simp [recordings])
        · rw [List.getElem?_modify_ne _ _ same] at reg_eq
          exact counted_other (accounted.counted r reg reg_eq) (by simp [recordings, same])
    | retired r' t =>
        simp only [Ledger.after] at reg_eq
        refine counted_other ?_ (by simp [recordings])
        by_cases same : r' = r
        · subst same
          rw [List.getElem?_modify_eq] at reg_eq
          obtain ⟨old, old_eq, rfl⟩ := Option.map_eq_some_iff.mp reg_eq
          exact counted_remove t (accounted.counted r' old old_eq)
        · rw [List.getElem?_modify_ne _ _ same] at reg_eq
          exact accounted.counted r reg reg_eq
    | installed =>
        refine counted_other ?_ (by simp [recordings])
        rw [Ledger.after, List.getElem?_append] at reg_eq
        split at reg_eq
        · exact accounted.counted r reg reg_eq
        · rename_i beyond
          rw [List.getElem?_singleton] at reg_eq
          split at reg_eq
          · cases reg_eq
            have unused : recordings r h = [] := by
              rw [List.eq_nil_iff_forall_not_mem]
              intro t member
              exact beyond (accounted.recorded_lt r t member)
            exact ⟨rfl, by rw [unused]; rfl⟩
          · cases reg_eq
    | built kind home | created t | started t | moved t next =>
        exact counted_other (accounted.counted r reg reg_eq) (by simp [recordings])

theorem accounted_empty (n : Nat) : Accounted ⟨[], List.replicate n Registry.empty⟩ [] := by
  refine ⟨nofun, ?_⟩
  intro r reg reg_eq
  rw [List.getElem?_replicate] at reg_eq
  split at reg_eq
  · cases reg_eq
    exact ⟨rfl, rfl⟩
  · cases reg_eq

/-- The counters of every registry are right after every history. -/
theorem History.accounted {n : Nat} {h : List Deed} {l : Ledger} (history : History n h l) :
    l.Accounted h := by
  induction history with
  | nil => exact accounted_empty n
  | snoc _ admits ih => exact ih.after admits

end Ledger

namespace World

variable {σ : Type}

theorem ledger_table {w : World σ} {r : RegistryId} {reg : Registry}
    (reg_eq : w.registries[r]? = some reg) : w.ledger.table r = reg.table := by
  simp [Ledger.table, ledger, reg_eq, Registry.book]

/-- A pass is that of a thread that exists, and the registry on it is the home of that thread. -/
theorem Consistent.card_of_pass {u : World σ} (consistent : Consistent u) {place : Place}
    {pass : Pass} (member : pass ∈ u.roster.passesAt place) :
    ∃ card, u.ledger.cards[pass.thread]? = some card ∧ card.kind = pass.kind ∧
      card.home = pass.registry ∧ pass.registry < u.ledger.books.length := by
  have known := consistent.agrees place pass member
  have housed := consistent.housed _ pass known
  obtain ⟨card, card_eq, pass_eq⟩ := Option.map_eq_some_iff.mp known
  exact ⟨card, card_eq, congrArg Pass.kind pass_eq, congrArg Pass.registry pass_eq, housed⟩

/-- The guard of a task has its pass where the task is. -/
theorem mem_passesAt_of_guard {u : World σ} {c : Ctx} {g : Guard} (member : g ∈ u.guardsAt c) :
    g.pass ∈ u.roster.passesAt c.place := by
  cases task_eq : u.roster.taskAt c with
  | none =>
      rw [guardsAt_of_none task_eq] at member
      cases member
  | some task =>
      rw [guardsAt_of_task task_eq] at member
      rw [Roster.passesAt_of_taskAt task_eq, Task.mem_passes]
      exact .inr ⟨g, member, rfl⟩

theorem mem_guardsAt_of_retiring {u : World σ} {c : Ctx} {task : Task σ} {g : Guard}
    {passing : Option Abort} (task_eq : u.roster.taskAt c = some task)
    (mode_eq : task.mode = .retiring g passing) : g ∈ u.guardsAt c := by
  rw [guardsAt_of_task task_eq]
  simp [Task.guards, mode_eq, Mode.guards]

/-- What is done can be done. -/
theorem Shift.admits {u : World σ} {who : Ctx} {ro : Roster σ} {d : Option Deed} {h : List Deed}
    (shift : Shift u who d ro) (consistent : Consistent u) (guarded : Guarded h u) {e : Deed}
    (deed_eq : d = some e) : u.ledger.Admits e := by
  cases shift with
  | rest stays retires admits => exact admits e deed_eq
  | @built _ kind home thread pass_eq home_lt =>
      cases deed_eq
      simpa [Ledger.Admits, ledger] using home_lt
  | @launchStep _ t s s' _ launch_eq step =>
      cases step with
      | @enlisted thread child_eq =>
          cases deed_eq
          have member : thread.pass ∈ u.roster.passesAt (.strand t .body) := by
            rw [Roster.passesAt_strand launch_eq]
            simp [LaunchState.passes, child_eq, Child.passes]
          obtain ⟨card, card_eq, _, _, housed⟩ := consistent.card_of_pass member
          exact ⟨housed, (List.getElem?_eq_some_iff.mp card_eq).1⟩
      | _ => cases deed_eq
  | stepped task_eq step =>
      obtain ⟨rfl, _⟩ | ⟨_, r, asks, asked_eq⟩ | ⟨_, rfl⟩ := step.deed_cases deed_eq
      · trivial
      · cases r with
        | retire r t =>
            obtain ⟨rfl, ⟨s, state_eq, alive⟩, _⟩ := retirement?_eq_some asked_eq
            obtain ⟨g, passing, mode_eq, rfl, rfl⟩ :=
              Task.retiring_of_request (guarded.proper _ _ task_eq) asks
            have member := mem_passesAt_of_guard (mem_guardsAt_of_retiring task_eq mode_eq)
            obtain ⟨card, card_eq, _, home_eq, housed⟩ := consistent.card_of_pass member
            refine ⟨housed, card, card_eq, home_eq, ?_⟩
            rw [← ledger_state?, Ledger.state?, show g.thread = g.pass.thread from rfl,
              card_eq] at state_eq
            cases state_eq
            exact alive
        | transition r t next =>
            obtain ⟨rfl, lives, alive⟩ := change?_eq_some asked_eq
            rw [← ledger_state?] at alive
            exact ⟨lives, alive⟩
        | spawn slot object =>
            obtain ⟨thread, _, rfl⟩ := Option.map_eq_some_iff.mp asked_eq
            trivial
        | _ => cases asked_eq
      · trivial
  | begun launch_eq child_eq | started idle held_eq | created held_eq =>
      cases deed_eq
      trivial
  | waits before after | called idle held_eq | takenBack host_eq finished => cases deed_eq

/-- The deeds of a run are admitted, one after the other. -/
theorem Run.history {n : Nat} {config : ConfigCell} {h : List Deed} {w : World σ}
    (run : Run (ofRegistries n config) h w) : Ledger.History n h w.ledger := by
  induction run with
  | refl =>
      have start : (ofRegistries n config : World σ).ledger =
          ⟨[], List.replicate n Registry.empty⟩ := by
        simp [ledger, ofRegistries, Registry.book, Registry.empty]
      rw [start]
      exact .nil
  | @snoc h u v op run isPublic done ih =>
      rw [ledger_perform done]
      cases deed_eq : u.deed? op with
      | none => simpa using ih
      | some d =>
          have shift := shift_perform isPublic done
          exact .snoc ih (shift.admits run.orderly.toConsistent run.guarded deed_eq)

/-- What operations preserve, by the deeds that were done. -/
structure Sound (h : List Deed) (w : World σ) : Prop where
  consistent : Consistent w
  launching : Launching h w
  guarded : Guarded h w
  accounted : w.ledger.Accounted h

/-- Worlds are sound after every run from one without threads. -/
theorem Run.sound {n : Nat} {config : ConfigCell} {h : List Deed} {w : World σ}
    (run : Run (ofRegistries n config) h w) : Sound h w where
  consistent := run.orderly.toConsistent
  launching := run.launching
  guarded := run.guarded
  accounted := run.history.accounted

/-- What an operation does in a sound world can be done. -/
theorem Sound.admits {u v : World σ} {op : Operation σ} {h : List Deed} {d : Deed}
    (sound : Sound h u) (isPublic : op.IsPublic) (done : u.perform op = some v)
    (deed_eq : u.deed? op = some d) : u.ledger.Admits d :=
  (shift_perform isPublic done).admits sound.consistent sound.guarded deed_eq

/-- The counters of every registry of a sound world are right. -/
theorem Sound.counted {h : List Deed} {w : World σ} (sound : Sound h w) {r : RegistryId}
    {reg : Registry} (reg_eq : w.registries[r]? = some reg) : Ledger.Counted h r reg := by
  have book_eq : w.ledger.books[r]? = some reg.book := by simp [ledger, reg_eq]
  have counted := sound.accounted.counted r _ book_eq
  exact ⟨counted.1, counted.2⟩

end World

end ThreadEngine
