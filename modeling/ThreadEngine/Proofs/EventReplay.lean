import ThreadEngine.Proofs.Reports
import ThreadEngine.Proofs.CallInputs
import ThreadEngine.Proofs.Isolation
import ThreadEngine.Proofs.Retirement

set_option autoImplicit false

/-!
# Replaying the reports of a registry

Somebody who sees only what a registry reports can follow its counters.  `Registry.Tells` says what
one report tells about the registry before and after it; every fine step either says nothing of a
registry and leaves its counters alone, or tells what it has done to them (`Step.reportStep`).  So
the counter is the number of recordings reported so far, less the number of deaths reported of
threads that had an entry, at every report and at the end.  The death of a thread is reported each
time that it dies, which is once unless it was revived (`Run.reportsDeaths`).

The operations are those of interpreters that do not speak for registries (`Operation.IsSincere`).
-/

namespace ThreadEngine

namespace Event

/-- Whether an event reports that a thread was recorded. -/
def isRecording : Event → Bool
  | .recorded .. => true
  | _ => false

/-- Whether an event reports the death of a thread that had an entry. -/
def isRemoval : Event → Bool
  | .died _ _ wasRecorded _ => wasRecorded
  | _ => false

/-- Whether an event reports the death of a thread. -/
def isDeathOf (t : ThreadId) : Event → Bool
  | .died _ t' .. => t' = t
  | _ => false

/-- The number of live application threads that an event gives. -/
def appThreads? : Event → Option Nat
  | .recorded _ _ n | .died _ _ _ n | .registryRemoved n => some n
  | _ => none

end Event

/-- What some reports add up to: the recordings, less the deaths that took out an entry. -/
def balance (log : List Event) : Int :=
  log.countP Event.isRecording - log.countP Event.isRemoval

/-- The reports of one registry. -/
def reportsBy (r : RegistryId) (log : List Event) : List Event :=
  log.filter fun e => e.reporter? = some r

theorem reportsBy_append (r : RegistryId) (first second : List Event) :
    reportsBy r (first ++ second) = reportsBy r first ++ reportsBy r second := List.filter_append ..

/-! ## What a report tells -/

/-- A report, with the registry before and after what it reports. -/
structure Registry.Tells (reg : Registry) (e : Event) (reg' : Registry) : Prop where
  count : e.appThreads? = some reg'.appThreads
  total : reg'.total = reg.total + e.isRecording.toNat
  change : reg'.appThreads + e.isRemoval.toNat = reg.appThreads + e.isRecording.toNat
  found : ∀ r t wasRecorded n, e = .died r t wasRecorded n → (wasRecorded = true ↔ t ∈ reg.table)

/-- A report tells the same of a registry and of its book. -/
theorem Registry.tells_book_iff {reg reg' : Registry} {e : Event} :
    reg.book.Tells e reg'.book ↔ reg.Tells e reg' := by
  constructor
  · intro tells
    exact ⟨tells.count, tells.total, tells.change, tells.found⟩
  · intro tells
    exact ⟨tells.count, tells.total, tells.change, tells.found⟩

theorem Registry.tells_add (reg : Registry) (r : RegistryId) (t : ThreadId) :
    reg.Tells (.recorded r t (reg.add t).appThreads) (reg.add t) where
  count := rfl
  total := rfl
  change := rfl
  found := by simp

/-- Where the counter is right, a thread that dies is reported with whether it had an entry. -/
theorem Registry.tells_remove {reg : Registry} (r : RegistryId) (t : ThreadId)
    (counts : reg.appThreads = reg.table.length) :
    ∃ wasRecorded, (reg.remove t).2 = some wasRecorded ∧
      reg.Tells (.died r t wasRecorded (reg.remove t).1.appThreads) (reg.remove t).1 := by
  obtain ⟨total_eq, app_eq⟩ := World.count_remove reg t counts
  refine ⟨decide (t ∈ reg.table), ?_, rfl, total_eq, ?_, ?_⟩
  · rw [Registry.remove_eq t counts]
    split
    · rename_i present
      simp [present]
    · rename_i absent
      simp [absent]
  · rw [app_eq]
    by_cases present : t ∈ reg.table
    · simp [Event.isRemoval, Event.isRecording, present]
    · simp [Event.isRemoval, Event.isRecording, present]
  · rintro _ _ _ _ ⟨⟩
    exact decide_eq_true_iff

/-- The counters of a registry, if it exists, agree with its reports. -/
structure Balanced (book : Option Registry) (log : List Event) : Prop where
  unknown : book = none → log = []
  count : ∀ reg, book = some reg → (reg.appThreads : Int) = balance log
  total : ∀ reg, book = some reg → reg.total = log.countP Event.isRecording

theorem Balanced.empty : Balanced (some Registry.empty) [] where
  unknown := fun _ => rfl
  count := by
    rintro _ ⟨⟩
    rfl
  total := by
    rintro _ ⟨⟩
    rfl

/-- One more report keeps the balance. -/
theorem Balanced.told {reg reg' : Registry} {log : List Event} {e : Event}
    (balanced : Balanced (some reg) log) (tells : reg.Tells e reg') :
    Balanced (some reg') (log ++ [e]) := by
  have count := balanced.count reg rfl
  have total := balanced.total reg rfl
  have change := tells.change
  have one (p : Event → Bool) : List.countP p [e] = (p e).toNat := by
    cases said : p e <;> simp [said]
  refine ⟨by simp, ?_, ?_⟩
  · rintro _ ⟨⟩
    rw [balance] at count
    rw [balance, List.countP_append, List.countP_append, one, one]
    push_cast
    omega
  · rintro _ ⟨⟩
    rw [List.countP_append, one, tells.total, total]

/-! ## Reports of a ledger -/

namespace Ledger

/-- What is reported of a deed says nothing of a registry that the deed leaves alone, and what it
says of another is true. -/
inductive ReportsTruly (l : Ledger) (d : Deed) (r : RegistryId) : Prop
  | silent (reports : reportsBy r (l.report? d).toList = [])
      (book : (l.after d).books[r]? = l.books[r]? ∨
        l.books[r]? = none ∧ (l.after d).books[r]? = some Registry.empty)
  | told {reg reg' : Registry} {e : Event} (reports : reportsBy r (l.report? d).toList = [e])
      (before : l.books[r]? = some reg) (after : (l.after d).books[r]? = some reg')
      (tells : reg.Tells e reg')

variable {l : Ledger} {d : Deed}

/-- A deed that changes one registry is reported as a change of that one only. -/
theorem reportsTruly_modify {r r' : RegistryId} (f : Registry → Registry)
    (report : Registry → Event) (exists_ : r' < l.books.length)
    (after_eq : (l.after d).books = l.books.modify r' f)
    (speaker : ∀ reg, (report reg).reporter? = some r')
    (spoken : ∀ reg, l.books[r']? = some reg →
      l.report? d = some (report reg) ∧ reg.Tells (report reg) (f reg)) : l.ReportsTruly d r := by
  obtain ⟨reg, before⟩ : ∃ reg, l.books[r']? = some reg :=
    ⟨_, List.getElem?_eq_getElem exists_⟩
  obtain ⟨report_eq, tells⟩ := spoken reg before
  by_cases same : r' = r
  · subst same
    refine .told ?_ before ?_ tells
    · simp [reportsBy, report_eq, speaker]
    · rw [after_eq, World.books_modify, if_pos rfl, before]
      rfl
  · refine .silent ?_ (.inl ?_)
    · simp [reportsBy, report_eq, speaker, same]
    · rw [after_eq, World.books_modify, if_neg same]

theorem reportsTruly (admits : l.Admits d)
    (counts : ∀ (r : RegistryId) (reg : Registry), l.books[r]? = some reg →
      reg.appThreads = reg.table.length)
    (r : RegistryId) : l.ReportsTruly d r := by
  cases d with
  | enlisted r' t | added r' t =>
      refine reportsTruly_modify (·.add t) (fun reg => .recorded r' t (reg.add t).appThreads)
        admits.1
        rfl (fun _ => rfl) ?_
      intro reg before
      exact ⟨by simp [report?, before], reg.tells_add r' t⟩
  | retired r' t =>
      refine reportsTruly_modify (fun reg => (reg.remove t).1)
        (fun reg => .died r' t ((reg.remove t).2.getD false) (reg.remove t).1.appThreads) admits.1
        rfl (fun _ => rfl) ?_
      intro reg before
      obtain ⟨wasRecorded, outcome, tells⟩ := Registry.tells_remove r' t (counts r' reg before)
      rw [outcome]
      exact ⟨by simp [report?, before, outcome], tells⟩
  | installed =>
      refine .silent rfl ?_
      rcases Nat.lt_trichotomy r l.books.length with lt | rfl | gt
      · exact .inl (List.getElem?_append_left lt)
      · exact .inr ⟨List.getElem?_eq_none (Nat.le_refl _), by simp [after]⟩
      · refine .inl ?_
        rw [List.getElem?_eq_none (Nat.le_of_lt gt), List.getElem?_eq_none]
        simpa [after] using Nat.succ_le_of_lt gt
  | built kind home | created t | started t | moved t next => exact .silent rfl (.inl rfl)

/-- Only the retirement of a thread is reported as its death. -/
theorem countP_isDeathOf_of_ne {t : ThreadId} (spared : ∀ r, d ≠ .retired r t) :
    (l.report? d).toList.countP (Event.isDeathOf t) = 0 := by
  rw [List.countP_eq_zero]
  intro e member
  rw [Option.mem_toList] at member
  cases d with
  | enlisted r t' | added r t' =>
      obtain ⟨reg, _, rfl⟩ := Option.map_eq_some_iff.mp member
      simp [Event.isDeathOf]
  | retired r t' =>
      obtain ⟨reg, _, said⟩ := Option.bind_eq_some_iff.mp member
      obtain ⟨wasRecorded, _, rfl⟩ := Option.map_eq_some_iff.mp said
      have other : t' ≠ t := by
        rintro rfl
        exact spared r rfl
      simp [Event.isDeathOf, other]
  | built kind home | installed | created t' | started t' | moved t' next => cases member

/-- The death of a thread that is retired is reported once. -/
theorem countP_isDeathOf_of_retired {r : RegistryId} {t : ThreadId}
    (admits : l.Admits (.retired r t))
    (counts : ∀ (r : RegistryId) (reg : Registry), l.books[r]? = some reg →
      reg.appThreads = reg.table.length) :
    (l.report? (.retired r t)).toList.countP (Event.isDeathOf t) = 1 := by
  obtain ⟨reg, reg_eq⟩ : ∃ reg, l.books[r]? = some reg := ⟨_, List.getElem?_eq_getElem admits.1⟩
  obtain ⟨wasRecorded, outcome, _⟩ := Registry.tells_remove r t (counts r reg reg_eq)
  simp [report?, reg_eq, outcome, Event.isDeathOf]

end Ledger

/-! ## Sincere interpreters -/

/-- Neither dialect asks for what is the engine's own. -/
theorem Program.isPublic_interpreter (p : Program) : p.interpreter.IsPublic := by
  have asked {τ σ : Type} {f : τ → σ} {a : Action τ} {s' : σ} {r : Request}
      (asks : a.map f = .ask s' r) : ∃ s, a = .ask s r := by
    cases a with
    | ask s r' =>
        cases asks
        exact ⟨s, rfl⟩
    | _ => cases asks
  intro s t s' r asks
  cases s with
  | script s =>
      obtain ⟨s'', action_eq⟩ := asked asks
      exact Script.isPublic_interpreter p.scripts s t s'' r action_eq
  | intMachine s =>
      obtain ⟨s'', action_eq⟩ := asked asks
      exact IntMachine.isPublic_interpreter p.definitions s t s'' r action_eq

/-- An operation is public, and whoever takes turns in it does not speak for a registry. -/
def Operation.IsSincere {σ : Type} (op : Operation σ) : Prop := op.IsPublic ∧ op.IsHonest

namespace World

variable {σ : Type}

/-- What a registry has reported, in the order in which it was changed. -/
def reportsOf (w : World σ) (r : RegistryId) : List Event := reportsBy r w.reports

/-! ## What a fine step says of a registry -/

/-- A step says nothing of a registry and leaves its books alone, unless it opens them, or it tells
what it has done to the registry. -/
inductive ReportStep (u v : World σ) (r : RegistryId) : Prop
  | silent (reports : v.reportsOf r = u.reportsOf r)
      (book : v.book? r = u.book? r ∨ u.book? r = none ∧ v.book? r = some Registry.empty)
  | told {reg reg' : Registry} {e : Event} (reports : v.reportsOf r = u.reportsOf r ++ [e])
      (before : u.registries[r]? = some reg) (after : v.registries[r]? = some reg')
      (tells : reg.Tells e reg')

end World

/-- Whether a thread is brought back from the dead. -/
def FineDeed.isRevivalOf (t : ThreadId) : FineDeed → Bool
  | .revived t' _ => t' = t
  | _ => false

namespace FineWorld

open World (promptMethod promptInterpreter)

variable {σ : Type} {n : Nat} {config : ConfigCell} {f g : FineWorld σ} {h : List Deed}
  {log more : List FineDeed}

theorem Step.isPublic (step : Step Operation.IsSincere f more g) :
    Step Operation.IsPublic f more g := step.mono fun _ => And.left

theorem Run.isPublic (run : Run Operation.IsSincere f log g) : Run Operation.IsPublic f log g :=
  run.mono fun _ => And.left

/-- A fine step adds the reports of its deeds, and no other. -/
theorem Step.reports (step : Step Operation.IsSincere f more g) :
    g.world.reports =
      f.world.reports ++ (deedsOf more).flatMap fun d => (f.world.ledger.report? d).toList := by
  cases step with
  | @acted op v sincere free fresh done =>
      rw [deedsOf_map]
      change v.reports = _
      rw [World.reports_perform sincere.2 done, World.reportsOn]
      cases f.world.deed? op with
      | none => rfl
      | some d => simp
  | checked => exact (List.append_nil _).symm
  | @stored i p v pending_eq sincere deed_eq done =>
      -- neither the write nor the deed of it is reported
      have quiet : (deedsOf (f.storeDeeds p)).flatMap
          (fun d => (f.world.ledger.report? d).toList) = [] := by
        rcases deedsOf_storeDeeds f p with none_eq | moved_eq
        · rw [none_eq]
          rfl
        · rw [moved_eq]
          rfl
      rw [quiet, List.append_nil]
      change v.reports = _
      rw [World.reports_perform sincere.2 done, deed_eq]
      exact List.append_nil _
  | reclaimed => exact (List.append_nil _).symm
  | rebound =>
      refine Eq.trans ?_ (List.append_nil _).symm
      exact World.reports_note_of_quiet _ _ (Abort.quiet_notes _)

/-- What a fine step says of a registry is what it has done to it. -/
theorem Step.reportStep (step : Step Operation.IsSincere f more g) (sound : Sound h f)
    (r : RegistryId) : World.ReportStep f.world g.world r := by
  have reports_eq : g.world.reportsOf r = f.world.reportsOf r ++
      reportsBy r ((deedsOf more).flatMap fun d => (f.world.ledger.report? d).toList) := by
    rw [World.reportsOf, step.reports, reportsBy_append]
    rfl
  have silent (deeds_eq : (deedsOf more).flatMap (fun d => (f.world.ledger.report? d).toList) = [])
      (books_eq : g.world.ledger.books = f.world.ledger.books) :
      World.ReportStep f.world g.world r := by
    rw [deeds_eq] at reports_eq
    refine .silent (reports_eq.trans (List.append_nil _)) (.inl ?_)
    rw [← World.ledger_book?, ← World.ledger_book?, books_eq]
  have ledgerStep := step.isPublic.ledgerStep sound
  generalize ledger_eq : g.world.ledger = l' at ledgerStep
  cases ledgerStep with
  | @deed d admits =>
      have reports_eq' : g.world.reportsOf r =
          f.world.reportsOf r ++ reportsBy r (f.world.ledger.report? d).toList := by
        rw [reports_eq]
        simp [deedsOf]
      have book_eq : g.world.book? r = (f.world.ledger.after d).books[r]? := by
        rw [← World.ledger_book?, ledger_eq]
      have counts (r : RegistryId) (reg : Registry) (reg_eq : f.world.ledger.books[r]? = some reg) :
          reg.appThreads = reg.table.length := (sound.accounted.counted r reg reg_eq).1
      cases Ledger.reportsTruly admits counts r with
      | silent reports book =>
          refine .silent ?_ ?_
          · rw [reports_eq', reports, List.append_nil]
          · rwa [book_eq, ← World.ledger_book?]
      | told reports before after tells =>
          rw [World.ledger_book?] at before
          rw [← book_eq] at after
          obtain ⟨reg, reg_eq, rfl⟩ := Option.map_eq_some_iff.mp before
          obtain ⟨reg', reg_eq', rfl⟩ := Option.map_eq_some_iff.mp after
          refine .told ?_ reg_eq reg_eq' (Registry.tells_book_iff.mp tells)
          rw [reports_eq', reports]
  | revived died lives =>
      rw [ledger_eq] at silent
      exact silent rfl rfl
  | rest deeds_eq revives =>
      rw [ledger_eq] at silent
      refine silent ?_ rfl
      rw [deeds_eq]
      rfl

/-! ## Runs -/

/-- The counters of every registry agree with its reports. -/
theorem Run.balanced (run : Run Operation.IsSincere (ofRegistries n config) log f)
    (r : RegistryId) : Balanced (f.world.book? r) (f.world.reportsOf r) := by
  induction run with
  | refl =>
      have book_eq : (World.ofRegistries n config : World σ).book? r =
          if r < n then some Registry.empty else none := by
        simp only [World.book?, World.ofRegistries, List.getElem?_replicate]
        split <;> rfl
      have unsaid : (World.ofRegistries n config : World σ).reportsOf r = [] := rfl
      rw [ofRegistries, book_eq, unsaid]
      split
      · exact .empty
      · exact ⟨fun _ => rfl, by simp, by simp⟩
  | snoc run step ih =>
      cases step.reportStep run.isPublic.sound r with
      | silent reports book =>
          rw [reports]
          rcases book with same | ⟨unknown, opened⟩
          · rwa [same]
          · rw [opened, ih.unknown unknown]
            exact .empty
      | told reports before after tells =>
          rw [World.book?, before] at ih
          rw [reports, World.book?, after]
          exact ih.told (Registry.tells_book_iff.mpr tells)

/-- The death of a thread was reported each time that it was revived, and once more if it is
dead. -/
def ReportsDeaths (log : List FineDeed) (f : FineWorld σ) : Prop :=
  ∀ t, f.world.reports.countP (Event.isDeathOf t) =
    log.countP (FineDeed.isRevivalOf t) + if f.world.state? t = some .died then 1 else 0

/-- What one fine step preserves. -/
theorem Step.reportsDeaths (step : Step Operation.IsSincere f more g) (sound : Sound h f)
    (reported : f.ReportsDeaths log) : g.ReportsDeaths (log ++ more) := by
  intro t
  have before := reported t
  rw [step.reports, List.countP_append, List.countP_append, before]
  have ledgerStep := step.isPublic.ledgerStep sound
  rw [← World.ledger_state?, ← World.ledger_state?]
  generalize g.world.ledger = l' at ledgerStep
  cases ledgerStep with
  | @deed d admits =>
      have said : (deedsOf [.deed d]).flatMap (fun d => (f.world.ledger.report? d).toList) =
          (f.world.ledger.report? d).toList := by
        simp [deedsOf]
      have kept : List.countP (FineDeed.isRevivalOf t) [.deed d] = 0 := by
        simp [FineDeed.isRevivalOf]
      rw [said, kept]
      by_cases retirement : ∃ r, d = .retired r t
      · obtain ⟨r, rfl⟩ := retirement
        have counts (r : RegistryId) (reg : Registry)
            (reg_eq : f.world.ledger.books[r]? = some reg) :
            reg.appThreads = reg.table.length := (sound.accounted.counted r reg reg_eq).1
        have alive := Ledger.alive_of_retired admits
        have dies : (f.world.ledger.after (.retired r t)).state? t = some .died := by
          obtain ⟨_, card, card_eq, _, _⟩ := admits
          rw [Ledger.state?_after]
          simp [Ledger.state?, card_eq]
        rw [Ledger.countP_isDeathOf_of_retired admits counts, if_neg alive, if_pos dies]
      · push Not at retirement
        have same : (f.world.ledger.after d).state? t = some .died ↔
            f.world.ledger.state? t = some .died := by
          constructor
          · intro died
            rcases Ledger.died_of_after admits died with was | ⟨r, now⟩
            · exact was
            · exact absurd now (retirement r)
          · exact Ledger.died_after admits
        rw [Ledger.countP_isDeathOf_of_ne retirement, if_congr same rfl rfl]
        rfl
  | @revived t' next died lives =>
      by_cases same : t' = t
      · subst same
        have alive : (f.world.ledger.after (.moved t' next)).state? t' ≠ some .died := by
          rw [Ledger.state?_after]
          simp [died, lives]
        rw [if_pos died, if_neg alive]
        simp [deedsOf, FineDeed.isRevivalOf]
      · have kept : (f.world.ledger.after (.moved t' next)).state? t =
            f.world.ledger.state? t := by
          rw [Ledger.state?_after]
          exact if_neg same
        rw [kept]
        simp [deedsOf, FineDeed.isRevivalOf, same]
  | rest deeds_eq revives =>
      have kept : more.countP (FineDeed.isRevivalOf t) = 0 := by
        rw [List.countP_eq_zero]
        intro e member
        cases e with
        | revived t' next => exact absurd member (revives t' next)
        | _ => simp [FineDeed.isRevivalOf]
      rw [deeds_eq, kept]
      rfl

theorem Run.reportsDeaths (run : Run Operation.IsSincere (ofRegistries n config) log f) :
    f.ReportsDeaths log := by
  induction run with
  | refl =>
      intro t
      rfl
  | snoc run step ih => exact step.reportsDeaths run.isPublic.sound ih

/-- A run from `start` to `f` that goes from `x` to `y` in one fine step. -/
def Passes (start : FineWorld σ) (log : List FineDeed) (f x y : FineWorld σ) : Prop :=
  ∃ log₁ more log₂, log = log₁ ++ more ++ log₂ ∧ Run Operation.IsSincere start log₁ x ∧
    Step Operation.IsSincere x more y ∧ Run Operation.IsSincere y log₂ f

theorem Passes.snoc {start x y : FineWorld σ} (passes : Passes start log f x y)
    (step : Step Operation.IsSincere f more g) : Passes start (log ++ more) g x y := by
  obtain ⟨log₁, more', log₂, rfl, earlier, now, later⟩ := passes
  exact ⟨log₁, more', log₂ ++ more, List.append_assoc .., earlier, now, later.snoc step⟩

/-- Every report of a registry was added by one fine step, and tells what this has done. -/
theorem Run.origin (run : Run Operation.IsSincere (ofRegistries n config) log f) {r : RegistryId}
    {before after : List Event} {e : Event} (split : f.world.reportsOf r = before ++ e :: after) :
    ∃ (x y : FineWorld σ) (reg reg' : Registry), Passes (ofRegistries n config) log f x y ∧
      x.world.reportsOf r = before ∧ y.world.reportsOf r = before ++ [e] ∧
      x.world.registries[r]? = some reg ∧ y.world.registries[r]? = some reg' ∧
      reg.Tells e reg' := by
  induction run generalizing after with
  | refl =>
      have unsaid : (World.ofRegistries n config : World σ).reportsOf r = [] := rfl
      simp [ofRegistries, unsaid] at split
  | @snoc log more f g run step ih =>
      cases step.reportStep run.isPublic.sound r with
      | silent reports book =>
          rw [reports] at split
          obtain ⟨x, y, reg, reg', passes, rest⟩ := ih split
          exact ⟨x, y, reg, reg', passes.snoc step, rest⟩
      | @told reg reg' e' reports reg_eq reg_eq' tells =>
          have now := split
          rw [reports] at split
          rcases List.eq_nil_or_concat after with rfl | ⟨after', last, rfl⟩
          · obtain ⟨same, last_eq⟩ := List.append_inj' split rfl
            cases last_eq
            have passes : Passes (ofRegistries n config) (log ++ more) g f g :=
              ⟨log, more, [], (List.append_nil _).symm, run, step, .refl⟩
            exact ⟨f, g, reg, reg', passes, same, now, reg_eq, reg_eq', tells⟩
          · -- a report that was there before has the origin that it had then
            rw [List.concat_eq_append, ← List.cons_append, ← List.append_assoc] at split
            obtain ⟨x, y, reg, reg', passes, rest⟩ := ih (List.append_inj' split rfl).1
            exact ⟨x, y, reg, reg', passes.snoc step, rest⟩

/-- The reports of a registry replay to its state.  After every run in which only registries report
for themselves, and for every registry:

* each of its reports was added by one step of the run, and gives the counter as the registry has it
  then, which is the number of recordings reported up to and including this one, less the number of
  deaths of threads that had an entry; and a death is reported as that of a thread with an entry
  exactly if there was one in the table just before;
* in the end the counter is the balance of all its reports, and the total the number of recordings
  among them.

The death of a thread is reported, by whatever registry, each time that it was revived, and once
more if it is dead in the end: at most once if it was never revived. -/
theorem reports_replay_registries
    (run : Run Operation.IsSincere (ofRegistries n config) log f) :
    (∀ r before e after, f.world.reportsOf r = before ++ e :: after →
      ∃ (x y : FineWorld σ) (reg reg' : Registry), Passes (ofRegistries n config) log f x y ∧
        x.world.reportsOf r = before ∧ y.world.reportsOf r = before ++ [e] ∧
        x.world.registries[r]? = some reg ∧ y.world.registries[r]? = some reg' ∧
        e.appThreads? = some reg'.appThreads ∧ (reg'.appThreads : Int) = balance (before ++ [e]) ∧
        ∀ t wasRecorded k, e = .died r t wasRecorded k → (wasRecorded = true ↔ t ∈ reg.table)) ∧
      (∀ r reg, f.world.registries[r]? = some reg →
        (reg.appThreads : Int) = balance (f.world.reportsOf r) ∧
          reg.total = (f.world.reportsOf r).countP Event.isRecording) ∧
      ∀ t, f.world.reports.countP (Event.isDeathOf t) =
          log.countP (FineDeed.isRevivalOf t) +
            (if f.world.state? t = some .died then 1 else 0) ∧
        ((∀ next, .revived t next ∉ log) → f.world.reports.countP (Event.isDeathOf t) ≤ 1) := by
  refine ⟨?_, ?_, ?_⟩
  · intro r before e after split
    obtain ⟨x, y, reg, reg', passes, said, now, reg_eq, reg_eq', tells⟩ := run.origin split
    refine ⟨x, y, reg, reg', passes, said, now, reg_eq, reg_eq', tells.count, ?_, tells.found r⟩
    obtain ⟨log₁, more, log₂, _, earlier, step, _⟩ := passes
    have balanced := (earlier.snoc step).balanced r
    rw [now, World.book?, reg_eq'] at balanced
    exact balanced.count reg'.book rfl
  · intro r reg reg_eq
    have balanced := run.balanced r
    rw [World.book?, reg_eq] at balanced
    exact ⟨balanced.count reg.book rfl, balanced.total reg.book rfl⟩
  · intro t
    refine ⟨run.reportsDeaths t, ?_⟩
    intro revives
    have never : log.countP (FineDeed.isRevivalOf t) = 0 := by
      rw [List.countP_eq_zero]
      intro e member
      cases e with
      | revived t' next =>
          have other : t' ≠ t := by
            rintro rfl
            exact revives next member
          simp [FineDeed.isRevivalOf, other]
      | _ => simp [FineDeed.isRevivalOf]
    rw [run.reportsDeaths t, never, Nat.zero_add]
    split
    · exact Nat.le_refl 1
    · exact Nat.zero_le 1

/-- The entry point is started without being recorded, an application thread is recorded twice and
its body aborts, and another one is launched while its state is changed.  One entry of the second is
left, and one death was reported of it. -/
theorem reports_replay_of_abort_and_launch :
    ∃ (log : List FineDeed) (f : FineWorld Activation),
      Run Operation.IsSincere (ofRegistries 1 ConfigCell.fresh) log f ∧
      f.world.reportsOf 0 = [.died 0 0 false 0, .recorded 0 1 1, .recorded 0 1 2, .died 0 1 true 1,
        .recorded 0 2 2, .died 0 2 true 1] ∧
      (∃ (x y : FineWorld Activation) (reg reg' : Registry),
        Passes (ofRegistries 1 ConfigCell.fresh) log f x y ∧ x.world.registries[0]? = some reg ∧
          1 ∈ reg.table ∧ y.world.registries[0]? = some reg' ∧ reg'.appThreads = 1) ∧
      f.world.reports.countP (Event.isDeathOf 1) ≤ 1 ∧
      ∃ reg, f.world.registries[0]? = some reg ∧ reg.appThreads = 1 ∧ reg.total = 3 ∧
        (reg.appThreads : Int) = balance (f.world.reportsOf 0) ∧
        reg.total = (f.world.reportsOf 0).countP Event.isRecording := by
  let aborting : MethodRef := ⟨⟨"m", "()V", true, false, 1, 1, [], .void⟩, some 1⟩
  let program : Program :=
    ⟨⟨[promptMethod, aborting], [[.give none], [.raise "a"]]⟩, [⟨promptMethod, [.returnNothing]⟩]⟩
  let I := program.interpreter
  let ops : List (FineOperation Activation) := List.flatten
    [[.act (.main promptMethod [] ⟨0, 4, .intMachine⟩),
        .act (.application aborting [.null] ⟨0, 4, .script⟩),
        .act (.application promptMethod [.null] ⟨0, 4, .script⟩), .act (.start I 0)],
      List.replicate 5 (.act (.step I .host)),
      [.act .takeBack, .act (.add .host 0 1), .act (.add .host 0 1), .act (.start I 1)],
      List.replicate 6 (.act (.step I .host)),
      [.act .takeBack, .act (.create 2 .null), .check (.transition .host 0 2 .waiting)],
      List.replicate 4 (.act (.step I (.creator 2))), [.store 0],
      List.replicate 8 (.act (.step I (.body 2)))]
  have within : ∀ op ∈ ops, op.Within Operation.IsSincere := by
    simp [ops, I, FineOperation.Within, Operation.IsSincere, Operation.IsPublic,
      Operation.IsHonest, Program.isPublic_interpreter, Program.isHonest_interpreter]
  have seen : ((ofRegistries 1 ConfigCell.fresh : FineWorld Activation).performAll ops).map
      (fun done => (done.1, done.2.world.reportsOf 0, done.2.world.registries)) =
        some ([.deed (.built .main 0), .deed (.built .application 0),
            .deed (.built .application 0), .deed (.started 0), .deed (.retired 0 0),
            .deed (.added 0 1), .deed (.added 0 1), .deed (.started 1), .deed (.retired 0 1),
            .deed (.created 2), .checked 0 2, .deed (.moved 2 .waiting), .deed (.enlisted 0 2),
            .deed (.started 2), .deed (.retired 0 2)],
          [.died 0 0 false 0, .recorded 0 1 1, .recorded 0 1 2, .died 0 1 true 1,
            .recorded 0 2 2, .died 0 2 true 1], [⟨[1], 1, 3, []⟩]) := by decide +kernel
  obtain ⟨log, f, run, seen⟩ := exists_run_of_performAll rfl within seen
  simp only [Prod.mk.injEq] at seen
  obtain ⟨log_eq, reports_eq, registries_eq⟩ := seen
  obtain ⟨each, counts, deaths⟩ := reports_replay_registries run
  obtain ⟨x, y, reg, reg', passes, _, _, reg_eq, reg_eq', _, count, found⟩ :=
    each 0 [.died 0 0 false 0, .recorded 0 1 1, .recorded 0 1 2] (.died 0 1 true 1)
      [.recorded 0 2 2, .died 0 2 true 1] reports_eq
  have last : f.world.registries[0]? = some ⟨[1], 1, 3, []⟩ := by rw [registries_eq]; rfl
  refine ⟨log, f, run, reports_eq, ⟨x, y, reg, reg', passes, reg_eq, ?_, reg_eq', ?_⟩,
    (deaths 1).2 (by simp [log_eq]), _, last, rfl, rfl, counts 0 _ last⟩
  · exact (found 1 true 1 rfl).mp rfl
  · exact Int.ofNat.inj count

/-- A thread whose death is reported twice: an entry point is retired between the check and the
write of a change that the body of another thread asks its own registry for, and is started once
more. -/
theorem revived_thread_dies_twice :
    ∃ (log : List FineDeed) (f : FineWorld Script.Activation),
      Run Operation.IsSincere (ofRegistries 2 ConfigCell.fresh) log f ∧
        (∀ t, .reclaimed t ∉ log) ∧
        f.world.reportsOf 0 = [.died 0 0 false 0, .died 0 0 false 0] ∧
        f.world.reports.countP (Event.isDeathOf 0) = 2 := by
  let I := promptInterpreter
  let host : FineOperation Script.Activation := .act (.step I .host)
  let ops : List (FineOperation Script.Activation) := List.flatten
    [[.act (.main promptMethod [] ⟨0, 4, .script⟩),
        .act (.application promptMethod [.null] ⟨1, 4, .script⟩)], launchWriter,
      [.act (.start I 0), host, host, host, .check writerStep, host, .store 0, host,
        .act .takeBack, .act (.start I 0), host, host, host, host]]
  have within : ∀ op ∈ ops, op.Within Operation.IsSincere := by
    simp [ops, host, I, launchWriter, writerStep, FineOperation.Within, Operation.IsSincere,
      Operation.IsPublic, Operation.IsHonest, promptInterpreter, writingInterpreter,
      Script.isPublic_interpreter, Script.isHonest_interpreter]
  have done : ((ofRegistries 2 ConfigCell.fresh : FineWorld Script.Activation).performAll ops).map
      (fun done => (done.1, done.2.world.reportsOf 0,
        done.2.world.reports.countP (Event.isDeathOf 0))) =
      some ([.deed (.built .main 0), .deed (.built .application 1), .deed (.created 1),
          .deed (.enlisted 1 1), .deed (.started 1), .deed (.started 0), .checked 1 0,
          .deed (.retired 0 0), .revived 0 .waiting, .deed (.started 0), .deed (.retired 0 0)],
        [.died 0 0 false 0, .died 0 0 false 0], 2) := by decide +kernel
  obtain ⟨log, f, run, seen⟩ := exists_run_of_performAll rfl within done
  simp only [Prod.mk.injEq] at seen
  obtain ⟨log_eq, reports_eq, twice⟩ := seen
  exact ⟨log, f, run, by simp [log_eq], reports_eq, twice⟩

end FineWorld

end ThreadEngine
