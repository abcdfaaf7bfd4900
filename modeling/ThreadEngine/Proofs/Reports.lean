import ThreadEngine.Proofs.Ledger

set_option autoImplicit false

/-!
# Reports

A registry reports that a thread was recorded, and that a thread has died.  These events stand in
the journal among all the others, in the order in which the registries were changed.
`reports_perform` says which report an operation adds: the one of its deed (`Ledger.report?`), if it
has one, and no other.  Nobody else writes such an event, as long as no interpreter pretends to be a
registry (`Interpreter.IsHonest`).
-/

namespace ThreadEngine

/-- The registry that an event is a report of. -/
def Event.reporter? : Event → Option RegistryId
  | .recorded r .. | .died r .. => some r
  | _ => none

/-- The report in a note. -/
def Note.report? : Note → Option Event
  | .event e => if e.reporter?.isSome then some e else none
  | .abort _ | .remark _ => none

/-- Notes without a report. -/
def Quiet (notes : List Note) : Prop := ∀ n ∈ notes, n.report? = none

theorem quiet_nil : Quiet [] := List.forall_mem_nil _

theorem quiet_append {first second : List Note} (quiet : Quiet first) (quiet' : Quiet second) :
    Quiet (first ++ second) := List.forall_mem_append.mpr ⟨quiet, quiet'⟩

theorem quiet_event {e : Event} (other : e.reporter? = none) : Quiet [.event e] := by
  simp [Quiet, Note.report?, other]

theorem quiet_events {events : List Event} (others : ∀ e ∈ events, e.reporter? = none) :
    Quiet (events.map .event) := by
  rintro _ member
  obtain ⟨e, inside, rfl⟩ := List.mem_map.mp member
  simp [Note.report?, others e inside]

theorem Quiet.reports_eq_nil {notes : List Note} (quiet : Quiet notes) :
    notes.filterMap Note.report? = [] := List.filterMap_eq_nil_iff.mpr quiet

/-! ## Interpreters -/

/-- An interpreter that does not speak for a registry: among what it writes about itself there is no
event that only a registry reports. -/
def Interpreter.IsHonest {σ : Type} (I : Interpreter σ) : Prop := ∀ s t, Quiet (I.act s t).notes

/-- Whoever takes turns in an operation is an honest interpreter. -/
def Operation.IsHonest {σ : Type} : Operation σ → Prop
  | .step I _ | .call I .. | .start I _ => I.IsHonest
  | _ => True

theorem Abort.quiet_notes (a : Abort) : Quiet a.notes := by
  apply quiet_append
  · apply quiet_events
    intro e member
    cases a with
    | unreachableKind kind slot | invariant broken =>
        cases List.mem_singleton.mp member
        rfl
    | _ => cases member
  · exact List.forall_mem_singleton.mpr rfl

namespace Script

theorem quiet_remarks (remarks : List Remark) : Quiet (remarks.map .remark) := by
  rintro _ member
  obtain ⟨remark, _, rfl⟩ := List.mem_map.mp member
  rfl

theorem quiet_stepping (pc : Nat) (t : Thread) (s : Activation) (strict : Bool) (op : FrameOp) :
    Quiet (stepping pc t s strict op).notes := by
  unfold stepping
  dsimp only
  split
  · split
    · exact quiet_nil
    · exact quiet_remarks _
  · exact quiet_append (Abort.quiet_notes _) (quiet_remarks [_])
  · exact quiet_remarks _

theorem quiet_exec (lib : Library) (pc : Nat) (t : Thread) (s : Activation) (instr : Instr) :
    Quiet (exec lib pc t s instr).notes := by
  cases instr with
  | log | setPc n | jumpIfDeep depth target => exact quiet_remarks _
  | attempt op | perform op => exact quiet_stepping pc t s _ op
  | call place args mode =>
      simp only [exec]
      split
      · exact quiet_nil
      · exact quiet_nil
  | transition target next =>
      cases target with
      | self => exact quiet_nil
      | thread u => exact quiet_nil
  | _ => exact quiet_nil

theorem quiet_afterCall (t : Thread) (s : Activation) (mode : Mode) (c : Completion) :
    Quiet (afterCall t s mode c).notes := by
  unfold afterCall
  split
  · exact quiet_remarks _
  · split
    · exact quiet_nil
    · exact quiet_remarks _
  · exact quiet_remarks _
  · exact quiet_remarks _

theorem quiet_afterAnswer (t : Thread) (s : Activation) (q : Question) (a : Answer) :
    Quiet (afterAnswer t s q a).notes := by
  unfold afterAnswer
  split
  case h_5 => exact quiet_nil
  all_goals exact quiet_remarks _

/-- Scripts write remarks, and the notes of the aborts that they run into. -/
theorem isHonest_interpreter (lib : Library) : (interpreter lib).IsHonest := by
  intro s t
  change Quiet (act lib s t).notes
  unfold act
  split
  · split
    · exact quiet_nil
    · exact quiet_exec lib _ t s _
  · exact quiet_afterCall t s _ _
  · exact quiet_nil
  · exact quiet_afterAnswer t s _ _
  all_goals exact quiet_remarks _

end Script

namespace IntMachine

theorem notes_pushing (code : List Op) (pc : Nat) (f : Frame) (v : Int32) :
    (pushing code pc f v).notes = [] := by
  unfold pushing
  split <;> rfl

theorem notes_combining (code : List Op) (pc : Nat) (f : Frame) (op : Int → Int → Int)
    (overflow : Abort) : (combining code pc f op overflow).notes = [] := by
  unfold combining
  split
  · rfl
  · split
    · exact notes_pushing _ _ _ _
    · rfl

theorem notes_exec (lib : Library) (code : List Op) (pc : Nat) (f : Frame) (op : Op) :
    (exec lib code pc f op).notes = [] := by
  cases op with
  | const v => exact notes_pushing code pc f v
  | load i =>
      simp only [exec]
      split
      · exact notes_pushing _ _ _ _
      · rfl
  | sub | mul => exact notes_combining _ _ _ _ _
  | ifGreater target | emit | returnInt =>
      simp only [exec]
      split <;> rfl
  | invoke name =>
      simp only [exec]
      split
      · rfl
      · split <;> rfl
  | returnNothing => rfl

theorem notes_afterCall (code : List Op) (pc : Nat) (f : Frame) (c : Completion) :
    (afterCall code pc f c).notes = [] := by
  unfold afterCall
  split
  · rfl
  · split
    · exact notes_pushing _ _ _ _
    · rfl
  all_goals rfl

/-- The int machine writes nothing. -/
theorem notes_act (lib : Library) (s : Activation) (t : Thread) : (act lib s t).notes = [] := by
  unfold act
  split
  · rfl
  · rfl
  · split
    · rfl
    · exact notes_exec _ _ _ _ _
  · exact notes_afterCall _ _ _ _
  · rfl
  · rfl

end IntMachine

/-- Neither dialect speaks for a registry. -/
theorem Program.isHonest_interpreter (p : Program) : p.interpreter.IsHonest := by
  intro s t
  cases s with
  | script s => exact Script.isHonest_interpreter p.scripts s t
  | intMachine s =>
      change Quiet (IntMachine.act p.definitions s t).notes
      rw [IntMachine.notes_act]
      exact quiet_nil

/-! ## Tasks -/

theorem Method.reporter?_marshalFrom (m : Method) (slot : Nat) (locals : Locals)
    (args : List Value) : ∀ e ∈ (m.marshalFrom slot locals args).events, e.reporter? = none := by
  have copying (slot : Nat) (v : Value) : ∀ e ∈ (m.copyEvent? slot v).toList,
      e.reporter? = none := by
    intro e member
    rw [Option.mem_toList] at member
    unfold copyEvent? at member
    split at member
    · cases member
      rfl
    · obtain ⟨width, _, rfl⟩ := Option.map_eq_some_iff.mp member
      rfl
    · cases member
    · cases member
      rfl
  induction args generalizing slot locals with
  | nil => exact List.forall_mem_nil _
  | cons v vs ih =>
      unfold marshalFrom
      dsimp only
      split
      · exact copying slot v
      · split
        · exact copying slot v
        · exact List.forall_mem_append.mpr ⟨copying slot v, ih _ _⟩

theorem Thread.reporter?_enter (t : Thread) (m : MethodRef) (args : List Value) :
    ∀ e ∈ (t.enter m args).1, e.reporter? = none := by
  unfold enter
  dsimp only
  split
  · exact List.forall_mem_singleton.mpr rfl
  · split
    · exact List.forall_mem_singleton.mpr rfl
    · exact List.forall_mem_cons.mpr ⟨rfl, m.method.reporter?_marshalFrom 0 _ args⟩

namespace Task

variable {σ : Type} {I : Interpreter σ}

theorem quiet_call (thread : Thread) (layers : List (Layer σ)) (m : MethodRef)
    (args : List Value) : Quiet (call I thread layers m args).2 := by
  have entering := quiet_events (thread.reporter?_enter m args)
  unfold call
  generalize thread.enter m args = entered at entering ⊢
  obtain ⟨events, entry⟩ := entered
  cases entry with
  | refused e => exact entering
  | aborted a => exact quiet_append entering a.quiet_notes
  | entered thread' => exact entering

theorem quiet_runBody (thread : Thread) (layers : List (Layer σ)) (g : Guard) :
    Quiet (runBody I thread layers g).2 := by
  unfold runBody
  dsimp only
  split
  · exact Abort.quiet_notes _
  · split
    · exact Abort.quiet_notes _
    · exact quiet_call _ _ _ _

theorem quiet_start (thread : Thread) (layers : List (Layer σ)) :
    Quiet (start I thread layers).2 := by
  unfold start
  dsimp only
  split
  · exact quiet_nil
  · exact quiet_runBody _ _ _

theorem quiet_turn (honest : I.IsHonest) (task : Task σ) (s : σ) (depth : Nat) :
    Quiet (task.turn I s depth).2 := by
  unfold turn
  apply quiet_append (honest s task.thread)
  split
  · exact quiet_nil
  · exact quiet_call _ _ _ _
  · exact quiet_start _ _
  · exact quiet_nil
  · split
    · exact quiet_nil
    · exact Abort.quiet_notes _
  · exact Abort.quiet_notes _

theorem quiet_deliver (task : Task σ) (c : Completion) : Quiet (task.deliver I c).2 := by
  unfold deliver
  split
  · exact quiet_nil
  · exact quiet_nil
  · dsimp only
    split
    · exact quiet_event rfl
    · exact quiet_event rfl
    · exact quiet_nil
    · exact quiet_nil

theorem quiet_advance (honest : I.IsHonest) {task task' : Task σ} {notes : List Note}
    (advances : task.advance I = some (task', notes)) : Quiet notes := by
  unfold advance at advances
  split at advances
  · rename_i s depth _
    have quiet := quiet_turn honest task s depth
    rwa [Option.some.inj advances] at quiet
  · rename_i c _
    have quiet := quiet_deliver (I := I) task c
    rwa [Option.some.inj advances] at quiet
  · cases advances
    exact quiet_nil
  all_goals cases advances

theorem quiet_answer (task : Task σ) (a : Answer) : Quiet (task.answer I a).2 := by
  unfold answer
  split
  · exact quiet_nil
  · exact quiet_runBody _ _ _
  · exact quiet_nil
  · split
    · exact quiet_nil
    · exact quiet_event rfl
  · unfold retired
    split
    · split
      · exact Abort.quiet_notes _
      · exact Abort.quiet_notes _
    · split
      · exact quiet_nil
      · exact quiet_nil
  all_goals exact quiet_nil

end Task

/-! ## Registries -/

/-- What a registry reports of a deed. -/
def Ledger.report? (l : Ledger) : Deed → Option Event
  | .enlisted r t | .added r t =>
    l.books[r]?.map fun reg => .recorded r t (reg.add t).appThreads
  | .retired r t =>
    l.books[r]?.bind fun reg =>
      (reg.remove t).2.map fun found => .died r t found (reg.remove t).1.appThreads
  | .built .. | .installed | .created _ | .started _ | .moved .. => none

/-- Whether an entry is found does not hang on who waits. -/
theorem Registry.remove_book_snd (reg : Registry) (t : ThreadId) :
    (reg.book.remove t).2 = (reg.remove t).2 := by
  unfold Registry.remove Registry.book
  dsimp only
  split
  · split <;> rfl
  · rfl

namespace World

variable {σ : Type}

/-- What the registries have reported, in the order in which they were changed. -/
def reports (w : World σ) : List Event := w.journal.reverse.filterMap fun entry => entry.2.report?

theorem reports_note (w : World σ) (c : Ctx) (notes : List Note) :
    (w.note c notes).reports = w.reports ++ notes.filterMap Note.report? := by
  simp only [reports, note, List.reverse_append, List.reverse_reverse, List.filterMap_append,
    List.filterMap_map]
  rfl

theorem reports_note_of_quiet (w : World σ) (c : Ctx) {notes : List Note} (quiet : Quiet notes) :
    (w.note c notes).reports = w.reports := by
  rw [reports_note, quiet.reports_eq_nil, List.append_nil]

/-- The report that an optional deed adds. -/
def reportsOn (w : World σ) (d : Option Deed) : List Event := (d.bind w.ledger.report?).toList

@[simp] theorem reportsOn_none (w : World σ) : w.reportsOn none = [] := rfl

theorem reports_add (w : World σ) (c : Ctx) (r : RegistryId) (t : ThreadId) :
    (w.add c r t).reports = w.reports ++ w.reportsOn (some (.added r t)) := by
  unfold add reportsOn
  simp only [Option.bind_some, Ledger.report?, ledger, List.getElem?_map]
  split
  · rename_i missing
    simp [missing]
  · rename_i reg reg_eq
    rw [reports_note, reg_eq]
    rfl

theorem reports_retire (w : World σ) (c : Ctx) (r : RegistryId) (t : ThreadId) :
    (w.retire c r t).2.reports = w.reports ++ w.reportsOn (w.retirement? r t) := by
  unfold retire retirement? reportsOn
  cases state_eq : w.state? t with
  | none => simp
  | some s =>
      cases reg_eq : w.registries[r]? with
      | none => simp
      | some reg =>
          dsimp only
          split
          · simp
          · have found := Registry.remove_book_snd reg t
            have left := congrArg Registry.appThreads (Registry.book_remove reg t)
            have counted : ((reg.remove t).1.book).appThreads = (reg.remove t).1.appThreads := rfl
            simp only [Option.bind_some, Ledger.report?, ledger, List.getElem?_map, reg_eq,
              Option.map_some, found, ← left, counted]
            rcases reg.remove t with ⟨reg', outcome⟩
            cases outcome with
            | none => simp [reports, modifyRegistry, modifyHandle, modifyStrand]
            | some wasRecorded =>
                rw [reports_note]
                rfl

theorem reportsOn_change? (w : World σ) (t : ThreadId) (next : State) :
    w.reportsOn (w.change? t next) = [] := by
  cases change_eq : w.change? t next with
  | none => rfl
  | some d =>
      obtain ⟨rfl, _⟩ := change?_eq_some change_eq
      rfl

theorem reportsOn_creation? (w : World σ) (slot : ThreadId) :
    w.reportsOn (w.creation? slot) = [] := by
  unfold creation?
  cases w.held? slot with
  | none => rfl
  | some thread => rfl

theorem reports_transition (w : World σ) (c : Ctx) (r : RegistryId) (t : ThreadId)
    (next : State) : (w.transition c r t next).2.reports = w.reports := by
  unfold transition
  split
  · rfl
  · split
    · rfl
    · exact reports_note_of_quiet _ c (quiet_event rfl)

theorem reports_of_journal {w w' : World σ} (same : w'.journal = w.journal) :
    w'.reports = w.reports := by rw [reports, reports, same]

theorem reportsOn_requestDeed? (w : World σ) (r : Request) (stays : ∀ r' t, r ≠ .retire r' t) :
    w.reportsOn (w.requestDeed? r) = [] := by
  cases r with
  | retire r' t => exact absurd rfl (stays r' t)
  | transition r' t next => exact reportsOn_change? w t next
  | spawn slot object => exact reportsOn_creation? w slot
  | _ => rfl

/-- Serving a request reports what its deed says. -/
theorem reports_serve {w w' : World σ} {c : Ctx} {r : Request}
    (h : (w.serve c r).world? = some w') :
    w'.reports = w.reports ++ w.reportsOn (w.requestDeed? r) := by
  obtain ⟨r', t, rfl, rfl⟩ | ⟨r', t, next, rfl, rfl⟩ | ⟨stays, keeps⟩ := serve_cases h
  · exact reports_retire w c r' t
  · rw [requestDeed?, reportsOn_change?, List.append_nil, reports_transition]
  · rw [reportsOn_requestDeed? w r stays, List.append_nil, reports_of_journal keeps.journal_eq]

/-! ## Operations -/

theorem reportsOn_taskDeed?_of_advance {I : Interpreter σ} (w : World σ) {task : Task σ}
    (asks : task.request? = none) : w.reportsOn (w.taskDeed? I task) = [] := by
  unfold taskDeed?
  split
  · split
    · rfl
    · rfl
  · simp [asks]

theorem reports_stepTask {I : Interpreter σ} (honest : I.IsHonest) {w v : World σ} {c : Ctx}
    {task : Task σ} {store : World σ → Task σ → World σ}
    (stores : ∀ w task, (store w task).journal = w.journal)
    (h : w.stepTask I c task store = some v) :
    v.reports = w.reports ++ w.reportsOn (w.taskDeed? I task) := by
  obtain ⟨r, a, w', asks, served, rfl⟩ | ⟨r, r', w', asks, served, rfl⟩ |
    ⟨task', notes, asks, advanced, rfl⟩ := stepTask_cases h
  · have reached : (w.serve c r).world? = some w' := by rw [served]; rfl
    rw [reports_note_of_quiet _ c (task.quiet_answer a), reports_of_journal (stores _ _),
      reports_serve reached, taskDeed?_of_request w asks]
  · have reached : (w.serve c r).world? = some w' := by rw [served]; rfl
    rw [reports_of_journal (stores _ _), reports_serve reached, taskDeed?_of_request w asks]
  · rw [reports_note_of_quiet _ c (Task.quiet_advance honest advanced),
      reports_of_journal (stores _ _), reportsOn_taskDeed?_of_advance w asks, List.append_nil]

theorem reports_stepHost {I : Interpreter σ} (honest : I.IsHonest) {w v : World σ}
    (h : w.stepHost I = some v) : v.reports = w.reports ++ w.reportsOn (w.stepDeed? I .host) := by
  obtain ⟨slot, task, host_eq, step⟩ | ⟨r, w', host_eq, served, done⟩ := stepHost_cases h
  · simp only [stepDeed?, host_eq]
    refine reports_stepTask honest ?_ step
    exact fun _ _ => rfl
  · simp only [stepDeed?, host_eq, reportsOn_none, List.append_nil]
    have same := (keepsRecords_serveAwait served).journal_eq
    rcases done with rfl | rfl
    · exact reports_of_journal same
    · exact reports_of_journal same

theorem reports_stepBody {I : Interpreter σ} (honest : I.IsHonest) {w v : World σ} {t : ThreadId}
    (h : w.stepBody I t = some v) :
    v.reports = w.reports ++ w.reportsOn (w.stepDeed? I (.body t)) := by
  obtain ⟨s, strand_eq, ⟨thread, child_eq, _, rfl⟩ | ⟨thread, child_eq, _, _, rfl⟩ |
    ⟨thread, child_eq, rfl⟩ | ⟨thread, child_eq, rfl⟩ | ⟨task, child_eq, step⟩⟩ := stepBody_cases h
  all_goals simp only [stepDeed?, strand_eq, child_eq, Option.bind_some]
  · rw [reportsOn_none, List.append_nil]
    rfl
  · rw [reportsOn_none, List.append_nil]
    rfl
  · have announced := reports_note_of_quiet w (.body t) (quiet_event
      (e := .recording thread.id) rfl)
    rw [← announced]
    exact reports_add _ _ _ _
  · rw [reports_note_of_quiet _ _ (Task.quiet_start thread [])]
    exact (List.append_nil _).symm
  · refine reports_stepTask honest ?_ step
    exact fun _ _ => rfl

theorem reports_stepCreator {w v : World σ} {t : ThreadId} (h : w.stepCreator t = some v) :
    v.reports = w.reports := by
  obtain ⟨s, _, ⟨thread, object, _, _, rfl⟩ | ⟨thread, _, rfl⟩ | ⟨_, rfl⟩ | ⟨_, rfl⟩ |
    ⟨_, _, rfl⟩ | ⟨_, rfl⟩ | ⟨a, _, _, rfl⟩ | ⟨_, _, _, _, _, rfl⟩ | ⟨a, _, _, rfl⟩⟩ :=
    stepCreator_cases h
  · rfl
  · rfl
  · rfl
  · rfl
  · exact reports_note_of_quiet _ _ (quiet_event rfl)
  · unfold hook
    split <;> rfl
  · rfl
  · exact reports_note_of_quiet _ _ (Abort.quiet_notes _)
  · rfl

theorem reports_engage (w : World σ) (slot : ThreadId) {work : Task σ × List Note}
    (quiet : Quiet work.2) : (w.engage slot work).reports = w.reports :=
  reports_note_of_quiet (w.takeHeld slot) .host quiet

/-- An operation adds the report of its deed, if there is one, and no other. -/
theorem reports_perform {u v : World σ} {op : Operation σ} (honest : op.IsHonest)
    (done : u.perform op = some v) : v.reports = u.reports ++ u.reportsOn (u.deed? op) := by
  have plain {v : World σ} (same : v.reports = u.reports) : v.reports = u.reports ++ [] := by
    rw [List.append_nil, same]
  cases op with
  | step I c =>
      cases c with
      | host => exact reports_stepHost honest done
      | body t => exact reports_stepBody honest done
      | creator t => exact plain (reports_stepCreator done)
  | expire =>
      simp only [perform] at done
      split at done <;> cases done
      rename_i r host_eq
      simp only [expire, host_eq]
      exact plain rfl
  | application m args env =>
      simp only [perform] at done
      split at done <;> cases done
      simp only [buildApplication, deed?]
      split
      · exact plain rfl
      · exact plain rfl
  | main m args env =>
      simp only [perform] at done
      split at done <;> cases done
      exact plain rfl
  | drop slot | installConfig config | readConfig =>
      cases done
      exact plain rfl
  | setPc slot pc | editFrame slot op =>
      cases done
      simp only [setPc, editFrame, modifyHeld]
      split
      · exact plain rfl
      · exact plain rfl
  | call I slot m args =>
      simp only [perform] at done
      split at done <;> cases done
      unfold hostCall
      split
      · exact plain rfl
      · exact plain (reports_engage u slot (Task.quiet_call _ _ _ _))
  | start I slot =>
      simp only [perform] at done
      split at done <;> cases done
      simp only [hostStart, deed?]
      cases u.held? slot with
      | none => exact plain rfl
      | some thread => exact plain (reports_engage u slot (Task.quiet_start _ _))
  | takeBack =>
      simp only [perform] at done
      split at done <;> cases done
      unfold disengage
      split
      all_goals exact plain rfl
  | create slot object =>
      cases done
      simp only [deed?, reportsOn_creation?]
      unfold createHeld
      split
      · exact plain rfl
      · exact plain rfl
  | add c r t =>
      simp only [perform] at done
      split at done <;> cases done
      exact reports_add u c r t
  | transition c r t next =>
      cases done
      simp only [deed?, reportsOn_change?]
      exact plain (reports_transition u c r t next)
  | unpark t =>
      cases done
      exact plain (reports_of_journal (keepsRecords_unpark u t).journal_eq)
  | beginWait r | endWait =>
      simp only [perform] at done
      split at done <;> cases done
      exact plain rfl
  | installRegistry c =>
      cases done
      simp only [deed?]
      unfold installRegistry
      cases u.installed with
      | none => exact plain (reports_note_of_quiet _ c (quiet_event rfl))
      | some r => exact plain rfl
  | removeRegistry c =>
      cases done
      unfold removeRegistry
      split
      · exact plain rfl
      · exact plain (reports_note_of_quiet _ c (quiet_event rfl))

end World

end ThreadEngine
