import ThreadEngine.Proofs.Retirement

set_option autoImplicit false

/-!
# Bookkeeping of a registry

Whatever threads are recorded, in whatever registries and however often, the three numbers that a
registry keeps agree with its history.  The table is the history played back (`replay`): every
recording adds an entry at the end, every retirement takes out the first entry that is left of its
thread, if there is one, and nothing else touches it.  What has been recorded and is not in the
table any more has been taken out by a retirement that found it (`length_replayFrom`).
-/

namespace ThreadEngine

/-! ## Playing a history back -/

/-- A table after a deed. -/
def entriesAfter (r : RegistryId) (table : List ThreadId) : Deed → List ThreadId
  | .enlisted r' t | .added r' t => if r' = r then table ++ [t] else table
  | .retired r' t => if r' = r then table.erase t else table
  | .built .. | .installed | .created _ | .started _ | .moved .. => table

/-- Whether a deed is a retirement that finds an entry in a table. -/
def findsEntry (r : RegistryId) (table : List ThreadId) : Deed → Bool
  | .retired r' t => r' = r ∧ t ∈ table
  | .enlisted .. | .added .. | .built .. | .installed | .created _ | .started _ | .moved .. => false

/-- The table of a registry after some deeds, from the table before them. -/
def replayFrom (r : RegistryId) (table : List ThreadId) (h : List Deed) : List ThreadId :=
  h.foldl (entriesAfter r) table

/-- The number of retirements among some deeds that find an entry in a registry, from the table
before them. -/
def removalsFrom (r : RegistryId) : List ThreadId → List Deed → Nat
  | _, [] => 0
  | table, d :: h =>
    (findsEntry r table d).toNat + removalsFrom r (entriesAfter r table d) h

/-- The table of a registry that a history leaves. -/
def replay (r : RegistryId) (h : List Deed) : List ThreadId := replayFrom r [] h

/-- The number of retirements in a history that found an entry in a registry. -/
def removals (r : RegistryId) (h : List Deed) : Nat := removalsFrom r [] h

/-- A deed adds what it records to a table, and takes out what it finds there. -/
theorem length_entriesAfter (r : RegistryId) (table : List ThreadId) (d : Deed) :
    (entriesAfter r table d).length + (findsEntry r table d).toNat =
      table.length + (recordings r [d]).length := by
  cases d with
  | enlisted r' t | added r' t =>
      by_cases same : r' = r
      · simp [entriesAfter, findsEntry, recordings, same]
      · simp [entriesAfter, findsEntry, recordings, same]
  | retired r' t =>
      by_cases same : r' = r
      · by_cases present : t ∈ table
        · have shorter := List.length_erase_of_mem present
          have positive := List.length_pos_of_mem present
          simp [entriesAfter, findsEntry, recordings, same, present]
          omega
        · simp [entriesAfter, findsEntry, recordings, same, present, List.erase_of_not_mem present]
      · simp [entriesAfter, findsEntry, recordings, same]
  | built kind home | installed | created t | started t | moved t next =>
      simp [entriesAfter, findsEntry, recordings]

/-- What was recorded is in the table, or was taken out. -/
theorem length_replayFrom (r : RegistryId) (table : List ThreadId) (h : List Deed) :
    (replayFrom r table h).length + removalsFrom r table h =
      table.length + (recordings r h).length := by
  induction h generalizing table with
  | nil => rfl
  | cons d h ih =>
      have first := length_entriesAfter r table d
      have rest := ih (entriesAfter r table d)
      have split : recordings r (d :: h) = recordings r [d] ++ recordings r h :=
        recordings_append r [d] h
      have played : replayFrom r table (d :: h) = replayFrom r (entriesAfter r table d) h := rfl
      rw [split, List.length_append, played, removalsFrom]
      omega

/-- The table of a registry is its history played back. -/
theorem Ledger.History.table_eq_replay {n : Nat} {h : List Deed} {l : Ledger}
    (history : History n h l) (r : RegistryId) : l.table r = replay r h := by
  induction history with
  | nil =>
      rw [table, List.getElem?_replicate]
      split <;> rfl
  | @snoc h l d _ admits ih =>
      rw [table_after admits, ih]
      simp only [replay, replayFrom, List.foldl_append, List.foldl_cons, List.foldl_nil]
      cases d <;> rfl

namespace World

variable {σ : Type}

/-- Where a counter is right, retiring a thread does not bring it below zero. -/
theorem retire_fst_ne_countBelowZero {w : World σ} {r : RegistryId} (c : Ctx) (t : ThreadId)
    (counts : ∀ reg, w.registries[r]? = some reg → reg.appThreads = reg.table.length) :
    (w.retire c r t).1 ≠ some .countBelowZero := by
  by_cases died : w.state? t = some .died
  · unfold retire
    rw [died]
    split
    · rename_i s reg state_eq reg_eq
      cases state_eq
      simp [State.isTerminal]
    · simp
  · rw [retire_fst_eq_none c died counts]
    simp

/-- The books of every registry are right after every run, whoever was recorded there and however
often.  The counter is the number of entries, the total is the number of recordings, the table is
the history played back, and what the total has more than the counter was taken out by retirements
that found an entry.  So no retirement can bring the counter below zero. -/
theorem registry_accounts {n : Nat} {config : ConfigCell} {h : List Deed} {w : World σ}
    {r : RegistryId} {reg : Registry} (run : Run (ofRegistries n config) h w)
    (reg_eq : w.registries[r]? = some reg) :
    reg.appThreads = reg.table.length ∧ reg.total = (recordings r h).length ∧
      reg.table = replay r h ∧ reg.total = reg.appThreads + removals r h ∧
      ∀ c t, (w.retire c r t).1 ≠ some .countBelowZero := by
  obtain ⟨app_eq, total_eq⟩ := run.sound.counted reg_eq
  have table_eq : reg.table = replay r h := by
    rw [← ledger_table reg_eq]
    exact run.history.table_eq_replay r
  refine ⟨app_eq, total_eq, table_eq, ?_, ?_⟩
  · have balance := length_replayFrom r [] h
    rw [List.length_nil, Nat.zero_add] at balance
    rw [app_eq, total_eq, table_eq]
    exact balance.symm
  · intro c t
    refine retire_fst_ne_countBelowZero c t ?_
    intro reg' reg_eq'
    exact (run.sound.counted reg_eq').1

/-- An application thread is recorded twice, then the entry point and a thread of another registry;
the first one dies, and is recorded once more.  Only its first entry has gone. -/
theorem registry_accounts_of_repeated_recordings :
    ∃ (h : List Deed) (w : World Script.Activation) (reg : Registry),
      Run (ofRegistries 2 ConfigCell.fresh) h w ∧ w.registries[0]? = some reg ∧
        recordings 0 h = [0, 0, 1, 2, 0] ∧ w.state? 0 = some .died ∧ reg.table = [0, 1, 2, 0] ∧
        reg.table = replay 0 h ∧ reg.appThreads = 4 ∧ reg.total = 5 ∧ removals 0 h = 1 := by
  let I := promptInterpreter
  let ops : List (Operation Script.Activation) := List.flatten
    [[.application promptMethod [.null] ⟨0, 4, .script⟩, .main promptMethod [] ⟨0, 4, .script⟩,
        .application promptMethod [.null] ⟨1, 4, .script⟩, .add .host 0 0, .add .host 0 0,
        .add .host 0 1, .add .host 0 2, .start I 0],
      List.replicate 5 (.step I .host), [.takeBack, .add .host 0 0]]
  have isPublic : ∀ op ∈ ops, op.IsPublic := by
    simp [ops, I, Operation.IsPublic, isPublic_promptInterpreter]
  have done : ((ofRegistries 2 ConfigCell.fresh : World Script.Activation).performAll ops).map
      (fun done => (recordings 0 done.1, done.2.state? 0, done.2.registries)) =
        some ([0, 0, 1, 2, 0], some .died, [⟨[0, 1, 2, 0], 4, 5, []⟩, Registry.empty]) := rfl
  obtain ⟨h, w, run, seen⟩ := exists_run_of_performAll isPublic done
  simp only [Prod.mk.injEq] at seen
  obtain ⟨recorded, died, registries_eq⟩ := seen
  have reg_eq : w.registries[0]? = some ⟨[0, 1, 2, 0], 4, 5, []⟩ := by rw [registries_eq]; rfl
  obtain ⟨_, _, table_eq, balance, _⟩ := registry_accounts run reg_eq
  refine ⟨h, w, _, run, reg_eq, recorded, died, rfl, table_eq, rfl, rfl, ?_⟩
  have counted : 5 = 4 + removals 0 h := balance
  omega

end World

end ThreadEngine
