import ThreadEngine.Proofs.Accounts

set_option autoImplicit false

/-!
# Dead threads in a table

A registry is to keep its threads until they die, so that a dead thread is never counted.  This does
not hold of every run: retiring a thread takes one entry out of the table of its home, and nothing
takes out an entry that was made later, or elsewhere, or a second one.  `no_dead_entry_iff` says
exactly which histories leave a table without dead threads, and `dead_thread_counted` is a run,
made of a start and a creation, that leaves one.
-/

namespace ThreadEngine

namespace Ledger

/-- Entries of a dead thread: what is left of those made before its death, and those made after. -/
theorem Entries.mem_table_of_dead {l : Ledger} {h : List Deed} {t : ThreadId}
    (entries : Entries l h t) (died : l.state? t = some .died) (r : RegistryId) :
    t ∈ l.table r ↔
      ∃ home before after, h = before ++ .retired home t :: after ∧
        ((if home = r then 1 else 0) < (recordings r before).count t ∨ t ∈ recordings r after) := by
  cases entries with
  | live alive _ _ => exact absurd died alive
  | @dead pass before after pass_eq _ split first last counts =>
      have counted : t ∈ l.table r ↔
          (if pass.registry = r then 1 else 0) < (recordings r before).count t ∨
            t ∈ recordings r after := by
        rw [← List.count_pos_iff, ← List.count_pos_iff, counts]
        omega
      rw [counted]
      constructor
      · intro left
        exact ⟨pass.registry, before, after, split, left⟩
      · rintro ⟨home, before', after', split', left⟩
        -- a thread is retired once, so the history splits in one way only
        rw [split, List.append_cons_inj_of_notMem (first home) (last home)] at split'
        obtain ⟨rfl, same, rfl⟩ := split'
        cases same
        exact left

end Ledger

namespace World

variable {σ : Type}

/-- When a registry keeps no dead thread: after its death no thread was recorded in it again, and
before its death none more than once, or even once if the registry is not its home.  The counter is
the number of entries in any case. -/
theorem no_dead_entry_iff {n : Nat} {config : ConfigCell} {h : List Deed} {w : World σ}
    {r : RegistryId} {reg : Registry} (run : Run (ofRegistries n config) h w)
    (reg_eq : w.registries[r]? = some reg) :
    reg.appThreads = reg.table.length ∧
      ((∀ t ∈ reg.table, w.state? t ≠ some .died) ↔
        ∀ t home before after, h = before ++ .retired home t :: after →
          (recordings r before).count t ≤ (if home = r then 1 else 0) ∧
            t ∉ recordings r after) := by
  have history := run.history
  refine ⟨(run.sound.counted reg_eq).1, ?_, ?_⟩
  · intro noneDead t home before after split
    have entries := history.entries t
    have died : w.ledger.state? t = some .died := by
      refine entries.died_of_retired (r := home) ?_
      rw [split]
      exact List.mem_append_right before List.mem_cons_self
    have absent : t ∉ w.ledger.table r := by
      rw [ledger_table reg_eq]
      intro member
      rw [ledger_state?] at died
      exact noneDead t member died
    rw [entries.mem_table_of_dead died] at absent
    refine ⟨Nat.le_of_not_lt fun more => ?_, fun again => ?_⟩
    · exact absent ⟨home, before, after, split, .inl more⟩
    · exact absent ⟨home, before, after, split, .inr again⟩
  · intro tidy t member died
    rw [← ledger_state?] at died
    rw [← ledger_table reg_eq, (history.entries t).mem_table_of_dead died] at member
    obtain ⟨home, before, after, split, more | again⟩ := member
    · exact absurd (tidy t home before after split).1 (Nat.not_le_of_lt more)
    · exact (tidy t home before after split).2 again

/-- A thread that somebody records and the host starts leaves the table when it dies. -/
theorem no_dead_entry_after_start :
    ∃ (h : List Deed) (w : World Script.Activation) (reg : Registry),
      Run (ofRegistries 1 ConfigCell.fresh) h w ∧ w.registries[0]? = some reg ∧
        h = [.built .application 0, .added 0 0, .started 0, .retired 0 0] ∧
        w.state? 0 = some .died ∧ reg.appThreads = 0 ∧
        ∀ t home before after, h = before ++ .retired home t :: after →
          (recordings 0 before).count t ≤ (if home = 0 then 1 else 0) ∧
            t ∉ recordings 0 after := by
  let I := promptInterpreter
  let ops : List (Operation Script.Activation) := List.flatten
    [[.application promptMethod [.null] ⟨0, 4, .script⟩, .add .host 0 0, .start I 0],
      List.replicate 4 (.step I .host)]
  have isPublic : ∀ op ∈ ops, op.IsPublic := by
    simp [ops, I, Operation.IsPublic, isPublic_promptInterpreter]
  have done : ((ofRegistries 1 ConfigCell.fresh : World Script.Activation).performAll ops).map
      (fun done => (done.1, done.2.state? 0, done.2.registries)) =
        some ([.built .application 0, .added 0 0, .started 0, .retired 0 0], some .died,
          [⟨[], 0, 1, []⟩]) := rfl
  obtain ⟨h, w, run, seen⟩ := exists_run_of_performAll isPublic done
  simp only [Prod.mk.injEq] at seen
  obtain ⟨h_eq, died, registries_eq⟩ := seen
  have reg_eq : w.registries[0]? = some ⟨[], 0, 1, []⟩ := by rw [registries_eq]; rfl
  refine ⟨h, w, _, run, reg_eq, h_eq, died, rfl, ?_⟩
  refine (no_dead_entry_iff run reg_eq).2.mp ?_
  intro t member
  cases member

/-- A thread that was started, and has died, is created: its execution context records it before it
finds out.  When everything is over, the thread is still counted. -/
theorem dead_thread_counted :
    ∃ (h : List Deed) (w : World Script.Activation) (reg : Registry),
      Run (ofRegistries 1 ConfigCell.fresh) h w ∧ w.registries[0]? = some reg ∧
        0 ∈ reg.table ∧ w.state? 0 = some .died ∧ reg.appThreads = 1 := by
  let I := promptInterpreter
  let ops : List (Operation Script.Activation) := List.flatten
    [[.application promptMethod [.null] ⟨0, 4, .script⟩, .start I 0],
      List.replicate 5 (.step I .host), [.takeBack, .create 0 .null],
      List.replicate 4 (.step I (.creator 0)), List.replicate 7 (.step I (.body 0)),
      List.replicate 2 (.step I (.creator 0))]
  have isPublic : ∀ op ∈ ops, op.IsPublic := by
    simp [ops, I, Operation.IsPublic, isPublic_promptInterpreter]
  have done : ((ofRegistries 1 ConfigCell.fresh : World Script.Activation).performAll ops).map
      (fun done => (done.2.state? 0, done.2.registries)) =
        some (some .died, [⟨[0], 1, 1, []⟩]) := rfl
  obtain ⟨h, w, run, seen⟩ := exists_run_of_performAll isPublic done
  simp only [Prod.mk.injEq] at seen
  obtain ⟨died, registries_eq⟩ := seen
  have reg_eq : w.registries[0]? = some ⟨[0], 1, 1, []⟩ := by rw [registries_eq]; rfl
  exact ⟨h, w, _, run, reg_eq, List.mem_singleton.mpr rfl, died, rfl⟩

end World

end ThreadEngine
