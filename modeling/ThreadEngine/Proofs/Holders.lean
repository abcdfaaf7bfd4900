import ThreadEngine.Proofs.Custody

set_option autoImplicit false

/-!
# Holders of threads, along every run

Whatever is done in whatever order, no two parties ever have a pass of the same thread, every pass
is in agreement with what everybody may observe of its thread, and a thread whose creation has begun
never leaves its creator and its own execution context (`Run.orderly`).
-/

namespace ThreadEngine

namespace Ledger

/-- The pass of a thread, as everybody may know it. -/
def pass? (l : Ledger) (t : ThreadId) : Option Pass :=
  l.cards[t]?.map fun card => ⟨t, card.kind, card.home⟩

theorem pass?_modify_state (l : Ledger) (t u : ThreadId) (next : State) :
    ((l.cards.modify u ({ · with state := next }))[t]?.map fun card =>
      (⟨t, card.kind, card.home⟩ : Pass)) = l.pass? t := by
  rw [List.getElem?_modify, pass?]
  cases l.cards[t]? with
  | none => rfl
  | some card => by_cases at_t : u = t <;> simp [at_t]

/-- Nothing that is done changes what a thread is. -/
theorem pass?_after {l : Ledger} {t : ThreadId} {pass : Pass} (d : Deed)
    (known : l.pass? t = some pass) : (l.after d).pass? t = some pass := by
  cases d with
  | built kind home =>
      obtain ⟨card, card_eq, rfl⟩ := Option.map_eq_some_iff.mp known
      have old : t < l.cards.length := (List.getElem?_eq_some_iff.mp card_eq).1
      simp [after, pass?, List.getElem?_append_left old, card_eq]
  | moved u next => exact (pass?_modify_state l t u next).trans known
  | retired r u => exact (pass?_modify_state l t u .died).trans known
  | installed | created u | started u | enlisted r u | added r u => exact known

theorem pass?_foldl {l : Ledger} {t : ThreadId} {pass : Pass} (h : List Deed)
    (known : l.pass? t = some pass) : (h.foldl after l).pass? t = some pass := by
  induction h generalizing l with
  | nil => exact known
  | cons d h ih => exact ih (pass?_after d known)

theorem lt_of_pass? {l : Ledger} {t : ThreadId} {pass : Pass} (known : l.pass? t = some pass) :
    t < l.cards.length := by
  obtain ⟨card, card_eq, _⟩ := Option.map_eq_some_iff.mp known
  exact (List.getElem?_eq_some_iff.mp card_eq).1

/-- A thread that is known after a deed was known before, or has just been built. -/
theorem pass?_of_after {l : Ledger} {t : ThreadId} {pass : Pass} {d : Deed}
    (known : (l.after d).pass? t = some pass) :
    l.pass? t = some pass ∨ ∃ kind home, d = .built kind home ∧ pass.registry = home := by
  cases before : l.pass? t with
  | some old =>
      left
      rw [← pass?_after d before]
      exact known
  | none =>
      right
      cases d with
      | built kind home =>
          refine ⟨kind, home, rfl, ?_⟩
          obtain ⟨card, card_eq, rfl⟩ := Option.map_eq_some_iff.mp known
          have missing : l.cards[t]? = none := by simpa [pass?] using before
          have short : l.cards.length ≤ t := List.getElem?_eq_none_iff.mp missing
          rw [after, List.getElem?_append_right short, List.getElem?_singleton] at card_eq
          split at card_eq
          · cases card_eq
            rfl
          · cases card_eq
      | moved u next => cases before.symm.trans ((pass?_modify_state l t u next).symm.trans known)
      | retired r u => cases before.symm.trans ((pass?_modify_state l t u .died).symm.trans known)
      | installed | created u | started u | enlisted r u | added r u =>
          cases before.symm.trans known

theorem length_books_after (l : Ledger) (d : Deed) : l.books.length ≤ (l.after d).books.length := by
  cases d <;> simp [after]

end Ledger

namespace World

variable {σ : Type}

/-- Passes are right. -/
structure Consistent (w : World σ) : Prop where
  /-- a pass says what its thread is -/
  agrees : ∀ place pass, pass ∈ w.roster.passesAt place → w.ledger.pass? pass.thread = some pass
  /-- threads report to registries that exist -/
  housed : ∀ t pass, w.ledger.pass? t = some pass → pass.registry < w.ledger.books.length

/-- Everybody's threads are in order. -/
structure Orderly (h : List Deed) (w : World σ) : Prop extends Consistent w where
  /-- nobody else has a pass of the same thread -/
  alone : ∀ p q x y, x ∈ w.roster.passesAt p → y ∈ w.roster.passesAt q → x.thread = y.thread →
    p = q
  /-- a thread that is being created, or has been, stays with its creator and its context -/
  settled : ∀ place pass, pass ∈ w.roster.passesAt place → .created pass.thread ∈ h →
    place = .strand pass.thread .creator ∨ place = .strand pass.thread .body
  /-- only threads that exist are created -/
  known : ∀ t, .created t ∈ h → t < w.ledger.cards.length

theorem length_launches (w : World σ) : w.roster.launches.length = w.ledger.cards.length := by
  simp [roster, ledger]

/-! ## One operation -/

section Step

variable {u v : World σ} {d : Option Deed} {h : List Deed}

/-- Whatever pass there is was there before, somewhere, or is that of a thread just built. -/
theorem mem_passesAt_of_custody (custody : u.roster.Custody v.roster d) {place : Place}
    {pass : Pass} (member : pass ∈ v.roster.passesAt place) :
    (∃ place', pass ∈ u.roster.passesAt place') ∨
      ∃ kind home, d = some (.built kind home) ∧ pass = ⟨u.roster.launches.length, kind, home⟩ := by
  cases custody with
  | kept _ _ keeps => exact .inl ⟨place, keeps place pass member⟩
  | handed _ _ _ hands | launched hands | created _ hands =>
      rcases hands place pass member with ⟨_, stayed⟩ | ⟨_, moved⟩
      · exact .inl ⟨_, stayed⟩
      · exact .inl ⟨_, moved⟩
  | @built kind home grows =>
      rcases grows place pass member with old | ⟨_, rfl⟩
      · exact .inl ⟨place, old⟩
      · exact .inr ⟨kind, home, rfl, rfl⟩

/-- Handing over all that is in one place does not bring a thread to two places. -/
theorem alone_of_hands {ro ro' : Roster σ} {p q : Place} (hands : ro.Hands ro' p q)
    (alone : ∀ a b x y, x ∈ ro.passesAt a → y ∈ ro.passesAt b → x.thread = y.thread → a = b)
    (a b : Place) (x y : Pass) (atA : x ∈ ro'.passesAt a) (atB : y ∈ ro'.passesAt b)
    (same : x.thread = y.thread) : a = b := by
  rcases hands a x atA with ⟨elsewhereA, wasA⟩ | ⟨toA, wasA⟩
  · rcases hands b y atB with ⟨_, wasB⟩ | ⟨_, wasB⟩
    · exact alone a b x y wasA wasB same
    · exact absurd (alone a p x y wasA wasB same) elsewhereA
  · rcases hands b y atB with ⟨elsewhereB, wasB⟩ | ⟨toB, wasB⟩
    · exact absurd (alone p b x y wasA wasB same).symm elsewhereB
    · exact toA.trans toB.symm

theorem Consistent.agrees_step (consistent : Consistent u) (custody : u.roster.Custody v.roster d)
    (ledger_eq : v.ledger = d.toList.foldl Ledger.after u.ledger) (place : Place) (pass : Pass)
    (member : pass ∈ v.roster.passesAt place) : v.ledger.pass? pass.thread = some pass := by
  rw [ledger_eq]
  rcases mem_passesAt_of_custody custody member with ⟨place', old⟩ | ⟨kind, home, rfl, rfl⟩
  · exact Ledger.pass?_foldl _ (consistent.agrees place' pass old)
  · rw [length_launches]
    simp [Ledger.after, Ledger.pass?]

theorem Orderly.alone_step (orderly : Orderly h u) (custody : u.roster.Custody v.roster d)
    (p q : Place) (x y : Pass) (atP : x ∈ v.roster.passesAt p) (atQ : y ∈ v.roster.passesAt q)
    (same : x.thread = y.thread) : p = q := by
  cases custody with
  | kept _ _ keeps => exact orderly.alone p q x y (keeps p x atP) (keeps q y atQ) same
  | handed _ _ _ hands | launched hands | created _ hands =>
      exact alone_of_hands hands orderly.alone p q x y atP atQ same
  | built grows =>
      -- the number of the new thread is that of no thread before
      have fresh (place : Place) (pass : Pass) (old : pass ∈ u.roster.passesAt place) :
          pass.thread ≠ u.roster.launches.length := by
        have lt := Ledger.lt_of_pass? (orderly.agrees place pass old)
        rw [length_launches]
        exact Nat.ne_of_lt lt
      rcases grows p x atP with oldP | ⟨newP, rfl⟩
      · rcases grows q y atQ with oldQ | ⟨newQ, rfl⟩
        · exact orderly.alone p q x y oldP oldQ same
        · exact absurd same (fresh p x oldP)
      · rcases grows q y atQ with oldQ | ⟨newQ, rfl⟩
        · exact absurd same.symm (fresh q y oldQ)
        · exact newP.trans newQ.symm

/-- A thread that was not created before is created now only if the deed says so. -/
theorem created_of_step {t : ThreadId} (was : .created t ∈ h ++ d.toList) :
    .created t ∈ h ∨ d = some (.created t) := by
  rw [List.mem_append, Option.mem_toList] at was
  exact was

theorem Orderly.settled_step (orderly : Orderly h u) (custody : u.roster.Custody v.roster d)
    (place : Place) (pass : Pass) (member : pass ∈ v.roster.passesAt place)
    (was : .created pass.thread ∈ h ++ d.toList) :
    place = .strand pass.thread .creator ∨ place = .strand pass.thread .body := by
  rcases created_of_step was with before | now
  · cases custody with
    | kept _ _ keeps => exact orderly.settled place pass (keeps place pass member) before
    | handed _ _ loose hands =>
        rcases hands place pass member with ⟨_, stayed⟩ | ⟨_, moved⟩
        · exact orderly.settled place pass stayed before
        · -- what the host has, or works on, was never created
          rcases orderly.settled _ pass moved before with from_creator | from_body
          · rcases loose with rfl | ⟨slot, rfl⟩ <;> cases from_creator
          · rcases loose with rfl | ⟨slot, rfl⟩ <;> cases from_body
    | launched hands =>
        rcases hands place pass member with ⟨_, stayed⟩ | ⟨rfl, moved⟩
        · exact orderly.settled place pass stayed before
        · rcases orderly.settled _ pass moved before with from_creator | from_body
          · cases from_creator
            exact .inr rfl
          · cases from_body
    | created only hands =>
        rcases hands place pass member with ⟨_, stayed⟩ | ⟨rfl, moved⟩
        · exact orderly.settled place pass stayed before
        · rcases orderly.settled _ pass moved before with from_creator | from_body
          · cases from_creator
          · cases from_body
    | built grows =>
        rcases grows place pass member with old | ⟨_, rfl⟩
        · exact orderly.settled place pass old before
        · have lt := orderly.known _ before
          rw [← length_launches] at lt
          exact absurd lt (Nat.lt_irrefl _)
  · cases custody with
    | kept _ creates _ => exact absurd now (creates _)
    | handed _ creates _ _ => exact absurd now (creates _)
    | launched hands => cases now
    | built grows => cases now
    | @created slot thread only hands =>
        have same : thread.id = pass.thread := Deed.created.inj (Option.some.inj now)
        rcases hands place pass member with ⟨elsewhere, stayed⟩ | ⟨place_eq, _⟩
        · -- the thread that is created is nowhere but in the host's hands
          have held : thread.pass ∈ u.roster.passesAt (.strand slot .held) := by
            rw [only]
            exact List.mem_singleton.mpr rfl
          exact absurd (orderly.alone _ _ _ _ stayed held same.symm) elsewhere
        · rw [place_eq, same]
          exact .inl rfl

theorem Orderly.known_step (orderly : Orderly h u) (custody : u.roster.Custody v.roster d)
    (ledger_eq : v.ledger = d.toList.foldl Ledger.after u.ledger) (t : ThreadId)
    (was : .created t ∈ h ++ d.toList) : t < v.ledger.cards.length := by
  have known : ∃ pass, u.ledger.pass? t = some pass := by
    rcases created_of_step was with before | now
    · have lt := orderly.known t before
      exact ⟨_, by rw [Ledger.pass?, List.getElem?_eq_getElem lt]; rfl⟩
    · cases custody with
      | kept _ creates _ => exact absurd now (creates t)
      | handed _ creates _ _ => exact absurd now (creates t)
      | launched hands => cases now
      | built grows => cases now
      | @created slot thread only hands =>
          have same : thread.id = t := Deed.created.inj (Option.some.inj now)
          have held : thread.pass ∈ u.roster.passesAt (.strand slot .held) := by
            rw [only]
            exact List.mem_singleton.mpr rfl
          refine ⟨thread.pass, ?_⟩
          rw [← same]
          exact orderly.agrees _ _ held
  obtain ⟨pass, pass_eq⟩ := known
  rw [ledger_eq]
  exact Ledger.lt_of_pass? (Ledger.pass?_foldl _ pass_eq)

theorem Consistent.housed_step (consistent : Consistent u)
    (homes : ∀ kind home, d = some (.built kind home) → home < u.ledger.books.length)
    (ledger_eq : v.ledger = d.toList.foldl Ledger.after u.ledger) (t : ThreadId) (pass : Pass)
    (known : v.ledger.pass? t = some pass) : pass.registry < v.ledger.books.length := by
  rw [ledger_eq] at known ⊢
  cases d with
  | none => exact consistent.housed t pass known
  | some e =>
      refine Nat.lt_of_lt_of_le ?_ (Ledger.length_books_after u.ledger e)
      rcases Ledger.pass?_of_after known with before | ⟨kind, home, rfl, rfl⟩
      · exact consistent.housed t pass before
      · exact homes kind _ rfl

end Step

/-- Threads are built for registries that exist. -/
theorem Shift.home_lt {u : World σ} {who : Ctx} {d : Option Deed} {ro : Roster σ} {kind : Kind}
    {home : RegistryId} (shift : Shift u who d ro) (deed_eq : d = some (.built kind home)) :
    home < u.ledger.books.length := by
  cases shift with
  | built pass_eq home_lt =>
      cases deed_eq
      simpa [ledger] using home_lt
  | rest stays retires admits => cases stays _ deed_eq
  | launchStep launch_eq step =>
      rcases step.deed with rfl | ⟨r, t, rfl⟩ <;> cases deed_eq
  | stepped task_eq step =>
      obtain ⟨other, _⟩ | ⟨stays, _⟩ | ⟨_, other⟩ := step.deed_cases deed_eq
      · cases other
      · cases stays
      · cases other
  | begun launch_eq child_eq | waits before after | called idle held_eq | started idle held_eq
  | takenBack host_eq finished | created held_eq => cases deed_eq

/-- A thread is created at most once. -/
theorem Orderly.deed_ne_created {u v : World σ} {op : Operation σ} {h : List Deed} {t : ThreadId}
    (orderly : Orderly h u) (isPublic : op.IsPublic) (done : u.perform op = some v)
    (was : .created t ∈ h) : u.deed? op ≠ some (.created t) := by
  intro deed_eq
  have custody := custody_of_shift (shift_perform isPublic done)
  rw [deed_eq] at custody
  cases custody with
  | kept _ creates _ => exact creates t rfl
  | handed _ creates _ _ => exact creates t rfl
  | @created slot thread only _ =>
      have member : thread.pass ∈ u.roster.passesAt (.strand slot .held) := by
        rw [only]
        exact List.mem_singleton.mpr rfl
      rcases orderly.settled _ _ member was with at_creator | at_body
      · cases at_creator
      · cases at_body

/-- Every operation keeps the passes right. -/
theorem consistent_perform {u v : World σ} {op : Operation σ} (isPublic : op.IsPublic)
    (done : u.perform op = some v) (consistent : Consistent u) : Consistent v := by
  have shift := shift_perform isPublic done
  have ledger_eq := ledger_perform done
  exact
    { agrees := consistent.agrees_step (custody_of_shift shift) ledger_eq
      housed := consistent.housed_step (fun _ _ => shift.home_lt) ledger_eq }

/-- Every operation keeps the threads in order. -/
theorem orderly_perform {u v : World σ} {op : Operation σ} {h : List Deed}
    (isPublic : op.IsPublic) (done : u.perform op = some v) (orderly : Orderly h u) :
    Orderly (h ++ (u.deed? op).toList) v := by
  have custody := custody_of_shift (shift_perform isPublic done)
  exact
    { toConsistent := consistent_perform isPublic done orderly.toConsistent
      alone := orderly.alone_step custody
      settled := orderly.settled_step custody
      known := orderly.known_step custody (ledger_perform done) }

/-! ## Runs -/

theorem passesAt_ofRegistries (n : Nat) (config : ConfigCell) (place : Place) :
    (ofRegistries n config : World σ).roster.passesAt place = [] := by
  cases place <;> simp [Roster.passesAt, roster, ofRegistries, Host.task?]

theorem consistent_ofRegistries (n : Nat) (config : ConfigCell) :
    Consistent (ofRegistries n config : World σ) := by
  refine ⟨?_, ?_⟩
  · intro place pass member
    rw [passesAt_ofRegistries] at member
    cases member
  · intro t pass known
    simp [Ledger.pass?, ledger, ofRegistries] at known

theorem orderly_ofRegistries (n : Nat) (config : ConfigCell) :
    Orderly [] (ofRegistries n config : World σ) := by
  refine ⟨consistent_ofRegistries n config, ?_, ?_, ?_⟩
  · intro p q x y atP
    rw [passesAt_ofRegistries] at atP
    cases atP
  · intro place pass member
    rw [passesAt_ofRegistries] at member
    cases member
  · intro t was
    cases was

/-- The threads are in order after every run from a world without threads. -/
theorem Run.orderly {n : Nat} {config : ConfigCell} {h : List Deed} {w : World σ}
    (run : Run (ofRegistries n config) h w) : Orderly h w := by
  induction run with
  | refl => exact orderly_ofRegistries n config
  | snoc op _ isPublic done ih => exact orderly_perform isPublic done ih

end World

end ThreadEngine
