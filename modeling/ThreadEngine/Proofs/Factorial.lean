import ThreadEngine.Proofs.RecursiveCalls
import ThreadEngine.Proofs.ExactMachine
import ThreadEngine.Proofs.Grammar
import ThreadEngine.Body.Program
import Mathlib.Data.Nat.Factorial.Basic

set_option autoImplicit false

/-!
# The factorial of the int machine

The recursive factorial, for every int and every limit on the depth of the frame stack.  An
activation for an int above one needs as many frames as the int says, its own among them, and
multiplies on the way back; one for any other int needs its own frame only.  So the frames decide
first, and then the range of the ints: the factorial of 12 is an int, that of 13 is not.

`evaluates_factorial` is the induction, on the number of frames that are left; `factorial_outcome`
says it of the machine.
-/

namespace ThreadEngine.IntMachine

/-! ## What comes out -/

/-- The outcome of the factorial of an int, under a limit, with room for some more frames. -/
def factorialOutcome (limit room : Nat) (n : Int) : Outcome (Option Value) :=
  if (room : Int) < max n 1 then .error (.stackOverflow limit)
  else if n ≤ 1 then .ok (some (Value.int 1))
  else if n ≤ 12 then .ok (some (Value.int (Int32.ofNat n.toNat.factorial)))
  else .abort .multiplyOverflow

theorem factorialOutcome_of_overflow {limit room : Nat} {n : Int} (few : (room : Int) < max n 1) :
    factorialOutcome limit room n = .error (.stackOverflow limit) := if_pos few

theorem factorialOutcome_of_small {limit room : Nat} {n : Int} (enough : 1 ≤ room)
    (small : n ≤ 1) : factorialOutcome limit room n = .ok (some (Value.int 1)) := by
  have frames : ¬ (room : Int) < max n 1 := by omega
  rw [factorialOutcome, if_neg frames, if_pos small]

/-- The factorial of an int from 1 to 12 is an int. -/
theorem factorialOutcome_of_inRange {limit room : Nat} {n : Int} (positive : 1 ≤ n)
    (enough : n ≤ room) (small : n ≤ 12) :
    factorialOutcome limit room n = .ok (some (Value.int (Int32.ofNat n.toNat.factorial))) := by
  have frames : ¬ (room : Int) < max n 1 := by omega
  rw [factorialOutcome, if_neg frames]
  by_cases one : n ≤ 1
  · obtain rfl : n = 1 := by omega
    rfl
  · rw [if_neg one, if_pos small]

theorem factorialOutcome_of_large {limit room : Nat} {n : Int} (large : 13 ≤ n)
    (enough : n ≤ room) : factorialOutcome limit room n = .abort .multiplyOverflow := by
  have frames : ¬ (room : Int) < max n 1 := by omega
  have above : ¬ n ≤ 1 := by omega
  have beyond : ¬ n ≤ 12 := by omega
  rw [factorialOutcome, if_neg frames, if_neg above, if_neg beyond]

theorem factorial_le {k : Nat} (small : k ≤ 12) : k.factorial ≤ 479001600 := by
  have twelve : Nat.factorial 12 = 479001600 := by decide
  rw [← twelve]
  exact Nat.factorial_le small

theorem toInt_factorial {k : Nat} (small : k ≤ 12) :
    (Int32.ofNat k.factorial).toInt = k.factorial := by
  have bound := factorial_le small
  exact Int32.toInt_ofNat_of_lt (by omega)

/-- A factorial by the one before it. -/
theorem mul_factorial_pred {n : Int} (positive : 1 ≤ n) :
    n * ((n - 1).toNat.factorial : Int) = n.toNat.factorial := by
  obtain ⟨k, rfl⟩ : ∃ k : Nat, n = k + 1 := ⟨(n - 1).toNat, by omega⟩
  have pred_eq : ((k : Int) + 1 - 1).toNat = k := by omega
  have self_eq : ((k : Int) + 1).toNat = k + 1 := by omega
  rw [pred_eq, self_eq, Nat.factorial_succ]
  push_cast
  rfl

/-! ## One activation -/

/-- What the evaluator knows of an activation of the factorial. -/
def factorialScope (n : Int32) : Scope := ⟨factorialCode, ⟨[.int n]⟩, declaredStack⟩

section Activation

variable {lib : Library}
  {callee : MethodRef → List Value → List Int32 → Outcome (Option Value) → Prop} {n : Int32}

/-- The comparison with one decides where an activation goes on. -/
theorem effect_comparison (lib : Library) (n : Int32) :
    (factorialScope n).effect lib 2 [1, n] = .goes (if 1 < n.toInt then 5 else 3) [] := by
  have greater : n > 1 ↔ 1 < n.toInt := Int32.lt_iff_toInt_lt
  have compared : (factorialScope n).effect lib 2 [1, n] = .goes (if n > 1 then 5 else 3) [] := rfl
  rw [compared]
  simp only [greater]

theorem yields_small (small : n.toInt ≤ 1) :
    Yields lib callee (factorialScope n) (.goes 0 []) [] (.ok (some (Value.int 1))) := by
  refine .goes (.goes (.goes ?_))
  have above : ¬ 1 < n.toInt := by omega
  rw [effect_comparison, if_neg above]
  exact .goes (.goes (.ends _))

/-- The int before one that is above one. -/
theorem checked?_pred (large : 1 < n.toInt) :
    ∃ p, checked? (n.toInt - (1 : Int32).toInt) = some p ∧ p.toInt = n.toInt - 1 := by
  have one_eq : (1 : Int32).toInt = 1 := rfl
  have upper : n.toInt ≤ 2147483647 := n.toInt_le
  rw [one_eq]
  exact checked?_of_inRange ((inRange_iff _).mpr (by omega))

/-- An activation for an int above one calls the factorial of the int before, and goes on with what
comes out. -/
theorem yields_large {fact : MethodRef} {p : Int32} {out out' : List Int32}
    {r o : Outcome (Option Value)} (found : lib.find? "fact" = some ⟨fact, factorialCode⟩)
    (large : 1 < n.toInt) (pred_eq : checked? (n.toInt - (1 : Int32).toInt) = some p)
    (call : callee fact [Value.int p] out r)
    (rest : Yields lib callee (factorialScope n) ((factorialScope n).resume 10 [n] r) out' o) :
    Yields lib callee (factorialScope n) (.goes 0 []) (out ++ out') o := by
  have subtracted : (factorialScope n).effect lib 8 [1, n, n] = .goes 9 [p, n] := by
    have combined : (factorialScope n).effect lib 8 [1, n, n] =
        (factorialScope n).combine 9 (· - ·) .subtractOverflow [1, n, n] := rfl
    rw [combined]
    simp only [Scope.combine, pred_eq]
    rfl
  have invoked : (factorialScope n).effect lib 9 [p, n] = .calls fact p 10 [n] := by
    have executed : (factorialScope n).effect lib 9 [p, n] =
        (factorialScope n).execute lib 10 [p, n] (.invoke "fact") := rfl
    rw [executed]
    simp only [Scope.execute, found]
  refine .goes (.goes (.goes ?_))
  rw [effect_comparison, if_pos large]
  refine .goes (.goes (.goes (.goes ?_)))
  rw [subtracted]
  refine .goes ?_
  rw [invoked]
  exact .calls call rest

/-- The product with what the callee has handed back is the result, if it is an int. -/
theorem yields_product (lib : Library)
    (callee : MethodRef → List Value → List Int32 → Outcome (Option Value) → Prop) (n v : Int32) :
    Yields lib callee (factorialScope n)
      ((factorialScope n).resume 10 [n] (.ok (some (Value.int v)))) []
      (match checked? (n.toInt * v.toInt) with
        | some q => .ok (some (Value.int q))
        | none => .abort .multiplyOverflow) := by
  refine .goes ?_
  have combined : (factorialScope n).effect lib 10 [v, n] =
      (factorialScope n).combine 11 (· * ·) .multiplyOverflow [v, n] := rfl
  rw [combined]
  simp only [Scope.combine]
  cases checked? (n.toInt * v.toInt) with
  | none => exact .ends _
  | some q => exact .goes (.ends _)

/-- A caller of the factorial makes the outcome for its own int out of that for the int before. -/
theorem yields_resume (lib : Library)
    (callee : MethodRef → List Value → List Int32 → Outcome (Option Value) → Prop) (limit b : Nat)
    (large : 1 < n.toInt) :
    Yields lib callee (factorialScope n)
      ((factorialScope n).resume 10 [n] (factorialOutcome limit b (n.toInt - 1))) []
      (factorialOutcome limit (b + 1) n.toInt) := by
  by_cases few : (b : Int) < n.toInt - 1
  · rw [factorialOutcome_of_overflow (by omega), factorialOutcome_of_overflow (by omega)]
    exact .ends _
  by_cases beyond : 14 ≤ n.toInt
  · rw [factorialOutcome_of_large (by omega) (by omega),
      factorialOutcome_of_large (by omega) (by omega)]
    exact .ends _
  -- the callee hands back an int, and only the product can be too large
  rw [factorialOutcome_of_inRange (by omega) (by omega) (by omega)]
  have product := yields_product lib callee n (Int32.ofNat (n.toInt - 1).toNat.factorial)
  have callee_eq := toInt_factorial (k := (n.toInt - 1).toNat) (by omega)
  rw [callee_eq, mul_factorial_pred (by omega)] at product
  by_cases small : n.toInt ≤ 12
  · have bound := factorial_le (k := n.toInt.toNat) (by omega)
    obtain ⟨q, checked, q_eq⟩ := checked?_of_inRange ((inRange_iff n.toInt.toNat.factorial).mpr
      (by omega))
    rw [checked] at product
    rw [factorialOutcome_of_inRange (by omega) (by omega) small]
    have same : q = Int32.ofNat n.toInt.toNat.factorial :=
      Int32.toInt_inj.mp (q_eq.trans (toInt_factorial (by omega)).symm)
    rw [← same]
    exact product
  · have thirteen : n.toInt = 13 := by omega
    have outside : checked? (n.toInt.toNat.factorial : Int) = none := by
      rw [thirteen]
      decide
    rw [outside] at product
    rw [factorialOutcome_of_large (by omega) (by omega)]
    exact product

end Activation

/-! ## Calls -/

/-- The int machine declares the factorial with one argument slot. -/
theorem declare_factorial (isStatic isNative : Bool) (maxStack : Nat) :
    declare ⟨"fact", "(I)I", isStatic, isNative, 1, maxStack⟩ = .ok factorialMethod.method := by
  have parsed : Descriptor.parse "(I)I".toList = .ok ⟨[.int], .int⟩ := by
    refine Descriptor.parse_eq_ok_iff.mpr ⟨⟨[.basic .int], .field (.basic .int), ?_⟩, rfl, rfl⟩
    decide
  have built : MethodSpec.build ⟨"fact", "(I)I", true, false, 1, declaredStack⟩ =
      .ok factorialMethod.method := by
    simp only [MethodSpec.build, parsed]
    rfl
  simp only [declare, built]

section Calls

variable {lib : Library} {fact : MethodRef}

/-- A call of the factorial is one activation, with one frame less for the calls that it makes. -/
theorem evaluates_factorial_iff (limit budget : Nat) (n : Int32) {out : List Int32}
    {o : Outcome (Option Value)} (method_eq : fact.method = factorialMethod.method)
    (found : lib.find? "fact" = some ⟨fact, factorialCode⟩) :
    Evaluates lib limit budget fact [Value.int n] out o ↔
      match budget with
      | 0 => out = [] ∧ o = .error (.stackOverflow limit)
      | b + 1 => Yields lib (Evaluates lib limit b) (factorialScope n) (.goes 0 []) out o := by
  obtain ⟨method, place⟩ := fact
  obtain rfl : method = factorialMethod.method := method_eq
  have prepared : prepare ⟨factorialMethod.method, place⟩ [Value.int n] = .ok ⟨[.int n]⟩ := rfl
  have named : (⟨factorialMethod.method, place⟩ : MethodRef).name = "fact" := rfl
  rw [Evaluates.eq_def]
  simp only [prepared, named, found]
  cases budget with
  | zero => rfl
  | succ b => rfl

/-- The factorial of every int, on every budget. -/
theorem evaluates_factorial (limit budget : Nat) (n : Int32)
    (method_eq : fact.method = factorialMethod.method)
    (found : lib.find? "fact" = some ⟨fact, factorialCode⟩) :
    Evaluates lib limit budget fact [Value.int n] [] (factorialOutcome limit budget n.toInt) := by
  induction budget generalizing n with
  | zero =>
      rw [evaluates_factorial_iff limit 0 n method_eq found]
      exact ⟨rfl, factorialOutcome_of_overflow (by omega)⟩
  | succ b ih =>
      rw [evaluates_factorial_iff limit (b + 1) n method_eq found]
      by_cases small : n.toInt ≤ 1
      · rw [factorialOutcome_of_small (by omega) small]
        exact yields_small small
      · have large : 1 < n.toInt := by omega
        obtain ⟨p, checked, pred_eq⟩ := checked?_pred large
        have call := ih p
        rw [pred_eq] at call
        exact yields_large found large checked call (yields_resume lib _ limit b large)

end Calls

/-- The factorial of the int machine, for every int and on every thread.  Let the factorial be
declared with one argument slot, and let a context call it with an int and go on alone.  If there is
room for fewer frames than the int says, or for none, then the stack overflows.  Otherwise an int
up to 1 gives 1, one up to 12 gives its factorial, and a greater one aborts at the product that is
no int.  The context comes to this end and no other, and nothing is put out; unless it aborts, it
has its thread back as it was before the call. -/
theorem factorial_outcome (lib : Library) (c : Ctx) (thread : Thread)
    (layers : List (Layer Activation)) (fact : MethodRef) (isStatic isNative : Bool)
    (maxStack : Nat) (n : Int32) (w : World Activation)
    (declared : declare ⟨"fact", "(I)I", isStatic, isNative, 1, maxStack⟩ = .ok fact.method)
    (found : lib.find? "fact" = some ⟨fact, factorialCode⟩)
    (task_eq : w.roster.taskAt c =
      some (Task.call (interpreter lib) thread layers fact [Value.int n]).1) :
    (∀ out o, Completes lib c thread layers w out o ↔
        out = [] ∧ o = factorialOutcome thread.frames.maxDepth
          (thread.frames.maxDepth - thread.depth) n.toInt) ∧
      (n.toInt ≤ 12 →
        (Int32.ofNat n.toInt.toNat.factorial).toInt = n.toInt.toNat.factorial) := by
  have method_eq : fact.method = factorialMethod.method := by
    rw [declare_factorial] at declared
    exact (Outcome.ok.inj declared).symm
  refine ⟨fun out o => ?_, fun small => toInt_factorial (by omega)⟩
  exact completes_iff_of_evaluates task_eq (evaluates_factorial _ _ n method_eq found)

/-- A thread for the factorial, with room for some frames. -/
def factorialThread (limit : Nat) : Thread :=
  ⟨0, .main, 0, .intMachine, .empty limit, factorialMethod, [], 40⟩

/-- The host has just called the factorial. -/
def factorialWorld (limit : Nat) (n : Int32) : World Activation :=
  let built := (World.ofRegistries 1 ConfigCell.fresh).build .main factorialMethod []
    ⟨0, limit, .intMachine⟩
  (built.2.setPc 0 40).hostCall (interpreter factorialLibrary) 0 factorialMethod [Value.int n]

/-- With room for 12 frames there is the factorial of 12, but 13 is one frame too many; with room
for 13 frames, it is the product that is too large. -/
theorem factorial_outcome_at_the_edge :
    Completes factorialLibrary .host (factorialThread 12) [] (factorialWorld 12 12) []
        (.ok (some (Value.int 479001600))) ∧
      Completes factorialLibrary .host (factorialThread 12) [] (factorialWorld 12 13) []
        (.error (.stackOverflow 12)) ∧
      Completes factorialLibrary .host (factorialThread 13) [] (factorialWorld 13 13) []
        (.abort .multiplyOverflow) ∧
      (Int32.ofNat (12 : Int32).toInt.toNat.factorial).toInt = 479001600 := by
  have declared := declare_factorial true false declaredStack
  have twelve := factorial_outcome factorialLibrary .host (factorialThread 12) [] factorialMethod
    true false declaredStack 12 (factorialWorld 12 12) declared rfl rfl
  have overflow := factorial_outcome factorialLibrary .host (factorialThread 12) [] factorialMethod
    true false declaredStack 13 (factorialWorld 12 13) declared rfl rfl
  have thirteen := factorial_outcome factorialLibrary .host (factorialThread 13) [] factorialMethod
    true false declaredStack 13 (factorialWorld 13 13) declared rfl rfl
  exact ⟨(twelve.1 _ _).mpr ⟨rfl, rfl⟩, (overflow.1 _ _).mpr ⟨rfl, rfl⟩,
    (thirteen.1 _ _).mpr ⟨rfl, rfl⟩, twelve.2 (by decide)⟩

end ThreadEngine.IntMachine
