import MoveMachine.Proofs.Depth
import MoveMachine.Proofs.Moves
import MoveMachine.Proofs.Reachable

/-!
The budget of a run. A run makes one step after the other. While the budget lasts, the next step
decides whether the run goes on; once it is spent, a look at the pointer tells a machine that has
halted from a budget that was too small. The look is what a step begins with, so the two ways
agree about a machine that halts or fails right there, and a budget cuts a run off without
changing anything before the cut.
-/

set_option autoImplicit false

namespace MoveMachine

open MoveMachine.Action (Terms)

/-- An error that may stop a move. Only a run has a budget. -/
def MachineError.StopsMove : MachineError → Prop
  | .budgetExhausted _ => False
  | .halted | .invalidAddress _ | .memory _ => True

theorem MachineError.OfMemory.stopsMove {error : MachineError} (cause : error.OfMemory) :
    error.StopsMove := by
  obtain ⟨cause, rfl⟩ := cause
  trivial

theorem MachineError.OfProgram.stopsMove {error : MachineError} (own : error.OfProgram) :
    error.StopsMove := by
  cases error with
  | halted | invalidAddress _ => trivial
  | budgetExhausted _ | memory _ => exact own.elim

namespace Machine

variable {wiring : Wiring} {depth : Nat} {system after : System} {error : MachineError}

private theorem inStep_within (wiring : Wiring) (depth : Nat) :
    InStep (Terms.within : Terms World World) MachineError.OfMemory wiring depth depth :=
  .of_stage Stage.simulation_within wiring.respects_all (.inl rfl)

theorem stopsMove_of_step (failed : step wiring depth system = some (.error error, after)) :
    error.StopsMove := by
  have inStep := (inStep_within wiring depth).mono fun _ => MachineError.OfMemory.stopsMove
  have steps := step_lockstep Bench.simulation_within inStep
    fun _ => MachineError.OfProgram.stopsMove
  exact (steps system system ⟨rfl, rfl⟩).error_of_left failed

theorem ofMemory_of_isHalted
    (failed : isHalted wiring depth system = some (.error error, after)) : error.OfMemory := by
  have looks := isHalted_lockstep Bench.simulation_within (inStep_within wiring depth)
  exact (looks system system ⟨rfl, rfl⟩).error_of_left failed

theorem steps_of_step {system after : System} {result : Except MachineError Move}
    (stepped : step wiring depth system = some (result, after)) :
    after.machine.steps = system.machine.steps + if result.isOk then 1 else 0 := by
  rw [step_eq] at stepped
  obtain ⟨⟨outcome, world⟩, -, same⟩ := Option.map_eq_some_iff.1 stepped
  cases outcome with
  | ok made =>
    cases same
    rfl
  | error error =>
    cases same
    rfl

theorem steps_of_isHalted {system after : System} {result : Except MachineError Bool}
    (looked : isHalted wiring depth system = some (result, after)) :
    after.machine.steps = system.machine.steps := by
  rw [isHalted_eq] at looked
  obtain ⟨⟨outcome, world⟩, -, same⟩ := Option.map_eq_some_iff.1 looked
  cases same
  rfl

theorem Makes.steps {count : Nat} {system final : System}
    (makes : Makes wiring depth count system final) :
    final.machine.steps = system.machine.steps + count := by
  induction makes with
  | done => rfl
  | @move count system next final made stepped _ ih =>
    have counted := steps_of_step stepped
    have one : (if (Except.ok made : Except MachineError Move).isOk then 1 else 0) = 1 := rfl
    omega

private theorem move_of_look {ipAddress : Address} {world after : World}
    {result : Except MachineError Word} {error : MachineError}
    (looked : readCell wiring depth ipAddress world = some (result, after))
    (ends : result = .ok 0 ∧ error = .halted ∨ result = .error error) :
    move wiring depth ipAddress world = some (.error error, after) := by
  have fetched : fetch wiring depth ipAddress world = some (.error error, after) := by
    rw [fetch, Action.bind_apply, looked]
    rcases ends with ⟨rfl, rfl⟩ | rfl
    · rfl
    · rfl
  rw [move, Action.bind_apply, fetched]

theorem step_of_look_halted {system final : System}
    (looked : isHalted wiring depth system = some (.ok true, final)) :
    step wiring depth system = some (.error .halted, final) := by
  rw [isHalted_eq] at looked
  obtain ⟨⟨result, world⟩, seen, same⟩ := Option.map_eq_some_iff.1 looked
  cases result with
  | error error => cases same
  | ok word =>
    simp only [Except.map, Prod.mk.injEq, Except.ok.injEq, decide_eq_true_eq] at same
    obtain ⟨rfl, rfl⟩ := same
    rw [step_eq, move_of_look seen (.inl ⟨rfl, rfl⟩)]
    rfl

theorem step_of_look_failed {system final : System} {error : MachineError}
    (looked : isHalted wiring depth system = some (.error error, final)) :
    step wiring depth system = some (.error error, final) := by
  rw [isHalted_eq] at looked
  obtain ⟨⟨result, world⟩, seen, same⟩ := Option.map_eq_some_iff.1 looked
  cases result with
  | ok word => cases same
  | error raised =>
    cases same
    rw [step_eq, move_of_look seen (.inr rfl)]
    rfl

def later (count : Nat) : Except MachineError Nat → Except MachineError Nat
  | .ok made => .ok (count + made)
  | .error (.budgetExhausted made) => .error (.budgetExhausted (count + made))
  | .error error => .error error

theorem later_error (count : Nat) {error : MachineError} (stops : error.StopsMove) :
    later count (.error error) = .error error := by
  cases error with
  | budgetExhausted made => exact stops.elim
  | halted | invalidAddress _ | memory _ => rfl

theorem later_later (first second : Nat) (result : Except MachineError Nat) :
    later first (later second result) = later (first + second) result := by
  match result with
  | .ok made => simp [later, Nat.add_assoc]
  | .error (.budgetExhausted made) => simp [later, Nat.add_assoc]
  | .error .halted | .error (.invalidAddress _) | .error (.memory _) => rfl

theorem run_zero (system : System) :
    run wiring depth 0 system =
      (isHalted wiring depth system).map fun outcome =>
        (match outcome.1 with
          | .ok true => .ok 0
          | .ok false => .error (.budgetExhausted 0)
          | .error error => .error error, outcome.2) := by
  rw [run, run.go, Action.bind_apply]
  rcases isHalted wiring depth system with _ | ⟨error | halted, final⟩
  · rfl
  · rfl
  · cases halted <;> rfl

private theorem go_eq (budget made : Nat) (system : System) :
    run.go wiring depth budget made system =
      (run wiring depth budget system).map (Prod.map (later made) id) := by
  induction budget generalizing made system with
  | zero =>
    rw [run_zero, run.go, Action.bind_apply]
    rcases looked : isHalted wiring depth system with _ | ⟨error | halted, final⟩
    · rfl
    · have stops := (ofMemory_of_isHalted looked).stopsMove
      simp only [Option.map_some, Prod.map_apply, later_error made stops, id]
    · cases halted <;> rfl
  | succ budget ih =>
    simp only [run, run.go]
    rcases stepped : step wiring depth system with _ | ⟨error | move, after⟩
    · rfl
    · cases error with
      | budgetExhausted _ => exact (stopsMove_of_step stepped).elim
      | halted | invalidAddress _ | memory _ => rfl
    · have further : Prod.map (later made) id ∘ Prod.map (later 1) id =
          (Prod.map (later (made + 1)) id :
            Except MachineError Nat × System → Except MachineError Nat × System) := by
        funext outcome
        show (later made (later 1 outcome.1), outcome.2) = (later (made + 1) outcome.1, outcome.2)
        rw [later_later]
      simp only [ih, Option.map_map, Nat.zero_add, further]

theorem run_succ (budget : Nat) (system : System) :
    run wiring depth (budget + 1) system =
      match step wiring depth system with
      | none => none
      | some (.ok _, after) => (run wiring depth budget after).map (Prod.map (later 1) id)
      | some (.error .halted, after) => some (.ok 0, after)
      | some (.error error, after) => some (.error error, after) := by
  simp only [run, run.go, Nat.zero_add]
  rcases step wiring depth system with _ | ⟨error | move, after⟩
  · rfl
  · cases error <;> rfl
  · exact go_eq budget 1 after

theorem Makes.run_add {count : Nat} {system reached : System}
    (makes : Makes wiring depth count system reached) (rest : Nat) :
    run wiring depth (count + rest) system =
      (run wiring depth rest reached).map (Prod.map (later count) id) := by
  rw [run, makes.run_go, go_eq, Nat.zero_add]

/--
How a run ends in what it has reached after a number of moves. While its budget lasts, a step
halts or fails; once it is spent, the last look at the pointer decides.
-/
inductive Ends (wiring : Wiring) (depth budget count : Nat) (reached : System) :
    Except MachineError Nat → System → Prop
  | halted {final : System} : count < budget →
      step wiring depth reached = some (.error .halted, final) →
      Ends wiring depth budget count reached (.ok count) final
  | failed {error : MachineError} {final : System} : count < budget → error ≠ .halted →
      step wiring depth reached = some (.error error, final) →
      Ends wiring depth budget count reached (.error error) final
  | haltedLast {final : System} : count = budget →
      isHalted wiring depth reached = some (.ok true, final) →
      Ends wiring depth budget count reached (.ok count) final
  | exhausted {final : System} : count = budget →
      isHalted wiring depth reached = some (.ok false, final) →
      Ends wiring depth budget count reached (.error (.budgetExhausted count)) final
  | failedLast {error : MachineError} {final : System} : count = budget →
      isHalted wiring depth reached = some (.error error, final) →
      Ends wiring depth budget count reached (.error error) final

namespace Ends

variable {budget count : Nat} {reached final : System} {result : Except MachineError Nat}

theorem steps (ends : Ends wiring depth budget count reached result final) :
    final.machine.steps = reached.machine.steps := by
  cases ends with
  | halted _ stepped => exact steps_of_step stepped
  | failed _ _ stepped => exact steps_of_step stepped
  | haltedLast _ looked => exact steps_of_isHalted looked
  | exhausted _ looked => exact steps_of_isHalted looked
  | failedLast _ looked => exact steps_of_isHalted looked

theorem count_le (ends : Ends wiring depth budget count reached result final) :
    count ≤ budget := by
  cases ends with
  | halted before _ => exact Nat.le_of_lt before
  | failed before _ _ => exact Nat.le_of_lt before
  | haltedLast spent _ => exact Nat.le_of_eq spent
  | exhausted spent _ => exact Nat.le_of_eq spent
  | failedLast spent _ => exact Nat.le_of_eq spent

private theorem succ (ends : Ends wiring depth budget count reached result final) :
    Ends wiring depth (budget + 1) (count + 1) reached (later 1 result) final := by
  cases ends with
  | halted before stepped =>
    rw [later, Nat.add_comm 1]
    exact .halted (by omega) stepped
  | @failed error _ before unhalted stepped =>
    rw [later_error 1 (stopsMove_of_step stepped)]
    exact .failed (by omega) unhalted stepped
  | haltedLast spent looked =>
    rw [later, Nat.add_comm 1]
    exact .haltedLast (by omega) looked
  | exhausted spent looked =>
    rw [later, Nat.add_comm 1]
    exact .exhausted (by omega) looked
  | @failedLast error _ spent looked =>
    rw [later_error 1 (ofMemory_of_isHalted looked).stopsMove]
    exact .failedLast (by omega) looked

private theorem run (ends : Ends wiring depth budget count reached result final) :
    (Machine.run wiring depth (budget - count) reached).map (Prod.map (later count) id) =
      some (result, final) := by
  cases ends with
  | halted before stepped =>
    have rest : budget - count = budget - count - 1 + 1 := by omega
    rw [rest, run_succ, stepped]
    rfl
  | @failed error _ before unhalted stepped =>
    have rest : budget - count = budget - count - 1 + 1 := by omega
    have stops := stopsMove_of_step stepped
    rw [rest, run_succ, stepped]
    cases error with
    | halted => exact absurd rfl unhalted
    | budgetExhausted _ => exact stops.elim
    | invalidAddress _ | memory _ => rfl
  | haltedLast spent looked =>
    rw [spent, Nat.sub_self, run_zero, looked]
    rfl
  | exhausted spent looked =>
    rw [spent, Nat.sub_self, run_zero, looked]
    rfl
  | @failedLast error _ spent looked =>
    have stops := (ofMemory_of_isHalted looked).stopsMove
    rw [spent, Nat.sub_self, run_zero, looked, Option.map_some, Option.map_some, Prod.map_apply,
      later_error budget stops]
    rfl

theorem further (ends : Ends wiring depth budget count reached result final)
    (settled : ∀ spent, result ≠ .error (.budgetExhausted spent)) (extra : Nat) :
    Ends wiring depth (budget + extra) count reached result final := by
  cases ends with
  | halted before stepped => exact .halted (by omega) stepped
  | failed before unhalted stepped => exact .failed (by omega) unhalted stepped
  | exhausted _ _ => exact absurd rfl (settled count)
  | haltedLast spent looked =>
    -- With budget left over, a step finds out what the last look had found.
    cases extra with
    | zero => exact .haltedLast spent looked
    | succ extra => exact .halted (by omega) (step_of_look_halted looked)
  | @failedLast error _ spent looked =>
    cases extra with
    | zero => exact .failedLast spent looked
    | succ extra =>
      obtain ⟨cause, told⟩ := ofMemory_of_isHalted looked
      have unhalted : error ≠ .halted := by
        rw [told]
        exact nofun
      exact .failed (by omega) unhalted (step_of_look_failed looked)

end Ends

/-- A run is the iterated step: it makes moves, as many as its budget at most, and ends. -/
theorem run_eq_some_iff {budget : Nat} {system final : System}
    {result : Except MachineError Nat} :
    run wiring depth budget system = some (result, final) ↔
      ∃ count reached, Makes wiring depth count system reached ∧
        Ends wiring depth budget count reached result final := by
  constructor
  · intro ran
    induction budget generalizing system result with
    | zero =>
      rw [run_zero] at ran
      obtain ⟨⟨seen, after⟩, looked, same⟩ := Option.map_eq_some_iff.1 ran
      cases same
      refine ⟨0, system, .done system, ?_⟩
      match seen with
      | .ok true => exact .haltedLast rfl looked
      | .ok false => exact .exhausted rfl looked
      | .error error => exact .failedLast rfl looked
    | succ budget ih =>
      rw [run_succ] at ran
      match stepped : step wiring depth system with
      | none =>
        rw [stepped] at ran
        cases ran
      | some (.ok made, next) =>
        rw [stepped] at ran
        obtain ⟨⟨told, after⟩, ranOn, same⟩ := Option.map_eq_some_iff.1 ran
        cases same
        obtain ⟨count, reached, makes, ends⟩ := ih ranOn
        exact ⟨count + 1, reached, .move stepped makes, ends.succ⟩
      | some (.error error, after) =>
        rw [stepped] at ran
        refine ⟨0, system, .done system, ?_⟩
        cases error with
        | halted =>
          cases ran
          exact .halted (by omega) stepped
        | budgetExhausted _ | invalidAddress _ | memory _ =>
          cases ran
          exact .failed (by omega) nofun stepped
  · rintro ⟨count, reached, makes, ends⟩
    have split : count + (budget - count) = budget := by
      have le := ends.count_le
      omega
    rw [← split, makes.run_add]
    exact ends.run

theorem run_ne_halted {budget : Nat} {system final : System} :
    run wiring depth budget system ≠ some (.error .halted, final) := by
  intro ran
  obtain ⟨count, reached, -, ends⟩ := run_eq_some_iff.1 ran
  cases ends with
  | failed _ unhalted _ => exact unhalted rfl
  | failedLast _ looked =>
    obtain ⟨cause, told⟩ := ofMemory_of_isHalted looked
    cases told

private theorem triggered_invariant (address : Address) :
    Memory.Invariant fun memory => memory.readTrigger address ≠ none where
  change := by
    intro memory triggered change
    unfold Memory.readTrigger at *
    cases change with
    | bind name place => exact triggered
    | poke place value | observe place value | record place value
      | setReadTrigger place trigger | addWriteTriggers place triggers overwrite =>
      simp only [Memory.Change.apply, Memory.cell_poke, Memory.cell_observe, Memory.cell_record,
        Memory.cell_setReadTrigger, Memory.cell_addWriteTriggers]
      split
      · rename_i same
        subst same
        simp [triggered]
      · exact triggered

private theorem isHalted_eq_self {system final : System} {result : Except MachineError Bool}
    (looked : isHalted wiring depth system = some (result, final)) (plain : PlainPointer final) :
    final = system := by
  cases triggered : system.machine.memory.readTrigger system.machine.ipAddress with
  | none =>
    rw [isHalted_of_plain triggered] at looked
    cases looked
    rfl
  | some trigger =>
    have place : final.machine.ipAddress = system.machine.ipAddress := by
      rw [isHalted_eq] at looked
      obtain ⟨⟨outcome, world⟩, -, same⟩ := Option.map_eq_some_iff.1 looked
      cases same
      rfl
    have holds : system.machine.memory.readTrigger system.machine.ipAddress ≠ none := by
      rw [triggered]
      exact nofun
    have kept := (triggered_invariant system.machine.ipAddress).isHalted holds looked
    rw [PlainPointer, place] at plain
    exact absurd plain kept

/-- What a budget, and some more of it, can do to a run from a system. -/
structure Cut (wiring : Wiring) (depth budget extra : Nat) (system : System) : Prop where
  /-- A run makes one move after another, and ends where its budget or a step ends it. -/
  iterates : ∀ result final, run wiring depth budget system = some (result, final) ↔
    ∃ count reached, Makes wiring depth count system reached ∧
      Ends wiring depth budget count reached result final
  /-- To halt is no error of a run. -/
  halts : ∀ final, run wiring depth budget system ≠ some (.error .halted, final)
  answered : ∀ count final, run wiring depth budget system = some (.ok count, final) →
    count ≤ budget ∧ final.machine.steps = system.machine.steps + count
  spent : ∀ count final,
    run wiring depth budget system = some (.error (.budgetExhausted count), final) →
    count = budget ∧ final.machine.steps = system.machine.steps + budget
  failed : ∀ error final, run wiring depth budget system = some (.error error, final) →
    error.StopsMove → ∃ count reached, count ≤ budget ∧
      Makes wiring depth count system reached ∧
      final.machine.steps = system.machine.steps + count
  /-- A run that did not want for budget is the same with more of it. -/
  settled : ∀ result final, run wiring depth budget system = some (result, final) →
    (∀ count, result ≠ .error (.budgetExhausted count)) →
    run wiring depth (budget + extra) system = some (result, final)
  /-- A run that spent its budget goes on with more of it as a run from what it had reached. -/
  resumed : ∀ reached,
    run wiring depth budget system = some (.error (.budgetExhausted budget), reached) →
    PlainPointer reached →
    run wiring depth (budget + extra) system =
      (run wiring depth extra reached).map (Prod.map (later budget) id)

/--
The budget is only a cut. A run is the iterated step and counts the moves that it makes. What a
run comes to before its budget is spent, it comes to with any greater budget; and a run that
spends its budget at a plain pointer can be taken up again as if it had not been cut.
-/
theorem cut_of_budget (wiring : Wiring) (depth budget extra : Nat) (system : System) :
    Cut wiring depth budget extra system := by
  have counted : ∀ {count : Nat} {reached final : System} {result : Except MachineError Nat},
      Makes wiring depth count system reached →
      Ends wiring depth budget count reached result final →
      final.machine.steps = system.machine.steps + count := by
    intro count reached final result makes ends
    rw [ends.steps, makes.steps]
  constructor
  case iterates => exact fun result final => run_eq_some_iff
  case halts => exact fun final => run_ne_halted
  case answered =>
    intro made final ran
    obtain ⟨count, reached, makes, ends⟩ := run_eq_some_iff.1 ran
    have same : made = count := by cases ends <;> rfl
    rw [same]
    exact ⟨ends.count_le, counted makes ends⟩
  case spent =>
    intro made final ran
    obtain ⟨count, reached, makes, ends⟩ := run_eq_some_iff.1 ran
    have steps := counted makes ends
    cases ends with
    | failed _ _ stepped => exact (stopsMove_of_step stepped).elim
    | exhausted spent _ =>
      rw [← spent]
      exact ⟨rfl, steps⟩
    | failedLast _ looked =>
      obtain ⟨cause, told⟩ := ofMemory_of_isHalted looked
      cases told
  case failed =>
    intro error final ran _
    obtain ⟨count, reached, makes, ends⟩ := run_eq_some_iff.1 ran
    exact ⟨count, reached, ends.count_le, makes, counted makes ends⟩
  case settled =>
    intro result final ran settled
    obtain ⟨count, reached, makes, ends⟩ := run_eq_some_iff.1 ran
    exact run_eq_some_iff.2 ⟨count, reached, makes, ends.further settled extra⟩
  case resumed =>
    intro after ran plain
    obtain ⟨count, reached, makes, ends⟩ := run_eq_some_iff.1 ran
    cases ends with
    | failed _ _ stepped => exact (stopsMove_of_step stepped).elim
    | exhausted _ looked =>
      -- The last look was at a plain cell, so the run goes on from where its moves had led.
      rw [isHalted_eq_self looked plain]
      exact makes.run_add extra
    | failedLast _ looked =>
      obtain ⟨cause, told⟩ := ofMemory_of_isHalted looked
      cases told

/-- Two moves, of which the second halts: cut after the first and taken up again. -/
theorem cut_of_budget_midway :
    let memory := (((({} : Memory).poke 0 4).poke 4 1).poke 5 2).poke 6 8
    ∃ reached final,
      run {} 0 1 ⟨{ memory }, {}⟩ = some (.error (.budgetExhausted 1), reached) ∧
      PlainPointer reached ∧ run {} 0 1 reached = some (.ok 1, final) ∧
      run {} 0 (1 + 1) ⟨{ memory }, {}⟩ = some (.ok 2, final) := by
  intro memory
  have computed : (run {} 0 1 ⟨{ memory }, {}⟩).map (fun outcome =>
      (outcome.1, outcome.2.machine.memory.readTrigger outcome.2.machine.ipAddress,
        (run {} 0 1 outcome.2).map (·.1))) =
        some (.error (.budgetExhausted 1), none, some (.ok 1)) := by decide
  obtain ⟨⟨_, reached⟩, cut, same⟩ := Option.map_eq_some_iff.1 computed
  simp only [Prod.mk.injEq, Option.map_eq_some_iff] at same
  obtain ⟨rfl, plain, ⟨_, final⟩, further, rfl⟩ := same
  have resumed := (cut_of_budget {} 0 1 1 ⟨{ memory }, {}⟩).resumed reached cut plain
  rw [further] at resumed
  exact ⟨reached, final, cut, plain, further, resumed⟩

end Machine

end MoveMachine
