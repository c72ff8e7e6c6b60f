import MoveMachine.Proofs.Devices

set_option autoImplicit false

namespace MoveMachine.Machine

variable {wiring : Wiring} {depth : Nat}

/-- A machine makes a number of moves, one after another. -/
inductive Makes (wiring : Wiring) (depth : Nat) : Nat → System → System → Prop
  | done (system : System) : Makes wiring depth 0 system system
  | move {count : Nat} {system next final : System} {made : Move} :
      step wiring depth system = some (.ok made, next) → Makes wiring depth count next final →
      Makes wiring depth (count + 1) system final

def moved? (wiring : Wiring) (depth : Nat) : Nat → System → Option System
  | 0, system => some system
  | count + 1, system =>
    match step wiring depth system with
    | some (.ok _, next) => moved? wiring depth count next
    | _ => none

theorem makes_of_moved? {count : Nat} {system final : System}
    (moved : moved? wiring depth count system = some final) :
    Makes wiring depth count system final := by
  induction count generalizing system with
  | zero =>
    cases moved
    exact .done _
  | succ count ih =>
    unfold moved? at moved
    split at moved
    · rename_i stepped
      exact .move stepped (ih moved)
    · cases moved

private theorem run_go_move {budget before : Nat} {system next : System} {made : Move}
    (stepped : step wiring depth system = some (.ok made, next)) :
    run.go wiring depth (budget + 1) before system =
      run.go wiring depth budget (before + 1) next := by
  simp only [run.go, stepped]

theorem Makes.run_go {count : Nat} {system final : System}
    (makes : Makes wiring depth count system final) (budget before : Nat) :
    run.go wiring depth (count + budget) before system =
      run.go wiring depth budget (before + count) final := by
  induction makes generalizing before with
  | done => simp
  | @move count _ _ _ _ stepped _ ih =>
    rw [Nat.add_right_comm, run_go_move stepped, ih, Nat.add_assoc, Nat.add_comm 1]

/-- The pointer is a plain cell, so looking at it changes nothing. -/
def PlainPointer (system : System) : Prop :=
  system.machine.memory.readTrigger system.machine.ipAddress = none

def pointer (system : System) : Word := system.machine.memory.peek system.machine.ipAddress

private theorem readCell_pointer {system : System} (plain : PlainPointer system) :
    readCell wiring depth system.machine.ipAddress system.world =
      some (.ok (pointer system), system.world) :=
  Action.mapError_eq_ok.2 (Access.readVia_plain rfl plain)

theorem ip_of_plain {system : System} (plain : PlainPointer system) :
    ip wiring depth system = some (.ok (pointer system), system) := by
  rw [ip_eq, readCell_pointer plain]
  rfl

theorem isHalted_of_plain {system : System} (plain : PlainPointer system) :
    isHalted wiring depth system = some (.ok (pointer system = 0), system) := by
  rw [isHalted, Action.bind_of_ok (ip_of_plain plain)]
  rfl

theorem step_of_halted {system : System} (plain : PlainPointer system)
    (zero : pointer system = 0) : step wiring depth system = some (.error .halted, system) := by
  have fetched : fetch wiring depth system.machine.ipAddress system.world =
      some (.error .halted, system.world) := by
    rw [fetch, Action.bind_of_ok (readCell_pointer plain), if_pos zero]
    rfl
  have moved : move wiring depth system.machine.ipAddress system.world =
      some (.error .halted, system.world) := by
    rw [move, Action.bind_apply, fetched]
  rw [step_eq, moved]
  rfl

theorem Makes.run_halts {count budget : Nat} {system final : System}
    (makes : Makes wiring depth count system final) (plain : PlainPointer final)
    (zero : pointer final = 0) (enough : count ≤ budget) :
    run wiring depth budget system = some (.ok count, final) := by
  obtain ⟨extra, rfl⟩ := Nat.exists_eq_add_of_le enough
  rw [run, makes.run_go, Nat.zero_add]
  cases extra with
  | zero =>
    rw [run.go, Action.bind_of_ok (isHalted_of_plain plain)]
    simp only [zero, decide_true, if_true]
    rfl
  | succ extra => simp only [run.go, step_of_halted plain zero]

theorem Makes.run_exhausts {count : Nat} {system final : System}
    (makes : Makes wiring depth count system final) (plain : PlainPointer final)
    (nonzero : pointer final ≠ 0) :
    run wiring depth count system = some (.error (.budgetExhausted count), final) := by
  have go := makes.run_go 0 0
  rw [Nat.add_zero, Nat.zero_add] at go
  rw [run, go, run.go, Action.bind_of_ok (isHalted_of_plain plain)]
  simp only [nonzero, decide_false, Bool.false_eq_true, if_false]
  rfl

end MoveMachine.Machine
