import MoveMachine.Proofs.Devices

set_option autoImplicit false

namespace MoveMachine

namespace Action

variable {σ ε β : Type}

/-- An action was taken for one item after another, and answered every time. -/
inductive Passes (act : β → Action σ ε Unit) : List β → σ → σ → Prop
  | none (state : σ) : Passes act [] state state
  | next {item : β} {items : List β} {state middle after : σ} :
      act item state = some (.ok (), middle) → Passes act items middle after →
      Passes act (item :: items) state after

/-- An action was taken for items in turn: for all, or up to the first for which it failed. -/
inductive InTurn (act : β → Action σ ε Unit) (items : List β) (state : σ) :
    Option (Except ε Unit × σ) → Prop
  | all {after : σ} : Passes act items state after → InTurn act items state (some (.ok (), after))
  | failed {earlier later : List β} {item : β} {middle after : σ} {error : ε} :
      items = earlier ++ item :: later → Passes act earlier state middle →
      act item middle = some (.error error, after) →
      InTurn act items state (some (.error error, after))
  /-- What has no outcome for one item has none for the items together. -/
  | exhausted {earlier later : List β} {item : β} {middle : σ} :
      items = earlier ++ item :: later → Passes act earlier state middle →
      act item middle = none → InTurn act items state none

variable {act : β → Action σ ε Unit}

private theorem InTurn.cons {item : β} {items : List β} {state middle : σ}
    {outcome : Option (Except ε Unit × σ)} (answered : act item state = some (.ok (), middle))
    (rest : InTurn act items middle outcome) : InTurn act (item :: items) state outcome := by
  cases rest with
  | all passes => exact .all (.next answered passes)
  | failed split passes stopped =>
    exact .failed (congrArg (item :: ·) split) (.next answered passes) stopped
  | exhausted split passes stopped =>
    exact .exhausted (congrArg (item :: ·) split) (.next answered passes) stopped

theorem forM_inTurn (act : β → Action σ ε Unit) (items : List β) (state : σ) :
    InTurn act items state (items.forM act state) := by
  induction items generalizing state with
  | nil => exact .all (.none state)
  | cons item items ih =>
    have begins : (item :: items).forM act = act item >>= fun _ => items.forM act := rfl
    have split : item :: items = [] ++ item :: items := rfl
    rw [begins, bind_apply]
    rcases outcome : act item state with _ | ⟨error | _, middle⟩
    · exact .exhausted split (.none state) outcome
    · exact .failed split (.none state) outcome
    · exact InTurn.cons outcome (ih middle)

end Action

open MoveMachine.Action (InTurn)

structure Installation where
  key : CellRef
  triggers : List WriteTrigger
  overwrite : Bool

namespace Installation

def perform (installation : Installation) : Access MemoryError Unit :=
  Access.installWrites installation.key installation.triggers installation.overwrite

/-- The installations from the last that took the place of those before it, or else all. -/
def lasting : List Installation → List Installation
  | [] => []
  | first :: later =>
    if later.any (·.overwrite) then lasting later else first :: later

private def left (present : List WriteTrigger) (history : List Installation) :
    List WriteTrigger :=
  if history.any (·.overwrite) then (lasting history).flatMap (·.triggers)
  else present ++ history.flatMap (·.triggers)

private theorem left_cons (present : List WriteTrigger) (first : Installation)
    (later : List Installation) :
    left present (first :: later) =
      left (if first.overwrite then first.triggers else present ++ first.triggers) later := by
  unfold left
  rw [List.any_cons, lasting]
  cases overwritten : later.any (·.overwrite) with
  | true => simp
  | false => cases first.overwrite <;> simp

private theorem left_nil (history : List Installation) :
    left [] history = (lasting history).flatMap (·.triggers) := by
  induction history with
  | nil => rfl
  | cons first later ih =>
    rw [left_cons, lasting]
    cases overwritten : later.any (·.overwrite) with
    | true => simp [left, overwritten]
    | false => cases first.overwrite <;> simp [left, overwritten]

private theorem perform_resolved {installation : Installation} {world : World}
    {address : Address} (resolved : world.memory.resolve installation.key = .ok address) :
    installation.perform world = some (.ok (), { world with
      memory := world.memory.addWriteTriggers address installation.triggers
        installation.overwrite }) := by
  have found : Access.resolve installation.key world = some (.ok address, world) := by
    rw [Access.resolve_apply, resolved]
  exact Action.bind_of_ok found

private theorem forM_perform (address : Address) (history : List Installation) (world : World)
    (there : ∀ installation ∈ history, world.memory.resolve installation.key = .ok address) :
    ∃ memory, history.forM perform world = some (.ok (), { world with memory }) ∧
      memory.writeTriggers address = left (world.memory.writeTriggers address) history := by
  -- Each installation changes what the next one finds, so the triggers at the start are left open.
  induction history generalizing world with
  | nil =>
    refine ⟨world.memory, rfl, ?_⟩
    simp [left]
  | cons first later ih =>
    have performed := perform_resolved (there first List.mem_cons_self)
    let next := world.memory.addWriteTriggers address first.triggers first.overwrite
    -- Installing triggers binds no name, so the references still mean the same cell.
    have still : ∀ installation ∈ later, next.resolve installation.key = .ok address :=
      fun installation listed => there installation (List.mem_cons_of_mem first listed)
    have installed : next.writeTriggers address = if first.overwrite then first.triggers
        else world.memory.writeTriggers address ++ first.triggers := by
      simp [next, Memory.writeTriggers]
    obtain ⟨memory, ran, triggers⟩ := ih { world with memory := next } still
    refine ⟨memory, (Action.bind_of_ok performed).trans ran, ?_⟩
    rw [triggers, left_cons, installed]

end Installation

/-- A memory before and after a word was recorded at an address, as a write does first. -/
structure Memory.Recorded (before : Memory) (address : Address) (value : Word)
    (after : Memory) : Prop where
  stored : after.stored address = some value
  observed : after.observed address = some value
  clock : after.clock = before.clock + 1
  writtenAt : (after.cell address).writtenAt = after.clock
  elsewhere : ∀ place, place ≠ address → after.cell place = before.cell place
  symbols : after.symbols = before.symbols
  readTrigger : ∀ place, after.readTrigger place = before.readTrigger place
  writeTriggers : ∀ place, after.writeTriggers place = before.writeTriggers place

theorem Memory.recorded_record (memory : Memory) (address : Address) (value : Word) :
    memory.Recorded address value (memory.record address value) where
  stored := by simp [Memory.stored]
  observed := by simp [Memory.observed]
  clock := rfl
  writtenAt := by simp
  elsewhere := by
    intro place other
    rw [cell_record, if_neg other.symm]
  symbols := rfl
  readTrigger := by
    intro place
    rw [Memory.readTrigger, cell_record]
    split
    · rename_i same
      rw [Memory.readTrigger, same]
    · rfl
  writeTriggers := by
    intro place
    rw [Memory.writeTriggers, cell_record]
    split
    · rename_i same
      rw [Memory.writeTriggers, same]
    · rfl

namespace Access

/--
A write calls what is installed. A cell without triggers comes to have those of the installations
since the last that took the place of the ones before. A write to a cell records its word, and
calls the triggers that the cell had when it began, in turn and with that word; the first that
fails ends the write, and what was done until then stays. A write to no cell does nothing.
-/
theorem write_calls_installed (wiring : Wiring) (depth : Nat) :
    (∀ (history : List Installation) (address : Address) (world : World),
      (∀ installation ∈ history, world.memory.resolve installation.key = .ok address) →
      world.memory.writeTriggers address = [] →
      ∃ memory, history.forM Installation.perform world = some (.ok (), { world with memory }) ∧
        memory.writeTriggers address =
          (Installation.lasting history).flatMap Installation.triggers) ∧
    (∀ (world : World) (key : CellRef) (address : Address) (value : Word),
      world.memory.resolve key = .ok address →
      ∃ recorded, world.memory.Recorded address value recorded ∧
        InTurn (fun trigger => callWrite wiring depth trigger value)
          (world.memory.writeTriggers address) { world with memory := recorded }
          (write wiring depth key value world)) ∧
    ∀ (world : World) (key : CellRef) (value : Word) (error : MemoryError),
      world.memory.resolve key = .error error →
      write wiring depth key value world = some (.error error, world) := by
  refine ⟨?_, ?_, ?_⟩
  · intro history address world there untriggered
    obtain ⟨memory, ran, triggers⟩ := Installation.forM_perform address history world there
    rw [untriggered, Installation.left_nil] at triggers
    exact ⟨memory, ran, triggers⟩
  · intro world key address value resolved
    refine ⟨_, world.memory.recorded_record address value, ?_⟩
    rw [write, writeVia_resolved resolved]
    exact Action.forM_inTurn _ _ _
  · intro world key value error unresolved
    have missing : resolve key world = some (.error error, world) := by
      rw [resolve_apply, unresolved]
    rw [write, writeVia, Action.bind_apply, missing]

/--
The first of three triggers puts another in place of all of them and writes the cell again, the
third fails. The other one runs for that nested write and for the next write, and not for this.
-/
theorem write_calls_installed_replaced :
    let note (tag : String) (word : Word) : Script :=
      .host (fun host => (0, host.record tag word)) .done
    let wiring : Wiring := { writes := #[
      fun _ => .onWrite (.address 5) [⟨none, 3⟩] true fun _ =>
        .writing (.address 5) 2 (.done 0),
      note "second", fun _ => .fail (.device "stop"), note "other"] }
    let history : List Installation := [⟨.address 5, [⟨none, 3⟩], false⟩,
      ⟨.name "x", [⟨none, 0⟩], true⟩, ⟨.address 5, [⟨none, 1⟩, ⟨none, 2⟩], false⟩]
    let start : World := ⟨({} : Memory).bind "x" 5, {}⟩
    write wiring 2 (.name "y") 7 start = some (.error (.unknownSymbol "y"), start) ∧
    ∃ memory after final,
      history.forM Installation.perform start = some (.ok (), { start with memory }) ∧
      memory.writeTriggers 5 = [⟨none, 0⟩, ⟨none, 1⟩, ⟨none, 2⟩] ∧
      write wiring 2 (.name "x") 7 { start with memory } =
        some (.error (.device "stop"), after) ∧
      (∃ recorded, memory.Recorded 5 7 recorded ∧
        InTurn (fun trigger => callWrite wiring 2 trigger 7) [⟨none, 0⟩, ⟨none, 1⟩, ⟨none, 2⟩]
          { start with memory := recorded } (some (.error (.device "stop"), after))) ∧
      after.host.journal.toList = [("other", 2), ("second", 7)] ∧
      after.memory.stored 5 = some 2 ∧
      write wiring 2 (.address 5) 9 after = some (.ok (), final) ∧
      final.host.journal.toList = [("other", 2), ("second", 7), ("other", 9)] := by
  intro note wiring history start
  have there : ∀ installation ∈ history, start.memory.resolve installation.key = .ok 5 := by
    decide
  have untriggered : start.memory.writeTriggers 5 = [] := by decide
  have unnamed : start.memory.resolve (.name "y") = .error (.unknownSymbol "y") := by decide
  obtain ⟨installs, writes, unresolved⟩ := write_calls_installed wiring 2
  obtain ⟨memory, installed, triggers⟩ := installs history 5 start there untriggered
  have named : (history.forM Installation.perform start).map
      (fun set => set.2.memory.resolve (.name "x")) = some (.ok 5) := by
    decide
  have first : ((history.forM Installation.perform start).bind fun set =>
      (write wiring 2 (.name "x") 7 set.2).map fun ran =>
        (ran.1, ran.2.host.journal.toList, ran.2.memory.stored 5)) =
      some (.error (.device "stop"), [("other", 2), ("second", 7)], some 2) := by
    decide
  have second : ((history.forM Installation.perform start).bind fun set =>
      (write wiring 2 (.name "x") 7 set.2).bind fun ran =>
        (write wiring 2 (.address 5) 9 ran.2).map fun again =>
          (again.1, again.2.host.journal.toList)) =
      some (.ok (), [("other", 2), ("second", 7), ("other", 9)]) := by
    decide
  rw [installed, Option.map_some, Option.some.injEq] at named
  rw [installed, Option.bind_some, Option.map_eq_some_iff] at first
  obtain ⟨⟨_, after⟩, written, views⟩ := first
  rw [installed, Option.bind_some, written, Option.bind_some, Option.map_eq_some_iff] at second
  obtain ⟨⟨_, final⟩, again, further⟩ := second
  simp only [Prod.mk.injEq] at views further
  obtain ⟨rfl, journal, stored⟩ := views
  obtain ⟨rfl, further⟩ := further
  obtain ⟨recorded, sets, calls⟩ := writes { start with memory } (.name "x") 5 7 named
  rw [written, triggers] at calls
  exact ⟨unresolved start (.name "y") 7 _ unnamed, memory, after, final, installed, triggers,
    written, ⟨recorded, sets, calls⟩, journal, stored, again, further⟩

end Access

end MoveMachine
