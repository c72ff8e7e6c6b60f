import MoveMachine.Proofs.Evolution
import MoveMachine.Proofs.NameResolution
import MoveMachine.Proofs.Visits

set_option autoImplicit false

namespace MoveMachine

theorem Memory.Persists.resolves {before after : Memory} (persists : before.Persists after)
    {key : CellRef} {address : Address} (resolved : before.resolve key = .ok address) :
    ∃ place, after.resolve key = .ok place := by
  cases key with
  | address number => exact ⟨number, rfl⟩
  | name name =>
    simp only [resolve_name_eq_ok_iff] at resolved ⊢
    cases bound : after.symbols.resolve name with
    | some place => exact ⟨place, .symbol bound⟩
    | none =>
      cases resolved with
      | symbol there =>
        have still := persists.bound name (by rw [there]; exact Option.some_ne_none address)
        exact absurd bound still
      | numeral _ digits number => exact ⟨address, .numeral bound digits number⟩

/--
What a machine comes to: by requests, each under whatever wiring, depth and host there are at its
time, answered or refused; by the moves of a run, made or not, however the run goes on; and with
its instruction pointer moved to another cell in between.
-/
inductive Machine.ComesTo (start : Machine) : Machine → Prop
  | start : ComesTo start start
  | relocate {machine : Machine} (ipAddress : Address) :
      ComesTo start machine → ComesTo start { machine with ipAddress }
  | perform {machine : Machine} {after : System} {result : Except RequestError Reply}
      (wiring : Wiring) (depth : Nat) (request : Request) (host : Host) :
      ComesTo start machine →
      request.perform wiring depth ⟨machine, host⟩ = some (result, after) →
      ComesTo start after.machine
  | visit {machine : Machine} {after : System} (wiring : Wiring) (depth : Nat) (host : Host) :
      ComesTo start machine → Visits wiring depth ⟨machine, host⟩ after →
      ComesTo start after.machine

theorem Memory.Persists.frame :
    World.Frame .all fun before after => before.memory.Persists after.memory where
  refl world := .refl world.memory
  trans _ _ _ := .trans
  change world change _ _ := change.persists world.memory
  record world address value := Change.persists (.record address value) world.memory
  observe kept address value _ := kept.trans (Change.persists (.observe address value) _)
  act world _ _ := .refl world.memory

theorem Machine.ComesTo.persists {start machine : Machine} (comes : start.ComesTo machine) :
    start.memory.Persists machine.memory := by
  have frame := Memory.Persists.frame
  induction comes with
  | start => exact .refl start.memory
  | relocate ipAddress _ ih => exact ih
  | perform wiring depth request host _ performed ih =>
    have framed := frame.perform_keeps wiring.respects_all depth request.respects_all _ _ _
      performed
    exact ih.trans framed.world
  | visit wiring depth host _ visits ih =>
    exact ih.trans (visits.framed frame wiring.respects_all).world

/--
Nothing is deleted: not by a request, whether it is answered or refused; not by a trigger at any
depth, whether it answers or fails; and so not by whatever history a machine goes through. A
reference that means an address has a meaning in everything that the machine comes to.
-/
theorem Machine.ComesTo.deletes_nothing :
    (∀ (wiring : Wiring) (depth : Nat) (request : Request) (before after : System)
      (result : Except RequestError Reply),
      request.perform wiring depth before = some (result, after) →
      before.machine.memory.Persists after.machine.memory) ∧
    (∀ (wiring : Wiring) (depth : Nat) (script : Script) (before after : World)
      (result : Except MemoryError Word),
      Access.follow wiring depth script before = some (result, after) →
      before.memory.Persists after.memory) ∧
    ∀ start machine : Machine, start.ComesTo machine →
      start.memory.Persists machine.memory ∧
      ∀ key address, start.memory.resolve key = .ok address →
        ∃ place, machine.memory.resolve key = .ok place := by
  refine ⟨?_, ?_, ?_⟩
  · intro wiring depth request before after result performed
    exact (Memory.Persists.frame.perform_keeps wiring.respects_all depth request.respects_all _ _ _
      performed).world
  · intro wiring depth script before after result followed
    exact Memory.Persists.frame.follow_keeps wiring.respects_all depth script.respects_all _ _ _
      followed
  · intro start machine comes
    exact ⟨comes.persists, fun key address resolved => comes.persists.resolves resolved⟩

/--
A write fails in its trigger, after the trigger has bound a name elsewhere and replaced the read
trigger of the cell that the name belonged to. The name still means a cell, and the cell it left
is still computed.
-/
theorem Machine.ComesTo.deletes_nothing_refused :
    let script : Script := .bind "x" 7 <| .onRead (.address 5) ⟨none, 1⟩ fun _ =>
      .fail (.device "stop")
    let wiring : Wiring := { writes := #[fun _ => script] }
    let memory := ((({} : Memory).bind "x" 5).setReadTrigger 5 ⟨none, 0⟩).addWriteTriggers 6
      [⟨none, 0⟩] false
    let start : System := ⟨{ memory }, {}⟩
    ∃ after, (Request.write (.address 6) 1).perform wiring 1 start =
        some (.error (.memory (.device "stop")), after) ∧
      memory.Persists after.machine.memory ∧
      (∃ called, Access.follow wiring 1 script start.world =
        some (.error (.device "stop"), called) ∧ memory.Persists called.memory) ∧
      memory.resolve (.name "x") = .ok 5 ∧
      (∃ place, after.machine.memory.resolve (.name "x") = .ok place) ∧
      memory.readTrigger 5 ≠ none ∧ after.machine.memory.readTrigger 5 ≠ none := by
  intro script wiring memory start
  obtain ⟨requests, scripts, comesTo⟩ := deletes_nothing
  have resolved : memory.resolve (.name "x") = .ok 5 := by decide
  have triggered : memory.readTrigger 5 ≠ none := by decide
  have refused : ((Request.write (.address 6) 1).perform wiring 1 start).map (·.1) =
      some (.error (.memory (.device "stop"))) := by
    decide
  have failed : (Access.follow wiring 1 script start.world).map (·.1) =
      some (.error (.device "stop")) := by
    decide
  obtain ⟨⟨_, after⟩, performed, rfl⟩ := Option.map_eq_some_iff.1 refused
  obtain ⟨⟨_, called⟩, followed, rfl⟩ := Option.map_eq_some_iff.1 failed
  have persists := requests wiring 1 _ start after _ performed
  have comes : ComesTo { memory } after.machine := ComesTo.start.perform wiring 1 _ {} performed
  have still := (comesTo { memory } after.machine comes).2 (.name "x") 5 resolved
  have kept := scripts wiring 1 script _ called _ followed
  exact ⟨after, performed, persists, ⟨called, followed, kept⟩, resolved, still, triggered,
    persists.readTrigger 5 triggered⟩

end MoveMachine
