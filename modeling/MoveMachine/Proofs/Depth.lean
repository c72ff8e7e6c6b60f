import MoveMachine.Proofs.MachineSimulation

set_option autoImplicit false

namespace MoveMachine

open MoveMachine.Action (Terms)

theorem Stage.simulation_within : Stage.Simulation .all (Terms.within : Terms World World) where
  lacks := trivial
  symbols := by rintro w _ ⟨rfl, -⟩; rfl
  readTrigger := by rintro w _ ⟨rfl, -⟩ address; rfl
  writeTriggers := by rintro w _ ⟨rfl, -⟩ address; rfl
  peek := by rintro w _ ⟨rfl, -⟩ address -; rfl
  writtenSince := by rintro w _ v _ ⟨rfl, rfl⟩ address; rfl
  host := by rintro w _ ⟨rfl, -⟩; rfl
  change := by rintro w _ ⟨rfl, -⟩ change - -; exact ⟨rfl, rfl⟩
  record := by rintro w _ ⟨rfl, -⟩ address value; exact ⟨rfl, rfl⟩
  observe := by rintro w _ v _ ⟨rfl, rfl⟩ address value -; exact ⟨rfl, rfl⟩
  act := by rintro w _ ⟨rfl, -⟩ act -; exact ⟨rfl, rfl⟩

theorem Bench.simulation_within :
    Bench.Simulation (Terms.within : Terms World World) (Terms.within : Terms System System) where
  lacks := id
  alone := id
  place := by rintro b _ ⟨rfl, -⟩; rfl
  take := by rintro b _ ⟨rfl, -⟩; exact ⟨rfl, rfl⟩
  back := by rintro b _ ⟨rfl, -⟩ s _ ⟨-, rfl⟩; exact ⟨rfl, rfl⟩
  count := by rintro b _ ⟨rfl, -⟩ made; exact ⟨rfl, rfl⟩

namespace Request

variable {depth deeper : Nat} (le : depth ≤ deeper)

include le

theorem perform_deeper {wiring : Wiring} {request : Request} {system after : System}
    {result : Except RequestError Reply}
    (performed : request.perform wiring depth system = some (result, after)) :
    request.perform wiring deeper system = some (result, after) := by
  -- The two depths run in lockstep, and only the smaller one may lack an outcome.
  have within := perform_lockstep Bench.simulation_within Stage.simulation_within
    wiring.respects_all (.inr ⟨trivial, le⟩) request.respects_all
  obtain ⟨_, same, -, rfl⟩ := (within system system ⟨rfl, rfl⟩).right_of_left performed
  exact same

/-- A history that has an outcome within one depth has it within every greater depth. -/
theorem performAll_deeper (wiring : Wiring) {requests : List Request} {system final : System}
    {replies : List (Except RequestError Reply)}
    (performed : performAll wiring depth requests system = some (replies, final)) :
    performAll wiring deeper requests system = some (replies, final) := by
  induction requests generalizing system replies with
  | nil => exact performed
  | cons request requests ih =>
    simp only [performAll, Option.bind_eq_bind, Option.bind_eq_some_iff] at performed ⊢
    obtain ⟨⟨reply, next⟩, first, ⟨rest, last⟩, second, ended⟩ := performed
    cases ended
    exact ⟨_, perform_deeper le first, _, ih second, rfl⟩

end Request

end MoveMachine
