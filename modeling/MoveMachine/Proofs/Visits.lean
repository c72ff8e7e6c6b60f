import MoveMachine.Proofs.Budget
import MoveMachine.Proofs.Passive

set_option autoImplicit false

namespace MoveMachine

namespace Machine

variable {wiring : Wiring} {depth : Nat}

/-- A machine at work comes to a state, by steps and by looks at its pointer. -/
inductive Visits (wiring : Wiring) (depth : Nat) (start : System) : System → Prop
  | start : Visits wiring depth start start
  | step {system after : System} {result : Except MachineError Move} :
      Visits wiring depth start system → step wiring depth system = some (result, after) →
      Visits wiring depth start after
  | look {system after : System} {result : Except MachineError Bool} :
      Visits wiring depth start system → isHalted wiring depth system = some (result, after) →
      Visits wiring depth start after

namespace Visits

variable {start middle final : System}

theorem trans (first : Visits wiring depth start middle)
    (second : Visits wiring depth middle final) : Visits wiring depth start final := by
  induction second with
  | start => exact first
  | step _ stepped ih => exact ih.step stepped
  | look _ looked ih => exact ih.look looked

/-- What reads, writes and all that is allowed keep is kept all along. -/
theorem framed {may : Allowance} {R : World → World → Prop} (frame : World.Frame may R)
    (respects : wiring.Respects may) (visits : Visits wiring depth start final) :
    System.Framed R start final := by
  induction visits with
  | start => exact frame.framed_refl start
  | step _ stepped ih =>
    exact frame.framed_trans ih (frame.step_keeps respects depth _ _ _ stepped)
  | look _ looked ih =>
    exact frame.framed_trans ih (frame.isHalted_keeps respects depth _ _ _ looked)

end Visits

theorem Makes.visits {count : Nat} {system final : System}
    (makes : Makes wiring depth count system final) : Visits wiring depth system final := by
  induction makes with
  | done => exact .start
  | move stepped _ ih => exact (Visits.start.step stepped).trans ih

theorem visits_of_run {budget : Nat} {system final : System} {result : Except MachineError Nat}
    (ran : run wiring depth budget system = some (result, final)) :
    Visits wiring depth system final := by
  obtain ⟨count, reached, makes, ends⟩ := run_eq_some_iff.1 ran
  cases ends with
  | halted _ stepped => exact makes.visits.step stepped
  | failed _ _ stepped => exact makes.visits.step stepped
  | haltedLast _ looked => exact makes.visits.look looked
  | exhausted _ looked => exact makes.visits.look looked
  | failedLast _ looked => exact makes.visits.look looked

end Machine

/-- A host before and after its console was used: nothing printed is lost, nothing is read twice. -/
structure Host.ConsoleUsed (before after : Host) : Prop where
  output : before.console.output.toList <+: after.console.output.toList
  input : after.console.input <:+ before.console.input
  journal : after.journal = before.journal
  counters : after.counters = before.counters

namespace Host.ConsoleUsed

theorem refl (host : Host) : host.ConsoleUsed host :=
  ⟨List.prefix_rfl, List.suffix_rfl, rfl, rfl⟩

theorem trans {first second third : Host} (before : first.ConsoleUsed second)
    (after : second.ConsoleUsed third) : first.ConsoleUsed third where
  output := before.output.trans after.output
  input := after.input.trans before.input
  journal := after.journal.trans before.journal
  counters := after.counters.trans before.counters

theorem act (host : Host) {act : Host → Word × Host} (used : UsesConsole act) :
    host.ConsoleUsed (act host).2 := by
  rcases used with rfl | ⟨word, rfl⟩
  · unfold Host.getWord Console.get
    cases waiting : host.console.input with
    | nil => exact refl host
    | cons word rest =>
      refine ⟨List.prefix_rfl, ?_, rfl, rfl⟩
      rw [waiting]
      exact List.suffix_cons word rest
  · refine ⟨?_, List.suffix_rfl, rfl, rfl⟩
    simp only [Host.putWord, Console.put, Array.toList_push]
    exact List.prefix_append _ _

end Host.ConsoleUsed

/-- A world before and after a machine with standard devices was at work in it. -/
structure World.Continued (before after : World) : Prop where
  wiring : before.memory.SameWiring after.memory
  console : before.host.ConsoleUsed after.host

theorem World.Continued.frame : World.Frame (.passive Host.UsesConsole) World.Continued where
  refl world := ⟨.refl world.memory, .refl world.host⟩
  trans _ _ _ first second :=
    ⟨first.wiring.trans second.wiring, first.console.trans second.console⟩
  change world change direct allowed :=
    ⟨(Memory.SameWiring.frame Host.UsesConsole).change world change direct allowed,
      .refl world.host⟩
  record world address value := ⟨.record world.memory address value, .refl world.host⟩
  observe continued address value _ :=
    ⟨continued.wiring.trans (.observe _ address value), continued.console⟩
  act world _ used := ⟨.refl world.memory, .act world.host used⟩

theorem Machine.Visits.continued {depth : Nat} {start system : System}
    (visits : Visits .standard depth start system) : start.world.Continued system.world :=
  (visits.framed World.Continued.frame Wiring.standard_passive).world

end MoveMachine
