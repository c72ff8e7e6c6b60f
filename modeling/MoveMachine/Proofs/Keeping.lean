import MoveMachine.Proofs.MachineSimulation

set_option autoImplicit false

namespace MoveMachine

open MoveMachine.Action (Terms Lockstep AnyError)

namespace Action

variable {σ ε α : Type}

/-- Whatever comes of an action, the state after it is related to the state before. -/
def Keeps (R : σ → σ → Prop) (action : Action σ ε α) : Prop :=
  ∀ state result changed, action state = some (result, changed) → R state changed

theorem Lockstep.keeps {R : σ → σ → Prop} {refl : ∀ s, R s s}
    {trans : ∀ s t u, R s t → R t u → R s u} {errors : ε → Prop} {x y : Action σ ε α}
    (lockstep : Lockstep (Terms.keeping R refl trans) errors x y) : Keeps R x := by
  intro state result changed ran
  obtain ⟨_, -, goes⟩ := (lockstep state state ⟨rfl, rfl, refl state⟩).right_of_left ran
  exact goes.2.2

end Action

open MoveMachine.Action (Keeps)

/-- A preorder of worlds that reads, writes and all that is allowed keep. -/
structure World.Frame (may : Allowance) (R : World → World → Prop) : Prop where
  refl : ∀ world, R world world
  trans : ∀ w v u, R w v → R v u → R w u
  change : ∀ (world : World) (change : Memory.Change), change.isDirect = true →
    may.change change → R world { world with memory := change.apply world.memory }
  record : ∀ (world : World) address value,
    R world { world with memory := world.memory.record address value }
  observe : ∀ {before after : World}, R before after → ∀ address value,
    before.memory.readTrigger address ≠ none →
    R before { after with memory := after.memory.observe address value }
  act : ∀ (world : World) act, may.act act → R world { world with host := (act world.host).2 }

/-- A system before and after, with its instruction pointer in one place. -/
structure System.Framed (R : World → World → Prop) (before after : System) : Prop where
  ipAddress : after.machine.ipAddress = before.machine.ipAddress
  world : R before.world after.world

namespace World.Frame

variable {may : Allowance} {R : World → World → Prop} (frame : World.Frame may R)

abbrev terms : Terms World World := Terms.keeping R frame.refl frame.trans

theorem stage : Stage.Simulation may frame.terms where
  lacks := trivial
  symbols := by rintro w _ ⟨rfl, -⟩; rfl
  readTrigger := by rintro w _ ⟨rfl, -⟩ address; rfl
  writeTriggers := by rintro w _ ⟨rfl, -⟩ address; rfl
  peek := by rintro w _ ⟨rfl, -⟩ address -; rfl
  writtenSince := by rintro w _ v _ ⟨rfl, rfl, -⟩ address; rfl
  host := by rintro w _ ⟨rfl, -⟩; rfl
  change := by
    rintro w _ ⟨rfl, -⟩ change direct allowed
    exact ⟨rfl, rfl, frame.change w change direct allowed⟩
  record := by
    rintro w _ ⟨rfl, -⟩ address value
    exact ⟨rfl, rfl, frame.record w address value⟩
  observe := by
    rintro w _ v _ ⟨rfl, rfl, related⟩ address value triggered
    exact ⟨rfl, rfl, frame.observe related address value triggered⟩
  act := by
    rintro w _ ⟨rfl, -⟩ act allowed
    exact ⟨rfl, rfl, frame.act w act allowed⟩

include frame

theorem framed_refl (system : System) : System.Framed R system system :=
  ⟨rfl, frame.refl system.world⟩

theorem framed_trans {s t u : System} (first : System.Framed R s t)
    (second : System.Framed R t u) : System.Framed R s u :=
  ⟨second.ipAddress.trans first.ipAddress, frame.trans _ _ _ first.world second.world⟩

theorem keeps_framed {ε α : Type} {errors : ε → Prop} {x y : Operation ε α}
    (lockstep : Lockstep (Bench.ofStages frame.terms) errors x y) : Keeps (System.Framed R) x := by
  intro system result after ran
  have start : (Bench.ofStages frame.terms).goes system system system system :=
    ⟨⟨rfl, rfl, frame.refl system.world⟩, rfl, rfl, rfl⟩
  obtain ⟨_, -, ⟨-, -, related⟩, -, place, -⟩ := (lockstep system system start).right_of_left ran
  exact ⟨place, related⟩

variable {wiring : Wiring} (respects : wiring.Respects may) (depth : Nat)

include respects

theorem inStep : Machine.InStep frame.terms AnyError wiring depth depth :=
  (Machine.InStep.of_stage frame.stage respects (.inl rfl)).mono fun _ _ => trivial

theorem follow_keeps {script : Script} (own : script.Respects may) :
    Keeps R (Access.follow wiring depth script) :=
  (Access.follow_lockstep frame.stage respects (.inl rfl) own).keeps

theorem fetch_keeps (ipAddress : Address) : Keeps R (Machine.fetch wiring depth ipAddress) :=
  (Machine.fetch_lockstep (frame.inStep respects depth) (fun _ _ => trivial) ipAddress).keeps

theorem step_keeps : Keeps (System.Framed R) (Machine.step wiring depth) :=
  frame.keeps_framed (Machine.step_lockstep (Bench.simulation_ofStages _)
    (frame.inStep respects depth) fun _ _ => trivial)

theorem isHalted_keeps : Keeps (System.Framed R) (Machine.isHalted wiring depth) :=
  frame.keeps_framed (Machine.isHalted_lockstep (Bench.simulation_ofStages _)
    (frame.inStep respects depth))

theorem perform_keeps {request : Request} (own : request.Respects may) :
    Keeps (System.Framed R) (request.perform wiring depth) :=
  frame.keeps_framed (Request.perform_lockstep (Bench.simulation_ofStages _) frame.stage respects
    (.inl rfl) own)

end World.Frame

end MoveMachine
