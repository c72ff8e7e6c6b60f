import Mathlib.Data.Nat.Fib.Basic
import MoveMachine.Proofs.Programs

/-!
The program `fibonacci` fills memory from 48 on with the Fibonacci sequence. It keeps two
neighbours of the sequence in `tmp1` and `tmp2` and the next free address in `sp`. A round of its
loop makes ten moves: it moves the pair on by one, writes `sp` into the cell 35, which is the
target of the move that follows, stores `tmp2` with that move, and moves `sp` on by one. What it
stores lies above the program, so no round ever changes a move of a later one but that target.
-/

set_option autoImplicit false

namespace MoveMachine

namespace Fibonacci

def code : List (Address × Word) :=
  Program.fibonacci.words.filter fun entry => entry.1 ∉ [0, 20, 21, 22, 35]

/-- The program is in place, and from 48 on a board has these cells. -/
structure Intact (cells : Address → Option Word) (board : Board) : Prop where
  holds : board.Holds code
  above : ∀ address, 48 ≤ address.toNat → board.stored address = cells address

variable {cells : Address → Option Word} {board : Board}

theorem Intact.set (intact : Intact cells board) {address : Address}
    (aside : address.toNat < 48 ∧ address ∉ code.map Prod.fst) (value : Word) :
    Intact cells (board.set address value) where
  holds := intact.holds.set aside.2 value
  above other high := by
    have apart : address ≠ other := by
      rintro rfl
      omega
    rw [Board.stored_set, if_neg apart]
    exact intact.above other high

theorem Intact.store (intact : Intact cells board) {address : Address}
    (high : 48 ≤ address.toNat) (value : Word) :
    Intact (Function.update cells address (some value)) (board.set address value) where
  holds := by
    refine intact.holds.set (fun listed => ?_) value
    have low : ((code.map Prod.fst).all fun place => place.toNat < 48) = true := by decide
    have := of_decide_eq_true (List.all_eq_true.1 low address listed)
    omega
  above other highOther := by
    rw [Board.stored_set, Function.update_apply, intact.above other highOther]
    simp only [eq_comm]

theorem Intact.move (intact : Intact cells board) (ip source target : Address)
    {ipWord value next : Word} (pointed : board.word 0 = ipWord)
    (lists : Board.Lists code ⟨ipWord, ip, source, target⟩)
    (found : board.read source = (value, board))
    (aside : target ≠ 0 ∧ target ≠ 12 ∧ target.toNat < 48 ∧ target ∉ code.map Prod.fst)
    (further : Word.ofInt? (ipWord.toInt + 2) = some next) :
    board.step = some ((board.set target value).set 0 next) ∧
      Intact cells ((board.set target value).set 0 next) := by
  obtain ⟨nonzero, silent, free⟩ := aside
  have moved := intact.holds.move ip source target pointed lists found nonzero further
  rw [Board.write_of_ne silent] at moved
  exact ⟨moved, (intact.set free value).set (by decide) next⟩

/-- A board of the program between two moves. -/
structure State (pointer sp tmp1 tmp2 : Word) (cells : Address → Option Word) (board : Board) :
    Prop extends Intact cells board where
  pointer : board.word 0 = pointer
  sp : board.stored 20 = some sp
  tmp1 : board.stored 21 = some tmp1
  tmp2 : board.stored 22 = some tmp2

variable {sp tmp1 tmp2 : Word}

theorem State.sums (state : State 24 sp tmp1 tmp2 cells board) :
    ∃ next, board.steps 4 = some next ∧ State 32 sp tmp2 (tmp1 + tmp2) cells next := by
  let first := (board.set 1 tmp1).set 0 26
  let second := (first.set 2 tmp2).set 0 28
  let third := (second.set 21 tmp2).set 0 30
  let fourth := (third.set 22 (tmp1 + tmp2)).set 0 32
  obtain ⟨firstMove, firstIntact⟩ : board.step = some first ∧ Intact cells first :=
    state.move 24 21 1 state.pointer (by decide)
      (Board.read_plain (Board.word_of_stored state.tmp1) rfl) (by decide) rfl
  obtain ⟨secondMove, secondIntact⟩ : first.step = some second ∧ Intact cells second :=
    firstIntact.move 26 22 2 (Board.word_set_self ..) (by decide)
      (Board.read_plain (Board.word_of_stored state.tmp2) rfl) (by decide) rfl
  obtain ⟨thirdMove, thirdIntact⟩ : second.step = some third ∧ Intact cells third :=
    secondIntact.move 28 22 21 (Board.word_set_self ..) (by decide)
      (Board.read_plain (Board.word_of_stored state.tmp2) rfl) (by decide) rfl
  have sum : third.read 4 = (tmp1 + tmp2, third) := rfl
  obtain ⟨fourthMove, fourthIntact⟩ : third.step = some fourth ∧ Intact cells fourth :=
    thirdIntact.move 30 4 22 (Board.word_set_self ..) (by decide) sum (by decide) rfl
  refine ⟨fourth, ?_, fourthIntact, rfl, state.sp, rfl, rfl⟩
  simp [Board.steps, firstMove, secondMove, thirdMove, fourthMove]

theorem State.stores (state : State 32 sp tmp1 tmp2 cells board) {place : Address}
    (found : Address.ofWord? sp = some place) (high : 48 ≤ place.toNat) :
    ∃ next, board.steps 2 = some next ∧
      State 36 sp tmp1 tmp2 (Function.update cells place (some tmp2)) next := by
  let first := (board.set 35 sp).set 0 34
  let second := (first.set place tmp2).set 0 36
  obtain ⟨firstMove, firstIntact⟩ : board.step = some first ∧ Intact cells first :=
    state.move 32 20 35 state.pointer (by decide)
      (Board.read_plain (Board.word_of_stored state.sp) rfl) (by decide) rfl
  have secondIntact : Intact (Function.update cells place (some tmp2)) second :=
    (firstIntact.store high _).set (by decide) _
  have aside : ∀ address : Address, address.toNat < 48 → place ≠ address := by
    rintro address low rfl
    omega
  -- The next move is in the code but for its target, which was just written.
  have written : first.Holds ((35, sp) :: code) := firstIntact.holds.cons rfl
  have lists : Board.Lists ((35, sp) :: code) ⟨34, 34, 22, place⟩ :=
    ⟨(by decide : (34 : Word) ≠ 0), rfl, rfl, rfl, rfl, found⟩
  have secondMove : first.step = some second := by
    have moved := written.move 34 22 place (Board.word_set_self ..) lists
      (Board.read_plain (Board.word_of_stored state.tmp2) rfl) (aside 0 (by decide)) rfl
    rwa [Board.write_of_ne (aside 12 (by decide))] at moved
  have kept : ∀ address : Address, address.toNat < 48 → address ≠ 0 →
      second.stored address = first.stored address := by
    intro address low nonzero
    simp [second, aside address low, nonzero.symm]
  refine ⟨second, ?_, secondIntact, rfl, ?_, ?_, ?_⟩
  · simp [Board.steps, firstMove, secondMove]
  · exact (kept 20 (by decide) (by decide)).trans state.sp
  · exact (kept 21 (by decide) (by decide)).trans state.tmp1
  · exact (kept 22 (by decide) (by decide)).trans state.tmp2

theorem State.advances (state : State 36 sp tmp1 tmp2 cells board) :
    ∃ next, board.steps 4 = some next ∧ State 24 (sp + 1) tmp1 tmp2 cells next := by
  let first := (board.set 1 sp).set 0 38
  let second := (first.set 2 1).set 0 40
  let third := (second.set 20 (sp + 1)).set 0 42
  let fourth := third.set 0 24
  obtain ⟨firstMove, firstIntact⟩ : board.step = some first ∧ Intact cells first :=
    state.move 36 20 1 state.pointer (by decide)
      (Board.read_plain (Board.word_of_stored state.sp) rfl) (by decide) rfl
  obtain ⟨secondMove, secondIntact⟩ : first.step = some second ∧ Intact cells second :=
    firstIntact.move 38 19 2 (Board.word_set_self ..) (by decide)
      (firstIntact.holds.read rfl rfl) (by decide) rfl
  have sum : second.read 4 = (sp + 1, second) := rfl
  obtain ⟨thirdMove, thirdIntact⟩ : second.step = some third ∧ Intact cells third :=
    secondIntact.move 40 4 20 (Board.word_set_self ..) (by decide) sum (by decide) rfl
  have fourthMove : third.step = some fourth :=
    thirdIntact.holds.jump 42 44 (Board.word_set_self ..) (by decide)
      (thirdIntact.holds.read rfl rfl)
  refine ⟨fourth, ?_, thirdIntact.set (by decide) _, rfl, rfl, state.tmp1, state.tmp2⟩
  simp [Board.steps, firstMove, secondMove, thirdMove, fourthMove]

theorem State.round (state : State 24 sp tmp1 tmp2 cells board) {place : Address}
    (found : Address.ofWord? sp = some place) (high : 48 ≤ place.toNat) :
    ∃ next, board.steps 10 = some next ∧
      State 24 (sp + 1) tmp2 (tmp1 + tmp2)
        (Function.update cells place (some (tmp1 + tmp2))) next := by
  obtain ⟨summed, sums, stateSummed⟩ := state.sums
  obtain ⟨stored, stores, stateStored⟩ := stateSummed.stores found high
  obtain ⟨next, advances, stateNext⟩ := stateStored.advances
  refine ⟨next, ?_, stateNext⟩
  rw [Board.steps_add 4 6, sums, Option.bind_some, Board.steps_add 2 4, stores, Option.bind_some,
    advances]

/-- What there is from 48 on after a number of rounds. -/
def filled (rounds : Nat) (address : Address) : Option Word :=
  if 48 ≤ address.toNat ∧ address.toNat < 48 + rounds then
    some (Int64.ofNat (Nat.fib (address.toNat - 48 + 2)))
  else none

theorem toNat_place {i : Nat} (small : i < 2 ^ 60) : (UInt64.ofNat (48 + i)).toNat = 48 + i := by
  rw [UInt64.toNat_ofNat', Nat.mod_eq_of_lt (by omega)]

theorem ofWord?_place {i : Nat} (small : i < 2 ^ 60) :
    Address.ofWord? (Int64.ofNat (48 + i)) = some (UInt64.ofNat (48 + i)) := by
  refine Address.ofWord?_eq_some_iff.2 ⟨?_, Int64.toUInt64_ofNat'⟩
  rw [Int64.le_iff_toInt_le, Int64.toInt_ofNat_of_lt (by omega)]
  exact Int.natCast_nonneg _

theorem filled_at {rounds i : Nat} (done : i < rounds) (small : i < 2 ^ 60) :
    filled rounds (UInt64.ofNat (48 + i)) = some (Int64.ofNat (Nat.fib (i + 2))) := by
  rw [filled, toNat_place small, if_pos (by omega), Nat.add_sub_cancel_left]

theorem filled_of_le {rounds : Nat} {address : Address} (above : 48 + rounds ≤ address.toNat) :
    filled rounds address = none := by
  rw [filled, if_neg (by omega)]

theorem filled_succ {rounds : Nat} (small : rounds < 2 ^ 60) :
    Function.update (filled rounds) (UInt64.ofNat (48 + rounds))
      (some (Int64.ofNat (Nat.fib (rounds + 2)))) = filled (rounds + 1) := by
  funext address
  by_cases same : address = UInt64.ofNat (48 + rounds)
  · rw [same, Function.update_self, filled_at (Nat.lt_succ_self rounds) small]
  · have apart : address.toNat ≠ 48 + rounds := fun equal =>
      same (UInt64.toNat_inj.1 (equal.trans (toNat_place small).symm))
    have both : (48 ≤ address.toNat ∧ address.toNat < 48 + rounds) =
        (48 ≤ address.toNat ∧ address.toNat < 48 + (rounds + 1)) := propext (by omega)
    rw [Function.update_of_ne same, filled, filled]
    simp only [both]

/-- After a number of rounds, the pair has moved on by as many, and what it left is stored. -/
theorem State.rounds (start : State 24 48 0 1 (filled 0) board) {count : Nat}
    (small : count < 2 ^ 59) :
    ∃ next, board.steps (10 * count) = some next ∧
      State 24 (Int64.ofNat (48 + count)) (Int64.ofNat (Nat.fib count))
        (Int64.ofNat (Nat.fib (count + 1))) (filled count) next := by
  induction count with
  | zero => exact ⟨board, rfl, start⟩
  | succ count ih =>
    obtain ⟨between, stepped, state⟩ := ih (by omega)
    have place := toNat_place (i := count) (by omega)
    obtain ⟨next, round, stateNext⟩ := state.round (ofWord?_place (by omega)) (by omega)
    have sum : Int64.ofNat (Nat.fib count) + Int64.ofNat (Nat.fib (count + 1)) =
        Int64.ofNat (Nat.fib (count + 2)) := by
      rw [Nat.fib_add_two, Int64.ofNat_add]
    have further : Int64.ofNat (48 + count) + 1 = Int64.ofNat (48 + (count + 1)) :=
      (Int64.ofNat_add ..).symm
    rw [sum, further, filled_succ (by omega)] at stateNext
    refine ⟨next, ?_, stateNext⟩
    rw [Nat.mul_succ, Board.steps_add, stepped, Option.bind_some, round]

theorem boots (console : Console) :
    ∃ ready, (Program.fibonacci.board console).step = some ready ∧
      State 24 48 0 1 (filled 0) ready := by
  have holds : (Program.fibonacci.board console).Holds code :=
    (Program.fibonacci.holds_words console).mono List.filter_sublist.subset
  have intact : Intact (filled 0) (Program.fibonacci.board console) := by
    refine ⟨holds, fun address high => ?_⟩
    have low : (Program.fibonacci.words.all fun entry => entry.1.toNat < 48) = true := by decide
    rw [filled_of_le (by omega)]
    refine List.lookup_eq_none_iff.2 fun entry listed => ?_
    have := of_decide_eq_true (List.all_eq_true.1 low entry listed)
    rw [bne_iff_ne]
    rintro rfl
    omega
  exact ⟨_, Program.fibonacci.boots console, intact.set (by decide) _, rfl, rfl, rfl, rfl⟩

end Fibonacci

/--
The program `fibonacci` is loaded, and in `1 + 10 * k` moves stores `k` numbers of the sequence,
reduced to words, from 48 on. It neither halts nor fails on the way.
-/
theorem Program.fibonacci_fills (k : Nat) (bound : k < 2 ^ 59) (host : Host) (depth : Nat) :
    ∃ config machine, fibonacci.config .standard = .ok config ∧
      Machine.ofConfig config = .ok machine ∧
      let start : System := ⟨machine, host⟩
      (∃ after, Machine.run .standard (depth + 1) (1 + 10 * k) start =
          some (.error (.budgetExhausted (1 + 10 * k)), after) ∧
        let memory := after.machine.memory
        (∀ i < k, memory.stored (UInt64.ofNat (48 + i)) =
          some (Int64.ofNat (Nat.fib (i + 2)))) ∧
        (∀ address, 48 + k ≤ address.toNat → memory.stored address = none) ∧
        memory.stored 20 = some (Int64.ofNat (48 + k)) ∧
        memory.stored 21 = some (Int64.ofNat (Nat.fib k)) ∧
        memory.stored 22 = some (Int64.ofNat (Nat.fib (k + 1))) ∧
        Machine.ip .standard (depth + 1) after = some (.ok 24, after)) ∧
      ∀ budget < 1 + 10 * k, ∃ after, Machine.run .standard (depth + 1) budget start =
        some (.error (.budgetExhausted budget), after) := by
  obtain ⟨config, machine, configured, loaded, tracks⟩ := loads .fibonacci
  refine ⟨config, machine, configured, loaded, ?_⟩
  intro start
  have tracksStart : (fibonacci.board host.console).Tracks start := tracks host
  obtain ⟨ready, booted, state⟩ := Fibonacci.boots host.console
  obtain ⟨final, stepped, stateFinal⟩ := state.rounds bound
  have reached : (fibonacci.board host.console).steps (1 + 10 * k) = some final := by
    rw [Nat.add_comm, Board.steps, booted, Option.bind_some, stepped]
  have running : final.word 0 ≠ 0 := by
    rw [stateFinal.pointer]
    decide
  constructor
  · obtain ⟨after, ran, tracksAfter⟩ := tracksStart.run_exhausts depth reached running
    have shown : ∀ address, after.machine.memory.stored address = final.stored address :=
      tracksAfter.world.stored
    refine ⟨after, ran, ?_⟩
    intro memory
    refine ⟨?_, ?_, ?_, ?_, ?_, ?_⟩
    · intro i done
      have high : 48 ≤ (UInt64.ofNat (48 + i)).toNat := by
        rw [Fibonacci.toNat_place (by omega)]
        omega
      rw [shown, stateFinal.above _ high, Fibonacci.filled_at done (by omega)]
    · intro address above
      rw [shown, stateFinal.above _ (by omega), Fibonacci.filled_of_le above]
    · exact (shown 20).trans stateFinal.sp
    · exact (shown 21).trans stateFinal.tmp1
    · exact (shown 22).trans stateFinal.tmp2
    · rw [tracksAfter.ip, stateFinal.pointer]
  · intro budget less
    obtain ⟨between, before, going, -⟩ := Board.steps_of_lt reached less
    obtain ⟨after, ran, -⟩ := tracksStart.run_exhausts depth before going
    exact ⟨after, ran⟩

theorem Program.fibonacci_fills_ten :
    10 < 2 ^ 59 ∧ ∃ config machine after, fibonacci.config .standard = .ok config ∧
      Machine.ofConfig config = .ok machine ∧
      Machine.run .standard 1 101 ⟨machine, {}⟩ =
        some (.error (.budgetExhausted 101), after) ∧
      after.machine.memory.stored 57 = some 89 := by
  have bound : 10 < 2 ^ 59 := by decide
  obtain ⟨config, machine, configured, loaded, ⟨after, ran, filled, -⟩, -⟩ :=
    fibonacci_fills 10 bound {} 0
  exact ⟨bound, config, machine, after, configured, loaded, ran, filled 9 (by decide)⟩

end MoveMachine
