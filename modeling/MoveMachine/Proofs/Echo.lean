import Mathlib.Data.List.TakeWhile
import MoveMachine.Proofs.Programs

set_option autoImplicit false

namespace MoveMachine

theorem Word.toInt_ofChar (c : Char) : (Word.ofChar c).toInt = c.toNat := by
  have small : c.toNat < 2 ^ 63 := Nat.lt_trans c.val.toNat_lt (by decide)
  exact Int64.toInt_ofNat_of_lt small

theorem Word.ofChar_eq_zero_iff {c : Char} : Word.ofChar c = 0 ↔ c = '\x00' := by
  constructor
  · intro zero
    have code := Word.toInt_ofChar c
    rw [zero] at code
    have null : c.toNat = 0 := by simpa using code.symm
    exact Char.toNat_inj.1 null
  · rintro rfl
    rfl

theorem Word.toChar?_ofChar (c : Char) : Word.toChar? (Word.ofChar c) = some c := by
  have valid : c.toNat.isValidChar := c.valid
  rw [Word.toChar?, Word.toInt_ofChar, if_pos ⟨Int.natCast_nonneg _, valid⟩, Int.toNat_natCast,
    Char.ofNat_toNat]

theorem Console.outputText_of_codes {console : Console} {chars : List Char}
    (codes : console.output.toList = chars.map Word.ofChar) :
    console.outputText = String.ofList chars := by
  rw [outputText, codes, List.map_map]
  congr 1
  refine List.map_congr_left (fun c _ => ?_) |>.trans (List.map_id chars)
  simp [Word.toChar?_ofChar]

theorem Console.outputText_prefix {console : Console} {chars : List Char}
    (part : console.output.toList <+: chars.map Word.ofChar) :
    console.outputText.toList <+: chars := by
  have codes : console.output.toList =
      (chars.take console.output.toList.length).map Word.ofChar := by
    rw [List.map_take]
    exact List.prefix_iff_eq_take.1 part
  rw [outputText_of_codes codes, String.toList_ofList]
  exact List.take_prefix ..

namespace Echo

/-- The words of the program past its pointer. No move of the program writes there. -/
def code : List (Address × Word) := Program.echo.words.filter fun entry => entry.1 ≠ 0

/-- A board of the program at the start of a round. -/
structure Ready (board : Board) : Prop where
  pointer : board.word 0 = 24
  holds : board.Holds code

/-- A board of the program at the branch of a round: the word that was read is in `C`. -/
structure Asked (char : Word) (board : Board) : Prop where
  pointer : board.word 0 = 30
  exit : board.word 1 = 36
  cont : board.word 2 = 32
  char : board.word 3 = char
  holds : board.Holds code

theorem Ready.asks {board : Board} (ready : Ready board) :
    ∃ asked, board.steps 3 = some asked ∧ Asked board.console.get.1 asked ∧
      asked.console = board.console.get.2 := by
  let taken : Board := { board with console := board.console.get.2 }
  let first := (taken.set 3 board.console.get.1).set 0 26
  let second := (first.set 1 36).set 0 28
  let third := (second.set 2 32).set 0 30
  have takenHolds : taken.Holds code := ready.holds
  have firstHolds : first.Holds code := (takenHolds.set (by decide) _).set (by decide) _
  have secondHolds : second.Holds code := (firstHolds.set (by decide) _).set (by decide) _
  have thirdHolds : third.Holds code := (secondHolds.set (by decide) _).set (by decide) _
  have reads : board.step = some first :=
    ready.holds.move 24 11 3 ready.pointer (by decide) rfl (by decide) rfl
  have offersExit : first.step = some second :=
    firstHolds.move 26 20 1 (Board.word_set_self ..) (by decide)
      (firstHolds.read rfl rfl) (by decide) rfl
  have offersCont : second.step = some third :=
    secondHolds.move 28 21 2 (Board.word_set_self ..) (by decide)
      (secondHolds.read rfl rfl) (by decide) rfl
  refine ⟨third, ?_, ⟨rfl, rfl, rfl, rfl, thirdHolds⟩, rfl⟩
  simp [Board.steps, reads, offersExit, offersCont]

theorem Asked.chooses {char : Word} {board : Board} (asked : Asked char board) :
    board.step = some (board.set 0 (if char = 0 then 36 else 32)) := by
  have chosen : board.read 15 = (if char = 0 then 36 else 32, board) := by
    have ternary : board.read 15 =
        (if board.word 3 = 0 then board.word 1 else board.word 2, board) := rfl
    rw [ternary, asked.char, asked.exit, asked.cont]
  exact asked.holds.jump 30 15 asked.pointer (by decide) chosen

theorem Asked.prints {char : Word} {board : Board} (asked : Asked char board)
    (nonzero : char ≠ 0) :
    ∃ next, board.steps 3 = some next ∧ Ready next ∧ next.console = board.console.put char := by
  let first := board.set 0 32
  let second := (first.write 12 char).set 0 34
  let third := second.set 0 24
  have firstHolds : first.Holds code := asked.holds.set (by decide) _
  have secondHolds : second.Holds code := (firstHolds.set (by decide) _).set (by decide) _
  have thirdHolds : third.Holds code := secondHolds.set (by decide) _
  have goesOn : board.step = some first := by rw [asked.chooses, if_neg nonzero]
  have ready : first.read 3 = (char, first) := congrArg (·, first) asked.char
  have puts : first.step = some second :=
    firstHolds.move 32 3 12 (Board.word_set_self ..) (by decide) ready (by decide) rfl
  have again : second.step = some third :=
    secondHolds.jump 34 22 (Board.word_set_self ..) (by decide)
      (secondHolds.read rfl rfl)
  refine ⟨third, ?_, ⟨rfl, thirdHolds⟩, rfl⟩
  simp [Board.steps, goesOn, puts, again]

theorem Asked.exits {board : Board} (asked : Asked 0 board) :
    ∃ final, board.steps 2 = some final ∧ final.word 0 = 0 ∧ final.console = board.console := by
  let first := board.set 0 36
  let second := first.set 0 0
  have firstHolds : first.Holds code := asked.holds.set (by decide) _
  have leaves : board.step = some first := asked.chooses
  have stops : first.step = some second :=
    firstHolds.jump 36 38 (Board.word_set_self ..) (by decide)
      (firstHolds.read rfl rfl)
  refine ⟨second, ?_, rfl, rfl⟩
  simp [Board.steps, leaves, stops]

theorem Ready.round {board : Board} (ready : Ready board) (nonzero : board.console.get.1 ≠ 0) :
    ∃ next, board.steps 6 = some next ∧ Ready next ∧
      next.console = board.console.get.2.put board.console.get.1 := by
  obtain ⟨asked, reads, isAsked, taken⟩ := ready.asks
  obtain ⟨next, prints, isReady, put⟩ := isAsked.prints nonzero
  refine ⟨next, ?_, isReady, put.trans (by rw [taken])⟩
  rw [Board.steps_add 3 3, reads, Option.bind_some, prints]

theorem Ready.last {board : Board} (ready : Ready board) (zero : board.console.get.1 = 0) :
    ∃ final, board.steps 5 = some final ∧ final.word 0 = 0 ∧
      final.console = board.console.get.2 := by
  obtain ⟨asked, reads, isAsked, taken⟩ := ready.asks
  rw [zero] at isAsked
  obtain ⟨final, exits, halted, kept⟩ := isAsked.exits
  refine ⟨final, ?_, halted, kept.trans taken⟩
  rw [Board.steps_add 3 2, reads, Option.bind_some, exits]

/-- The characters before the first null character. -/
def copied (chars : List Char) : List Char := chars.takeWhile (· ≠ '\x00')

/-- From the start of a round, the program prints what it is to copy, and then halts. -/
theorem Ready.copies {board : Board} (ready : Ready board) {chars : List Char}
    (queued : board.console.input = chars.map Word.ofChar) :
    ∃ final, board.steps (6 * (copied chars).length + 5) = some final ∧ final.word 0 = 0 ∧
      final.console.input = (chars.drop ((copied chars).length + 1)).map Word.ofChar ∧
      final.console.output.toList =
        board.console.output.toList ++ (copied chars).map Word.ofChar := by
  -- Every round takes a character of the queue, and begins on a board that is ready.
  induction chars generalizing board with
  | nil =>
    have empty : board.console.get = (0, board.console) := by rw [Console.get, queued]; rfl
    obtain ⟨final, stepped, halted, kept⟩ := ready.last (congrArg Prod.fst empty)
    rw [empty] at kept
    exact ⟨final, stepped, halted, by rw [kept, queued]; rfl, by simp [kept, copied]⟩
  | cons c rest ih =>
    have next : board.console.get =
        (Word.ofChar c, { board.console with input := rest.map Word.ofChar }) := by
      rw [Console.get, queued]
      rfl
    by_cases null : c = '\x00'
    · have zero : board.console.get.1 = 0 := by rw [next, Word.ofChar_eq_zero_iff.2 null]
      obtain ⟨final, stepped, halted, kept⟩ := ready.last zero
      rw [next] at kept
      have none_copied : copied (c :: rest) = [] := by simp [copied, null]
      rw [none_copied]
      exact ⟨final, stepped, halted, by rw [kept]; rfl, by simp [kept]⟩
    · have nonzero : board.console.get.1 ≠ 0 := by
        rw [next]
        exact mt Word.ofChar_eq_zero_iff.1 null
      obtain ⟨between, stepped, isReady, put⟩ := ready.round nonzero
      rw [next] at put
      obtain ⟨final, goesOn, halted, input, output⟩ := ih isReady (by rw [put]; rfl)
      have one_more : copied (c :: rest) = c :: copied rest := by simp [copied, null]
      rw [one_more, List.length_cons]
      refine ⟨final, ?_, halted, input, ?_⟩
      · have count : 6 * ((copied rest).length + 1) + 5 = 6 + (6 * (copied rest).length + 5) := by
          omega
        rw [count, Board.steps_add, stepped, Option.bind_some, goesOn]
      · rw [output, put]
        simp [Console.put]

theorem boots (console : Console) :
    ∃ ready, (Program.echo.board console).step = some ready ∧ Ready ready ∧
      ready.console = console := by
  have holds : (Program.echo.board console).Holds code :=
    (Program.echo.holds_words console).mono List.filter_sublist.subset
  exact ⟨_, Program.echo.boots console, ⟨rfl, holds.set (by decide) _⟩, rfl⟩

end Echo

/--
The program `echo` is loaded, and copies its input up to the first null character. With `k`
characters to copy it halts after `6 * k + 6` moves, and a budget of fewer moves is exhausted
with a part of them copied.
-/
theorem Program.echo_copies (text : String) (host : Host) (depth : Nat) :
    ∃ config machine, echo.config .standard = .ok config ∧
      Machine.ofConfig config = .ok machine ∧
      let start : System := ⟨machine, { host with console := .ofInput text }⟩
      let copied := text.toList.takeWhile (· ≠ '\x00')
      let moves := 6 * copied.length + 6
      (∀ budget, moves ≤ budget → ∃ after,
        Machine.run .standard (depth + 1) budget start = some (.ok moves, after) ∧
        Machine.isHalted .standard (depth + 1) after = some (.ok true, after) ∧
        after.host.console.output.toList = copied.map Word.ofChar ∧
        after.host.console.outputText = String.ofList copied ∧
        after.host.console.pending =
          if '\x00' ∈ text.toList then text.length - copied.length - 1 else 0) ∧
      (∀ budget < moves, ∃ after,
        Machine.run .standard (depth + 1) budget start =
          some (.error (.budgetExhausted budget), after) ∧
        after.host.console.output.toList <+: copied.map Word.ofChar ∧
        after.host.console.outputText.toList <+: copied) := by
  obtain ⟨config, machine, configured, loaded, tracks⟩ := loads .echo
  refine ⟨config, machine, configured, loaded, ?_⟩
  intro start copied moves
  have tracksStart : (echo.board (.ofInput text)).Tracks start := tracks start.host
  obtain ⟨ready, booted, isReady, console⟩ := Echo.boots (.ofInput text)
  have queued : ready.console.input = text.toList.map Word.ofChar := by
    rw [console]
    rfl
  obtain ⟨final, stepped, halted, input, output⟩ := isReady.copies queued
  have reached : (echo.board (.ofInput text)).steps moves = some final := by
    rw [Board.steps, booted, Option.bind_some]
    exact stepped
  have printed : final.console.output.toList = copied.map Word.ofChar := by
    rw [output, console]
    rfl
  constructor
  · intro budget enough
    obtain ⟨after, ran, tracksAfter⟩ := tracksStart.run_halts depth reached halted enough
    have shown : after.host.console = final.console := tracksAfter.world.console
    rw [← shown] at printed input
    refine ⟨after, ran, ?_, printed, Console.outputText_of_codes printed, ?_⟩
    · rw [tracksAfter.isHalted, halted]
      rfl
    · have waiting : after.host.console.pending = text.length - copied.length - 1 := by
        rw [Console.pending, input, List.length_map, List.length_drop, Nat.sub_sub,
          String.length_toList]
        rfl
      rw [waiting]
      -- A null character is taken from the queue too, but without one all of the input was copied.
      split
      · rfl
      · rename_i absent
        have whole : copied = text.toList := by
          refine List.takeWhile_eq_self_iff.2 fun c member => decide_eq_true ?_
          rintro rfl
          exact absent member
        rw [whole, String.length_toList]
        omega
  · intro budget less
    obtain ⟨between, before, running, goesOn⟩ := Board.steps_of_lt reached less
    obtain ⟨after, ran, tracksAfter⟩ := tracksStart.run_exhausts depth before running
    have shown : after.host.console = between.console := tracksAfter.world.console
    have part : after.host.console.output.toList <+: copied.map Word.ofChar := by
      rw [shown, ← printed]
      exact Board.output_steps goesOn
    exact ⟨after, ran, part, Console.outputText_prefix part⟩

theorem Program.echo_copies_hi :
    ∃ config machine, echo.config .standard = .ok config ∧
      Machine.ofConfig config = .ok machine ∧
      let start : System := ⟨machine, { console := .ofInput "hi\x00!" }⟩
      (∃ after, Machine.run .standard 1 100 start = some (.ok 18, after) ∧
        after.host.console.outputText = "hi" ∧ after.host.console.pending = 1) ∧
      ∃ after, Machine.run .standard 1 17 start = some (.error (.budgetExhausted 17), after) := by
  obtain ⟨config, machine, configured, loaded, halts, exhausts⟩ := echo_copies "hi\x00!" {} 0
  obtain ⟨after, ran, -, -, shown, waiting⟩ := halts 100 (by decide +kernel)
  obtain ⟨stopped, ranOut, -⟩ := exhausts 17 (by decide +kernel)
  exact ⟨config, machine, configured, loaded,
    ⟨after, ran, shown, waiting.trans (by decide +kernel)⟩, stopped, ranOut⟩

end MoveMachine
