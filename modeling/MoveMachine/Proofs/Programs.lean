import MoveMachine.Program
import MoveMachine.Proofs.Board
import MoveMachine.Proofs.Entries
import MoveMachine.Proofs.Reachable

set_option autoImplicit false

namespace MoveMachine

/-- The cells at which a view shows something, by ascending address. -/
def Memory.listed {α : Type} (memory : Memory) (view : Cell → Option α) : List (Address × α) :=
  memory.cells.toList.filterMap fun entry => (view entry.2).map (entry.1, ·)

theorem Memory.lookup_listed {α : Type} (memory : Memory) (view : Cell → Option α)
    (blank : view {} = none) (address : Address) :
    (memory.listed view).lookup address = view (memory.cell address) := by
  have ascending : Sparse.Ascending (memory.listed view) := by
    refine (Sparse.ascending_toList memory.cells).filterMap _ ?_
    intro first second below one shown other shownOther
    obtain ⟨_, _, rfl⟩ := Option.map_eq_some_iff.1 shown
    obtain ⟨_, _, rfl⟩ := Option.map_eq_some_iff.1 shownOther
    exact below
  refine Option.ext fun value => ?_
  rw [ascending.lookup_eq_some_iff, Memory.cell]
  simp only [Memory.listed, List.mem_filterMap, Option.map_eq_some_iff, Prod.mk.injEq]
  constructor
  · rintro ⟨⟨place, cell⟩, listed, _, shown, rfl, rfl⟩
    rw [Std.ExtTreeMap.mem_toList_iff_getElem?_eq_some.1 listed]
    exact shown
  · intro shown
    cases found : memory.cells[address]? with
    | none => simp [found, blank] at shown
    | some cell =>
      rw [found] at shown
      exact ⟨(address, cell), Std.ExtTreeMap.mem_toList_iff_getElem?_eq_some.2 found, value,
        shown, rfl, rfl⟩

namespace Program

private theorem parse_ofList {text : List Char} {file : ConfigFile}
    (reads : (((Json.Token.scan? text).bind Json.ofTokens?).bind ConfigFile.ofJson?).map
      ConfigFile.toList = some file.toList) :
    ConfigFile.parse (String.ofList text) = .ok file := by
  obtain ⟨found, parsed, same⟩ := Option.map_eq_some_iff.1 reads
  have equal : found = file := congrArg ConfigFile.mk (Std.ExtTreeMap.toList_inj.1 same)
  rw [ConfigFile.parse, Json.parse?, String.toList_ofList, parsed, equal]

set_option maxRecDepth 10000 in
theorem parse_source (program : Program) : ConfigFile.parse program.source = .ok program.file := by
  cases program with
  | base => exact parse_ofList (by decide +kernel)
  | twoPlusTwo => exact parse_ofList (by decide +kernel)
  | fibonacci => exact parse_ofList (by decide +kernel)
  | echo => exact parse_ofList (by decide +kernel)

theorem layout_eq (registry : Registry) : layout registry = baseLayout.toConfig registry := by
  have base : ConfigFile.parse baseSource = .ok baseLayout := parse_source .base
  rw [layout, base]
  rfl

theorem config_eq (registry : Registry) (program : Program) :
    program.config registry = (do
      let layout ← baseLayout.toConfig registry
      if program = .base then return layout
      return layout.merge (← program.file.toConfig registry)) := by
  rw [config, layout_eq, parse_source]
  rfl

theorem config_base (registry : Registry) : base.config registry = layout registry := by
  rw [config]
  cases layout registry <;> rfl

def row (base : Address) (words : List Word) : List (Address × Word) :=
  words.zipIdx.map fun entry => (base + UInt64.ofNat entry.2, entry.1)

def words : Program → List (Address × Word)
  | .base => start []
  | .twoPlusTwo => start (row 18 [32] ++ row 20 [2, 2] ++ row 32 [20, 1, 21, 2, 4, 22] ++
      row 38 [41, 1, 41, 0])
  | .fibonacci => start (row 18 [24, 1, 48, 0, 1] ++
      row 24 [21, 1, 22, 2, 22, 21, 4, 22, 20, 35, 22, -1, 20, 1, 19, 2, 4, 20] ++
      row 42 [44, 0, 24])
  | .echo => start (row 18 [24] ++ row 20 [36, 32, 24] ++ row 24 [11, 3, 20, 1, 21, 2, 15, 0] ++
      row 32 [3, 12, 22, 0] ++ row 36 [38, 0, 0])
where
  /-- The words of the base layout, and others. -/
  start (others : List (Address × Word)) : List (Address × Word) :=
    row 0 [16] ++ row 16 [18, 0] ++ others

def board (program : Program) (console : Console) : Board :=
  ⟨fun address => program.words.lookup address, console⟩

theorem holds_words (program : Program) (console : Console) :
    (program.board console).Holds program.words := by
  have own : (program.words.all fun entry =>
      (program.words.lookup entry.1).getD 0 = entry.2) = true := by
    cases program <;> decide
  intro entry listed
  exact of_decide_eq_true (List.all_eq_true.1 own entry listed)

theorem boots (program : Program) (console : Console) :
    (program.board console).step =
      some ((program.board console).set 0 ((program.board console).word 18)) := by
  have holds := program.holds_words console
  have pointer : (program.board console).word 0 = 16 := holds.word (by cases program <;> rfl)
  have first : Board.Lists program.words ⟨16, 16, 18, 0⟩ := by cases program <;> decide
  exact holds.jump 16 18 pointer first rfl

private def writing (cell : Cell) : Option (List WriteTrigger) :=
  if cell.onWrite = [] then none else some cell.onWrite

set_option synthInstance.maxSize 512 in
private theorem seen_of_load (program : Program) :
    ((program.config .standard).bind (·.load {})).map (fun memory =>
      (memory.listed Cell.stored, memory.listed Cell.onRead, memory.listed writing,
        ["A", "B", "C"].map memory.symbols.resolve)) =
      .ok (program.words, Board.devices, [(12, [⟨some "putchar", 0⟩])],
        [some 1, some 2, some 3]) := by
  -- From the files on, each load is a closed computation.
  rw [config_eq]
  cases program with
  | base => decide +kernel
  | twoPlusTwo => decide +kernel
  | fibonacci => decide +kernel
  | echo => decide +kernel

private theorem baseWired_of_listed {memory : Memory}
    (reads : memory.listed Cell.onRead = Board.devices)
    (writes : memory.listed writing = [(12, [⟨some "putchar", 0⟩])])
    (names : ["A", "B", "C"].map memory.symbols.resolve = [some 1, some 2, some 3]) :
    memory.BaseWired := by
  simp only [List.map_cons, List.map_nil, List.cons.injEq] at names
  obtain ⟨a, b, c, -⟩ := names
  refine ⟨a, b, c, fun address => ?_, fun address => ?_⟩
  · rw [Memory.readTrigger, ← memory.lookup_listed Cell.onRead rfl, reads]
  · have own := memory.lookup_listed writing rfl address
    rw [writes, writing, List.lookup_cons, List.lookup_nil] at own
    rw [Memory.writeTriggers]
    split at own
    · rename_i output
      rw [if_pos (beq_iff_eq.1 output)]
      split at own
      · cases own
      · exact (Option.some.inj own).symm
    · rename_i other
      rw [if_neg (beq_eq_false_iff_ne.1 other)]
      split at own
      · assumption
      · cases own

/-- Every program loads, and its machine shows its board. -/
theorem loads (program : Program) :
    ∃ config machine, program.config .standard = .ok config ∧
      Machine.ofConfig config = .ok machine ∧
      ∀ host : Host, (program.board host.console).Tracks ⟨machine, host⟩ := by
  have seen := program.seen_of_load
  cases configured : program.config .standard with
  | error error =>
    rw [configured] at seen
    cases seen
  | ok config =>
    cases loaded : config.load {} with
    | error error =>
      rw [configured, Except.bind, loaded] at seen
      cases seen
    | ok memory =>
      rw [configured, Except.bind, loaded] at seen
      simp only [Except.map, Except.ok.injEq, Prod.mk.injEq] at seen
      obtain ⟨words, reads, writes, names⟩ := seen
      have ofConfig : Machine.ofConfig config = .ok (.ofMemory memory) := by
        rw [Machine.ofConfig, loaded]
        rfl
      have stored : ∀ address, memory.stored address = program.words.lookup address := by
        intro address
        rw [← words, memory.lookup_listed Cell.stored rfl]
        rfl
      have asked : (Request.configure config).perform {} 0 ⟨{}, {}⟩ =
          some (.ok .nothing, ⟨{ memory }, {}⟩) := by
        rw [Request.perform_configure, loaded]
      have stamped := ((Machine.Reachable.start 0).perform {} 0 _ {} asked).stamped
      exact ⟨config, .ofMemory memory, rfl, ofConfig, fun host =>
        ⟨⟨stored, baseWired_of_listed reads writes names, stamped, rfl⟩, rfl⟩⟩

end Program

end MoveMachine
