import Mathlib.Algebra.Group.Int.Defs
import MoveMachine.ConfigFile.Meaning
import MoveMachine.Memory
import MoveMachine.Proofs.Numerals

set_option autoImplicit false

namespace MoveMachine

namespace Literal

inductive Form : String → Literal → Prop
  /-- A numeral stands for its value, if that is a word. -/
  | number {text : String} {word : Word} :
      Decimal.Spells text.toList word.toInt → Form text (.number word)
  /-- A single character stands for itself, if it is no digit. -/
  | char {c : Char} : c.isDigit = false → Form (String.singleton c) (.char c)
  /-- A name after `@` is referred to, if it is not empty. -/
  | symbolRef {name : String} : name ≠ "" → Form ("@" ++ name) (.symbolRef name)

theorem toList_ref (name : String) : ("@" ++ name).toList = '@' :: name.toList :=
  String.toList_append

theorem Form.parse {text : String} {literal : Literal} (form : Form text literal) :
    parse text = .ok literal := by
  cases form with
  | @number _ word spelled =>
    have read := Decimal.integer?_eq_some_iff.2 spelled
    have inRange : Word.ofInt? word.toInt = some word := Word.ofInt?_eq_some_iff.2 rfl
    simp only [Literal.parse, read, inRange]
  | @char c noDigit =>
    have numeral : Decimal.integer? [c] = none := by
      rw [Option.eq_none_iff_forall_ne_some]
      intro value read
      rcases (Decimal.integer?_eq_some_iff.1 read).begins with digit | ⟨-, further⟩
      · exact Bool.false_ne_true (noDigit.symm.trans digit)
      · exact further rfl
    simp only [Literal.parse, String.toList_singleton, numeral]
  | @symbolRef name named =>
    have numeral : Decimal.integer? ('@' :: name.toList) = none := rfl
    rw [Literal.parse, toList_ref, numeral]
    cases letters : name.toList with
    | nil => exact absurd (String.toList_inj.1 letters) named
    | cons first rest =>
      have same : String.ofList (first :: rest) = name := by
        rw [← letters, String.ofList_toList]
      exact congrArg (fun name => Except.ok (Literal.symbolRef name)) same

theorem form_of_parse {text : String} {literal : Literal} (read : parse text = .ok literal) :
    Form text literal := by
  unfold parse at read
  split at read
  case h_1 value _ numeral =>
    split at read
    case h_1 word inRange =>
      cases read
      refine .number ?_
      rw [Word.ofInt?_eq_some_iff.1 inRange]
      exact Decimal.integer?_eq_some_iff.1 numeral
    case h_2 => cases read
  case h_2 c numeral single =>
    cases read
    obtain rfl : text = String.singleton c :=
      String.toList_inj.1 (single.trans (String.toList_singleton c).symm)
    refine .char (Bool.eq_false_iff.2 fun digit => ?_)
    rw [single, Decimal.integer?_eq_some_iff.2 (Decimal.spells_digit digit)] at numeral
    cases numeral
  case h_3 first rest numeral letters =>
    cases read
    obtain rfl : text = "@" ++ String.ofList (first :: rest) := by
      rw [← String.toList_inj, toList_ref, String.toList_ofList, letters]
    exact .symbolRef fun empty => List.cons_ne_nil first rest (String.ofList_eq_empty_iff.1 empty)
  case h_4 => cases read

theorem parse_eq_ok_iff {text : String} {literal : Literal} :
    parse text = .ok literal ↔ Form text literal :=
  ⟨form_of_parse, Form.parse⟩

theorem eq_invalidLiteral_of_parse {text : String} {error : ConfigError}
    (refused : parse text = .error error) : error = .invalidLiteral text := by
  unfold parse at refused
  split at refused
  case h_1 =>
    split at refused
    · cases refused
    · exact (Except.error.inj refused).symm
  case h_2 | h_3 => cases refused
  case h_4 => exact (Except.error.inj refused).symm

theorem parse_eq_error_iff {text : String} {error : ConfigError} :
    parse text = .error error ↔ error = .invalidLiteral text ∧ ∀ literal, ¬ Form text literal := by
  constructor
  · intro refused
    refine ⟨eq_invalidLiteral_of_parse refused, fun literal form => ?_⟩
    cases refused.symm.trans form.parse
  · rintro ⟨rfl, formless⟩
    cases read : parse text with
    | ok literal => exact absurd (form_of_parse read) (formless literal)
    | error error => rw [eq_invalidLiteral_of_parse read]

theorem exists_parse_iff_of_spells {text : String} {value : Int}
    (spelled : Decimal.Spells text.toList value) :
    (∃ literal, parse text = .ok literal) ↔ -2 ^ 63 ≤ value ∧ value ≤ 2 ^ 63 - 1 := by
  have numeral := Decimal.integer?_eq_some_iff.2 spelled
  constructor
  · rintro ⟨literal, read⟩
    simp only [parse, numeral] at read
    split at read
    · rename_i word inRange
      rw [← Word.ofInt?_eq_some_iff.1 inRange]
      exact ⟨word.le_toInt, word.toInt_le⟩
    · cases read
  · rintro ⟨least, greatest⟩
    have exact_word : (Int64.ofInt value).toInt = value :=
      Int64.toInt_ofInt_of_le least (by omega)
    refine ⟨.number (.ofInt value), Form.parse (.number ?_)⟩
    rw [exact_word]
    exact spelled

/--
A text is read as a literal exactly if it is a form of that literal: a numeral with its value, a
single character other than a digit, or a name after `@`. A text that is no form is refused, and
the error tells the text. No text is a form of two literals. A numeral is refused exactly if its
value is out of the range of words, and the text of every word is read as that word.
-/
theorem parse_exact (text : String) :
    (∀ literal, parse text = .ok literal ↔ Form text literal) ∧
    (∀ error, parse text = .error error ↔
      error = .invalidLiteral text ∧ ∀ literal, ¬ Form text literal) ∧
    (∀ literal other, Form text literal → Form text other → literal = other) ∧
    (∀ value, Decimal.Spells text.toList value →
      ((∃ literal, parse text = .ok literal) ↔ -2 ^ 63 ≤ value ∧ value ≤ 2 ^ 63 - 1)) ∧
    ∀ word, parse (Decimal.ofWord word) = .ok (.number word) := by
  refine ⟨fun _ => parse_eq_ok_iff, fun _ => parse_eq_error_iff, ?_,
    fun _ => exists_parse_iff_of_spells, ?_⟩
  · intro literal other form otherForm
    exact Except.ok.inj (form.parse.symm.trans otherForm.parse)
  · intro word
    have spelled := Decimal.integer?_eq_some_iff.1 (Decimal.integer?_toString word.toInt)
    exact Form.parse (.number spelled)

/-- The negative range has one more number, and leading zeros do not count. -/
example :
    parse "-0009223372036854775808" = .ok (.number Int64.minValue) ∧
      parse "9223372036854775808" = .error (.invalidLiteral "9223372036854775808") :=
  ⟨rfl, rfl⟩

/-- The literal as it comes back from a file: a digit is read as a number. -/
def plain : Literal → Literal
  | .char value => if value.isDigit then .number (Word.ofChar value) else .char value
  | literal => literal

theorem resolve_plain (symbols : SymbolTable) (literal : Literal) :
    literal.plain.resolve symbols = literal.resolve symbols := by
  cases literal with
  | number value => rfl
  | symbolRef symbol => rfl
  | char value =>
    rw [plain]
    split <;> rfl

end Literal

namespace WrittenLiteral

theorem toLiteral_ofLiteral {literal : Literal} (named : literal ≠ .symbolRef "") :
    (ofLiteral literal).toLiteral = .ok literal.plain := by
  cases literal with
  | number value => rfl
  | char value =>
    rw [ofLiteral, Literal.plain]
    cases digit : value.isDigit with
    | true => rfl
    | false => exact (Literal.Form.char digit).parse
  | symbolRef symbol =>
    have nonempty : symbol ≠ "" := fun empty => named (congrArg Literal.symbolRef empty)
    exact (Literal.Form.symbolRef nonempty).parse

theorem toLiteral_ofLiteral_unnamed :
    (ofLiteral (.symbolRef "")).toLiteral = .ok (.char '@') := by
  have single : "@" ++ "" = String.singleton '@' := rfl
  have noDigit : '@'.isDigit = false := rfl
  rw [ofLiteral, single]
  exact (Literal.Form.char noDigit).parse

/--
A literal that was written into a file is read back with the same word or the same error in every
memory, exactly if it is no reference to the empty name, which is read as the character `@`. It is
read back as itself, unless it is a digit, which is read as the number of its code point.
-/
theorem reread_exact (literal : Literal) :
    ((∃ reread, (ofLiteral literal).toLiteral = .ok reread ∧
        ∀ memory : Memory, reread.resolve memory.symbols = literal.resolve memory.symbols) ↔
      literal ≠ .symbolRef "") ∧
    (ofLiteral (.symbolRef "")).toLiteral = .ok (.char '@') ∧
    (literal ≠ .symbolRef "" → (∀ c, literal = .char c → c.isDigit = false) →
      (ofLiteral literal).toLiteral = .ok literal) ∧
    ∀ c : Char, c.isDigit = true →
      (ofLiteral (.char c)).toLiteral = .ok (.number (Word.ofChar c)) := by
  refine ⟨⟨?named, ?resolves⟩, toLiteral_ofLiteral_unnamed, ?itself, ?digit⟩
  case named =>
    rintro ⟨reread, read, same⟩ rfl
    rw [toLiteral_ofLiteral_unnamed] at read
    cases read
    -- The character is a word in every memory, and the name is unbound in an empty one.
    cases same {}
  case resolves =>
    intro named
    exact ⟨literal.plain, toLiteral_ofLiteral named, fun memory =>
      literal.resolve_plain memory.symbols⟩
  case itself =>
    intro named noDigit
    have unchanged : literal.plain = literal := by
      cases literal with
      | number value => rfl
      | symbolRef symbol => rfl
      | char value => simp [Literal.plain, noDigit value rfl]
    rw [toLiteral_ofLiteral named, unchanged]
  case digit =>
    intro c digit
    rw [ofLiteral, if_pos digit]
    rfl

end WrittenLiteral

end MoveMachine
