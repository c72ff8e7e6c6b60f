import MoveMachine.Json.Token
import MoveMachine.Json.Printer
import MoveMachine.Proofs.JsonSpelling

/-!
What a scan makes of a text, piece by piece. A text that is `Closed` leaves the scan between
tokens; a text that `Scans` may end in a word, and then what follows it must be a delimiter.
Texts are put together by the two kinds of `append`, with the tokens put together alike.

All statements leave the rest of the text open, so the tokens of a long text follow from those
of its pieces without another look at the pieces.
-/

set_option autoImplicit false

namespace MoveMachine.Json

namespace Token

/-- What a scan under way makes of the rest of a text. -/
def finish (scan : Scan) (rest : List Char) : Option (List Token) := do
  let scan ← (← rest.foldlM Scan.step scan).endWord
  return scan.tokens.reverse

def isDelimiter (c : Char) : Bool := isBlank c || c == '"' || (ofPunctuation? c).isSome

/-- A text behind which a scan stands between tokens, with the tokens of the text behind it. -/
def Closed (text : List Char) (tokens : List Token) : Prop :=
  ∀ before rest,
    finish ⟨before, .between⟩ (text ++ rest) = finish ⟨tokens.reverse ++ before, .between⟩ rest

/-- A text with these tokens, of which the last may be a word that wants a delimiter. -/
def Scans (text : List Char) (tokens : List Token) : Prop :=
  ∀ before rest, (∀ c ∈ rest.head?, isDelimiter c = true) →
    finish ⟨before, .between⟩ (text ++ rest) = finish ⟨tokens.reverse ++ before, .between⟩ rest

theorem finish_cons (scan : Scan) (c : Char) (rest : List Char) :
    finish scan (c :: rest) = (scan.step c).bind fun next => finish next rest := by
  simp only [finish, List.foldlM_cons, Option.bind_eq_bind]
  cases scan.step c <;> rfl

private theorem step_delimiter {scan : Scan} {tokens : List Token}
    (closes : scan.endWord = some ⟨tokens, .between⟩) {c : Char}
    (delimiter : isDelimiter c = true) :
    scan.step c =
      if isBlank c then some ⟨tokens, .between⟩
      else if c = '"' then some ⟨tokens, .inQuotes [] false⟩
      else (ofPunctuation? c).map fun token => ⟨token :: tokens, .between⟩ := by
  have known : isBlank c = false → c ≠ '"' → ∃ token, ofPunctuation? c = some token := by
    intro noBlank noQuote
    simpa [isDelimiter, noBlank, noQuote, Option.isSome_iff_exists] using delimiter
  obtain ⟨before, mode⟩ := scan
  cases mode with
  | inQuotes read escaped => cases closes
  | _ =>
    simp only [Scan.step, closes, Option.map_some]
    split
    · rfl
    · split
      · rfl
      · rename_i noBlank noQuote
        obtain ⟨token, found⟩ := known (by simpa using noBlank) noQuote
        rw [found, Option.map_some]

private theorem finish_endWord {scan : Scan} {tokens : List Token}
    (closes : scan.endWord = some ⟨tokens, .between⟩) {rest : List Char}
    (delimited : ∀ c ∈ rest.head?, isDelimiter c = true) :
    finish scan rest = finish ⟨tokens, .between⟩ rest := by
  have closed : Scan.endWord ⟨tokens, .between⟩ = some ⟨tokens, .between⟩ := rfl
  cases rest with
  | nil =>
    simp only [finish, List.foldlM_nil, Option.pure_def, Option.bind_eq_bind, Option.bind_some,
      closes, closed]
  | cons c rest =>
    have delimiter : isDelimiter c = true := delimited c rfl
    rw [finish_cons, finish_cons, step_delimiter closes delimiter,
      step_delimiter closed delimiter]

namespace Closed

theorem scans {text : List Char} {tokens : List Token} (closed : Closed text tokens) :
    Scans text tokens := by
  intro before rest _
  exact closed before rest

theorem append {first second : List Char} {tokens more : List Token}
    (closed : Closed first tokens) (scans : Scans second more) :
    Scans (first ++ second) (tokens ++ more) := by
  intro before rest delimited
  rw [List.append_assoc, closed, scans _ _ delimited, List.reverse_append, List.append_assoc]

theorem append_closed {first second : List Char} {tokens more : List Token}
    (closed : Closed first tokens) (closedSecond : Closed second more) :
    Closed (first ++ second) (tokens ++ more) := by
  intro before rest
  rw [List.append_assoc, closed, closedSecond, List.reverse_append, List.append_assoc]

theorem blank {c : Char} (blank : isBlank c = true) : Closed [c] [] := by
  intro before rest
  have delimiter : isDelimiter c = true := by simp only [isDelimiter, blank, Bool.true_or]
  rw [List.singleton_append, finish_cons, step_delimiter rfl delimiter, if_pos blank]
  rfl

theorem punctuation {c : Char} {token : Token} (found : ofPunctuation? c = some token) :
    Closed [c] [token] := by
  intro before rest
  have delimiter : isDelimiter c = true := by
    simp only [isDelimiter, found, Option.isSome_some, Bool.or_true]
  have noBlank : ¬ isBlank c = true := by
    unfold ofPunctuation? at found
    split at found <;> first | decide | cases found
  have noQuote : c ≠ '"' := by
    rintro rfl
    cases found
  rw [List.singleton_append, finish_cons, step_delimiter rfl delimiter, if_neg noBlank,
    if_neg noQuote, found]
  rfl

theorem newline (depth : Nat) : Closed (Json.newline depth) [] := by
  unfold Json.newline
  generalize 2 * depth = blanks
  have start : Closed ['\n'] [] := blank rfl
  have run : Closed (List.replicate blanks ' ') [] := by
    induction blanks with
    | zero =>
      intro before rest
      rfl
    | succ blanks ih => exact (blank rfl : Closed [' '] []).append_closed ih
  exact start.append_closed run

end Closed

/-- A text may follow another if it begins with a delimiter, or not at all. -/
theorem Scans.append {first second : List Char} {tokens more : List Token}
    (scans : Scans first tokens) (scansSecond : Scans second more)
    (delimited : ∀ c ∈ second.head?, isDelimiter c = true) :
    Scans (first ++ second) (tokens ++ more) := by
  intro before rest restDelimited
  have bothDelimited : ∀ c ∈ (second ++ rest).head?, isDelimiter c = true := by
    cases second with
    | nil => exact restDelimited
    | cons c second => exact delimited
  rw [List.append_assoc, scans _ _ bothDelimited, scansSecond _ _ restDelimited,
    List.reverse_append, List.append_assoc]

theorem Scans.append_closed {first second : List Char} {tokens more : List Token}
    (scans : Scans first tokens) (closed : Closed second more)
    (begins : ∃ c ∈ second.head?, isDelimiter c = true) :
    Closed (first ++ second) (tokens ++ more) := by
  intro before rest
  obtain ⟨c, head, delimiter⟩ := begins
  have delimited : ∀ d ∈ (second ++ rest).head?, isDelimiter d = true := by
    intro d headBoth
    rw [List.head?_append, head, Option.some_or] at headBoth
    cases headBoth
    exact delimiter
  rw [List.append_assoc, scans _ _ delimited, closed, List.reverse_append, List.append_assoc]

private theorem finish_inWord {word : List Char} (plain : ∀ c ∈ word, isDelimiter c = false)
    (before : List Token) (read rest : List Char) :
    finish ⟨before, .inWord read⟩ (word ++ rest) =
      finish ⟨before, .inWord (word.reverse ++ read)⟩ rest := by
  induction word generalizing read with
  | nil => rfl
  | cons c word ih =>
    have plainC := plain c List.mem_cons_self
    simp only [isDelimiter, Bool.or_eq_false_iff, Option.isSome_eq_false_iff,
      Option.isNone_iff_eq_none, beq_eq_false_iff_ne] at plainC
    obtain ⟨⟨noBlank, noQuote⟩, noPunctuation⟩ := plainC
    have stepped : Scan.step ⟨before, .inWord read⟩ c = some ⟨before, .inWord (c :: read)⟩ := by
      simp only [Scan.step, noBlank, Bool.false_eq_true, if_false, noQuote, noPunctuation]
    rw [List.cons_append, finish_cons, stepped, Option.bind_some,
      ih fun d member => plain d (List.mem_cons_of_mem c member)]
    simp only [List.reverse_cons, List.append_assoc, List.singleton_append]

theorem scans_word {word : List Char} {token : Token} (found : ofWord? word = some token)
    (nonempty : word ≠ []) (undelimited : word.any isDelimiter = false) :
    Scans word [token] := by
  intro before rest delimited
  have plain : ∀ c ∈ word, isDelimiter c = false := by
    intro c member
    exact Bool.eq_false_iff.2 (List.any_eq_false.1 undelimited c member)
  obtain ⟨c, word, rfl⟩ := List.exists_cons_of_ne_nil nonempty
  have plainC := plain c List.mem_cons_self
  simp only [isDelimiter, Bool.or_eq_false_iff, Option.isSome_eq_false_iff,
    Option.isNone_iff_eq_none, beq_eq_false_iff_ne] at plainC
  obtain ⟨⟨noBlank, noQuote⟩, noPunctuation⟩ := plainC
  have stepped : Scan.step ⟨before, .between⟩ c = some ⟨before, .inWord [c]⟩ := by
    simp only [Scan.step, noBlank, Bool.false_eq_true, if_false, noQuote, noPunctuation]
  have ended : Scan.endWord ⟨before, .inWord (word.reverse ++ [c])⟩ =
      some ⟨token :: before, .between⟩ := by
    simp only [Scan.endWord, List.reverse_append, List.reverse_reverse, List.reverse_singleton,
      List.singleton_append, found, Option.map_some]
  rw [List.cons_append, finish_cons, stepped, Option.bind_some,
    finish_inWord fun d member => plain d (List.mem_cons_of_mem c member),
    finish_endWord ended delimited]
  rfl

private theorem isDigit_of_isDelimiter {c : Char} (delimiter : isDelimiter c = true) :
    c.isDigit = false := by
  simp only [isDelimiter, isBlank, Bool.or_eq_true, beq_iff_eq] at delimiter
  rcases delimiter with ((((rfl | rfl) | rfl) | rfl) | rfl) | punctuation
  case inr =>
    unfold ofPunctuation? at punctuation
    split at punctuation <;> first | rfl | cases punctuation
  all_goals rfl

theorem scans_integer (value : Int) : Scans (toString value).toList [.integer value] := by
  have plain : ∀ c ∈ (toString value).toList, c = '-' ∨ c.isDigit = true := by
    intro c member
    have digit : c ∈ Nat.toDigits 10 value.natAbs → c.isDigit = true :=
      Nat.isDigit_of_mem_toDigits (by decide) (by decide)
    rw [Decimal.toList_toString_int] at member
    split at member
    · exact (List.mem_cons.1 member).imp id digit
    · exact Or.inr (digit member)
  have noNull : (toString value).toList ≠ ['n', 'u', 'l', 'l'] := by
    intro same
    rw [same] at plain
    exact absurd (plain 'n' List.mem_cons_self) (by decide)
  have nonempty : (toString value).toList ≠ [] := by
    intro empty
    have read := Decimal.integer?_toString value
    rw [empty] at read
    cases read
  refine scans_word ?_ nonempty ?_
  · rw [ofWord?, if_neg noNull, Decimal.integer?_toString]
    simp only [Option.bind_eq_bind, Option.bind_some, if_true]
  · rw [List.any_eq_false]
    intro c member delimiter
    rcases plain c member with rfl | digit
    · cases delimiter
    · rw [isDigit_of_isDelimiter delimiter] at digit
      cases digit

private theorem finish_escapeChar (c : Char) (before : List Token) (read rest : List Char) :
    finish ⟨before, .inQuotes read false⟩ (escapeChar c ++ rest) =
      finish ⟨before, .inQuotes ((escapeChar c).reverse ++ read) false⟩ rest := by
  have plain : ∀ d read rest, d ≠ '"' → d ≠ '\\' →
      finish ⟨before, .inQuotes read false⟩ (d :: rest) =
        finish ⟨before, .inQuotes (d :: read) false⟩ rest := by
    intro d read rest noQuote noBackslash
    have stays : (d == '\\') = false := by simpa using noBackslash
    simp only [finish_cons, Scan.step, noQuote, if_false, stays, Option.bind_some]
  have escaped : ∀ d read rest,
      finish ⟨before, .inQuotes read false⟩ ('\\' :: d :: rest) =
        finish ⟨before, .inQuotes (d :: '\\' :: read) false⟩ rest := by
    intro d read rest
    simp [finish_cons, Scan.step]
  have hex : ∀ n < 16, Nat.digitChar n ≠ '"' ∧ Nat.digitChar n ≠ '\\' := by decide
  unfold escapeChar
  split
  · exact escaped _ read rest
  · rename_i long
    split
    · obtain ⟨highQuote, highBackslash⟩ := hex (c.toNat / 16) (by omega)
      obtain ⟨lowQuote, lowBackslash⟩ := hex (c.toNat % 16) (by omega)
      simp only [List.cons_append, List.nil_append]
      rw [escaped, plain '0' _ _ (by decide) (by decide), plain '0' _ _ (by decide) (by decide),
        plain _ _ _ highQuote highBackslash, plain _ _ _ lowQuote lowBackslash]
      rfl
    · have noQuote : c ≠ '"' := by
        rintro rfl
        cases long
      have noBackslash : c ≠ '\\' := by
        rintro rfl
        cases long
      exact plain c read rest noQuote noBackslash

private theorem finish_escape (text : List Char) (before : List Token) (read rest : List Char) :
    finish ⟨before, .inQuotes read false⟩ (escape text ++ rest) =
      finish ⟨before, .inQuotes ((escape text).reverse ++ read) false⟩ rest := by
  induction text generalizing read with
  | nil => rfl
  | cons c text ih =>
    rw [escape_cons, List.append_assoc, finish_escapeChar, ih, List.reverse_append,
      List.append_assoc]

theorem closed_quote (text : List Char) :
    Closed (quote (escape text)) [.quoted (escape text)] := by
  intro before rest
  have opened : Scan.step ⟨before, .between⟩ '"' = some ⟨before, .inQuotes [] false⟩ := rfl
  have closes : Scan.step ⟨before, .inQuotes (escape text).reverse false⟩ '"' =
      some ⟨.quoted (escape text) :: before, .between⟩ := by
    simp only [Scan.step, if_true, List.reverse_reverse]
  simp only [quote, List.cons_append, List.append_assoc]
  rw [finish_cons, opened, Option.bind_some, finish_escape, List.append_nil, List.nil_append,
    finish_cons, closes, Option.bind_some]
  rfl

end Token

end MoveMachine.Json
