import MoveMachine.Json.Basic

set_option autoImplicit false

namespace MoveMachine.Json

theorem escape_cons (c : Char) (text : List Char) :
    escape (c :: text) = escapeChar c ++ escape text := by
  simp only [escape, List.flatMap_cons]

private theorem hexDigit?_digitChar : ∀ n < 16, hexDigit? (Nat.digitChar n) = some n := by decide

private theorem ofShortEscape?_of_shortEscape? {c letter : Char}
    (short : shortEscape? c = some letter) :
    ofShortEscape? letter = some c ∧ letter ≠ 'u' := by
  unfold shortEscape? at short
  split at short <;> cases short <;> exact ⟨rfl, by decide⟩

private theorem unescape_short {c letter : Char} (short : shortEscape? c = some letter)
    (rest : List Char) :
    unescape ('\\' :: letter :: rest) = (unescape rest).map (c :: ·) := by
  obtain ⟨stands, noUnit⟩ := ofShortEscape?_of_shortEscape? short
  rw [unescape]
  · rw [stands]
    cases unescape rest <;> rfl
  · rintro _ _ _ _ _ rfl
    exact absurd rfl noUnit

private theorem unescape_unit {c : Char} (control : c.toNat < 0x20) (rest : List Char) :
    unescape ('\\' :: 'u' :: '0' :: '0' :: Nat.digitChar (c.toNat / 16) ::
      Nat.digitChar (c.toNat % 16) :: rest) = (unescape rest).map (c :: ·) := by
  have high := hexDigit?_digitChar (c.toNat / 16) (by omega)
  have low := hexDigit?_digitChar (c.toNat % 16) (by omega)
  have zero : hexDigit? '0' = some 0 := by decide
  have whole : ((0 * 16 + 0) * 16 + c.toNat / 16) * 16 + c.toNat % 16 = c.toNat := by omega
  have unit : unit? '0' '0' (Nat.digitChar (c.toNat / 16)) (Nat.digitChar (c.toNat % 16)) =
      some c.toNat := by
    simp only [unit?, zero, high, low, Option.bind_eq_bind, Option.bind_some, Option.pure_def,
      whole]
  rw [unescape, unit]
  simp only [Option.bind_eq_bind, Option.bind_some]
  -- A control character is no half of a surrogate pair.
  rw [if_neg (by omega), if_neg (by omega), Char.ofNat_toNat]
  cases unescape rest <;> rfl

private theorem unescape_itself {c : Char} (printable : ¬ c.toNat < 0x20) (noBackslash : c ≠ '\\')
    (rest : List Char) : unescape (c :: rest) = (unescape rest).map (c :: ·) := by
  rw [unescape]
  · rw [if_neg (by simp [printable, noBackslash])]
    cases unescape rest <;> rfl
  · rintro _ _ _ _ _ rfl
    exact absurd rfl noBackslash
  · rintro _ _ rfl
    exact absurd rfl noBackslash

theorem unescape_escapeChar (c : Char) (rest : List Char) :
    unescape (escapeChar c ++ rest) = (unescape rest).map (c :: ·) := by
  unfold escapeChar
  split
  · rename_i letter short
    exact unescape_short short rest
  · rename_i long
    split
    · rename_i control
      exact unescape_unit control rest
    · rename_i printable
      have noBackslash : c ≠ '\\' := by
        rintro rfl
        cases long
      exact unescape_itself printable noBackslash rest

theorem unescape_escape (text : List Char) : unescape (escape text) = some text := by
  induction text with
  | nil => rfl
  | cons c text ih => rw [escape_cons, unescape_escapeChar, ih, Option.map_some]

end MoveMachine.Json
