import MoveMachine.ConfigFile.Text
import MoveMachine.Proofs.Entries
import MoveMachine.Proofs.JsonText

set_option autoImplicit false

namespace MoveMachine

private theorem mapM_written {α : Type} {read? : Json → Option α} {write : α → Json}
    (reads : ∀ item, read? (write item) = some item) (items : List α) :
    (items.map write).mapM read? = some items := by
  rw [List.mapM_map]
  exact mapM_eq_self fun item _ => reads item

theorem WrittenLiteral.ofJson?_toJson (literal : WrittenLiteral) :
    ofJson? literal.toJson = some literal := by
  cases literal with
  | number value =>
    have found : Word.ofInt? value.toInt = some value := Word.ofInt?_eq_some_iff.2 rfl
    simp only [toJson, ofJson?, found, Option.map_some]
  | text spelling => rfl

/-- One thing and a list are told apart if the thing itself is not written as a list. -/
theorem OneOrMany.ofJson?_toJson {α : Type} {item? : Json → Option α} {write : α → Json}
    (reads : ∀ item, item? (write item) = some item)
    (noList : ∀ items, item? (.array items) = none) (written : OneOrMany α) :
    ofJson? item? (written.toJson write) = some written := by
  cases written with
  | one item => simp only [toJson, ofJson?, reads]
  | many items =>
    simp only [toJson, ofJson?, noList, mapM_written reads, Option.map_some]

namespace WrittenCell

def present (named : List (String × Option Json)) : List (String × Json) :=
  named.filterMap fun field => field.2.map fun json => (field.1, json)

theorem names_present_sublist (named : List (String × Option Json)) :
    ((present named).map (·.1)).Sublist (named.map (·.1)) := by
  induction named with
  | nil => exact List.Sublist.slnil
  | cons field named ih =>
    obtain ⟨name, value⟩ := field
    cases value with
    | none => exact ih.cons name
    | some json => exact ih.cons_cons name

private theorem lookUp_cons (name other : String) (json : Json) (members : List (String × Json)) :
    lookUp ((name, json) :: members) other =
      if other = name then json else lookUp members other := by
  unfold lookUp
  rw [List.lookup_cons]
  by_cases same : other = name
  · rw [if_pos same, beq_iff_eq.2 same]
    rfl
  · rw [if_neg same, beq_eq_false_iff_ne.2 same]

private theorem lookUp_of_not_mem {members : List (String × Json)} {name : String}
    (unlisted : name ∉ members.map (·.1)) : lookUp members name = .null := by
  induction members with
  | nil => rfl
  | cons member members ih =>
    obtain ⟨other, json⟩ := member
    rw [List.map_cons, List.mem_cons, not_or] at unlisted
    rw [lookUp_cons, if_neg unlisted.1, ih unlisted.2]

theorem lookUp_present {named : List (String × Option Json)} (distinct : (named.map (·.1)).Nodup)
    {name : String} {value : Option Json} (listed : (name, value) ∈ named) :
    lookUp (present named) name = value.getD .null := by
  induction named with
  | nil => cases listed
  | cons field named ih =>
    obtain ⟨other, json?⟩ := field
    rw [List.map_cons, List.nodup_cons] at distinct
    obtain ⟨unlisted, distinct⟩ := distinct
    have absent : other ∉ (present named).map (·.1) :=
      fun member => unlisted ((names_present_sublist named).subset member)
    rcases List.mem_cons.1 listed with same | later
    · cases same
      cases value with
      | none => exact lookUp_of_not_mem absent
      | some json => exact (lookUp_cons ..).trans (if_pos rfl)
    · have apart : name ≠ other := by
        rintro rfl
        exact unlisted (List.mem_map.2 ⟨_, later, rfl⟩)
      have rest := ih distinct later
      cases json? with
      | none => exact rest
      | some json => exact (lookUp_cons ..).trans ((if_neg apart).trans rest)

theorem optional?_getD {α : Type} {item? : Json → Option α} {write : α → Json}
    (reads : ∀ item, item? (write item) = some item) (noNull : item? .null = none)
    (value : Option α) : optional? item? ((value.map write).getD .null) = some value := by
  cases value with
  | none => rfl
  | some item =>
    have some_json : write item ≠ .null := by
      intro null
      have read := reads item
      rw [null, noNull] at read
      cases read
    change optional? item? (write item) = _
    rw [optional?]
    · rw [reads, Option.map_some]
    · exact some_json

def named (cell : WrittenCell) : List (String × Option Json) :=
  [("name", cell.name.map .text), ("symbol", cell.symbol.map .text),
    ("symbols", cell.symbols.map (OneOrMany.toJson .text)),
    ("value", cell.value.map WrittenLiteral.toJson),
    ("values", cell.values.map (OneOrMany.toJson WrittenLiteral.toJson)),
    ("onread", cell.onRead.map .text), ("onwrite", cell.onWrite.map (OneOrMany.toJson .text))]

theorem toJson_eq_present (cell : WrittenCell) : cell.toJson = .object (present cell.named) := rfl

theorem names_named (cell : WrittenCell) : cell.named.map (·.1) = fields := rfl

private theorem escape_field : ∀ name ∈ fields, Json.escape name.toList = name.toList := by
  decide

private theorem mem_fields {cell : WrittenCell} {member : String × Json}
    (written : member ∈ present cell.named) : member.1 ∈ fields :=
  (names_present_sublist cell.named).subset (List.mem_map.2 ⟨member, written, rfl⟩)

private theorem ofFields?_named (cell : WrittenCell) :
    ofFields? (lookUp (present cell.named)) = some cell := by
  have distinct : (cell.named.map (·.1)).Nodup := by
    rw [names_named]
    decide
  have found : ∀ name value, (name, value) ∈ cell.named →
      lookUp (present cell.named) name = value.getD .null :=
    fun name value listed => lookUp_present distinct listed
  have texts : ∀ text, string? (.text text) = some text := fun _ => rfl
  have name := found "name" (cell.name.map .text) (by simp [named])
  have symbol := found "symbol" (cell.symbol.map .text) (by simp [named])
  have symbols := found "symbols" (cell.symbols.map (OneOrMany.toJson .text)) (by simp [named])
  have value := found "value" (cell.value.map WrittenLiteral.toJson) (by simp [named])
  have values := found "values" (cell.values.map (OneOrMany.toJson WrittenLiteral.toJson))
    (by simp [named])
  have onRead := found "onread" (cell.onRead.map .text) (by simp [named])
  have onWrite := found "onwrite" (cell.onWrite.map (OneOrMany.toJson .text)) (by simp [named])
  rw [ofFields?, name, symbol, symbols, value, values, onRead, onWrite,
    optional?_getD texts rfl, optional?_getD texts rfl,
    optional?_getD (OneOrMany.ofJson?_toJson texts fun _ => rfl) rfl,
    optional?_getD WrittenLiteral.ofJson?_toJson rfl,
    optional?_getD (OneOrMany.ofJson?_toJson WrittenLiteral.ofJson?_toJson fun _ => rfl) rfl,
    optional?_getD texts rfl,
    optional?_getD (OneOrMany.ofJson?_toJson texts fun _ => rfl) rfl]
  rfl

theorem ofJson?_toJson (cell : WrittenCell) : ofJson? cell.toJson = some cell := by
  have unescaped : (present cell.named).mapM (fun member => do
      return (String.ofList (← Json.unescape member.1.toList), member.2)) =
      some (present cell.named) := by
    refine mapM_eq_self fun member written => ?_
    have itself := Json.unescape_escape member.1.toList
    rw [escape_field _ (mem_fields written)] at itself
    rw [itself, Option.bind_eq_bind, Option.bind_some, String.ofList_toList]
  have known : ((present cell.named).map (·.1)).all (fields.contains ·) = true := by
    rw [List.all_eq_true]
    intro name listed
    exact List.contains_iff_mem.2 ((names_present_sublist cell.named).subset listed)
  have distinct : ((present cell.named).map (·.1)).Nodup :=
    (names_present_sublist cell.named).nodup (by decide : fields.Nodup)
  rw [toJson_eq_present, ofJson?, unescaped]
  simp only [Option.bind_eq_bind, Option.bind_some]
  rw [if_pos ⟨known, distinct⟩, ofFields?_named]

end WrittenCell

theorem Entry.ofJson?_toJson (entry : Entry) : ofJson? entry.toJson = some entry := by
  cases entry with
  | literal value =>
    rw [ofJson?, toJson, WrittenLiteral.ofJson?_toJson]
    rfl
  | block values =>
    have all := mapM_written WrittenLiteral.ofJson?_toJson values
    simp only [ofJson?, toJson, WrittenLiteral.ofJson?, block?, all]
    rfl
  | cell content =>
    have read := WrittenCell.ofJson?_toJson content
    rw [ofJson?, toJson, read]
    rfl

section Spelling

open Json (Spelled)

private theorem spelled_many {α : Type} {write : α → Json} (spelled : ∀ item, Spelled (write item))
    (items : List α) : Spelled (.array (items.map write)) := by
  refine .array ?_
  intro json written
  obtain ⟨item, -, rfl⟩ := List.mem_map.1 written
  exact spelled item

theorem WrittenLiteral.spelled_toJson (literal : WrittenLiteral) : Spelled literal.toJson := by
  cases literal with
  | number value => exact .integer value.toInt
  | text spelling => exact .text spelling

theorem OneOrMany.spelled_toJson {α : Type} {write : α → Json}
    (spelled : ∀ item, Spelled (write item)) (written : OneOrMany α) :
    Spelled (written.toJson write) := by
  cases written with
  | one item => exact spelled item
  | many items => exact spelled_many spelled items

theorem WrittenCell.spelled_toJson (cell : WrittenCell) : Spelled cell.toJson := by
  refine .object ?_ ?_
  · intro member written
    exact ⟨member.1.toList, (escape_field _ (mem_fields written)).symm⟩
  · have field : ∀ {α : Type} {write : α → Json}, (∀ item, Spelled (write item)) →
        ∀ (value : Option α) (json : Json), value.map write = some json → Spelled json := by
      intro α write spelled value json written
      obtain ⟨item, -, rfl⟩ := Option.map_eq_some_iff.1 written
      exact spelled item
    have names := OneOrMany.spelled_toJson Spelled.text
    have literals := OneOrMany.spelled_toJson WrittenLiteral.spelled_toJson
    intro member written
    obtain ⟨⟨name, value⟩, listed, mapped⟩ := List.mem_filterMap.1 written
    obtain ⟨json, found, rfl⟩ := Option.map_eq_some_iff.1 mapped
    simp only [List.mem_cons, Prod.mk.injEq, List.not_mem_nil, or_false] at listed
    rcases listed with ⟨-, rfl⟩ | ⟨-, rfl⟩ | ⟨-, rfl⟩ | ⟨-, rfl⟩ | ⟨-, rfl⟩ | ⟨-, rfl⟩ | ⟨-, rfl⟩
    · exact field Spelled.text cell.name json found
    · exact field Spelled.text cell.symbol json found
    · exact field names cell.symbols json found
    · exact field WrittenLiteral.spelled_toJson cell.value json found
    · exact field literals cell.values json found
    · exact field Spelled.text cell.onRead json found
    · exact field names cell.onWrite json found

theorem Entry.spelled_toJson (entry : Entry) : Spelled entry.toJson := by
  cases entry with
  | literal value => exact value.spelled_toJson
  | block values => exact spelled_many WrittenLiteral.spelled_toJson values
  | cell content => exact content.spelled_toJson

private theorem escape_ofAddress (address : Address) :
    Json.escape (Decimal.ofAddress address).toList = (Decimal.ofAddress address).toList := by
  have plain : ∀ c : Char, c.isDigit = true → Json.escapeChar c = [c] := by
    intro c digit
    have printable : ¬ c.toNat < 0x20 := by
      simp only [Char.isDigit, Bool.and_eq_true, decide_eq_true_eq, ge_iff_le,
        UInt32.le_iff_toNat_le] at digit
      have least : 48 ≤ c.toNat := digit.1
      omega
    have noShort : Json.shortEscape? c = none := by
      unfold Json.shortEscape?
      split <;> first | rfl | cases digit
    rw [Json.escapeChar, noShort]
    exact if_neg printable
  have digits : ∀ c ∈ (Decimal.ofAddress address).toList, c.isDigit = true := by
    intro c member
    have listed : c ∈ Nat.toDigits 10 address.toNat := by
      simpa [Decimal.ofAddress] using member
    exact Nat.isDigit_of_mem_toDigits (by decide) (by decide) listed
  revert digits
  generalize (Decimal.ofAddress address).toList = text
  intro digits
  induction text with
  | nil => rfl
  | cons c text ih =>
    rw [Json.escape_cons, plain c (digits c List.mem_cons_self),
      ih fun d member => digits d (List.mem_cons_of_mem c member), List.singleton_append]

theorem ConfigFile.spelled_toJson (file : ConfigFile) : Spelled file.toJson := by
  refine .object ?_ ?_
  · intro member written
    obtain ⟨entry, -, rfl⟩ := List.mem_map.1 written
    exact ⟨(Decimal.ofAddress entry.1).toList, (escape_ofAddress entry.1).symm⟩
  · intro member written
    obtain ⟨entry, -, rfl⟩ := List.mem_map.1 written
    exact entry.2.spelled_toJson

end Spelling

namespace ConfigFile

theorem ofJson?_toJson (file : ConfigFile) : ofJson? file.toJson = some file := by
  have all : (file.toList.map fun entry => (Decimal.ofAddress entry.1, entry.2.toJson)).mapM
      (fun member => do return (← address? member.1, ← Entry.ofJson? member.2)) =
      some file.toList := by
    rw [List.mapM_map]
    refine mapM_eq_self fun entry _ => ?_
    have key : address? (Decimal.ofAddress entry.1) = some entry.1 := by
      rw [address?, Decimal.address?_ofAddress]
      exact if_pos rfl
    simp only [Function.comp_apply, key, Entry.ofJson?_toJson, Option.bind_eq_bind,
      Option.bind_some]
  have own : ofList file.toList = file := congrArg ConfigFile.mk (Sparse.ofList_toList file.entries)
  rw [toJson, ofJson?, all, Option.bind_eq_bind, Option.bind_some, own]
  rfl

theorem parse?_render (file : ConfigFile) : Json.parse? file.render = some file.toJson :=
  Json.parse?_render file.spelled_toJson

/--
Every file reads back from its text, whatever its entries are and whatever strings, numbers and
lists stand in them.
-/
theorem parse_render (file : ConfigFile) : parse file.render = .ok file := by
  rw [parse, parse?_render, Option.bind_some, ofJson?_toJson]

end ConfigFile

end MoveMachine
