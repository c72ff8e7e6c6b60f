import MoveMachine.Json.Parser
import MoveMachine.Proofs.JsonScan

set_option autoImplicit false

namespace MoveMachine.Json

/-- A value whose keys, at every depth, are spellings of strings. -/
inductive Spelled : Json → Prop
  | null : Spelled .null
  | integer (value : Int) : Spelled (.integer value)
  | text (value : String) : Spelled (.text value)
  | array {items : List Json} : (∀ item ∈ items, Spelled item) → Spelled (.array items)
  | object {members : List (String × Json)} :
      (∀ member ∈ members, ∃ text, member.1.toList = escape text) →
      (∀ member ∈ members, Spelled member.2) → Spelled (.object members)

theorem printItems_eq_map (depth : Nat) (items : List Json) :
    printItems depth items = items.map (print depth) := by
  induction items with
  | nil => rfl
  | cons item items ih => rw [printItems, ih, List.map_cons]

theorem printMembers_eq_map (depth : Nat) (members : List (String × Json)) :
    printMembers depth members = members.map fun member =>
      quote member.1.toList ++ ':' :: ' ' :: print depth member.2 := by
  induction members with
  | nil => rfl
  | cons member members ih => rw [printMembers, ih, List.map_cons]

def Token.enclose (opening closing : Token) : List (List Token) → List Token
  | [] => [opening, closing]
  | first :: rest =>
    opening :: first ++ rest.flatMap (fun part => .comma :: part) ++ [closing]

mutual

def tokens : Json → List Token
  | .null => [.null]
  | .integer value => [.integer value]
  | .text value => [.quoted (escape value.toList)]
  | .array items => Token.enclose .openArray .closeArray (itemTokens items)
  | .object members => Token.enclose .openObject .closeObject (memberTokens members)

def itemTokens : List Json → List (List Token)
  | [] => []
  | item :: rest => tokens item :: itemTokens rest

def memberTokens : List (String × Json) → List (List Token)
  | [] => []
  | (key, value) :: rest =>
    (.quoted key.toList :: .colon :: tokens value) :: memberTokens rest

end

theorem itemTokens_eq_map (items : List Json) : itemTokens items = items.map tokens := by
  induction items with
  | nil => rfl
  | cons item items ih => rw [itemTokens, ih, List.map_cons]

theorem memberTokens_eq_map (members : List (String × Json)) :
    memberTokens members = members.map fun member =>
      .quoted member.1.toList :: .colon :: tokens member.2 := by
  induction members with
  | nil => rfl
  | cons member members ih => rw [memberTokens, ih, List.map_cons]

open Token (Closed Scans isDelimiter)

section Parts

variable {α : Type} {text : α → List Char} {tokens : α → List Token}

private theorem begins_further (depth : Nat) (parts : List (List Char)) :
    ∀ c ∈ (parts.flatMap fun part => ',' :: newline (depth + 1) ++ part).head?,
      isDelimiter c = true := by
  intro c head
  cases parts with
  | nil => cases head
  | cons part parts =>
    cases head
    rfl

private theorem scans_further (depth : Nat) {parts : List α}
    (scans : ∀ part ∈ parts, Scans (text part) (tokens part)) :
    Scans ((parts.map text).flatMap fun part => ',' :: newline (depth + 1) ++ part)
      ((parts.map tokens).flatMap fun part => .comma :: part) := by
  induction parts with
  | nil =>
    intro before rest _
    rfl
  | cons part parts ih =>
    have comma : Closed (',' :: newline (depth + 1)) [.comma] :=
      (Closed.punctuation (c := ',') rfl).append_closed (.newline (depth + 1))
    have first := comma.append (scans part List.mem_cons_self)
    have further := ih fun other member => scans other (List.mem_cons_of_mem part member)
    rw [List.map_cons, List.map_cons, List.flatMap_cons, List.flatMap_cons]
    exact first.append further (begins_further depth _)

theorem closed_enclose {opening closing : Char} {openToken closeToken : Token}
    (opens : Token.ofPunctuation? opening = some openToken)
    (closes : Token.ofPunctuation? closing = some closeToken) (depth : Nat) {parts : List α}
    (scans : ∀ part ∈ parts, Scans (text part) (tokens part)) :
    Closed (enclose opening closing depth (parts.map text))
      (Token.enclose openToken closeToken (parts.map tokens)) := by
  have opened := Closed.punctuation opens
  have closed := Closed.punctuation closes
  cases parts with
  | nil => exact opened.append_closed closed
  | cons first parts =>
    have start := (opened.append_closed (.newline (depth + 1))).append
      (scans first List.mem_cons_self)
    have further := scans_further depth
      fun other member => scans other (List.mem_cons_of_mem first member)
    have inner := start.append further (begins_further depth _)
    have whole := inner.append_closed ((Closed.newline depth).append_closed closed)
      ⟨'\n', rfl, rfl⟩
    simpa only [enclose, Token.enclose, List.map_cons, List.append_assoc, List.cons_append,
      List.nil_append] using whole

end Parts

theorem scans_print {value : Json} (spelled : Spelled value) (depth : Nat) :
    Scans (print depth value) (tokens value) := by
  induction spelled generalizing depth with
  | null =>
    change Scans ['n', 'u', 'l', 'l'] [.null]
    exact Token.scans_word rfl (by decide) rfl
  | integer value => exact Token.scans_integer value
  | text value => exact (Token.closed_quote value.toList).scans
  | @array items _ ih =>
    rw [print, tokens, printItems_eq_map, itemTokens_eq_map]
    exact (closed_enclose rfl rfl depth fun item member => ih item member (depth + 1)).scans
  | @object members keys _ ih =>
    rw [print, tokens, printMembers_eq_map, memberTokens_eq_map]
    refine (closed_enclose rfl rfl depth fun member listed => ?_).scans
    obtain ⟨key, spelling⟩ := keys member listed
    have colon : Closed [':', ' '] [.colon] :=
      (Closed.punctuation (c := ':') rfl).append_closed (.blank (c := ' ') rfl)
    have named : Closed (quote member.1.toList) [.quoted member.1.toList] := by
      rw [spelling]
      exact Token.closed_quote key
    exact named.append (colon.append (ih member listed (depth + 1)))

private theorem tokens_eq_cons (value : Json) :
    ∃ token rest, tokens value = token :: rest ∧ token ≠ .closeArray := by
  have enclosed : ∀ opening closing parts, ∃ rest,
      Token.enclose opening closing parts = opening :: rest := by
    intro opening closing parts
    cases parts <;> exact ⟨_, rfl⟩
  cases value with
  | null => exact ⟨.null, [], rfl, nofun⟩
  | integer value => exact ⟨.integer value, [], rfl, nofun⟩
  | text value => exact ⟨.quoted _, [], rfl, nofun⟩
  | array items =>
    obtain ⟨rest, begins⟩ := enclosed .openArray .closeArray (itemTokens items)
    exact ⟨.openArray, rest, begins, nofun⟩
  | object members =>
    obtain ⟨rest, begins⟩ := enclosed .openObject .closeObject (memberTokens members)
    exact ⟨.openObject, rest, begins, nofun⟩

namespace Parse

/-- The tokens of a value deliver it to whatever is open around it. -/
def Delivers (value : Json) : Prop :=
  ∀ stack rest, (tokens value ++ rest).foldlM step ⟨.value, stack⟩ =
    rest.foldlM step (deliver value stack)

private theorem further_items {items : List Json} (delivers : ∀ item ∈ items, Delivers item)
    (before : List Json) (stack : List Frame) (rest : List Token) :
    ((itemTokens items).flatMap (fun part => .comma :: part) ++ rest).foldlM step
        ⟨.afterItem before, stack⟩ =
      rest.foldlM step ⟨.afterItem (items.reverse ++ before), stack⟩ := by
  induction items generalizing before with
  | nil => rfl
  | cons item items ih =>
    rw [itemTokens, List.flatMap_cons, List.cons_append, List.cons_append, List.foldlM_cons,
      List.append_assoc]
    change List.foldlM step ⟨.value, .item before :: stack⟩ _ = _
    rw [delivers item List.mem_cons_self]
    change List.foldlM step ⟨.afterItem (item :: before), stack⟩ _ = _
    rw [ih fun other member => delivers other (List.mem_cons_of_mem item member)]
    simp only [List.reverse_cons, List.append_assoc, List.singleton_append]

private theorem further_members {members : List (String × Json)}
    (delivers : ∀ member ∈ members, Delivers member.2) (before : List (String × Json))
    (stack : List Frame) (rest : List Token) :
    ((memberTokens members).flatMap (fun part => .comma :: part) ++ rest).foldlM step
        ⟨.afterMember before, stack⟩ =
      rest.foldlM step ⟨.afterMember (members.reverse ++ before), stack⟩ := by
  induction members generalizing before with
  | nil => rfl
  | cons member members ih =>
    obtain ⟨key, value⟩ := member
    simp only [memberTokens, List.flatMap_cons, List.cons_append, List.append_assoc]
    change List.foldlM step ⟨.value, .member before (String.ofList key.toList) :: stack⟩ _ = _
    rw [delivers (key, value) List.mem_cons_self, String.ofList_toList]
    change List.foldlM step ⟨.afterMember ((key, value) :: before), stack⟩ _ = _
    rw [ih fun other listed => delivers other (List.mem_cons_of_mem _ listed)]
    simp only [List.reverse_cons, List.append_assoc, List.singleton_append]

private theorem step_openedArray {token : Token} (noClose : token ≠ .closeArray)
    (stack : List Frame) :
    step ⟨.openedArray, stack⟩ token = step ⟨.value, .item [] :: stack⟩ token := by
  cases token with
  | closeArray => exact absurd rfl noClose
  | _ => rfl

private theorem delivers_array {items : List Json} (delivers : ∀ item ∈ items, Delivers item) :
    Delivers (.array items) := by
  intro stack rest
  cases items with
  | nil => rfl
  | cons first items =>
    obtain ⟨token, more, begins, noClose⟩ := tokens_eq_cons first
    have opened : ∀ tail, (tokens first ++ tail).foldlM step ⟨.openedArray, stack⟩ =
        (tokens first ++ tail).foldlM step ⟨.value, .item [] :: stack⟩ := by
      intro tail
      rw [begins, List.cons_append, List.foldlM_cons, List.foldlM_cons,
        step_openedArray noClose]
    simp only [tokens, itemTokens, Token.enclose, List.cons_append, List.append_assoc]
    change List.foldlM step ⟨.openedArray, stack⟩ _ = _
    rw [opened, delivers first List.mem_cons_self]
    change List.foldlM step ⟨.afterItem [first], stack⟩ _ = _
    rw [further_items fun item member => delivers item (List.mem_cons_of_mem first member)]
    change rest.foldlM step (deliver (.array (items.reverse ++ [first]).reverse) stack) = _
    rw [List.reverse_append, List.reverse_reverse]
    rfl

private theorem delivers_object {members : List (String × Json)}
    (delivers : ∀ member ∈ members, Delivers member.2) : Delivers (.object members) := by
  intro stack rest
  cases members with
  | nil => rfl
  | cons first members =>
    obtain ⟨key, value⟩ := first
    simp only [tokens, memberTokens, Token.enclose, List.cons_append, List.append_assoc]
    change List.foldlM step ⟨.value, .member [] (String.ofList key.toList) :: stack⟩ _ = _
    rw [delivers (key, value) List.mem_cons_self, String.ofList_toList]
    change List.foldlM step ⟨.afterMember [(key, value)], stack⟩ _ = _
    rw [further_members fun member listed => delivers member (List.mem_cons_of_mem _ listed)]
    change rest.foldlM step
      (deliver (.object (members.reverse ++ [(key, value)]).reverse) stack) = _
    rw [List.reverse_append, List.reverse_reverse]
    rfl

theorem delivers {value : Json} (spelled : Spelled value) : Delivers value := by
  induction spelled with
  | null =>
    intro stack rest
    rfl
  | integer value =>
    intro stack rest
    rfl
  | text value =>
    intro stack rest
    have begun : step ⟨.value, stack⟩ (.quoted (escape value.toList)) =
        some (deliver (.text value) stack) := by
      change (unescape (escape value.toList)).map _ = _
      rw [unescape_escape, Option.map_some, String.ofList_toList]
    rw [tokens, List.singleton_append, List.foldlM_cons, begun]
    rfl
  | array _ ih => exact delivers_array ih
  | object _ _ ih => exact delivers_object ih

end Parse

/-- The text of a value reads as that value. -/
theorem parse?_render {value : Json} (spelled : Spelled value) :
    parse? value.render = some value := by
  have scanned : Token.scan? (print 0 value) = some (tokens value) := by
    have scans := scans_print spelled 0 [] [] nofun
    simp only [List.append_nil] at scans
    change Token.finish ⟨[], .between⟩ (print 0 value) = _
    rw [scans]
    change some (tokens value).reverse.reverse = _
    rw [List.reverse_reverse]
  have parsed : ofTokens? (tokens value) = some value := by
    have delivered := Parse.delivers spelled [] []
    rw [List.append_nil] at delivered
    unfold ofTokens?
    rw [delivered]
    rfl
  rw [parse?, render, String.toList_ofList, scanned, Option.bind_some, parsed]

end MoveMachine.Json
