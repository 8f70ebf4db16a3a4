import RiskRules.Proofs.Json.Writing

/-!
The outline of a sequence of tokens. A node whose containers are all closed is put together again
from its own tokens, so a written value is read as its outline.
-/

namespace RiskRules.Json

mutual

def Node.IsWhole : Node → Prop
  | .array items ending => itemsWhole items ∧ ending = .closed
  | .object members ending => membersWhole members ∧ ending = .closed
  | .fault _ => False
  | .null => True
  | .bool _ => True
  | .number _ => True
  | .string _ => True

def itemsWhole : List Node → Prop
  | [] => True
  | item :: rest => item.IsWhole ∧ itemsWhole rest

def membersWhole : List (Literal × Node) → Prop
  | [] => True
  | (_, node) :: rest => node.IsWhole ∧ membersWhole rest

end

mutual

theorem isWhole_ofValue (value : Value) : (Node.ofValue value).IsWhole := by
  cases value with
  | array items => exact ⟨itemsWhole_ofItems items, rfl⟩
  | object members => exact ⟨membersWhole_ofMembers members, rfl⟩
  | null => trivial
  | bool value => trivial
  | number value => trivial
  | string text => trivial

theorem itemsWhole_ofItems (items : List Value) : itemsWhole (nodesOfItems items) := by
  match items with
  | [] => trivial
  | item :: rest => exact ⟨isWhole_ofValue item, itemsWhole_ofItems rest⟩

theorem membersWhole_ofMembers (members : List (String × Value)) :
    membersWhole (nodesOfMembers members) := by
  match members with
  | [] => trivial
  | (_, value) :: rest => exact ⟨isWhole_ofValue value, membersWhole_ofMembers rest⟩

end

namespace Progress

def AwaitsValue (progress : Progress) (frames : List Frame) : Prop :=
  ∀ token, token ≠ .closeArray → step progress token = beginValue frames token

def AwaitsKey (progress : Progress) (members : List (Literal × Node)) (frames : List Frame) :
    Prop :=
  ∀ key, step progress (.string key) = .afterKey members key frames

theorem awaitsValue_value (frames : List Frame) : AwaitsValue (.value frames) frames :=
  fun _ _ => rfl

theorem awaitsValue_firstItem (frames : List Frame) :
    AwaitsValue (.firstItem frames) (.array [] :: frames) := by
  intro token different
  cases token <;> first | rfl | exact absurd rfl different

theorem awaitsValue_nextItem (items : List Node) (frames : List Frame) :
    AwaitsValue (.nextItem items frames) (.array items :: frames) := by
  intro token different
  cases token <;> first | rfl | exact absurd rfl different

theorem awaitsKey_firstKey (frames : List Frame) : AwaitsKey (.firstKey frames) [] frames :=
  fun _ => rfl

theorem awaitsKey_nextKey (members : List (Literal × Node)) (frames : List Frame) :
    AwaitsKey (.nextKey members frames) members frames :=
  fun _ => rfl

mutual

theorem foldl_tokens (node : Node) (whole : node.IsWhole) {progress : Progress}
    {frames : List Frame} (awaits : AwaitsValue progress frames) :
    node.tokens.foldl step progress = deliver node frames := by
  match node, whole with
  | .null, _ => exact awaits .null (by simp)
  | .bool truth, _ => exact awaits (.bool truth) (by simp)
  | .number numeral, _ => exact awaits (.number numeral) (by simp)
  | .string literal, _ => exact awaits (.string literal) (by simp)
  | .array [] _, ⟨_, rfl⟩ =>
      rw [Node.tokens, itemTokens, List.cons_append, List.foldl_cons, awaits .openArray (by simp)]
      rfl
  | .array (item :: rest) _, ⟨itemsWhole, rfl⟩ =>
      rw [Node.tokens, List.cons_append, List.foldl_cons, awaits .openArray (by simp),
        List.foldl_append, beginValue,
        foldl_itemTokens (item :: rest) itemsWhole (by simp) (awaitsValue_firstItem frames)]
      simp [step]
  | .object [] _, ⟨_, rfl⟩ =>
      rw [Node.tokens, memberTokens, List.cons_append, List.foldl_cons,
        awaits .openObject (by simp)]
      rfl
  | .object (member :: rest) _, ⟨membersWhole, rfl⟩ =>
      rw [Node.tokens, List.cons_append, List.foldl_cons, awaits .openObject (by simp),
        List.foldl_append, beginValue,
        foldl_memberTokens (member :: rest) membersWhole (by simp) (awaitsKey_firstKey frames)]
      simp [step]

theorem foldl_itemTokens (items : List Node) (whole : itemsWhole items) (nonempty : items ≠ [])
    {progress : Progress} {done : List Node} {frames : List Frame}
    (awaits : AwaitsValue progress (.array done :: frames)) :
    (itemTokens items).foldl step progress = .afterItem (items.reverse ++ done) frames := by
  match items, whole with
  | [], _ => exact absurd rfl nonempty
  | [item], ⟨itemWhole, _⟩ => exact foldl_tokens item itemWhole awaits
  | item :: next :: rest, ⟨itemWhole, restWhole⟩ =>
      rw [itemTokens, List.foldl_append, foldl_tokens item itemWhole awaits, List.foldl_cons,
        deliver, step, foldl_itemTokens (next :: rest) restWhole (by simp)
          (awaitsValue_nextItem (item :: done) frames)]
      simp

theorem foldl_memberTokens (members : List (Literal × Node)) (whole : membersWhole members)
    (nonempty : members ≠ []) {progress : Progress} {done : List (Literal × Node)}
    {frames : List Frame} (awaits : AwaitsKey progress done frames) :
    (memberTokens members).foldl step progress = .afterMember (members.reverse ++ done) frames := by
  match members, whole with
  | [], _ => exact absurd rfl nonempty
  | [(key, node)], ⟨nodeWhole, _⟩ =>
      rw [memberTokens, List.foldl_cons, awaits key, List.foldl_cons, step,
        foldl_tokens node nodeWhole (awaitsValue_value (.object done key :: frames))]
      rfl
  | (key, node) :: next :: rest, ⟨nodeWhole, restWhole⟩ =>
      rw [memberTokens, List.cons_append, List.cons_append, List.foldl_cons, awaits key,
        List.foldl_cons, step, List.foldl_append,
        foldl_tokens node nodeWhole (awaitsValue_value (.object done key :: frames)),
        List.foldl_cons, deliver, step, foldl_memberTokens (next :: rest) restWhole (by simp)
          (awaitsKey_nextKey ((key, node) :: done) frames)]
      simp

end

end Progress

theorem Outline.ofTokens_tokens {node : Node} (whole : node.IsWhole) :
    ofTokens node.tokens = ⟨node, false⟩ := by
  rw [ofTokens, Progress.foldl_tokens node whole (Progress.awaitsValue_value [])]
  rfl

theorem Outline.ofText_compact {value : Value} (whole : value.NoFloats) :
    ofText value.compact = ⟨.ofValue value, false⟩ := by
  have written := tokens_compactChars value whole delimits_nil
  rw [ofText, Value.compact, String.toList_ofList, ← List.append_nil value.compactChars, written,
    tokens, List.append_nil, ofTokens_tokens (isWhole_ofValue value)]

theorem Outline.ofText_pretty {value : Value} (whole : value.NoFloats) :
    ofText (value.pretty ++ "\n") = ⟨.ofValue value, false⟩ := by
  have written := tokens_prettyChars 0 value whole (delimits_cons [] (by decide) : Delimits ['\n'])
  rw [ofText, Value.pretty, String.toList_append, String.toList_ofList]
  change ofTokens (tokens (value.prettyChars 0 ++ ['\n'])) = _
  rw [written, tokens_of_space rfl, tokens, List.append_nil,
    ofTokens_tokens (isWhole_ofValue value)]

end RiskRules.Json
