import RiskRules.Proofs.Json.Reading

/-!
Texts that write a node, with any white space between the tokens and any spelling of them. Such a
text is read as the node, and a text that is read without a fault writes the node it is read as.
-/

namespace RiskRules.Json

def Node.Writes (node : Node) (text : String) : Prop :=
  node.IsWhole ∧ Spelled node.tokens text.toList

/-! ### What is written is read -/

theorem Apart.cons {token : Token} {rest : List Token} (mark : ¬token.IsNumber)
    (apart : Apart rest) : Apart (token :: rest) :=
  ⟨fun isNumber => absurd isNumber mark, apart⟩

theorem startsOtherwise_cons {token : Token} (rest : List Token) (mark : ¬token.IsNumber) :
    StartsOtherwise (token :: rest) := by
  simpa [StartsOtherwise] using mark

mutual

theorem apart_tokens (node : Node) {rest : List Token} (apart : Apart rest)
    (ends : StartsOtherwise rest) : Apart (node.tokens ++ rest) := by
  match node with
  | .null => exact .cons id apart
  | .bool _ => exact .cons id apart
  | .number _ => exact ⟨fun _ => ends, apart⟩
  | .string _ => exact .cons id apart
  | .fault _ => exact .cons id apart
  | .array items _ =>
      have inside : Apart (itemTokens items ++ .closeArray :: rest) :=
        apart_itemTokens items (apart.cons id) (startsOtherwise_cons rest id)
      rw [Node.tokens, List.cons_append, List.cons_append, List.append_assoc]
      exact .cons id inside
  | .object members _ =>
      have inside : Apart (memberTokens members ++ .closeObject :: rest) :=
        apart_memberTokens members (apart.cons id) (startsOtherwise_cons rest id)
      rw [Node.tokens, List.cons_append, List.cons_append, List.append_assoc]
      exact .cons id inside

theorem apart_itemTokens (items : List Node) {rest : List Token} (apart : Apart rest)
    (ends : StartsOtherwise rest) : Apart (itemTokens items ++ rest) := by
  match items with
  | [] => exact apart
  | [item] => exact apart_tokens item apart ends
  | item :: next :: others =>
      have after := apart_itemTokens (next :: others) apart ends
      rw [itemTokens, List.append_assoc]
      exact apart_tokens item (after.cons id) (startsOtherwise_cons _ id)

theorem apart_memberTokens (members : List (Literal × Node)) {rest : List Token}
    (apart : Apart rest) (ends : StartsOtherwise rest) : Apart (memberTokens members ++ rest) := by
  match members with
  | [] => exact apart
  | [(key, node)] => exact .cons id (.cons id (apart_tokens node apart ends))
  | (key, node) :: next :: others =>
      have after := apart_memberTokens (next :: others) apart ends
      rw [memberTokens, List.append_assoc]
      exact .cons id (.cons id
        (apart_tokens node (after.cons id) (startsOtherwise_cons _ id)))

end

theorem Node.Writes.outline {node : Node} {text : String} (writes : node.Writes text) :
    Outline.ofText text = ⟨node, false⟩ := by
  have apart : Apart (node.tokens ++ []) := apart_tokens node trivial (by simp [StartsOtherwise])
  rw [List.append_nil] at apart
  rw [Outline.ofText, tokens_of_spelled writes.2 apart, Outline.ofTokens_tokens writes.1]

/-! ### What is read was written -/

def tokensBefore : List Node → List Token
  | [] => []
  | item :: items => tokensBefore items ++ (item.tokens ++ [.comma])

def memberTokensBefore : List (Literal × Node) → List Token
  | [] => []
  | (key, node) :: members =>
      memberTokensBefore members ++ (.string key :: .colon :: node.tokens ++ [.comma])

def framesTokens : List Frame → List Token
  | [] => []
  | .array items :: frames => framesTokens frames ++ .openArray :: tokensBefore items
  | .object members key :: frames =>
      framesTokens frames ++ .openObject :: memberTokensBefore members ++ [.string key, .colon]

theorem itemTokens_concat {items : List Node} (nonempty : items ≠ []) (last : Node) :
    itemTokens (items ++ [last]) = itemTokens items ++ .comma :: last.tokens := by
  match items with
  | [] => exact absurd rfl nonempty
  | [item] => rfl
  | item :: next :: rest =>
      have after := itemTokens_concat (List.cons_ne_nil next rest) last
      simp only [List.cons_append] at after ⊢
      simp only [itemTokens, after, List.append_assoc, List.cons_append]

theorem memberTokens_concat {members : List (Literal × Node)} (nonempty : members ≠ [])
    (key : Literal) (node : Node) :
    memberTokens (members ++ [(key, node)]) =
      memberTokens members ++ .comma :: .string key :: .colon :: node.tokens := by
  match members with
  | [] => exact absurd rfl nonempty
  | [member] => simp [memberTokens]
  | member :: next :: rest =>
      have after := memberTokens_concat (List.cons_ne_nil next rest) key node
      simp only [List.cons_append] at after ⊢
      simp only [memberTokens, after, List.append_assoc, List.cons_append]

theorem itemTokens_reverse (item : Node) (items : List Node) :
    itemTokens (item :: items).reverse = tokensBefore items ++ item.tokens := by
  induction items generalizing item with
  | nil => rfl
  | cons next items ih =>
      rw [List.reverse_cons, itemTokens_concat (by simp), ih, tokensBefore]
      simp only [List.append_assoc, List.cons_append, List.nil_append]

theorem memberTokens_reverse (key : Literal) (node : Node) (members : List (Literal × Node)) :
    memberTokens ((key, node) :: members).reverse =
      memberTokensBefore members ++ .string key :: .colon :: node.tokens := by
  induction members generalizing key node with
  | nil => rfl
  | cons next members ih =>
      obtain ⟨nextKey, nextNode⟩ := next
      rw [List.reverse_cons, memberTokens_concat (by simp), ih, memberTokensBefore]
      simp only [List.append_assoc, List.cons_append, List.nil_append]

namespace Progress

/-- The tokens by which a machine has come this far. Whoever has stopped has met something that
does not belong there. -/
inductive Reads : Progress → List Token → Prop
  | value (frames : List Frame) : Reads (.value frames) (framesTokens frames)
  | firstItem (frames : List Frame) :
      Reads (.firstItem frames) (framesTokens frames ++ [.openArray])
  | nextItem (items : List Node) (frames : List Frame) :
      Reads (.nextItem items frames) (framesTokens (.array items :: frames))
  | afterItem (item : Node) (items : List Node) (frames : List Frame) :
      Reads (.afterItem (item :: items) frames)
        (framesTokens (.array items :: frames) ++ item.tokens)
  | firstKey (frames : List Frame) :
      Reads (.firstKey frames) (framesTokens frames ++ [.openObject])
  | nextKey (members : List (Literal × Node)) (frames : List Frame) :
      Reads (.nextKey members frames)
        (framesTokens frames ++ .openObject :: memberTokensBefore members)
  | afterKey (members : List (Literal × Node)) (key : Literal) (frames : List Frame) :
      Reads (.afterKey members key frames)
        (framesTokens frames ++ .openObject :: memberTokensBefore members ++ [.string key])
  | afterMember (key : Literal) (node : Node) (members : List (Literal × Node))
      (frames : List Frame) :
      Reads (.afterMember ((key, node) :: members) frames)
        (framesTokens (.object members key :: frames) ++ node.tokens)
  | complete (root : Node) : Reads (.complete root) root.tokens
  | stopped {outline : Outline} (astray : outline.surplus = true ∨ ¬outline.root.IsWhole)
      (tokens : List Token) : Reads (.stopped outline) tokens

theorem reads_deliver (node : Node) (frames : List Frame) :
    Reads (deliver node frames) (framesTokens frames ++ node.tokens) := by
  match frames with
  | [] => exact .complete node
  | .array items :: frames => exact .afterItem node items frames
  | .object members key :: frames => exact .afterMember key node members frames

theorem isWhole_enclose {node : Node} {frames : List Frame}
    (whole : (enclose node frames).IsWhole) : frames = [] ∧ node.IsWhole := by
  induction frames generalizing node with
  | nil => exact ⟨rfl, whole⟩
  | cons frame frames ih =>
      cases frame with
      | array items => exact absurd (ih whole).2.2 (by simp)
      | object members key => exact absurd (ih whole).2.2 (by simp)

theorem reads_stop {node : Node} (fault : ¬node.IsWhole) (frames : List Frame)
    (tokens : List Token) : Reads (stop node frames) tokens :=
  .stopped (.inr fun whole => fault (isWhole_enclose whole).2) tokens

theorem reads_stopArray (items : List Node) {ending : ArrayEnding} (fault : ending ≠ .closed)
    (frames : List Frame) (tokens : List Token) : Reads (stopArray items ending frames) tokens :=
  reads_stop (by simp [Node.IsWhole, fault]) frames tokens

theorem reads_stopObject (members : List (Literal × Node)) {ending : ObjectEnding}
    (fault : ending ≠ .closed) (frames : List Frame) (tokens : List Token) :
    Reads (stopObject members ending frames) tokens :=
  reads_stop (by simp [Node.IsWhole, fault]) frames tokens

theorem reads_beginValue (frames : List Frame) (token : Token) :
    Reads (beginValue frames token) (framesTokens frames ++ [token]) := by
  cases token with
  | null => exact reads_deliver .null frames
  | bool truth => exact reads_deliver (.bool truth) frames
  | number numeral => exact reads_deliver (.number numeral) frames
  | string literal => exact reads_deliver (.string literal) frames
  | openArray => exact .firstItem frames
  | openObject => exact .firstKey frames
  | fault fault => exact reads_stop (by simp [Node.IsWhole]) frames _
  | closeArray => exact reads_stop (by simp [Node.IsWhole]) frames _
  | closeObject => exact reads_stop (by simp [Node.IsWhole]) frames _
  | comma => exact reads_stop (by simp [Node.IsWhole]) frames _
  | colon => exact reads_stop (by simp [Node.IsWhole]) frames _

theorem reads_step {progress : Progress} {tokens : List Token} (reads : progress.Reads tokens)
    (token : Token) : Reads (step progress token) (tokens ++ [token]) := by
  cases reads with
  | value frames => exact reads_beginValue frames token
  | firstItem frames =>
      by_cases close : token = .closeArray
      · subst close
        simpa [step, Node.tokens, itemTokens] using reads_deliver (.array [] .closed) frames
      · rw [awaitsValue_firstItem frames token close]
        exact reads_beginValue (.array [] :: frames) token
  | nextItem items frames =>
      by_cases close : token = .closeArray
      · subst close
        exact reads_stopArray items (by decide) frames _
      · rw [awaitsValue_nextItem items frames token close]
        exact reads_beginValue (.array items :: frames) token
  | afterItem item items frames =>
      cases token with
      | comma =>
          simpa [step, framesTokens, tokensBefore] using Reads.nextItem (item :: items) frames
      | closeArray =>
          have closed := reads_deliver (.array (item :: items).reverse .closed) frames
          simpa only [step, Node.tokens, itemTokens_reverse, framesTokens, List.cons_append,
            List.append_assoc] using closed
      | _ => exact reads_stopArray _ (by decide) frames _
  | firstKey frames =>
      cases token with
      | string key => simpa [step, memberTokensBefore] using Reads.afterKey [] key frames
      | closeObject =>
          simpa [step, Node.tokens, memberTokens] using reads_deliver (.object [] .closed) frames
      | _ => exact reads_stopObject _ (by decide) frames _
  | nextKey members frames =>
      cases token with
      | string key => exact .afterKey members key frames
      | _ => exact reads_stopObject _ (by decide) frames _
  | afterKey members key frames =>
      cases token with
      | colon => simpa [step, framesTokens] using Reads.value (.object members key :: frames)
      | _ => exact reads_stopObject _ (by simp) frames _
  | afterMember key node members frames =>
      cases token with
      | comma =>
          simpa [step, framesTokens, memberTokensBefore] using
            Reads.nextKey ((key, node) :: members) frames
      | closeObject =>
          have closed := reads_deliver (.object ((key, node) :: members).reverse .closed) frames
          simpa only [step, Node.tokens, memberTokens_reverse, framesTokens, List.cons_append,
            List.nil_append, List.append_assoc] using closed
      | _ => exact reads_stopObject _ (by decide) frames _
  | complete root => exact .stopped (.inl rfl) _
  | stopped astray => exact .stopped astray _

theorem reads_foldl (tokens : List Token) {progress : Progress} {before : List Token}
    (reads : progress.Reads before) : (tokens.foldl step progress).Reads (before ++ tokens) := by
  induction tokens generalizing progress before with
  | nil => simpa using reads
  | cons token tokens ih => simpa using ih (reads_step reads token)

/-- What ends as a whole node without surplus has read the tokens of this node. -/
theorem tokens_of_finish {progress : Progress} {tokens : List Token} {root : Node}
    (reads : progress.Reads tokens) (ended : progress.finish = ⟨root, false⟩)
    (whole : root.IsWhole) : tokens = root.tokens := by
  have astray : ∀ {node : Node} {frames : List Frame}, ¬node.IsWhole →
      (⟨enclose node frames, false⟩ : Outline) ≠ ⟨root, false⟩ := by
    rintro node frames fault same
    cases same
    exact fault (isWhole_enclose whole).2
  cases reads with
  | complete =>
      cases ended
      rfl
  | stopped strayed =>
      obtain rfl : _ = (⟨root, false⟩ : Outline) := ended
      simp [whole] at strayed
  | _ => exact absurd ended (astray (by simp [Node.IsWhole]))

end Progress

theorem Outline.tokens_of_ofTokens {tokens : List Token} {root : Node}
    (read : ofTokens tokens = ⟨root, false⟩) (whole : root.IsWhole) : tokens = root.tokens :=
  Progress.tokens_of_finish (Progress.reads_foldl tokens (.value [])) read whole

/-! A node that can be skipped is whole, and its strings end with their closing quotes. -/

theorem Literal.skip_eq_ok {literal : Literal} : literal.skip = .ok () ↔ literal.fault = none := by
  unfold Literal.skip
  split <;> simp_all [malformed]

theorem ArrayEnding.skip_eq_ok {ending : ArrayEnding} :
    ending.skip = .ok () ↔ ending = .closed := by
  cases ending <;> simp [skip, check, malformed]

theorem ObjectEnding.skip_eq_ok {ending : ObjectEnding} :
    ending.skip = .ok () ↔ ending = .closed := by
  cases ending with
  | noColon key atEnd =>
      simp only [skip, bind_eq_ok, reduceCtorEq, iff_false]
      rintro ⟨_, _, broken⟩
      cases broken
  | _ => simp [skip, check, malformed]

mutual

theorem skip_iff_sound (node : Node) :
    node.skip = .ok () ↔ node.IsWhole ∧ ∀ token ∈ node.tokens, token.IsSound := by
  match node with
  | .null => simp [Node.skip, Node.IsWhole, Node.tokens, Token.IsSound]
  | .bool _ => simp [Node.skip, Node.IsWhole, Node.tokens, Token.IsSound]
  | .number _ => simp [Node.skip, Node.IsWhole, Node.tokens, Token.IsSound]
  | .string literal =>
      simp [Node.skip, Literal.skip_eq_ok, Node.IsWhole, Node.tokens, Token.IsSound]
  | .fault _ => simp [Node.skip, malformed, Node.IsWhole]
  | .array items ending =>
      simp only [Node.skip, unit_bind_eq_ok, skipItems_iff_sound items, ArrayEnding.skip_eq_ok,
        Node.IsWhole, Node.tokens, List.cons_append, List.forall_mem_cons, List.forall_mem_append]
      constructor
      · rintro ⟨⟨whole, sound⟩, ended⟩
        exact ⟨⟨whole, ended⟩, trivial, sound, trivial, by simp⟩
      · rintro ⟨⟨whole, ended⟩, _, sound, _⟩
        exact ⟨⟨whole, sound⟩, ended⟩
  | .object members ending =>
      simp only [Node.skip, unit_bind_eq_ok, skipMembers_iff_sound members, ObjectEnding.skip_eq_ok,
        Node.IsWhole, Node.tokens, List.cons_append, List.forall_mem_cons, List.forall_mem_append]
      constructor
      · rintro ⟨⟨whole, sound⟩, ended⟩
        exact ⟨⟨whole, ended⟩, trivial, sound, trivial, by simp⟩
      · rintro ⟨⟨whole, ended⟩, _, sound, _⟩
        exact ⟨⟨whole, sound⟩, ended⟩

theorem skipItems_iff_sound (items : List Node) :
    skipItems items = .ok () ↔
      itemsWhole items ∧ ∀ token ∈ itemTokens items, token.IsSound := by
  match items with
  | [] => simp [skipItems, itemsWhole, itemTokens]
  | [item] => simp [skipItems, unit_bind_eq_ok, skip_iff_sound item, itemsWhole, itemTokens]
  | item :: next :: rest =>
      rw [skipItems, unit_bind_eq_ok, skip_iff_sound item, skipItems_iff_sound (next :: rest)]
      simp only [itemTokens, itemsWhole, List.forall_mem_append, List.forall_mem_cons]
      constructor
      · rintro ⟨⟨whole, sound⟩, othersWhole, othersSound⟩
        exact ⟨⟨whole, othersWhole⟩, sound, trivial, othersSound⟩
      · rintro ⟨⟨whole, othersWhole⟩, sound, _, othersSound⟩
        exact ⟨⟨whole, sound⟩, othersWhole, othersSound⟩

theorem skipMembers_iff_sound (members : List (Literal × Node)) :
    skipMembers members = .ok () ↔
      membersWhole members ∧ ∀ token ∈ memberTokens members, token.IsSound := by
  match members with
  | [] => simp [skipMembers, membersWhole, memberTokens]
  | [(key, node)] =>
      simp only [skipMembers, unit_bind_eq_ok, Literal.skip_eq_ok, skip_iff_sound node,
        membersWhole, memberTokens, List.forall_mem_cons]
      constructor
      · rintro ⟨named, ⟨whole, sound⟩, _⟩
        exact ⟨⟨whole, trivial⟩, named, trivial, sound⟩
      · rintro ⟨⟨whole, _⟩, named, _, sound⟩
        exact ⟨named, ⟨whole, sound⟩, trivial⟩
  | (key, node) :: next :: rest =>
      rw [skipMembers.eq_2, unit_bind_eq_ok, unit_bind_eq_ok, Literal.skip_eq_ok,
        skip_iff_sound node, skipMembers_iff_sound (next :: rest)]
      simp only [memberTokens, membersWhole, List.cons_append, List.forall_mem_append,
        List.forall_mem_cons]
      constructor
      · rintro ⟨named, ⟨whole, sound⟩, othersWhole, othersSound⟩
        exact ⟨⟨whole, othersWhole⟩, named, trivial, sound, trivial, othersSound⟩
      · rintro ⟨⟨whole, othersWhole⟩, named, _, sound, _, othersSound⟩
        exact ⟨named, ⟨whole, sound⟩, othersWhole, othersSound⟩

end

theorem Token.Spells.isSound {token : Token} {word : List Char} (spells : token.Spells word) :
    token.IsSound := by
  cases spells with
  | fixed listed =>
      simp only [fixedWords, List.mem_cons, Prod.mk.injEq, List.not_mem_nil, or_false] at listed
      rcases listed with ⟨_, rfl⟩ | ⟨_, rfl⟩ | ⟨_, rfl⟩ | ⟨_, rfl⟩ | ⟨_, rfl⟩ | ⟨_, rfl⟩ |
        ⟨_, rfl⟩ | ⟨_, rfl⟩ | ⟨_, rfl⟩ <;> trivial
  | number => trivial
  | string => rfl

theorem Spelled.isSound {tokens : List Token} {chars : List Char}
    (spelled : Spelled tokens chars) : ∀ token ∈ tokens, token.IsSound := by
  induction spelled with
  | nil => exact fun _ member => absurd member List.not_mem_nil
  | cons _ first _ ih => exact List.forall_mem_cons.mpr ⟨first.isSound, ih⟩

theorem Node.Writes.skip {node : Node} {text : String} (writes : node.Writes text) :
    node.skip = .ok () :=
  (skip_iff_sound node).mpr ⟨writes.1, writes.2.isSound⟩

theorem Node.writes_of_ofText {node : Node} {text : String}
    (read : Outline.ofText text = ⟨node, false⟩) (skipped : node.skip = .ok ()) :
    node.Writes text := by
  obtain ⟨whole, sound⟩ := (skip_iff_sound node).mp skipped
  have same : Json.tokens text.toList = node.tokens := Outline.tokens_of_ofTokens read whole
  refine ⟨whole, same ▸ spelled_tokens ?_⟩
  rw [same]
  exact sound

end RiskRules.Json
