import RiskRules.Proofs.Pack.Emission

/-!
What a rendering depends on. Every value is inserted as it stands, so a rendering is as long as its
slots and their values make it: it depends on the value of a slot exactly if the pattern has the
slot. The description of an accepted template has no component slot, and that of a rule is the same
for all components.
-/

namespace RiskRules

namespace Pattern

variable {pattern : Pattern} {slot : Slot} {value second other title component : String}

def Segment.fillAt (slot : Slot) (value other : String) : Segment → List Char
  | .literal text => text
  | .slot name => if name = slot then value.toList else other.toList

def renderAt (pattern : Pattern) : (slot : Slot) → (value other : String) → String
  | .title, value, other => pattern.render value other
  | .component, value, other => pattern.render other value

def Token.fill (title component : String) : Token → List Char
  | .literal char => [char]
  | .slot .title => title.toList
  | .slot .component => component.toList

theorem toList_renderAt :
    (pattern.renderAt slot value other).toList =
      pattern.segments.flatMap (Segment.fillAt slot value other) := by
  cases slot <;>
    · rw [renderAt, render, String.toList_ofList]
      refine List.flatMap_congr fun segment _ => ?_
      cases segment with
      | literal text => rfl
      | slot name => cases name <;> rfl

/-! ### Slots that are used -/

theorem uses_eq_false_iff_notMem :
    pattern.uses slot = false ↔ Segment.slot slot ∉ pattern.segments := by
  rw [uses, List.any_eq_false]
  simp only [decide_eq_true_eq, List.forall_mem_ne']

theorem renderAt_of_unused (unused : pattern.uses slot = false) :
    pattern.renderAt slot value other = pattern.renderAt slot second other := by
  rw [← String.toList_inj, toList_renderAt, toList_renderAt]
  refine List.flatMap_congr fun segment member => ?_
  cases segment with
  | literal text => rfl
  | slot name =>
      have different : name ≠ slot := by
        rintro rfl
        exact uses_eq_false_iff_notMem.mp unused member
      rw [Segment.fillAt, Segment.fillAt, if_neg different, if_neg different]

/-- A value adds its length once for each time its slot is used. -/
theorem length_renderAt :
    (pattern.renderAt slot value other).toList.length =
      (pattern.renderAt slot "" other).toList.length +
        pattern.segments.count (.slot slot) * value.toList.length := by
  rw [toList_renderAt, toList_renderAt]
  induction pattern.segments with
  | nil => simp
  | cons segment segments ih =>
      rw [List.flatMap_cons, List.flatMap_cons, List.length_append, List.length_append, ih,
        List.count_cons]
      cases segment with
      | literal text =>
          simp only [Segment.fillAt, beq_iff_eq, reduceCtorEq, if_false, Nat.add_zero]
          omega
      | slot name =>
          by_cases same : name = slot
          · simp only [Segment.fillAt, same, if_true, beq_self_eq_true, String.toList_empty,
              List.length_nil, Nat.add_mul, Nat.one_mul]
            omega
          · simp only [Segment.fillAt, same, if_false, beq_iff_eq, Segment.slot.injEq,
              Nat.add_zero]
            omega

theorem uses_eq_false_iff (other : String) :
    pattern.uses slot = false ↔
      ∀ value second, pattern.renderAt slot value other = pattern.renderAt slot second other := by
  refine ⟨fun unused _ _ => renderAt_of_unused unused, fun same => ?_⟩
  -- One character more in the slot makes every use of it one character longer.
  have length := @length_renderAt pattern slot "x" other
  have single : "x".toList.length = 1 := rfl
  rw [same "x" "", single] at length
  have unused : pattern.segments.count (.slot slot) = 0 := by omega
  exact uses_eq_false_iff_notMem.mpr (List.count_eq_zero.mp unused)

/-! ### Values are inserted as they are -/

theorem fill_eq_tokens (segment : Segment) :
    Segment.fill title component segment =
      segment.tokens.flatMap (Token.fill title component) := by
  cases segment with
  | literal text => simp [Segment.fill, Segment.tokens, List.flatMap_map, Token.fill]
  | slot name => cases name <;> simp [Segment.fill, Segment.tokens, Token.fill]

theorem toList_render_of_spelled {tokens : List Token}
    (written : pattern.source.toList = spelled tokens) (built : pattern.Built) :
    (pattern.render title component).toList = tokens.flatMap (Token.fill title component) := by
  have read := built.parse_source
  rw [parse_spelled written] at read
  have segments : gather tokens = pattern.segments := congrArg segments (Except.ok.inj read)
  calc (pattern.render title component).toList
      _ = pattern.segments.flatMap fun segment =>
            segment.tokens.flatMap (Token.fill title component) := by
          rw [render, String.toList_ofList]
          exact congrArg (List.flatMap · pattern.segments) (funext fill_eq_tokens)
      _ = (pattern.segments.flatMap Segment.tokens).flatMap (Token.fill title component) :=
          List.flatMap_assoc.symm
      _ = tokens.flatMap (Token.fill title component) := by rw [← segments, tokens_gather]

theorem Built.exists_spelled {pattern : Pattern} (built : pattern.Built) :
    ∃ tokens, pattern.source.toList = spelled tokens := by
  obtain ⟨tokens, written, _⟩ := parse_eq_ok.mp built.parse_source
  exact ⟨tokens, written⟩

/-! ### Descriptions -/

theorem description_rule {template : Template} {emitter : Emitter}
    (accepted : Emitter.ofTemplate template = .ok emitter) (entry : Entry) (component : String) :
    (emitter.rule entry).category.description =
      emitter.description.render entry.title component := by
  obtain ⟨_, _, _, _, unused, _⟩ := Emitter.ofTemplate_eq_ok.mp accepted
  exact renderAt_of_unused unused

/-- A pattern does not use a slot exactly if, for some or any value of the other slot, its rendering
is the same for all values of this one. A rendering is the source with every slot's name in braces
replaced by its value and every doubled brace by one; the values are not looked at. The rules of an
accepted template have the description of their title, rendered for any component whatever. -/
theorem dependence_exact :
    (∀ pattern : Pattern, pattern.Built →
      (∀ slot other, pattern.uses slot = false ↔ ∀ value second,
        pattern.renderAt slot value other = pattern.renderAt slot second other) ∧
      ∃ tokens, pattern.source.toList = spelled tokens ∧ ∀ title component,
        (pattern.render title component).toList = tokens.flatMap (Token.fill title component)) ∧
    ∀ template emitter, Emitter.ofTemplate template = .ok emitter →
      ∃ description, parse template.descriptionPattern = .ok description ∧
        (∀ entry component, (emitter.rule entry).category.description =
          description.render entry.title component) ∧
        ∀ entries digest pack, emitter.emit entries digest = .ok pack →
          ∀ (index : Nat) (entry : Entry), entries[index]? = some entry →
            ∃ rule, pack.rules[index]? = some rule ∧ ∀ component,
              rule.category.description = description.render entry.title component := by
  constructor
  · intro pattern built
    obtain ⟨tokens, written⟩ := built.exists_spelled
    exact ⟨fun _ => uses_eq_false_iff, tokens, written, fun _ _ =>
      toList_render_of_spelled written built⟩
  · intro template emitter accepted
    obtain ⟨_, _, _, described, _⟩ := Emitter.ofTemplate_eq_ok.mp accepted
    refine ⟨emitter.description, described, description_rule accepted, ?_⟩
    intro entries digest pack emitted index entry place
    refine ⟨emitter.rule entry, ?_, description_rule accepted entry⟩
    rw [Emitter.rules_of_emit emitted]
    exact Emitter.getElem?_rules place

/-- A title that looks like a slot, and a component that looks like another, are both inserted. -/
theorem dependence_exact_braces :
    (∀ value second, (aroundComponent "\x7b" "\x7d").renderAt .title value "x" =
      (aroundComponent "\x7b" "\x7d").renderAt .title second "x") ∧
    ¬(∀ value second, (aroundComponent "\x7b" "\x7d").renderAt .component value "x" =
      (aroundComponent "\x7b" "\x7d").renderAt .component second "x") ∧
    ∃ emitter, Emitter.ofTemplate .automotive = .ok emitter ∧
      ∀ entry : Entry, entry.title = "\x7bcomponent\x7d" →
        (emitter.rule entry).category.description = "\x7bcomponent\x7d (Imported from XSAM)" := by
  obtain ⟨patterns, templates⟩ := dependence_exact
  obtain ⟨depends, _⟩ := patterns _ (.around "\x7b" "\x7d")
  obtain ⟨emitter, accepted⟩ := Emitter.exists_automotive
  obtain ⟨description, described, rendered, _⟩ := templates .automotive emitter accepted
  refine ⟨(depends .title "x").mp (by decide), fun same => ?_, emitter, accepted, ?_⟩
  · exact absurd ((depends .component "x").mpr same) (by decide)
  · intro entry title
    rw [rendered entry "\x7btitle\x7d", title]
    cases Except.ok.inj described
    rfl

end Pattern

end RiskRules
