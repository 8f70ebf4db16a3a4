import RiskRules.Proofs.Json.Rearrangement

/-!
Decoders that look only at documents without a fault, and read every arrangement of a document
alike: those of strings, names, numbers and lists, and whatever is made of them.
-/

namespace RiskRules.Json

structure Impartial (decode : Decoder α) : Prop where
  skip : ∀ {room : Nat} {node : Node} {result : α}, decode room node = .ok result →
    node.skip = .ok ()
  steady : ∀ {room : Nat} {node other : Node} {result : α}, node.Rearranges other →
    decode room node = .ok result → decode room other = .ok result

theorem stringValue_eq_ok {room : Nat} {node : Node} {text : String} :
    stringValue room node = .ok text ↔
      ∃ literal, node = .string literal ∧ literal.text = .ok text := by
  cases node with
  | string literal => simp [stringValue]
  | _ => simp [stringValue, wrongType_ne_ok]

theorem impartial_string : Impartial stringValue where
  skip read := by
    obtain ⟨literal, rfl, named⟩ := stringValue_eq_ok.mp read
    exact Literal.skip_of_text named
  steady rearranges read := by
    obtain ⟨literal, rfl, named⟩ := stringValue_eq_ok.mp read
    cases rearranges with
    | string respells => exact respells.text named

/-- What is made of the result of an impartial decoder. -/
theorem Impartial.through {decode : Decoder α} (impartial : Impartial decode)
    {further : α → Reading β} {whole : Decoder β}
    (reads : ∀ room node result, whole room node = .ok result ↔
      ∃ part, decode room node = .ok part ∧ further part = .ok result) : Impartial whole where
  skip read := by
    obtain ⟨part, readPart, _⟩ := (reads _ _ _).mp read
    exact impartial.skip readPart
  steady rearranges read := by
    obtain ⟨part, readPart, made⟩ := (reads _ _ _).mp read
    exact (reads _ _ _).mpr ⟨part, impartial.steady rearranges readPart, made⟩

theorem impartial_variant [Enumeration α] : Impartial (variantName : Decoder α) := by
  have reads : ∀ room node (value : α), variantName room node = .ok value ↔
      ∃ name, stringValue room node = .ok name ∧ namedVariant name = .ok value := by
    intro room node value
    cases node with
    | string literal => simp only [variantName, stringValue, bind_eq_ok]
    | _ => simp [variantName, stringValue, wrongType_ne_ok]
  exact impartial_string.through reads

theorem impartial_word32 : Impartial word32Value where
  skip {_ node _} read := by
    cases node with
    | number numeral => rfl
    | _ => exact absurd read wrongType_ne_ok
  steady {_ node _ _} rearranges read := by
    cases rearranges with
    | number numeral => exact read
    | _ => exact absurd read wrongType_ne_ok

theorem impartial_bool : Impartial boolValue where
  skip {_ node _} read := by
    cases node with
    | bool value => rfl
    | _ => exact absurd read wrongType_ne_ok
  steady {_ node _ _} rearranges read := by
    cases rearranges with
    | bool value => exact read
    | _ => exact absurd read wrongType_ne_ok

theorem nullValue_eq_ok {room : Nat} {node : Node} :
    nullValue room node = .ok () ↔ node = .null := by
  cases node <;> simp [nullValue, wrongType_ne_ok]

/-- A name alone, or the only key of an object. -/
theorem enumValue_eq_ok [Enumeration α] {room : Nat} {node : Node} {value : α} :
    enumValue room node = .ok value ↔
      ∃ literal name, literal.text = .ok name ∧ namedVariant name = .ok value ∧
        (node = .string literal ∨ 1 < room ∧ node = .object [(literal, .null)] .closed) := by
  constructor
  · intro read
    cases node with
    | string literal =>
        simp only [enumValue, bind_eq_ok] at read
        obtain ⟨name, named, found⟩ := read
        exact ⟨literal, name, named, found, .inl rfl⟩
    | object members ending =>
        rw [enumValue, descend_eq_ok] at read
        obtain ⟨deep, read⟩ := read
        split at read
        next _ key node rest =>
          simp only [bind_eq_ok] at read
          obtain ⟨name, named, variant, found, _, absent, ended⟩ := read
          cases nullValue_eq_ok.mp absent
          split at ended
          · cases ended
            exact ⟨key, name, named, found, .inr ⟨deep, rfl⟩⟩
          · cases ended
          · cases ended
        next key atEnd =>
          simp only [bind_eq_ok] at read
          obtain ⟨_, _, _, _, broken⟩ := read
          cases broken
        all_goals cases read
    | fault cause => cases cause <;> cases read
    | _ => cases read
  · rintro ⟨literal, name, named, found, rfl | ⟨deep, rfl⟩⟩
    · simp only [enumValue, named]
      exact found
    · rw [enumValue, descend_eq_ok]
      simp only [bind_eq_ok]
      exact ⟨deep, name, named, value, found, (), rfl, rfl⟩

theorem impartial_enum [Enumeration α] : Impartial (enumValue : Decoder α) where
  skip read := by
    obtain ⟨literal, name, named, _, rfl | ⟨_, rfl⟩⟩ := enumValue_eq_ok.mp read
    · exact Literal.skip_of_text named
    · simp only [Node.skip, skipMembers, unit_bind_eq_ok]
      exact ⟨⟨Literal.skip_of_text named, trivial, trivial⟩, rfl⟩
  steady rearranges read := by
    obtain ⟨literal, name, named, found, rfl | ⟨deep, rfl⟩⟩ := enumValue_eq_ok.mp read
    · cases rearranges with
      | @string _ other respells =>
          exact enumValue_eq_ok.mpr ⟨other, name, respells.text named, found, .inl rfl⟩
    · cases rearranges with
      | object each permuted =>
          cases each with
          | @cons _ other _ _ _ _ respells first rest =>
              cases first
              cases rest
              cases List.singleton_perm.mp permuted
              exact enumValue_eq_ok.mpr
                ⟨other, name, respells.text named, found, .inr ⟨deep, rfl⟩⟩

theorem impartial_option {decode : Decoder α} (impartial : Impartial decode) :
    Impartial (optionOf decode) := by
  have reads : ∀ {room : Nat} {node : Node} {result : Option α}, node ≠ .null →
      (optionOf decode room node = .ok result ↔
        ∃ part, decode room node = .ok part ∧ result = some part) := by
    intro room node result present
    rw [optionOf, bind_eq_ok]
    · constructor
      · rintro ⟨part, readPart, same⟩
        cases same
        exact ⟨part, readPart, rfl⟩
      · rintro ⟨part, readPart, rfl⟩
        exact ⟨part, readPart, rfl⟩
    · exact present
  constructor
  · intro room node result read
    by_cases absent : node = .null
    · rw [absent]
      rfl
    · obtain ⟨part, readPart, _⟩ := (reads absent).mp read
      exact impartial.skip readPart
  · intro room node other result rearranges read
    by_cases absent : node = .null
    · subst absent
      cases rearranges
      exact read
    · have present : other ≠ .null := by
        rintro rfl
        cases rearranges
        exact absent rfl
      obtain ⟨part, readPart, same⟩ := (reads absent).mp read
      exact (reads present).mpr ⟨part, impartial.steady rearranges readPart, same⟩

theorem Impartial.skipItems {decode : Decoder α} (impartial : Impartial decode) {room : Nat}
    {items : List Node} {results : List α} (read : items.mapM (decode room) = .ok results) :
    Json.skipItems items = .ok () := by
  induction items generalizing results with
  | nil => rfl
  | cons item rest ih =>
      simp only [List.mapM_cons, bind_eq_ok] at read
      obtain ⟨_, first, _, others, _⟩ := read
      simp only [Json.skipItems, unit_bind_eq_ok]
      exact ⟨impartial.skip first, ih others⟩

theorem Impartial.steadyItems {decode : Decoder α} (impartial : Impartial decode) {room : Nat}
    {items others : List Node} (each : ItemsRearrange items others) {results : List α}
    (read : items.mapM (decode room) = .ok results) : others.mapM (decode room) = .ok results := by
  induction items generalizing others results with
  | nil =>
      cases each
      exact read
  | cons item rest ih =>
      cases each with
      | cons first rest =>
          simp only [List.mapM_cons, bind_eq_ok] at read ⊢
          obtain ⟨result, readFirst, results, readRest, same⟩ := read
          exact ⟨result, impartial.steady first readFirst, results, ih rest readRest, same⟩

theorem impartial_list {decode : Decoder α} (impartial : Impartial decode) :
    Impartial (listOf decode) where
  skip read := by
    obtain ⟨items, rfl, _, inside⟩ := listOf_eq_ok.mp read
    simp only [Node.skip, unit_bind_eq_ok]
    exact ⟨impartial.skipItems inside, rfl⟩
  steady rearranges read := by
    obtain ⟨items, rfl, deep, inside⟩ := listOf_eq_ok.mp read
    cases rearranges with
    | array each => exact listOf_eq_ok.mpr ⟨_, rfl, deep, impartial.steadyItems each inside⟩

/-! ### Whole texts -/

theorem readText_eq_ok {decode : Decoder α} {text : String} {result : α} :
    readText decode text = .ok result ↔
      ∃ node, Outline.ofText text = ⟨node, false⟩ ∧ decode startingRoom node = .ok result := by
  simp only [readText, bind_eq_ok]
  rcases Outline.ofText text with ⟨root, _ | _⟩ <;> simp [malformed, pure, Except.pure]

/-- Every text that is read writes some node, and whatever text writes an arrangement of this node
is read alike. -/
theorem Impartial.readText_rearranged {decode : Decoder α} (impartial : Impartial decode)
    {text : String} {result : α} (read : readText decode text = .ok result) :
    (∃ node : Node, node.Writes text) ∧
      ∀ (node arranged : Node) (other : String), node.Writes text → node.Rearranges arranged →
        arranged.Writes other → readText decode other = .ok result := by
  obtain ⟨node, outline, decoded⟩ := readText_eq_ok.mp read
  refine ⟨⟨node, Node.writes_of_ofText outline (impartial.skip decoded)⟩, ?_⟩
  intro written arranged other writes rearranges writesOther
  obtain rfl : written = node := by
    have both := writes.outline.symm.trans outline
    exact (Outline.mk.inj both).1
  exact readText_eq_ok.mpr ⟨arranged, writesOther.outline, impartial.steady rearranges decoded⟩

end RiskRules.Json
