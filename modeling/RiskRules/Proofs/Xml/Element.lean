import RiskRules.Xml.Reference

/-!
Trees of elements, and the markup that tells of them: a start tag and a close tag around the markup
of the children, or a single tag for an element that has none, and between these any comments,
sections, declarations and instructions. Text between tags is no piece of markup.
-/

namespace RiskRules.Xml

/-! ### Feeds -/

def Feed.prepend {α ε : Type} (items : List α) (rest : Feed α ε) : Feed α ε :=
  items.foldr .item rest

@[simp]
theorem Feed.prepend_nil {α ε : Type} (rest : Feed α ε) : Feed.prepend [] rest = rest :=
  rfl

@[simp]
theorem Feed.prepend_cons {α ε : Type} (item : α) (items : List α) (rest : Feed α ε) :
    Feed.prepend (item :: items) rest = .item item (Feed.prepend items rest) :=
  rfl

@[simp]
theorem Feed.prepend_append {α ε : Type} (first second : List α) (rest : Feed α ε) :
    Feed.prepend (first ++ second) rest = Feed.prepend first (Feed.prepend second rest) :=
  List.foldr_append

def resolved? : Feed Attribute AttributeFault → Option (List (String × String))
  | .finished => some []
  | .broken _ => none
  | .item given rest =>
      match given.text, resolved? rest with
      | .ok text, some others => some ((given.name, text) :: others)
      | _, _ => none

theorem resolved?_item {given : Attribute} {rest : Feed Attribute AttributeFault}
    {attributes : List (String × String)}
    (resolved : resolved? (.item given rest) = some attributes) :
    ∃ text others, given.text = .ok text ∧ resolved? rest = some others ∧
      attributes = (given.name, text) :: others := by
  rw [resolved?] at resolved
  split at resolved
  next text others read more =>
    cases resolved
    exact ⟨text, others, read, more, rfl⟩
  next => cases resolved

/-! ### Elements -/

structure Element where
  name : String
  attributes : List (String × String)
  children : List Element

namespace Element

def localName (element : Element) : String :=
  Xml.localName element.name

def value (element : Element) (name : String) : String :=
  ((element.attributes.find? fun given => Xml.localName given.1 = name).map (·.2)).getD ""

def childrenNamed (element : Element) (name : String) : List Element :=
  element.children.filter (·.localName = name)

end Element

structure Tag.Spells (tag : Tag) (element : Element) : Prop where
  name : tag.name = element.name
  attributes : resolved? tag.attributes = some element.attributes

theorem Tag.Spells.localName {tag : Tag} {element : Element} (spelled : tag.Spells element) :
    tag.localName = element.localName :=
  congrArg Xml.localName spelled.name

inductive Delivers : List Element → List Markup → Prop
  | done : Delivers [] []
  | other {elements : List Element} {markup : List Markup} (later : Delivers elements markup) :
      Delivers elements (.other :: markup)
  | empty {tag : Tag} {element : Element} {elements : List Element} {markup : List Markup}
      (spelled : tag.Spells element) (childless : element.children = [])
      (later : Delivers elements markup) :
      Delivers (element :: elements) (.empty tag :: markup)
  | around {tag : Tag} {element : Element} {elements : List Element} {inner markup : List Markup}
      (spelled : tag.Spells element) (inside : Delivers element.children inner)
      (later : Delivers elements markup) :
      Delivers (element :: elements) (.start tag :: inner ++ .close element.name :: markup)

theorem Delivers.append {first second : List Element} {markup more : List Markup}
    (before : Delivers first markup) (after : Delivers second more) :
    Delivers (first ++ second) (markup ++ more) := by
  induction before with
  | done => exact after
  | other _ ih => exact .other ih
  | empty spelled childless _ ih => exact .empty spelled childless ih
  | around spelled inside _ _ ih =>
      simp only [List.cons_append, List.append_assoc]
      exact .around spelled inside ih

end RiskRules.Xml
