/-!
The markup of an XML document, one piece after another. Text between markup is passed over, and so
is what stands inside comments, sections, declarations and instructions. Whether tags nest is not
asked here.
-/

namespace RiskRules.Xml

/-- A reader that stops early never sees a break further on. -/
inductive Feed (α ε : Type)
  | finished
  | broken (cause : ε)
  | item (head : α) (rest : Feed α ε)
  deriving DecidableEq, Repr

def isBlank (char : Char) : Bool :=
  char = ' ' || char = '\t' || char = '\n' || char = '\r'

def localName (name : String) : String :=
  match name.toList.dropWhile (· ≠ ':') with
  | [] => name
  | _ :: rest => String.ofList rest

structure Tag where
  name : String
  attributeText : List Char
  deriving DecidableEq, Repr

def Tag.ofContent (content : List Char) : Tag :=
  ⟨String.ofList (content.takeWhile (!isBlank ·)), content.dropWhile (!isBlank ·)⟩

def Tag.localName (tag : Tag) : String :=
  Xml.localName tag.name

inductive Markup
  | start (tag : Tag)
  | empty (tag : Tag)
  | close (name : String)
  | other
  deriving DecidableEq, Repr

inductive MarkupFault
  | unknownMarkup
  | unclosedComment
  | unclosedSection
  | unclosedDoctype
  | namelessDoctype
  | unclosedInstruction
  | unclosedTag
  deriving DecidableEq, Repr

def MarkupFault.message : MarkupFault → String
  | .unknownMarkup => "syntax error: unknown or missed symbol in markup"
  | .unclosedComment =>
      "syntax error: comment not closed: `-->` not found before end of input"
  | .unclosedSection =>
      "syntax error: CDATA not closed: `]]>` not found before end of input"
  | .unclosedDoctype =>
      "syntax error: DOCTYPE not closed: `>` not found before end of input"
  | .namelessDoctype =>
      "ill-formed document: `<!DOCTYPE>` declaration does not contain a name of a document type"
  | .unclosedInstruction =>
      "syntax error: processing instruction or xml declaration not closed: `?>` not found before "
        ++ "end of input"
  | .unclosedTag => "syntax error: tag not closed: `>` not found before end of input"

/-- Splits a text at the first `>` with a complete content before it; `before` is the content so
far, last character first. -/
def untilBracket (complete : List Char → Bool) (before : List Char) :
    List Char → Option (List Char × List Char)
  | [] => none
  | char :: rest =>
      if char = '>' && complete before.reverse then some (before.reverse, rest)
      else untilBracket complete (char :: before) rest

theorem untilBracket_length {complete : List Char → Bool} {before text content rest : List Char}
    (found : untilBracket complete before text = some (content, rest)) :
    rest.length < text.length := by
  induction text generalizing before with
  | nil => simp [untilBracket] at found
  | cons char tail ih =>
      simp only [untilBracket] at found
      split at found
      · simp only [Option.some.injEq, Prod.mk.injEq] at found
        simp [found.2]
      · have := ih found
        simp only [List.length_cons]
        omega

inductive Quotation
  | outside
  | within (mark : Char)
  deriving DecidableEq, Repr

def Quotation.next : Quotation → Char → Quotation
  | .outside, char => if char = '"' || char = '\'' then .within char else .outside
  | .within mark, char => if char = mark then .outside else .within mark

def tagComplete (content : List Char) : Bool :=
  content.foldl Quotation.next .outside = .outside

def commentComplete (content : List Char) : Bool :=
  decide (4 ≤ content.length) && "--".toList.isSuffixOf content

def sectionComplete (content : List Char) : Bool :=
  "]]".toList.isSuffixOf content

def doctypeComplete (content : List Char) : Bool :=
  content.count '<' = content.count '>'

def instructionComplete (content : List Char) : Bool :=
  "?".toList.isSuffixOf content

def piece (complete : List Char → Bool) (unclosed : MarkupFault)
    (judge : List Char → Except MarkupFault Markup) (text : List Char) :
    Except MarkupFault (Markup × List Char) :=
  match untilBracket complete [] text with
  | none => .error unclosed
  | some (content, rest) => (judge content).map (·, rest)

def judgeComment (content : List Char) : Except MarkupFault Markup :=
  if "--".toList.isPrefixOf content then .ok .other else .error .unclosedComment

def judgeSection (content : List Char) : Except MarkupFault Markup :=
  if "[CDATA[".toList.isPrefixOf content then .ok .other else .error .unclosedSection

def judgeDoctype (content : List Char) : Except MarkupFault Markup :=
  if (content.take 7).map Char.toUpper = "DOCTYPE".toList then
    if (content.drop 7).all isBlank then .error .namelessDoctype else .ok .other
  else .error .unclosedDoctype

def judgeInstruction (content : List Char) : Except MarkupFault Markup :=
  if 2 ≤ content.length then .ok .other else .error .unclosedInstruction

def closingName (content : List Char) : List Char :=
  match (content.reverse.dropWhile isBlank).reverse with
  | [] => content
  | name => name

def judgeTag : List Char → Except MarkupFault Markup
  | '/' :: content => .ok (.close (String.ofList (closingName content)))
  | content =>
      if content.getLast? = some '/' then .ok (.empty (.ofContent content.dropLast))
      else .ok (.start (.ofContent content))

def declaration (text : List Char) : Except MarkupFault (Markup × List Char) :=
  match text.head? with
  | some '-' => piece commentComplete .unclosedComment judgeComment text
  | some '[' => piece sectionComplete .unclosedSection judgeSection text
  | some 'D' | some 'd' => piece doctypeComplete .unclosedDoctype judgeDoctype text
  | _ => .error .unknownMarkup

def nextMarkup : List Char → Except MarkupFault (Markup × List Char)
  | '!' :: text => declaration text
  | '?' :: text => piece instructionComplete .unclosedInstruction judgeInstruction ('?' :: text)
  | text => piece tagComplete .unclosedTag judgeTag text

theorem piece_length {complete : List Char → Bool} {unclosed : MarkupFault}
    {judge : List Char → Except MarkupFault Markup} {text rest : List Char} {markup : Markup}
    (found : piece complete unclosed judge text = .ok (markup, rest)) :
    rest.length < text.length := by
  unfold piece at found
  split at found
  · simp at found
  · rename_i content tail split_
    cases verdict : judge content with
    | error cause => simp [verdict, Except.map] at found
    | ok markup' =>
        simp only [verdict, Except.map, Except.ok.injEq, Prod.mk.injEq] at found
        exact found.2 ▸ untilBracket_length split_

theorem declaration_length {text rest : List Char} {markup : Markup}
    (found : declaration text = .ok (markup, rest)) : rest.length < text.length := by
  unfold declaration at found
  split at found
  · exact piece_length found
  · exact piece_length found
  · exact piece_length found
  · exact piece_length found
  · simp at found

theorem nextMarkup_length {text rest : List Char} {markup : Markup}
    (found : nextMarkup text = .ok (markup, rest)) : rest.length < text.length := by
  unfold nextMarkup at found
  split at found
  · have := declaration_length found
    simp only [List.length_cons]
    omega
  · exact piece_length found
  · exact piece_length found

theorem length_dropWhile_le {α : Type} (keep : α → Bool) (items : List α) :
    (items.dropWhile keep).length ≤ items.length :=
  (List.dropWhile_sublist keep).length_le

def markups (text : List Char) : Feed Markup MarkupFault :=
  match _opened : text.dropWhile (· ≠ '<') with
  | [] => .finished
  | _ :: body =>
      match _found : nextMarkup body with
      | .error cause => .broken cause
      | .ok (markup, rest) => .item markup (markups rest)
termination_by text.length
decreasing_by
  have shorter := nextMarkup_length _found
  have bound := length_dropWhile_le (fun char => decide (char ≠ '<')) text
  rw [_opened, List.length_cons] at bound
  omega

end RiskRules.Xml
