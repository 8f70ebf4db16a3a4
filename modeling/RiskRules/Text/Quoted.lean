import RiskRules.Text.CharClass

/-!
Quoted texts: the form in which messages show a text that a user wrote. Every character is
visible in it and the closing quote cannot be mistaken for one of the text's own.
-/

namespace RiskRules.Text

def codePoint (char : Char) : List Char :=
  Nat.toDigits 16 char.toNat

def escapeInside (quote char : Char) : List Char :=
  if char = quote ∨ char = '\\' then ['\\', char]
  else if char = '\x00' then ['\\', '0']
  else if char = '\t' then ['\\', 't']
  else if char = '\n' then ['\\', 'n']
  else if char = '\r' then ['\\', 'r']
  else if unprintable.contains char then ['\\', 'u', '\x7b'] ++ codePoint char ++ ['\x7d']
  else [char]

def quoted (text : String) : String :=
  String.ofList ('"' :: text.toList.flatMap (escapeInside '"') ++ ['"'])

def quotedChar (char : Char) : String :=
  String.ofList ('\'' :: escapeInside '\'' char ++ ['\''])

def quotedList (texts : List String) : String :=
  "[" ++ ", ".intercalate (texts.map quoted) ++ "]"

end RiskRules.Text
