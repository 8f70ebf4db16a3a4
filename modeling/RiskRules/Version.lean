import RiskRules.Text.Quoted

/-!
Semantic versions: reading their text and comparing them. Reading goes strictly from left to
right, so the first fault decides.
-/

namespace RiskRules

structure Version where
  major : Nat
  minor : Nat
  patch : Nat
  prerelease : List (List Char)
  build : List (List Char)
  deriving DecidableEq, Repr

namespace Version

inductive Part
  | major
  | minor
  | patch
  | prerelease
  | build
  deriving DecidableEq, Repr

def Part.describe : Part → String
  | .major => "major version number"
  | .minor => "minor version number"
  | .patch => "patch version number"
  | .prerelease => "pre-release identifier"
  | .build => "build metadata"

inductive Fault
  | empty
  | unexpectedEnd (part : Part)
  | unexpectedChar (part : Part) (found : Char)
  | unexpectedCharAfter (part : Part) (found : Char)
  | leadingZero (part : Part)
  | tooLarge (part : Part)
  | emptySegment (part : Part)
  deriving DecidableEq, Repr

def Fault.message : Fault → String
  | .empty => "empty string, expected a semver version"
  | .unexpectedEnd part => "unexpected end of input while parsing " ++ part.describe
  | .unexpectedChar part found =>
      "unexpected character " ++ Text.quotedChar found ++ " while parsing " ++ part.describe
  | .unexpectedCharAfter part found =>
      "unexpected character " ++ Text.quotedChar found ++ " after " ++ part.describe
  | .leadingZero part => "invalid leading zero in " ++ part.describe
  | .tooLarge part => "value of " ++ part.describe ++ " exceeds u64::MAX"
  | .emptySegment part => "empty identifier segment in " ++ part.describe

def digitValue (char : Char) : Nat :=
  char.toNat - '0'.toNat

def numberLimit : Nat := 0x10000000000000000

def readDigits (part : Part) (value : Nat) : List Char → Except Fault (Nat × List Char)
  | [] => .ok (value, [])
  | char :: rest =>
      if char.isDigit then
        if value = 0 then .error (.leadingZero part)
        else if value * 10 + digitValue char < numberLimit then
          readDigits part (value * 10 + digitValue char) rest
        else .error (.tooLarge part)
      else .ok (value, char :: rest)

def readNumber (part : Part) : List Char → Except Fault (Nat × List Char)
  | [] => .error (.unexpectedEnd part)
  | char :: rest =>
      if char.isDigit then readDigits part (digitValue char) rest
      else .error (.unexpectedChar part char)

def readDot (part : Part) : List Char → Except Fault (List Char)
  | [] => .error (.unexpectedEnd part)
  | char :: rest => if char = '.' then .ok rest else .error (.unexpectedCharAfter part char)

def isIdentifierChar (char : Char) : Bool :=
  char.isAlphanum || char = '-'

def isNumeric (segment : List Char) : Bool :=
  segment.all Char.isDigit

def checkSegment (part : Part) (segment : List Char) : Except Fault Unit :=
  if segment.isEmpty then .error (.emptySegment part)
  else if part = .prerelease ∧ isNumeric segment ∧ 1 < segment.length
      ∧ segment.head? = some '0' then
    .error (.leadingZero part)
  else .ok ()

/-- Segments separated by dots. `segment` is the current one and `done` those before it, both
last first; each is checked where it ends. -/
def readSegments (part : Part) (segment : List Char) (done : List (List Char)) :
    List Char → Except Fault (List (List Char) × List Char)
  | [] => do
      checkSegment part segment.reverse
      return ((segment.reverse :: done).reverse, [])
  | char :: rest =>
      if isIdentifierChar char then readSegments part (char :: segment) done rest
      else do
        checkSegment part segment.reverse
        if char = '.' then readSegments part [] (segment.reverse :: done) rest
        else return ((segment.reverse :: done).reverse, char :: rest)

def readMarked (part : Part) (mark : Char) : List Char → Except Fault (List (List Char) × List Char)
  | [] => .ok ([], [])
  | char :: rest => if char = mark then readSegments part [] [] rest else .ok ([], char :: rest)

def lastPart (prerelease build : List (List Char)) : Part :=
  if !build.isEmpty then .build else if !prerelease.isEmpty then .prerelease else .patch

def ofChars (chars : List Char) : Except Fault Version :=
  if chars.isEmpty then .error .empty
  else do
    let (major, rest) ← readNumber .major chars
    let rest ← readDot .major rest
    let (minor, rest) ← readNumber .minor rest
    let rest ← readDot .minor rest
    let (patch, rest) ← readNumber .patch rest
    let (prerelease, rest) ← readMarked .prerelease '-' rest
    let (build, rest) ← readMarked .build '+' rest
    match rest with
    | [] => .ok ⟨major, minor, patch, prerelease, build⟩
    | found :: _ => .error (.unexpectedCharAfter (lastPart prerelease build) found)

def ofText (text : String) : Except Fault Version :=
  ofChars text.toList

/-- Numbers come before words; numbers compare by value, which without leading zeros is by
length first; words compare character by character. -/
def comparePrereleaseSegment (left right : List Char) : Ordering :=
  match isNumeric left, isNumeric right with
  | false, true => .gt
  | true, false => .lt
  | false, false => compare left right
  | true, true => (compare left.length right.length).then (compare left right)

/-- As in a pre-release, but numbers may have leading zeros, which count only between equal
values: the fewer the smaller. -/
def compareBuildSegment (left right : List Char) : Ordering :=
  match isNumeric left, isNumeric right with
  | false, true => .gt
  | true, false => .lt
  | false, false => compare left right
  | true, true =>
      let leftValue := left.dropWhile (· = '0')
      let rightValue := right.dropWhile (· = '0')
      ((compare leftValue.length rightValue.length).then (compare leftValue rightValue)).then
        (compare left.length right.length)

def compareSegments (order : List Char → List Char → Ordering) :
    List (List Char) → List (List Char) → Ordering
  | [], [] => .eq
  | [], _ :: _ => .lt
  | _ :: _, [] => .gt
  | left :: lefts, right :: rights => (order left right).then (compareSegments order lefts rights)

def comparePrerelease (left right : List (List Char)) : Ordering :=
  match left, right with
  | [], [] => .eq
  | [], _ :: _ => .gt
  | _ :: _, [] => .lt
  | left, right => compareSegments comparePrereleaseSegment left right

def precedence (left right : Version) : Ordering :=
  (((compare left.major right.major).then (compare left.minor right.minor)).then
    (compare left.patch right.patch)).then (comparePrerelease left.prerelease right.prerelease)

/-- The total order: precedence first, then build metadata, where having none is least. -/
def order (left right : Version) : Ordering :=
  (left.precedence right).then (compareSegments compareBuildSegment left.build right.build)

end Version

end RiskRules
