import DesignTokens.Json.Value
import DesignTokens.Decimal.Reader

/-!
Reading JSON text. The names of infinity and of no number are read too, a repeated name keeps its
first place and its last value, and a fault tells its offset, line and column.
-/
namespace DesignTokens.Json

/-- What a text can have wrong. -/
inductive Problem where
  | expectingValue
  | expectingName
  | expectingColon
  | expectingComma
  | extraData
  | unterminatedString
  | controlCharacter
  | badEscape
  | badUnicodeEscape
  | byteOrderMark
  /-- An integer with too many digits to be read. -/
  | longInteger (digits : Nat)
  deriving DecidableEq, Repr

def Problem.text : Problem → String
  | .expectingValue => "Expecting value"
  | .expectingName => "Expecting property name enclosed in double quotes"
  | .expectingColon => "Expecting ':' delimiter"
  | .expectingComma => "Expecting ',' delimiter"
  | .extraData => "Extra data"
  | .unterminatedString => "Unterminated string starting at"
  | .controlCharacter => "Invalid control character at"
  | .badEscape => "Invalid \\escape"
  | .badUnicodeEscape => "Invalid \\uXXXX escape"
  | .byteOrderMark => "Unexpected UTF-8 BOM (decode using utf-8-sig)"
  | .longInteger digits =>
    "Exceeds the limit (4300 digits) for integer string conversion: value has " ++
      toString digits ++ " digits; use sys.set_int_max_str_digits() to increase the limit"

/-- A problem and the offset where it shows. -/
structure Fault where
  problem : Problem
  offset : Nat
  deriving DecidableEq, Repr

/-- The rest of a text and its offset. -/
structure Cursor where
  offset : Nat
  rest : List Char
  deriving DecidableEq, Repr

def Cursor.fail {α : Type} (c : Cursor) (p : Problem) : Except Fault α := .error ⟨p, c.offset⟩

def isSpace (c : Char) : Bool :=
  c == ' ' || c == '\t' || c == '\n' || c == '\r'

/-- Moves over the characters that satisfy `test`. -/
def Cursor.skipWhile (test : Char → Bool) (c : Cursor) : Cursor :=
  ⟨c.offset + (c.rest.takeWhile test).length, c.rest.dropWhile test⟩

def Cursor.skip (c : Cursor) : Cursor := c.skipWhile isSpace

/-- The code unit of four hexadecimal digits. -/
def codeUnit? (a b c d : Char) : Option Nat := do
  let a ← Decimal.hexValue? a
  let b ← Decimal.hexValue? b
  let c ← Decimal.hexValue? c
  let d ← Decimal.hexValue? d
  some (((a * 16 + b) * 16 + c) * 16 + d)

def isHighSurrogate (n : Nat) : Bool := 0xD800 ≤ n && n ≤ 0xDBFF

def isLowSurrogate (n : Nat) : Bool := 0xDC00 ≤ n && n ≤ 0xDFFF

/-- A code unit on its own; half a pair becomes the replacement character. -/
def unitChar (n : Nat) : Char :=
  if isHighSurrogate n || isLowSurrogate n then '\uFFFD' else Char.ofNat n

def joinSurrogates (high low : Nat) : Char :=
  Char.ofNat (0x10000 + (high - 0xD800) * 0x400 + (low - 0xDC00))

def simpleEscape? : Char → Option Char
  | '"' => some '"'
  | '\\' => some '\\'
  | '/' => some '/'
  | 'b' => some '\x08'
  | 'f' => some '\x0c'
  | 'n' => some '\n'
  | 'r' => some '\r'
  | 't' => some '\t'
  | _ => none

/-- The characters of a string up to its closing quote; `start` is the offset of the opening one. -/
def readString (start : Nat) : Nat → List Char → Except Fault (List Char × Cursor)
  | _, [] => .error ⟨.unterminatedString, start⟩
  | o, '"' :: cs => .ok ([], ⟨o + 1, cs⟩)
  | _, ['\\'] => .error ⟨.unterminatedString, start⟩
  | o, '\\' :: 'u' :: a :: b :: c :: d :: '\\' :: 'u' :: e :: f :: g :: h :: i :: cs =>
    match codeUnit? a b c d with
    | none => .error ⟨.badUnicodeEscape, o + 1⟩
    | some high =>
      if isHighSurrogate high then
        match codeUnit? e f g h with
        | none => .error ⟨.badUnicodeEscape, o + 7⟩
        | some low =>
          if isLowSurrogate low then do
            let (s, k) ← readString start (o + 12) (i :: cs)
            return (joinSurrogates high low :: s, k)
          else do
            let (s, k) ← readString start (o + 6) ('\\' :: 'u' :: e :: f :: g :: h :: i :: cs)
            return (unitChar high :: s, k)
      else do
        let (s, k) ← readString start (o + 6) ('\\' :: 'u' :: e :: f :: g :: h :: i :: cs)
        return (unitChar high :: s, k)
  | o, '\\' :: 'u' :: a :: b :: c :: d :: e :: cs =>
    match codeUnit? a b c d with
    | none => .error ⟨.badUnicodeEscape, o + 1⟩
    | some n => do
      let (s, k) ← readString start (o + 6) (e :: cs)
      return (unitChar n :: s, k)
  | o, '\\' :: 'u' :: _ => .error ⟨.badUnicodeEscape, o + 1⟩
  | o, '\\' :: c :: cs =>
    match simpleEscape? c with
    | none => .error ⟨.badEscape, o⟩
    | some c => do
      let (s, k) ← readString start (o + 2) cs
      return (c :: s, k)
  | o, c :: cs =>
    if c.toNat < 32 then .error ⟨.controlCharacter, o⟩
    else do
      let (s, k) ← readString start (o + 1) cs
      return (c :: s, k)

/-- The exponent of a number, if a digit follows its mark. -/
def takeExponent : List Char → List Char
  | m :: cs =>
    if m == 'e' || m == 'E' then
      let (sign, ds) := match cs with
        | '+' :: ds => (['+'], ds)
        | '-' :: ds => (['-'], ds)
        | ds => ([], ds)
      let digits := ds.takeWhile Text.isAsciiDigit
      if digits.isEmpty then [] else m :: (sign ++ digits)
    else []
  | [] => []

/-- The fraction of a number, if a digit follows its point. -/
def takeFraction : List Char → List Char
  | '.' :: cs =>
    let digits := cs.takeWhile Text.isAsciiDigit
    if digits.isEmpty then [] else '.' :: digits
  | _ => []

/-- A whole part: zero alone, or digits that start with another one. -/
def takeWhole : List Char → List Char
  | '0' :: _ => ['0']
  | cs => cs.takeWhile Text.isAsciiDigit

/-- A number: an integer unless it has a fraction or an exponent. -/
def readNumber (c : Cursor) : Except Fault (Json × Cursor) :=
  let (sign, body) := match c.rest with
    | '-' :: cs => (['-'], cs)
    | cs => ([], cs)
  let whole := takeWhole body
  if whole.isEmpty then c.fail .expectingValue
  else
    let rest := body.drop whole.length
    let fraction := takeFraction rest
    let exponent := takeExponent (rest.drop fraction.length)
    let lexeme := sign ++ whole ++ fraction ++ exponent
    let next : Cursor := ⟨c.offset + lexeme.length, c.rest.drop lexeme.length⟩
    if fraction.isEmpty && exponent.isEmpty then
      match Decimal.readInt? (String.ofList lexeme) with
      | some n => .ok (.num (.int n), next)
      | none => c.fail (.longInteger whole.length)
    else
      match Decimal.readFloat? (String.ofList lexeme) with
      | some x => .ok (.num (.float x), next)
      | none => c.fail .expectingValue

/-- The fixed names and the values they stand for. -/
def literals : List (String × Json) :=
  [("null", .null), ("true", .bool true), ("false", .bool false),
    ("NaN", .num (.float (Float.ofBits 0x7FF8000000000000))),
    ("Infinity", .num (.float (Float.ofBits 0x7FF0000000000000))),
    ("-Infinity", .num (.float (Float.ofBits 0xFFF0000000000000)))]

def literal? (c : Cursor) : Option (Json × Cursor) :=
  literals.findSome? fun (name, v) =>
    if name.toList.isPrefixOf c.rest then
      some (v, ⟨c.offset + name.length, c.rest.drop name.length⟩)
    else none

mutual

def readValue : Nat → Cursor → Except Fault (Json × Cursor)
  | 0, c => c.fail .expectingValue
  | fuel + 1, c =>
    match c.rest with
    | '"' :: cs => do
      let (s, c) ← readString c.offset (c.offset + 1) cs
      return (.str (String.ofList s), c)
    | '\x7b' :: cs =>
      let c := Cursor.skip ⟨c.offset + 1, cs⟩
      match c.rest with
      | '\x7d' :: cs => .ok (.obj [], ⟨c.offset + 1, cs⟩)
      | _ => readFields fuel [] c
    | '[' :: cs =>
      let c := Cursor.skip ⟨c.offset + 1, cs⟩
      match c.rest with
      | ']' :: cs => .ok (.arr [], ⟨c.offset + 1, cs⟩)
      | _ => readItems fuel [] c
    | _ => match literal? c with
      | some r => .ok r
      | none => readNumber c

/-- The members of an object after those in `fields`. -/
def readFields : Nat → Table Json → Cursor → Except Fault (Json × Cursor)
  | 0, _, c => c.fail .expectingName
  | fuel + 1, fields, c =>
    match c.rest with
    | '"' :: cs => do
      let (name, c) ← readString c.offset (c.offset + 1) cs
      let c := c.skip
      match c.rest with
      | ':' :: cs =>
        let (v, c) ← readValue fuel (Cursor.skip ⟨c.offset + 1, cs⟩)
        let fields := Table.put (String.ofList name) v fields
        let c := c.skip
        match c.rest with
        | '\x7d' :: cs => .ok (.obj fields, ⟨c.offset + 1, cs⟩)
        | ',' :: cs => readFields fuel fields (Cursor.skip ⟨c.offset + 1, cs⟩)
        | _ => c.fail .expectingComma
      | _ => c.fail .expectingColon
    | _ => c.fail .expectingName

/-- The items of an array after those in `items`, last one first. -/
def readItems : Nat → List Json → Cursor → Except Fault (Json × Cursor)
  | 0, _, c => c.fail .expectingValue
  | fuel + 1, items, c => do
    let (v, c) ← readValue fuel c
    let c := c.skip
    match c.rest with
    | ']' :: cs => .ok (.arr (v :: items).reverse, ⟨c.offset + 1, cs⟩)
    | ',' :: cs => readItems fuel (v :: items) (Cursor.skip ⟨c.offset + 1, cs⟩)
    | _ => c.fail .expectingComma

end

/-- The one value of a text; every step of the reading consumes a character or opens a list. -/
def readChars (cs : List Char) : Except Fault Json := do
  let (v, c) ← readValue (2 * cs.length + 2) (Cursor.skip ⟨0, cs⟩)
  let c := c.skip
  if c.rest.isEmpty then return v else c.fail .extraData

/-- Reads a text, which must not start with a byte order mark. -/
def read (s : String) : Except Fault Json :=
  match s.toList with
  | '\uFEFF' :: _ => .error ⟨.byteOrderMark, 0⟩
  | cs => readChars cs

/-- The line of an offset, counted from one. -/
def lineOf (s : String) (offset : Nat) : Nat :=
  (s.toList.take offset).count '\n' + 1

/-- The column of an offset in its line, counted from one. -/
def columnOf (s : String) (offset : Nat) : Nat :=
  ((s.toList.take offset).reverse.takeWhile (· != '\n')).length + 1

/-- A fault in words. -/
def Fault.message (f : Fault) (s : String) : String :=
  match f.problem with
  | .longInteger _ => f.problem.text
  | p => p.text ++ ": line " ++ toString (lineOf s f.offset) ++ " column " ++
    toString (columnOf s f.offset) ++ " (char " ++ toString f.offset ++ ")"

end DesignTokens.Json
