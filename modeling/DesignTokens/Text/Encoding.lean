/-!
Texts as bytes. A decoder says where the first bytes stand that encode no character, and why. In
what is read from a file a carriage return, alone or before a line feed, counts as a line feed.
-/
namespace DesignTokens.Text

abbrev Bytes := List UInt8

/-- Why bytes encode no character. -/
inductive DecodeReason where
  | invalidStart
  | invalidContinuation
  | unexpectedEnd
  deriving DecidableEq, Repr

def DecodeReason.text : DecodeReason → String
  | .invalidStart => "invalid start byte"
  | .invalidContinuation => "invalid continuation byte"
  | .unexpectedEnd => "unexpected end of data"

/-- The first fault of a byte sequence: its place, the number of bytes, the first of them. -/
structure DecodeFault where
  reason : DecodeReason
  offset : Nat
  length : Nat
  byte : UInt8
  deriving DecidableEq, Repr

def hexByte (b : UInt8) : String :=
  let digit (n : Nat) : Char := if n < 10 then Char.ofNat (48 + n) else Char.ofNat (87 + n)
  String.ofList [digit (b.toNat / 16), digit (b.toNat % 16)]

def DecodeFault.message (f : DecodeFault) : String :=
  "'utf-8' codec can't decode " ++
    (if f.length = 1 then "byte 0x" ++ hexByte f.byte ++ " in position " ++ toString f.offset
      else "bytes in position " ++ toString f.offset ++ "-" ++ toString (f.offset + f.length - 1)) ++
    ": " ++ f.reason.text

/-- A byte that continues a character. -/
def continues (b : UInt8) : Bool := 0x80 ≤ b && b < 0xC0

/-- Whether the second byte fits the first: no character has a longer form than it needs, and none
lies among the surrogates or beyond the last code point. -/
def secondFits (lead second : UInt8) : Bool :=
  continues second &&
    !(lead == 0xE0 && second < 0xA0) && !(lead == 0xED && second ≥ 0xA0) &&
    !(lead == 0xF0 && second < 0x90) && !(lead == 0xF4 && second ≥ 0x90)

/-- The number of bytes of a character, told by the first one. -/
def sequenceLength? (lead : UInt8) : Option Nat :=
  if lead < 0x80 then some 1
  else if lead < 0xC2 then none
  else if lead < 0xE0 then some 2
  else if lead < 0xF0 then some 3
  else if lead < 0xF5 then some 4
  else none

/-- How many bytes after the first one fit, of at most `wanted`. -/
def fitting (lead : UInt8) (wanted : Nat) (rest : Bytes) : Nat :=
  match rest with
  | [] => 0
  | second :: more =>
    if wanted = 0 || !secondFits lead second then 0
    else 1 + ((more.take (wanted - 1)).takeWhile continues).length

/-- The low bits of a character's bytes, joined. -/
def joinBits (lead : UInt8) (length : Nat) (rest : Bytes) : Nat :=
  let first := if length = 1 then lead.toNat else lead.toNat % Nat.pow 2 (7 - length)
  (rest.take (length - 1)).foldl (fun n b => n * 64 + b.toNat % 64) first

/-- The first character of a byte sequence and the number of its bytes. -/
def firstChar (offset : Nat) (lead : UInt8) (rest : Bytes) : Except DecodeFault (Char × Nat) :=
  match sequenceLength? lead with
  | none => .error ⟨.invalidStart, offset, 1, lead⟩
  | some length =>
    let fit := fitting lead (length - 1) rest
    if fit + 1 = length then .ok (Char.ofNat (joinBits lead length rest), length)
    else if fit = rest.length then .error ⟨.unexpectedEnd, offset, rest.length + 1, lead⟩
    else .error ⟨.invalidContinuation, offset, fit + 1, lead⟩

def decodeUtf8From (offset : Nat) (bytes : Bytes) : Except DecodeFault (List Char) :=
  match bytes with
  | [] => .ok []
  | lead :: rest => do
    let (c, length) ← firstChar offset lead rest
    return c :: (← decodeUtf8From (offset + length) (rest.drop (length - 1)))
termination_by bytes.length
decreasing_by grind

def decodeUtf8 (bytes : Bytes) : Except DecodeFault String :=
  (decodeUtf8From 0 bytes).map String.ofList

def encodeUtf8 (s : String) : Bytes := s.toUTF8.toList

/-- The encodings that a byte sequence can turn out to have. -/
inductive Encoding where
  | utf8
  | utf16 (littleEndian : Bool)
  | utf32 (littleEndian : Bool)
  deriving DecidableEq, Repr

/-- The encoding of a JSON text, told by a byte order mark or by the place of zero bytes, and the
bytes without the mark. -/
def detect : Bytes → Encoding × Bytes
  | 0x00 :: 0x00 :: 0xFE :: 0xFF :: rest => (.utf32 false, rest)
  | 0xFF :: 0xFE :: 0x00 :: 0x00 :: rest => (.utf32 true, rest)
  | 0xFE :: 0xFF :: rest => (.utf16 false, rest)
  | 0xFF :: 0xFE :: rest => (.utf16 true, rest)
  | 0xEF :: 0xBB :: 0xBF :: rest => (.utf8, rest)
  | a :: b :: c :: d :: rest =>
    let bytes := a :: b :: c :: d :: rest
    if a == 0 then (if b == 0 then .utf32 false else .utf16 false, bytes)
    else if b == 0 then (if c == 0 && d == 0 then .utf32 true else .utf16 true, bytes)
    else (.utf8, bytes)
  | [a, b] =>
    if a == 0 then (.utf16 false, [a, b])
    else if b == 0 then (.utf16 true, [a, b])
    else (.utf8, [a, b])
  | bytes => (.utf8, bytes)

/-- The numbers that groups of `size` bytes stand for, if no byte is left over. -/
def units (size : Nat) (littleEndian : Bool) (bytes : Bytes) : Option (List Nat) :=
  if h : bytes = [] then some []
  else if hs : size = 0 ∨ bytes.length < size then none
  else
    let group := bytes.take size
    let n := (if littleEndian then group.reverse else group).foldl (fun n b => n * 256 + b.toNat) 0
    (units size littleEndian (bytes.drop size)).map (n :: ·)
termination_by bytes.length
decreasing_by
  have := List.length_pos_iff.2 h
  simp; omega

/-- Half of a pair that stands alone becomes the replacement character. -/
def joinUnits : List Nat → List Char
  | high :: low :: rest =>
    if 0xD800 ≤ high && high < 0xDC00 && 0xDC00 ≤ low && low < 0xE000 then
      Char.ofNat (0x10000 + (high - 0xD800) * 0x400 + (low - 0xDC00)) :: joinUnits rest
    else (if 0xD800 ≤ high && high < 0xE000 then '\uFFFD' else Char.ofNat high) ::
      joinUnits (low :: rest)
  | [unit] => [if 0xD800 ≤ unit && unit < 0xE000 then '\uFFFD' else Char.ofNat unit]
  | [] => []

def joinPoints (points : List Nat) : Option (List Char) :=
  points.mapM fun n =>
    if n ≤ 0x10FFFF then some (if 0xD800 ≤ n && n < 0xE000 then '\uFFFD' else Char.ofNat n)
    else none

/-- The text of a byte sequence in the encoding that it turns out to have. -/
def decodeDetected? (bytes : Bytes) : Option (List Char) :=
  match detect bytes with
  | (.utf8, bytes) => (decodeUtf8From 0 bytes).toOption
  | (.utf16 little, bytes) => (units 2 little bytes).map joinUnits
  | (.utf32 little, bytes) => (units 4 little bytes).bind joinPoints

/-! ### Line breaks -/

def unifyBreaks : List Char → List Char
  | '\r' :: '\n' :: cs => '\n' :: unifyBreaks cs
  | c :: cs => (if c == '\r' then '\n' else c) :: unifyBreaks cs
  | [] => []

/-- No carriage return is left. -/
theorem not_mem_unifyBreaks (cs : List Char) : '\r' ∉ unifyBreaks cs := by
  fun_induction unifyBreaks cs with
  | case1 cs ih => simp [ih]
  | case2 c cs _ ih => by_cases h : c = '\r' <;> simp [h, ih, Ne.symm]
  | case3 => simp

theorem unifyBreaks_of_not_mem {cs : List Char} (h : '\r' ∉ cs) : unifyBreaks cs = cs := by
  fun_induction unifyBreaks cs with
  | case1 cs ih => simp at h
  | case2 c cs _ ih =>
    simp only [List.mem_cons, not_or] at h
    rw [ih h.2, if_neg (by simpa using Ne.symm h.1)]
  | case3 => rfl

end DesignTokens.Text
