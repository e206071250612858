import MarkupTemplate.Text.Quoted

/-!
# Encodings of files

A template file is read in one of three encodings. Decoding stops at the first byte sequence that the
encoding does not allow and says where it stands and why; UTF-8 refuses overlong forms, surrogates
and everything beyond the last code point at the first byte that shows it. Reading a file as text
makes every line end a line feed; writing changes nothing.
-/

namespace MarkupTemplate

abbrev Bytes := List UInt8

inductive Encoding
  | utf8
  | latin1
  | ascii
deriving DecidableEq

namespace Encoding

def name : Encoding → Text
  | utf8 => "utf-8".toList
  | latin1 => "latin-1".toList
  | ascii => "ascii".toList

def ofName? (s : Text) : Option Encoding :=
  [utf8, latin1, ascii].find? fun e => e.name = s

inductive Fault
  | startByte
  | continuationByte
  | truncated
  | notAscii
deriving DecidableEq

def Fault.message : Fault → Text
  | startByte => "invalid start byte".toList
  | continuationByte => "invalid continuation byte".toList
  | truncated => "unexpected end of data".toList
  | notAscii => "ordinal not in range(128)".toList

structure DecodeError where
  encoding : Encoding
  position : Nat
  width : Nat
  byte : UInt8
  fault : Fault
deriving DecidableEq

def DecodeError.message (e : DecodeError) : Text :=
  "'".toList ++ e.encoding.name ++ "' codec can't decode ".toList ++
    (if e.width = 1 then
      "byte 0x".toList ++ Text.hex 2 e.byte.toNat ++ " in position ".toList ++ Text.ofNat e.position
    else
      "bytes in position ".toList ++ Text.ofNat e.position ++ ['-'] ++
        Text.ofNat (e.position + e.width - 1)) ++
    ": ".toList ++ e.fault.message

def isTail (b : UInt8) : Bool :=
  0x80 ≤ b && b < 0xC0

/-- The bytes that may follow the lead byte `a` of a sequence of three or four. -/
def isSecond (a b : UInt8) : Bool :=
  (if a = 0xE0 then 0xA0 else if a = 0xF0 then 0x90 else 0x80) ≤ b &&
    b ≤ (if a = 0xED then 0x9F else if a = 0xF4 then 0x8F else 0xBF)

def tailBits (b : UInt8) : Nat :=
  b.toNat % 64

def decodeUtf8 (position : Nat) : Bytes → Except DecodeError Text
  | [] => .ok []
  | a :: s =>
    if a < 0x80 then
      (decodeUtf8 (position + 1) s).map (Char.ofNat a.toNat :: ·)
    else if a < 0xC2 || 0xF4 < a then
      .error ⟨utf8, position, 1, a, .startByte⟩
    else
      match s with
      | [] => .error ⟨utf8, position, 1, a, .truncated⟩
      | b :: s =>
        if a < 0xE0 then
          if isTail b then
            (decodeUtf8 (position + 2) s).map (Char.ofNat (a.toNat % 32 * 64 + tailBits b) :: ·)
          else .error ⟨utf8, position, 1, a, .continuationByte⟩
        else if isSecond a b then
          match s with
          | [] => .error ⟨utf8, position, 2, a, .truncated⟩
          | c :: s =>
            if !isTail c then .error ⟨utf8, position, 2, a, .continuationByte⟩
            else if a < 0xF0 then
              (decodeUtf8 (position + 3) s).map
                (Char.ofNat ((a.toNat % 16 * 64 + tailBits b) * 64 + tailBits c) :: ·)
            else
              match s with
              | [] => .error ⟨utf8, position, 3, a, .truncated⟩
              | d :: s =>
                if isTail d then
                  (decodeUtf8 (position + 4) s).map
                    (Char.ofNat
                      (((a.toNat % 8 * 64 + tailBits b) * 64 + tailBits c) * 64 + tailBits d) :: ·)
                else .error ⟨utf8, position, 3, a, .continuationByte⟩
        else .error ⟨utf8, position, 1, a, .continuationByte⟩

def decodeLatin1 (s : Bytes) : Text :=
  s.map fun b => Char.ofNat b.toNat

def decodeAscii (position : Nat) : Bytes → Except DecodeError Text
  | [] => .ok []
  | b :: s =>
    if b < 0x80 then (decodeAscii (position + 1) s).map (Char.ofNat b.toNat :: ·)
    else .error ⟨ascii, position, 1, b, .notAscii⟩

def decode : Encoding → Bytes → Except DecodeError Text
  | utf8, s => decodeUtf8 0 s
  | latin1, s => .ok (decodeLatin1 s)
  | ascii, s => decodeAscii 0 s

def encodeBelow (limit : Nat) : Text → Option Bytes
  | [] => some []
  | c :: s => if c.toNat < limit then (encodeBelow limit s).map (UInt8.ofNat c.toNat :: ·) else none

def encode? : Encoding → Text → Option Bytes
  | utf8, s => some (s.flatMap String.utf8EncodeChar)
  | latin1, s => encodeBelow 256 s
  | ascii, s => encodeBelow 128 s

end Encoding

namespace Text

/-- Every line end, whether carriage return, line feed or both, as a line feed. -/
def unifyLineEnds : Text → Text
  | [] => []
  | '\r' :: '\n' :: s => '\n' :: unifyLineEnds s
  | '\r' :: s => '\n' :: unifyLineEnds s
  | c :: s => c :: unifyLineEnds s

end Text

end MarkupTemplate
