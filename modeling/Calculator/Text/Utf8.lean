import Calculator.Failure

/-!
# Decoding UTF-8

Bytes are decoded one after another: a leading byte says how many more belong to its character and
narrows the range of the second one, so that no character has two encodings.  The bytes of a file
arrive in blocks.  A fault is located in its block, and a character that the end of a block cuts off
is carried over, as if the next block began with it.
-/

namespace Calculator.Utf8

/-- How many bytes a character takes that starts with the given byte. -/
def width? (lead : UInt8) : Option Nat :=
  if lead < 0x80 then some 1
  else if 0xC2 ≤ lead ∧ lead ≤ 0xDF then some 2
  else if 0xE0 ≤ lead ∧ lead ≤ 0xEF then some 3
  else if 0xF0 ≤ lead ∧ lead ≤ 0xF4 then some 4
  else none

/-- The least and the greatest byte that may follow a leading byte. -/
def secondRange (lead : UInt8) : UInt8 × UInt8 :=
  if lead = 0xE0 then (0xA0, 0xBF)
  else if lead = 0xED then (0x80, 0x9F)
  else if lead = 0xF0 then (0x90, 0xBF)
  else if lead = 0xF4 then (0x80, 0x8F)
  else (0x80, 0xBF)

/-- The byte may follow the bytes of a character that has begun. -/
def continues (begun : List UInt8) (b : UInt8) : Bool :=
  match begun with
  | [lead] => (secondRange lead).1 ≤ b && b ≤ (secondRange lead).2
  | _ => 0x80 ≤ b && b ≤ 0xBF

/-- The character of a complete encoding: the low bits of the leading byte, then six of each. -/
def charOf (bytes : List UInt8) : Char :=
  match bytes.map UInt8.toNat with
  | [a] => Char.ofNat a
  | [a, b] => Char.ofNat (a % 32 * 64 + b % 64)
  | [a, b, c] => Char.ofNat ((a % 16 * 64 + b % 64) * 64 + c % 64)
  | [a, b, c, d] => Char.ofNat (((a % 8 * 64 + b % 64) * 64 + c % 64) * 64 + d % 64)
  | _ => Char.ofNat 0

/-- How far the decoding of a block has come. -/
structure Progress where
  /-- The bytes of a character that has begun and is not complete. -/
  begun : List UInt8
  /-- Where in the block that character began, or else where the next one will. -/
  place : Nat

/-- Two bytes that begin the encoding of a surrogate, which is no character.  At the very end of a
block they are carried over like a character that was cut off. -/
def beginsSurrogate (begun : List UInt8) : Bool :=
  match begun with
  | [lead, second] => lead == 0xED && 0xA0 ≤ second && second ≤ 0xBF
  | _ => false

/-- The failure at `bytes`, of which the first stands at `place`. -/
def fault (bytes : List UInt8) (place : Nat) (reason : Text) : Failure :=
  let location : Text :=
    match bytes with
    | [b] => "byte 0x".toList ++ Text.hexDigits 2 b.toNat ++ " in position ".toList ++
        Text.ofNat place
    | _ => "bytes in position ".toList ++ Text.ofNat place ++ ['-'] ++
        Text.ofNat (place + bytes.length - 1)
  .undecodable ("'utf-8' codec can't decode ".toList ++ location ++ ": ".toList ++ reason)

/-- The fault of a byte that does not continue its character. -/
def brokenOff (begun : List UInt8) (place : Nat) : Failure :=
  fault (if beginsSurrogate begun then begun.take 1 else begun) place
    "invalid continuation byte".toList

/-- Decodes one block.  The result holds its characters and what is carried over. -/
def decodeBlock : List UInt8 → Progress → Except Failure (Text × List UInt8)
  | [], p => .ok ([], p.begun)
  | b :: rest, p =>
    match p.begun with
    | [] =>
      match width? b with
      | none => .error (fault [b] p.place "invalid start byte".toList)
      | some 1 => do
        let (text, carried) ← decodeBlock rest ⟨[], p.place + 1⟩
        return (charOf [b] :: text, carried)
      | some _ => decodeBlock rest ⟨[b], p.place⟩
    | lead :: more =>
      let bytes := lead :: more ++ [b]
      if beginsSurrogate (lead :: more) then
        .error (brokenOff (lead :: more) p.place)
      else if continues (lead :: more) b then
        if width? lead = some bytes.length then do
          let (text, carried) ← decodeBlock rest ⟨[], p.place + bytes.length⟩
          return (charOf bytes :: text, carried)
        else
          decodeBlock rest ⟨bytes, p.place⟩
      else if rest.isEmpty && beginsSurrogate bytes then
        .ok ([], bytes)
      else
        .error (brokenOff (lead :: more) p.place)

/-- Decodes some blocks, after which nothing may be left over. -/
def decodeBlocks : List (List UInt8) → (carried : List UInt8) → Except Failure Text
  | [], [] => .ok []
  | [], carried =>
    if beginsSurrogate carried then .error (brokenOff carried 0)
    else .error (fault carried 0 "unexpected end of data".toList)
  | block :: rest, carried => do
    let (text, carried) ← decodeBlock block ⟨carried, 0⟩
    let more ← decodeBlocks rest carried
    return text ++ more

/-- The number of bytes in every block of a file but the last. -/
def blockSize : Nat := 8192

/-- Cuts bytes into at most `count` blocks. -/
def blocks : (count : Nat) → List UInt8 → List (List UInt8)
  | 0, _ => []
  | count + 1, bytes =>
    if bytes.isEmpty then [] else bytes.take blockSize :: blocks count (bytes.drop blockSize)

/-- The text that the bytes of a file encode. -/
def decode (bytes : List UInt8) : Except Failure Text :=
  decodeBlocks (blocks (bytes.length / blockSize + 1) bytes) []

end Calculator.Utf8
