/-!
Texts as bytes in UTF-8: encoding, strict decoding, and decoding that puts a replacement character
where the bytes are no text.
-/

namespace Forwarding.Text

/-- The bytes of a text. -/
def utf8 (s : String) : List UInt8 :=
  s.toList.flatMap String.utf8EncodeChar

/-- A byte inside the encoding of a character. -/
def isContinuation (b : UInt8) : Bool :=
  0x80 ≤ b && b ≤ 0xBF

/-- The second bytes that may follow `b` in an encoding of three or four bytes; the bounds leave out
surrogates, long forms and numbers that are no code points. -/
def isSecondByte (b c : UInt8) : Bool :=
  if b == 0xE0 then 0xA0 ≤ c && c ≤ 0xBF
  else if b == 0xED then 0x80 ≤ c && c ≤ 0x9F
  else if b == 0xF0 then 0x90 ≤ c && c ≤ 0xBF
  else if b == 0xF4 then 0x80 ≤ c && c ≤ 0x8F
  else isContinuation c

/-- The six bits a continuation byte carries. -/
def payload (b : UInt8) : Nat :=
  b.toNat % 64

/-- Reads the character that starts with `b`. Where there is none, the bytes that could still have
started one are passed over. -/
def readChar (b : UInt8) (bs : List UInt8) : Option Char × List UInt8 :=
  if b < 0x80 then (some (Char.ofNat b.toNat), bs)
  else if b < 0xC2 || 0xF4 < b then (none, bs)
  else
    match bs with
    | [] => (none, [])
    | c :: cs =>
      if b < 0xE0 then
        if isContinuation c then (some (Char.ofNat (b.toNat % 32 * 64 + payload c)), cs)
        else (none, c :: cs)
      else if !isSecondByte b c then (none, c :: cs)
      else
        match cs with
        | [] => (none, [])
        | d :: ds =>
          if !isContinuation d then (none, d :: ds)
          else if b < 0xF0 then
            (some (Char.ofNat ((b.toNat % 16 * 64 + payload c) * 64 + payload d)), ds)
          else
            match ds with
            | [] => (none, [])
            | e :: es =>
              if isContinuation e then
                (some (Char.ofNat
                  (((b.toNat % 8 * 64 + payload c) * 64 + payload d) * 64 + payload e)), es)
              else (none, e :: es)

/-- The characters of the bytes, `none` where there is no character. Each step takes at least one
byte, so `n` need not exceed the number of bytes. -/
def decodeSteps : Nat → List UInt8 → List (Option Char)
  | _, [] => []
  | 0, _ => []
  | n + 1, b :: bs =>
    let (c, rest) := readChar b bs
    c :: decodeSteps n rest

/-- The text with these bytes, if they are one. -/
def ofUtf8? (bs : List UInt8) : Option String :=
  ((decodeSteps bs.length bs).mapM id).map String.ofList

/-- The bytes as a text with replacement characters. -/
def ofUtf8Lossy (bs : List UInt8) : String :=
  String.ofList ((decodeSteps bs.length bs).map (·.getD '�'))

end Forwarding.Text
