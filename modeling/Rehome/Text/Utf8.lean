/-!
# UTF-8 — texts out of bytes that may not be one

Bytes are decoded one at a time. A first byte says how many bytes follow it and in which range the
next one has to be, so that only the shortest form of a code point is accepted and no surrogate
is. Where a byte does not fit, one replacement character stands for all bytes of the character
that was begun, and the byte is looked at anew.
-/

namespace Rehome.Text

/-- A character that was begun: its bits so far, how many bytes are still to come, and the range
    of the next one. -/
structure Begun where
  code : Nat
  missing : Nat
  low : Nat
  high : Nat

namespace Begun

/-- What the first byte of a character of several bytes begins. -/
def ofFirst? (b : Nat) : Option Begun :=
  if 0xc2 ≤ b ∧ b ≤ 0xdf then some ⟨b - 0xc0, 1, 0x80, 0xbf⟩
  else if b = 0xe0 then some ⟨0, 2, 0xa0, 0xbf⟩
  else if b = 0xed then some ⟨13, 2, 0x80, 0x9f⟩
  else if 0xe1 ≤ b ∧ b ≤ 0xef then some ⟨b - 0xe0, 2, 0x80, 0xbf⟩
  else if b = 0xf0 then some ⟨0, 3, 0x90, 0xbf⟩
  else if 0xf1 ≤ b ∧ b ≤ 0xf3 then some ⟨b - 0xf0, 3, 0x80, 0xbf⟩
  else if b = 0xf4 then some ⟨4, 3, 0x80, 0x8f⟩
  else none

end Begun

/-- What was decoded so far: the characters in reverse, and the one that was begun. -/
structure Decoding where
  before : List Char := []
  begun : Option Begun := none

namespace Decoding

/-- The character that stands for bytes that are none. -/
def replacement : Char := '\ufffd'

/-- Take a byte with which a character begins. -/
def first (before : List Char) (b : Nat) : Decoding :=
  if b < 0x80 then ⟨Char.ofNat b :: before, none⟩
  else
    match Begun.ofFirst? b with
    | some begun => ⟨before, some begun⟩
    | none => ⟨replacement :: before, none⟩

/-- Take the next byte. -/
def next (d : Decoding) (byte : UInt8) : Decoding :=
  let b := byte.toNat
  match d.begun with
  | none => first d.before b
  | some begun =>
    if begun.low ≤ b ∧ b ≤ begun.high then
      let code := begun.code * 64 + b % 64
      if begun.missing ≤ 1 then ⟨Char.ofNat code :: d.before, none⟩
      else ⟨d.before, some ⟨code, begun.missing - 1, 0x80, 0xbf⟩⟩
    else first (replacement :: d.before) b

/-- The characters, when no byte is left. -/
def finish (d : Decoding) : List Char :=
  match d.begun with
  | none => d.before.reverse
  | some _ => (replacement :: d.before).reverse

end Decoding

/-- The text of bytes, in which replacement characters stand for what is no character. -/
def decode (bytes : ByteArray) : String :=
  String.ofList (bytes.toList.foldl Decoding.next {}).finish

end Rehome.Text
