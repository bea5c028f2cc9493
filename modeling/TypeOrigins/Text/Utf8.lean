import TypeOrigins.Text.Quoted

/-! # UTF-8

Bytes read as characters. A byte that starts a character fixes how many bytes are owed and the range
of the next one, which rules out overlong forms, surrogates and code points beyond the last. A fault
names the longest run of bytes that could still have begun a character. -/

namespace TypeOrigins.Text
set_option autoImplicit false

/-- Why bytes are not UTF-8. -/
inductive Utf8Reason where
  | badStart
  | badContinuation
  | truncated
deriving DecidableEq, Repr

/-- A run of bytes that is no character: where it starts, its bytes, and why. -/
structure Utf8Fault where
  position : Nat
  bytes : List UInt8
  reason : Utf8Reason
deriving DecidableEq, Repr

/-- The wording of a reason. -/
def Utf8Reason.message : Utf8Reason → String
  | .badStart => "invalid start byte"
  | .badContinuation => "invalid continuation byte"
  | .truncated => "unexpected end of data"

/-- The wording of a fault. -/
def Utf8Fault.message (f : Utf8Fault) : String :=
  let place :=
    match f.bytes with
    | [b] => "byte 0x" ++ String.ofList (hexDigits 2 b.toNat) ++ " in position " ++
        toString f.position
    | _ => "bytes in position " ++ toString f.position ++ "-" ++
        toString (f.position + f.bytes.length - 1)
  "'utf-8' codec can't decode " ++ place ++ ": " ++ f.reason.message

/-- A character of which some bytes are read: what its bits give so far, how many bytes are owed,
the range of the next byte, and the bytes read. -/
structure PartialChar where
  bits : Nat
  owed : Nat
  low : Nat
  high : Nat
  seen : List UInt8

/-- What the first byte of a character begins. -/
def PartialChar.start? (b : UInt8) : Option PartialChar :=
  let n := b.toNat
  if n < 0x80 then some ⟨n, 0, 0x80, 0xbf, [b]⟩
  else if 0xc2 ≤ n && n ≤ 0xdf then some ⟨n - 0xc0, 1, 0x80, 0xbf, [b]⟩
  else if n == 0xe0 then some ⟨0, 2, 0xa0, 0xbf, [b]⟩
  else if n == 0xed then some ⟨0xd, 2, 0x80, 0x9f, [b]⟩
  else if 0xe1 ≤ n && n ≤ 0xef then some ⟨n - 0xe0, 2, 0x80, 0xbf, [b]⟩
  else if n == 0xf0 then some ⟨0, 3, 0x90, 0xbf, [b]⟩
  else if 0xf1 ≤ n && n ≤ 0xf3 then some ⟨n - 0xf0, 3, 0x80, 0xbf, [b]⟩
  else if n == 0xf4 then some ⟨4, 3, 0x80, 0x8f, [b]⟩
  else none

/-- The character with one more byte, if the byte is in range. -/
def PartialChar.add? (p : PartialChar) (b : UInt8) : Option PartialChar :=
  if p.low ≤ b.toNat && b.toNat ≤ p.high then
    some ⟨p.bits * 64 + (b.toNat - 0x80), p.owed - 1, 0x80, 0xbf, p.seen ++ [b]⟩
  else none

/-- Reads on from `position`, where `open?` is the character begun before it and `done` holds the
characters read, the last first. -/
def utf8Chars (position : Nat) (open? : Option PartialChar) (done : List Char) :
    List UInt8 → Except Utf8Fault (List Char)
  | [] =>
      match open? with
      | none => .ok done.reverse
      | some p => .error ⟨position - p.seen.length, p.seen, .truncated⟩
  | b :: rest =>
      match open? with
      | none =>
          match PartialChar.start? b with
          | none => .error ⟨position, [b], .badStart⟩
          | some p =>
              if p.owed == 0 then utf8Chars (position + 1) none (Char.ofNat p.bits :: done) rest
              else utf8Chars (position + 1) (some p) done rest
      | some p =>
          match p.add? b with
          | none => .error ⟨position - p.seen.length, p.seen, .badContinuation⟩
          | some p' =>
              if p'.owed == 0 then utf8Chars (position + 1) none (Char.ofNat p'.bits :: done) rest
              else utf8Chars (position + 1) (some p') done rest

/-- The characters that bytes spell. -/
def decodeUtf8 (bytes : List UInt8) : Except Utf8Fault (List Char) :=
  utf8Chars 0 none [] bytes

/-- The bytes that spell characters. -/
def encodeUtf8 (cs : List Char) : List UInt8 :=
  cs.flatMap String.utf8EncodeChar

/-- Every line end as a line feed: a return, with or without a line feed after it, becomes one. -/
def unifyLines : List Char → List Char
  | [] => []
  | '\r' :: '\n' :: rest => '\n' :: unifyLines rest
  | '\r' :: rest => '\n' :: unifyLines rest
  | c :: rest => c :: unifyLines rest

end TypeOrigins.Text
