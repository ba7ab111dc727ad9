import EvalDesk.Text.Hex

/-!
# Text from bytes

Bytes are read as UTF-8. The strict reader stops at the first flaw and says where it lies, how
many bytes it covers and why it is one; the lenient reader puts the replacement character in the
place of each flaw and goes on behind it.
-/
namespace EvalDesk.Text.Utf8

/-- Why bytes are no character. -/
inductive Reason where
  /-- The byte starts no character. -/
  | startByte
  /-- A byte that should continue a character does not. -/
  | continuation
  /-- The bytes end inside a character. -/
  | truncated
  deriving DecidableEq, Repr

/-- The words for a reason. -/
def Reason.message : Reason → String
  | .startByte => "invalid start byte"
  | .continuation => "invalid continuation byte"
  | .truncated => "unexpected end of data"

/-- A run of bytes that is no character. -/
structure Flaw where
  /-- Position of its first byte. -/
  start : Nat
  /-- How many bytes it covers, at least one. -/
  length : Nat
  /-- Its first byte. -/
  first : UInt8
  /-- Why it is no character. -/
  reason : Reason
  deriving DecidableEq, Repr

/-- The full words for a flaw: the byte when it is a single one, else the positions. -/
def Flaw.message (flaw : Flaw) : String :=
  let place :=
    if flaw.length = 1 then
      "byte 0x" ++ String.ofList (hexText 2 flaw.first.toNat) ++ " in position " ++
        toString flaw.start
    else
      "bytes in position " ++ toString flaw.start ++ "-" ++
        toString (flaw.start + flaw.length - 1)
  "'utf-8' codec can't decode " ++ place ++ ": " ++ flaw.reason.message

/-- A byte that continues a character. -/
def continues (byte : UInt8) : Bool := 0x80 ≤ byte.toNat && byte.toNat < 0xc0

/-- The bits a continuing byte carries. -/
def payload (byte : UInt8) : Nat := byte.toNat - 0x80

/-- The lowest and highest second byte after a first byte; the narrower ranges keep out the long
forms, the surrogates and what lies beyond the last code point. -/
def secondRange (first : Nat) : Nat × Nat :=
  if first = 0xe0 then (0xa0, 0xbf)
  else if first = 0xed then (0x80, 0x9f)
  else if first = 0xf0 then (0x90, 0xbf)
  else if first = 0xf4 then (0x80, 0x8f)
  else (0x80, 0xbf)

/-- A byte may stand second after the first byte. -/
def mayFollow (first : Nat) (byte : UInt8) : Bool :=
  (secondRange first).1 ≤ byte.toNat && byte.toNat ≤ (secondRange first).2

/-- The character at the front of the bytes and the number of bytes behind the first that it
takes, or why there is none and how many bytes the flaw covers. -/
def front (first : UInt8) (rest : List UInt8) : Except (Reason × Nat) (Char × Nat) :=
  let lead := first.toNat
  if lead < 0x80 then .ok (Char.ofNat lead, 0)
  else if lead < 0xc2 then .error (.startByte, 1)
  else if lead < 0xe0 then
    match rest with
    | [] => .error (.truncated, 1)
    | second :: _ =>
      if continues second then .ok (Char.ofNat ((lead - 0xc0) * 64 + payload second), 1)
      else .error (.continuation, 1)
  else if lead < 0xf0 then
    match rest with
    | [] => .error (.truncated, 1)
    | second :: rest =>
      if !mayFollow lead second then .error (.continuation, 1)
      else match rest with
        | [] => .error (.truncated, 2)
        | third :: _ =>
          if continues third then
            .ok (Char.ofNat (((lead - 0xe0) * 64 + payload second) * 64 + payload third), 2)
          else .error (.continuation, 2)
  else if lead < 0xf5 then
    match rest with
    | [] => .error (.truncated, 1)
    | second :: rest =>
      if !mayFollow lead second then .error (.continuation, 1)
      else match rest with
        | [] => .error (.truncated, 2)
        | third :: rest =>
          if !continues third then .error (.continuation, 2)
          else match rest with
            | [] => .error (.truncated, 3)
            | fourth :: _ =>
              if continues fourth then
                .ok (Char.ofNat ((((lead - 0xf0) * 64 + payload second) * 64 + payload third) * 64
                  + payload fourth), 3)
              else .error (.continuation, 3)
  else .error (.startByte, 1)

/-- Read all bytes from a position on, stopping at the first flaw. -/
def decodeFrom (position : Nat) : List UInt8 → Except Flaw (List Char)
  | [] => .ok []
  | first :: rest =>
    match front first rest with
    | .error (reason, length) => .error ⟨position, length, first, reason⟩
    | .ok (c, taken) => (decodeFrom (position + taken + 1) (rest.drop taken)).map (c :: ·)
termination_by bytes => bytes.length
decreasing_by simp only [List.length_drop, List.length_cons]; omega

/-- The text of the bytes, or their first flaw. -/
def decode (bytes : List UInt8) : Except Flaw String :=
  (decodeFrom 0 bytes).map String.ofList

/-- The characters of the bytes, with the replacement character for each flaw. -/
def decodeLenientChars : List UInt8 → List Char
  | [] => []
  | first :: rest =>
    match front first rest with
    | .error (_, length) => '\uFFFD' :: decodeLenientChars (rest.drop (length - 1))
    | .ok (c, taken) => c :: decodeLenientChars (rest.drop taken)
termination_by bytes => bytes.length
decreasing_by all_goals (simp only [List.length_drop, List.length_cons]; omega)

/-- The bytes of a text. -/
def encode (text : String) : List UInt8 := text.toUTF8.toList

end EvalDesk.Text.Utf8
