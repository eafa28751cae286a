import OpeningHand.Text.Quoted

/-!
# Bytes as text

Reading UTF-8. Only the shortest form of a code point is accepted and no surrogate, and a fault
names the bytes at fault: the start of a sequence that cannot start one, the sequence up to the byte
that should have continued it, or the unfinished sequence at the end.
-/

namespace OpeningHand.Text

/-- Why bytes are not UTF-8. -/
inductive Utf8Reason where
  | invalidStart
  | invalidContinuation
  | unexpectedEnd
  deriving Repr, DecidableEq

/-- A fault in bytes read as UTF-8: the first byte at fault, its position, and how many bytes. -/
structure Utf8Fault where
  reason : Utf8Reason
  byte : UInt8
  position : Nat
  length : Nat
  deriving Repr, DecidableEq

/-- The reason in words. -/
def Utf8Reason.message : Utf8Reason → String
  | .invalidStart => "invalid start byte"
  | .invalidContinuation => "invalid continuation byte"
  | .unexpectedEnd => "unexpected end of data"

/-- A fault in words. -/
def Utf8Fault.message (f : Utf8Fault) : String :=
  if f.length = 1 then
    "'utf-8' codec can't decode byte 0x" ++ String.ofList (hexDigits 2 f.byte.toNat) ++
      " in position " ++ toString f.position ++ ": " ++ f.reason.message
  else
    "'utf-8' codec can't decode bytes in position " ++ toString f.position ++ "-" ++
      toString (f.position + f.length - 1) ++ ": " ++ f.reason.message

/-- A byte that continues a sequence. -/
def isContinuation (b : UInt8) : Bool :=
  0x80 ≤ b && b < 0xc0

/-- Whether `second` may follow the lead byte `lead`: it continues the sequence, and the code point
is neither written too long, nor a surrogate, nor beyond the last one. -/
def mayFollow (lead second : UInt8) : Bool :=
  isContinuation second &&
    (if lead = 0xe0 then 0xa0 ≤ second else if lead = 0xed then second < 0xa0
     else if lead = 0xf0 then 0x90 ≤ second else if lead = 0xf4 then second < 0x90 else true)

/-- The low six bits of a byte. -/
def lowBits (b : UInt8) : Nat :=
  b.toNat % 64

/-- How many bytes a sequence has by its lead byte; none for a byte that leads no sequence. -/
def sequenceLength? (lead : UInt8) : Option Nat :=
  if lead < 0x80 then some 1
  else if lead < 0xc2 then none
  else if lead < 0xe0 then some 2
  else if lead < 0xf0 then some 3
  else if lead < 0xf5 then some 4
  else none

/-- What stands at the head of some bytes. -/
inductive Utf8Head where
  | code (c : Char) (length : Nat)
  | fault (reason : Utf8Reason) (length : Nat)
  | unfinished (length : Nat)

/-- The sequence at the head of `lead :: rest`. -/
def utf8Head (lead : UInt8) (rest : List UInt8) : Utf8Head :=
  match sequenceLength? lead, rest with
  | none, _ => .fault .invalidStart 1
  | some 1, _ => .code (Char.ofNat lead.toNat) 1
  | some _, [] => .unfinished 1
  | some 2, b :: _ =>
    if isContinuation b then .code (Char.ofNat (lead.toNat % 32 * 64 + lowBits b)) 2
    else .fault .invalidContinuation 1
  | some 3, [b] => if mayFollow lead b then .unfinished 2 else .fault .invalidContinuation 1
  | some 3, b :: c :: _ =>
    if !mayFollow lead b then .fault .invalidContinuation 1
    else if !isContinuation c then .fault .invalidContinuation 2
    else .code (Char.ofNat ((lead.toNat % 16 * 64 + lowBits b) * 64 + lowBits c)) 3
  | some _, [b] => if mayFollow lead b then .unfinished 2 else .fault .invalidContinuation 1
  | some _, [b, c] =>
    if !mayFollow lead b then .fault .invalidContinuation 1
    else if !isContinuation c then .fault .invalidContinuation 2
    else .unfinished 3
  | some _, b :: c :: d :: _ =>
    if !mayFollow lead b then .fault .invalidContinuation 1
    else if !isContinuation c then .fault .invalidContinuation 2
    else if !isContinuation d then .fault .invalidContinuation 3
    else .code (Char.ofNat (((lead.toNat % 8 * 64 + lowBits b) * 64 + lowBits c) * 64 + lowBits d)) 4

/-- Reads bytes from `position` on. `skip` bytes belong to the sequence read last; `text` holds what
was read, last character first. With the text comes the fault that ended it, if one did. -/
def decodeFrom (position skip : Nat) (text : List Char) :
    List UInt8 → List Char × Option Utf8Fault
  | [] => (text.reverse, none)
  | b :: bs =>
    match skip with
    | skip + 1 => decodeFrom (position + 1) skip text bs
    | 0 =>
      match utf8Head b bs with
      | .code c length => decodeFrom (position + 1) (length - 1) (c :: text) bs
      | .fault reason length => (text.reverse, some ⟨reason, b, position, length⟩)
      | .unfinished length => (text.reverse, some ⟨.unexpectedEnd, b, position, length⟩)

/-- The text before the first fault, and that fault. -/
def decodeAll (bs : List UInt8) : List Char × Option Utf8Fault :=
  decodeFrom 0 0 [] bs

/-- Bytes as a text. -/
def decodeUtf8 (bs : List UInt8) : Except Utf8Fault (List Char) :=
  match decodeAll bs with
  | (text, none) => .ok text
  | (_, some fault) => .error fault

/-- A text as bytes. -/
def encodeUtf8 (cs : List Char) : List UInt8 :=
  cs.flatMap String.utf8EncodeChar

end OpeningHand.Text
