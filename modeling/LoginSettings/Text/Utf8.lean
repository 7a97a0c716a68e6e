/-!
# Text in bytes

Reading bytes as UTF-8. Where that fails the report says how many bytes are whole characters and
how many bytes of the next one are wrong; none are named where the bytes merely end too early.
-/

namespace LoginSettings.Text

/-- Why bytes are not a text: `whole` bytes are, then `wrong` bytes cannot be. -/
structure Utf8Fault where
  whole : Nat
  wrong : Option Nat
deriving DecidableEq, Repr

/-- How the fault is reported. -/
def Utf8Fault.message (f : Utf8Fault) : String :=
  match f.wrong with
  | some n => s!"invalid utf-8 sequence of {n} bytes from index {f.whole}"
  | none => s!"incomplete utf-8 byte sequence from index {f.whole}"

/-- Holds of the bytes that go on with a character. -/
def isContinuation (b : UInt8) : Bool := 0x80 ≤ b && b ≤ 0xBF

/-- Which second bytes a first byte of three allows; overlong forms and surrogates are shut out. -/
def allowsSecondOfThree (a b : UInt8) : Bool :=
  if a = 0xE0 then 0xA0 ≤ b && b ≤ 0xBF
  else if a = 0xED then 0x80 ≤ b && b ≤ 0x9F
  else isContinuation b

/-- Which second bytes a first byte of four allows; the code points end at `10FFFF`. -/
def allowsSecondOfFour (a b : UInt8) : Bool :=
  if a = 0xF0 then 0x90 ≤ b && b ≤ 0xBF
  else if a = 0xF4 then 0x80 ≤ b && b ≤ 0x8F
  else isContinuation b

/-- The low six bits of a byte that goes on with a character. -/
def sixBits (b : UInt8) : Nat := b.toNat % 64

/-- The characters that the bytes spell; `whole` counts the bytes before them. -/
def decodeFrom (whole : Nat) : List UInt8 → Except Utf8Fault (List Char)
  | [] => .ok []
  | a :: rest =>
    if a < 0x80 then (decodeFrom (whole + 1) rest).map (Char.ofNat a.toNat :: ·)
    else if 0xC2 ≤ a && a ≤ 0xDF then
      match rest with
      | [] => .error ⟨whole, none⟩
      | b :: rest =>
        if isContinuation b then
          (decodeFrom (whole + 2) rest).map (Char.ofNat (a.toNat % 32 * 64 + sixBits b) :: ·)
        else .error ⟨whole, some 1⟩
    else if 0xE0 ≤ a && a ≤ 0xEF then
      match rest with
      | [] => .error ⟨whole, none⟩
      | b :: rest =>
        if !allowsSecondOfThree a b then .error ⟨whole, some 1⟩
        else match rest with
        | [] => .error ⟨whole, none⟩
        | c :: rest =>
          if isContinuation c then
            (decodeFrom (whole + 3) rest).map
              (Char.ofNat (a.toNat % 16 * 4096 + sixBits b * 64 + sixBits c) :: ·)
          else .error ⟨whole, some 2⟩
    else if 0xF0 ≤ a && a ≤ 0xF4 then
      match rest with
      | [] => .error ⟨whole, none⟩
      | b :: rest =>
        if !allowsSecondOfFour a b then .error ⟨whole, some 1⟩
        else match rest with
        | [] => .error ⟨whole, none⟩
        | c :: rest =>
          if !isContinuation c then .error ⟨whole, some 2⟩
          else match rest with
          | [] => .error ⟨whole, none⟩
          | d :: rest =>
            if isContinuation d then
              (decodeFrom (whole + 4) rest).map
                (Char.ofNat (a.toNat % 8 * 262144 + sixBits b * 4096 + sixBits c * 64 + sixBits d)
                  :: ·)
            else .error ⟨whole, some 3⟩
    else .error ⟨whole, some 1⟩

/-- The text that the bytes spell. -/
def decodeUtf8 (bytes : List UInt8) : Except Utf8Fault String :=
  (decodeFrom 0 bytes).map String.ofList

/-- The bytes of a character. -/
def charBytes (c : Char) : List UInt8 :=
  let n := c.toNat
  if n < 0x80 then [UInt8.ofNat n]
  else if n < 0x800 then [UInt8.ofNat (0xC0 + n / 64), UInt8.ofNat (0x80 + n % 64)]
  else if n < 0x10000 then
    [UInt8.ofNat (0xE0 + n / 4096), UInt8.ofNat (0x80 + n / 64 % 64), UInt8.ofNat (0x80 + n % 64)]
  else
    [UInt8.ofNat (0xF0 + n / 262144), UInt8.ofNat (0x80 + n / 4096 % 64),
      UInt8.ofNat (0x80 + n / 64 % 64), UInt8.ofNat (0x80 + n % 64)]

/-- The bytes of a text. -/
def encodeUtf8 (cs : List Char) : List UInt8 := cs.flatMap charBytes

/-- The part of a text from one of its bytes up to another, if characters start at both. -/
def cutBytes (cs : List Char) (start stop : Nat) : Option (List Char) :=
  (decodeFrom 0 (((encodeUtf8 cs).take stop).drop start)).toOption

end LoginSettings.Text
