/-!
# Characters written as bytes

`decode` reads a byte string as characters and passes over what is no character: a
stray byte alone, and of a sequence that breaks off the part that could have gone on.
`encode` writes characters, each in its shortest form.
-/
namespace PETriage.Text.Utf8

def isTail (b : UInt8) : Bool := 0x80 ≤ b && b ≤ 0xBF

/-- The second bytes that may follow a first one of a three-byte character. -/
def isSecondOfThree (a b : UInt8) : Bool :=
  if a == 0xE0 then 0xA0 ≤ b && b ≤ 0xBF
  else if a == 0xED then 0x80 ≤ b && b ≤ 0x9F
  else isTail b

/-- The second bytes that may follow a first one of a four-byte character. -/
def isSecondOfFour (a b : UInt8) : Bool :=
  if a == 0xF0 then 0x90 ≤ b && b ≤ 0xBF
  else if a == 0xF4 then 0x80 ≤ b && b ≤ 0x8F
  else isTail b

def tailBits (b : UInt8) : Nat := b.toNat % 64

def decode : List UInt8 → List Char
  | [] => []
  | a :: rest =>
    if a < 0x80 then Char.ofNat a.toNat :: decode rest
    else if 0xC2 ≤ a && a ≤ 0xDF then
      match rest with
      | [] => []
      | b :: rest2 =>
        if isTail b then Char.ofNat ((a.toNat % 32) * 64 + tailBits b) :: decode rest2
        else decode (b :: rest2)
    else if 0xE0 ≤ a && a ≤ 0xEF then
      match rest with
      | [] => []
      | b :: rest2 =>
        if isSecondOfThree a b then
          match rest2 with
          | [] => []
          | c :: rest3 =>
            if isTail c then
              Char.ofNat ((a.toNat % 16) * 4096 + tailBits b * 64 + tailBits c) :: decode rest3
            else decode (c :: rest3)
        else decode (b :: rest2)
    else if 0xF0 ≤ a && a ≤ 0xF4 then
      match rest with
      | [] => []
      | b :: rest2 =>
        if isSecondOfFour a b then
          match rest2 with
          | [] => []
          | c :: rest3 =>
            if isTail c then
              match rest3 with
              | [] => []
              | d :: rest4 =>
                if isTail d then
                  Char.ofNat ((a.toNat % 8) * 262144 + tailBits b * 4096 + tailBits c * 64 +
                    tailBits d) :: decode rest4
                else decode (d :: rest4)
            else decode (c :: rest3)
        else decode (b :: rest2)
    else decode rest
  termination_by xs => xs.length

def encode (cs : List Char) : List UInt8 := cs.flatMap String.utf8EncodeChar

/-- Reads a byte string that is characters throughout. -/
def decode? (xs : List UInt8) : Option (List Char) :=
  let cs := decode xs
  if encode cs == xs then some cs else none

end PETriage.Text.Utf8
