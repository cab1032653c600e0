/-!
Numbers in text: hexadecimal, and digits padded to a least width.
-/

namespace Fieldbus

/-- `s` behind as many copies of `pad` as bring it to `width` characters. -/
def padLeft (s : String) (width : Nat) (pad : Char) : String :=
  String.ofList (List.replicate (width - s.length) pad) ++ s

/-- The hexadecimal digits of `n`, in lower case. -/
def hexDigits (n : Nat) : String := String.ofList (Nat.toDigits 16 n)

/-- The two hexadecimal digits of a byte. -/
def hexByte (b : UInt8) : String := padLeft (hexDigits b.toNat) 2 '0'

/-- The two digits of every byte, one after the other. -/
def hexRun (bytes : Array UInt8) : String := bytes.foldl (fun s b => s ++ hexByte b) ""

/-- A number with the mark `0x` and at least four digits. -/
def hexMarked (n : Nat) : String := "0x" ++ padLeft (hexDigits n) 4 '0'

/-- Bytes as a bracketed list. -/
def hexList (bytes : Array UInt8) : String :=
  "[" ++ ", ".intercalate (bytes.toList.map hexByte) ++ "]"

/-- The number written by hexadecimal digits. -/
def readHex (digits : List Char) : Nat :=
  digits.foldl (fun n c => n * 16 + (if c.isDigit then c.toNat - 48 else c.toLower.toNat - 87)) 0

/-- The bytes written by pairs of hexadecimal digits, behind those already read. -/
def readHexRun : List Char → Array UInt8 → Array UInt8
  | a :: b :: rest, read => readHexRun rest (read.push (UInt8.ofNat (readHex [a, b])))
  | _, read => read

example : hexMarked 0x1f = "0x001f" := by decide +kernel
example : hexMarked 0x12345 = "0x12345" := by decide +kernel
example : hexList #[0x0a, 0xff] = "[0a, ff]" := by decide +kernel
example : readHexRun "0aFf".toList #[] = #[0x0a, 0xff] := by decide +kernel

end Fieldbus
