import BoardConfig.Text.Digits
import BoardConfig.Text.Cut

/-! Integer literals in the syntax of four target formats, written and read back. -/

namespace BoardConfig

/-- The literal syntax of a target format. -/
inductive LiteralStyle
  /-- Assembler immediate, such as `0x800000`. -/
  | asmHex
  /-- Hexadecimal with a digit separator every four digits, such as `0x0080'0000`. -/
  | cHex
  /-- Hexadecimal with its width in bits in front, such as `32'h00800000`. -/
  | sizedHex
  /-- Plain decimal, such as `27000000`. -/
  | decimal
  deriving DecidableEq, Repr

/-- Every style, in the order in which they are listed. -/
def LiteralStyle.all : List LiteralStyle :=
  [.asmHex, .cHex, .sizedHex, .decimal]

/-- The name of a style. -/
def LiteralStyle.name : LiteralStyle → String
  | .asmHex => "asm-hex"
  | .cHex => "c-hex"
  | .sizedHex => "sized-hex"
  | .decimal => "decimal"

/-- The base in which a style writes its digits. -/
def LiteralStyle.base : LiteralStyle → Nat
  | .decimal => 10
  | _ => 16

/-- What is wrong with the shape of a literal. -/
inductive LiteralFault
  /-- The leading `0x` is absent. -/
  | missingHexMarker
  /-- A digit separator stands first, last or beside another one. -/
  | misplacedSeparator
  /-- The `'h` between width and digits is absent. -/
  | missingSizeMarker
  /-- The text before `'h` is not the expected width. -/
  | wrongSize (found : String) (bits : Nat)
  /-- There is no digit, or something that is not a digit. -/
  | badDigits
  deriving DecidableEq, Repr

/-- The wording of a fault. -/
def LiteralFault.message : LiteralFault → String
  | .missingHexMarker => "missing 0x"
  | .misplacedSeparator => "misplaced digit separator"
  | .missingSizeMarker => "missing 'h"
  | .wrongSize found bits => s!"size {found} is not {bits}"
  | .badDigits => "bad digits"

/-- Why a literal cannot be written or read. -/
inductive LiteralError
  /-- The value needs more bits; a value past 64 bits is shown as the largest of 64 bits. -/
  | outOfRange (value : UInt64) (bits : Nat) (style : LiteralStyle)
  /-- No literal has this width. -/
  | invalidWidth (bits : Nat)
  /-- The text is not in the style's syntax. -/
  | malformed (text : String) (style : LiteralStyle) (fault : LiteralFault)
  deriving DecidableEq, Repr

/-- The wording of a literal error. -/
def LiteralError.message : LiteralError → String
  | .outOfRange value bits style =>
    s!"value {value.toNat} ({hexText value.toNat}) does not fit in {bits} bits ({style.name} literal)"
  | .invalidWidth bits => s!"literal width must be 1..=64 bits, got {bits}"
  | .malformed text style fault => s!"malformed {style.name} literal '{text}': {fault.message}"

/-- A literal is between one and 64 bits wide. -/
def ValidWidth (bits : Nat) : Prop :=
  1 ≤ bits ∧ bits ≤ 64

instance (bits : Nat) : Decidable (ValidWidth bits) :=
  inferInstanceAs (Decidable (_ ∧ _))

/-- The hexadecimal digits that cover a width. -/
def hexDigitCount (bits : Nat) : Nat :=
  (bits + 3) / 4

/-- The hexadecimal digits that cover a width in whole groups of four. -/
def groupedDigitCount (bits : Nat) : Nat :=
  (hexDigitCount bits + 3) / 4 * 4

/-- The text of a number in a style, once it is known to fit the width. -/
def LiteralStyle.write (style : LiteralStyle) (bits n : Nat) : List Char :=
  match style with
  | .asmHex => '0' :: 'x' :: hexDigits n
  | .cHex =>
    -- Zeros fill the first group, so that all groups have four digits.
    '0' :: 'x' ::
      ['\''].intercalate (groupsOfFour (zeroPadded (groupedDigitCount bits) (hexDigits n)))
  | .sizedHex =>
    -- The width stands in front in decimal, and the digits cover it.
    Nat.toDigits 10 bits ++ '\'' :: 'h' :: zeroPadded (hexDigitCount bits) (hexDigits n)
  | .decimal => Nat.toDigits 10 n

/-- Writes a value as a literal of a width; a value that does not fit is refused, never cut. -/
def encode (value : UInt64) (style : LiteralStyle) (bits : Nat) : Except LiteralError String :=
  if ¬ ValidWidth bits then .error (.invalidWidth bits)
  else if value.toNat < Nat.pow 2 bits then .ok (String.ofList (style.write bits value.toNat))
  else .error (.outOfRange value bits style)

/-- The text before and after the first size marker `'h`. -/
def cutAtSizeMarker : List Char → Option (List Char × List Char)
  | '\'' :: 'h' :: rest => some ([], rest)
  | c :: rest => (cutAtSizeMarker rest).map fun (size, digits) => (c :: size, digits)
  | [] => none

/-- The digits of a literal, without the marks that its style puts around and between them. -/
def LiteralStyle.digitsOf (style : LiteralStyle) (bits : Nat) (text : List Char) :
    Except LiteralFault (List Char) :=
  match style with
  | .asmHex =>
    match text with
    | '0' :: 'x' :: digits => .ok digits
    | _ => .error .missingHexMarker
  | .cHex =>
    match text with
    | '0' :: 'x' :: body =>
      -- An empty group is what a separator leaves at an end or beside another one.
      let groups := runsBetween '\'' body
      if [] ∈ groups then .error .misplacedSeparator else .ok groups.flatten
    | _ => .error .missingHexMarker
  | .sizedHex =>
    match cutAtSizeMarker text with
    | some (size, digits) =>
      -- The width must be written as it is, without zeros in front.
      if size = Nat.toDigits 10 bits then .ok digits
      else .error (.wrongSize (String.ofList size) bits)
    | none => .error .missingSizeMarker
  | .decimal => .ok text

/-- The number that a text in a style denotes, whatever its size. -/
def LiteralStyle.read (style : LiteralStyle) (bits : Nat) (text : List Char) :
    Except LiteralFault Nat :=
  match style.digitsOf bits text with
  | .ok digits =>
    match number? style.base digits with
    | some n => .ok n
    | none => .error .badDigits
  | .error fault => .error fault

/-- Reads a literal of a style and width back. -/
def decode (text : String) (style : LiteralStyle) (bits : Nat) : Except LiteralError UInt64 :=
  if ¬ ValidWidth bits then .error (.invalidWidth bits)
  else
    match style.read bits text.toList with
    | .ok n =>
      -- What is read may be longer than its width allows, or than any word.
      if n < Nat.pow 2 bits then .ok (UInt64.ofNat n)
      else .error (.outOfRange (UInt64.ofNat (min n (UInt64.size - 1))) bits style)
    | .error fault => .error (.malformed text style fault)

end BoardConfig
