/-
Colors of four bytes: red, green, blue and alpha.

A script writes a color as a list of components. One component makes an
opaque gray; of more, the first four count, and components that are not given
are 255.
-/
namespace MaterialScript

/-- A color with one byte per component. -/
structure Color where
  red : UInt8
  green : UInt8
  blue : UInt8
  alpha : UInt8
deriving DecidableEq

namespace Color

def white : Color := ⟨255, 255, 255, 255⟩

def black : Color := ⟨0, 0, 0, 255⟩

/-- Opaque, with three equal components. -/
def gray (level : UInt8) : Color := ⟨level, level, level, 255⟩

/-- Sets one component, counted from red as 0; there is nothing to set from 4 on. -/
def setComponent (c : Color) (index : Nat) (level : UInt8) : Color :=
  match index with
  | 0 => { c with red := level }
  | 1 => { c with green := level }
  | 2 => { c with blue := level }
  | 3 => { c with alpha := level }
  | _ => c

/-- The color a list of components denotes. -/
def ofComponents : List UInt8 → Color
  | [] => white
  | [level] => gray level
  | [r, g] => ⟨r, g, 255, 255⟩
  | [r, g, b] => ⟨r, g, b, 255⟩
  | r :: g :: b :: a :: _ => ⟨r, g, b, a⟩

/-- A number as a component: clamped to a byte and cut off after the point. -/
def component (v : Float) : UInt8 := v.toUInt8

/-- A component as a fraction of its greatest value. -/
def fraction (level : UInt8) : Float32 := level.toNat.toFloat32 / 255

/-- All components as fractions. -/
def fractions (c : Color) : List Float32 :=
  [fraction c.red, fraction c.green, fraction c.blue, fraction c.alpha]

end Color

end MaterialScript
