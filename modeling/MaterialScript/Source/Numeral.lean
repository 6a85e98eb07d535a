/-
Number literals.

A number is a run of digits, optionally a point with more digits, and
exponents. The point belongs to the number only when a digit follows it. A
number with one exponent at most denotes a value; longer chains are cut off
the text as one numeral and refused as such.

`lexeme_append_cut`: nothing of the text is lost.
-/
namespace MaterialScript

/-- The parts of a number literal, each as written. -/
structure Numeral where
  whole : List Char
  /-- The point and its digits, or nothing. -/
  fraction : List Char
  /-- Each exponent with its mark and sign. -/
  exponents : List (List Char)

namespace Numeral

/-- The literal as written. -/
def lexeme (n : Numeral) : List Char :=
  n.whole ++ n.fraction ++ n.exponents.flatten

/-- Neither point nor exponent is written. -/
def isInteger (n : Numeral) : Bool :=
  n.fraction.isEmpty && n.exponents.isEmpty

/-- A value has one exponent at most. -/
def isValue (n : Numeral) : Bool :=
  n.exponents.length ≤ 1

/-- The point and the digits after it, if a digit follows the point. -/
def cutFraction : List Char → List Char × List Char
  | '.' :: d :: cs =>
    if d.isDigit then ('.' :: d :: cs.takeWhile Char.isDigit, cs.dropWhile Char.isDigit)
    else ([], '.' :: d :: cs)
  | cs => ([], cs)

/-- A sign, if one is written. -/
def cutSign : List Char → List Char × List Char
  | '+' :: cs => (['+'], cs)
  | '-' :: cs => (['-'], cs)
  | cs => ([], cs)

/-- An exponent: its mark, an optional sign and at least one digit. -/
def cutExponent? : List Char → Option (List Char × List Char)
  | [] => none
  | c :: cs =>
    if c = 'e' ∨ c = 'E' then
      match (cutSign cs).2 with
      | [] => none
      | d :: ds =>
        if d.isDigit then
          some (c :: ((cutSign cs).1 ++ d :: ds.takeWhile Char.isDigit), ds.dropWhile Char.isDigit)
        else none
    else none

theorem cutFraction_append (cs : List Char) : (cutFraction cs).1 ++ (cutFraction cs).2 = cs := by
  unfold cutFraction
  split
  · split <;> simp [List.takeWhile_append_dropWhile]
  · rfl

theorem cutSign_append (cs : List Char) : (cutSign cs).1 ++ (cutSign cs).2 = cs := by
  unfold cutSign
  split <;> rfl

theorem cutExponent?_append {cs e rest : List Char} (h : cutExponent? cs = some (e, rest)) :
    e ++ rest = cs ∧ e ≠ [] := by
  unfold cutExponent? at h
  split at h
  · cases h
  · rename_i c cs
    split at h
    · split at h
      · cases h
      · rename_i d ds hsign
        split at h
        · obtain ⟨rfl, rfl⟩ := by simpa using h
          have := cutSign_append cs
          rw [hsign] at this
          simp [List.takeWhile_append_dropWhile, this]
        · cases h
    · cases h

theorem length_rest_of_cutExponent? {cs e rest : List Char} (h : cutExponent? cs = some (e, rest)) :
    rest.length < cs.length := by
  obtain ⟨rfl, hne⟩ := cutExponent?_append h
  have := List.length_pos_iff.2 hne
  simp
  omega

/-- Every exponent at the front of a text. -/
def cutExponents (cs : List Char) : List (List Char) × List Char :=
  match _h : cutExponent? cs with
  | none => ([], cs)
  | some (e, rest) => (e :: (cutExponents rest).1, (cutExponents rest).2)
termination_by cs.length
decreasing_by exact length_rest_of_cutExponent? _h

theorem cutExponents_append (cs : List Char) :
    (cutExponents cs).1.flatten ++ (cutExponents cs).2 = cs := by
  fun_induction cutExponents cs with
  | case1 => simp
  | case2 cs e rest h ih =>
    obtain ⟨rfl, -⟩ := cutExponent?_append h
    simp [ih]

/-- The number literal at the front of a text that starts with a digit. -/
def cut (cs : List Char) : Numeral × List Char :=
  let afterWhole := cs.dropWhile Char.isDigit
  let fraction := cutFraction afterWhole
  let exponents := cutExponents fraction.2
  (⟨cs.takeWhile Char.isDigit, fraction.1, exponents.1⟩, exponents.2)

theorem lexeme_append_cut (cs : List Char) : (cut cs).1.lexeme ++ (cut cs).2 = cs := by
  simp [cut, lexeme, cutExponents_append, cutFraction_append, List.takeWhile_append_dropWhile]

theorem lexeme_cut_ne_nil {c : Char} (cs : List Char) (h : c.isDigit) :
    (cut (c :: cs)).1.lexeme ≠ [] := by
  simp [cut, lexeme, h]

end Numeral

end MaterialScript
