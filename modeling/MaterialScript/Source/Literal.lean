/-
String literals.

A literal stands between double quotes. A backslash takes the next character
with it: `n`, `t` and `r` stand for a line feed, a tab and a carriage return,
every other character for itself. A line feed that no backslash precedes and
the end of the text leave a literal unterminated.

`source_append_rest`: nothing of the text is lost.
-/
namespace MaterialScript

/-- A literal cut off a text after its opening quote. -/
structure Literal where
  /-- The literal as written, with its closing quote. -/
  source : List Char
  content : List Char
  rest : List Char

namespace Literal

/-- The character that a backslash before `c` stands for. -/
def unescape (c : Char) : Char :=
  match c with
  | 'n' => '\n'
  | 't' => '\t'
  | 'r' => '\r'
  | c => c

/-- Puts characters in front: as written, and what they stand for. -/
def prepend (written : List Char) (meaning : Char) (l : Literal) : Literal :=
  ⟨written ++ l.source, meaning :: l.content, l.rest⟩

/-- The literal whose opening quote has just been read. -/
def cut? : List Char → Option Literal
  | [] => none
  | ['\\'] => none
  | '"' :: cs => some ⟨['"'], [], cs⟩
  | '\\' :: c :: cs => (cut? cs).map (prepend ['\\', c] (unescape c))
  | '\n' :: _ => none
  | c :: cs => (cut? cs).map (prepend [c] c)

theorem source_append_rest {cs : List Char} {l : Literal} (h : cut? cs = some l) :
    l.source ++ l.rest = cs := by
  fun_induction cut? cs generalizing l with
  | case1 => cases h
  | case2 => cases h
  | case3 cs => cases h; rfl
  | case4 c cs ih =>
    obtain ⟨m, hm, rfl⟩ := Option.map_eq_some_iff.1 h
    simp [prepend, ih hm]
  | case5 => cases h
  | case6 c cs _ _ _ _ ih =>
    obtain ⟨m, hm, rfl⟩ := Option.map_eq_some_iff.1 h
    simp [prepend, ih hm]

end Literal

end MaterialScript
