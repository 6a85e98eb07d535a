/-
The words of the language.

`Stands p rest`: a piece may stand where `rest` follows. Its rules give the
language of each kind of lexeme and the three gaps, without reference to the
way a text is cut; what follows matters because names and numbers reach as far
as they can and because two slashes, or a slash and a star, open a comment.
A text has one piece at its front at most, and cutting finds it
(`Piece.cut_eq_ok_iff`).
-/
import Mathlib.Data.List.TakeWhile
import MaterialScript.Source.Piece

namespace MaterialScript

/-! ## Languages -/

/-- One digit or more. -/
structure Digits (cs : List Char) : Prop where
  ne_nil : cs ≠ []
  digits : ∀ c ∈ cs, c.isDigit

/-- A point and the digits after it. -/
inductive Fraction : List Char → Prop
  | point {part : List Char} : Digits part → Fraction ('.' :: part)

/-- The mark of an exponent, a sign or none, and digits. -/
inductive Exponent : List Char → Prop
  | plain {mark : Char} {part : List Char} :
      mark = 'e' ∨ mark = 'E' → Digits part → Exponent (mark :: part)
  | signed {mark sign : Char} {part : List Char} :
      mark = 'e' ∨ mark = 'E' → sign = '+' ∨ sign = '-' → Digits part →
      Exponent (mark :: sign :: part)

/-- Digits with an optional fraction and an optional exponent; with either it is a float. -/
inductive Number : List Char → TokenKind → Prop
  | intro {whole fraction exponent : List Char} :
      Digits whole → fraction = [] ∨ Fraction fraction → exponent = [] ∨ Exponent exponent →
      Number (whole ++ fraction ++ exponent)
        (if fraction = [] ∧ exponent = [] then .integer else .float)

/-- What a string literal has between its quotes, and the string it stands for. -/
inductive Quoted : List Char → List Char → Prop
  | nil : Quoted [] []
  | plain {c : Char} {written content : List Char} :
      c ≠ '"' → c ≠ '\\' → c ≠ '\n' → Quoted written content → Quoted (c :: written) (c :: content)
  | escaped (c : Char) {written content : List Char} :
      Quoted written content → Quoted ('\\' :: c :: written) (Literal.unescape c :: content)

/-- The closing mark of a block comment, at the end and nowhere before. -/
structure ClosesOnce (cs : List Char) : Prop where
  closes : ∃ body, cs = body ++ ['*', '/']
  once : ∀ before after, cs = before ++ '*' :: '/' :: after → after = []

/-- No closing mark of a block comment stands in the text. -/
def NeverCloses (cs : List Char) : Prop :=
  ∀ before after, cs ≠ before ++ '*' :: '/' :: after

/-- No digit stands at the front. -/
def NoDigit (cs : List Char) : Prop := ∀ c ∈ cs.head?, c.isDigit = false

/-- A number does not go on: no digit follows, no exponent, and no fraction if it is whole. -/
structure NumberEnds (kind : TokenKind) (rest : List Char) : Prop where
  digit : NoDigit rest
  exponent : ∀ e more, rest = e ++ more → ¬ Exponent e
  fraction : kind = .integer → ∀ f more, rest = f ++ more → ¬ Fraction f

/-- The piece may stand where `rest` follows. -/
inductive Stands : Piece → List Char → Prop
  | carriageReturn (rest : List Char) : Stands (.gap ['\r']) rest
  | lineComment {body rest : List Char} :
      '\n' ∉ body → (∀ c ∈ rest.head?, c = '\n') → Stands (.gap ('/' :: '/' :: body)) rest
  | blockComment {body : List Char} (rest : List Char) :
      ClosesOnce body → Stands (.gap ('/' :: '*' :: body)) rest
  | openComment {body : List Char} :
      NeverCloses body → Stands (.gap ('/' :: '*' :: body)) []
  | blank (rest : List Char) : Stands (.single ' ' .blank) rest
  | tab (rest : List Char) : Stands (.single '\t' .tab) rest
  | newline (rest : List Char) : Stands (.single '\n' .newline) rest
  | symbol {s : Symbol} {rest : List Char} :
      (s = .slash → ∀ c ∈ rest.head?, c ≠ '/' ∧ c ≠ '*') → Stands (.single s.char (.symbol s)) rest
  | name {c : Char} {cs rest : List Char} :
      Piece.startsName c → (∀ x ∈ cs, Piece.continuesName x) →
      (∀ x ∈ rest.head?, Piece.continuesName x = false) →
      Stands (.lexeme (c :: cs) .name (c :: cs)) rest
  | number {cs rest : List Char} {kind : TokenKind} :
      Number cs kind → NumberEnds kind rest → Stands (.lexeme cs kind cs) rest
  | literal {written content : List Char} (rest : List Char) :
      Quoted written content → Stands (.lexeme ('"' :: written ++ ['"']) .string content) rest

/-! ## Runs of characters -/

/-- A run of characters is found where it cannot be longer. -/
theorem takeWhile_append_of_head {p : Char → Bool} {cs rest : List Char} (hcs : ∀ c ∈ cs, p c)
    (hrest : ∀ c ∈ rest.head?, p c = false) :
    (cs ++ rest).takeWhile p = cs ∧ (cs ++ rest).dropWhile p = rest := by
  rw [List.takeWhile_append_of_pos hcs, List.dropWhile_append_of_pos hcs]
  cases rest with
  | nil => simp
  | cons c rest =>
    have hc : p c = false := hrest c (by simp)
    simp [hc]

theorem head?_dropWhile_eq_false (p : Char → Bool) (cs : List Char) :
    ∀ c ∈ (cs.dropWhile p).head?, p c = false := by
  intro c hc
  have hnot := List.head?_dropWhile_not p cs
  rw [hc] at hnot
  simpa using hnot

theorem noDigit_dropWhile (cs : List Char) : NoDigit (cs.dropWhile Char.isDigit) :=
  head?_dropWhile_eq_false _ cs

theorem digits_takeWhile {c : Char} (hc : c.isDigit) (cs : List Char) :
    Digits ((c :: cs).takeWhile Char.isDigit) :=
  ⟨by simp [hc], fun _ hd => List.mem_takeWhile_imp hd⟩

theorem digits_cons {c : Char} (hc : c.isDigit) (cs : List Char) :
    Digits (c :: cs.takeWhile Char.isDigit) := by
  have hdigits := digits_takeWhile hc cs
  rwa [List.takeWhile_cons_of_pos hc] at hdigits

theorem Digits.append {cs ds : List Char} (h : Digits cs) (hds : ∀ d ∈ ds, d.isDigit) :
    Digits (cs ++ ds) := by
  refine ⟨by simp [h.ne_nil], fun c hc => ?_⟩
  rcases List.mem_append.1 hc with hc | hc
  · exact h.digits c hc
  · exact hds c hc

theorem Digits.exists_cons {cs : List Char} (h : Digits cs) :
    ∃ d ds, cs = d :: ds ∧ d.isDigit ∧ ∀ x ∈ ds, x.isDigit := by
  obtain ⟨d, ds, rfl⟩ := List.exists_cons_of_ne_nil h.ne_nil
  exact ⟨d, ds, rfl, h.digits d (by simp), fun x hx => h.digits x (List.mem_cons_of_mem d hx)⟩

/-! ## Numbers -/

theorem Fraction.noDigit {f : List Char} (h : Fraction f) (rest : List Char) :
    NoDigit (f ++ rest) := by
  cases h
  simp [NoDigit]

theorem Exponent.exists_cons {e : List Char} (h : Exponent e) :
    ∃ mark more, e = mark :: more ∧ (mark = 'e' ∨ mark = 'E') := by
  cases h with
  | plain hmark => exact ⟨_, _, rfl, hmark⟩
  | signed hmark => exact ⟨_, _, rfl, hmark⟩

theorem Exponent.noDigit {e : List Char} (h : Exponent e) (rest : List Char) :
    NoDigit (e ++ rest) := by
  obtain ⟨mark, more, rfl, hmark⟩ := h.exists_cons
  rcases hmark with rfl | rfl <;> simp [NoDigit]

theorem Fraction.append {f ds : List Char} (h : Fraction f) (hds : ∀ d ∈ ds, d.isDigit) :
    Fraction (f ++ ds) := by
  cases h with
  | point hpart => exact .point (hpart.append hds)

/-- An exponent is no fraction. -/
theorem Exponent.noFraction {e : List Char} (h : Exponent e) (rest f more : List Char)
    (heq : e ++ rest = f ++ more) : ¬ Fraction f := by
  obtain ⟨mark, after, rfl, hmark⟩ := h.exists_cons
  rintro ⟨-⟩
  have hpoint : mark = '.' := (List.cons_eq_cons.1 heq).1
  subst hpoint
  simp at hmark

theorem Exponent.append {e ds : List Char} (h : Exponent e) (hds : ∀ d ∈ ds, d.isDigit) :
    Exponent (e ++ ds) := by
  cases h with
  | plain hmark hpart => exact .plain hmark (hpart.append hds)
  | signed hmark hsign hpart => exact .signed hmark hsign (hpart.append hds)

namespace Numeral

theorem cutFraction_of_fraction {f rest : List Char} (h : Fraction f) (hrest : NoDigit rest) :
    cutFraction (f ++ rest) = (f, rest) := by
  cases h with
  | point hpart =>
    obtain ⟨d, ds, rfl, hd, hds⟩ := hpart.exists_cons
    obtain ⟨htake, hdrop⟩ := takeWhile_append_of_head hds hrest
    simp [cutFraction, hd, htake, hdrop]

theorem cutFraction_cases (cs : List Char) :
    (Fraction (cutFraction cs).1 ∧ NoDigit (cutFraction cs).2) ∨
      ((cutFraction cs) = ([], cs) ∧ ∀ f more, cs = f ++ more → ¬ Fraction f) := by
  unfold cutFraction
  split
  · rename_i d cs
    split
    · rename_i hd
      exact .inl ⟨.point (digits_cons hd cs), noDigit_dropWhile cs⟩
    · rename_i hd
      refine .inr ⟨rfl, ?_⟩
      rintro _ more heq ⟨hpart⟩
      obtain ⟨d', ds, rfl, hd', -⟩ := hpart.exists_cons
      have hsame : d = d' := (List.cons_eq_cons.1 (List.cons_eq_cons.1 heq).2).1
      exact hd (hsame ▸ hd')
  · rename_i hno
    refine .inr ⟨rfl, ?_⟩
    rintro _ more rfl ⟨hpart⟩
    obtain ⟨d, ds, rfl, -, -⟩ := hpart.exists_cons
    exact hno d (ds ++ more) rfl

theorem cutExponent?_of_exponent {e rest : List Char} (h : Exponent e) (hrest : NoDigit rest) :
    cutExponent? (e ++ rest) = some (e, rest) := by
  cases h with
  | plain hmark hpart =>
    obtain ⟨d, ds, rfl, hd, hds⟩ := hpart.exists_cons
    obtain ⟨htake, hdrop⟩ := takeWhile_append_of_head hds hrest
    have hsign : cutSign (d :: (ds ++ rest)) = ([], d :: (ds ++ rest)) := by
      unfold cutSign
      split
      · rename_i heq
        obtain ⟨rfl, -⟩ := List.cons_eq_cons.1 heq
        exact absurd hd (by decide)
      · rename_i heq
        obtain ⟨rfl, -⟩ := List.cons_eq_cons.1 heq
        exact absurd hd (by decide)
      · rfl
    simp [cutExponent?, hmark, hsign, hd, htake, hdrop]
  | signed hmark hsign hpart =>
    obtain ⟨d, ds, rfl, hd, hds⟩ := hpart.exists_cons
    obtain ⟨htake, hdrop⟩ := takeWhile_append_of_head hds hrest
    rcases hsign with rfl | rfl <;> simp [cutExponent?, hmark, cutSign, hd, htake, hdrop]

theorem exponent_of_cutExponent? {cs e rest : List Char} (h : cutExponent? cs = some (e, rest)) :
    Exponent e ∧ NoDigit rest := by
  unfold cutExponent? at h
  split at h
  · cases h
  · rename_i mark cs
    split at h
    · rename_i hmark
      split at h
      · cases h
      · rename_i d ds hcut
        split at h
        · rename_i hd
          cases h
          refine ⟨?_, noDigit_dropWhile ds⟩
          unfold cutSign
          split
          · exact .signed hmark (.inl rfl) (digits_cons hd ds)
          · exact .signed hmark (.inr rfl) (digits_cons hd ds)
          · exact .plain hmark (digits_cons hd ds)
        · cases h
    · cases h

/-- An exponent goes on with the digits that follow it. -/
theorem cutExponent?_append_of_exponent {e : List Char} (h : Exponent e) (more : List Char) :
    cutExponent? (e ++ more) =
      some (e ++ more.takeWhile Char.isDigit, more.dropWhile Char.isDigit) := by
  have hlong : Exponent (e ++ more.takeWhile Char.isDigit) :=
    h.append fun _ hd => List.mem_takeWhile_imp hd
  have hcut := cutExponent?_of_exponent hlong (noDigit_dropWhile more)
  rwa [List.append_assoc, List.takeWhile_append_dropWhile] at hcut

theorem cutExponent?_eq_none_iff {cs : List Char} :
    cutExponent? cs = none ↔ ∀ e more, cs = e ++ more → ¬ Exponent e := by
  constructor
  · rintro hnone e more rfl he
    rw [cutExponent?_append_of_exponent he] at hnone
    cases hnone
  · intro hno
    rcases hcut : cutExponent? cs with _ | ⟨e, rest⟩
    · rfl
    · exact absurd (exponent_of_cutExponent? hcut).1 (hno e rest (cutExponent?_append hcut).1.symm)

theorem cutExponents_of_none {cs : List Char} (h : cutExponent? cs = none) :
    cutExponents cs = ([], cs) := by
  rw [cutExponents]
  split <;> simp_all

theorem cutExponents_of_some {cs e rest : List Char} (h : cutExponent? cs = some (e, rest)) :
    cutExponents cs = (e :: (cutExponents rest).1, (cutExponents rest).2) := by
  rw [cutExponents]
  split <;> simp_all

/-- The kind of a number as it is written. -/
def kind (n : Numeral) : TokenKind := if n.isInteger then .integer else .float

theorem kind_eq_integer_iff {n : Numeral} :
    n.kind = .integer ↔ n.fraction = [] ∧ n.exponents = [] := by
  simp [kind, isInteger]

/-- A numeral has digits, a fraction or none, and any number of exponents. -/
structure WellFormed (n : Numeral) : Prop where
  whole : Digits n.whole
  fraction : n.fraction = [] ∨ Fraction n.fraction
  exponents : ∀ e ∈ n.exponents, Exponent e

/-- A number is a numeral that has a value. -/
theorem exists_of_number {cs : List Char} {kind : TokenKind} (h : Number cs kind) :
    ∃ n : Numeral, n.WellFormed ∧ n.isValue ∧ n.lexeme = cs ∧ n.kind = kind := by
  obtain @⟨whole, fraction, exponent, hwhole, hfraction, hexponent⟩ := h
  refine ⟨⟨whole, fraction, if exponent = [] then [] else [exponent]⟩,
    ⟨hwhole, hfraction, fun e he => ?_⟩, ?_, ?_, ?_⟩
  · rcases hexponent with rfl | hexponent
    · simp at he
    · split at he <;> simp_all
  all_goals by_cases h : exponent = [] <;> simp [isValue, lexeme, Numeral.kind, isInteger, h]

theorem WellFormed.number {n : Numeral} (h : n.WellFormed) (hvalue : n.isValue) :
    Number n.lexeme n.kind := by
  obtain ⟨whole, fraction, exponents⟩ := n
  obtain ⟨hwhole, hfraction, hexponents⟩ := h
  rcases exponents with _ | ⟨e, _ | ⟨_, _⟩⟩
  · simpa [lexeme, Numeral.kind, isInteger] using Number.intro hwhole hfraction (.inl rfl)
  · have he : Exponent e := hexponents e (by simp)
    obtain ⟨mark, more, rfl, -⟩ := he.exists_cons
    simpa [lexeme, Numeral.kind, isInteger] using Number.intro hwhole hfraction (.inr he)
  · simp [isValue] at hvalue

/-- Where no digit follows exponents, none stands at their front. -/
theorem noDigit_flatten {es : List (List Char)} (h : ∀ e ∈ es, Exponent e) {rest : List Char}
    (hrest : NoDigit rest) : NoDigit (es.flatten ++ rest) := by
  cases es with
  | nil => exact hrest
  | cons e es =>
    rw [List.flatten_cons, List.append_assoc]
    exact (h e (by simp)).noDigit _

theorem cutExponents_of_exponents {es : List (List Char)} (h : ∀ e ∈ es, Exponent e)
    {rest : List Char} (hrest : NoDigit rest) (hnone : cutExponent? rest = none) :
    cutExponents (es.flatten ++ rest) = (es, rest) := by
  induction es with
  | nil => exact cutExponents_of_none hnone
  | cons e es ih =>
    have hes : ∀ x ∈ es, Exponent x := fun x hx => h x (List.mem_cons_of_mem e hx)
    have hcut := cutExponent?_of_exponent (h e (by simp)) (noDigit_flatten hes hrest)
    rw [List.flatten_cons, List.append_assoc, cutExponents_of_some hcut, ih hes]

/-- Where an exponent follows, no fraction does. -/
theorem noFraction_flatten {es : List (List Char)} (h : ∀ e ∈ es, Exponent e) (hne : es ≠ [])
    (rest f more : List Char) (heq : es.flatten ++ rest = f ++ more) : ¬ Fraction f := by
  obtain ⟨e, es, rfl⟩ := List.exists_cons_of_ne_nil hne
  rw [List.flatten_cons, List.append_assoc] at heq
  exact (h e (by simp)).noFraction _ _ _ heq

theorem cutFraction_append_of_end {f rest : List Char} (h : f = [] ∨ Fraction f)
    (hrest : NoDigit rest) (hno : f = [] → ∀ g more, rest = g ++ more → ¬ Fraction g) :
    cutFraction (f ++ rest) = (f, rest) := by
  rcases h with rfl | h
  · rcases cutFraction_cases rest with ⟨hsome, -⟩ | ⟨hcut, -⟩
    · exact absurd hsome (hno rfl _ _ (cutFraction_append rest).symm)
    · exact hcut
  · exact cutFraction_of_fraction h hrest

theorem noDigit_fraction {f rest : List Char} (h : f = [] ∨ Fraction f) (hrest : NoDigit rest) :
    NoDigit (f ++ rest) := by
  rcases h with rfl | h
  · exact hrest
  · exact h.noDigit rest

/-- A numeral is cut off where it ends. -/
theorem WellFormed.cut_eq {n : Numeral} (h : n.WellFormed) {rest : List Char}
    (hends : NumberEnds n.kind rest) : cut (n.lexeme ++ rest) = (n, rest) := by
  have hexponents := cutExponents_of_exponents h.exponents hends.digit
    (cutExponent?_eq_none_iff.2 hends.exponent)
  have hmore : NoDigit (n.exponents.flatten ++ rest) := noDigit_flatten h.exponents hends.digit
  have hno : n.fraction = [] →
      ∀ f more, n.exponents.flatten ++ rest = f ++ more → ¬ Fraction f := by
    intro hfraction f more heq
    by_cases hes : n.exponents = []
    · rw [hes] at heq
      exact hends.fraction (kind_eq_integer_iff.2 ⟨hfraction, hes⟩) f more heq
    · exact noFraction_flatten h.exponents hes _ _ _ heq
  obtain ⟨htake, hdrop⟩ :=
    takeWhile_append_of_head h.whole.digits (noDigit_fraction h.fraction hmore)
  simp only [cut, lexeme, List.append_assoc, htake, hdrop, hexponents,
    cutFraction_append_of_end h.fraction hmore hno]

/-- A number is cut off where it ends. -/
theorem cut_of_number {cs rest : List Char} {kind : TokenKind} (h : Number cs kind)
    (hends : NumberEnds kind rest) :
    ∃ n, cut (cs ++ rest) = (n, rest) ∧ n.lexeme = cs ∧ n.isValue ∧ n.kind = kind := by
  obtain ⟨n, hformed, hvalue, rfl, rfl⟩ := exists_of_number h
  exact ⟨n, hformed.cut_eq hends, rfl, hvalue, rfl⟩

/-- All exponents are cut off. -/
theorem cutExponents_spec {cs : List Char} (h : NoDigit cs) :
    (∀ e ∈ (cutExponents cs).1, Exponent e) ∧ NoDigit (cutExponents cs).2 ∧
      cutExponent? (cutExponents cs).2 = none := by
  fun_induction cutExponents cs with
  | case1 cs hnone => exact ⟨by simp, h, hnone⟩
  | case2 cs e rest hsome ih =>
    obtain ⟨he, hdigit⟩ := exponent_of_cutExponent? hsome
    obtain ⟨hes, hrest⟩ := ih hdigit
    exact ⟨by simpa using ⟨he, hes⟩, hrest⟩

/-- What is cut off at a digit is a numeral, and it does not go on. -/
theorem wellFormed_of_cut {c : Char} {cs rest : List Char} {n : Numeral} (hc : c.isDigit)
    (h : cut (c :: cs) = (n, rest)) : n.WellFormed ∧ NumberEnds n.kind rest := by
  have hwhole := digits_takeWhile hc cs
  have hafter := noDigit_dropWhile (c :: cs)
  simp only [cut] at h
  generalize (c :: cs).takeWhile Char.isDigit = whole at h hwhole
  generalize (c :: cs).dropWhile Char.isDigit = afterWhole at h hafter
  have hpoint : ((cutFraction afterWhole).1 = [] ∧
        ∀ f more, (cutFraction afterWhole).2 = f ++ more → ¬ Fraction f) ∨
      Fraction (cutFraction afterWhole).1 := by
    rcases cutFraction_cases afterWhole with ⟨hsome, -⟩ | ⟨hcut, hnone⟩
    · exact .inr hsome
    · rw [hcut]
      exact .inl ⟨rfl, hnone⟩
  have hdigit : NoDigit (cutFraction afterWhole).2 := by
    rcases cutFraction_cases afterWhole with ⟨-, hrest⟩ | ⟨hcut, -⟩
    · exact hrest
    · rw [hcut]
      exact hafter
  generalize (cutFraction afterWhole).1 = fraction at h hpoint
  generalize (cutFraction afterWhole).2 = afterFraction at h hpoint hdigit
  obtain ⟨hexponents, hrest, hnone⟩ := cutExponents_spec hdigit
  have happend := cutExponents_append afterFraction
  generalize cutExponents afterFraction = exponents at h hexponents hrest hnone happend
  obtain ⟨exponents, rest⟩ := exponents
  cases h
  refine ⟨⟨hwhole, hpoint.imp (·.1) id, hexponents⟩, hrest, cutExponent?_eq_none_iff.1 hnone,
    fun hinteger => ?_⟩
  -- without fraction and exponents the numeral ends where its fraction was looked for
  obtain ⟨rfl, rfl⟩ : fraction = [] ∧ exponents = [] := kind_eq_integer_iff.1 hinteger
  rcases hpoint with ⟨-, hno⟩ | hsome
  · simpa [← happend] using hno
  · cases hsome

/-- What is cut off as a number is one, and it does not go on. -/
theorem number_of_cut {c : Char} {cs rest : List Char} {n : Numeral} (hc : c.isDigit)
    (h : cut (c :: cs) = (n, rest)) (hvalue : n.isValue) :
    Number n.lexeme n.kind ∧ NumberEnds n.kind rest := by
  obtain ⟨hformed, hends⟩ := wellFormed_of_cut hc h
  exact ⟨hformed.number hvalue, hends⟩

end Numeral

/-! ## String literals and comments -/

/-- What is read as a literal is one, up to its closing quote. -/
theorem Literal.cut?_eq_some_iff {cs : List Char} {l : Literal} :
    Literal.cut? cs = some l ↔ ∃ written, Quoted written l.content ∧
      l.source = written ++ ['"'] ∧ cs = written ++ '"' :: l.rest := by
  constructor
  · intro h
    fun_induction Literal.cut? cs generalizing l with
    | case1 => cases h
    | case2 => cases h
    | case3 cs =>
      cases h
      exact ⟨[], .nil, rfl, rfl⟩
    | case4 c cs ih =>
      obtain ⟨m, hm, rfl⟩ := Option.map_eq_some_iff.1 h
      obtain ⟨written, hquoted, hsource, rfl⟩ := ih hm
      exact ⟨'\\' :: c :: written, .escaped c hquoted, by simp [prepend, hsource], rfl⟩
    | case5 => cases h
    | case6 c cs hslash hquote hback hline ih =>
      obtain ⟨m, hm, rfl⟩ := Option.map_eq_some_iff.1 h
      obtain ⟨written, hquoted, hsource, rfl⟩ := ih hm
      refine ⟨c :: written, .plain hquote ?_ hline hquoted, by simp [prepend, hsource], rfl⟩
      rintro rfl
      obtain ⟨x, xs, hmore⟩ : ∃ x xs, written ++ '"' :: m.rest = x :: xs :=
        List.exists_cons_of_ne_nil (by simp)
      exact hback x xs rfl hmore
  · rintro ⟨written, hquoted, hsource, rfl⟩
    obtain ⟨source, content, rest⟩ := l
    simp only at hquoted hsource
    subst hsource
    induction hquoted with
    | nil => rfl
    | plain hquote hback hline hquoted ih =>
      rw [List.cons_append, Literal.cut?, ih]
      · rfl
      · exact fun h => absurd h hback
      · exact hquote
      · exact fun _ _ h => absurd h hback
      · exact hline
    | escaped c hquoted ih => simp [Literal.cut?, ih, prepend]

namespace Piece

theorem closesOnce_cons {c : Char} {cs : List Char} (h : ClosesOnce cs) (rest : List Char)
    (hopen : ∀ more, c = '*' → cs ++ rest ≠ '/' :: more) : ClosesOnce (c :: cs) := by
  obtain ⟨body, hbody⟩ := h.closes
  refine ⟨⟨c :: body, by rw [hbody]; rfl⟩, fun before after heq => ?_⟩
  cases before with
  | nil =>
    obtain ⟨rfl, rfl⟩ := List.cons_eq_cons.1 heq
    exact absurd rfl (hopen (after ++ rest) rfl)
  | cons b before => exact h.once before after (List.cons_eq_cons.1 heq).2

/-- A block comment ends with the first closing mark; without one it takes all. -/
theorem cutBlockComment_spec (cs : List Char) :
    ClosesOnce (cutBlockComment cs).1 ∨ NeverCloses cs ∧ cutBlockComment cs = (cs, []) := by
  fun_induction cutBlockComment cs with
  | case1 => exact .inr ⟨by simp [NeverCloses], rfl⟩
  | case2 cs =>
    refine .inl ⟨⟨[], rfl⟩, fun before after heq => ?_⟩
    have hlength := congrArg List.length heq
    simp at hlength
    exact List.eq_nil_of_length_eq_zero (by omega)
  | case3 c cs hopen ih =>
    rcases ih with hcloses | ⟨hnever, hcut⟩
    · refine .inl (closesOnce_cons hcloses (cutBlockComment cs).2 fun more hc heq => ?_)
      rw [cutBlockComment_append] at heq
      exact hopen more hc heq
    · refine .inr ⟨fun before after heq => ?_, by rw [hcut]⟩
      cases before with
      | nil =>
        obtain ⟨hc, hcs⟩ := List.cons_eq_cons.1 heq
        exact hopen after hc hcs
      | cons b before => exact hnever before after (List.cons_eq_cons.1 heq).2

theorem cutBlockComment_of_closesOnce {body rest : List Char} (h : ClosesOnce body) :
    cutBlockComment (body ++ rest) = (body, rest) := by
  induction body with
  | nil =>
    obtain ⟨body, hbody⟩ := h.closes
    simp at hbody
  | cons c body ih =>
    by_cases hfirst : c = '*' ∧ ∃ more, body = '/' :: more
    · obtain ⟨rfl, more, rfl⟩ := hfirst
      have hmore : more = [] := h.once [] more rfl
      subst hmore
      rfl
    · have hbody : ClosesOnce body := by
        obtain ⟨front, hfront⟩ := h.closes
        refine ⟨?_, fun before after heq => h.once (c :: before) after (by rw [heq]; rfl)⟩
        cases front with
        | nil =>
          obtain ⟨rfl, rfl⟩ := List.cons_eq_cons.1 hfront
          exact absurd ⟨rfl, [], rfl⟩ hfirst
        | cons b front => exact ⟨front, (List.cons_eq_cons.1 hfront).2⟩
      have hne : body ≠ [] := by
        obtain ⟨front, rfl⟩ := hbody.closes
        simp
      obtain ⟨d, more, rfl⟩ := List.exists_cons_of_ne_nil hne
      rw [List.cons_append, cutBlockComment, ih hbody]
      intro after hc heq
      obtain ⟨rfl, -⟩ := List.cons_eq_cons.1 heq
      exact hfirst ⟨hc, more, rfl⟩

theorem cutBlockComment_of_neverCloses {body : List Char} (h : NeverCloses body) :
    cutBlockComment body = (body, []) := by
  rcases cutBlockComment_spec body with hcloses | ⟨-, hcut⟩
  · obtain ⟨front, hfront⟩ := hcloses.closes
    have happend := cutBlockComment_append body
    rw [hfront, List.append_assoc] at happend
    exact absurd happend.symm (h front _)
  · exact hcut

theorem cutLiteral_eq_ok_iff {cs rest : List Char} {p : Piece} :
    cutLiteral cs = .ok (p, rest) ↔ ∃ written content, Quoted written content ∧
      p = .lexeme ('"' :: written ++ ['"']) .string content ∧ cs = written ++ '"' :: rest := by
  unfold cutLiteral
  constructor
  · intro h
    split at h
    · rename_i l hl
      obtain ⟨written, hquoted, hsource, rfl⟩ := Literal.cut?_eq_some_iff.1 hl
      cases h
      exact ⟨written, l.content, hquoted, by rw [hsource]; rfl, rfl⟩
    · cases h
  · rintro ⟨written, content, hquoted, rfl, rfl⟩
    have hcut : Literal.cut? (written ++ '"' :: rest) = some ⟨written ++ ['"'], content, rest⟩ :=
      Literal.cut?_eq_some_iff.2 ⟨written, hquoted, rfl, rfl⟩
    simp [hcut]

theorem cutNumber_stands {c : Char} {cs rest : List Char} {p : Piece} (hc : c.isDigit)
    (h : cutNumber (c :: cs) = .ok (p, rest)) : Stands p rest := by
  unfold cutNumber at h
  split at h
  rename_i n more hn
  split at h
  · rename_i hvalue
    cases h
    obtain ⟨hnumber, hends⟩ := Numeral.number_of_cut hc hn hvalue
    exact .number hnumber hends
  · cases h

theorem cutNumber_of_number {cs rest : List Char} {kind : TokenKind} (h : Number cs kind)
    (hends : NumberEnds kind rest) :
    cutNumber (cs ++ rest) = .ok (.lexeme cs kind cs, rest) := by
  obtain ⟨n, hcut, rfl, hvalue, rfl⟩ := Numeral.cut_of_number h hends
  rw [cutNumber, hcut]
  simp only [hvalue, if_true]
  rfl

/-- What is cut off stands there. -/
theorem stands_of_cut {c : Char} {cs rest : List Char} {p : Piece}
    (h : cut c cs = .ok (p, rest)) : Stands p rest := by
  unfold cut at h
  split at h
  · cases h
    exact .carriageReturn _
  · cases h
    refine .lineComment (fun hmem => ?_) (fun c hc => ?_)
    · simpa [inLine] using List.mem_takeWhile_imp hmem
    · simpa [inLine] using head?_dropWhile_eq_false inLine _ c hc
  · rename_i cs
    cases h
    rcases cutBlockComment_spec cs with hcloses | ⟨hnever, hcut⟩
    · exact .blockComment _ hcloses
    · rw [hcut]
      exact .openComment hnever
  · cases h
    exact .blank _
  · cases h
    exact .tab _
  · cases h
    exact .newline _
  · obtain ⟨written, content, hquoted, rfl, rfl⟩ := cutLiteral_eq_ok_iff.1 h
    exact .literal _ hquoted
  · rename_i hline hblock
    split at h
    · rename_i hdigit
      exact cutNumber_stands hdigit h
    · split at h
      · rename_i hstarts
        cases h
        exact .name hstarts (fun x hx => List.mem_takeWhile_imp hx) (head?_dropWhile_eq_false _ _)
      · unfold cutSymbol at h
        split at h
        · rename_i s hs
          cases h
          have hchar := Symbol.char_of_ofChar? hs
          subst hchar
          refine .symbol ?_
          rintro rfl x hx
          obtain ⟨more, rfl⟩ := List.head?_eq_some_iff.1 hx
          constructor
          · rintro rfl
            exact hline more rfl rfl
          · rintro rfl
            exact hblock more rfl rfl
        · cases h

theorem not_isDigit_of_startsName {c : Char} (h : startsName c) : c.isDigit = false := by
  simp only [startsName, Bool.or_eq_true, beq_iff_eq] at h
  rcases h with h | rfl
  · have hletter : (decide (0x41 ≤ c.toNat ∧ c.toNat ≤ 0x5A) ||
        (decide (0x61 ≤ c.toNat) && decide (c.toNat ≤ 0x7A))) = true := h
    have hdigit : c.isDigit = (decide (0x30 ≤ c.toNat) && decide (c.toNat ≤ 0x39)) := rfl
    simp only [Bool.or_eq_true, Bool.and_eq_true, decide_eq_true_eq] at hletter
    simp only [hdigit, Bool.and_eq_false_iff, decide_eq_false_iff_not]
    omega
  · rfl

/-- The characters that make a piece of their own, or open one. -/
def special : List Char := ['\r', ' ', '\t', '\n', '"']

theorem cut_of_not_special {c : Char} {cs : List Char} (hspecial : c ∉ special)
    (hcomment : c = '/' → ∀ x ∈ cs.head?, x ≠ '/' ∧ x ≠ '*') :
    cut c cs = if c.isDigit then cutNumber (c :: cs)
      else if startsName c then .ok (cutName c cs)
      else cutSymbol c cs := by
  simp only [special, List.mem_cons, List.not_mem_nil, or_false, not_or] at hspecial
  obtain ⟨hreturn, hblank, htab, hnewline, hquote⟩ := hspecial
  unfold cut
  split
  · exact absurd rfl hreturn
  · exact absurd rfl (hcomment rfl '/' rfl).1
  · exact absurd rfl (hcomment rfl '*' rfl).2
  · exact absurd rfl hblank
  · exact absurd rfl htab
  · exact absurd rfl hnewline
  · exact absurd rfl hquote
  · rfl

theorem cut_of_isDigit {c : Char} (h : c.isDigit) (cs : List Char) :
    cut c cs = cutNumber (c :: cs) := by
  have hspecial : c ∉ special := by
    intro hmem
    revert h
    simp only [special, List.mem_cons, List.not_mem_nil, or_false] at hmem
    rcases hmem with rfl | rfl | rfl | rfl | rfl <;> decide
  rw [cut_of_not_special hspecial]
  · simp [h]
  · rintro rfl
    exact absurd h (by decide)

/-- What stands in front is cut off. -/
theorem cut_of_stands {c : Char} {cs rest : List Char} {p : Piece} (h : Stands p rest)
    (hsource : p.source ++ rest = c :: cs) : cut c cs = .ok (p, rest) := by
  cases h with
  | carriageReturn => cases hsource; rfl
  | lineComment hbody hrest =>
    cases hsource
    rename_i body
    have hin : ∀ c ∈ body, inLine c := by
      rintro c hc
      have hne : c ≠ '\n' := by
        rintro rfl
        exact hbody hc
      simpa [inLine] using hne
    have hout : ∀ c ∈ rest.head?, inLine c = false := fun c hc => by simp [inLine, hrest c hc]
    obtain ⟨htake, hdrop⟩ := takeWhile_append_of_head hin hout
    simp [cut, htake, hdrop]
  | blockComment _ hbody =>
    cases hsource
    simp [cut, cutBlockComment_of_closesOnce hbody]
  | openComment hbody =>
    cases hsource
    simp [cut, cutBlockComment_of_neverCloses hbody]
  | blank => cases hsource; rfl
  | tab => cases hsource; rfl
  | newline => cases hsource; rfl
  | symbol hslash =>
    rename_i s
    obtain ⟨rfl, rfl⟩ : s.char = c ∧ rest = cs := by simpa [source, single] using hsource
    have hspecial : s.char ∉ special := by cases s <;> decide
    have hdigit : s.char.isDigit = false := by cases s <;> rfl
    have hstarts : startsName s.char = false := by cases s <;> rfl
    have hcomment : s.char = '/' → s = .slash := by
      intro hchar
      have hs := Symbol.ofChar?_char s
      rw [hchar] at hs
      exact (Option.some.inj hs).symm
    rw [cut_of_not_special hspecial fun hchar => hslash (hcomment hchar)]
    simp [hdigit, hstarts, cutSymbol, Symbol.ofChar?_char]
  | name hstarts hcontinues hrest =>
    cases hsource
    obtain ⟨htake, hdrop⟩ := takeWhile_append_of_head hcontinues hrest
    have hspecial : c ∉ special := by
      intro hmem
      revert hstarts
      simp only [special, List.mem_cons, List.not_mem_nil, or_false] at hmem
      rcases hmem with rfl | rfl | rfl | rfl | rfl <;> decide
    rw [cut_of_not_special hspecial]
    · simp [not_isDigit_of_startsName hstarts, hstarts, cutName, htake, hdrop]
    · rintro rfl
      exact absurd hstarts (by decide)
  | number hnumber hends =>
    rename_i written kind
    have hcut := cutNumber_of_number hnumber hends
    have hdigit : c.isDigit := by
      obtain @⟨whole, _, _, hwhole, -, -⟩ := hnumber
      obtain ⟨d, ds, rfl, hd, -⟩ := hwhole.exists_cons
      cases hsource
      exact hd
    rw [show written ++ rest = c :: cs from hsource] at hcut
    rw [cut_of_isDigit hdigit, hcut]
  | literal _ hquoted =>
    rename_i written content
    have hcs : '"' = c ∧ written ++ '"' :: rest = cs := by simpa [source] using hsource
    obtain ⟨rfl, hcs⟩ := hcs
    exact cutLiteral_eq_ok_iff.2 ⟨written, content, hquoted, rfl, hcs.symm⟩

/-- **A text has one piece at its front at most, and it is the one that is cut off.** -/
theorem cut_eq_ok_iff {c : Char} {cs rest : List Char} {p : Piece} :
    cut c cs = .ok (p, rest) ↔ p.source ++ rest = c :: cs ∧ Stands p rest :=
  ⟨fun h => ⟨source_append_rest h, stands_of_cut h⟩, fun ⟨hsource, h⟩ => cut_of_stands h hsource⟩

end Piece

end MaterialScript
