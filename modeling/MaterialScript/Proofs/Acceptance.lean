/-
What parsers do on words they accept.

`Takes m P ws p Q vs` is a triple for a parser that succeeds: with the words
`ws` ahead and a scene in `P` it answers, the words `vs` are left, and answer
and scene are in `Q`. There is a rule for each combinator, four for the rounds
of the loop over tokens, and from these one lemma for each reader of a value.
-/
import MaterialScript.Proofs.Layout

namespace MaterialScript

@[simp] theorem Token.word_eq_iff {t : Token} {kind : TokenKind} {text : String} :
    t.word = (kind, text) ↔ t.kind = kind ∧ t.text = text := by
  simp [Token.word]

/-- Tokens of this kind are not skipped as whitespace. -/
def TokenKind.seen (m : Bool) (kind : TokenKind) : Bool := !Cursor.skipsWhen m (.bare kind .start)

theorem Cursor.skipsWhen_eq (m : Bool) (t : Token) : skipsWhen m t = !t.kind.seen m := by
  simp [TokenKind.seen, skipsWhen, Token.bare]

namespace Parser

variable {ρ α β : Type}

/-- The words ahead of a state. -/
def State.ahead (s : State ρ) : List Word := s.cursor.rest.map Token.word

/-- Where line breaks count as `m` says, the words `ws` lie ahead and the scene is in `P`, the
parser succeeds, the words `vs` are left, and its answer and the scene are in `Q`. -/
def Takes (m : Bool) (P : ρ → Prop) (ws : List Word) (p : Parser ρ α) (Q : α → ρ → Prop)
    (vs : List Word) : Prop :=
  ∀ ⦃s : State ρ⦄, s.cursor.lineBreaksCount = m → s.ahead = ws → P s.scene →
    ∃ a u, p.run s = (.ok a, u) ∧ u.ahead = vs ∧ Q a u.scene

/-! ## Steps -/

section Steps

variable {s : State ρ} {m : Bool} {w : Word} {ws : List Word}

theorem exists_of_ahead (h : s.ahead = w :: ws) :
    ∃ t rest, s.cursor.rest = t :: rest ∧ t.word = w ∧ rest.map Token.word = ws :=
  List.map_eq_cons_iff.1 h

theorem ahead_of_passes {t : Token} {rest : List Token} {u : State ρ}
    (hrest : s.cursor.rest = t :: rest) (h : s.cursor.Passes [t] u.cursor)
    (hws : rest.map Token.word = ws) : u.ahead = ws := by
  rw [State.ahead, h.rest_eq hrest, hws]

/-- A step that skips whitespace leads to the first word if it can be seen. -/
theorem advance_of_ahead (hm : s.cursor.lineBreaksCount = m) (hseen : w.1.seen m)
    (h : s.ahead = w :: ws) :
    (s.advance true).cursor.current.word = w ∧ (s.advance true).ahead = ws := by
  obtain ⟨t, rest, hrest, rfl, hws⟩ := exists_of_ahead h
  have hskip : s.cursor.skips t = false := by
    rw [Cursor.skips, hm, Cursor.skipsWhen_eq, show t.kind.seen m = true from hseen]
    rfl
  obtain ⟨hcurrent, hpasses⟩ := advance_of_rest hrest hskip
  exact ⟨by rw [hcurrent], ahead_of_passes hrest hpasses hws⟩

theorem not_atEnd_of_ahead (hm : s.cursor.lineBreaksCount = m) (hseen : w.1.seen m)
    (heof : w.1 ≠ .endOfFile) (h : s.ahead = w :: ws) : ¬ s.AtEnd := by
  obtain ⟨hword, -⟩ := advance_of_ahead hm hseen h
  obtain ⟨t, rest, hrest, -, -⟩ := exists_of_ahead h
  rw [State.AtEnd, not_or, hrest, Token.isEndOfFile, show (s.advance true).cursor.current.kind = w.1
    from congrArg Prod.fst hword]
  exact ⟨List.cons_ne_nil _ _, by simpa using heof⟩

end Steps

/-! ## Rules -/

namespace Takes

variable {m : Bool} {P : ρ → Prop} {w : Word} {ws vs us : List Word}

section Combinators

variable {p : Parser ρ α} {f : α → Parser ρ β} {Q : α → ρ → Prop} {R : β → ρ → Prop}

theorem pure {a : α} (h : ∀ r, P r → Q a r) : Takes m P ws (Pure.pure a : Parser ρ α) Q ws :=
  fun s _ hws hP => ⟨a, s, rfl, hws, h _ hP⟩

theorem bind (hp : Takes m P ws p Q vs) (hf : ∀ a, Takes m (Q a) vs (f a) R us) :
    Takes m P ws (p >>= f) R us := by
  intro s hm hws hP
  obtain ⟨a, t, hrun, hvs, hQ⟩ := hp hm hws hP
  have ht := (onward_of_run hrun).lineBreaks.trans hm
  obtain ⟨b, u, hrun', hus, hR⟩ := hf a ht hvs hQ
  exact ⟨b, u, by rw [run_bind, hrun]; exact hrun', hus, hR⟩

theorem mono {P' : ρ → Prop} {Q' : α → ρ → Prop} (h : Takes m P ws p Q vs)
    (hP : ∀ r, P' r → P r) (hQ : ∀ a r, Q a r → Q' a r) : Takes m P' ws p Q' vs := by
  intro s hm hws hP'
  obtain ⟨a, u, hrun, hvs, hQu⟩ := h hm hws (hP _ hP')
  exact ⟨a, u, hrun, hvs, hQ _ _ hQu⟩

/-- What is known of the answer besides the scene may be used for what comes next. -/
theorem bind_fact {φ : α → Prop} {I : ρ → Prop}
    (hp : Takes m P ws p (fun a r => φ a ∧ I r) vs) (hf : ∀ a, φ a → Takes m I vs (f a) R us) :
    Takes m P ws (p >>= f) R us :=
  hp.bind fun a _ hm hws hP => hf a hP.1 hm hws hP.2

theorem of_fact {φ : Prop} (h : φ → Takes m P ws p Q vs) :
    Takes m (fun r => φ ∧ P r) ws p Q vs :=
  fun _ hm hws hP => h hP.1 hm hws hP.2

theorem map {g : α → β} {φ : α → Prop} {ψ : β → Prop}
    (hp : Takes m P ws p (fun a r => φ a ∧ P r) vs) (h : ∀ a, φ a → ψ (g a)) :
    Takes m P ws (p >>= fun a => Pure.pure (g a)) (fun b r => ψ b ∧ P r) vs :=
  hp.bind_fact fun a ha => .pure fun _ hP => ⟨h a ha, hP⟩

theorem build {f : ρ → α × ρ} (h : ∀ r, P r → Q (f r).1 (f r).2) :
    Takes m P ws (build f) Q ws :=
  fun _ _ hws hP => ⟨_, _, rfl, hws, h _ hP⟩

theorem modify {f : ρ → ρ} {I : ρ → Prop} (h : ∀ r, P r → I (f r)) :
    Takes m P ws (modify f) (fun _ => I) ws :=
  .build h

theorem inspect (f : ρ → α) : Takes m P ws (inspect f) (fun a r => a = f r ∧ P r) ws :=
  .build fun _ hP => ⟨rfl, hP⟩

theorem note (notices : Journal) : Takes m P ws (note notices : Parser ρ Unit) (fun _ => P) ws :=
  fun _ _ hws hP => ⟨(), _, rfl, hws, hP⟩

theorem noteIf (b : Bool) (notices : Journal) :
    Takes m P ws (noteIf b notices : Parser ρ Unit) (fun _ => P) ws := by
  cases b with
  | false => exact fun s _ hws hP => ⟨(), s, rfl, hws, hP⟩
  | true => exact .note notices

theorem consult (f : Variables → α) : Takes m P ws (consult f : Parser ρ α) (fun _ => P) ws :=
  fun s _ hws hP => ⟨_, s, rfl, hws, hP⟩

theorem setVariable (name : String) (value : Value) :
    Takes m P ws (setVariable name value : Parser ρ Unit) (fun _ => P) ws :=
  fun _ _ hws hP => ⟨(), _, rfl, hws, hP⟩

theorem current : Takes m P ws (current : Parser ρ Token) (fun _ => P) ws :=
  fun s _ hws hP => ⟨_, s, rfl, hws, hP⟩

theorem withLineBreaks (h : Takes true P ws p Q vs) : Takes m P ws (withLineBreaks p) Q vs := by
  intro s hm hws hP
  obtain ⟨a, u, hrun, hvs, hQ⟩ := h (s := s.setLineBreaks true) rfl hws hP
  refine ⟨a, u.setLineBreaks s.cursor.lineBreaksCount, ?_, hvs, hQ⟩
  simp [Parser.withLineBreaks, hrun]

end Combinators

/-! ## Tokens -/

section Tokens

theorem take (hseen : w.1.seen m) :
    Takes m P (w :: ws) (take true : Parser ρ Token) (fun t r => t.word = w ∧ P r) ws := by
  intro s hm hws hP
  obtain ⟨hword, hahead⟩ := advance_of_ahead hm hseen hws
  exact ⟨_, _, rfl, hahead, hword, hP⟩

theorem peek (hseen : w.1.seen m) :
    Takes m P (w :: ws) (peek : Parser ρ Token) (fun t r => t.word = w ∧ P r) (w :: ws) := by
  intro s hm hws hP
  exact ⟨_, s, rfl, hws, (advance_of_ahead hm hseen hws).1, hP⟩

/-- The next token, wherever the cursor stands. -/
theorem takeFalse :
    Takes m P (w :: ws) (Parser.take false : Parser ρ Token) (fun t r => t.word = w ∧ P r) ws := by
  intro s hm hws hP
  obtain ⟨t, rest, hrest, rfl, hmore⟩ := exists_of_ahead hws
  have hpasses := passes_advance_false hrest
  refine ⟨_, _, rfl, ahead_of_passes hrest hpasses hmore, ?_, hP⟩
  simp [Cursor.current, hpasses.passed]

theorem unlessEnd {t : Token} (ht : t.word = w) (heof : w.1 ≠ .endOfFile) :
    Takes m P ws (unlessEnd t : Parser ρ Token) (fun u r => u.word = w ∧ P r) ws := by
  have hend : t.isEndOfFile = false := by
    rw [Token.isEndOfFile, show t.kind = w.1 from congrArg Prod.fst ht]
    simpa using heof
  rw [Parser.unlessEnd, hend]
  exact .pure fun _ hP => ⟨ht, hP⟩

theorem next (hseen : w.1.seen m) (heof : w.1 ≠ .endOfFile) :
    Takes m P (w :: ws) (next : Parser ρ Token) (fun t r => t.word = w ∧ P r) ws :=
  (Takes.take hseen).bind_fact fun _ ht => .unlessEnd ht heof

theorem expect (symbol : Symbol) :
    Takes m P ((.symbol symbol, "") :: ws) (expect symbol : Parser ρ Unit) (fun _ => P) ws := by
  refine (Takes.next rfl (by simp)).bind_fact fun t ht => ?_
  rw [Token.word_eq_iff] at ht
  rw [if_pos (by simp [Token.isSymbol, ht.1])]
  exact .pure fun _ hP => hP

theorem accept (symbol : Symbol) :
    Takes m P ((.symbol symbol, "") :: ws) (accept symbol : Parser ρ Bool)
      (fun b r => b = true ∧ P r) ws := by
  refine (Takes.peek rfl).bind_fact fun t ht => ?_
  rw [Token.word_eq_iff] at ht
  rw [if_pos (by simp [Token.isSymbol, ht.1])]
  exact (Takes.take rfl).bind_fact fun _ _ => .pure fun _ hP => ⟨rfl, hP⟩

theorem accept_absent {symbol : Symbol} (hseen : w.1.seen m) (hother : w.1 ≠ .symbol symbol) :
    Takes m P (w :: ws) (Parser.accept symbol : Parser ρ Bool) (fun b r => b = false ∧ P r)
      (w :: ws) := by
  refine (Takes.peek hseen).bind_fact fun t ht => ?_
  have hkind : t.kind = w.1 := congrArg Prod.fst ht
  rw [if_neg (by simp [Token.isSymbol, hkind, hother])]
  exact .pure fun _ hP => ⟨rfl, hP⟩

theorem variableName {name : String} :
    Takes m P ((.name, name) :: ws) (variableName : Parser ρ String) (fun x r => x = name ∧ P r)
      ws := by
  refine Takes.takeFalse.bind_fact fun t ht => ?_
  refine (Takes.unlessEnd ht (by simp)).bind_fact fun u hu => ?_
  rw [Token.word_eq_iff] at hu
  rw [if_pos hu.1, hu.2]
  exact .pure fun _ hP => ⟨rfl, hP⟩

theorem declaredName {name : String} (hname : name ≠ "") :
    Takes m P ((.string, name) :: ws) (declaredName : Parser ρ Token)
      (fun t r => t.text = name ∧ P r) ws := by
  refine (Takes.next rfl (by simp)).bind_fact fun t ht => ?_
  rw [Token.word_eq_iff] at ht
  rw [if_pos ⟨ht.1, by rwa [ht.2]⟩]
  exact .pure fun _ hP => ⟨ht.2, hP⟩

end Tokens

/-! ## Loops -/

section Loops

variable {body : α → Token → Parser ρ (Progress α β)} {finish : α → Token → Parser ρ β} {a : α}
  {R : β → ρ → Prop}

theorem round_more {Q : α → ρ → Prop} (hseen : w.1.seen m) (heof : w.1 ≠ .endOfFile)
    (hbody : ∀ t, t.word = w →
      Takes m P ws (body a t) (fun x r => ∃ a', x = .more a' ∧ Q a' r) vs)
    (hmore : ∀ a', Takes m (Q a') vs (overTokens body finish a') R us) :
    Takes m P (w :: ws) (overTokens body finish a) R us := by
  intro s hm hws hP
  obtain ⟨hword, hahead⟩ := advance_of_ahead hm hseen hws
  obtain ⟨_, t, hrun, hvs, a', rfl, hQ⟩ :=
    hbody _ hword (s := s.advance true) hm hahead hP
  have ht := ((s.advance_onward true).trans (onward_of_run hrun)).lineBreaks.trans hm
  obtain ⟨b, u, hrun', hus, hR⟩ := hmore a' ht hvs hQ
  refine ⟨b, u, ?_, hus, hR⟩
  show runOverTokens body finish a s = _
  rw [runOverTokens_more (not_atEnd_of_ahead hm hseen heof hws) hrun]
  exact hrun'

theorem round_done (hseen : w.1.seen m) (heof : w.1 ≠ .endOfFile)
    (hbody : ∀ t, t.word = w →
      Takes m P ws (body a t) (fun x r => ∃ b, x = .done b ∧ R b r) vs) :
    Takes m P (w :: ws) (overTokens body finish a) R vs := by
  intro s hm hws hP
  obtain ⟨hword, hahead⟩ := advance_of_ahead hm hseen hws
  obtain ⟨_, t, hrun, hvs, b, rfl, hR⟩ :=
    hbody _ hword (s := s.advance true) hm hahead hP
  exact ⟨b, t, runOverTokens_done (not_atEnd_of_ahead hm hseen heof hws) hrun, hvs, hR⟩

theorem round_skip (hskip : w.1.seen m = false) (hws : ws ≠ [])
    (h : Takes m P ws (overTokens body finish a) R us) :
    Takes m P (w :: ws) (overTokens body finish a) R us := by
  intro s hm hahead hP
  obtain ⟨t, rest, hrest, rfl, hrestWords⟩ := exists_of_ahead hahead
  have hskips : s.cursor.skips t := by
    rw [Cursor.skips, hm, Cursor.skipsWhen_eq, show t.kind.seen m = false from hskip]
    rfl
  have hmore : rest ≠ [] := by
    rintro rfl
    exact hws hrestWords.symm
  obtain ⟨b, u, hrun, hus, hR⟩ :=
    h (s := s.advance false) hm (ahead_of_passes hrest (passes_advance_false hrest) hrestWords) hP
  exact ⟨b, u, (runOverTokens_skip hrest hmore hskips).trans hrun, hus, hR⟩

theorem round_end
    (hfinish : ∀ t : Token, t.kind = .endOfFile → Takes m P [] (finish a t) R us) :
    Takes m P [(.endOfFile, "")] (overTokens body finish a) R us := by
  intro s hm hws hP
  obtain ⟨hword, hahead⟩ := advance_of_ahead hm rfl hws
  rw [Token.word_eq_iff] at hword
  have hend : s.AtEnd := .inr (by simp [Token.isEndOfFile, hword.1])
  obtain ⟨b, u, hrun, hus, hR⟩ :=
    hfinish _ hword.1 (s := s.advance true) hm hahead hP
  exact ⟨b, u, (runOverTokens_atEnd hend).trans hrun, hus, hR⟩

end Loops

end Takes

end Parser

/-! ## Numbers -/

namespace Decimal

theorem splitSign_of_digits {cs : List Char} (h : Digits cs) (rest : List Char) :
    splitSign (cs ++ rest) = (false, cs ++ rest) := by
  obtain ⟨d, ds, rfl, hd, -⟩ := h.exists_cons
  rw [List.cons_append]
  unfold splitSign
  split
  · rename_i heq
    obtain ⟨rfl, -⟩ := List.cons_eq_cons.1 heq
    cases hd
  · rename_i heq
    obtain ⟨rfl, -⟩ := List.cons_eq_cons.1 heq
    cases hd
  · rfl

theorem splitSign_of_sign {c : Char} (h : c = '+' ∨ c = '-') (cs : List Char) :
    (splitSign (c :: cs)).2 = cs := by
  rcases h with rfl | rfl <;> rfl

theorem isSome_readExponent? {e : List Char} (h : e = [] ∨ Exponent e) :
    (readExponent? e).isSome := by
  have hread : ∀ {mark : Char} {cs part : List Char}, mark = 'e' ∨ mark = 'E' → Digits part →
      (splitSign cs).2 = part → (readExponent? (mark :: cs)).isSome := by
    rintro mark cs _ hmark hpart rfl
    have hany : (splitSign cs).2.any (!·.isDigit) = false := by simpa using hpart.digits
    have hempty : (splitSign cs).2.isEmpty = false := by simpa using hpart.ne_nil
    simp [readExponent?, hmark, hany, hempty]
  rcases h with rfl | h
  · rfl
  cases h with
  | plain hmark hpart =>
    have hsplit := splitSign_of_digits hpart []
    rw [List.append_nil] at hsplit
    exact hread hmark hpart (by rw [hsplit])
  | signed hmark hsign hpart => exact hread hmark hpart (splitSign_of_sign hsign _)

/-- A fraction is split off where it ends. -/
theorem splitFraction_append {f rest : List Char} (hf : f = [] ∨ Fraction f)
    (hdigit : NoDigit rest) (hpoint : ∀ c ∈ rest.head?, c ≠ '.') :
    ∃ part, splitFraction (f ++ rest) = (part, rest) := by
  rcases hf with rfl | hf
  · refine ⟨[], ?_⟩
    rw [List.nil_append]
    unfold splitFraction
    split
    · exact absurd rfl (hpoint '.' rfl)
    · rfl
  · cases hf with
    | point hpart =>
      obtain ⟨htake, hdrop⟩ := takeWhile_append_of_head hpart.digits hdigit
      exact ⟨_, by rw [List.cons_append, splitFraction, htake, hdrop]⟩

theorem toLower_of_isDigit {c : Char} (h : c.isDigit) : c.toLower = c := by
  have hdigit : c.isDigit = (decide (0x30 ≤ c.val) && decide (c.val ≤ 0x39)) := rfl
  simp only [hdigit, Bool.and_eq_true, decide_eq_true_eq] at h
  unfold Char.toLower
  split
  · rename_i hupper
    exact absurd (UInt32.le_trans hupper.1 h.2) (by decide)
  · rfl

/-- The words for values start with a letter. -/
theorem readWord?_of_digit {c : Char} (h : c.isDigit) (cs : List Char) :
    readWord? (c :: cs) = none := by
  have hne : ∀ {d : Char} {ds : List Char}, d.isDigit = false →
      String.ofList (c :: cs.map Char.toLower) ≠ String.ofList (d :: ds) := by
    intro d ds hd heq
    have hcons := congrArg String.toList heq
    rw [String.toList_ofList, String.toList_ofList] at hcons
    rw [(List.cons_eq_cons.1 hcons).1, hd] at h
    cases h
  unfold readWord?
  rw [List.map_cons, toLower_of_isDigit h]
  split
  · rename_i heq
    exact absurd heq (hne (d := 'i') rfl)
  · rename_i heq
    exact absurd heq (hne (d := 'i') rfl)
  · rename_i heq
    exact absurd heq (hne (d := 'n') rfl)
  · rfl

/-- Behind its digits and its fraction a number only has to go on as an exponent or not at all. -/
theorem isSome_read?_eq {whole f rest : List Char} (hwhole : Digits whole)
    (hf : f = [] ∨ Fraction f) (hdigit : NoDigit rest) (hpoint : ∀ c ∈ rest.head?, c ≠ '.') :
    (read? (.ofList (whole ++ (f ++ rest)))).isSome = (readExponent? rest).isSome := by
  obtain ⟨htake, hdrop⟩ :=
    takeWhile_append_of_head hwhole.digits (Numeral.noDigit_fraction hf hdigit)
  obtain ⟨part, hsplit⟩ := splitFraction_append hf hdigit hpoint
  have hempty : whole.isEmpty = false := by simpa using hwhole.ne_nil
  have hword : readWord? (whole ++ (f ++ rest)) = none := by
    obtain ⟨d, ds, rfl, hd, -⟩ := hwhole.exists_cons
    exact readWord?_of_digit hd _
  rw [read?, String.toList_ofList, splitSign_of_digits hwhole]
  simp [hword, readDigits?, htake, hdrop, hsplit, hempty]

/-- Every number literal denotes a number. -/
theorem isSome_read? {cs : List Char} {kind : TokenKind} (h : Number cs kind) :
    (read? (.ofList cs)).isSome := by
  cases h with
  | @intro whole f e hwhole hf he =>
    have hexponent : NoDigit e ∧ ∀ c ∈ e.head?, c ≠ '.' := by
      rcases he with rfl | he
      · simp [NoDigit]
      · obtain ⟨mark, more, rfl, hmark⟩ := he.exists_cons
        rcases hmark with rfl | rfl <;> simp [NoDigit]
    rw [List.append_assoc, isSome_read?_eq hwhole hf hexponent.1 hexponent.2]
    exact isSome_readExponent? he

end Decimal

namespace Outline

/-- The number a literal denotes. -/
def NumberLiteral.value (n : NumberLiteral) : Float := (Decimal.read? (.ofList n.written)).getD 0

theorem NumberLiteral.read?_eq (n : NumberLiteral) :
    Decimal.read? (.ofList n.written) = some n.value := by
  obtain ⟨v, hv⟩ := Option.isSome_iff_exists.1 (Decimal.isSome_read? n.number)
  rw [value, hv]
  rfl

def SignedLiteral.value (v : SignedLiteral) : Float :=
  if v.negated then -v.literal.value else v.literal.value

end Outline

/-! ## Values -/

namespace Parser

open Outline

variable {ρ α β : Type} {m : Bool} {P : ρ → Prop} {w : Word} {ws rest : List Word}

/-- From the first of the words `ws`, which is not an `=`, the parser reads the others and
answers `a`. -/
def Opens (m : Bool) (ws : List Word) (p : Token → Parser ρ α) (a : α) : Prop :=
  ∃ w tail, ws = w :: tail ∧ w.1.seen m ∧ w.1 ≠ .endOfFile ∧ w.1 ≠ .symbol .equal ∧
    ∀ (P : ρ → Prop) t rest, t.word = w →
      Takes m P (tail ++ rest) (p t) (fun x r => x = a ∧ P r) rest

namespace Takes

theorem optionalEqual (equal : Bool) (hseen : w.1.seen m) (hother : w.1 ≠ .symbol .equal) :
    Takes m P ((equalSign equal).map Piece.word ++ w :: ws) (optionalEqual : Parser ρ Unit)
      (fun _ => P) (w :: ws) := by
  cases equal with
  | false => exact (Takes.accept_absent hseen hother).bind_fact fun _ _ => .pure fun _ hP => hP
  | true => exact (Takes.accept .equal).bind_fact fun _ _ => .pure fun _ hP => hP

end Takes

/-- An `=`, or none, before what is no `=`. -/
theorem Opens.optionalEqual {p : Token → Parser ρ α} {a : α} (h : Opens m ws p a) (equal : Bool) :
    Takes m P ((equalSign equal).map Piece.word ++ ws ++ rest) optionalEqual (fun _ => P)
      (ws ++ rest) := by
  obtain ⟨w, tail, rfl, hseen, -, hother, -⟩ := h
  rw [List.append_assoc, List.cons_append]
  exact .optionalEqual equal hseen hother

/-- A value after an `=` or none. -/
theorem Opens.value {p : Token → Parser ρ α} {a : α} (h : Opens m ws p a) (equal : Bool) :
    Takes m P ((equalSign equal).map Piece.word ++ ws ++ rest)
      (do Parser.optionalEqual; p (← next)) (fun x r => x = a ∧ P r) rest := by
  refine (h.optionalEqual equal).bind fun _ => ?_
  obtain ⟨w, tail, rfl, hseen, heof, -, hp⟩ := h
  exact (Takes.next hseen heof).bind_fact fun t ht => hp P t rest ht

section Separated

variable {ι : Type} {words : ι → List Word} {symbol : Symbol} {term : Token → Parser ρ α}
  {value : ι → α} (hterm : ∀ x, Opens m (words x) term (value x))
include hterm

/-- The loop carries the terms read so far. -/
theorem separatedFrom_takes (hseen : w.1.seen m) (hother : w.1 ≠ .symbol symbol)
    (done : List α) (first : ι) (more : List ι) :
    Takes m P (words first ++ more.flatMap (fun x => (.symbol symbol, "") :: words x) ++ w :: ws)
      (separatedFrom symbol term done)
      (fun as r => as = done ++ (first :: more).map value ∧ P r) (w :: ws) := by
  induction more generalizing done first with
  | nil =>
    obtain ⟨v, tail, hwords, hvseen, hveof, -, hp⟩ := hterm first
    rw [hwords, List.flatMap_nil, List.append_nil, List.cons_append]
    refine .round_done hvseen hveof fun t ht => (hp P t _ ht).bind_fact fun a ha => ?_
    refine (Takes.accept_absent hseen hother).bind_fact fun b hb => ?_
    rw [hb, ha]
    exact .pure fun r hP => ⟨_, rfl, rfl, hP⟩
  | cons x more ih =>
    obtain ⟨v, tail, hwords, hvseen, hveof, -, hp⟩ := hterm first
    have hround : ∀ t : Token, t.word = v → Takes m P
        (tail ++ ((.symbol symbol, "") ::
          (words x ++ more.flatMap (fun x => (.symbol symbol, "") :: words x) ++ w :: ws)))
        (separatedRound symbol term done t)
        (fun y r => ∃ acc, y = .more acc ∧ acc = done ++ [value first] ∧ P r)
        (words x ++ more.flatMap (fun x => (.symbol symbol, "") :: words x) ++ w :: ws) := by
      intro t ht
      refine (hp P t _ ht).bind_fact fun a ha => (Takes.accept symbol).bind_fact fun b hb => ?_
      rw [hb, ha]
      exact .pure fun r hP => ⟨_, rfl, rfl, hP⟩
    rw [hwords, List.flatMap_cons, List.cons_append, List.cons_append, List.append_assoc]
    refine .round_more hvseen hveof hround fun acc => .of_fact fun hacc => ?_
    refine (ih acc x).mono (fun _ hP => hP) fun as r has => ?_
    rw [hacc] at has
    simpa using has

/-- Terms with a symbol between them, up to a word that is not this symbol. -/
theorem separated_takes (hseen : w.1.seen m) (hother : w.1 ≠ .symbol symbol) (first : ι)
    (more : List ι) :
    Takes m P (words first ++ more.flatMap (fun x => (.symbol symbol, "") :: words x) ++ w :: ws)
      (separated symbol term) (fun as r => as = (first :: more).map value ∧ P r) (w :: ws) :=
  separatedFrom_takes hterm hseen hother [] first more

end Separated

/-! ## Readers -/

theorem magnitude_takes (n : NumberLiteral) {t : Token} (ht : t.word = n.piece.word) :
    Takes m P rest (magnitude t) (fun x r => x = n.value ∧ P r) rest := by
  rw [NumberLiteral.word_piece, Token.word_eq_iff] at ht
  have hmagnitude : (magnitude t : Parser ρ Float) = pure n.value := by
    have hnumeral : (numeral t : Parser ρ Float) = pure n.value := by
      rw [numeral, ht.2, n.read?_eq]
    rw [magnitude, ht.1]
    rcases n.kind_cases with hkind | hkind <;> rw [hkind] <;> exact hnumeral
  rw [hmagnitude]
  exact .pure fun _ hP => ⟨rfl, hP⟩

theorem seen_number (n : NumberLiteral) (m : Bool) : n.kind.seen m := by
  rcases n.kind_cases with hkind | hkind <;> rw [hkind] <;> rfl

theorem signedNumber_opens (v : SignedLiteral) :
    Opens (ρ := ρ) m (v.pieces.map Piece.word) signedNumber v.value := by
  obtain ⟨negated, n⟩ := v
  have hne : n.kind ≠ .endOfFile ∧ ∀ symbol, n.kind ≠ .symbol symbol := by
    rcases n.kind_cases with hkind | hkind <;> simp [hkind]
  cases negated with
  | false =>
    refine ⟨n.piece.word, [], rfl, seen_number n m, hne.1, hne.2 _, fun P t rest ht => ?_⟩
    have hkind : t.kind = n.kind := congrArg Prod.fst ht
    rw [signedNumber, if_neg (by simp [Token.isSymbol, hkind, hne.2])]
    exact magnitude_takes n ht
  | true =>
    refine ⟨_, [n.piece.word], rfl, rfl, by simp, by simp, fun P t rest ht => ?_⟩
    rw [word_mark, Token.word_eq_iff] at ht
    rw [signedNumber, if_pos (by simp [Token.isSymbol, ht.1])]
    refine (Takes.next (seen_number n m) hne.1).bind_fact fun u hu => ?_
    exact (magnitude_takes n hu).map fun x hx => by rw [hx]; rfl

theorem textTerm_opens (t : TextLiteral) : Opens (ρ := ρ) m [t.piece.word] textTerm t.text := by
  refine ⟨t.piece.word, [], rfl, rfl, by simp, by simp, fun P u rest hu => ?_⟩
  rw [TextLiteral.word_piece, Token.word_eq_iff] at hu
  rw [textTerm, hu.1, hu.2]
  exact .pure fun _ hP => ⟨rfl, hP⟩

/-- The words of a setting, after an `=` or none. -/
def settingWords (equal : Bool) (v : Setting) : List Word :=
  (equalSign equal ++ v.pieces).map Piece.word

theorem number_takes (equal : Bool) (v : SignedLiteral) :
    Takes m P (settingWords equal (.number v) ++ rest) number
      (fun x r => x = v.value ∧ P r) rest := by
  rw [settingWords, List.map_append]
  exact (signedNumber_opens v).value equal

theorem bareName_opens (n : Name) :
    Opens (ρ := ρ) m [n.piece.word]
      (fun t => if t.kind = .name then return t.text else unexpected t) n.text := by
  refine ⟨_, [], rfl, rfl, by simp, by simp, fun P t rest ht => ?_⟩
  rw [Name.word_piece, Token.word_eq_iff] at ht
  simp only [ht.1, ht.2, if_true]
  exact .pure fun _ hP => ⟨rfl, hP⟩

theorem word_takes (equal : Bool) (n : Name) :
    Takes m P (settingWords equal (.word n) ++ rest) word (fun x r => x = n.text ∧ P r) rest := by
  rw [settingWords, List.map_append]
  exact (bareName_opens n).value equal

theorem flag_takes (equal b : Bool) :
    Takes m P (settingWords equal (.flag b) ++ rest) flag (fun x r => x = b ∧ P r) rest := by
  have hopens : Opens (ρ := ρ) m [(.name, if b then "true" else "false")]
      (fun t =>
        if t.isName "true" then return true
        else if t.isName "false" then return false
        else if t.kind = .name then unexpectedName t
        else unexpected t) b := by
    refine ⟨_, [], rfl, rfl, by simp, by simp, fun P t rest ht => ?_⟩
    rw [Token.word_eq_iff] at ht
    cases b <;> simp [Token.isName, ht.1, ht.2] <;> exact .pure fun _ hP => ⟨rfl, hP⟩
  have hwords : settingWords equal (.flag b) = (equalSign equal).map Piece.word ++
      [(.name, if b then "true" else "false")] := by
    simp [settingWords, Setting.pieces]
  rw [hwords]
  exact hopens.value equal

theorem keyword_takes {vocabulary : Vocabulary α} (equal : Bool) {n : Name} {meaning : α}
    (h : vocabulary.find? n.text = some meaning) :
    Takes m P (settingWords equal (.word n) ++ rest) (Parser.keyword vocabulary)
      (fun x r => x = meaning ∧ P r) rest := by
  refine (word_takes equal n).bind_fact fun x hx => ?_
  have hresolve : vocabulary.resolve x = (meaning, []) := by
    rw [hx, Vocabulary.resolve, Vocabulary.resolveOr, h]
  rw [hresolve]
  exact (Takes.note []).bind fun _ => .pure fun _ hP => ⟨rfl, hP⟩

theorem settingWords_texts (equal : Bool) (first : TextLiteral) (more : List TextLiteral) :
    settingWords equal (.texts first more) = (equalSign equal).map Piece.word ++
      ([first.piece.word] ++ more.flatMap fun t => (.symbol .plus, "") :: [t.piece.word]) := by
  simp [settingWords, Setting.pieces, List.map_flatMap]

theorem text_takes (equal : Bool) (first : TextLiteral) (more : List TextLiteral) :
    Takes m P (settingWords equal (.texts first more) ++ (.newline, "") :: rest) text
      (fun x r => x = Setting.joined first more ∧ P r) ((.newline, "") :: rest) := by
  rw [settingWords_texts, List.append_assoc, List.append_assoc, ← List.append_assoc]
  refine .withLineBreaks (((textTerm_opens first).optionalEqual equal).bind fun _ => ?_)
  rw [← List.append_assoc]
  exact (separated_takes textTerm_opens rfl (by simp) first more).map fun _ h => by rw [h]; rfl

/-- The color that numbers make. -/
def colorOf (first : SignedLiteral) (more : List SignedLiteral) : Color :=
  .ofComponents ((first :: more).map fun v => Color.component v.value)

theorem color_takes (equal : Bool) (first : SignedLiteral) (more : List SignedLiteral) :
    Takes m P (settingWords equal (.numbers first more) ++ (.newline, "") :: rest) color
      (fun x r => x = colorOf first more ∧ P r) ((.newline, "") :: rest) := by
  have hwords : settingWords equal (.numbers first more) = (equalSign equal).map Piece.word ++
      (first.pieces.map Piece.word ++
        more.flatMap fun v => (.symbol .comma, "") :: v.pieces.map Piece.word) := by
    simp [settingWords, Setting.pieces, List.map_flatMap]
  rw [hwords, List.append_assoc, List.append_assoc, ← List.append_assoc]
  refine .withLineBreaks (((signedNumber_opens first).optionalEqual equal).bind fun _ => ?_)
  rw [← List.append_assoc]
  refine (separated_takes signedNumber_opens rfl (by simp) first more).map fun _ h => ?_
  rw [h, List.map_map]
  rfl

/-- A setting is read as a name, bare or as a string. -/
theorem nameOrText_takes (equal : Bool) {v : Setting} (h : v.Is .nameOrText) :
    Takes m P (settingWords equal v ++ (.newline, "") :: rest) nameOrText (fun _ => P)
      ((.newline, "") :: rest) := by
  cases v with
  | word n =>
    rw [settingWords, List.map_append]
    refine ((bareName_opens n).optionalEqual equal).bind fun _ => ?_
    refine (Takes.peek rfl).bind_fact fun t ht => ?_
    rw [Name.word_piece, Token.word_eq_iff] at ht
    rw [ht.1]
    exact (word_takes false n).mono (fun _ hP => hP) fun _ _ h => h.2
  | texts first more =>
    have htext : Takes m P (settingWords false (.texts first more) ++ (.newline, "") :: rest) text
        _ _ := text_takes false first more
    rw [settingWords_texts] at htext ⊢
    rw [List.append_assoc, List.append_assoc, ← List.append_assoc]
    refine ((textTerm_opens first).optionalEqual equal).bind fun _ => ?_
    refine (Takes.peek rfl).bind_fact fun t ht => ?_
    rw [TextLiteral.word_piece, Token.word_eq_iff] at ht
    rw [ht.1]
    exact htext.mono (fun _ hP => hP) fun _ _ h => h.2
  | _ => cases h

end Parser

end MaterialScript
