/-
What an initializer denotes.

An initializer is the rest of its line. `items` is the line as its author sees
it: blanks and tabs left out, an `@` and the name right after it taken
together. `Denotes` gives the value of such a line, one rule for each form. The
parser reads exactly these lines and gives exactly these values
(`initializer_run`): each parser is described from a state that stands on the
line (`OnLine`), by what it answers and by the part of the line it has passed
(`State.past`).
-/
import Mathlib.Data.List.TakeWhile
import MaterialScript.Parser.Initializer
import MaterialScript.Proofs.Lockstep
import MaterialScript.Proofs.Spacing

namespace MaterialScript

/-! ## Lines and their values -/

/-- What a line is made of: references to variables and single tokens. -/
inductive Item where
  | token (t : Token)
  | reference (name : String)

/-- An `@` and a name that make a reference, where they stand side by side. -/
def Token.refersTo (t u : Token) : Bool := t.isSymbol .atSign && u.kind == .name

/-- The items of a line. -/
def items : List Token → List Item
  | [] => []
  | [t] => if t.isSpace then [] else [.token t]
  | t :: u :: ts =>
    if t.isSpace then items (u :: ts)
    else if t.refersTo u then .reference u.text :: items ts
    else .token t :: items (u :: ts)

section Values

variable (vars : Variables)

/-- A literal number, or a variable that holds a number or is not bound. -/
inductive NumberTerm : Item → Float → Prop
  | literal {t : Token} {v : Float} :
      t.kind.isNumber → Decimal.read? t.text = some v → NumberTerm (.token t) v
  | bound {name : String} {v : Float} :
      vars.get? name = some (.number v) → NumberTerm (.reference name) v
  | unbound {name : String} : vars.get? name = none → NumberTerm (.reference name) 0

/-- A literal string, or a variable that holds a string. -/
inductive TextTerm : Item → String → Prop
  | literal {t : Token} : t.kind = .string → TextTerm (.token t) t.text
  | bound {name s : String} : vars.get? name = some (.text s) → TextTerm (.reference name) s

/-- Terms that follow a string, each after a `+`; a variable that is not bound is empty. -/
inductive Joined : List Item → String → Prop
  | nil : Joined [] ""
  | text {p : Token} {i : Item} {is : List Item} {s rest : String} :
      p.isSymbol .plus → TextTerm vars i s → Joined is rest →
      Joined (.token p :: i :: is) (s ++ rest)
  | unbound {p : Token} {name : String} {is : List Item} {rest : String} :
      p.isSymbol .plus → vars.get? name = none → Joined is rest →
      Joined (.token p :: .reference name :: is) rest

/-- The value of an initializer: a number, a number after a minus, or strings joined by `+`. -/
inductive Denotes : List Item → Value → Prop
  | number {i : Item} {v : Float} : NumberTerm vars i v → Denotes [i] (.number v)
  | negated {m : Token} {i : Item} {v : Float} :
      m.isSymbol .minus → NumberTerm vars i v → Denotes [.token m, i] (.number (-v))
  | text {i : Item} {is : List Item} {s rest : String} :
      TextTerm vars i s → Joined vars is rest → Denotes (i :: is) (.text (s ++ rest))

/-- A reference to a variable that is not bound is warned of. -/
def Item.warnings : Item → Journal
  | token _ => []
  | reference name => if vars.contains name then [] else [Variables.unknown name]

/-- The value of an item; `unbound` stands for a variable that is not bound. -/
def Item.value? (unbound : Value) : Item → Option Value
  | token t =>
    match t.kind with
    | .integer | .float => (Decimal.read? t.text).map .number
    | .string => some (.text t.text)
    | _ => none
  | reference name => some ((vars.get? name).getD unbound)

end Values

namespace Item

@[simp] theorem warnings_token (vars : Variables) (t : Token) : (token t).warnings vars = [] := rfl

/-- The first token of an item. -/
def StartsWith (i : Item) (t : Token) : Prop :=
  match i with
  | token x => x = t
  | reference _ => t.isSymbol .atSign

variable {vars : Variables} {i : Item}

theorem StartsWith.eq_token {t : Token} (h : i.StartsWith t) (hminus : t.isSymbol .minus) :
    i = .token t := by
  cases i with
  | token x => rw [show x = t from h]
  | reference name =>
    have hkind : t.kind = .symbol .atSign := by simpa [StartsWith, Token.isSymbol] using h
    simp [Token.isSymbol, hkind] at hminus

theorem value?_minus {t : Token} (hminus : t.isSymbol .minus) (unbound : Value) :
    (token t).value? vars unbound = none := by
  have hkind : t.kind = .symbol .minus := by simpa [Token.isSymbol] using hminus
  simp [value?, hkind]

theorem numberTerm_iff {v : Float} :
    NumberTerm vars i v ↔ i.value? vars (.number 0) = some (.number v) := by
  constructor
  · intro h
    cases h with
    | literal hkind hread =>
      rename_i t
      rcases t with ⟨kind, text, position⟩
      cases kind <;> simp_all [value?, TokenKind.isNumber]
    | bound hbound => simp [value?, hbound]
    | unbound hnone => simp [value?, hnone]
  · intro h
    cases i with
    | token t =>
      rcases t with ⟨kind, text, position⟩
      cases kind <;> simp only [value?, Option.map_eq_some_iff, reduceCtorEq, Option.some.injEq]
        at h
      all_goals
        obtain ⟨v', hread, heq⟩ := h
        cases heq
        exact .literal rfl hread
    | reference name =>
      cases hget : vars.get? name with
      | none =>
        have heq : (0 : Float) = v := by simpa [value?, hget] using h
        rw [← heq]
        exact .unbound hget
      | some value =>
        have heq : value = .number v := by simpa [value?, hget] using h
        exact .bound (by rw [hget, heq])

theorem textTerm_iff {s : String} :
    TextTerm vars i s ↔ i.value? vars (.number 0) = some (.text s) := by
  constructor
  · intro h
    cases h with
    | literal hkind => simp [value?, hkind]
    | bound hbound => simp [value?, hbound]
  · intro h
    cases i with
    | token t =>
      rcases t with ⟨kind, text, position⟩
      cases kind <;> simp [value?] at h
      cases h
      exact .literal rfl
    | reference name =>
      cases hget : vars.get? name with
      | none => simp [value?, hget] at h
      | some value =>
        have heq : value = .text s := by simpa [value?, hget] using h
        exact .bound (by rw [hget, heq])

end Item

section Joined

variable {vars : Variables}

theorem joined_cons {p : Token} {i : Item} {is : List Item} {text : String} :
    Joined vars (.token p :: i :: is) text ↔
      p.isSymbol .plus ∧ ∃ s rest, i.value? vars (.text "") = some (.text s) ∧
        Joined vars is rest ∧ text = s ++ rest := by
  constructor
  · intro h
    cases h with
    | text hplus hterm hrest =>
      refine ⟨hplus, _, _, ?_, hrest, rfl⟩
      cases hterm with
      | literal hkind => simp [Item.value?, hkind]
      | bound hbound => simp [Item.value?, hbound]
    | unbound hplus hnone hrest =>
      refine ⟨hplus, "", _, ?_, hrest, by simp⟩
      simp [Item.value?, hnone]
  · rintro ⟨hplus, s, rest, hvalue, hrest, rfl⟩
    cases i with
    | token t =>
      refine .text hplus (Item.textTerm_iff.2 ?_) hrest
      exact hvalue
    | reference name =>
      cases hget : vars.get? name with
      | none =>
        have heq : "" = s := by simpa [Item.value?, hget] using hvalue
        rw [← heq, String.empty_append]
        exact .unbound hplus hget hrest
      | some value =>
        have heq : value = .text s := by simpa [Item.value?, hget] using hvalue
        exact .text hplus (.bound (by rw [hget, heq])) hrest

theorem not_joined_singleton {i : Item} {text : String} : ¬ Joined vars [i] text := by
  intro h
  cases h

theorem not_denotes_nil {v : Value} : ¬ Denotes vars [] v := by
  intro h
  cases h

/-- What a line denotes that does not start with a minus. -/
theorem denotes_cons {i : Item} {is : List Item} {v : Value}
    (hminus : ∀ t, i = .token t → t.isSymbol .minus = false) :
    Denotes vars (i :: is) v ↔
      (is = [] ∧ ∃ x, i.value? vars (.number 0) = some (.number x) ∧ v = .number x) ∨
        ∃ s rest, i.value? vars (.number 0) = some (.text s) ∧ Joined vars is rest ∧
          v = .text (s ++ rest) := by
  constructor
  · intro h
    cases h with
    | number hterm => exact .inl ⟨rfl, _, Item.numberTerm_iff.1 hterm, rfl⟩
    | negated hsymbol hterm =>
      rw [hminus _ rfl] at hsymbol
      cases hsymbol
    | text hterm hrest => exact .inr ⟨_, _, Item.textTerm_iff.1 hterm, hrest, rfl⟩
  · rintro (⟨rfl, x, hvalue, rfl⟩ | ⟨s, rest, hvalue, hrest, rfl⟩)
    · exact .number (Item.numberTerm_iff.2 hvalue)
    · exact .text (Item.textTerm_iff.2 hvalue) hrest

/-- What a line denotes that starts with a minus. -/
theorem denotes_minus {m : Token} {is : List Item} {v : Value} (hm : m.isSymbol .minus) :
    Denotes vars (.token m :: is) v ↔
      ∃ i x, is = [i] ∧ i.value? vars (.number 0) = some (.number x) ∧ v = .number (-x) := by
  have hkind : m.kind = .symbol .minus := by simpa [Token.isSymbol] using hm
  constructor
  · intro h
    cases h with
    | number hterm =>
      have hvalue := Item.numberTerm_iff.1 hterm
      simp [Item.value?, hkind] at hvalue
    | negated hsymbol hterm => exact ⟨_, _, rfl, Item.numberTerm_iff.1 hterm, rfl⟩
    | text hterm hrest =>
      have hvalue := Item.textTerm_iff.1 hterm
      simp [Item.value?, hkind] at hvalue
  · rintro ⟨i, x, rfl, hvalue, rfl⟩
    exact .negated hm (Item.numberTerm_iff.2 hvalue)

end Joined

/-! ## Items -/

/-- Where line breaks count, blanks and tabs are what is skipped. -/
theorem Cursor.skipsWhen_true (t : Token) : skipsWhen true t = t.isSpace := by
  rcases t with ⟨kind, text, position⟩
  cases kind <;> rfl

/-- A line holds nothing but blanks and tabs, or something comes after them. -/
theorem line_cases (line : List Token) :
    (∀ t ∈ line, t.isSpace) ∨ ∃ pad t more, line = pad ++ t :: more ∧ (∀ x ∈ pad, x.isSpace) ∧
      t.isSpace = false := by
  induction line with
  | nil => exact .inl (by simp)
  | cons t line ih =>
    by_cases ht : t.isSpace
    · rcases ih with hall | ⟨pad, u, more, rfl, hpad, hu⟩
      · exact .inl (by simpa [ht] using hall)
      · exact .inr ⟨t :: pad, u, more, rfl, by simpa [ht] using hpad, hu⟩
    · exact .inr ⟨[], t, line, rfl, by simp, by simpa using ht⟩

theorem items_cons_of_isSpace {t : Token} (h : t.isSpace) (ts : List Token) :
    items (t :: ts) = items ts := by
  cases ts with
  | nil => simp [items, h]
  | cons u ts => simp [items, h]

theorem items_append_of_isSpace {pad : List Token} (h : ∀ t ∈ pad, t.isSpace) (ts : List Token) :
    items (pad ++ ts) = items ts := by
  induction pad with
  | nil => rfl
  | cons t pad ih =>
    rw [List.cons_append, items_cons_of_isSpace (h t (by simp))]
    exact ih fun u hu => h u (List.mem_cons_of_mem t hu)

theorem items_eq_nil {line : List Token} (h : ∀ t ∈ line, t.isSpace) : items line = [] := by
  have hnil := items_append_of_isSpace h []
  rwa [List.append_nil] at hnil

/-- A token is an item of its own unless a name makes it a reference. -/
theorem items_cons {t : Token} (h : t.isSpace = false) {ts : List Token}
    (hrefers : ∀ u ∈ ts.head?, t.refersTo u = false) : items (t :: ts) = .token t :: items ts := by
  cases ts with
  | nil => simp [items, h]
  | cons u ts =>
    have hu := hrefers u (by simp)
    simp [items, h, hu]

theorem items_reference {t u : Token} (h : t.refersTo u) (ts : List Token) :
    items (t :: u :: ts) = .reference u.text :: items ts := by
  have hsymbol : t.isSymbol .atSign := (Bool.and_eq_true_iff.1 h).1
  have hkind : t.kind = .symbol .atSign := by simpa [Token.isSymbol] using hsymbol
  have hspace : t.isSpace = false := by simp [Token.isSpace, hkind]
  simp [items, hspace, h]

/-- A token that is no whitespace names a variable with the next one, or is an item of its own. -/
theorem items_cons_cases {t : Token} (h : t.isSpace = false) (ts : List Token) :
    (∃ u more, ts = u :: more ∧ t.refersTo u ∧
      items (t :: ts) = .reference u.text :: items more) ∨
      (∀ u ∈ ts.head?, t.refersTo u = false) ∧ items (t :: ts) = .token t :: items ts := by
  by_cases hrefers : ∃ u more, ts = u :: more ∧ t.refersTo u
  · obtain ⟨u, more, rfl, hrefers⟩ := hrefers
    exact .inl ⟨u, more, rfl, hrefers, items_reference hrefers more⟩
  · have hnone : ∀ u ∈ ts.head?, t.refersTo u = false := by
      intro u hu
      obtain ⟨more, rfl⟩ := List.head?_eq_some_iff.1 hu
      simpa using fun hu => hrefers ⟨u, more, rfl, hu⟩
    exact .inr ⟨hnone, items_cons h hnone⟩

theorem exists_items_cons {t : Token} (h : t.isSpace = false) (ts : List Token) :
    ∃ i is, items (t :: ts) = i :: is ∧ i.StartsWith t := by
  rcases items_cons_cases h ts with ⟨u, more, rfl, hrefers, hitems⟩ | ⟨-, hitems⟩
  · exact ⟨_, _, hitems, (Bool.and_eq_true_iff.1 hrefers).1⟩
  · exact ⟨_, _, hitems, rfl⟩

namespace Parser

variable {ρ α β : Type}

/-! ## Steps along a line -/

/-- The state `s` after the tokens `ts`, with notices added. -/
def State.past (s : State ρ) (ts : List Token) (notices : Journal) : State ρ :=
  { s with
    cursor :=
      { s.cursor with
        passed := ts.reverse ++ s.cursor.passed
        rest := s.cursor.rest.drop ts.length }
    journal := s.journal ++ notices }

namespace State

variable (s : State ρ)

@[simp] theorem past_nil : s.past [] [] = s := by simp [past]

@[simp] theorem past_past (ts us : List Token) (ns ms : Journal) :
    (s.past ts ns).past us ms = s.past (ts ++ us) (ns ++ ms) := by
  simp [past, List.drop_drop]

@[simp] theorem bindings_past (ts : List Token) (ns : Journal) :
    (s.past ts ns).bindings = s.bindings := rfl

theorem rest_past {ts more : List Token} (h : s.cursor.rest = ts ++ more) (ns : Journal) :
    (s.past ts ns).cursor.rest = more := by
  simp [past, h]

@[simp] theorem current_past (ts : List Token) (t : Token) (ns : Journal) :
    (s.past (ts ++ [t]) ns).cursor.current = t := by
  simp [past, Cursor.current]

end State

/-- Before `s` lies `line`, which `e` ends, and line breaks count. -/
structure OnLine (s : State ρ) (line : List Token) (e : Token) : Prop where
  rest : ∃ more, s.cursor.rest = line ++ e :: more
  goesOn : ∀ t ∈ line, t.endsLine = false
  ends : e.endsLine
  lineBreaks : s.cursor.lineBreaksCount

theorem isSpace_of_endsLine {e : Token} (h : e.endsLine) : e.isSpace = false := by
  have hkind : e.kind = .newline ∨ e.kind = .endOfFile := by simpa [Token.endsLine] using h
  rcases hkind with hkind | hkind <;> simp [Token.isSpace, hkind]

/-- A step forward passes whitespace and the first token after it. -/
theorem advance_eq_past {s : State ρ} {pad more : List Token} {t : Token}
    (hrest : s.cursor.rest = pad ++ t :: more) (hpad : ∀ x ∈ pad, s.cursor.skips x)
    (ht : s.cursor.skips t = false) : s.advance true = s.past (pad ++ [t]) [] := by
  have hpass : Cursor.passOver (s.cursor.skipped true) s.cursor.passed (pad ++ t :: more) =
      (t :: (pad.reverse ++ s.cursor.passed), more) := by
    have hstay : s.cursor.skipped true t = false := by simp [Cursor.skipped, ht]
    rw [Cursor.passOver_append_of_skipped fun x hx => by simp [Cursor.skipped, hpad x hx],
      Cursor.passOver, hstay]
    rfl
  simp only [State.advance, Cursor.advance, State.past, hrest, hpass]
  simp

namespace OnLine

variable {s : State ρ} {line pad more : List Token} {e t : Token}

theorem past {us : List Token} (h : OnLine s (us ++ line) e) (ns : Journal) :
    OnLine (s.past us ns) line e := by
  obtain ⟨⟨more, hrest⟩, hgoes, hends, hbreaks⟩ := h
  refine ⟨⟨more, ?_⟩, fun t ht => hgoes t (List.mem_append_right us ht), hends, hbreaks⟩
  simp [State.past, hrest]

theorem skips (h : OnLine s line e) (t : Token) : s.cursor.skips t = t.isSpace := by
  rw [Cursor.skips, h.lineBreaks, Cursor.skipsWhen_true]

theorem advance_end (h : OnLine s line e) (hspace : ∀ t ∈ line, t.isSpace) :
    s.advance true = s.past (line ++ [e]) [] := by
  obtain ⟨more, hrest⟩ := h.rest
  refine advance_eq_past hrest (fun t ht => ?_) ?_
  · rw [h.skips]
    exact hspace t ht
  · rw [h.skips]
    exact isSpace_of_endsLine h.ends

theorem advance_word (h : OnLine s (pad ++ t :: more) e) (hpad : ∀ x ∈ pad, x.isSpace)
    (ht : t.isSpace = false) : s.advance true = s.past (pad ++ [t]) [] := by
  obtain ⟨after, hrest⟩ := h.rest
  rw [List.append_assoc, List.cons_append] at hrest
  refine advance_eq_past hrest (fun x hx => ?_) ?_
  · rw [h.skips]
    exact hpad x hx
  · rw [h.skips]
    exact ht

/-- The state on a word of the line. -/
theorem after_word (h : OnLine s (pad ++ t :: more) e) :
    OnLine (s.past (pad ++ [t]) []) more e := by
  refine OnLine.past ?_ []
  rwa [List.append_assoc, List.singleton_append]

theorem endsLine_word (h : OnLine s (pad ++ t :: more) e) : t.endsLine = false :=
  h.goesOn t (by simp)

end OnLine

/-! ## Parsers -/

/-- What two steps answer together. -/
theorem run_bind_eq_ok_iff {p : Parser ρ α} {f : α → Parser ρ β} {s u : State ρ} {b : β} :
    (p >>= f).run s = (.ok b, u) ↔ ∃ a t, p.run s = (.ok a, t) ∧ (f a).run t = (.ok b, u) := by
  constructor
  · exact run_bind_eq_ok
  · rintro ⟨a, t, hp, hf⟩
    rw [run_bind, hp]
    exact hf

/-- What a loop answers that goes on. -/
theorem runOverTokens_eq_ok_iff {body : α → Token → Parser ρ (Progress α β)}
    {finish : α → Token → Parser ρ β} {a : α} {b : β} {s u : State ρ} (hend : ¬ s.AtEnd) :
    runOverTokens body finish a s = (.ok b, u) ↔
      (∃ a' w, (body a (s.advance true).cursor.current).run (s.advance true) =
        (.ok (.more a'), w) ∧ runOverTokens body finish a' w = (.ok b, u)) ∨
      (body a (s.advance true).cursor.current).run (s.advance true) = (.ok (.done b), u) := by
  rcases hbody : (body a (s.advance true).cursor.current).run (s.advance true)
    with ⟨e | a' | b', w⟩
  · rw [runOverTokens_error hend hbody]
    simp
  · rw [runOverTokens_more hend hbody]
    simp
  · rw [runOverTokens_done hend hbody]
    simp

section Runs

variable {s : State ρ} {line pad more : List Token} {e t : Token}

theorem termOnLine_end (h : OnLine s line e) (hspace : ∀ t ∈ line, t.isSpace) (t : Token)
    (u : State ρ) : termOnLine.run s ≠ (.ok t, u) := by
  intro hrun
  obtain ⟨t', v, hnext, hrun⟩ := run_bind_eq_ok hrun
  obtain ⟨t'', w, htake, hunless⟩ := run_bind_eq_ok hnext
  cases htake
  rw [h.advance_end hspace, State.current_past] at hunless
  have hkind : e.kind = .newline ∨ e.kind = .endOfFile := by simpa [Token.endsLine] using h.ends
  rcases hkind with hkind | hkind
  · have heof : e.isEndOfFile = false := by simp [Token.isEndOfFile, hkind]
    rw [unlessEnd, heof] at hunless
    cases hunless
    rw [if_pos hkind] at hrun
    cases hrun
  · have heof : e.isEndOfFile := by simp [Token.isEndOfFile, hkind]
    rw [unlessEnd, if_pos heof] at hunless
    cases hunless

theorem next_word (h : OnLine s (pad ++ t :: more) e) (hpad : ∀ x ∈ pad, x.isSpace)
    (ht : t.isSpace = false) : next.run s = (.ok t, s.past (pad ++ [t]) []) := by
  have hends := h.endsLine_word
  rw [Token.endsLine, Bool.or_eq_false_iff] at hends
  have heof : t.isEndOfFile = false := hends.2
  have htake : (take true).run s = (.ok t, s.past (pad ++ [t]) []) := by
    simp [take, h.advance_word hpad ht]
  rw [next, run_bind, htake]
  simp [unlessEnd, heof]

theorem termOnLine_word (h : OnLine s (pad ++ t :: more) e) (hpad : ∀ x ∈ pad, x.isSpace)
    (ht : t.isSpace = false) : termOnLine.run s = (.ok t, s.past (pad ++ [t]) []) := by
  have hends := h.endsLine_word
  rw [Token.endsLine, Bool.or_eq_false_iff] at hends
  have hkind : t.kind ≠ .newline := by simpa using hends.1
  rw [termOnLine, run_bind, next_word h hpad ht]
  simp [hkind]

/-- A number must be the last on its line. -/
theorem endOfNumber_eq_ok_iff (h : OnLine s line e) {u : State ρ} :
    endOfNumber.run s = (.ok (), u) ↔ items line = [] ∧ u = s.past (line ++ [e]) [] := by
  rcases line_cases line with hspace | ⟨pad, t, more, rfl, hpad, ht⟩
  · have htake : (take true).run s = (.ok e, s.past (line ++ [e]) []) := by
      simp [take, h.advance_end hspace]
    rw [endOfNumber, run_bind, htake]
    simp [h.ends, items_eq_nil hspace, eq_comm]
  · have htake : (take true).run s = (.ok t, s.past (pad ++ [t]) []) := by
      simp [take, h.advance_word hpad ht]
    have hitems : items (pad ++ t :: more) ≠ [] := by
      obtain ⟨i, is, hcons, -⟩ := exists_items_cons ht more
      simp [items_append_of_isSpace hpad, hcons]
    rw [endOfNumber, run_bind, htake]
    simp only [h.endsLine_word, hitems, false_and, iff_false, Bool.false_eq_true, if_false]
    split <;> simp [failAt]

/-- A number token is read as far as its text is a number. -/
theorem numeral_eq_ok_iff {v : Float} {u : State ρ} :
    (numeral t).run s = (.ok v, u) ↔ Decimal.read? t.text = some v ∧ u = s := by
  unfold numeral
  split
  · rename_i w hread
    simp [hread, eq_comm]
  · rename_i hread
    simp [hread, failAt]

theorem numberLiteral_eq_ok_iff {v : Value} {u : State ρ} :
    (numeral t >>= fun x => pure (Value.number x)).run s = (.ok v, u) ↔
      (Decimal.read? t.text).map .number = some v ∧ u = s := by
  simp only [run_bind_eq_ok_iff, numeral_eq_ok_iff, run_pure, Option.map_eq_some_iff]
  constructor
  · rintro ⟨x, w, ⟨hread, rfl⟩, heq⟩
    cases heq
    exact ⟨⟨x, hread, rfl⟩, rfl⟩
  · rintro ⟨⟨x, hread, rfl⟩, rfl⟩
    exact ⟨x, u, ⟨hread, rfl⟩, rfl⟩

/-- The name of a variable stands right after its `@`. -/
theorem variableName_run {u : Token} {more : List Token} {s : State ρ}
    (hrest : s.cursor.rest = u :: more) (hname : u.kind = .name) :
    variableName.run s = (.ok u.text, s.past [u] []) := by
  have htake : (take false).run s = (.ok u, s.past [u] []) := by
    simp [take, State.advance, Cursor.advance, hrest, Cursor.passOver, Cursor.skipped, State.past,
      Cursor.current]
  have hunless : (unlessEnd u : Parser ρ Token) = pure u := by
    simp [unlessEnd, Token.isEndOfFile, hname]
  rw [variableName, run_bind, htake]
  simp [hunless, run_bind, hname]

theorem variableName_fails {u : Token} {more : List Token} {s : State ρ}
    (hrest : s.cursor.rest = u :: more) (hname : u.kind ≠ .name) (name : String) (w : State ρ) :
    variableName.run s ≠ (.ok name, w) := by
  intro hrun
  obtain ⟨t', v, htake, hrun⟩ := run_bind_eq_ok hrun
  obtain ⟨t'', v', hunless, hrun⟩ := run_bind_eq_ok hrun
  cases htake
  have hcurrent : (s.advance false).cursor.current = u := by
    simp [State.advance, Cursor.advance, hrest, Cursor.passOver, Cursor.skipped, Cursor.current]
  rw [hcurrent, unlessEnd] at hunless
  split at hunless
  · cases hunless
  · cases hunless
    simp [hname, failAt] at hrun

/-- The operand that starts with `t` is the item that starts with `t`. -/
theorem operand_run (h : OnLine s line e) (ht : t.isSpace = false) (unbound : Value) :
    ∃ i used more, line = used ++ more ∧ items (t :: line) = i :: items more ∧
      i.StartsWith t ∧ ∀ v u, (operand unbound t).run s = (.ok v, u) ↔
        i.value? s.bindings unbound = some v ∧ u = s.past used (i.warnings s.bindings) := by
  rcases items_cons_cases ht line with ⟨u, more, rfl, hrefers, hitems⟩ | ⟨hnone, hitems⟩
  · obtain ⟨hsymbol, hname⟩ := Bool.and_eq_true_iff.1 hrefers
    have hkind : t.kind = .symbol .atSign := by simpa [Token.isSymbol] using hsymbol
    have hname : u.kind = .name := by simpa using hname
    obtain ⟨after, hrest⟩ := h.rest
    refine ⟨.reference u.text, [u], more, rfl, hitems, hsymbol, fun v w => ?_⟩
    · have hrun := variableName_run hrest hname
      have hconsult : (consult fun vars => vars.get? u.text).run (s.past [u] []) =
          (.ok (s.bindings.get? u.text), s.past [u] []) := rfl
      simp only [operand, hkind, run_bind, hrun, hconsult]
      cases hget : s.bindings.get? u.text with
      | none =>
        simp [run_bind, note, State.past, Item.value?, Item.warnings, Variables.contains, hget,
          eq_comm (b := w), eq_comm (b := v)]
      | some value =>
        simp [Item.value?, Item.warnings, Variables.contains, hget, eq_comm (b := w),
          eq_comm (b := v)]
  · refine ⟨.token t, [], line, rfl, hitems, rfl, fun v u => ?_⟩
    obtain ⟨after, hrest⟩ := h.rest
    have hfails : t.kind = .symbol .atSign → ∀ name w, variableName.run s ≠ (.ok name, w) := by
      intro hkind
      cases line with
      | nil =>
        refine variableName_fails hrest ?_
        have hends := h.ends
        intro hname
        simp [Token.endsLine, hname] at hends
      | cons x line =>
        have hrefers := hnone x rfl
        refine variableName_fails hrest fun hname => ?_
        simp [Token.refersTo, Token.isSymbol, hkind, hname] at hrefers
    unfold operand
    split
    · rename_i hkind
      rw [numberLiteral_eq_ok_iff]
      simp [Item.value?, hkind, Item.warnings]
    · rename_i hkind
      rw [numberLiteral_eq_ok_iff]
      simp [Item.value?, hkind, Item.warnings]
    · rename_i hkind
      simp [Item.value?, hkind, Item.warnings, eq_comm (b := u)]
    · rename_i hkind
      simp [run_bind_eq_ok_iff, hfails hkind, Item.value?, hkind]
    · rename_i hinteger hfloat hstring hat
      simp [failAt, Item.value?]

/-- After a `+` stands one more term, on the same line. -/
theorem joined_run (h : OnLine s line e) :
    (items line = [] ∧ ∀ text u, joined.run s ≠ (.ok text, u)) ∨
      ∃ i used more, line = used ++ more ∧ items line = i :: items more ∧
        ∀ text u, joined.run s = (.ok text, u) ↔
          i.value? s.bindings (.text "") = some (.text text) ∧
            u = s.past used (i.warnings s.bindings) := by
  rcases line_cases line with hspace | ⟨pad, t, rest, rfl, hpad, ht⟩
  · refine .inl ⟨items_eq_nil hspace, fun text u hrun => ?_⟩
    obtain ⟨t, v, hterm, -⟩ := run_bind_eq_ok hrun
    exact termOnLine_end h hspace t v hterm
  · right
    obtain ⟨i, used, more, rfl, hitems, hstarts, hoperand⟩ := operand_run h.after_word ht (.text "")
    refine ⟨i, pad ++ t :: used, more, by simp, ?_, fun text u => ?_⟩
    · rw [items_append_of_isSpace hpad, hitems]
    rw [joined, run_bind, termOnLine_word h hpad ht]
    by_cases hminus : t.isSymbol .minus
    · simp [hminus, failAt, hstarts.eq_token hminus, Item.value?_minus hminus]
    · simp only [hminus, Bool.false_eq_true, if_false, run_bind_eq_ok_iff, hoperand]
      constructor
      · rintro ⟨v, w, ⟨hvalue, rfl⟩, hrun⟩
        cases v with
        | text s' =>
          cases hrun
          exact ⟨hvalue, by simp⟩
        | number x => cases hrun
      · rintro ⟨hvalue, rfl⟩
        exact ⟨_, _, ⟨hvalue, rfl⟩, by simp⟩

theorem not_atEnd_of_word (h : OnLine s (pad ++ t :: more) e) (hpad : ∀ x ∈ pad, x.isSpace)
    (ht : t.isSpace = false) : ¬ s.AtEnd := by
  have hends := h.endsLine_word
  rw [Token.endsLine, Bool.or_eq_false_iff] at hends
  have heof : t.isEndOfFile = false := hends.2
  obtain ⟨after, hrest⟩ := h.rest
  rw [State.AtEnd, h.advance_word hpad ht, State.current_past]
  simp [hrest, heof]

theorem restOfText_end (h : OnLine s line e) (hspace : ∀ t ∈ line, t.isSpace) (first : String) :
    (restOfText first).run s = (.ok first, s.past (line ++ [e]) []) := by
  have hadvance := h.advance_end hspace
  by_cases hend : s.AtEnd
  · refine (runOverTokens_atEnd hend).trans ?_
    rw [hadvance]
    rfl
  · refine runOverTokens_done hend ?_
    rw [hadvance, State.current_past, if_pos h.ends]
    rfl

/-- Where the line goes on, it goes on with a `+` and a string. -/
theorem restOfText_word (h : OnLine s (pad ++ t :: more) e) (hpad : ∀ x ∈ pad, x.isSpace)
    (ht : t.isSpace = false) {first text : String} {u : State ρ} :
    (restOfText first).run s = (.ok text, u) ↔ t.isSymbol .plus ∧
      ∃ s' w, joined.run (s.past (pad ++ [t]) []) = (.ok s', w) ∧
        (restOfText (first ++ s')).run w = (.ok text, u) := by
  refine (runOverTokens_eq_ok_iff (not_atEnd_of_word h hpad ht)).trans ?_
  rw [h.advance_word hpad ht, State.current_past, if_neg (by simp [h.endsLine_word])]
  by_cases hplus : t.isSymbol .plus
  · rw [if_pos hplus]
    simp only [run_bind_eq_ok_iff, hplus, true_and]
    constructor
    · rintro (⟨a, w, ⟨s', w', hjoined, hmore⟩, hrest⟩ | ⟨s', w', -, hdone⟩)
      · cases hmore
        exact ⟨s', w, hjoined, hrest⟩
      · cases hdone
    · rintro ⟨s', w, hjoined, hrest⟩
      exact .inl ⟨first ++ s', w, ⟨s', w, hjoined, rfl⟩, hrest⟩
  · rw [if_neg hplus]
    simp [hplus, failAt]

/-- The rest of the line is strings to join, whatever the string in front is. -/
theorem restOfText_eq_ok_iff (h : OnLine s line e) {first text : String} {u : State ρ} :
    (restOfText first).run s = (.ok text, u) ↔
      ∃ rest, Joined s.bindings (items line) rest ∧ text = first ++ rest ∧
        u = s.past (line ++ [e]) ((items line).flatMap (·.warnings s.bindings)) := by
  induction hlength : line.length using Nat.strong_induction_on generalizing line s first with
  | _ length ih =>
  subst hlength
  rcases line_cases line with hspace | ⟨pad, t, after, rfl, hpad, ht⟩
  · rw [restOfText_end h hspace, items_eq_nil hspace]
    constructor
    · intro hrun
      cases hrun
      exact ⟨"", .nil, by simp, by simp⟩
    · rintro ⟨rest, hjoined, rfl, rfl⟩
      cases hjoined
      simp
  rw [restOfText_word h hpad ht, items_append_of_isSpace hpad]
  obtain ⟨i, is, hitems, hstarts⟩ := exists_items_cons ht after
  by_cases hplus : t.isSymbol .plus
  · have hkind : t.kind = .symbol .plus := by simpa [Token.isSymbol] using hplus
    have hitems : items (t :: after) = .token t :: items after :=
      items_cons ht fun u _ => by simp [Token.refersTo, Token.isSymbol, hkind]
    rw [hitems]
    rcases joined_run h.after_word with ⟨hnil, hfails⟩ | ⟨i, used, more, rfl, hmore, hjoined⟩
    · simp [hfails, hnil, not_joined_singleton]
    · have hline : OnLine (s.past (pad ++ t :: used) (i.warnings s.bindings)) more e :=
        OnLine.past (by simpa using h) _
      have hshort : more.length < (pad ++ t :: (used ++ more)).length := by simp; omega
      have hstate : (s.past (pad ++ t :: used) (i.warnings s.bindings)).past (more ++ [e])
            ((items more).flatMap (·.warnings s.bindings)) =
          s.past (pad ++ t :: (used ++ more) ++ [e])
            ((.token t :: i :: items more).flatMap (·.warnings s.bindings)) := by
        simp
      have hrun : ∀ s', (restOfText (first ++ s')).run
            (s.past (pad ++ t :: used) (i.warnings s.bindings)) = (.ok text, u) ↔ _ :=
        fun s' => ih _ hshort hline rfl
      rw [State.bindings_past, hstate] at hrun
      simp only [hplus, hjoined, State.past_past, State.bindings_past, hmore, joined_cons,
        true_and, List.append_assoc, List.singleton_append, List.nil_append]
      constructor
      · rintro ⟨s', w, ⟨hvalue, rfl⟩, hafter⟩
        obtain ⟨rest, hrest, rfl, rfl⟩ := (hrun s').1 hafter
        exact ⟨s' ++ rest, ⟨s', rest, hvalue, hrest, rfl⟩, String.append_assoc .., by simp⟩
      · rintro ⟨_, ⟨s', rest, hvalue, hrest, rfl⟩, rfl, rfl⟩
        refine ⟨s', _, ⟨hvalue, rfl⟩, (hrun s').2 ⟨rest, hrest, ?_, by simp⟩⟩
        exact (String.append_assoc ..).symm
  · have hnone : ∀ rest, ¬ Joined s.bindings (i :: is) rest := by
      intro rest hjoined
      cases hjoined with
      | text hsymbol => exact hplus (by rw [← show _ = t from hstarts]; exact hsymbol)
      | unbound hsymbol => exact hplus (by rw [← show _ = t from hstarts]; exact hsymbol)
    simp [hplus, hitems, hnone]

theorem negated_eq_ok_iff (h : OnLine s line e) {v : Value} {u : State ρ} :
    negated.run s = (.ok v, u) ↔
      (∃ i x, items line = [i] ∧ i.value? s.bindings (.number 0) = some (.number x) ∧
        v = .number (-x)) ∧
      u = s.past (line ++ [e]) ((items line).flatMap (·.warnings s.bindings)) := by
  rcases line_cases line with hspace | ⟨pad, t, after, rfl, hpad, ht⟩
  · simp [negated, run_bind_eq_ok_iff, termOnLine_end h hspace, items_eq_nil hspace]
  obtain ⟨i, used, more, rfl, hitems, -, hoperand⟩ := operand_run h.after_word ht (.number 0)
  have hline : OnLine (s.past (pad ++ t :: used) (i.warnings s.bindings)) more e :=
    OnLine.past (by simpa using h) _
  simp only [State.bindings_past, State.past_past, List.append_assoc, List.singleton_append,
    List.nil_append] at hoperand
  rw [items_append_of_isSpace hpad, hitems, negated, run_bind, termOnLine_word h hpad ht]
  simp only [run_bind_eq_ok_iff, hoperand]
  constructor
  · rintro ⟨x, w, ⟨hvalue, rfl⟩, hrun⟩
    cases x with
    | number x =>
      obtain ⟨_, w, hend, hrun⟩ := run_bind_eq_ok hrun
      obtain ⟨hnil, rfl⟩ := (endOfNumber_eq_ok_iff hline).1 hend
      cases hrun
      exact ⟨⟨i, x, by rw [hnil], hvalue, rfl⟩, by simp [hnil]⟩
    | text first => cases hrun
  · rintro ⟨⟨i', x, hone, hvalue, rfl⟩, rfl⟩
    obtain ⟨rfl, hnil⟩ := List.cons_eq_cons.1 hone
    have hend := (endOfNumber_eq_ok_iff hline).2 ⟨hnil, rfl⟩
    exact ⟨_, _, ⟨hvalue, rfl⟩, by simp [run_bind, hend, hnil]⟩

theorem unsigned_eq_ok_iff (h : OnLine s (pad ++ t :: more) e) (ht : t.isSpace = false)
    (hminus : t.isSymbol .minus = false) {v : Value} {u : State ρ} :
    (unsigned t).run (s.past (pad ++ [t]) []) = (.ok v, u) ↔
      Denotes s.bindings (items (t :: more)) v ∧
        u = s.past (pad ++ t :: more ++ [e])
          ((items (t :: more)).flatMap (·.warnings s.bindings)) := by
  obtain ⟨i, used, more, rfl, hitems, hstarts, hoperand⟩ := operand_run h.after_word ht (.number 0)
  have hline : OnLine (s.past (pad ++ t :: used) (i.warnings s.bindings)) more e :=
    OnLine.past (by simpa using h) _
  have hfirst : ∀ x, i = .token x → x.isSymbol .minus = false := by
    rintro x rfl
    rw [show x = t from hstarts]
    exact hminus
  simp only [State.bindings_past, State.past_past, List.append_assoc, List.singleton_append,
    List.nil_append] at hoperand
  simp only [hitems, denotes_cons hfirst, unsigned, run_bind_eq_ok_iff, hoperand]
  constructor
  · rintro ⟨x, w, ⟨hvalue, rfl⟩, hrun⟩
    cases x with
    | number x =>
      obtain ⟨_, w, hend, hrun⟩ := run_bind_eq_ok hrun
      obtain ⟨hnil, rfl⟩ := (endOfNumber_eq_ok_iff hline).1 hend
      cases hrun
      exact ⟨.inl ⟨hnil, x, hvalue, rfl⟩, by simp [hnil]⟩
    | text first =>
      obtain ⟨text, w, hrest, hrun⟩ := run_bind_eq_ok hrun
      obtain ⟨rest, hjoined, rfl, rfl⟩ := (restOfText_eq_ok_iff hline).1 hrest
      cases hrun
      exact ⟨.inr ⟨first, rest, hvalue, hjoined, rfl⟩, by simp⟩
  · rintro ⟨⟨hnil, x, hvalue, rfl⟩ | ⟨first, rest, hvalue, hjoined, rfl⟩, rfl⟩
    · have hend := (endOfNumber_eq_ok_iff hline).2 ⟨hnil, rfl⟩
      exact ⟨_, _, ⟨hvalue, rfl⟩, by simp [run_bind, hend, hnil]⟩
    · have hrest : (restOfText first).run (s.past (pad ++ t :: used) (i.warnings s.bindings)) =
          (.ok (first ++ rest), _) :=
        (restOfText_eq_ok_iff hline).2 ⟨rest, hjoined, rfl, rfl⟩
      exact ⟨_, _, ⟨hvalue, rfl⟩, by simp [run_bind, hrest]⟩

/-- From a state on its line, an initializer is read as far as the line denotes a value. -/
theorem initializer_eq_ok_iff (h : OnLine s line e) {v : Value} {u : State ρ} :
    initializer.run s = (.ok v, u) ↔ Denotes s.bindings (items line) v ∧
      u = s.past (line ++ [e]) ((items line).flatMap (·.warnings s.bindings)) := by
  rcases line_cases line with hspace | ⟨pad, t, more, rfl, hpad, ht⟩
  · have htake : (take true).run s = (.ok e, s.past (line ++ [e]) []) := by
      simp [take, h.advance_end hspace]
    rw [initializer, run_bind, htake]
    simp [h.ends, failAt, items_eq_nil hspace, not_denotes_nil]
  have htake : (take true).run s = (.ok t, s.past (pad ++ [t]) []) := by
    simp [take, h.advance_word hpad ht]
  rw [initializer, run_bind, htake, items_append_of_isSpace hpad]
  simp only [h.endsLine_word, Bool.false_eq_true, if_false]
  by_cases hminus : t.isSymbol .minus
  · have hkind : t.kind = .symbol .minus := by simpa [Token.isSymbol] using hminus
    have hitems : items (t :: more) = .token t :: items more :=
      items_cons ht fun u _ => by simp [Token.refersTo, Token.isSymbol, hkind]
    rw [if_pos hminus, negated_eq_ok_iff h.after_word, hitems, denotes_minus hminus]
    simp
  · rw [if_neg hminus]
    exact unsigned_eq_ok_iff h ht (by simpa using hminus)

end Runs

end Parser

/-! ## Initializers of a script -/

namespace Cursor

/-- The cursor after the first `n` tokens of a script, where line breaks count. -/
def within (tokens : List Token) (n : Nat) : Cursor :=
  ⟨((closed tokens).take n).reverse, (closed tokens).drop n, true⟩

/-- What is left of the line. -/
def restOfLine (c : Cursor) : List Token := c.rest.takeWhile (!·.endsLine)

theorem closed_eq_append (tokens : List Token) :
    ∃ front e, closed tokens = front ++ [e] ∧ e.isEndOfFile := by
  unfold closed
  split
  · exact ⟨[], _, rfl, rfl⟩
  · rename_i t hlast
    split
    · rename_i heof
      obtain ⟨front, rfl⟩ := List.getLast?_eq_some_iff.1 hlast
      exact ⟨front, t, rfl, heof⟩
    · exact ⟨tokens, _, rfl, rfl⟩

theorem ends_within (tokens : List Token) (n : Nat) : Ends (within tokens n).tokens := by
  have htokens : (within tokens n).tokens = closed tokens := by simp [within, Cursor.tokens]
  rw [htokens]
  exact ends_ofTokens tokens

/-- Every line of a script has an end, unless the script itself is at its end. -/
theorem within_cases (tokens : List Token) (n : Nat) :
    (∃ e more, (within tokens n).rest = (within tokens n).restOfLine ++ e :: more ∧ e.endsLine) ∨
      (within tokens n).rest = [] ∧ (within tokens n).current.endsLine := by
  obtain ⟨front, e, hclosed, heof⟩ := closed_eq_append tokens
  have hends : e.endsLine := by
    have hkind : e.kind = .endOfFile := by simpa [Token.isEndOfFile] using heof
    simp [Token.endsLine, hkind]
  by_cases hrest : (within tokens n).rest = []
  · right
    have hlong : (front ++ [e]).length ≤ n := by
      rw [← hclosed]
      exact List.drop_eq_nil_iff.1 hrest
    refine ⟨hrest, ?_⟩
    simp only [within, current, hclosed, List.take_of_length_le hlong]
    simpa using hends
  · left
    have hsplit := List.takeWhile_append_dropWhile (p := fun t : Token => !t.endsLine)
      (l := (within tokens n).rest)
    rcases hafter : (within tokens n).rest.dropWhile (fun t => !t.endsLine) with _ | ⟨x, more⟩
    · -- the end of the file ends a line
      have hmem : e ∈ (within tokens n).rest := by
        have hlast : (closed tokens).getLast? = some e := by simp [hclosed]
        rw [← List.take_append_drop n (closed tokens)] at hlast
        exact List.mem_of_getLast? ((List.getLast?_append_of_ne_nil _ hrest).symm.trans hlast)
      have hall : ∀ t ∈ (within tokens n).rest, !t.endsLine := by
        rw [hafter, List.append_nil] at hsplit
        rw [← hsplit]
        exact fun t => List.mem_takeWhile_imp
      simpa [hends] using hall e hmem
    · have hx := List.head?_dropWhile_not (fun t : Token => !t.endsLine) (within tokens n).rest
      rw [hafter] at hx hsplit
      exact ⟨x, more, hsplit.symm, by simpa using hx⟩

/-- Past the end of the line. -/
theorem within_add {tokens more : List Token} {n : Nat} {us : List Token}
    (h : (within tokens n).rest = us ++ more) :
    within tokens (n + us.length) =
      ⟨us.reverse ++ (within tokens n).passed, more, true⟩ := by
  have hrest : (closed tokens).drop n = us ++ more := h
  simp only [within, List.take_add, ← List.drop_drop, hrest]
  simp

/-- At the end of a script the last token stays the current one. -/
theorem current_within_add {tokens : List Token} {n : Nat} (h : (within tokens n).rest = [])
    (k : Nat) : (within tokens (n + k)).current = (within tokens n).current := by
  have hlong : (closed tokens).length ≤ n := List.drop_eq_nil_iff.1 h
  have hlonger : (closed tokens).length ≤ n + k := Nat.le_add_right_of_le hlong
  simp only [within, current, List.take_of_length_le hlong, List.take_of_length_le hlonger]

end Cursor

namespace Parser

variable {ρ : Type}

/-- Past tokens of a script the state stands further on in it. -/
theorem State.past_within {tokens us more : List Token} {n : Nat}
    (h : (Cursor.within tokens n).rest = us ++ more) (vars : Variables) (journal ns : Journal)
    (scene : ρ) :
    State.past ⟨.within tokens n, vars, journal, scene⟩ us ns =
      ⟨.within tokens (n + us.length), vars, journal ++ ns, scene⟩ := by
  simp only [State.past, Cursor.within_add h, h, List.drop_left]
  rfl

/-- **An initializer is what its line denotes.** Wherever a parser stands in a script while line
breaks count, and whatever variables are bound, it reads the rest of the line as an initializer
- exactly where the line denotes a value, and then answers that value, adds a warning for each
  reference to a variable that is not bound, ends on the token that ends the line and changes
  nothing else;
- with an error where the line denotes nothing. -/
theorem initializer_run (tokens : List Token) (n : Nat) (vars : Variables) (journal : Journal)
    (scene : ρ) :
    let line := (Cursor.within tokens n).restOfLine
    let after := Cursor.within tokens (n + line.length + 1)
    let run := initializer.run ⟨.within tokens n, vars, journal, scene⟩
    (∀ v u, run = (.ok v, u) ↔ Denotes vars (items line) v ∧
      u = ⟨after, vars, journal ++ (items line).flatMap (·.warnings vars), scene⟩) ∧
    after.current.endsLine ∧
    ((∀ v, ¬ Denotes vars (items line) v) → ∃ e u, run = (.error e, u)) := by
  intro line after run
  have hiff : (∀ v u, run = (.ok v, u) ↔ Denotes vars (items line) v ∧
      u = ⟨after, vars, journal ++ (items line).flatMap (·.warnings vars), scene⟩) ∧
      after.current.endsLine := by
    rcases Cursor.within_cases tokens n with ⟨e, more, hrest, hends⟩ | ⟨hrest, hends⟩
    · have hline : OnLine ⟨.within tokens n, vars, journal, scene⟩ line e :=
        ⟨⟨more, hrest⟩, fun t ht => by simpa using List.mem_takeWhile_imp ht, hends, rfl⟩
      have hrest' : (Cursor.within tokens n).rest = (line ++ [e]) ++ more := by simpa using hrest
      have hlength : n + (line ++ [e]).length = n + line.length + 1 := by simp [Nat.add_assoc]
      have hafter := Cursor.within_add hrest'
      have hpast := State.past_within hrest' vars journal
        ((items line).flatMap (·.warnings vars)) scene
      rw [hlength] at hafter hpast
      refine ⟨fun v u => ?_, by simpa [after, hafter, Cursor.current] using hends⟩
      rw [← hpast]
      exact initializer_eq_ok_iff hline
    · have hline : line = [] := by simp [line, Cursor.restOfLine, hrest]
      have hafter : after.current = (Cursor.within tokens n).current := by
        simpa [after, Nat.add_assoc] using Cursor.current_within_add hrest (line.length + 1)
      have hstay : State.advance ⟨.within tokens n, vars, journal, scene⟩ true =
          ⟨.within tokens n, vars, journal, scene⟩ := by
        simp only [State.advance, Cursor.Respaced.advance_of_nil hrest]
      refine ⟨fun v u => ?_, by rwa [hafter]⟩
      simp [run, initializer, run_bind, take, hstay, hends, failAt, hline, items,
        not_denotes_nil]
  refine ⟨hiff.1, hiff.2, fun hnone => ?_⟩
  rcases hrun : run with ⟨e | v, u⟩
  · exact ⟨e, u, rfl⟩
  · exact absurd ((hiff.1 v u).1 hrun).1 (hnone v)

end Parser

end MaterialScript
