/-
Where a cursor goes.

A cursor is a place between the tokens of a sequence; `offset` counts the tokens
before it. `Stops b n`: a step that skips whitespace, if `b` is true, may end
after `n` tokens, because the last of them is not skipped. A step forward leads to
the next such place, a step back to the one before or to the start, and so each
takes the other back (`moves_between_stops`). That holds wherever a cursor has been
moved to (`moved`), since nothing a cursor does changes its sequence.
-/
import Mathlib.Logic.Function.Iterate
import Mathlib.Order.Bounds.Basic
import MaterialScript.Proofs.Reading

namespace MaterialScript.Cursor

variable {c d : Cursor} {b : Bool} {n : Nat} {t : Token}

/-! ## Places -/

/-- The `n`-th token of the sequence is `t`, counted from 1. -/
def Stands (c : Cursor) (n : Nat) (t : Token) : Prop := 0 < n ∧ c.tokens[n - 1]? = some t

/-- The `n`-th token is one a step may end on. -/
def Stops (c : Cursor) (b : Bool) (n : Nat) : Prop := ∃ t, c.Stands n t ∧ c.skipped b t = false

theorem length_eq (c : Cursor) : c.length = c.tokens.length := by
  simp [length, tokens]

theorem offset_le_length (c : Cursor) : c.offset ≤ c.tokens.length := by
  simp [offset, tokens]

/-- The token `u` stands right behind `front`. -/
theorem stands_of_tokens {front back : List Token} {u : Token}
    (h : c.tokens = front ++ u :: back) : c.Stands (front.length + 1) u :=
  ⟨Nat.succ_pos _, by simp [h]⟩

/-- Between `front` and `back` stands what is in between. -/
theorem Stands.mem_of_tokens {front between back : List Token} (h : c.Stands n t)
    (htokens : c.tokens = front ++ between ++ back) (hfront : front.length < n)
    (hback : n ≤ front.length + between.length) : t ∈ between := by
  obtain ⟨-, hget⟩ := h
  rw [htokens, List.append_assoc, List.getElem?_append_right (by omega),
    List.getElem?_append_left (by omega)] at hget
  exact List.mem_of_getElem? hget

/-- A cursor is told by its sequence, its place and its setting of line breaks. -/
theorem eq_of_offset_eq (htokens : c.tokens = d.tokens) (hoffset : c.offset = d.offset)
    (hbreaks : c.lineBreaksCount = d.lineBreaksCount) : c = d := by
  obtain ⟨passed, rest, m⟩ := c
  obtain ⟨passed', rest', m'⟩ := d
  obtain ⟨hpassed, rfl⟩ := List.append_inj htokens (by simpa [offset] using hoffset)
  obtain rfl := List.reverse_injective hpassed
  cases hbreaks
  rfl

/-- The current token is the last of those passed. -/
theorem current_cases (c : Cursor) :
    c.offset = 0 ∧ c.current = Token.beforeFirst ∨ c.Stands c.offset c.current := by
  obtain ⟨passed, rest, m⟩ := c
  cases passed with
  | nil => exact .inl ⟨rfl, rfl⟩
  | cons t before =>
    have htokens : tokens ⟨t :: before, rest, m⟩ = before.reverse ++ t :: rest := by simp [tokens]
    have hstands := stands_of_tokens htokens
    rw [List.length_reverse] at hstands
    exact .inr hstands

/-! ## Steps forward -/

@[simp] theorem tokens_advance (c : Cursor) (b : Bool) : (c.advance b).tokens = c.tokens :=
  (c.advance_leads b).tokens_eq

theorem Passes.offset_eq {ts : List Token} (h : c.Passes ts d) :
    d.offset = c.offset + ts.length := by
  simp [offset, h.passed, Nat.add_comm]

theorem rest_ne_nil (h : c.offset < c.length) : c.rest ≠ [] := by
  rintro hrest
  simp [offset, length, hrest] at h

/-- A step forward leads to the next place where it may end. -/
theorem advance_isLeast (hends : Ends c.tokens) (h : c.offset < c.length) :
    IsLeast {n | c.Stops b n ∧ c.offset < n} (c.advance b).offset := by
  rcases advance_cases hends b with ⟨between, hpasses, hskipped, hstays⟩ | ⟨hrest, -⟩
  · have hoffset : (c.advance b).offset = c.offset + between.length + 1 := by
      simp [hpasses.offset_eq, Nat.add_assoc]
    have htokens : c.tokens = c.passed.reverse ++ between ++
        (c.advance b).current :: (c.advance b).rest := by
      simp [tokens, hpasses.rest]
    have hpassed : c.passed.reverse.length = c.offset := List.length_reverse
    constructor
    · have hstands := stands_of_tokens htokens
      rw [List.length_append, hpassed, ← hoffset] at hstands
      exact ⟨⟨_, hstands, hstays⟩, by omega⟩
    · rintro n ⟨⟨t, hstands, ht⟩, hn⟩
      -- what is passed on the way is whitespace
      by_contra hlt
      have hmem := hstands.mem_of_tokens htokens (by omega) (by omega)
      rw [hskipped t hmem] at ht
      cases ht
  · exact absurd hrest (rest_ne_nil h)

/-- Nothing moves past the end of the sequence. -/
theorem advance_of_end (h : c.offset = c.length) (b : Bool) : c.advance b = c := by
  obtain ⟨passed, rest, m⟩ := c
  cases rest with
  | nil => rfl
  | cons t rest => simp [offset, length] at h

theorem stands_peek (hends : Ends c.tokens) (b : Bool) :
    c.Stands (c.advance b).offset (c.peek b) := by
  rcases current_cases (c.advance b) with ⟨hoffset, -⟩ | hstands
  · rcases advance_cases hends b with ⟨between, hpasses, -⟩ | ⟨hrest, hstay, heof⟩
    · simp [hpasses.offset_eq] at hoffset
    · rw [hstay] at hoffset
      obtain ⟨front, last, htokens, -⟩ := hends
      have hpassed : c.passed = [] := by simpa [offset] using hoffset
      simp [tokens, hrest, hpassed] at htokens
  · rwa [Stands, tokens_advance] at hstands

/-! ## Steps back -/

theorem takeBack_cases (skipped : Token → Bool) (passed rest : List Token) :
    (passed = [] ∧ takeBack skipped passed rest = ([], rest)) ∨
      ∃ u between kept, passed = u :: (between ++ kept) ∧ (∀ x ∈ between, skipped x) ∧
        (∀ p ∈ kept.head?, skipped p = false) ∧
        takeBack skipped passed rest = (kept, between.reverse ++ u :: rest) := by
  induction passed generalizing rest with
  | nil => exact .inl ⟨rfl, rfl⟩
  | cons u passed ih =>
    right
    cases passed with
    | nil => exact ⟨u, [], [], rfl, by simp, by simp, rfl⟩
    | cons p passed =>
      by_cases hp : skipped p
      · rcases ih (u :: rest) with ⟨hnil, -⟩ | ⟨u', between, kept, heq, hbetween, hkept, hback⟩
        · cases hnil
        · obtain ⟨rfl, rfl⟩ := List.cons_eq_cons.1 heq
          refine ⟨u, p :: between, kept, rfl, ?_, hkept, ?_⟩
          · simpa [hp] using hbetween
          · rw [takeBack, if_pos hp, hback]
            simp
      · refine ⟨u, [], p :: passed, rfl, by simp, by simpa using hp, ?_⟩
        rw [takeBack, if_neg hp]
        rfl

theorem retreat_cases (c : Cursor) (b : Bool) :
    (c.passed = [] ∧ c.retreat b = c) ∨
      ∃ u between, (∀ x ∈ between, c.skipped b x) ∧
        (∀ p ∈ (c.retreat b).passed.head?, c.skipped b p = false) ∧
        c.passed = u :: (between ++ (c.retreat b).passed) ∧
        (c.retreat b).rest = between.reverse ++ u :: c.rest := by
  obtain ⟨passed, rest, m⟩ := c
  rcases takeBack_cases (skipped ⟨passed, rest, m⟩ b) passed rest with
    ⟨rfl, hback⟩ | ⟨u, between, kept, hpassed, hbetween, hkept, hback⟩
  · exact .inl ⟨rfl, rfl⟩
  · have hretreat : retreat ⟨passed, rest, m⟩ b = ⟨kept, between.reverse ++ u :: rest, m⟩ := by
      simp [retreat, hback]
    rw [hretreat]
    exact .inr ⟨u, between, hbetween, hkept, hpassed, rfl⟩

@[simp] theorem lineBreaksCount_retreat (c : Cursor) (b : Bool) :
    (c.retreat b).lineBreaksCount = c.lineBreaksCount := rfl

@[simp] theorem tokens_retreat (c : Cursor) (b : Bool) : (c.retreat b).tokens = c.tokens := by
  rcases retreat_cases c b with ⟨-, hstay⟩ | ⟨u, between, -, -, hpassed, hrest⟩
  · rw [hstay]
  · simp [tokens, hpassed, hrest]

/-- A step back leads to the last place before where it may end, or to the start. -/
theorem retreat_isGreatest (c : Cursor) (b : Bool) :
    IsGreatest (insert 0 {n | c.Stops b n ∧ n < c.offset}) (c.retreat b).offset := by
  rcases retreat_cases c b with ⟨hnil, hstay⟩ | ⟨u, between, hbetween, hkept, hpassed, -⟩
  · have hoffset : c.offset = 0 := by simp [offset, hnil]
    rw [hstay, hoffset]
    exact ⟨.inl rfl, by simp [upperBounds]⟩
  have htokens : c.tokens = (c.retreat b).passed.reverse ++ between.reverse ++ u :: c.rest := by
    simp [tokens, hpassed]
  have hoffset : c.offset = between.reverse.length + (c.retreat b).offset + 1 := by
    simp [offset, hpassed]
  have hback : (c.retreat b).passed.reverse.length = (c.retreat b).offset := List.length_reverse
  constructor
  · cases hback : (c.retreat b).passed with
    | nil => exact .inl (by simp [offset, hback])
    | cons p before =>
      have hsplit : c.tokens = before.reverse ++ p :: (between.reverse ++ u :: c.rest) := by
        simp [htokens, hback]
      have hstands : c.Stands (c.retreat b).offset p := by
        simpa [offset, hback] using stands_of_tokens hsplit
      exact .inr ⟨⟨p, hstands, hkept p (by simp [hback])⟩, by omega⟩
  · rintro n (rfl | ⟨⟨t, hstands, ht⟩, hn⟩)
    · exact Nat.zero_le _
    · by_contra hlt
      have hmem := hstands.mem_of_tokens htokens (by omega) (by omega)
      rw [hbetween t (List.mem_reverse.1 hmem)] at ht
      cases ht

/-! ## There and back -/

/-- The steps of cursors over one sequence, with one setting of line breaks, end at the same
places. -/
theorem stops_congr (htokens : c.tokens = d.tokens)
    (hbreaks : c.lineBreaksCount = d.lineBreaksCount) : c.Stops b n ↔ d.Stops b n := by
  simp [Stops, Stands, skipped, skips, htokens, hbreaks]

/-- From the start and from every place where a step may end, a step back undoes a step forward. -/
theorem retreat_advance (hends : Ends c.tokens) (hstops : c.offset = 0 ∨ c.Stops b c.offset)
    (h : c.offset < c.length) : (c.advance b).retreat b = c := by
  obtain ⟨⟨-, hahead⟩, hleast⟩ := advance_isLeast (b := b) hends h
  have hback := retreat_isGreatest (c.advance b) b
  simp only [stops_congr (tokens_advance c b) (lineBreaksCount_advance c b)] at hback
  have hhere : IsGreatest (insert 0 {n | c.Stops b n ∧ n < (c.advance b).offset}) c.offset := by
    refine ⟨hstops.imp_right fun hstops => ⟨hstops, hahead⟩, ?_⟩
    rintro n (rfl | ⟨hn, hbefore⟩)
    · exact Nat.zero_le _
    · by_contra hlt
      exact absurd (hleast ⟨hn, Nat.lt_of_not_le hlt⟩) (Nat.not_le.2 hbefore)
  exact eq_of_offset_eq (by simp) (hback.unique hhere) rfl

/-- From every place where a step may end, a step forward undoes a step back. -/
theorem advance_retreat (hends : Ends c.tokens) (hstops : c.Stops b c.offset) :
    (c.retreat b).advance b = c := by
  have hback := retreat_isGreatest c b
  obtain ⟨t, ⟨hpos, -⟩, -⟩ := id hstops
  have hbehind : (c.retreat b).offset < c.offset := by
    rcases hback.1 with hzero | ⟨-, hlt⟩
    · rwa [hzero]
    · exact hlt
  have hlength : (c.retreat b).offset < (c.retreat b).length := by
    have hle := c.offset_le_length
    rw [length_eq, tokens_retreat]
    omega
  have hforth := advance_isLeast (c := c.retreat b) (b := b) (by simpa using hends) hlength
  simp only [stops_congr (tokens_retreat c b) (lineBreaksCount_retreat c b)] at hforth
  have hhere : IsLeast {n | c.Stops b n ∧ (c.retreat b).offset < n} c.offset := by
    refine ⟨⟨hstops, hbehind⟩, ?_⟩
    rintro n ⟨hn, hafter⟩
    by_contra hlt
    exact absurd (hback.2 (.inr ⟨hn, Nat.lt_of_not_le hlt⟩)) (Nat.not_le.2 hafter)
  exact eq_of_offset_eq (by simp) (hforth.unique hhere) rfl

/-! ## Steps up to a token -/

theorem passUntil_append_of_skipped {wanted skipped : Token → Bool} {ts : List Token}
    (h : ∀ t ∈ ts, skipped t) (passed us : List Token) :
    passUntil wanted skipped passed (ts ++ us) =
      passUntil wanted skipped (ts.reverse ++ passed) us := by
  induction ts generalizing passed with
  | nil => rfl
  | cons t ts ih =>
    rw [List.cons_append, passUntil, if_pos (h t (by simp)),
      ih fun u hu => h u (List.mem_cons_of_mem t hu)]
    simp

/-- What a search for a token of a kind ends with: such a token, or the end of the file. -/
def endsSearch (kind : TokenKind) (t : Token) : Bool := t.kind == kind || t.isEndOfFile

/-- Where the next token does not end a search, there is one. -/
theorem rest_ne_nil_of_not_endsSearch (hends : Ends c.tokens) {kind : TokenKind}
    (h : ¬endsSearch kind (c.advance b).current) : c.rest ≠ [] := by
  intro hrest
  rcases advance_cases hends b with ⟨between, hpasses, -⟩ | ⟨-, hstay, heof⟩
  · simp [hpasses.rest] at hrest
  · rw [hstay] at h
    simp [endsSearch, heof] at h

/-- A search takes one step, and goes on unless it has found what ends it. -/
theorem advanceUntil_eq (hends : Ends c.tokens) (kind : TokenKind) (b : Bool) :
    c.advanceUntil kind b =
      if endsSearch kind (c.advance b).current then (c.advance b, 0)
      else
        let found := (c.advance b).advanceUntil kind b
        (found.1, found.2 + 1) := by
  rcases advance_cases hends b with ⟨between, hpasses, hskipped, hstays⟩ | ⟨hrest, hstay, heof⟩
  · have hpassed : (c.advance b).passed =
        (c.advance b).current :: (between.reverse ++ c.passed) := by
      simpa using hpasses.passed
    have hrest : c.rest = between ++ (c.advance b).current :: (c.advance b).rest := by
      simpa using hpasses.rest
    rw [advanceUntil, hrest, passUntil_append_of_skipped hskipped, passUntil, hstays, ← hpassed,
      if_neg Bool.false_ne_true]
    by_cases hfound : endsSearch kind (c.advance b).current
    · rw [if_pos hfound]
      unfold endsSearch at hfound
      rw [if_pos hfound]
      rfl
    · rw [if_neg hfound]
      unfold endsSearch at hfound
      rw [if_neg hfound]
      rfl
  · have hfound : endsSearch kind c.current := by simp [endsSearch, heof]
    rw [hstay, if_pos hfound, advanceUntil, hrest, passUntil]
    simp [← hrest]

/-- **A search stops at the first token that ends it**, step by step, and counts those before. -/
theorem advanceUntil_spec (hends : Ends c.tokens) (kind : TokenKind) (b : Bool) :
    let found := c.advanceUntil kind b
    found.1 = (advance · b)^[found.2 + 1] c ∧ endsSearch kind found.1.current ∧
      ∀ i, 0 < i → i ≤ found.2 → endsSearch kind ((advance · b)^[i] c).current = false := by
  intro found
  induction hlength : c.rest.length using Nat.strong_induction_on generalizing c found with
  | _ length ih =>
  subst hlength
  by_cases hfound : endsSearch kind (c.advance b).current
  · have heq : found = (c.advance b, 0) := (advanceUntil_eq hends kind b).trans (if_pos hfound)
    rw [heq]
    exact ⟨rfl, hfound, fun i hi hle => absurd hi (Nat.not_lt.2 hle)⟩
  · have hmoves := rest_ne_nil_of_not_endsSearch hends hfound
    obtain ⟨hplace, hends', hbefore⟩ :=
      ih _ (length_rest_advance_lt c b hmoves) (c := c.advance b) (by simpa using hends) rfl
    have heq : found = (((c.advance b).advanceUntil kind b).1,
        ((c.advance b).advanceUntil kind b).2 + 1) :=
      (advanceUntil_eq hends kind b).trans (if_neg hfound)
    rw [heq]
    refine ⟨hplace, hends', fun i hi hle => ?_⟩
    cases i with
    | zero => cases hi
    | succ i =>
      rw [Function.iterate_succ_apply]
      cases i with
      | zero => simpa using hfound
      | succ i => exact hbefore (i + 1) (Nat.succ_pos i) (Nat.le_of_succ_le_succ hle)

/-! ## Moves -/

/-- What can be done with a cursor; a parser reads from where it stands. -/
inductive Move where
  | advance (skipWhitespace : Bool)
  | retreat (skipWhitespace : Bool)
  | advanceUntil (kind : TokenKind) (skipWhitespace : Bool)
  | setLineBreaks (count : Bool)
  | parse {α : Type} (p : Parser Unit α)

/-- The cursor after a move. -/
def Move.apply (c : Cursor) : Move → Cursor
  | advance b => c.advance b
  | retreat b => c.retreat b
  | advanceUntil kind b => (c.advanceUntil kind b).1
  | setLineBreaks count => { c with lineBreaksCount := count }
  | parse p => (p.run ⟨c, .empty, [], ()⟩).2.cursor

/-- The cursor after moves, one after another. -/
def moved (c : Cursor) (moves : List Move) : Cursor := moves.foldl Move.apply c

theorem tokens_iterate_advance (c : Cursor) (b : Bool) (n : Nat) :
    ((advance · b)^[n] c).tokens = c.tokens := by
  induction n with
  | zero => rfl
  | succ n ih => rw [Function.iterate_succ_apply', tokens_advance, ih]

/-- No move changes the sequence. -/
theorem Move.tokens_apply (m : Move) (hends : Ends c.tokens) : (m.apply c).tokens = c.tokens := by
  cases m with
  | advance b => exact tokens_advance c b
  | retreat b => exact tokens_retreat c b
  | advanceUntil kind b =>
    rw [apply, (advanceUntil_spec hends kind b).1]
    exact tokens_iterate_advance c b _
  | setLineBreaks count => rfl
  | parse p => exact (p.onward ⟨c, .empty, [], ()⟩).leads.tokens_eq

theorem tokens_moved (moves : List Move) (hends : Ends c.tokens) :
    (c.moved moves).tokens = c.tokens := by
  induction moves generalizing c with
  | nil => rfl
  | cons m moves ih =>
    have hm := m.tokens_apply hends
    exact (ih (by rwa [hm])).trans hm

/-- **A cursor moves between the places where its steps may end.** Wherever any moves have led it
from the start of a sequence,
- the sequence is the one it was made of, closed by an end of the file, and the cursor stands in
  it: before the first token, or behind the current one;
- a step forward leads to the next place where it may end, or stays at the end of the sequence; a
  step back leads to the one before, or to the start; looking ahead shows the token a step forward
  leads to;
- a search takes steps up to the first token of its kind or the end of the file, and counts those
  it has met before;
- from a place where a step may end, and from the start, each of the two steps undoes the other. -/
theorem moves_between_stops (tokens : List Token) (moves : List Move) (b : Bool) :
    let c := (ofTokens tokens).moved moves
    (c.tokens = closed tokens ∧ Ends c.tokens ∧ c.offset ≤ c.length ∧
      (c.offset = 0 ∧ c.current = Token.beforeFirst ∨ c.Stands c.offset c.current)) ∧
    (c.offset < c.length → IsLeast {n | c.Stops b n ∧ c.offset < n} (c.advance b).offset) ∧
    (c.offset = c.length → c.advance b = c) ∧
    IsGreatest (insert 0 {n | c.Stops b n ∧ n < c.offset}) (c.retreat b).offset ∧
    c.Stands (c.advance b).offset (c.peek b) ∧
    (∀ kind, let found := c.advanceUntil kind b
      found.1 = (advance · b)^[found.2 + 1] c ∧ endsSearch kind found.1.current ∧
        ∀ i, 0 < i → i ≤ found.2 → endsSearch kind ((advance · b)^[i] c).current = false) ∧
    (c.offset = 0 ∨ c.Stops b c.offset → c.offset < c.length → (c.advance b).retreat b = c) ∧
    (c.Stops b c.offset → (c.retreat b).advance b = c) := by
  intro c
  have htokens : c.tokens = closed tokens := tokens_moved moves (ends_ofTokens tokens)
  have hends : Ends c.tokens := by
    rw [htokens]
    exact ends_ofTokens tokens
  have hwithin : c.offset ≤ c.length := by
    rw [length_eq]
    exact c.offset_le_length
  exact ⟨⟨htokens, hends, hwithin, current_cases c⟩, advance_isLeast hends,
    fun h => advance_of_end h b, retreat_isGreatest c b, stands_peek hends b,
    fun kind => advanceUntil_spec hends kind b, retreat_advance hends, advance_retreat hends⟩

end MaterialScript.Cursor
