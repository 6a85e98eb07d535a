/-
What parsers read.

`Reads m p L`: when `p` succeeds with `a`, under the setting `m` of line
breaks, the tokens it has passed, whitespace left out, are in `L a`. The rules
follow the operations of `Parser.Basic`; the end of the file must stand last
(`Ends`), so that every step leads to a token. A parser that passes no braces
is `ReadsPlain`.
-/
import Mathlib.Data.List.Basic
import MaterialScript.Grammar.Attribute
import MaterialScript.Proofs.Braces

namespace MaterialScript

/-- The end of the file stands last. -/
def Ends (tokens : List Token) : Prop :=
  ∃ front last, tokens = front ++ [last] ∧ last.isEndOfFile

/-- The end of the file stands last and nowhere else. -/
def EndsOnce (tokens : List Token) : Prop :=
  ∃ front last, tokens = front ++ [last] ∧ last.isEndOfFile ∧ ∀ t ∈ front, t.isEndOfFile = false

theorem EndsOnce.ends {tokens : List Token} (h : EndsOnce tokens) : Ends tokens := by
  obtain ⟨front, last, htokens, hlast, -⟩ := h
  exact ⟨front, last, htokens, hlast⟩

theorem EndsOnce.not_isEndOfFile {ts us : List Token} (h : EndsOnce (ts ++ us)) (hus : us ≠ []) :
    ∀ t ∈ ts, t.isEndOfFile = false := by
  obtain ⟨front, last, heq, -, hfront⟩ := h
  rw [← List.dropLast_append_getLast hus, ← List.append_assoc] at heq
  obtain ⟨rfl, -⟩ := List.append_inj' heq rfl
  exact fun t ht => hfront t (List.mem_append_left _ ht)

/-- The tokens that are not whitespace where line breaks count, or where they do not. -/
def visible (lineBreaksCount : Bool) (ts : List Token) : List Token :=
  ts.filter fun t => !Cursor.skipsWhen lineBreaksCount t

@[simp] theorem visible_nil (m : Bool) : visible m [] = [] := rfl

@[simp] theorem visible_append (m : Bool) (ts us : List Token) :
    visible m (ts ++ us) = visible m ts ++ visible m us := List.filter_append ..

theorem visible_cons {m : Bool} {t : Token} (h : Cursor.skipsWhen m t = false) (ts : List Token) :
    visible m (t :: ts) = t :: visible m ts := by
  simp [visible, h]

theorem visible_singleton {m : Bool} {t : Token} (h : Cursor.skipsWhen m t = false) :
    visible m [t] = [t] := visible_cons h []

theorem visible_cons_of_isSymbol {m : Bool} {t : Token} {symbol : Symbol} (h : t.isSymbol symbol)
    (ts : List Token) : visible m (t :: ts) = t :: visible m ts := by
  have hkind : t.kind = .symbol symbol := by simpa [Token.isSymbol] using h
  exact visible_cons (by simp [Cursor.skipsWhen, hkind]) ts

theorem visible_of_isSymbol {m : Bool} {t : Token} {symbol : Symbol} (h : t.isSymbol symbol) :
    visible m [t] = [t] := visible_cons_of_isSymbol h []

theorem visible_of_isName {m : Bool} {t : Token} (h : t.kind = .name) : visible m [t] = [t] :=
  visible_singleton (by simp [Cursor.skipsWhen, h])

theorem visible_of_skipped {m : Bool} {ts : List Token} (h : ∀ t ∈ ts, Cursor.skipsWhen m t) :
    visible m ts = [] := by
  simpa [visible] using h

/-- Nothing that is whitespace where line breaks count is seen where they do not. -/
theorem visible_false_visible_true (ts : List Token) :
    visible false (visible true ts) = visible false ts := by
  rw [visible, visible, List.filter_filter, visible]
  congr 1
  funext t
  cases t with
  | mk kind text position => cases kind <;> rfl

theorem isBrace_of_not_visible {m : Bool} {t : Token} (h : (!Cursor.skipsWhen m t) = false) :
    t.isBrace = false :=
  Token.isBrace_of_skipsWhen (by simpa using h)

@[simp] theorem net_visible (m : Bool) (ts : List Token) :
    Braces.net (visible m ts) = Braces.net ts :=
  Braces.net_filter (fun _ => isBrace_of_not_visible) ts

theorem balanced_of_visible {m : Bool} {ts : List Token} (h : Braces.Balanced (visible m ts)) :
    Braces.Balanced ts :=
  .of_filter (fun _ => isBrace_of_not_visible) h

theorem sinks_of_visible {m : Bool} {ts : List Token} (h : Braces.Sinks (visible m ts)) :
    Braces.Sinks ts :=
  h.imp balanced_of_visible fun hneg => by rwa [net_visible] at hneg

/-- Where line breaks do not count, whitespace of every kind is skipped. -/
theorem Cursor.skipsWhen_false (t : Token) : skipsWhen false t = t.kind.isWhitespace := by
  rcases t with ⟨kind, text, position⟩
  cases kind <;> rfl

theorem Token.isWhitespace_of_skipsWhen {m : Bool} {t : Token} (h : Cursor.skipsWhen m t) :
    t.kind.isWhitespace := by
  unfold Cursor.skipsWhen at h
  split at h <;> simp_all [TokenKind.isWhitespace]

namespace Cursor

theorem not_skipsWhen_of_isEndOfFile {m : Bool} {t : Token} (h : t.isEndOfFile) :
    skipsWhen m t = false := by
  have hkind : t.kind = .endOfFile := by simpa [Token.isEndOfFile] using h
  simp [skipsWhen, hkind]

theorem Passes.passed_reverse {c d : Cursor} {ts : List Token} (h : c.Passes ts d) :
    d.passed.reverse = c.passed.reverse ++ ts := by
  rw [h.passed, List.reverse_append, List.reverse_reverse]

/-- Only one stretch of tokens lies between two cursors. -/
theorem Passes.tokens_unique {c d : Cursor} {ts us : List Token} (h : c.Passes ts d)
    (h' : c.Passes us d) : ts = us :=
  List.append_cancel_right (h.rest.symm.trans h'.rest)

theorem Passes.ends {c d : Cursor} {ts : List Token} (h : c.Passes ts d) (hends : Ends c.tokens) :
    Ends d.tokens := by
  rw [h.tokens_eq]
  exact hends

theorem Passes.endsOnce {c d : Cursor} {ts : List Token} (h : c.Passes ts d)
    (hends : EndsOnce c.tokens) : EndsOnce d.tokens := by
  rw [h.tokens_eq]
  exact hends

theorem passOver_cases (skipped : Token → Bool) (passed rest : List Token) :
    (∃ between t, rest = between ++ t :: (passOver skipped passed rest).2 ∧
      (passOver skipped passed rest).1 = t :: (between.reverse ++ passed) ∧
      (∀ x ∈ between, skipped x) ∧ skipped t = false) ∨ ∀ x ∈ rest, skipped x := by
  induction rest generalizing passed with
  | nil => exact .inr (by simp)
  | cons t rest ih =>
    cases ht : skipped t with
    | false =>
      refine .inl ⟨[], t, ?_, ?_, by simp, ht⟩
      · simp [passOver, ht]
      · simp [passOver, ht]
    | true =>
      have hstep : passOver skipped passed (t :: rest) = passOver skipped (t :: passed) rest := by
        rw [passOver, if_pos ht]
      rcases ih (t :: passed) with ⟨between, u, hrest, hpassed, hbetween, hu⟩ | hall
      · refine .inl ⟨t :: between, u, ?_, ?_, ?_, hu⟩
        · rw [hstep, List.cons_append, ← hrest]
        · rw [hstep, hpassed]
          simp
        · simpa [ht] using hbetween
      · exact .inr (by simpa [ht] using hall)

/-- A step forward passes whitespace and the token it leads to, or stays at the end of the file. -/
theorem advance_cases {c : Cursor} (h : Ends c.tokens) (b : Bool) :
    (∃ between, c.Passes (between ++ [(c.advance b).current]) (c.advance b) ∧
      (∀ x ∈ between, c.skipped b x) ∧ c.skipped b (c.advance b).current = false) ∨
      (c.rest = [] ∧ c.advance b = c ∧ c.current.isEndOfFile) := by
  obtain ⟨front, last, htokens, hlast⟩ := h
  by_cases hrest : c.rest = []
  · refine .inr ⟨hrest, ?_, ?_⟩
    · obtain ⟨passed, rest, count⟩ := c
      cases hrest
      rfl
    · rw [tokens, hrest, List.append_nil] at htokens
      have hpassed : c.passed = last :: front.reverse := by
        rw [← List.reverse_reverse c.passed, htokens, List.reverse_append]
        rfl
      simpa [current, hpassed] using hlast
  · left
    rcases passOver_cases (c.skipped b) c.passed c.rest with
      ⟨between, t, hr, hp, hbetween, ht⟩ | hall
    · have hcurrent : (c.advance b).current = t := by simp [advance, current, hp]
      refine ⟨between, ⟨?_, ?_⟩, hbetween, by rw [hcurrent]; exact ht⟩
      · rw [hcurrent, List.append_assoc]
        exact hr
      · rw [hcurrent, List.reverse_append]
        exact hp
    · -- the end of the file is among what is left, and is not whitespace
      have hmem : last ∈ c.rest := by
        have hl : c.tokens.getLast? = some last := by simp [htokens]
        rw [tokens, List.getLast?_append_of_ne_nil _ hrest] at hl
        exact List.mem_of_getLast? hl
      have := hall last hmem
      rw [skipped, skips, not_skipsWhen_of_isEndOfFile hlast] at this
      simp at this

theorem passOver_append_of_skipped {skipped : Token → Bool} {ts : List Token}
    (h : ∀ t ∈ ts, skipped t) (passed us : List Token) :
    passOver skipped passed (ts ++ us) = passOver skipped (ts.reverse ++ passed) us := by
  induction ts generalizing passed with
  | nil => rfl
  | cons t ts ih =>
    rw [List.cons_append, passOver, if_pos (h t (by simp)),
      ih fun u hu => h u (List.mem_cons_of_mem t hu)]
    simp

theorem exists_passed {c : Cursor} (h : c.current.kind ≠ .unknown) :
    ∃ before, c.passed = c.current :: before := by
  cases hpassed : c.passed with
  | nil => simp [current, hpassed, Token.beforeFirst, Token.bare] at h
  | cons t before => exact ⟨before, by simp [current, hpassed]⟩

/-- Nothing is left after the end of the file. -/
theorem rest_of_isEndOfFile {c : Cursor} (hends : EndsOnce c.tokens) (h : c.current.isEndOfFile) :
    c.rest = [] := by
  by_contra hmore
  have hkind : c.current.kind = .endOfFile := by simpa [Token.isEndOfFile] using h
  obtain ⟨before, hpassed⟩ := exists_passed (c := c) (by simp [hkind])
  have hfront := hends.not_isEndOfFile hmore c.current (by simp [hpassed])
  rw [h] at hfront
  cases hfront

theorem current_of_rest_nil {c : Cursor} (h : Ends c.tokens) (hrest : c.rest = []) :
    c.current.isEndOfFile := by
  rcases advance_cases h true with ⟨between, hpasses, -⟩ | ⟨-, -, heof⟩
  · have hleft := hpasses.rest
    simp [hrest] at hleft
  · exact heof

/-- A cursor closes its sequence with the end of the file. -/
theorem ends_ofTokens (tokens : List Token) : Ends (ofTokens tokens).tokens := by
  change Ends (closed tokens)
  unfold closed
  split
  · exact ⟨[], _, rfl, rfl⟩
  · rename_i t hlast
    split
    · exact ⟨tokens.dropLast, t, (List.dropLast_append_getLast? t hlast).symm, ‹_›⟩
    · exact ⟨tokens, _, rfl, rfl⟩

theorem rest_ofTokens {tokens : List Token} (h : EndsOnce tokens) :
    (ofTokens tokens).rest = tokens := by
  obtain ⟨front, last, rfl, hlast, -⟩ := h
  simp [ofTokens, closed, hlast]

end Cursor

namespace Parser

variable {ρ α β γ : Type} {m : Bool}

theorem State.Onward.ends {s t : State ρ} (h : s.Onward t) (hends : Ends s.cursor.tokens) :
    Ends t.cursor.tokens := by
  rw [h.leads.tokens_eq]
  exact hends

theorem State.Onward.endsOnce {s t : State ρ} (h : s.Onward t) (hends : EndsOnce s.cursor.tokens) :
    EndsOnce t.cursor.tokens := by
  rw [h.leads.tokens_eq]
  exact hends

/-- When `p` succeeds with `a`, the tokens it has passed are in `L a`, whitespace left out. -/
def Reads (m : Bool) (p : Parser ρ α) (L : α → List Token → Prop) : Prop :=
  ∀ ⦃s : State ρ⦄ ⦃a : α⦄ ⦃u : State ρ⦄, Ends s.cursor.tokens → s.cursor.lineBreaksCount = m →
    p.run s = (.ok a, u) → ∃ ts, s.cursor.Passes ts u.cursor ∧ L a (visible m ts)

/-- `p` does not succeed. -/
def Refuses (p : Parser ρ α) : Prop := ∀ ⦃s : State ρ⦄ ⦃a : α⦄ ⦃u : State ρ⦄, p.run s ≠ (.ok a, u)

/-- `p` does not move. -/
def Stays (p : Parser ρ α) : Prop := ∀ s, (p.run s).2.cursor = s.cursor

/-! ## Rules -/

theorem Stays.cursor_eq {p : Parser ρ α} (hp : Stays p) {s u : State ρ}
    {answer : Except ScriptError α} (h : p.run s = (answer, u)) : u.cursor = s.cursor := by
  have hcursor := hp s
  rwa [h] at hcursor

theorem Stays.bind {p : Parser ρ α} {f : α → Parser ρ β} (hp : Stays p) (hf : ∀ a, Stays (f a)) :
    Stays (p >>= f) := by
  intro s
  have hcursor := hp s
  rw [run_bind]
  split
  · rename_i a t h
    rw [h] at hcursor
    exact (hf a t).trans hcursor
  · rename_i e t h
    rw [h] at hcursor
    exact hcursor

theorem Stays.failIf (b : Bool) (t : Token) (fault : Fault) :
    Stays (failIf b t fault : Parser ρ Unit) := by
  intro s
  unfold Parser.failIf
  split <;> rfl

theorem Stays.noteIf (b : Bool) (notices : Journal) : Stays (noteIf b notices : Parser ρ Unit) := by
  intro s
  unfold Parser.noteIf
  split <;> rfl

theorem Refuses.fail (e : ScriptError) : Refuses (fail e : Parser ρ α) := by
  intro s a u h
  cases h

theorem Refuses.bind {p : Parser ρ α} (h : Refuses p) (f : α → Parser ρ β) : Refuses (p >>= f) := by
  intro s b u hrun
  obtain ⟨a, t, hp, -⟩ := run_bind_eq_ok hrun
  exact h hp

theorem Refuses.failAt (t : Token) (fault : Fault) : Refuses (failAt t fault : Parser ρ α) :=
  .fail _

theorem Refuses.unexpected (t : Token) : Refuses (unexpected t : Parser ρ α) := .fail _

theorem Refuses.unexpectedName (t : Token) : Refuses (unexpectedName t : Parser ρ α) := .fail _

/-! ## Steps -/

/-- Whitespace before the next token makes no difference to a loop. -/
theorem runOverTokens_skip {body : α → Token → Parser ρ (Progress α β)}
    {finish : α → Token → Parser ρ β} {a : α} {s : State ρ} {t : Token} {rest : List Token}
    (hrest : s.cursor.rest = t :: rest) (hmore : rest ≠ []) (hskip : s.cursor.skips t) :
    runOverTokens body finish a s = runOverTokens body finish a (s.advance false) := by
  obtain ⟨⟨passed, _, m⟩, bindings, journal, scene⟩ := s
  cases hrest
  have hadvance : State.advance ⟨⟨passed, t :: rest, m⟩, bindings, journal, scene⟩ true =
      (State.advance ⟨⟨passed, t :: rest, m⟩, bindings, journal, scene⟩ false).advance true := by
    have hpass : ∀ (skipped : Token → Bool) rest', skipped t →
        Cursor.passOver skipped passed (t :: rest') =
          Cursor.passOver skipped (t :: passed) rest' := by
      intro skipped rest' h
      rw [Cursor.passOver, if_pos h]
    simp only [State.advance, Cursor.advance]
    rw [hpass _ _ (by simpa [Cursor.skipped] using hskip)]
    rfl
  refine runOverTokens_congr hadvance ?_
  simp only [State.AtEnd, hadvance]
  simp [State.advance, Cursor.advance, Cursor.passOver, Cursor.skipped, hmore]

theorem passes_advance_false {s : State ρ} {t : Token} {rest : List Token}
    (hrest : s.cursor.rest = t :: rest) : s.cursor.Passes [t] (s.advance false).cursor := by
  obtain ⟨⟨passed, _, m⟩, bindings, journal, scene⟩ := s
  cases hrest
  exact ⟨rfl, rfl⟩

/-- The token behind whitespace is the next one read. -/
theorem advance_of_gap {s : State ρ} {gap after : List Token} {t : Token}
    (hrest : s.cursor.rest = gap ++ t :: after) (hgap : ∀ x ∈ gap, s.cursor.skips x)
    (hskip : s.cursor.skips t = false) :
    (s.advance true).cursor.current = t ∧ s.cursor.Passes (gap ++ [t]) (s.advance true).cursor := by
  obtain ⟨⟨passed, rest, m⟩, bindings, journal, scene⟩ := s
  have hrest : rest = gap ++ t :: after := hrest
  subst hrest
  have hpass : ∀ (skipped : Token → Bool), (∀ x ∈ gap, skipped x) → skipped t = false →
      Cursor.passOver skipped passed (gap ++ t :: after) =
        (t :: (gap.reverse ++ passed), after) := by
    intro skipped hgap h
    rw [Cursor.passOver_append_of_skipped hgap]
    simp [Cursor.passOver, h]
  have hadvance : State.advance ⟨⟨passed, gap ++ t :: after, m⟩, bindings, journal, scene⟩ true =
      ⟨⟨t :: (gap.reverse ++ passed), after, m⟩, bindings, journal, scene⟩ := by
    simp only [State.advance, Cursor.advance]
    rw [hpass _ (by simpa [Cursor.skipped] using hgap) (by simpa [Cursor.skipped] using hskip)]
  rw [hadvance]
  exact ⟨rfl, by simp, by simp⟩

/-- Where a token stands next that is not whitespace, it is the next one read. -/
theorem advance_of_rest {s : State ρ} {t : Token} {rest : List Token}
    (hrest : s.cursor.rest = t :: rest) (hskip : s.cursor.skips t = false) :
    (s.advance true).cursor.current = t ∧ s.cursor.Passes [t] (s.advance true).cursor :=
  @advance_of_gap ρ s [] rest t hrest (by simp) hskip

namespace Reads

variable {p : Parser ρ α} {f : α → Parser ρ β} {L L' : α → List Token → Prop}
  {M : β → List Token → Prop}

theorem of_refuses (h : Refuses p) : Reads m p L := fun _ _ _ _ _ hrun => absurd hrun (@h _ _ _)

theorem fail (e : ScriptError) : Reads m (fail e : Parser ρ α) L := of_refuses (.fail e)

theorem failAt (t : Token) (fault : Fault) : Reads m (failAt t fault : Parser ρ α) L := fail _

theorem unexpected (t : Token) : Reads m (unexpected t : Parser ρ α) L := fail _

theorem unexpectedName (t : Token) : Reads m (unexpectedName t : Parser ρ α) L := fail _

theorem mono (h : Reads m p L) (himp : ∀ a vs, L a vs → L' a vs) : Reads m p L' := by
  intro s a u hends hm hrun
  obtain ⟨ts, hts, hL⟩ := h hends hm hrun
  exact ⟨ts, hts, himp a _ hL⟩

/-- What does not move reads nothing. -/
theorem stays (hstays : Stays p) (hL : ∀ a, L a []) : Reads m p L := by
  intro s a u _ _ hrun
  have hcursor := hstays.cursor_eq hrun
  exact ⟨[], .of_eq (congrArg Cursor.passed hcursor) (congrArg Cursor.rest hcursor), hL a⟩

theorem pure {a : α} (h : L a []) : Reads m (Pure.pure a : Parser ρ α) L := by
  intro s b u _ _ hrun
  cases hrun
  exact ⟨[], .refl _, h⟩

theorem bind (hp : Reads m p L)
    (hf : ∀ a, Reads m (f a) fun b vs => ∀ us, L a us → M b (us ++ vs)) :
    Reads m (p >>= f) M := by
  intro s b u hends hm hrun
  obtain ⟨a, t, hpt, hft⟩ := run_bind_eq_ok hrun
  obtain ⟨us, hus, hL⟩ := hp hends hm hpt
  have ht := onward_of_run hpt
  obtain ⟨vs, hvs, hM⟩ := hf a (hus.ends hends) (ht.lineBreaks.trans hm) hft
  exact ⟨us ++ vs, hus.trans hvs, by rw [visible_append]; exact hM _ hL⟩

/-- A step that does not move, before `f`. -/
theorem bind_stays (hstays : Stays p) (hf : ∀ a, Reads m (f a) M) :
    Reads m (p >>= f) M :=
  bind (stays (L := fun _ vs => vs = []) hstays fun _ => rfl) fun a =>
    (hf a).mono fun b vs hM us hus => by rw [hus]; exact hM

/-- A token is read where it stands, or again where nothing follows the end of the file. -/
theorem take (b : Bool) :
    Reads m (take b : Parser ρ Token)
      (fun t vs => (vs = visible m [t] ∧ (b → vs = [t])) ∨ (vs = [] ∧ t.isEndOfFile)) := by
  rintro s t u hends rfl hrun
  cases hrun
  rcases Cursor.advance_cases hends b with ⟨between, hpasses, hbetween, ht⟩ | ⟨-, hstay, heof⟩
  · have hvisible : visible s.cursor.lineBreaksCount (between ++ [(s.cursor.advance b).current]) =
        visible s.cursor.lineBreaksCount [(s.cursor.advance b).current] := by
      rw [visible_append, visible_of_skipped fun x hx => (Bool.and_eq_true_iff.1 (hbetween x hx)).2,
        List.nil_append]
    refine ⟨_, hpasses, .inl ⟨hvisible, ?_⟩⟩
    rintro rfl
    rw [hvisible]
    exact visible_singleton ht
  · refine ⟨[], .of_eq (congrArg Cursor.passed hstay) (congrArg Cursor.rest hstay), .inr ⟨rfl, ?_⟩⟩
    change (s.cursor.advance b).current.isEndOfFile
    rw [hstay]
    exact heof

theorem withLineBreaks (h : Reads true p L)
    (hL : ∀ a ts, L a (visible true ts) → L' a (visible m ts)) :
    Reads m (withLineBreaks p) L' := by
  intro s a u hends _ hrun
  obtain ⟨⟨answer, t⟩, hp⟩ : ∃ x, p.run (s.setLineBreaks true) = x := ⟨_, rfl⟩
  simp only [Parser.withLineBreaks, hp] at hrun
  cases hrun
  obtain ⟨ts, hts, hLa⟩ := h (s := s.setLineBreaks true) hends rfl hp
  exact ⟨ts, ⟨hts.rest, hts.passed⟩, hL a ts hLa⟩

/-- A loop starts each round with one token. -/
theorem step_of_not_atEnd {s : State ρ} (hends : Ends s.cursor.tokens) (h : ¬ s.AtEnd) :
    ∃ ts, s.cursor.Passes ts (s.advance true).cursor ∧
      visible s.cursor.lineBreaksCount ts = [(s.advance true).cursor.current] ∧
      (s.advance true).cursor.current.isEndOfFile = false := by
  rw [State.AtEnd, not_or, Bool.not_eq_true] at h
  rcases Cursor.advance_cases hends true with ⟨between, hpasses, hbetween, ht⟩ | ⟨hrest, -⟩
  · refine ⟨_, hpasses, ?_, h.2⟩
    rw [visible_append, visible_of_skipped hbetween, List.nil_append]
    exact visible_singleton ht
  · exact absurd hrest h.1

/-- At the end a loop passes the end of the file, or has passed it before. -/
theorem step_of_atEnd {s : State ρ} (hends : Ends s.cursor.tokens) (h : s.AtEnd) :
    ∃ ts, s.cursor.Passes ts (s.advance true).cursor ∧
      (visible s.cursor.lineBreaksCount ts = [(s.advance true).cursor.current] ∨
        visible s.cursor.lineBreaksCount ts = []) ∧
      (s.advance true).cursor.current.isEndOfFile := by
  rcases Cursor.advance_cases hends true with
    ⟨between, hpasses, hbetween, ht⟩ | ⟨hrest, hstay, heof⟩
  · refine ⟨_, hpasses, .inl ?_, ?_⟩
    · rw [visible_append, visible_of_skipped hbetween, List.nil_append]
      exact visible_singleton ht
    · rcases h with hrest | heof
      · have := hpasses.rest
        simp [hrest] at this
      · exact heof
  · have hstay' : (s.advance true).cursor = s.cursor := hstay
    rw [hstay']
    exact ⟨[], .refl _, .inr rfl, heof⟩

/-- A loop keeps `I`, which speaks of the tokens read so far, from one round to the next. -/
theorem overTokens {body : α → Token → Parser ρ (Progress α β)} {finish : α → Token → Parser ρ β}
    {I : α → List Token → Prop} {M : β → List Token → Prop}
    (hbody : ∀ a t us, I a us → t.isEndOfFile = false → Reads m (body a t) fun r vs =>
      match r with
      | .more a' => I a' (us ++ t :: vs)
      | .done b => M b (us ++ t :: vs))
    (hfinish : ∀ a t us, I a us → t.isEndOfFile →
      Reads m (finish a t) fun b vs => M b (us ++ vs) ∧ M b (us ++ t :: vs))
    {a : α} (ha : I a []) : Reads m (overTokens body finish a) M := by
  have key : ∀ a (s : State ρ) us, I a us → Ends s.cursor.tokens →
      s.cursor.lineBreaksCount = m → ∀ b u, runOverTokens body finish a s = (.ok b, u) →
      ∃ ts, s.cursor.Passes ts u.cursor ∧ M b (us ++ visible m ts) := by
    intro a s
    induction a, s using loop_induction body with
    | atEnd a s hend =>
      rintro us hI hends rfl b u hrun
      rw [runOverTokens_atEnd hend] at hrun
      obtain ⟨ts, hts, hvisible, heof⟩ := step_of_atEnd hends hend
      obtain ⟨vs, hvs, hM, hM'⟩ :=
        hfinish a _ us hI heof (s := s.advance true) (hts.ends hends) rfl hrun
      refine ⟨ts ++ vs, hts.trans hvs, ?_⟩
      rcases hvisible with hvisible | hvisible
      · rw [visible_append, hvisible]
        exact hM'
      · rw [visible_append, hvisible]
        exact hM
    | more a s a' v hend hbodyrun ih =>
      rintro us hI hends rfl b u hrun
      rw [runOverTokens_more hend hbodyrun] at hrun
      obtain ⟨ts, hts, hvisible, heof⟩ := step_of_not_atEnd hends hend
      obtain ⟨vs, hvs, hI'⟩ :=
        hbody a _ us hI heof (s := s.advance true) (hts.ends hends) rfl hbodyrun
      have honward := onward_of_run hbodyrun
      obtain ⟨ws, hws, hM⟩ := ih _ hI' ((hts.trans hvs).ends hends)
        honward.lineBreaks b u hrun
      refine ⟨ts ++ vs ++ ws, (hts.trans hvs).trans hws, ?_⟩
      simpa [hvisible] using hM
    | done a s b' v hend hbodyrun =>
      rintro us hI hends rfl b u hrun
      rw [runOverTokens_done hend hbodyrun] at hrun
      cases hrun
      obtain ⟨ts, hts, hvisible, heof⟩ := step_of_not_atEnd hends hend
      obtain ⟨vs, hvs, hM⟩ :=
        hbody a _ us hI heof (s := s.advance true) (hts.ends hends) rfl hbodyrun
      refine ⟨ts ++ vs, hts.trans hvs, ?_⟩
      simpa [hvisible] using hM
    | error a s e v hend hbodyrun =>
      rintro us hI hends rfl b u hrun
      rw [runOverTokens_error hend hbodyrun] at hrun
      cases hrun
  intro s b u hends hm hrun
  exact key a s [] ha hends hm b u hrun

/-! ## Single tokens -/

/-- The token just read is not the end of the file. -/
theorem next : Reads m (next : Parser ρ Token)
    (fun t vs => t.isEndOfFile = false ∧ vs = [t]) := by
  refine bind (take true) fun t => ?_
  unfold unlessEnd
  split
  · exact failAt t _
  · rename_i heof
    have heof : t.isEndOfFile = false := by simpa using heof
    refine pure fun us hus => ⟨heof, ?_⟩
    rcases hus with ⟨-, hus⟩ | ⟨-, h⟩
    · rw [hus rfl]
      rfl
    · rw [h] at heof
      cases heof

theorem nextOne : Reads m (Parser.next : Parser ρ Token) fun t vs => ∀ u ∈ vs, u = t :=
  next.mono fun t vs h u hu => by
    rw [h.2] at hu
    exact List.mem_singleton.1 hu

theorem expect (symbol : Symbol) : Reads m (expect symbol : Parser ρ Unit)
    (fun _ vs => ∃ t, t.isSymbol symbol ∧ vs = [t]) := by
  refine bind next fun t => ?_
  split
  · rename_i ht
    refine pure fun us hus => ⟨t, ht, ?_⟩
    rw [hus.2]
    rfl
  · exact unexpected t

theorem variableName : Reads m (variableName : Parser ρ String)
    (fun _ vs => ∃ t, t.kind = .name ∧ vs = [t]) := by
  refine bind (take false) fun t => bind (L := fun u vs => u = t ∧ vs = []) ?_ fun u => ?_
  · unfold unlessEnd
    split
    · exact failAt t _
    · exact pure ⟨rfl, rfl⟩
  · split
    · rename_i hkind
      refine pure ?_
      rintro vs ⟨rfl, rfl⟩ us (⟨rfl, -⟩ | ⟨-, heof⟩)
      · refine ⟨u, hkind, ?_⟩
        rw [List.append_nil, List.append_nil]
        exact visible_of_isName hkind
      · simp [Token.isEndOfFile, hkind] at heof
    · exact failAt u _

/-- A symbol is read if it stands next, else nothing. -/
theorem accept (symbol : Symbol) : Reads m (accept symbol : Parser ρ Bool)
    (fun b vs => if b then ∃ t, t.isSymbol symbol ∧ vs = [t] else vs = []) := by
  intro s b u hends hm hrun
  obtain ⟨t, v, hpeek, hrun⟩ := run_bind_eq_ok hrun
  cases hpeek
  split at hrun
  · rename_i ht
    cases hrun
    obtain ⟨ts, hts, hvisible⟩ := take (ρ := ρ) true hends hm rfl
    refine ⟨ts, hts, s.cursor.peek true, ht, ?_⟩
    rcases hvisible with ⟨-, hvisible⟩ | ⟨-, heof⟩
    · exact hvisible rfl
    · have hkind : (s.cursor.peek true).kind = .symbol symbol := by simpa [Token.isSymbol] using ht
      have heof : (s.cursor.peek true).isEndOfFile := heof
      simp [Token.isEndOfFile, hkind] at heof
  · cases hrun
    exact ⟨[], .refl _, rfl⟩

end Reads

/-! ## Tokens as they stand -/

section Tokens

variable {s u : State ρ} (hends : Ends s.cursor.tokens)
include hends

/-- A loop starts each round with the token behind whitespace. -/
theorem advance_passes (h : ¬ s.AtEnd) :
    ∃ gap, s.cursor.Passes (gap ++ [(s.advance true).cursor.current]) (s.advance true).cursor ∧
      ∀ x ∈ gap, s.cursor.skips x := by
  rcases Cursor.advance_cases hends true with ⟨gap, hpasses, hgap, -⟩ | ⟨hrest, -⟩
  · exact ⟨gap, hpasses, by simpa [Cursor.skipped] using hgap⟩
  · exact absurd (.inl hrest) h

/-- The next token stands behind whitespace. -/
theorem next_passes {t : Token} (h : next.run s = (.ok t, u)) :
    ∃ gap, s.cursor.Passes (gap ++ [t]) u.cursor ∧ ∀ x ∈ gap, s.cursor.skips x := by
  obtain ⟨_, v, htake, h⟩ := run_bind_eq_ok h
  cases htake
  unfold unlessEnd at h
  split at h
  · cases h
  · rename_i hgoesOn
    cases h
    rcases Cursor.advance_cases hends true with ⟨gap, hpasses, hgap, -⟩ | ⟨-, hstay, heof⟩
    · exact ⟨gap, hpasses, by simpa [Cursor.skipped] using hgap⟩
    · rw [← hstay] at heof
      exact absurd heof hgoesOn

theorem expect_passes {symbol : Symbol} (h : (expect symbol).run s = (.ok (), u)) :
    ∃ gap t, s.cursor.Passes (gap ++ [t]) u.cursor ∧ (∀ x ∈ gap, s.cursor.skips x) ∧
      t.isSymbol symbol := by
  obtain ⟨t, v, hnext, h⟩ := run_bind_eq_ok h
  split at h
  · rename_i ht
    cases h
    obtain ⟨gap, hpasses, hgap⟩ := next_passes hends hnext
    exact ⟨gap, t, hpasses, hgap, ht⟩
  · cases h

/-- The name of a variable stands at once. -/
theorem variableName_passes {name : String} (h : variableName.run s = (.ok name, u)) :
    ∃ t, s.cursor.Passes [t] u.cursor ∧ t.kind = .name := by
  obtain ⟨_, v, htake, h⟩ := run_bind_eq_ok h
  cases htake
  obtain ⟨t, v, hgoesOn, h⟩ := run_bind_eq_ok h
  unfold unlessEnd at hgoesOn
  split at hgoesOn
  · cases hgoesOn
  rename_i hnot
  cases hgoesOn
  split at h
  · rename_i hname
    cases h
    rcases Cursor.advance_cases hends false with ⟨gap, hpasses, hgap, -⟩ | ⟨-, hstay, heof⟩
    · obtain rfl : gap = [] :=
        List.eq_nil_iff_forall_not_mem.2 (by simpa [Cursor.skipped] using hgap)
      exact ⟨_, hpasses, hname⟩
    · rw [← hstay] at heof
      exact absurd heof hnot
  · cases h

end Tokens

/-! ## Where parsers end -/

/-- When `p` succeeds, it has read a token in `Q` last. -/
def EndsOn (p : Parser ρ α) (Q : α → Token → Prop) : Prop :=
  ∀ ⦃s : State ρ⦄ ⦃a : α⦄ ⦃u : State ρ⦄, p.run s = (.ok a, u) → Q a u.cursor.current

namespace EndsOn

variable {p : Parser ρ α} {f : α → Parser ρ β} {Q : α → Token → Prop} {R : β → Token → Prop}

theorem of_refuses (h : Refuses p) : EndsOn p Q := fun _ _ _ hrun => absurd hrun (@h _ _ _)

theorem mono {Q' : α → Token → Prop} (h : EndsOn p Q) (himp : ∀ a t, Q a t → Q' a t) :
    EndsOn p Q' := fun _ a _ hrun => himp a _ (h hrun)

/-- The part after the first reads the last token. -/
theorem bind (h : ∀ a, EndsOn (f a) R) : EndsOn (p >>= f) R := by
  intro s b u hrun
  obtain ⟨a, t, -, hrun⟩ := run_bind_eq_ok hrun
  exact h a hrun

/-- The part after the first reads nothing. -/
theorem bind_stays {Q : Token → Prop} (h : EndsOn p fun _ t => Q t) (hf : ∀ a, Stays (f a)) :
    EndsOn (p >>= f) fun _ t => Q t := by
  intro s b u hrun
  obtain ⟨a, t, hp, hrun⟩ := run_bind_eq_ok hrun
  have hcursor := hf a t
  rw [hrun] at hcursor
  have hcursor : u.cursor = t.cursor := hcursor
  rw [hcursor]
  exact h hp

/-- A loop ends where its body stops. -/
theorem overTokens {body : α → Token → Parser ρ (Progress α β)} {finish : α → Token → Parser ρ β}
    (hbody : ∀ ⦃a s b u⦄, (body a s.cursor.current).run s = (.ok (.done b), u) →
      R b u.cursor.current)
    (hfinish : ∀ a t, EndsOn (finish a t) R) (a : α) : EndsOn (overTokens body finish a) R := by
  intro s b u hrun
  change runOverTokens body finish a s = _ at hrun
  induction a, s using loop_induction body with
  | atEnd a s hend =>
    rw [runOverTokens_atEnd hend] at hrun
    exact hfinish _ _ hrun
  | more a s a' v hend hstep ih =>
    rw [runOverTokens_more hend hstep] at hrun
    exact ih hrun
  | done a s b' v hend hstep =>
    rw [runOverTokens_done hend hstep] at hrun
    cases hrun
    exact hbody hstep
  | error a s e v hend hstep =>
    rw [runOverTokens_error hend hstep] at hrun
    cases hrun

theorem next : EndsOn (next : Parser ρ Token) fun t c => c = t := by
  intro s t u hrun
  obtain ⟨t', v, htake, hrun⟩ := run_bind_eq_ok hrun
  cases htake
  unfold unlessEnd at hrun
  split at hrun
  · cases hrun
  · cases hrun
    rfl

theorem expect (symbol : Symbol) :
    EndsOn (expect symbol : Parser ρ Unit) fun _ c => c.isSymbol symbol := by
  intro s b u hrun
  obtain ⟨t, v, hnext, hrun⟩ := run_bind_eq_ok hrun
  split at hrun
  · rename_i ht
    cases hrun
    rw [next hnext]
    exact ht
  · cases hrun

theorem declaredName : EndsOn (declaredName : Parser ρ Token) fun t c => c = t := by
  intro s t u hrun
  obtain ⟨t', v, hnext, hrun⟩ := run_bind_eq_ok hrun
  split at hrun
  · cases hrun
    exact next hnext
  · cases hrun

theorem termOnLine : EndsOn (termOnLine : Parser ρ Token) fun t c => c = t := by
  intro s t u hrun
  obtain ⟨t', v, hnext, hrun⟩ := run_bind_eq_ok hrun
  split at hrun
  · cases hrun
  · cases hrun
    exact next hnext

end EndsOn

/-! ## Values -/

/-- `p` passes no braces. -/
def ReadsPlain (m : Bool) (p : Parser ρ α) : Prop := Reads m p fun _ vs => Braces.Plain vs

theorem kind_of_isBrace {t : Token} (h : t.isBrace) :
    t.kind = .symbol .leftBrace ∨ t.kind = .symbol .rightBrace := by
  simpa [Token.isBrace, Token.isSymbol] using h

namespace ReadsPlain

variable {p : Parser ρ α} {f : α → Parser ρ β}

theorem pure (a : α) : ReadsPlain m (Pure.pure a : Parser ρ α) := Reads.pure .nil

theorem bind (hp : ReadsPlain m p) (hf : ∀ a, ReadsPlain m (f a)) : ReadsPlain m (p >>= f) :=
  Reads.bind hp fun a => (hf a).mono fun _ _ hvs _ hus => hus.append hvs

theorem stays (h : Stays p) : ReadsPlain m p := Reads.stays h fun _ => .nil

theorem note (notices : Journal) : ReadsPlain m (note notices : Parser ρ Unit) := stays fun _ => rfl

theorem failIf (b : Bool) (t : Token) (fault : Fault) :
    ReadsPlain m (failIf b t fault : Parser ρ Unit) := stays (.failIf b t fault)

theorem consult (f : Variables → α) : ReadsPlain m (consult f : Parser ρ α) := stays fun _ => rfl

theorem inspect (f : ρ → α) : ReadsPlain m (inspect f : Parser ρ α) := stays fun _ => rfl

theorem build (f : ρ → α × ρ) : ReadsPlain m (build f : Parser ρ α) := stays fun _ => rfl

theorem modify (f : ρ → ρ) : ReadsPlain m (modify f : Parser ρ Unit) := stays fun _ => rfl

theorem peek : ReadsPlain m (peek : Parser ρ Token) := stays fun _ => rfl

theorem withLineBreaks (h : ReadsPlain true p) : ReadsPlain m (withLineBreaks p) :=
  Reads.withLineBreaks h fun _ ts hplain t ht =>
    match hskip : Cursor.skipsWhen true t with
    | true => Token.isBrace_of_skipsWhen hskip
    | false =>
      hplain t (List.mem_filter.2 ⟨(List.mem_filter.1 ht).1, by simp [hskip]⟩)

/-- What follows a token refuses a brace. -/
theorem bind_token {p : Parser ρ Token} {f : Token → Parser ρ β}
    (hp : Reads m p fun t vs => ∀ u ∈ vs, u = t) (hf : ∀ t, ReadsPlain m (f t))
    (hbrace : ∀ t, t.isBrace → Refuses (f t)) : ReadsPlain m (p >>= f) := by
  refine Reads.bind hp fun t => ?_
  cases ht : t.isBrace with
  | true => exact Reads.of_refuses (hbrace t ht)
  | false =>
    refine (hf t).mono fun _ _ hvs us hus => .append (fun u hu => ?_) hvs
    rw [hus u hu]
    exact ht

/-- What a loop does with a token refuses a brace. -/
theorem overTokens {body : α → Token → Parser ρ (Progress α β)} {finish : α → Token → Parser ρ β}
    (hbody : ∀ a t, ReadsPlain m (body a t)) (hbrace : ∀ a t, t.isBrace → Refuses (body a t))
    (hfinish : ∀ a t, ReadsPlain m (finish a t)) (a : α) :
    ReadsPlain m (overTokens body finish a) := by
  refine Reads.overTokens (I := fun _ us => Braces.Plain us) (fun a t us hus _ => ?_)
    (fun a t us hus heof => ?_) .nil
  · cases ht : t.isBrace with
    | true => exact Reads.of_refuses (hbrace a t ht)
    | false =>
      refine (hbody a t).mono fun r vs hvs => ?_
      cases r <;> exact hus.append ((Braces.Plain.singleton ht).append hvs)
  · refine (hfinish a t).mono fun b vs hvs =>
      ⟨hus.append hvs, hus.append (.append (.singleton ?_) hvs)⟩
    exact Token.isBrace_of_endsLine (Token.endsLine_of_isEndOfFile heof)

end ReadsPlain

end Parser

end MaterialScript
