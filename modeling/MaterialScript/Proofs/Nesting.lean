/-
The bracket check accepts what is well nested, and blames the right bracket.

`Nested` says that the brackets among some tokens are closed in order, each by
its own kind. `Leaves ts stack` ties the stack of the check to the tokens it has
passed: between the open brackets everything is nested. A nested stretch leaves
the stack as it finds it (`Nested.checkAfter_append`), and what the check comes to is
told from the stack (`Leaves.outcome`). `check_blames` puts both in terms of the
token sequence alone.
-/
import MaterialScript.Brackets

namespace MaterialScript.Brackets

/-! ## Well nested brackets -/

/-- `t` is an opening bracket, the symbol `s`. -/
def Opens (t : Token) (s : Symbol) : Prop := symbol? t = some s ∧ s.opens

/-- `t` is a closing bracket, for the opening bracket `s`. -/
def Closes (t : Token) (s : Symbol) : Prop := ∃ c, symbol? t = some c ∧ c.opener? = some s

/-- An opening or a closing bracket. -/
def isBracket (t : Token) : Bool :=
  match symbol? t with
  | some s => s.opens || s.opener?.isSome
  | none => false

/-- Brackets that are closed in order, each by its own kind. -/
inductive WellNested : List Token → Prop
  | nil : WellNested []
  | pair {opening close : Token} {s : Symbol} {inside after : List Token} :
      Opens opening s → Closes close s → WellNested inside → WellNested after →
      WellNested (opening :: inside ++ close :: after)

/-- The brackets among these tokens are well nested. -/
def Nested (ts : List Token) : Prop := WellNested (ts.filter isBracket)

/-- Tokens may follow that close what is open: the sequence is the front of a nested one. -/
def Closable (ts : List Token) : Prop := ∃ more, Nested (ts ++ more)

/-- A closing bracket after which no tokens make the sequence nested. -/
structure Breaks (front : List Token) (t : Token) : Prop where
  closes : ∃ s, Closes t s
  stuck : ¬ Closable (front ++ [t])

/-- The bracket is closed in what follows: by its own kind, after a nested stretch. -/
def ClosedIn (s : Symbol) (back : List Token) : Prop :=
  ∃ inside close after, back = inside ++ close :: after ∧ Nested inside ∧ Closes close s

/-- An opening bracket that is never closed in what follows. -/
structure LeftOpen (t : Token) (back : List Token) : Prop where
  opens : ∃ s, Opens t s
  never : ∀ s, Opens t s → ¬ ClosedIn s back

/-- The bracket at fault: the first closing one after which nothing can be nested; if there is none,
the last opening one that is never closed. -/
inductive AtFault (ts : List Token) (t : Token) : Prop
  | closing {front back : List Token} : ts = front ++ t :: back → Breaks front t →
      (∀ front' t' back', ts = front' ++ t' :: back' → Breaks front' t' →
        front.length ≤ front'.length) →
      AtFault ts t
  | opening {front back : List Token} : ts = front ++ t :: back →
      (∀ front' t' back', ts = front' ++ t' :: back' → ¬ Breaks front' t') →
      LeftOpen t back →
      (∀ front' t' back', ts = front' ++ t' :: back' → LeftOpen t' back' →
        front'.length ≤ front.length) →
      AtFault ts t

/-! ## Tokens -/

section Tokens

variable {t : Token} {s : Symbol}

theorem Opens.isBracket (h : Opens t s) : isBracket t := by
  simp [Brackets.isBracket, h.1, h.2]

theorem Closes.isBracket (h : Closes t s) : isBracket t := by
  obtain ⟨c, hc, hopener⟩ := h
  simp [Brackets.isBracket, hc, hopener]

theorem Opens.unique {s' : Symbol} (h : Opens t s) (h' : Opens t s') : s = s' :=
  Option.some.inj (h.1.symm.trans h'.1)

/-- No bracket both opens and closes. -/
theorem Opens.not_closes {s' : Symbol} (h : Opens t s) : ¬ Closes t s' := by
  rintro ⟨c, hc, hopener⟩
  obtain rfl := Option.some.inj (h.1.symm.trans hc)
  have hopens := h.2
  cases s <;> simp_all [Symbol.opens, Symbol.opener?]

theorem bracket_cases (t : Token) :
    isBracket t = false ∨ (∃ s, Opens t s) ∨ ∃ s, Closes t s := by
  rcases hsymbol : symbol? t with _ | s
  · exact .inl (by simp [isBracket, hsymbol])
  by_cases hopens : s.opens
  · exact .inr (.inl ⟨s, hsymbol, hopens⟩)
  rcases hopener : s.opener? with _ | opener
  · exact .inl (by simp [isBracket, hsymbol, hopens, hopener])
  · exact .inr (.inr ⟨opener, s, hsymbol, hopener⟩)

/-- Every opening bracket can be closed. -/
theorem exists_closes (h : s.opens) : ∃ t, Closes t s := by
  have closedBy : ∀ c : Symbol, c.opener? = some s → ∃ t, Closes t s := fun c hc =>
    ⟨.bare (.symbol c) .start, c, rfl, hc⟩
  cases s <;> first
    | exact closedBy .rightParen rfl
    | exact closedBy .rightBracket rfl
    | exact closedBy .rightBrace rfl
    | cases h

end Tokens

/-! ## Nested sequences -/

theorem WellNested.append {ts us : List Token} (hts : WellNested ts) (hus : WellNested us) :
    WellNested (ts ++ us) := by
  induction hts with
  | nil => exact hus
  | pair hopen hclose hinside _ _ ih =>
    simpa using WellNested.pair hopen hclose hinside ih

/-- In a well nested sequence every opening bracket is closed. -/
theorem WellNested.closed {ts front back : List Token} (h : WellNested ts) {t : Token} {s : Symbol}
    (hts : ts = front ++ t :: back) (ht : Opens t s) :
    ∃ inside close after, back = inside ++ close :: after ∧ WellNested inside ∧ Closes close s := by
  induction h generalizing front back with
  | nil => simp at hts
  | @pair opening close s' inside after hopen hclose hinside _ ihinside ihafter =>
    rw [List.cons_append] at hts
    rcases List.cons_eq_append_iff.1 hts with ⟨rfl, hfirst⟩ | ⟨front', rfl, hrest⟩
    · obtain ⟨rfl, rfl⟩ := List.cons_eq_cons.1 hfirst
      rw [ht.unique hopen]
      exact ⟨inside, close, after, rfl, hinside, hclose⟩
    -- the bracket stands inside the first pair, or after it
    rcases List.append_eq_append_iff.1 hrest with ⟨more, rfl, hmore⟩ | ⟨more, rfl, hmore⟩
    · rcases List.cons_eq_append_iff.1 hmore with ⟨rfl, hlast⟩ | ⟨more', rfl, hafter⟩
      · obtain ⟨rfl, -⟩ := List.cons_eq_cons.1 hlast
        exact absurd hclose ht.not_closes
      · exact ihafter hafter
    · rcases List.cons_eq_append_iff.1 hmore with ⟨rfl, hlast⟩ | ⟨more', rfl, rfl⟩
      · obtain ⟨rfl, -⟩ := List.cons_eq_cons.1 hlast
        exact absurd hclose ht.not_closes
      · obtain ⟨inside', close', after', rfl, hinside', hclose'⟩ := ihinside rfl
        exact ⟨inside', close', after' ++ close :: after, by simp, hinside', hclose'⟩

namespace Nested

variable {ts us : List Token} {t : Token} {s : Symbol}

theorem of_none (h : ∀ t ∈ ts, isBracket t = false) : Nested ts := by
  have hnone : ts.filter isBracket = [] := List.filter_eq_nil_iff.2 (by simpa using h)
  rw [Nested, hnone]
  exact .nil

theorem other (h : isBracket t = false) : Nested [t] := of_none (by simpa using h)

theorem append (hts : Nested ts) (hus : Nested us) : Nested (ts ++ us) := by
  unfold Nested
  rw [List.filter_append]
  exact WellNested.append hts hus

theorem wrap {close : Token} (hopen : Opens t s) (hts : Nested ts) (hclose : Closes close s) :
    Nested (t :: ts ++ [close]) := by
  have hpair := WellNested.pair hopen hclose hts .nil
  simpa [Nested, hopen.isBracket, hclose.isBracket] using hpair

/-- In a nested sequence every opening bracket is closed. -/
theorem closedIn {front back : List Token} (h : Nested (front ++ t :: back)) (ht : Opens t s) :
    ClosedIn s back := by
  have hsplit : (front ++ t :: back).filter isBracket =
      front.filter isBracket ++ t :: back.filter isBracket := by simp [ht.isBracket]
  obtain ⟨inside, close, after, hback, hinside, hclose⟩ := WellNested.closed h hsplit ht
  obtain ⟨inside', back', rfl, rfl, hback'⟩ := List.filter_eq_append_iff.1 hback
  obtain ⟨gap, after', rfl, hgap, -, -⟩ := List.filter_eq_cons_iff.1 hback'
  refine ⟨inside' ++ gap, close, after', by simp, ?_, hclose⟩
  have hnone : gap.filter isBracket = [] := List.filter_eq_nil_iff.2 hgap
  simpa [Nested, hnone] using hinside

end Nested

/-! ## The check -/

section Check

variable {stack : List (Token × Symbol)} {front ts : List Token} {t u : Token} {s : Symbol}

theorem checkAfter_other (h : isBracket t = false) :
    checkAfter stack (t :: ts) = checkAfter stack ts := by
  unfold isBracket at h
  rw [checkAfter.eq_def]
  rcases hsymbol : symbol? t with _ | s
  · simp only [hsymbol]
  · rw [hsymbol] at h
    obtain ⟨hopens, hopener⟩ := Bool.or_eq_false_iff.1 h
    rw [Option.isSome_eq_false_iff, Option.isNone_iff_eq_none] at hopener
    simp only [hsymbol, hopens, hopener, Bool.false_eq_true, if_false]

theorem checkAfter_opens (h : Opens t s) :
    checkAfter stack (t :: ts) = checkAfter ((t, s) :: stack) ts := by
  rw [checkAfter.eq_def]
  simp only [h.1, h.2, if_true]

/-- A closing bracket is checked against the innermost open one. -/
theorem checkAfter_closes {c : Symbol} (hc : symbol? t = some c) (hopener : c.opener? = some s) :
    checkAfter stack (t :: ts) =
      if stack.head?.map (·.2) = some s then checkAfter stack.tail ts
      else .error (unbalanced t c) := by
  have hopens : c.opens = false := by cases c <;> first | rfl | cases hopener
  rw [checkAfter.eq_def]
  simp only [hc, hopens, hopener, Bool.false_eq_true, if_false]
  rcases stack with _ | ⟨⟨u, innermost⟩, stack⟩
  · simp
  · simp

/-- Only brackets count. -/
theorem checkAfter_filter (ts rest : List Token) :
    checkAfter stack (ts.filter isBracket ++ rest) = checkAfter stack (ts ++ rest) := by
  induction ts generalizing stack with
  | nil => rfl
  | cons t ts ih =>
    rcases bracket_cases t with hother | ⟨s, hopen⟩ | ⟨s, hclose⟩
    · rw [List.filter_cons_of_neg (by simp [hother]), List.cons_append, checkAfter_other hother, ih]
    · rw [List.filter_cons_of_pos hopen.isBracket, List.cons_append, List.cons_append,
        checkAfter_opens hopen, checkAfter_opens hopen, ih]
    · rw [List.filter_cons_of_pos hclose.isBracket, List.cons_append, List.cons_append]
      obtain ⟨c, hc, hopener⟩ := hclose
      rw [checkAfter_closes hc hopener, checkAfter_closes hc hopener, ih]

/-- What comes behind tokens is checked after them. -/
theorem checkAfter_congr {us : List Token} (h : ∀ stack, checkAfter stack ts = checkAfter stack us)
    (front : List Token) (stack : List (Token × Symbol)) :
    checkAfter stack (front ++ ts) = checkAfter stack (front ++ us) := by
  induction front generalizing stack with
  | nil => exact h stack
  | cons t front ih => simp only [List.cons_append, checkAfter, ih]

/-- A nested stretch leaves the stack as it finds it. -/
theorem WellNested.checkAfter_append (h : WellNested ts) (stack : List (Token × Symbol))
    (rest : List Token) : checkAfter stack (ts ++ rest) = checkAfter stack rest := by
  induction h generalizing stack rest with
  | nil => rfl
  | @pair opening close s inside after hopen hclose _ _ ihinside ihafter =>
    obtain ⟨c, hc, hopener⟩ := hclose
    simp only [List.cons_append, List.append_assoc]
    rw [checkAfter_opens hopen, ihinside, checkAfter_closes hc hopener]
    simpa using ihafter stack rest

theorem Nested.checkAfter_append (h : Nested ts) (stack : List (Token × Symbol))
    (rest : List Token) : checkAfter stack (ts ++ rest) = checkAfter stack rest := by
  rw [← checkAfter_filter]
  exact WellNested.checkAfter_append h stack rest

theorem Nested.check_eq (h : Nested ts) : check ts = .ok () := by
  have hrun := h.checkAfter_append [] []
  rwa [List.append_nil] at hrun

end Check

/-! ## The stack of the check -/

/-- After these tokens the brackets of `stack` are open, the innermost first, and all else is
nested. -/
inductive Leaves : List Token → List (Token × Symbol) → Prop
  | nested {ts : List Token} : Nested ts → Leaves ts []
  | opening {front inside : List Token} {t : Token} {s : Symbol} {stack : List (Token × Symbol)} :
      Leaves front stack → Opens t s → Nested inside →
      Leaves (front ++ t :: inside) ((t, s) :: stack)

namespace Leaves

variable {stack : List (Token × Symbol)} {front ts inside : List Token} {t : Token} {s : Symbol}

theorem append (h : Leaves front stack) (hts : Nested ts) : Leaves (front ++ ts) stack := by
  cases h with
  | nested hfront => exact .nested (hfront.append hts)
  | opening hfront hopen hinside =>
    rw [List.append_assoc, List.cons_append]
    exact .opening hfront hopen (hinside.append hts)

theorem opens (h : Leaves front stack) (ht : Opens t s) : Leaves (front ++ [t]) ((t, s) :: stack) :=
  .opening h ht .nil

/-- A bracket that closes the innermost open one. -/
theorem closes {u : Token} (h : Leaves front ((u, s) :: stack)) (ht : Closes t s) :
    Leaves (front ++ [t]) stack := by
  cases h with
  | opening hfront hopen hinside =>
    rw [List.append_assoc]
    exact hfront.append (hinside.wrap hopen ht)

/-- The check goes on with this stack. -/
theorem checkAfter_eq (h : Leaves front stack) (rest : List Token) :
    checkAfter [] (front ++ rest) = checkAfter stack rest := by
  induction h generalizing rest with
  | nested hts => exact hts.checkAfter_append [] rest
  | opening _ hopen hinside ih =>
    rw [List.append_assoc, ih, List.cons_append, checkAfter_opens hopen,
      hinside.checkAfter_append]

end Leaves

/-- What the check comes to, told from the stack: everything is nested; or a closing bracket is not
for the innermost open one; or a bracket is still open. -/
inductive Outcome (ts : List Token) : Except ScriptError Unit → Prop
  | accepted : Nested ts → Outcome ts (.ok ())
  | refused {front back : List Token} {t : Token} {c s : Symbol} {stack : List (Token × Symbol)} :
      ts = front ++ t :: back → Leaves front stack → symbol? t = some c → c.opener? = some s →
      stack.head?.map (·.2) ≠ some s → Outcome ts (.error (unbalanced t c))
  | unclosed {t : Token} {s : Symbol} {stack : List (Token × Symbol)} :
      Leaves ts ((t, s) :: stack) → Outcome ts (.error (unbalanced t s))

namespace Leaves

variable {stack : List (Token × Symbol)} {front ts : List Token}

theorem outcome (h : Leaves front stack) (ts : List Token) :
    Outcome (front ++ ts) (checkAfter stack ts) := by
  induction ts generalizing front stack with
  | nil =>
    rw [List.append_nil]
    cases h with
    | nested hfront => exact .accepted hfront
    | opening hfront hopen hinside => exact .unclosed (.opening hfront hopen hinside)
  | cons t ts ih =>
    rw [List.append_cons]
    rcases bracket_cases t with hother | ⟨s, hopen⟩ | ⟨s, hclose⟩
    · rw [checkAfter_other hother]
      exact ih (h.append (.other hother))
    · rw [checkAfter_opens hopen]
      exact ih (h.opens hopen)
    · obtain ⟨c, hc, hopener⟩ := id hclose
      rw [checkAfter_closes hc hopener]
      split
      · rename_i hhead
        obtain ⟨⟨u, _⟩, hu, rfl⟩ := Option.map_eq_some_iff.1 hhead
        obtain ⟨stack, rfl⟩ := List.head?_eq_some_iff.1 hu
        exact ih (h.closes hclose)
      · rename_i hhead
        exact .refused (List.append_cons front t ts).symm h hc hopener hhead

/-- Whatever is open can be closed. -/
theorem closable (h : Leaves front stack) : Closable front := by
  have hmore : ∃ more, checkAfter stack more = .ok () := by
    induction h with
    | nested => exact ⟨[], rfl⟩
    | opening _ hopen _ ih =>
      obtain ⟨more, hmore⟩ := ih
      obtain ⟨close, c, hc, hopener⟩ := exists_closes hopen.2
      exact ⟨close :: more, by rw [checkAfter_closes hc hopener]; simpa using hmore⟩
  obtain ⟨more, hmore⟩ := hmore
  have houtcome := h.outcome more
  rw [hmore] at houtcome
  cases houtcome with
  | accepted hnested => exact ⟨more, hnested⟩

end Leaves

theorem Closable.of_append {ts us : List Token} (h : Closable (ts ++ us)) : Closable ts := by
  obtain ⟨more, hmore⟩ := h
  exact ⟨us ++ more, by rwa [← List.append_assoc]⟩

/-- A sequence that can be closed has no bracket that breaks it. -/
theorem Closable.not_breaks {front back : List Token} {t : Token}
    (h : Closable (front ++ t :: back)) : ¬ Breaks front t := by
  rw [List.append_cons] at h
  exact fun hbreaks => hbreaks.stuck h.of_append

/-- A closing bracket that is not for the innermost open one breaks the sequence. -/
theorem Leaves.breaks {front : List Token} {stack : List (Token × Symbol)} {t : Token}
    {c s : Symbol} (h : Leaves front stack) (hc : symbol? t = some c) (hopener : c.opener? = some s)
    (hhead : stack.head?.map (·.2) ≠ some s) : Breaks front t := by
  refine ⟨⟨s, c, hc, hopener⟩, ?_⟩
  rintro ⟨more, hmore⟩
  rw [List.append_assoc, List.singleton_append] at hmore
  have hrun := h.checkAfter_eq (t :: more)
  rw [checkAfter_closes hc hopener, if_neg hhead] at hrun
  cases hmore.check_eq.symm.trans hrun

/-- Nothing closes a bracket after which everything is nested. -/
theorem Nested.not_closedIn {ts : List Token} (h : Nested ts) (s : Symbol) : ¬ ClosedIn s ts := by
  rintro ⟨inside, close, after, rfl, hinside, c, hc, hopener⟩
  have hrun := hinside.checkAfter_append [] (close :: after)
  rw [checkAfter_closes hc hopener] at hrun
  cases h.check_eq.symm.trans hrun

/-- Of two places in a sequence one is before the other, or they are the same. -/
theorem before_or_behind {front front' back back' : List Token} {t t' : Token}
    (h : front ++ t :: back = front' ++ t' :: back') :
    front.length ≤ front'.length ∨ ∃ between, front = front' ++ t' :: between ∧
      back' = between ++ t :: back := by
  rcases List.append_eq_append_iff.1 h with ⟨more, rfl, -⟩ | ⟨more, rfl, hmore⟩
  · exact .inl (by simp)
  · cases more with
    | nil => exact .inl (by simp)
    | cons x between =>
      obtain ⟨rfl, rfl⟩ := List.cons_eq_cons.1 hmore
      exact .inr ⟨between, rfl, rfl⟩

theorem Outcome.atFault {ts : List Token} {e : ScriptError} (h : Outcome ts (.error e)) :
    ∃ t c, AtFault ts t ∧ symbol? t = some c ∧ e = unbalanced t c := by
  generalize hanswer : Except.error e = answer at h
  cases h with
  | accepted => cases hanswer
  | @refused front back t c s stack hts hleaves hc hopener hhead =>
    cases hanswer
    refine ⟨t, c, .closing hts (hleaves.breaks hc hopener hhead) ?_, hc, rfl⟩
    intro front' t' back' hts' hbreaks
    rcases before_or_behind (hts.symm.trans hts') with hle | ⟨between, hfront, -⟩
    · exact hle
    · -- what has been passed can still be closed
      have hclosable := hleaves.closable
      rw [hfront] at hclosable
      exact absurd hbreaks hclosable.not_breaks
  | @unclosed t s stack hleaves =>
    cases hanswer
    have hclosable := hleaves.closable
    cases hleaves with
    | opening hfront hopen hinside =>
      refine ⟨t, s, .opening rfl (fun front' t' back' hts' => ?_) ⟨⟨s, hopen⟩, fun s' _ => ?_⟩ ?_,
        hopen.1, rfl⟩
      · rw [hts'] at hclosable
        exact hclosable.not_breaks
      · exact hinside.not_closedIn s'
      · intro front' t' back' hts' hopen'
        rcases before_or_behind hts'.symm with hle | ⟨between, -, hback⟩
        · exact hle
        · -- what follows the innermost open bracket is nested
          obtain ⟨s', hs'⟩ := hopen'.opens
          rw [hback] at hinside
          exact absurd (hinside.closedIn hs') (hopen'.never s' hs')

/-- **The bracket check accepts what is well nested, and blames the right bracket.**
- A sequence is accepted exactly if its brackets are closed in order, each by its own kind.
- The error of a sequence that is refused names the bracket at fault (`AtFault`) and its place: the
  first closing bracket after which no tokens make the sequence nested, or, without one, the last
  opening bracket that is never closed. -/
theorem check_blames (ts : List Token) :
    (check ts = .ok () ↔ Nested ts) ∧
    ∀ e, check ts = .error e → ∃ t c, AtFault ts t ∧ t.kind = .symbol c ∧
      e = .placed t.position (.unbalancedBracket c.char) := by
  have hstart : Leaves [] [] := .nested .nil
  have houtcome : Outcome ts (check ts) := hstart.outcome ts
  refine ⟨⟨fun haccepted => ?_, Nested.check_eq⟩, fun e herror => ?_⟩
  · rw [haccepted] at houtcome
    cases houtcome with
    | accepted hnested => exact hnested
  · rw [herror] at houtcome
    obtain ⟨t, c, hfault, hc, rfl⟩ := houtcome.atFault
    refine ⟨t, c, hfault, ?_, rfl⟩
    unfold symbol? at hc
    split at hc
    · rename_i hkind
      cases hc
      exact hkind
    · cases hc

end MaterialScript.Brackets
