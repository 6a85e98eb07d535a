/-
Counting braces.

`net` counts the `{` of a token sequence up and its `}` down. A sequence is
`Balanced` when no `}` in it comes before its `{` and none is left open, which
is what the bracket check makes sure of for a whole script
(`Brackets.balanced_of_check`). `Sinks` also allows a `}` too many, and
`Within` says that some are open at the end. A `Block` is a balanced sequence
between braces.
-/
import MaterialScript.Brackets
import MaterialScript.Cursor

namespace MaterialScript

namespace Token

/-- `{` or `}`. -/
def isBrace (t : Token) : Bool := t.isSymbol .leftBrace || t.isSymbol .rightBrace

/-- `+1` for `{`, `-1` for `}`. -/
def depthChange (t : Token) : Int :=
  if t.isSymbol .leftBrace then 1 else if t.isSymbol .rightBrace then -1 else 0

theorem depthChange_of_isSymbol_leftBrace {t : Token} (h : t.isSymbol .leftBrace) :
    t.depthChange = 1 := by
  simp [depthChange, h]

theorem depthChange_of_isSymbol_rightBrace {t : Token} (h : t.isSymbol .rightBrace) :
    t.depthChange = -1 := by
  have hkind : t.kind = .symbol .rightBrace := by simpa [isSymbol] using h
  simp [depthChange, isSymbol, hkind]

theorem depthChange_of_not_isBrace {t : Token} (h : t.isBrace = false) : t.depthChange = 0 := by
  rw [isBrace, Bool.or_eq_false_iff] at h
  simp [depthChange, h.1, h.2]

/-- Whitespace holds no braces. -/
theorem isBrace_of_skipsWhen {m : Bool} {t : Token} (h : Cursor.skipsWhen m t) :
    t.isBrace = false := by
  unfold Cursor.skipsWhen at h
  split at h <;> simp_all [isBrace, isSymbol]

theorem kind_of_isName {t : Token} {text : String} (h : t.isName text) : t.kind = .name :=
  (isName_iff.1 h).1

theorem isBrace_of_name {t : Token} (h : t.kind = .name) : t.isBrace = false := by
  simp [isBrace, isSymbol, h]

theorem isBrace_of_string {t : Token} (h : t.kind = .string) : t.isBrace = false := by
  simp [isBrace, isSymbol, h]

theorem endsLine_of_isEndOfFile {t : Token} (h : t.isEndOfFile) : t.endsLine :=
  Bool.or_eq_true_iff.2 (.inr h)

theorem isBrace_of_endsLine {t : Token} (h : t.endsLine) : t.isBrace = false := by
  simp only [endsLine, Bool.or_eq_true, beq_iff_eq] at h
  rcases h with h | h <;> simp [isBrace, isSymbol, h]

end Token

namespace Braces

/-- The `{` of a sequence less its `}`. -/
def net : List Token → Int
  | [] => 0
  | t :: ts => t.depthChange + net ts

/-- Every `}` closes a `{` before it, and every `{` is closed. -/
structure Balanced (ts : List Token) : Prop where
  /-- No `}` comes before its `{`. -/
  sane : ∀ p, p <+: ts → 0 ≤ net p
  /-- Nothing is left open. -/
  settled : net ts = 0

/-- Balanced, or with more `}` than `{`. -/
def Sinks (ts : List Token) : Prop := Balanced ts ∨ net ts < 0

/-- No braces at all. -/
def Plain (ts : List Token) : Prop := ∀ t ∈ ts, t.isBrace = false

@[simp] theorem net_nil : net [] = 0 := rfl

@[simp] theorem net_cons (t : Token) (ts : List Token) : net (t :: ts) = t.depthChange + net ts :=
  rfl

@[simp] theorem net_append (ts us : List Token) : net (ts ++ us) = net ts + net us := by
  induction ts with
  | nil => simp
  | cons t ts ih => rw [List.cons_append, net_cons, net_cons, ih, Int.add_assoc]

/-! ## Plain sequences -/

theorem Plain.nil : Plain [] := by simp [Plain]

theorem Plain.singleton {t : Token} (h : t.isBrace = false) : Plain [t] := by simp [Plain, h]

theorem Plain.append {ts us : List Token} (hts : Plain ts) (hus : Plain us) : Plain (ts ++ us) := by
  intro t ht
  rcases List.mem_append.1 ht with ht | ht
  · exact hts t ht
  · exact hus t ht

theorem Plain.of_append_left {ts us : List Token} (h : Plain (ts ++ us)) : Plain ts :=
  fun t ht => h t (List.mem_append_left us ht)

theorem Plain.net_eq {ts : List Token} (h : Plain ts) : net ts = 0 := by
  induction ts with
  | nil => rfl
  | cons t ts ih =>
    rw [net_cons, Token.depthChange_of_not_isBrace (h t (by simp)),
      ih fun u hu => h u (List.mem_cons_of_mem t hu), Int.add_zero]

theorem Plain.balanced {ts : List Token} (h : Plain ts) : Balanced ts where
  sane := by
    rintro p ⟨rest, rfl⟩
    exact Int.le_of_eq h.of_append_left.net_eq.symm
  settled := h.net_eq

/-! ## Balanced sequences -/

theorem Balanced.nil : Balanced [] := Plain.nil.balanced

theorem prefix_append_cases {ts us p : List Token} (h : p <+: ts ++ us) :
    p <+: ts ∨ ∃ q, q <+: us ∧ p = ts ++ q := by
  rcases List.prefix_or_prefix_of_prefix h (List.prefix_append ts us) with hp | ⟨q, rfl⟩
  · exact .inl hp
  · exact .inr ⟨q, (List.prefix_append_right_inj ts).1 h, rfl⟩

theorem Balanced.append {ts us : List Token} (hts : Balanced ts) (hus : Balanced us) :
    Balanced (ts ++ us) where
  sane := by
    intro p hp
    rcases prefix_append_cases hp with hp | ⟨q, hq, rfl⟩
    · exact hts.sane p hp
    · rw [net_append, hts.settled, Int.zero_add]
      exact hus.sane q hq
  settled := by rw [net_append, hts.settled, hus.settled, Int.add_zero]

theorem Balanced.of_append_left {ts us : List Token} (h : Balanced (ts ++ us)) (hts : net ts = 0) :
    Balanced ts :=
  ⟨fun p hp => h.sane p (hp.trans (List.prefix_append ts us)), hts⟩

/-- Braces around a balanced sequence close each other. -/
theorem Balanced.wrap {inside : List Token} (h : Balanced inside) {opening close : Token}
    (hopen : opening.isSymbol .leftBrace) (hclose : close.isSymbol .rightBrace) :
    Balanced (opening :: inside ++ [close]) where
  sane := by
    intro p hp
    rcases prefix_append_cases hp with hp | ⟨q, hq, rfl⟩
    · rcases List.prefix_cons_iff.1 hp with rfl | ⟨q, rfl, hq⟩
      · simp
      · have := h.sane q hq
        rw [net_cons, Token.depthChange_of_isSymbol_leftBrace hopen]
        omega
    · rcases List.prefix_cons_iff.1 hq with rfl | ⟨r, rfl, hr⟩
      · simp [h.settled, Token.depthChange_of_isSymbol_leftBrace hopen]
      · simp [List.prefix_nil.1 hr, h.settled, Token.depthChange_of_isSymbol_leftBrace hopen,
          Token.depthChange_of_isSymbol_rightBrace hclose]
  settled := by
    simp [h.settled, Token.depthChange_of_isSymbol_leftBrace hopen,
      Token.depthChange_of_isSymbol_rightBrace hclose]

theorem Balanced.sinks {ts : List Token} (h : Balanced ts) : Sinks ts := .inl h

theorem Sinks.net_nonpos {ts : List Token} (h : Sinks ts) : net ts ≤ 0 := by
  rcases h with h | h
  · exact Int.le_of_eq h.settled
  · omega

theorem Sinks.append {ts us : List Token} (hts : Sinks ts) (hus : Sinks us) : Sinks (ts ++ us) := by
  rcases hts with hts | hts
  · rcases hus with hus | hus
    · exact .inl (hts.append hus)
    · right
      rw [net_append, hts.settled, Int.zero_add]
      exact hus
  · right
    have := hus.net_nonpos
    rw [net_append]
    omega

/-- Tokens among which there is no `{`. -/
theorem sinks_of_no_leftBrace {ts : List Token} (h : ∀ t ∈ ts, t.isSymbol .leftBrace = false) :
    Sinks ts := by
  induction ts with
  | nil => exact .inl .nil
  | cons t ts ih =>
    have hts := ih fun u hu => h u (List.mem_cons_of_mem t hu)
    cases hb : t.isBrace with
    | false => exact (Plain.singleton hb).balanced.sinks.append hts
    | true =>
      have hclose : t.isSymbol .rightBrace := by
        simpa [Token.isBrace, h t (List.mem_cons_self ..)] using hb
      right
      have := hts.net_nonpos
      rw [net_cons, Token.depthChange_of_isSymbol_rightBrace hclose]
      omega

/-- Inside a block at this depth, and never outside it so far. -/
structure Within (depth : Nat) (ts : List Token) : Prop where
  sane : ∀ p, p <+: ts → 0 ≤ net p
  depth : net ts = depth

theorem Within.snoc {depth depth' : Nat} {ts : List Token} (h : Within depth ts) {t : Token}
    (ht : (depth' : Int) = depth + t.depthChange) : Within depth' (ts ++ [t]) where
  sane := by
    intro p hp
    rcases prefix_append_cases hp with hp | ⟨q, hq, rfl⟩
    · exact h.sane p hp
    · rcases List.prefix_cons_iff.1 hq with rfl | ⟨r, rfl, hr⟩
      · have := h.depth
        simp
        omega
      · have := h.depth
        simp [List.prefix_nil.1 hr]
        omega
  depth := by
    have := h.depth
    simp
    omega

/-- Braces around a balanced sequence. -/
def Block (ts : List Token) : Prop :=
  ∃ opening inside close, ts = opening :: inside ++ [close] ∧ opening.isSymbol .leftBrace ∧
    Balanced inside ∧ close.isSymbol .rightBrace

theorem Block.balanced {ts : List Token} (h : Block ts) : Balanced ts := by
  obtain ⟨opening, inside, close, rfl, hopen, hinside, hclose⟩ := h
  exact hinside.wrap hopen hclose

/-- What is closed under putting one after another and holds the balanced sequences. -/
structure Stacks (K : List Token → Prop) : Prop where
  balanced : ∀ ts, Balanced ts → K ts
  append : ∀ ts us, K ts → K us → K (ts ++ us)

theorem stacks_balanced : Stacks Balanced := ⟨fun _ => id, fun _ _ => .append⟩

theorem stacks_sinks : Stacks Sinks := ⟨fun _ => .inl, fun _ _ => .append⟩

/-- Words without braces and a `{`. -/
def Heading (ts : List Token) : Prop :=
  ∃ words opening, ts = words ++ [opening] ∧ Plain words ∧ opening.isSymbol .leftBrace

/-- What stands between the name and the `{` of a declaration: the kind of a layer, the format of a
shader if it has one, and nothing else. -/
def Between : ResourceKind → List Token → Prop
  | .textureLayer, words => ∃ t, t.kind = .name ∧ words = [t]
  | .shader, words => words = [] ∨ ∃ t, t.kind = .name ∧ words = [t]
  | _, words => words = []

theorem Between.cases {kind : ResourceKind} {words : List Token} (h : Between kind words) :
    words = [] ∨ ∃ t, t.kind = .name ∧ words = [t] := by
  cases kind with
  | textureLayer => exact .inr h
  | shader => exact h
  | _ => exact .inl h

theorem Between.plain {kind : ResourceKind} {words : List Token} (h : Between kind words) :
    Plain words := by
  rcases h.cases with rfl | ⟨t, ht, rfl⟩
  · exact .nil
  · exact .singleton (Token.isBrace_of_name ht)

/-- The header of a declaration: its name, the words between, and a `{`. -/
def Named (kind : ResourceKind) (name : String) (ts : List Token) : Prop :=
  ∃ n words opening, ts = n :: words ++ [opening] ∧ n.kind = .string ∧ n.text = name ∧
    Between kind words ∧ opening.isSymbol .leftBrace

theorem Named.heading {kind : ResourceKind} {name : String} {ts : List Token}
    (h : Named kind name ts) : Heading ts := by
  obtain ⟨n, words, opening, rfl, hn, -, hwords, hopen⟩ := h
  exact ⟨n :: words, opening, rfl,
    (Plain.singleton (Token.isBrace_of_string hn)).append hwords.plain, hopen⟩

/-- The lines of a block, of a kind `K`, and the `}` after them. -/
def Closing (K : List Token → Prop) (ts : List Token) : Prop :=
  ∃ inside close, ts = inside ++ [close] ∧ K inside ∧ close.isSymbol .rightBrace

theorem Closing.mono {K K' : List Token → Prop} {ts : List Token} (h : Closing K ts)
    (himp : ∀ inside, K inside → K' inside) : Closing K' ts := by
  obtain ⟨inside, close, hts, hinside, hclose⟩ := h
  exact ⟨inside, close, hts, himp inside hinside, hclose⟩

theorem Heading.block {ts us : List Token} (hts : Heading ts) (hus : Closing Balanced us) :
    Balanced (ts ++ us) := by
  obtain ⟨words, opening, rfl, hwords, hopen⟩ := hts
  obtain ⟨inside, close, rfl, hinside, hclose⟩ := hus
  have := hwords.balanced.append (hinside.wrap hopen hclose)
  simpa using this

theorem Heading.net_eq {ts : List Token} (h : Heading ts) : net ts = 1 := by
  obtain ⟨words, opening, rfl, hwords, hopen⟩ := h
  simp [hwords.net_eq, Token.depthChange_of_isSymbol_leftBrace hopen]

theorem Heading.sinks {ts us : List Token} (hts : Heading ts) (hus : Closing Sinks us) :
    Sinks (ts ++ us) := by
  obtain ⟨inside, close, rfl, hinside, hclose⟩ := hus
  rcases hinside with hinside | hinside
  · exact (hts.block ⟨inside, close, rfl, hinside, hclose⟩).sinks
  · right
    rw [net_append, net_append, hts.net_eq, net_cons, net_nil,
      Token.depthChange_of_isSymbol_rightBrace hclose]
    omega

/-! ## Leaving out whitespace -/

theorem net_filter {keep : Token → Bool} (h : ∀ t, keep t = false → t.isBrace = false)
    (ts : List Token) : net (ts.filter keep) = net ts := by
  induction ts with
  | nil => rfl
  | cons t ts ih =>
    cases hk : keep t with
    | true => rw [List.filter_cons_of_pos hk, net_cons, net_cons, ih]
    | false =>
      rw [List.filter_cons_of_neg (by simp [hk]), net_cons, ih,
        Token.depthChange_of_not_isBrace (h t hk), Int.zero_add]

theorem Balanced.of_filter {keep : Token → Bool} (h : ∀ t, keep t = false → t.isBrace = false)
    {ts : List Token} (hts : Balanced (ts.filter keep)) : Balanced ts where
  sane := by
    intro p hp
    rw [← net_filter h]
    exact hts.sane _ (hp.filter keep)
  settled := by
    rw [← net_filter h]
    exact hts.settled

theorem Balanced.filter {keep : Token → Bool} (h : ∀ t, keep t = false → t.isBrace = false)
    {ts : List Token} (hts : Balanced ts) : Balanced (ts.filter keep) where
  sane := by
    rintro p ⟨rest, hp⟩
    obtain ⟨q, us, rfl, rfl, -⟩ := List.filter_eq_append_iff.1 hp.symm
    rw [net_filter h]
    exact hts.sane q (List.prefix_append q us)
  settled := by
    rw [net_filter h]
    exact hts.settled

end Braces

/-! ## The bracket check -/

namespace Brackets

open Braces

/-- The `{` among the open brackets. -/
def openBraces (stack : List (Token × Symbol)) : Nat := stack.countP (·.2 = .leftBrace)

theorem depthChange_of_symbol? {t : Token} {s : Symbol} (h : symbol? t = some s) :
    t.depthChange = if s = .leftBrace then 1 else if s = .rightBrace then -1 else 0 := by
  unfold symbol? at h
  split at h
  · rename_i s' hkind
    cases h
    simp [Token.depthChange, Token.isSymbol, hkind]
  · cases h

theorem depthChange_of_symbol?_none {t : Token} (h : symbol? t = none) : t.depthChange = 0 := by
  unfold symbol? at h
  split at h
  · cases h
  · rename_i hkind
    have hother : ∀ s, t.kind ≠ .symbol s := fun s hs => hkind s hs
    simp [Token.depthChange, Token.isSymbol, hother]

theorem openBraces_cons (t : Token) (s : Symbol) (stack : List (Token × Symbol)) :
    (openBraces ((t, s) :: stack) : Int) =
      openBraces stack + if s = .leftBrace then 1 else 0 := by
  unfold openBraces
  rw [List.countP_cons]
  split <;> simp_all

/-- A step of the check follows the depth. -/
theorem step_open {t : Token} {s : Symbol} (hs : symbol? t = some s) (hopens : s.opens)
    (stack : List (Token × Symbol)) :
    (openBraces ((t, s) :: stack) : Int) = openBraces stack + t.depthChange := by
  have hsame : (if s = .leftBrace then 1 else 0 : Int) =
      if s = .leftBrace then 1 else if s = .rightBrace then -1 else 0 := by
    cases s <;> first | rfl | cases hopens
  rw [depthChange_of_symbol? hs, openBraces_cons, hsame]

theorem step_close {t u : Token} {s opener : Symbol} (hs : symbol? t = some s)
    (hopener : s.opener? = some opener) (stack : List (Token × Symbol)) :
    (openBraces stack : Int) = openBraces ((u, opener) :: stack) + t.depthChange := by
  have hcancel : (if opener = .leftBrace then 1 else 0 : Int) +
      (if s = .leftBrace then 1 else if s = .rightBrace then -1 else 0) = 0 := by
    cases s <;> cases hopener <;> rfl
  rw [depthChange_of_symbol? hs, openBraces_cons]
  omega

theorem depthChange_of_neither {t : Token} {s : Symbol} (hs : symbol? t = some s)
    (hopens : s.opens = false) (hopener : s.opener? = none) : t.depthChange = 0 := by
  rw [depthChange_of_symbol? hs]
  cases s <;> simp_all [Symbol.opens, Symbol.opener?]

/-- What is open and what follows never fall below zero, and end there. -/
theorem balanced_of_checkAfter {stack : List (Token × Symbol)} {ts : List Token}
    (h : checkAfter stack ts = .ok ()) :
    (∀ p, p <+: ts → 0 ≤ openBraces stack + net p) ∧ openBraces stack + net ts = 0 := by
  -- one token of the check, whatever it does to the stack
  have step : ∀ {stack stack' : List (Token × Symbol)} {t : Token} {ts : List Token},
      (openBraces stack' : Int) = openBraces stack + t.depthChange →
      ((∀ p, p <+: ts → 0 ≤ openBraces stack' + net p) ∧ openBraces stack' + net ts = 0) →
      (∀ p, p <+: t :: ts → 0 ≤ openBraces stack + net p) ∧
        openBraces stack + net (t :: ts) = 0 := by
    rintro stack stack' t ts hstep ⟨hsane, hsettled⟩
    refine ⟨fun p hp => ?_, by rw [net_cons]; omega⟩
    rcases List.prefix_cons_iff.1 hp with rfl | ⟨q, rfl, hq⟩
    · simp
    · have := hsane q hq
      rw [net_cons]
      omega
  fun_induction checkAfter stack ts with
  | case1 =>
    refine ⟨fun p hp => ?_, rfl⟩
    rw [List.prefix_nil.1 hp]
    exact Int.le_refl 0
  | case2 => cases h
  | case3 stack t ts hs ih => exact step (by simp [depthChange_of_symbol?_none hs]) (ih h)
  | case4 stack t ts s hs hopens ih => exact step (step_open hs hopens stack) (ih h)
  | case5 stack t ts s hs hopens hopener ih =>
    exact step (by simp [depthChange_of_neither hs (by simpa using hopens) hopener]) (ih h)
  | case6 t ts s hs hopens u opener stack hopener ih =>
    exact step (step_close hs hopener stack) (ih h)
  | case7 => cases h
  | case8 => cases h

/-- **A sequence the check accepts has balanced braces.** -/
theorem balanced_of_check {ts : List Token} (h : check ts = .ok ()) : Balanced ts := by
  obtain ⟨hsane, hsettled⟩ := balanced_of_checkAfter h
  exact ⟨fun p hp => by simpa [openBraces] using hsane p hp, by simpa [openBraces] using hsettled⟩

end Brackets

end MaterialScript
