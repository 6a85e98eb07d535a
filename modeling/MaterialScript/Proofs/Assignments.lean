/-
The `=` between a key and its value.

A value takes one `=` in front of it or none (`TakesOneEqual`): one `=` makes no
difference, and a second one is refused. This holds of all values but one: the
name of a texture that a layer is bound to takes two where it is a bare name
(`nameOrText_run_second`), since the reader of bare names it is handed to takes
another. `values_take_one_equal` says so for every key of every block that a load
comes to read.
-/
import MaterialScript.Proofs.Initializers
import MaterialScript.Proofs.OpenBlocks
import MaterialScript.Proofs.Reachable
import MaterialScript.RenderSystem.Recorder

namespace MaterialScript

/-! ## Keys and the shapes of their values -/

/-- What a line holds after its key. -/
inductive ValueShape where
  | color
  | number
  | flag
  | text
  | word
  | nameOrText
deriving DecidableEq

namespace ValueShape

/-- The value ends with its line, so line breaks count before it, too. -/
def endsWithLine : ValueShape → Bool
  | color | text => true
  | number | flag | word | nameOrText => false

/-- What is told of a token that cannot start the value. -/
def refusal (shape : ValueShape) (t : Token) : Fault :=
  match shape with
  | text => .expectedString
  | color | number | flag | word | nameOrText =>
    if t.isEndOfFile then .unexpectedEndOfInput else .unexpectedToken t.describe

end ValueShape

/-- The shape of an attribute's value. -/
def Attribute.shape {β : Type} : Attribute β → ValueShape
  | color _ => .color
  | number _ => .number
  | flag _ => .flag
  | text _ => .text
  | keyword _ => .word

namespace Parser

/-- The shape of the value that a key of a block has; other words are no keys of the block. -/
def BlockKind.shape? : BlockKind → String → Option ValueShape
  | material, key => (Material.attributes.lookup key).map Attribute.shape
  | component _, key => (VertexAttribute.attributes.lookup key).map Attribute.shape
  | texture, key => (TextureDraft.attributes.lookup key).map Attribute.shape
  | filter, key => (TextureFilter.attributes.lookup key).map Attribute.shape
  | textureLayer, "tex" => some .nameOrText
  | textureLayer, key => (TextureLayer.attributes.lookup key).map Attribute.shape
  | stage, "version" => some .word
  | stage, "source" | stage, "sourceFile" => some .text
  | stage, _ | shader, _ | dialect, _ | vertexFormat, _ => none

variable {ρ α β : Type}

/-! ## Values -/

/-- Whitespace, with one `=` in it or none. -/
inductive Lead (m : Bool) : Bool → List Token → Prop
  | blank {pad : List Token} : (∀ x ∈ pad, Cursor.skipsWhen m x) → Lead m false pad
  | equal {pad pad' : List Token} {e : Token} : (∀ x ∈ pad, Cursor.skipsWhen m x) →
      e.isSymbol .equal → (∀ x ∈ pad', Cursor.skipsWhen m x) → Lead m true (pad ++ e :: pad')

/-- From `s`, where line breaks count before the value if `m` holds, one `=` is passed as if it were
not there. A second one is refused, and so is a line break that counts. -/
structure TakesOneEqual (m : Bool) (refusal : Token → Fault) (p : Parser ρ α) (s : State ρ) :
    Prop where
  one : ∀ {pad pad' more : List Token} {e t : Token},
    s.cursor.rest = pad ++ e :: (pad' ++ t :: more) → (∀ x ∈ pad ++ pad', Cursor.skipsWhen m x) →
    e.isSymbol .equal → Cursor.skipsWhen m t = false → t.isSymbol .equal = false →
    p.run s = p.run (s.past (pad ++ [e]) [])
  two : ∀ {equal : Bool} {lead more : List Token} {t : Token},
    s.cursor.rest = lead ++ t :: more → Lead m equal lead → Cursor.skipsWhen m t = false →
    t.kind = .newline ∨ equal ∧ t.isSymbol .equal →
    p.run s = (.error (.placed t.position (refusal t)), s.past (lead ++ [t]) [])

/-- A `=` that comes next is refused, and so is a line break that counts. -/
def RefusesEqual (m : Bool) (refusal : Token → Fault) (p : Parser ρ α) : Prop :=
  ∀ ⦃s : State ρ⦄ ⦃pad more : List Token⦄ ⦃t : Token⦄, s.cursor.lineBreaksCount = m →
    s.cursor.rest = pad ++ t :: more → (∀ x ∈ pad, Cursor.skipsWhen m x) →
    Cursor.skipsWhen m t = false → t.kind = .newline ∨ t.isSymbol .equal →
    p.run s = (.error (.placed t.position (refusal t)), s.past (pad ++ [t]) [])

section Steps

variable {s : State ρ} {m : Bool} {pad more : List Token} {t : Token}

theorem skipsWhen_of_isSymbol {x : Symbol} (h : t.isSymbol x) : Cursor.skipsWhen m t = false := by
  have hkind : t.kind = .symbol x := by simpa [Token.isSymbol] using h
  simp [Cursor.skipsWhen, hkind]

variable (hm : s.cursor.lineBreaksCount = m) (hrest : s.cursor.rest = pad ++ t :: more)
  (hpad : ∀ x ∈ pad, Cursor.skipsWhen m x) (ht : Cursor.skipsWhen m t = false)
include hm hrest hpad ht

theorem advance_seen : s.advance true = s.past (pad ++ [t]) [] := by
  subst hm
  exact advance_eq_past hrest hpad ht

theorem next_seen (heof : t.isEndOfFile = false) :
    next.run s = (.ok t, s.past (pad ++ [t]) []) := by
  have hadvance := advance_seen hm hrest hpad ht
  rw [next, run_bind_of_ok (show (take true).run s = _ from rfl), hadvance, State.current_past]
  simp [unlessEnd, heof]

theorem peek_seen : peek.run s = (.ok t, s) := by
  have hcurrent : (s.advance true).cursor.current = t := by
    rw [advance_seen hm hrest hpad ht, State.current_past]
  exact congrArg (fun x => (Except.ok x, s)) hcurrent

theorem optionalEqual_seen :
    optionalEqual.run s =
      (.ok (), if t.isSymbol .equal then s.past (pad ++ [t]) [] else s) := by
  have hadvance := advance_seen hm hrest hpad ht
  rw [optionalEqual, accept, run_bind_assoc, run_bind_of_ok (peek_seen hm hrest hpad ht)]
  by_cases hequal : t.isSymbol .equal <;> simp [hequal, run_bind, take, hadvance]

/-- A loop comes to its first token. -/
theorem not_atEnd_of_seen (heof : t.isEndOfFile = false) : ¬ s.AtEnd := by
  rw [State.AtEnd, advance_seen hm hrest hpad ht, State.current_past]
  simp [hrest, heof]

end Steps

/-- One `=` is passed as if it were not there. -/
theorem run_optionalEqual_one {p : Parser ρ α} {s : State ρ} {m : Bool} {pad pad' more : List Token}
    {e t : Token} (hm : s.cursor.lineBreaksCount = m)
    (hrest : s.cursor.rest = pad ++ e :: (pad' ++ t :: more))
    (hpad : ∀ x ∈ pad ++ pad', Cursor.skipsWhen m x) (he : e.isSymbol .equal)
    (ht : Cursor.skipsWhen m t = false) (hother : t.isSymbol .equal = false) :
    (optionalEqual >>= fun _ => p).run s =
      (optionalEqual >>= fun _ => p).run (s.past (pad ++ [e]) []) := by
  have hone := optionalEqual_seen hm hrest (fun x hx => hpad x (List.mem_append_left _ hx))
    (skipsWhen_of_isSymbol he)
  have hafter : (s.past (pad ++ [e]) []).cursor.rest = pad' ++ t :: more :=
    s.rest_past (by simp [hrest]) []
  have hnone := optionalEqual_seen (s := s.past (pad ++ [e]) []) hm hafter
    (fun x hx => hpad x (List.mem_append_right _ hx)) ht
  rw [if_pos he] at hone
  rw [hother, if_neg Bool.false_ne_true] at hnone
  rw [run_bind_of_ok hone, run_bind_of_ok hnone]

theorem not_isEndOfFile_of_refused {t : Token} (h : t.kind = .newline ∨ t.isSymbol .equal) :
    t.isEndOfFile = false := by
  rcases h with h | h
  · simp [Token.isEndOfFile, h]
  · have hkind : t.kind = .symbol .equal := by simpa [Token.isSymbol] using h
    simp [Token.isEndOfFile, hkind]

namespace RefusesEqual

variable {m : Bool} {refusal : Token → Fault} {p : Parser ρ α}

/-- A parser that starts with the next token. -/
theorem next {f : Token → Parser ρ α} (hf : ∀ t, t.kind = .newline ∨ t.isSymbol .equal →
    f t = failAt t (refusal t)) : RefusesEqual m refusal (Parser.next >>= f) := by
  intro s pad more t hm hrest hpad ht hrefused
  rw [run_bind_of_ok (next_seen hm hrest hpad ht (not_isEndOfFile_of_refused hrefused)),
    hf t hrefused]
  rfl

/-- A loop that starts with the next token. -/
theorem overTokens {body : β → Token → Parser ρ (Progress β α)} {finish : β → Token → Parser ρ α}
    {b : β} (hbody : ∀ t, t.kind = .newline ∨ t.isSymbol .equal →
      ∀ s, (body b t).run s = (.error (.placed t.position (refusal t)), s)) :
    RefusesEqual m refusal (Parser.overTokens body finish b) := by
  intro s pad more t hm hrest hpad ht hrefused
  have hadvance := advance_seen hm hrest hpad ht
  refine runOverTokens_error
    (not_atEnd_of_seen hm hrest hpad ht (not_isEndOfFile_of_refused hrefused)) ?_
  rw [hadvance, State.current_past]
  exact hbody t hrefused _

theorem bind (h : RefusesEqual m refusal p) {f : α → Parser ρ β} :
    RefusesEqual m refusal (p >>= f) := fun _ _ _ _ hm hrest hpad ht hrefused =>
  run_bind_of_error (h hm hrest hpad ht hrefused)

end RefusesEqual

namespace TakesOneEqual

variable {m : Bool} {refusal : Token → Fault} {p : Parser ρ α} {s : State ρ}

/-- After the optional `=` no other is taken. -/
theorem optionalEqual (hm : s.cursor.lineBreaksCount = m) (h : RefusesEqual m refusal p) :
    TakesOneEqual m refusal (optionalEqual >>= fun _ => p) s where
  one := run_optionalEqual_one hm
  two := by
    intro equal lead more t hrest hlead ht hrefused
    cases hlead with
    | blank hpad =>
      have hbreak : t.kind = .newline := by simpa using hrefused
      have hother : t.isSymbol .equal = false := by simp [Token.isSymbol, hbreak]
      have hnone := optionalEqual_seen hm hrest hpad ht
      rw [hother, if_neg Bool.false_ne_true] at hnone
      rw [run_bind_of_ok hnone]
      exact h hm hrest hpad ht (.inl hbreak)
    | @equal pad pad' e hpad he hpad' =>
      rw [List.append_assoc, List.cons_append] at hrest
      have hone := optionalEqual_seen hm hrest hpad (skipsWhen_of_isSymbol he)
      have hafter : (s.past (pad ++ [e]) []).cursor.rest = pad' ++ t :: more :=
        s.rest_past (by simp [hrest]) []
      rw [if_pos he] at hone
      rw [run_bind_of_ok hone,
        h (s := s.past (pad ++ [e]) []) hm hafter hpad' ht (hrefused.imp_right And.right)]
      simp

theorem bind (h : TakesOneEqual m refusal p s) {f : α → Parser ρ β} :
    TakesOneEqual m refusal (p >>= f) s where
  one hrest hpad he ht hother := by rw [run_bind, run_bind, h.one hrest hpad he ht hother]
  two hrest hlead ht hrefused := run_bind_of_error (h.two hrest hlead ht hrefused)

theorem withLineBreaks (h : TakesOneEqual m refusal p (s.setLineBreaks true)) :
    TakesOneEqual m refusal (withLineBreaks p) s where
  one := by
    intro pad pad' more e t hrest hpad he ht hother
    have hrun := h.one hrest hpad he ht hother
    rw [run_withLineBreaks hrun]
    exact (run_withLineBreaks (p := p) (s := s.past (pad ++ [e]) []) rfl).symm
  two := by
    intro equal lead more t hrest hlead ht hrefused
    exact run_withLineBreaks (h.two hrest hlead ht hrefused)

end TakesOneEqual

section Values

variable {s : State ρ}

theorem unexpected_of_refused {t : Token} (shape : ValueShape) (hshape : shape ≠ .text)
    (h : t.kind = .newline ∨ t.isSymbol .equal) :
    (unexpected t : Parser ρ α) = failAt t (shape.refusal t) := by
  have heof := not_isEndOfFile_of_refused h
  cases shape with
  | text => exact absurd rfl hshape
  | _ => simp [unexpected, ValueShape.refusal, heof]

theorem signedNumber_of_refused {t : Token} (shape : ValueShape) (hshape : shape ≠ .text)
    (h : t.kind = .newline ∨ t.isSymbol .equal) :
    (signedNumber t : Parser ρ Float) = failAt t (shape.refusal t) := by
  rw [← unexpected_of_refused shape hshape h]
  rcases h with h | h
  · simp [signedNumber, Token.isSymbol, magnitude, h]
  · have hkind : t.kind = .symbol .equal := by simpa [Token.isSymbol] using h
    simp [signedNumber, Token.isSymbol, magnitude, hkind]

theorem not_name_of_refused {t : Token} (h : t.kind = .newline ∨ t.isSymbol .equal) :
    t.kind ≠ .name := by
  rcases h with h | h
  · simp [h]
  · have hkind : t.kind = .symbol .equal := by simpa [Token.isSymbol] using h
    simp [hkind]

theorem textTerm_of_refused {t : Token} (h : t.kind = .newline ∨ t.isSymbol .equal) :
    (textTerm t : Parser ρ String) = failAt t .expectedString := by
  rcases h with h | h
  · simp [textTerm, h]
  · have hkind : t.kind = .symbol .equal := by simpa [Token.isSymbol] using h
    simp [textTerm, hkind]

theorem number_takesOneEqual (hm : s.cursor.lineBreaksCount = false) :
    TakesOneEqual false ValueShape.number.refusal number s :=
  .optionalEqual hm (.next fun _ h => signedNumber_of_refused .number (by decide) h)

theorem word_takesOneEqual (hm : s.cursor.lineBreaksCount = false) :
    TakesOneEqual false ValueShape.word.refusal word s :=
  .optionalEqual hm (.next fun t h => by
    rw [if_neg (not_name_of_refused h)]
    exact unexpected_of_refused .word (by decide) h)

theorem flag_takesOneEqual (hm : s.cursor.lineBreaksCount = false) :
    TakesOneEqual false ValueShape.flag.refusal flag s := by
  refine .optionalEqual hm (.next fun t h => ?_)
  have hname := not_name_of_refused h
  simp only [Token.isName, beq_false_of_ne hname, hname, Bool.false_and, Bool.false_eq_true,
    if_false]
  exact unexpected_of_refused .flag (by decide) h

theorem keyword_takesOneEqual (vocabulary : Vocabulary α) (hm : s.cursor.lineBreaksCount = false) :
    TakesOneEqual false ValueShape.word.refusal (keyword vocabulary) s :=
  (word_takesOneEqual hm).bind

theorem text_takesOneEqual : TakesOneEqual true ValueShape.text.refusal text s := by
  refine .withLineBreaks (.optionalEqual rfl (.bind (.overTokens fun t h u => ?_)))
  rw [separatedRound, textTerm_of_refused h]
  exact run_bind_of_error rfl

theorem color_takesOneEqual : TakesOneEqual true ValueShape.color.refusal color s := by
  refine .withLineBreaks (.optionalEqual rfl (.bind (.overTokens fun t h u => ?_)))
  rw [separatedRound, signedNumber_of_refused .color (by decide) h]
  exact run_bind_of_error rfl

/-- The value of an attribute takes one `=`. -/
theorem Attribute.read_takesOneEqual (a : Attribute β) (hm : s.cursor.lineBreaksCount = false) :
    TakesOneEqual a.shape.endsWithLine a.shape.refusal a.read s := by
  cases a with
  | color set => exact color_takesOneEqual.bind
  | number set => exact (number_takesOneEqual hm).bind
  | flag set => exact (flag_takesOneEqual hm).bind
  | text set => exact text_takesOneEqual.bind
  | keyword changes => exact keyword_takesOneEqual changes hm

theorem Attribute.readLine_takesOneEqual {attributes : Attributes β} {t : Token}
    {shape : ValueShape} (hshape : (attributes.lookup t.text).map Attribute.shape = some shape)
    (hm : s.cursor.lineBreaksCount = false) :
    TakesOneEqual shape.endsWithLine shape.refusal (Attribute.readLine attributes t) s := by
  obtain ⟨a, ha, rfl⟩ := Option.map_eq_some_iff.1 hshape
  rw [Attribute.readLine, ha]
  exact Attribute.read_takesOneEqual a hm

/-! ## Names of textures -/

/-- A bare name is read where it stands; anything else is refused. -/
theorem word_run_seen {m : Bool} {pad more : List Token} {t : Token}
    (hm : s.cursor.lineBreaksCount = m) (hrest : s.cursor.rest = pad ++ t :: more)
    (hpad : ∀ x ∈ pad, Cursor.skipsWhen m x) (ht : Cursor.skipsWhen m t = false) :
    (next >>= fun t => if t.kind = .name then pure t.text else unexpected t).run s =
      (if t.kind = .name then .ok t.text
        else .error (.placed t.position (ValueShape.nameOrText.refusal t)),
        s.past (pad ++ [t]) []) := by
  cases heof : t.isEndOfFile with
  | false =>
    rw [run_bind_of_ok (next_seen hm hrest hpad ht heof)]
    split
    · rfl
    · simp [unexpected, failAt, ValueShape.refusal, heof]
  | true =>
    have hkind : t.kind = .endOfFile := by simpa [Token.isEndOfFile] using heof
    have hnext : next.run s =
        (.error (.placed t.position .unexpectedEndOfInput), s.past (pad ++ [t]) []) := by
      rw [next, run_bind_of_ok (show (take true).run s = _ from rfl),
        advance_seen hm hrest hpad ht, State.current_past]
      simp [unlessEnd, heof, failAt]
    rw [run_bind_of_error hnext, if_neg (by simp [hkind])]
    simp [ValueShape.refusal, heof]

section Second

variable {pad pad' pad'' more : List Token} {e e' t : Token}
  (hm : s.cursor.lineBreaksCount = false)
  (hrest : s.cursor.rest = pad ++ e :: (pad' ++ e' :: (pad'' ++ t :: more)))
  (hpad : ∀ x ∈ pad ++ pad' ++ pad'', Cursor.skipsWhen false x) (he : e.isSymbol .equal)
  (he' : e'.isSymbol .equal) (ht : Cursor.skipsWhen false t = false)
include hm hrest hpad he he' ht

/-- **The name of a texture takes a second `=`**: what comes after two is read as a bare name. -/
theorem nameOrText_run_second :
    nameOrText.run s =
      (if t.kind = .name then .ok t.text
        else .error (.placed t.position (ValueShape.nameOrText.refusal t)),
        s.past (pad ++ e :: (pad' ++ e' :: (pad'' ++ [t]))) []) := by
  have hfirst := optionalEqual_seen hm hrest (fun x hx => hpad x (by simp [hx]))
    (skipsWhen_of_isSymbol he)
  rw [if_pos he] at hfirst
  have hafter : (s.past (pad ++ [e]) []).cursor.rest = pad' ++ e' :: (pad'' ++ t :: more) :=
    s.rest_past (by simp [hrest]) []
  have hblank : ∀ x ∈ pad', Cursor.skipsWhen false x := fun x hx => hpad x (by simp [hx])
  have hseen := skipsWhen_of_isSymbol (m := false) he'
  have hpeek := peek_seen (s := s.past (pad ++ [e]) []) hm hafter hblank hseen
  have hsecond := optionalEqual_seen (s := s.past (pad ++ [e]) []) hm hafter hblank hseen
  have hkind : e'.kind = .symbol .equal := by simpa [Token.isSymbol] using he'
  rw [if_pos he'] at hsecond
  have hend : ((s.past (pad ++ [e]) []).past (pad' ++ [e']) []).cursor.rest = pad'' ++ t :: more :=
    State.rest_past _ (by simp [hafter]) []
  rw [nameOrText, run_bind_of_ok hfirst, run_bind_of_ok hpeek]
  simp only [hkind]
  rw [word, run_bind_of_ok hsecond,
    word_run_seen (s := (s.past (pad ++ [e]) []).past (pad' ++ [e']) []) hm hend
      (fun x hx => hpad x (by simp [hx])) ht]
  simp

/-- Before a bare name two `=` are passed as if they were not there. -/
theorem nameOrText_run_name (hname : t.kind = .name) :
    nameOrText.run s = nameOrText.run (s.past (pad ++ e :: (pad' ++ [e'])) []) := by
  have hafter : (s.past (pad ++ e :: (pad' ++ [e'])) []).cursor.rest = pad'' ++ t :: more :=
    s.rest_past (by simp [hrest]) []
  have hblank : ∀ x ∈ pad'', Cursor.skipsWhen false x := fun x hx => hpad x (by simp [hx])
  have hnone := optionalEqual_seen (s := s.past (pad ++ e :: (pad' ++ [e'])) []) hm hafter hblank ht
  have hword := word_run_seen (s := s.past (pad ++ e :: (pad' ++ [e'])) []) hm hafter hblank ht
  rw [if_neg (by simp [Token.isSymbol, hname])] at hnone
  have hpeek := peek_seen (s := s.past (pad ++ e :: (pad' ++ [e'])) []) hm hafter hblank ht
  rw [nameOrText_run_second hm hrest hpad he he' ht, nameOrText, run_bind_of_ok hnone,
    run_bind_of_ok hpeek]
  simp only [hname]
  rw [word, run_bind_of_ok hnone, hword]
  simp [hname]

end Second

end Values

/-! ## Lines -/

section Lines

variable {σ : Type} {kind : BlockKind} {t : Token} {shape : ValueShape} {s : State (Scene σ)}

theorem run_requireVersion {p : Parser (Scene σ) α} (h : s.scene.drafts.stage.hasVersion) :
    (requireVersion t >>= fun _ => p).run s = p.run s := by
  have hpass : (requireVersion t).run s = (.ok (), s) := by
    rw [requireVersion, run_bind_of_ok (show (inspect _).run s = _ from rfl)]
    simp only [failIf, h, Bool.not_true, Bool.false_eq_true, if_false]
    rfl
  rw [run_bind_of_ok hpass]

/-- Without a version, a line of code is refused at its key. -/
theorem run_requireVersion_missing {p : Parser (Scene σ) α}
    (h : s.scene.drafts.stage.hasVersion = false) :
    (requireVersion t >>= fun _ => p).run s =
      (.error (.placed t.position .missingShaderVersion), s) := by
  refine run_bind_of_error ?_
  rw [requireVersion, run_bind_of_ok (show (inspect _).run s = _ from rfl)]
  simp [failIf, failAt, h]

theorem TakesOneEqual.requireVersion {m : Bool} {refusal : Token → Fault} {p : Parser (Scene σ) α}
    (h : TakesOneEqual m refusal p s) (hversion : s.scene.drafts.stage.hasVersion) :
    TakesOneEqual m refusal (requireVersion t >>= fun _ => p) s where
  one := by
    intro pad pad' more e x hrest hpad he hx hother
    rw [run_requireVersion hversion, h.one hrest hpad he hx hother]
    exact (run_requireVersion (s := s.past (pad ++ [e]) []) hversion).symm
  two := by
    intro equal lead more x hrest hlead hx hrefused
    rw [run_requireVersion hversion, h.two hrest hlead hx hrefused]

/-- A line of code in a stage that has no version yet. -/
def BlockKind.missesVersion : BlockKind → ValueShape → State (Scene σ) → Bool
  | .stage, .text, s => !s.scene.drafts.stage.hasVersion
  | _, _, _ => false

theorem BlockKind.missesVersion_eq_true (h : kind.missesVersion shape s) :
    kind = .stage ∧ shape = .text ∧ s.scene.drafts.stage.hasVersion = false := by
  unfold BlockKind.missesVersion at h
  split at h
  · exact ⟨rfl, rfl, by simpa using h⟩
  · cases h

theorem stageLine_of_shape? (hshape : BlockKind.stage.shape? t.text = some shape) :
    t.text = "version" ∧ shape = .word ∨
      (t.text = "source" ∨ t.text = "sourceFile") ∧ shape = .text := by
  unfold BlockKind.shape? at hshape
  split at hshape <;> simp_all

theorem BlockKind.shape?_nameOrText (hshape : kind.shape? t.text = some .nameOrText) :
    kind = .textureLayer ∧ t.text = "tex" := by
  have hattribute : ∀ {β : Type} {attributes : Attributes β} {key : String},
      (attributes.lookup key).map Attribute.shape ≠ some .nameOrText := by
    intro β attributes key h
    obtain ⟨a, -, ha⟩ := Option.map_eq_some_iff.1 h
    cases a <;> cases ha
  unfold BlockKind.shape? at hshape
  split at hshape
  all_goals first | exact absurd hshape hattribute | exact ⟨rfl, by assumption⟩ | cases hshape

/-- A `tex` line starts with the name of a texture. -/
theorem layerLine_tex (hkey : t.text = "tex") :
    ∃ f : String → Parser (Scene σ) Unit, ∀ s, (layerLine () t).run s = (nameOrText >>= f).run s :=
  ⟨_, fun s => by rw [layerLine, if_pos hkey, boundTexture, run_bind_assoc]⟩

theorem layerLine_tex_congr {s s' : State (Scene σ)} (hkey : t.text = "tex")
    (h : nameOrText.run s = nameOrText.run s') :
    (layerLine () t).run s = (layerLine () t).run s' := by
  obtain ⟨f, hf⟩ := layerLine_tex (σ := σ) hkey
  rw [hf, hf, run_bind, run_bind, h]

theorem layerLine_tex_error {w : State (Scene σ)} {e : ScriptError} (hkey : t.text = "tex")
    (h : nameOrText.run s = (.error e, w)) : (layerLine () t).run s = (.error e, w) := by
  obtain ⟨f, hf⟩ := layerLine_tex (σ := σ) hkey
  rw [hf]
  exact run_bind_of_error h

variable [RenderSystem σ]

/-- **A line takes one `=` before its value**, the one that names a texture apart. -/
theorem BlockKind.line_takesOneEqual (c : kind.Carried) (hshape : kind.shape? t.text = some shape)
    (hname : shape ≠ .nameOrText) (hversion : ¬ kind.missesVersion shape s)
    (hm : s.cursor.lineBreaksCount = false) :
    TakesOneEqual shape.endsWithLine shape.refusal (kind.line c t) s := by
  cases kind with
  | material => exact (Attribute.readLine_takesOneEqual hshape hm).bind
  | component a => exact (Attribute.readLine_takesOneEqual hshape hm).bind
  | filter => exact (Attribute.readLine_takesOneEqual hshape hm).bind
  | texture =>
    have hkey : t.text ≠ "filter" := by
      intro hkey
      rw [hkey] at hshape
      cases hshape
    rw [BlockKind.line, textureLine, if_neg hkey]
    exact (Attribute.readLine_takesOneEqual hshape hm).bind
  | textureLayer =>
    have hkey : t.text ≠ "tex" := by
      intro hkey
      rw [hkey] at hshape
      exact hname (Option.some.inj hshape).symm
    have hattribute : (TextureLayer.attributes.lookup t.text).map Attribute.shape = some shape := by
      simpa [BlockKind.shape?, hkey] using hshape
    rw [BlockKind.line, layerLine, if_neg hkey]
    exact (Attribute.readLine_takesOneEqual hattribute hm).bind
  | stage =>
    obtain ⟨hkey, rfl⟩ | ⟨hkey, rfl⟩ := stageLine_of_shape? hshape
    · simp only [BlockKind.line, stageLine, hkey]
      exact (keyword_takesOneEqual _ hm).bind
    · have hhas : s.scene.drafts.stage.hasVersion := by
        simpa [BlockKind.missesVersion] using hversion
      rcases hkey with hkey | hkey <;> simp only [BlockKind.line, stageLine, hkey]
      · exact text_takesOneEqual.bind.requireVersion hhas
      · exact text_takesOneEqual.bind.bind.requireVersion hhas
  | shader => cases hshape
  | dialect => cases hshape
  | vertexFormat => cases hshape

/-- One `=` before the value of a line is passed as if it were not there. -/
theorem BlockKind.line_run_one (c : kind.Carried) (hshape : kind.shape? t.text = some shape)
    (hversion : ¬ kind.missesVersion shape s) (hm : s.cursor.lineBreaksCount = false)
    {pad pad' more : List Token} {e x : Token}
    (hrest : s.cursor.rest = pad ++ e :: (pad' ++ x :: more))
    (hpad : ∀ y ∈ pad ++ pad', Cursor.skipsWhen shape.endsWithLine y) (he : e.isSymbol .equal)
    (hx : Cursor.skipsWhen shape.endsWithLine x = false) (hother : x.isSymbol .equal = false) :
    (kind.line c t).run s = (kind.line c t).run (s.past (pad ++ [e]) []) := by
  by_cases hname : shape = .nameOrText
  · subst hname
    obtain ⟨rfl, hkey⟩ := BlockKind.shape?_nameOrText hshape
    exact layerLine_tex_congr hkey (run_optionalEqual_one hm hrest hpad he hx hother)
  · exact (BlockKind.line_takesOneEqual c hshape hname hversion hm).one hrest hpad he hx hother

end Lines

end Parser

/-! ## Loads -/

namespace Loader

variable {σ : Type} [RenderSystem σ] {l : Loader σ} {files : Files} {load : Load}
  {s₀ u v : Parser.State (Scene σ)} {block : Parser.BlockKind} {c : block.Carried}
  {shape : ValueShape}

/-- A load that starts in `s₀` fails with `e` on a line it has come to in `v`, after the tokens
`ts`, and leaves what has been built up to that line. -/
structure FailsOnLine (l : Loader σ) (files : Files) (load : Load)
    (s₀ v : Parser.State (Scene σ)) (ts : List Token) (e : ScriptError) : Prop where
  run : Parser.script.run s₀ = (.error e, v.past ts [])
  answer : (l.perform files load).1.isOk = false
  resources : (l.perform files load).2.resources = v.scene.toResources

theorem FailsOnLine.of_line (hstart : l.start? files load = some s₀)
    (hblock : Parser.Entered s₀ block u) (hline : block.Comes u c v) {ts : List Token}
    {e : ScriptError}
    (h : (block.line c v.cursor.current).run v = (.error e, v.past ts [])) :
    FailsOnLine l files load s₀ v ts e := by
  obtain ⟨name, k, hblock⟩ := hblock.inBlock
  have hrun := hblock.fails hline h
  have houtcome := perform_outcome l files load
  rw [hstart] at houtcome
  generalize hsuccess : (l.perform files load).1.isOk = success at houtcome
  cases houtcome with
  | read hread hresources _ =>
    rw [hrun] at hread
    cases hread
    exact ⟨hrun, hsuccess, hresources⟩

/-- What `=` do between a key and its value, on a line that a load has come to in `v`. -/
structure EqualsOnLine (l : Loader σ) (files : Files) (load : Load)
    (s₀ v : Parser.State (Scene σ)) (line : Parser (Scene σ) α) (shape : ValueShape) : Prop where
  /-- One is passed as if it were not there. -/
  one : ∀ {pad pad' more : List Token} {e t : Token},
    v.cursor.rest = pad ++ e :: (pad' ++ t :: more) →
    (∀ x ∈ pad ++ pad', Cursor.skipsWhen shape.endsWithLine x) → e.isSymbol .equal →
    Cursor.skipsWhen shape.endsWithLine t = false → t.isSymbol .equal = false →
    line.run v = line.run (v.past (pad ++ [e]) [])
  /-- The load fails at a second one, and at a line break before a value that ends with its line. -/
  second : shape ≠ .nameOrText → ∀ {equal : Bool} {lead more : List Token} {t : Token},
    v.cursor.rest = lead ++ t :: more → Parser.Lead shape.endsWithLine equal lead →
    Cursor.skipsWhen shape.endsWithLine t = false → t.kind = .newline ∨ equal ∧ t.isSymbol .equal →
    FailsOnLine l files load s₀ v (lead ++ [t]) (.placed t.position (shape.refusal t))
  /-- Two are passed before the bare name of a texture as if they were not there; what else follows
  two is refused in its place. -/
  name : shape = .nameOrText → ∀ {pad pad' pad'' more : List Token} {e e' t : Token},
    v.cursor.rest = pad ++ e :: (pad' ++ e' :: (pad'' ++ t :: more)) →
    (∀ x ∈ pad ++ pad' ++ pad'', Cursor.skipsWhen false x) → e.isSymbol .equal →
    e'.isSymbol .equal → Cursor.skipsWhen false t = false →
    if t.kind = .name then line.run v = line.run (v.past (pad ++ e :: (pad' ++ [e'])) [])
    else
      FailsOnLine l files load s₀ v (pad ++ e :: (pad' ++ e' :: (pad'' ++ [t])))
        (.placed t.position (shape.refusal t))

/-- **A value takes one `=`, and the name of a texture takes two.** On every line that a load comes
to and that a key of its block opens, one `=` after the key is passed; at a second one the load
fails and stores nothing, except before the bare name of a texture. A line of code without a
version is refused at its key. -/
theorem values_take_one_equal (hstart : l.start? files load = some s₀)
    (hblock : Parser.Entered s₀ block u) (hline : block.Comes u c v)
    (hshape : block.shape? v.cursor.current.text = some shape) :
    if block.missesVersion shape v then
      FailsOnLine l files load s₀ v [] (.placed v.cursor.current.position .missingShaderVersion)
    else EqualsOnLine l files load s₀ v (block.line c v.cursor.current) shape := by
  have hm : v.cursor.lineBreaksCount = false := calc
    v.cursor.lineBreaksCount = s₀.cursor.lineBreaksCount :=
      (hblock.opens.1.trans (Parser.HandsLine.onward hline)).lineBreaks
    _ = false := (fresh_of_start? hstart).1.lineBreaks
  have fails : ∀ {ts : List Token} {e : ScriptError},
      (block.line c v.cursor.current).run v = (.error e, v.past ts []) →
      FailsOnLine l files load s₀ v ts e := FailsOnLine.of_line hstart hblock hline
  split
  · next hversion =>
    obtain ⟨rfl, rfl, hmissing⟩ := Parser.BlockKind.missesVersion_eq_true hversion
    refine fails ?_
    rw [Parser.State.past_nil]
    obtain ⟨-, h⟩ | ⟨hkey | hkey, -⟩ := Parser.stageLine_of_shape? hshape
    · cases h
    all_goals
      simp only [Parser.BlockKind.line, Parser.stageLine, hkey]
      exact Parser.run_requireVersion_missing hmissing
  · next hversion =>
    refine ⟨Parser.BlockKind.line_run_one c hshape hversion hm, ?_, ?_⟩
    · intro hname equal lead more t hrest hlead ht hrefused
      exact fails ((Parser.BlockKind.line_takesOneEqual c hshape hname hversion hm).two hrest hlead
        ht hrefused)
    · rintro rfl pad pad' pad'' more e e' t hrest hpad he he' ht
      obtain ⟨rfl, hkey⟩ := Parser.BlockKind.shape?_nameOrText hshape
      have hsecond := Parser.nameOrText_run_second hm hrest hpad he he' ht
      split
      · next hname =>
        exact Parser.layerLine_tex_congr hkey
          (Parser.nameOrText_run_name hm hrest hpad he he' ht hname)
      · next hname =>
        rw [if_neg hname] at hsecond
        exact fails (Parser.layerLine_tex_error hkey hsecond)

/-- Two `=` before a shininess. -/
theorem values_take_one_equal_shininess :
    let name (text : String) : Token := ⟨.name, text, .start⟩
    let symbol (s : Symbol) : Token := .bare (.symbol s) .start
    let blank : Token := .bare .blank .start
    let second : Token := .bare (.symbol .equal) ⟨2, 14⟩
    let tokens := [name "material", ⟨.string, "m", .start⟩, symbol .leftBrace, name "shininess",
      blank, symbol .equal, blank, second, ⟨.integer, "2", .start⟩, symbol .rightBrace,
      .bare .endOfFile .start]
    let files : Files := fun _ => .error .notFound
    let l := Loader.new Recorder.default "/"
    let load : Load := .readTokens tokens
    let s₀ := l.begin.start files tokens
    let s := s₀.advance true
    let u := (Parser.materialHeader.run s).2
    let v := u.advance true
    l.start? files load = some s₀ ∧ Parser.Entered s₀ .material u ∧
      Parser.BlockKind.material.Comes u () v ∧
      Parser.BlockKind.material.shape? v.cursor.current.text = some .number ∧
      l.FailsOnLine files load s₀ v [blank, symbol .equal, blank, second]
        (.placed second.position (.unexpectedToken "'='")) := by
  intro name symbol blank second tokens files l load s₀ s u v
  have hstart : l.start? files load = some s₀ := rfl
  have hs : Parser.Declares s₀ "material" s :=
    ⟨.here (by decide +kernel) (by decide +kernel) (by decide +kernel), by decide +kernel⟩
  have hheader : (Parser.materialHeader.run s).1 = .ok "m" := by decide +kernel
  have hblock : Parser.Entered s₀ .material u := .material hs (Parser.run_of_answer hheader)
  have hline : Parser.BlockKind.material.Comes u () v :=
    .here (by decide +kernel) (by decide +kernel) (by decide +kernel)
  have hshape : Parser.BlockKind.material.shape? v.cursor.current.text = some .number := by
    decide +kernel
  have hequals := values_take_one_equal hstart hblock hline hshape
  have hrest : v.cursor.rest = ([blank] ++ symbol .equal :: [blank]) ++ second ::
      [⟨.integer, "2", .start⟩, symbol .rightBrace, .bare .endOfFile .start] := by decide +kernel
  have hblank : ∀ x ∈ [blank], Cursor.skipsWhen false x := by decide
  exact ⟨hstart, hblock, hline, hshape,
    hequals.second nofun hrest (.equal hblank rfl hblank) rfl (.inr ⟨rfl, rfl⟩)⟩

/-- A layer is bound to a texture by a line with two `=`. -/
theorem readSource_tex_two_equals :
    let source := "texture \"brick\" \x7b \x7d\ntextureLayer \"wall\" base \x7b tex = = brick \x7d"
    let after := (Loader.new Recorder.default "/").readSource (fun _ => .error .notFound) source
    after.1.isOk ∧
      (after.2.resources.textureLayers.get? "wall").bind TextureLayer.texture = some "brick" := by
  decide +kernel

end Loader

end MaterialScript
