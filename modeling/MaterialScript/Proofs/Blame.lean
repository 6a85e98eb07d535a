/-
What the errors of a load are about.

Every error of a parser is a fault at the token where reading has stopped
(`StopsAt`, `Faults`), which fits the token (`Blamed`): the text it names is the
token's own. There is one rule for each operation of `Parser.Basic` and one for
each parser. Only a texture fails for another reason, when its image cannot be
loaded; its error is at the `}` of its block (`finishTexture_faults`).
-/
import MaterialScript.Grammar.Script
import MaterialScript.Proofs.Blocks

namespace MaterialScript

/-- A fault a token can be refused with. -/
inductive Blamed : Token → Fault → Prop
  | endOfFile {t : Token} : t.isEndOfFile → Blamed t .unexpectedEndOfInput
  | token (t : Token) : Blamed t (.unexpectedToken t.describe)
  | identifier (t : Token) : Blamed t (.unexpectedIdentifier t.text)
  | expectedIdentifier (t : Token) : Blamed t .expectedIdentifier
  | expectedAssignment (t : Token) : Blamed t .expectedAssignment
  | expectedString (t : Token) : Blamed t .expectedString
  | typeMismatch (t : Token) (detail : String) : Blamed t (.typeMismatch detail)
  | emptyInitializer {t : Token} : t.endsLine → Blamed t .emptyInitializer
  | duplicate (kind : ResourceKind) (t : Token) : Blamed t (.duplicateDeclaration kind t.text)
  | layerType (t : Token) : Blamed t (.unknownLayerType t.text)
  | shaderVersion (t : Token) : Blamed t .missingShaderVersion
  | entryPoint (t : Token) : Blamed t .invalidEntryPoint
  | reserved (t : Token) : Blamed t (.reservedName t.text)
  | number {t : Token} : t.kind = .integer ∨ t.kind = .float → Decimal.read? t.text = none →
      Blamed t (.invalidNumber t.text)

/-- A cursor stops at the token read last. Where that is the name of a variable, it may stop at the
`@` before it, and after the word `discard` at the token that stands next. -/
inductive Cursor.StopsAt (c : Cursor) : Token → Prop
  | last {t : Token} {before : List Token} : c.passed = t :: before → StopsAt c t
  | atSign {t name : Token} {before : List Token} : t.isSymbol .atSign → name.kind = .name →
      c.passed = name :: t :: before → StopsAt c t
  | discarded {t : Token} {gap after : List Token} : c.current.isName "discard" →
      (∀ x ∈ gap, x.kind.isWhitespace) → c.rest = gap ++ t :: after → StopsAt c t

/-- A cursor stops at tokens of its sequence. -/
theorem Cursor.StopsAt.mem {c : Cursor} {t : Token} (h : c.StopsAt t) : t ∈ c.tokens := by
  cases h with
  | last hpassed => simp [tokens, hpassed]
  | atSign _ _ hpassed => simp [tokens, hpassed]
  | discarded _ _ hrest => simp [tokens, hrest]

namespace Parser

variable {ρ α β : Type} {known : List Token}

/-- Reading has begun, and each of these tokens is the one read last. -/
structure State.Knows (s : State ρ) (known : List Token) : Prop where
  ends : Ends s.cursor.tokens
  started : ∃ before, s.cursor.passed = s.cursor.current :: before
  known : ∀ t ∈ known, t = s.cursor.current

namespace State.Knows

variable {s u : State ρ}

/-- Where reading has gone on, another token may be the one read last. -/
theorem onward (h : s.Knows known) (honward : s.Onward u) : u.Knows [] where
  ends := honward.ends h.ends
  started := by
    obtain ⟨before, hpassed⟩ := h.started
    obtain ⟨ts, hts⟩ := honward.leads
    obtain ⟨t, before', hstarted⟩ : ∃ t before', u.cursor.passed = t :: before' :=
      List.exists_cons_of_ne_nil (by simp [hts.passed, hpassed])
    exact ⟨before', by simp [Cursor.current, hstarted]⟩
  known := List.forall_mem_nil _

theorem stays (h : s.Knows known) (hcursor : u.cursor = s.cursor) : u.Knows known := by
  obtain ⟨hends, hstarted, hknown⟩ := h
  rw [← hcursor] at hends hstarted hknown
  exact ⟨hends, hstarted, hknown⟩

theorem singleton (h : s.Knows known) {t : Token} (ht : t = s.cursor.current) : s.Knows [t] :=
  ⟨h.ends, h.started, by simpa using ht⟩

/-- Reading stops at a token it knows. -/
theorem stopsAt (h : s.Knows known) {t : Token} (ht : t ∈ known) : s.cursor.StopsAt t := by
  obtain ⟨before, hpassed⟩ := h.started
  rw [h.known t ht]
  exact .last hpassed

end State.Knows

/-- After a step there is a token read last. -/
theorem State.knows_advance {s : State ρ} (hends : Ends s.cursor.tokens) (b : Bool) :
    (s.advance b).Knows [(s.advance b).cursor.current] where
  ends := (s.advance_onward b).ends hends
  started := by
    change ∃ before, (s.cursor.advance b).passed = (s.cursor.advance b).current :: before
    rcases Cursor.advance_cases hends b with ⟨between, hpasses, -⟩ | ⟨-, hstay, heof⟩
    · exact ⟨between.reverse ++ s.cursor.passed, by simpa using hpasses.passed⟩
    · have hkind : s.cursor.current.kind = .endOfFile := by simpa [Token.isEndOfFile] using heof
      rw [hstay]
      exact Cursor.exists_passed (by simp [hkind])
  known := by simp

/-- Where these tokens are the one read last, every error of `p` is a fault in `F` at the token
where reading stops. -/
def Faults (F : Token → Fault → Prop) (known : List Token) (p : Parser ρ α) : Prop :=
  ∀ ⦃s : State ρ⦄ ⦃e : ScriptError⦄ ⦃u : State ρ⦄, s.Knows known → p.run s = (.error e, u) →
    ∃ t, u.cursor.StopsAt t ∧ ∃ fault, F t fault ∧ e = .placed t.position fault

namespace Faults

variable {F G : Token → Fault → Prop} {p : Parser ρ α} {f : α → Parser ρ β} {t : Token}

/-! ## Rules -/

theorem mono (h : Faults F known p) (himp : ∀ t fault, F t fault → G t fault) :
    Faults G known p := by
  intro s e u hknows hrun
  obtain ⟨t, ht, fault, hF, rfl⟩ := h hknows hrun
  exact ⟨t, ht, fault, himp _ _ hF, rfl⟩

theorem failAt (ht : t ∈ known) {fault : Fault} (hF : F t fault) :
    Faults F known (failAt t fault : Parser ρ α) := by
  intro s e u hknows hrun
  cases hrun
  exact ⟨t, hknows.stopsAt ht, fault, hF, rfl⟩

theorem failIf (b : Bool) (ht : t ∈ known) {fault : Fault} (hF : F t fault) :
    Faults F known (failIf b t fault : Parser ρ Unit) := by
  unfold Parser.failIf
  split
  · exact failAt ht hF
  · exact fun _ _ _ _ hrun => nomatch hrun

theorem pure (a : α) : Faults F known (Pure.pure a : Parser ρ α) :=
  fun _ _ _ _ hrun => nomatch hrun

theorem note (notices : Journal) : Faults F known (note notices : Parser ρ Unit) :=
  fun _ _ _ _ hrun => nomatch hrun

theorem noteIf (b : Bool) (notices : Journal) :
    Faults F known (noteIf b notices : Parser ρ Unit) := by
  unfold Parser.noteIf
  split
  · exact note _
  · exact pure ()

theorem consult (f : Variables → α) : Faults F known (consult f : Parser ρ α) :=
  fun _ _ _ _ hrun => nomatch hrun

theorem setVariable (name : String) (value : Value) :
    Faults F known (setVariable name value : Parser ρ Unit) := fun _ _ _ _ hrun => nomatch hrun

theorem build (f : ρ → α × ρ) : Faults F known (build f) := fun _ _ _ _ hrun => nomatch hrun

theorem inspect (f : ρ → α) : Faults F known (inspect f) := build _

theorem modify (f : ρ → ρ) : Faults F known (modify f) := build _

theorem take (b : Bool) : Faults F known (take b : Parser ρ Token) :=
  fun _ _ _ _ hrun => nomatch hrun

theorem peek : Faults F known (peek : Parser ρ Token) := fun _ _ _ _ hrun => nomatch hrun

/-- A part that does not move leaves what is known to the next one. -/
theorem bind_stays (hstays : Stays p) (hp : Faults F known p) (hf : ∀ a, Faults F known (f a)) :
    Faults F known (p >>= f) := by
  intro s e u hknows hrun
  rw [run_bind] at hrun
  rcases hp' : p.run s with ⟨e' | a, v⟩ <;> rw [hp'] at hrun
  · cases hrun
    exact hp hknows hp'
  · exact hf a (hknows.stays (hstays.cursor_eq hp')) hrun

theorem bind (hp : Faults F known p) (hf : ∀ a, Faults F [] (f a)) :
    Faults F known (p >>= f) := by
  intro s e u hknows hrun
  rw [run_bind] at hrun
  rcases hp' : p.run s with ⟨e' | a, v⟩ <;> rw [hp'] at hrun
  · cases hrun
    exact hp hknows hp'
  · exact hf a (hknows.onward (onward_of_run hp')) hrun

/-- What follows the token read last may find fault with it. -/
theorem bind_token {p : Parser ρ Token} {f : Token → Parser ρ β} (hp : Faults F known p)
    (hends : EndsOn p fun t c => c = t) (hf : ∀ t, Faults F [t] (f t)) :
    Faults F known (p >>= f) := by
  intro s e u hknows hrun
  rw [run_bind] at hrun
  rcases hp' : p.run s with ⟨e' | t, v⟩ <;> rw [hp'] at hrun
  · cases hrun
    exact hp hknows hp'
  · exact hf t ((hknows.onward (onward_of_run hp')).singleton (hends hp').symm) hrun

/-- A step may lead to the end of the file. -/
theorem bind_take {f : Token → Parser ρ β} (b : Bool) (hf : ∀ t, Faults F [t] (f t)) :
    Faults F known (Parser.take b >>= f) :=
  bind_token (take b) (fun s t u hrun => by cases hrun; rfl) hf

theorem bind_current {f : Token → Parser ρ β} (hf : ∀ t, Faults F [t] (f t)) :
    Faults F known (current >>= f) :=
  bind_token (fun _ _ _ _ hrun => nomatch hrun) (fun s t u hrun => by cases hrun; rfl) hf

theorem withLineBreaks (h : Faults F known p) : Faults F known (withLineBreaks p) := by
  intro s e u hknows hrun
  rcases hp : p.run (s.setLineBreaks true) with ⟨answer, v⟩
  simp only [Parser.withLineBreaks, hp] at hrun
  cases hrun
  obtain ⟨t, ht, hfault⟩ :=
    h (s := s.setLineBreaks true) ⟨hknows.ends, hknows.started, hknows.known⟩ hp
  refine ⟨t, ?_, hfault⟩
  cases ht with
  | last hpassed => exact .last hpassed
  | atSign hat hname hpassed => exact .atSign hat hname hpassed
  | discarded hdiscard hgap hrest => exact .discarded hdiscard hgap hrest

/-- A loop needs not have begun to read. -/
theorem runOverTokens {body : α → Token → Parser ρ (Progress α β)}
    {finish : α → Token → Parser ρ β} (hbody : ∀ a t, Faults F [t] (body a t))
    (hfinish : ∀ a t, t.isEndOfFile → Faults F [t] (finish a t)) (a : α) {s u : State ρ}
    {e : ScriptError} (hends : Ends s.cursor.tokens)
    (hrun : runOverTokens body finish a s = (.error e, u)) :
    ∃ t, u.cursor.StopsAt t ∧ ∃ fault, F t fault ∧ e = .placed t.position fault := by
  induction a, s using loop_induction body with
  | atEnd a s hend =>
    rw [runOverTokens_atEnd hend] at hrun
    obtain ⟨-, -, -, heof⟩ := Reads.step_of_atEnd hends hend
    exact hfinish a _ heof (State.knows_advance hends true) hrun
  | more a s a' v hend hround ih =>
    rw [runOverTokens_more hend hround] at hrun
    have honward := (s.advance_onward true).trans (onward_of_run hround)
    exact ih (honward.ends hends) hrun
  | done a s b v hend hround =>
    rw [runOverTokens_done hend hround] at hrun
    cases hrun
  | error a s e' v hend hround =>
    rw [runOverTokens_error hend hround] at hrun
    cases hrun
    exact hbody a _ (State.knows_advance hends true) hround

theorem overTokens {body : α → Token → Parser ρ (Progress α β)} {finish : α → Token → Parser ρ β}
    (hbody : ∀ a t, Faults F [t] (body a t))
    (hfinish : ∀ a t, t.isEndOfFile → Faults F [t] (finish a t)) (a : α) :
    Faults F known (overTokens body finish a) :=
  fun _ _ _ hknows hrun => runOverTokens hbody hfinish a hknows.ends hrun

end Faults

/-! ## Tokens and values -/

section Values

variable {t : Token}

theorem unexpected_blamed (t : Token) :
    Blamed t (if t.isEndOfFile then .unexpectedEndOfInput else .unexpectedToken t.describe) := by
  split
  · exact .endOfFile ‹_›
  · exact .token t

theorem unexpected_faults (ht : t ∈ known) :
    Faults Blamed known (unexpected t : Parser ρ α) := .failAt ht (unexpected_blamed t)

theorem unexpectedName_faults (ht : t ∈ known) :
    Faults Blamed known (unexpectedName t : Parser ρ α) := .failAt ht (.identifier t)

theorem unlessEnd_faults (ht : t ∈ known) :
    Faults Blamed known (unlessEnd t : Parser ρ Token) := by
  unfold unlessEnd
  split
  · exact .failAt ht (.endOfFile ‹_›)
  · exact .pure t

/-- What follows a token that is not the end of the file may find fault with it. -/
theorem Faults.bind_unlessEnd {f : Token → Parser ρ β} (ht : t ∈ known)
    (hf : Faults Blamed known (f t)) : Faults Blamed known (unlessEnd t >>= f) := by
  intro s e u hknows hrun
  unfold unlessEnd at hrun
  split at hrun
  · cases hrun
    exact ⟨t, hknows.stopsAt ht, _, .endOfFile ‹_›, rfl⟩
  · exact hf hknows hrun

theorem next_faults : Faults Blamed known (next : Parser ρ Token) :=
  .bind_take true fun _ => unlessEnd_faults (List.mem_cons_self ..)

/-- What follows the next token may find fault with it. -/
theorem Faults.bind_next {f : Token → Parser ρ β} (hf : ∀ t, Faults Blamed [t] (f t)) :
    Faults Blamed known (next >>= f) :=
  .bind_token next_faults .next hf

theorem expect_faults (symbol : Symbol) :
    Faults Blamed known (expect symbol : Parser ρ Unit) := by
  refine .bind_next fun t => ?_
  split
  · exact .pure ()
  · exact unexpected_faults (List.mem_cons_self ..)

theorem accept_faults (symbol : Symbol) :
    Faults Blamed known (accept symbol : Parser ρ Bool) := by
  refine .bind .peek fun t => ?_
  split
  · exact .bind (.take true) fun _ => .pure true
  · exact .pure false

theorem variableName_faults : Faults Blamed known (variableName : Parser ρ String) := by
  refine .bind_take false fun t => .bind_unlessEnd (List.mem_cons_self ..) ?_
  split
  · exact .pure _
  · exact .failAt (List.mem_cons_self ..) (.expectedIdentifier t)

theorem declaredName_faults : Faults Blamed known (declaredName : Parser ρ Token) := by
  refine .bind_next fun t => ?_
  split
  · exact .pure t
  · exact .failAt (List.mem_cons_self ..) (.expectedIdentifier t)

theorem separated_faults (separator : Symbol) {term : Token → Parser ρ α}
    (hterm : ∀ t, Faults Blamed [t] (term t)) :
    Faults Blamed known (separated separator term) :=
  .overTokens (fun _ t => .bind (hterm t) fun _ => .bind (accept_faults _) fun _ => .pure _)
    (fun _ _ heof => .failAt (List.mem_cons_self ..) (.endOfFile heof)) _

theorem skipBlock_faults : Faults Blamed known (skipBlock : Parser ρ Unit) :=
  .bind (.overTokens (fun _ _ => .pure _)
      (fun _ _ heof => .failAt (List.mem_cons_self ..) (.endOfFile heof)) _) fun _ =>
    .overTokens (fun _ _ => .pure _)
      (fun _ _ heof => .failAt (List.mem_cons_self ..) (.endOfFile heof)) _

theorem numeral_faults (ht : t ∈ known) (hkind : t.kind = .integer ∨ t.kind = .float) :
    Faults Blamed known (numeral t : Parser ρ Float) := by
  unfold numeral
  split
  · exact .pure _
  · exact .failAt ht (.number hkind ‹_›)

theorem numeral_stays (t : Token) : Stays (numeral t : Parser ρ Float) := by
  intro s
  unfold numeral
  split <;> rfl

theorem termOnLine_faults : Faults Blamed known (termOnLine : Parser ρ Token) := by
  refine .bind_next fun t => ?_
  split
  · exact unexpected_faults (List.mem_cons_self ..)
  · exact .pure t

theorem operand_faults (unbound : Value) (ht : t ∈ known) :
    Faults Blamed known (operand unbound t : Parser ρ Value) := by
  unfold operand
  split
  · exact .bind (numeral_faults ht (.inl ‹_›)) fun _ => .pure _
  · exact .bind (numeral_faults ht (.inr ‹_›)) fun _ => .pure _
  · exact .pure _
  · refine .bind variableName_faults fun name => .bind (.consult _) fun found => ?_
    split
    · exact .pure _
    · exact .bind (.note _) fun _ => .pure _
  · exact .failAt ht (.token t)

/-- After the value of a term, reading still stops at the term. -/
theorem operand_stopsAt {unbound value : Value} {s u : State ρ} (hknows : s.Knows known)
    (ht : t ∈ known) (hrun : (operand unbound t).run s = (.ok value, u)) :
    u.cursor.StopsAt t := by
  have number : ∀ {r : Except ScriptError Value × State ρ},
      (do return .number (← numeral t) : Parser ρ Value).run s = r → r.2.cursor.StopsAt t := by
    rintro _ rfl
    rw [Stays.bind (numeral_stays t) (fun _ _ => rfl) s]
    exact hknows.stopsAt ht
  unfold operand at hrun
  split at hrun
  · exact number hrun
  · exact number hrun
  · cases hrun
    exact hknows.stopsAt ht
  · rename_i hkind
    obtain ⟨name, v, hname, hrun⟩ := run_bind_eq_ok hrun
    obtain ⟨found, w, hconsult, hrun⟩ := run_bind_eq_ok hrun
    cases hconsult
    obtain ⟨n, hpasses, hn⟩ := variableName_passes hknows.ends hname
    have hcursor : u.cursor = v.cursor := by
      split at hrun <;> cases hrun <;> rfl
    obtain ⟨before, hpassed⟩ := hknows.started
    rw [← hknows.known t ht] at hpassed
    rw [hcursor]
    exact .atSign (by simp [Token.isSymbol, hkind]) hn (by rw [hpasses.passed, hpassed]; rfl)
  · cases hrun

/-- The value of a term may have the wrong type. -/
theorem Faults.bind_operand {unbound : Value} {f : Value → Parser ρ β} (ht : t ∈ known)
    (hf : ∀ value, Faults Blamed [] (f value) ∨
      ∃ detail, f value = Parser.failAt t (.typeMismatch detail)) :
    Faults Blamed known (operand unbound t >>= f) := by
  intro s e u hknows hrun
  rw [run_bind] at hrun
  rcases hoperand : (operand unbound t).run s with ⟨e' | value, v⟩ <;> rw [hoperand] at hrun
  · cases hrun
    exact operand_faults unbound ht hknows hoperand
  · rcases hf value with hfaults | ⟨detail, hfail⟩
    · exact hfaults (hknows.onward (onward_of_run hoperand)) hrun
    · simp only [hfail] at hrun
      cases hrun
      exact ⟨t, operand_stopsAt hknows ht hoperand, _, .typeMismatch t detail, rfl⟩

theorem endOfNumber_faults : Faults Blamed known (endOfNumber : Parser ρ Unit) := by
  refine .bind_take true fun t => ?_
  split
  · exact .pure ()
  · split
    · exact .failAt (List.mem_cons_self ..) (.typeMismatch t _)
    · exact .failAt (List.mem_cons_self ..) (.token t)

/-- What follows the term after a sign may find fault with it. -/
theorem Faults.bind_term {f : Token → Parser ρ β} (hf : ∀ t, Faults Blamed [t] (f t)) :
    Faults Blamed known (termOnLine >>= f) :=
  .bind_token termOnLine_faults .termOnLine hf

theorem joined_faults : Faults Blamed known (joined : Parser ρ String) := by
  refine .bind_term fun t => ?_
  split
  · exact .failAt (List.mem_cons_self ..) (.typeMismatch t _)
  · refine .bind_operand (List.mem_cons_self ..) fun value => ?_
    split
    · exact .inl (.pure _)
    · exact .inr ⟨_, rfl⟩

theorem restOfText_faults (first : String) :
    Faults Blamed known (restOfText first : Parser ρ String) := by
  refine .overTokens (fun text t => ?_) (fun _ _ _ => .pure _) _
  split
  · exact .pure _
  · split
    · exact .bind joined_faults fun _ => .pure _
    · exact .failAt (List.mem_cons_self ..) (.token t)

theorem initializer_faults : Faults Blamed known (initializer : Parser ρ Value) := by
  refine .bind_take true fun t => ?_
  split
  · exact .failAt (List.mem_cons_self ..) (.emptyInitializer ‹_›)
  split
  · refine .bind_term fun t => .bind_operand (List.mem_cons_self ..) fun value => ?_
    split
    · exact .inl (.bind endOfNumber_faults fun _ => .pure _)
    · exact .inr ⟨_, rfl⟩
  · refine .bind (operand_faults _ (List.mem_cons_self ..)) fun value => ?_
    split
    · exact .bind endOfNumber_faults fun _ => .pure _
    · exact .bind (restOfText_faults _) fun _ => .pure _

theorem variableDefinition_faults :
    Faults Blamed known (variableDefinition : Parser ρ Unit) := by
  refine .withLineBreaks (.bind variableName_faults fun name => .bind (.consult _) fun _ =>
    .bind (.noteIf _ _) fun _ => .bind_next fun t => ?_)
  split
  · exact .bind initializer_faults fun _ => .setVariable _ _
  · exact .failAt (List.mem_cons_self ..) (.expectedAssignment t)

theorem optionalEqual_faults : Faults Blamed known (optionalEqual : Parser ρ Unit) :=
  .bind (accept_faults _) fun _ => .pure ()

theorem magnitude_faults (ht : t ∈ known) :
    Faults Blamed known (magnitude t : Parser ρ Float) := by
  unfold magnitude
  split
  · exact numeral_faults ht (.inl ‹_›)
  · exact numeral_faults ht (.inr ‹_›)
  · exact .bind variableName_faults fun name => .bind (.consult _) fun _ =>
      .bind (.note _) fun _ => .pure _
  · exact unexpectedName_faults ht
  · exact unexpected_faults ht

theorem signedNumber_faults (ht : t ∈ known) :
    Faults Blamed known (signedNumber t : Parser ρ Float) := by
  unfold signedNumber
  split
  · exact .bind_next fun t => .bind (magnitude_faults (List.mem_cons_self ..)) fun _ => .pure _
  · exact magnitude_faults ht

theorem number_faults : Faults Blamed known (number : Parser ρ Float) :=
  .bind optionalEqual_faults fun _ => .bind_next fun _ =>
    signedNumber_faults (List.mem_cons_self ..)

theorem word_faults : Faults Blamed known (word : Parser ρ String) := by
  refine .bind optionalEqual_faults fun _ => .bind_next fun t => ?_
  split
  · exact .pure _
  · exact unexpected_faults (List.mem_cons_self ..)

theorem flag_faults : Faults Blamed known (flag : Parser ρ Bool) := by
  refine .bind optionalEqual_faults fun _ => .bind_next fun t => ?_
  split
  · exact .pure _
  split
  · exact .pure _
  split
  · exact unexpectedName_faults (List.mem_cons_self ..)
  · exact unexpected_faults (List.mem_cons_self ..)

theorem keyword_faults (vocabulary : Vocabulary α) :
    Faults Blamed known (keyword vocabulary : Parser ρ α) :=
  .bind word_faults fun _ => .bind (.note _) fun _ => .pure _

theorem textTerm_faults (ht : t ∈ known) :
    Faults Blamed known (textTerm t : Parser ρ String) := by
  unfold textTerm
  split
  · exact .pure _
  · exact .bind variableName_faults fun name => .bind (.consult _) fun _ =>
      .bind (.note _) fun _ => .pure _
  · exact .failAt ht (.expectedString t)

theorem text_faults : Faults Blamed known (text : Parser ρ String) :=
  .withLineBreaks (.bind optionalEqual_faults fun _ =>
    .bind (separated_faults _ fun _ => textTerm_faults (List.mem_cons_self ..)) fun _ => .pure _)

theorem color_faults : Faults Blamed known (color : Parser ρ Color) :=
  .withLineBreaks (.bind optionalEqual_faults fun _ =>
    .bind (separated_faults _ fun _ => signedNumber_faults (List.mem_cons_self ..)) fun _ =>
      .pure _)

theorem nameOrText_faults : Faults Blamed known (nameOrText : Parser ρ String) := by
  refine .bind optionalEqual_faults fun _ => .bind .peek fun t => ?_
  split
  · exact text_faults
  · exact text_faults
  · exact word_faults

end Values

/-! ## Lines and blocks -/

/-- The token after `discard` is refused where it stands, before it is read. -/
theorem discardedBlock_faults {t : Token} (ht : t ∈ known) (hdiscard : t.isName "discard") :
    Faults Blamed known (discardedBlock : Parser ρ Unit) := by
  intro s e u hknows hrun
  obtain rfl := hknows.known t ht
  rw [discardedBlock, run_bind] at hrun
  simp only [peek] at hrun
  split at hrun
  · exact skipBlock_faults hknows hrun
  · cases hrun
    refine ⟨_, ?_, _, unexpected_blamed _, rfl⟩
    rcases Cursor.advance_cases hknows.ends true with ⟨gap, hpasses, hgap, -⟩ | ⟨-, -, heof⟩
    · refine .discarded hdiscard (fun x hx => ?_) (hpasses.rest.trans (List.append_assoc ..))
      exact Token.isWhitespace_of_skipsWhen (m := s.cursor.lineBreaksCount) (hgap x hx)
    · simp [Token.isEndOfFile, Token.kind_of_isName hdiscard] at heof

section Lines

variable {F : Token → Fault → Prop} (hF : ∀ t fault, Blamed t fault → F t fault)
  {named : β → Token → Parser ρ β} (hnamed : ∀ b t, Faults F [t] (named b t))
include hF hnamed

theorem line_faults (b : β) (t : Token) : Faults F [t] (line named b t) := by
  unfold line
  split
  · exact .bind (variableDefinition_faults.mono hF) fun _ => .pure b
  · split
    · refine .bind (.mono (discardedBlock_faults (List.mem_cons_self ..) ?_) hF) fun _ => .pure b
      simp [Token.isName, *]
    · exact hnamed b t
  · exact (unexpected_faults (List.mem_cons_self ..)).mono hF

theorem lineOrClose_faults (closing : TokenKind) (b : β) (t : Token) :
    Faults F [t] (lineOrClose closing named b t) := by
  unfold lineOrClose
  split
  · exact .pure _
  · exact .bind (line_faults hF hnamed b t) fun _ => .pure _

omit hnamed in
theorem closeAtEnd_faults (closing : TokenKind) (b : β) (t : Token) :
    Faults F [t] (closeAtEnd closing b t : Parser ρ β) := by
  unfold closeAtEnd
  split
  · exact .pure b
  · exact (unexpected_faults (List.mem_cons_self ..)).mono hF

end Lines

section Blocks

variable {named : β → Token → Parser ρ β} (hnamed : ∀ b t, Faults Blamed [t] (named b t))
include hnamed

theorem blockBody_faults (b : β) : Faults Blamed known (blockBody named b) :=
  .overTokens (lineOrClose_faults (fun _ _ h => h) hnamed _)
    (fun b t _ => closeAtEnd_faults (fun _ _ h => h) _ b t) b

theorem block_faults (b : β) : Faults Blamed known (block named b) :=
  .bind (expect_faults _) fun _ => blockBody_faults hnamed b

end Blocks

theorem Attribute.read_faults (a : Attribute β) :
    Faults Blamed known (a.read : Parser ρ (β → β)) := by
  cases a with
  | color set => exact .bind color_faults fun _ => .pure _
  | number set => exact .bind number_faults fun _ => .pure _
  | flag set => exact .bind flag_faults fun _ => .pure _
  | text set => exact .bind text_faults fun _ => .pure _
  | keyword changes => exact keyword_faults changes

theorem Attribute.readLine_faults (attributes : Attributes β) {t : Token} (ht : t ∈ known) :
    Faults Blamed known (Attribute.readLine attributes t : Parser ρ (β → β)) := by
  unfold Attribute.readLine
  split
  · exact read_faults _
  · exact unexpectedName_faults ht

/-! ## The lines of declarations -/

section Grammar

variable {σ : Type}

theorem materialLine_faults (b : Unit) (t : Token) :
    Faults Blamed [t] (materialLine (σ := σ) b t) :=
  .bind (Attribute.readLine_faults _ (List.mem_cons_self ..)) fun _ => .modify _

theorem componentLine_faults (a : VertexAttribute) (t : Token) :
    Faults Blamed [t] (componentLine (σ := σ) a t) :=
  .bind (Attribute.readLine_faults _ (List.mem_cons_self ..)) fun _ => .pure _

theorem filterLine_faults (b : Unit) (t : Token) :
    Faults Blamed [t] (filterLine (σ := σ) b t) :=
  .bind (Attribute.readLine_faults _ (List.mem_cons_self ..)) fun _ => .modify _

theorem attributeHeader_faults (kind : AttributeKind) :
    Faults Blamed known (attributeHeader (σ := σ) kind) := by
  refine .bind ?_ fun name => .bind (expect_faults _) fun _ => .pure _
  unfold headerName
  split
  · refine .bind_next fun t => ?_
    split
    · exact .pure _
    · exact .failAt (List.mem_cons_self ..) (.expectedString t)
  · exact .pure ""

theorem attributeBlock_faults (b : Unit) (t : Token) :
    Faults Blamed [t] (attributeBlock (σ := σ) b t) := by
  unfold attributeBlock
  split
  · exact unexpectedName_faults (List.mem_cons_self ..)
  · exact .bind (attributeHeader_faults _) fun a =>
      .bind (blockBody_faults componentLine_faults a) fun _ => .modify _

theorem layerLine_faults (b : Unit) (t : Token) :
    Faults Blamed [t] (layerLine (σ := σ) b t) := by
  unfold layerLine
  split
  · refine .bind (.bind nameOrText_faults fun name => .bind (.inspect _) fun found => ?_) fun _ =>
      .modify _
    split
    · exact .pure _
    · exact .bind (.note _) fun _ => .pure _
  · exact .bind (Attribute.readLine_faults _ (List.mem_cons_self ..)) fun _ => .modify _

theorem textureLine_faults (b : Unit) (t : Token) :
    Faults Blamed [t] (textureLine (σ := σ) b t) := by
  unfold textureLine
  split
  · exact block_faults filterLine_faults ()
  · exact .bind (Attribute.readLine_faults _ (List.mem_cons_self ..)) fun _ => .modify _

theorem requireVersion_faults {t : Token} (ht : t ∈ known) :
    Faults Blamed known (requireVersion (σ := σ) t) :=
  .bind_stays (fun _ => rfl) (.inspect _) fun _ => .failIf _ ht (.shaderVersion t)

theorem codeFromFile_faults : Faults Blamed known (codeFromFile (σ := σ)) := by
  refine .bind text_faults fun path => .bind (.build _) fun content => ?_
  split
  · exact .pure _
  · exact .bind (.note _) fun _ => .pure _

theorem stageLine_faults (b : Unit) (t : Token) :
    Faults Blamed [t] (stageLine (σ := σ) b t) := by
  unfold stageLine
  split
  · exact .bind (keyword_faults _) fun _ => .modify _
  · exact .bind (requireVersion_faults (List.mem_cons_self ..)) fun _ =>
      .bind text_faults fun _ => .modify _
  · exact .bind (requireVersion_faults (List.mem_cons_self ..)) fun _ =>
      .bind codeFromFile_faults fun _ => .modify _
  · exact unexpectedName_faults (List.mem_cons_self ..)

theorem stageHeader_faults (stage : ShaderType) :
    Faults Blamed known (stageHeader (σ := σ) stage) := by
  refine .bind_next fun t => ?_
  split
  · exact .pure _
  split
  · exact .bind (expect_faults _) fun _ => .pure _
  · exact .failAt (List.mem_cons_self ..) (.entryPoint t)

variable [RenderSystem σ]

theorem finishStage_faults (stage : ShaderType) (entryPoint : String) :
    Faults Blamed known (finishStage (σ := σ) stage entryPoint) := by
  refine .bind_current fun close => .bind_stays (fun _ => rfl) (.build _) fun draft => ?_
  split
  · exact .failAt (List.mem_cons_self ..) (.shaderVersion close)
  split
  · exact .note _
  · exact .bind (.build _) fun _ => .noteIf _ _

theorem stageBlock_faults (b : Unit) (t : Token) :
    Faults Blamed [t] (stageBlock (σ := σ) b t) := by
  unfold stageBlock
  split
  · exact unexpectedName_faults (List.mem_cons_self ..)
  · exact .bind (stageHeader_faults _) fun _ => .bind (blockBody_faults stageLine_faults ())
      fun _ => finishStage_faults _ _

theorem dialectBlock_faults (b : Unit) (t : Token) :
    Faults Blamed [t] (dialectBlock (σ := σ) b t) := by
  unfold dialectBlock
  split
  · exact unexpectedName_faults (List.mem_cons_self ..)
  · refine .bind (.inspect _) fun backend => ?_
    split
    · exact .bind (.note _) fun _ => skipBlock_faults
    · exact .bind (block_faults stageBlock_faults ()) fun _ => .bind (.build _) fun _ =>
        .bind (.inspect _) fun _ => .noteIf _ _

/-! ## Declarations -/

omit [RenderSystem σ] in
theorem refuseDuplicate_faults (kind : ResourceKind) {name : Token} (h : name ∈ known) :
    Faults Blamed known (refuseDuplicate (σ := σ) kind name) :=
  .bind_stays (fun _ => rfl) (.inspect _) fun _ => .failIf _ h (.duplicate kind name)

/-- What follows the name of a declaration may find fault with it. -/
theorem Faults.bind_name {f : Token → Parser ρ β} (hf : ∀ t, Faults Blamed [t] (f t)) :
    Faults Blamed known (declaredName >>= f) :=
  .bind_token declaredName_faults .declaredName hf

omit [RenderSystem σ] in
theorem newName_faults (kind : ResourceKind) : Faults Blamed known (newName (σ := σ) kind) :=
  .bind_name fun _ => .bind (refuseDuplicate_faults kind (List.mem_cons_self ..)) fun _ => .pure _

theorem materialHeader_faults : Faults Blamed known (materialHeader (σ := σ)) :=
  .bind (newName_faults _) fun _ => .bind (expect_faults _) fun _ =>
    .bind (.modify _) fun _ => .pure _

theorem vertexFormatHeader_faults : Faults Blamed known (vertexFormatHeader (σ := σ)) :=
  .bind_name fun name => .bind_stays (.failIf _ _ _)
    (.failIf _ (List.mem_cons_self ..) (.reserved name)) fun _ =>
    .bind (refuseDuplicate_faults _ (List.mem_cons_self ..)) fun _ =>
    .bind (expect_faults _) fun _ => .bind (.modify _) fun _ => .pure _

omit [RenderSystem σ] in
theorem textureHeader_faults : Faults Blamed known (textureHeader (σ := σ)) :=
  .bind (newName_faults _) fun _ => .bind (expect_faults _) fun _ =>
    .bind (.modify _) fun _ => .pure _

omit [RenderSystem σ] in
theorem layerKind_faults : Faults Blamed known (layerKind (σ := σ)) := by
  refine .bind_next fun t => ?_
  split
  · split
    · exact .pure _
    · exact .failAt (List.mem_cons_self ..) (.layerType t)
  · exact unexpected_faults (List.mem_cons_self ..)

theorem textureLayerHeader_faults : Faults Blamed known (textureLayerHeader (σ := σ)) :=
  .bind (newName_faults _) fun _ => .bind layerKind_faults fun _ => .bind (expect_faults _) fun _ =>
    .bind (.modify _) fun _ => .pure _

omit [RenderSystem σ] in
theorem inputLayout_faults : Faults Blamed known (inputLayout (σ := σ)) := by
  refine .bind_next fun t => ?_
  split
  · exact .pure none
  · exact .bind (.inspect _) fun _ => .bind (.noteIf _ _) fun _ =>
      .bind (expect_faults _) fun _ => .pure _
  · exact unexpected_faults (List.mem_cons_self ..)

theorem shaderHeader_faults {name : Token} (h : name ∈ known) :
    Faults Blamed known (shaderHeader (σ := σ) name) :=
  .bind (refuseDuplicate_faults _ h) fun _ => .bind inputLayout_faults fun _ => .modify _

theorem shader_faults : Faults Blamed known (shader (σ := σ)) := by
  refine .bind_name fun name => .bind_stays (fun _ => rfl) (.inspect _) fun supported => ?_
  split
  · exact .bind (.note _) fun _ => skipBlock_faults
  · exact .bind (shaderHeader_faults (List.mem_cons_self ..)) fun _ =>
      blockBody_faults dialectBlock_faults ()

/-- A fault a token can be refused with, or an image that cannot be loaded. -/
def BlamedOrLoad (t : Token) (fault : Fault) : Prop :=
  Blamed t fault ∨ ∃ path, fault = .textureLoad path

/-- The one error that is not about a token is put at the end of the block. -/
theorem finishTexture_faults (name : String) :
    Faults BlamedOrLoad known (finishTexture (σ := σ) name) :=
  .bind_current fun _ => .bind_stays (fun _ => rfl) (.build _) fun draft =>
    .bind_stays (fun _ => rfl) (.build _) fun _ =>
    .failIf _ (List.mem_cons_self ..) (.inr ⟨draft.settings.fileName, rfl⟩)

theorem declaration_faults (b : Unit) (t : Token) :
    Faults BlamedOrLoad [t] (declaration (σ := σ) b t) := by
  have blamed : ∀ {known} {p : Parser (Scene σ) Unit}, Faults Blamed known p →
      Faults BlamedOrLoad known p := fun hp => hp.mono fun _ _ h => .inl h
  unfold declaration
  split
  · exact blamed (.bind materialHeader_faults fun _ => blockBody_faults materialLine_faults ())
  · exact blamed shader_faults
  · exact blamed (.bind vertexFormatHeader_faults fun _ =>
      blockBody_faults attributeBlock_faults ())
  · exact .bind (textureHeader_faults.mono fun _ _ h => .inl h) fun name =>
      .bind (blamed (blockBody_faults textureLine_faults ())) fun _ => finishTexture_faults name
  · exact blamed (.bind textureLayerHeader_faults fun _ => blockBody_faults layerLine_faults ())
  · exact blamed (unexpectedName_faults (List.mem_cons_self ..))

/-- **An error of a script is a fault at the token where reading stops.** -/
theorem script_faults {s u : State (Scene σ)} {e : ScriptError} (hends : Ends s.cursor.tokens)
    (h : script.run s = (.error e, u)) :
    ∃ t, u.cursor.StopsAt t ∧ ∃ fault, BlamedOrLoad t fault ∧ e = .placed t.position fault := by
  have hF : ∀ t fault, Blamed t fault → BlamedOrLoad t fault := fun _ _ h => .inl h
  exact Faults.runOverTokens (lineOrClose_faults hF declaration_faults .endOfFile)
    (fun b t _ => closeAtEnd_faults hF .endOfFile b t) () hends h

end Grammar

end Parser

end MaterialScript
