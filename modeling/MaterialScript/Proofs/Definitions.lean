/-
A variable definition is all or nothing.

`DefinitionRun s` lists the ways the line of a definition can end: without a name,
without the sign, without a value, or with the name bound. What is evaluated is
evaluated before anything is bound, and evaluating only consults (`Consults`): it
leaves the variables as they are and warns of those that are not bound. So a
definition binds its name to the value its initializer has under the old
variables, or it binds nothing, and it leaves everything else as it was
(`variableDefinition_outcome`).
-/
import MaterialScript.Loader
import MaterialScript.Proofs.Composition

namespace MaterialScript

/-- Tells that a definition replaces the variable `name`. -/
def Variables.redefined (name : String) : Notice :=
  .warning ("Multiple definition of variable named \"" ++ name ++ "\"")

theorem Variables.redefined_ne_unknown (name other : String) : redefined name ≠ unknown other := by
  intro h
  have htexts := congrArg (fun notice => notice.text.toList.head?) h
  simp [redefined, unknown, Notice.warning] at htexts

namespace Parser

variable {ρ α β : Type}

/-! ## Evaluation -/

/-- From `s` to `u` the variables have stayed as they were, and variables that are not bound have
been warned of. -/
structure State.Consulted (s u : State ρ) : Prop where
  bindings : u.bindings = s.bindings
  journal : ∃ names : List String, u.journal = s.journal ++ names.map Variables.unknown

namespace State.Consulted

variable {s t u : State ρ}

theorem of_journal (hbindings : u.bindings = s.bindings) (hjournal : u.journal = s.journal) :
    Consulted s u :=
  ⟨hbindings, [], by simp [hjournal]⟩

theorem trans (hst : Consulted s t) (htu : Consulted t u) : Consulted s u := by
  obtain ⟨names, hnames⟩ := hst.journal
  obtain ⟨more, hmore⟩ := htu.journal
  refine ⟨htu.bindings.trans hst.bindings, names ++ more, ?_⟩
  rw [hmore, hnames, List.map_append, List.append_assoc]

end State.Consulted

/-- Whatever it answers, `p` leaves the variables as they are and warns only of variables that are
not bound. -/
def Consults (p : Parser ρ α) : Prop := ∀ s : State ρ, s.Consulted (p.run s).2

namespace Consults

variable {p : Parser ρ α} {f : α → Parser ρ β}

theorem pure (a : α) : Consults (Pure.pure a : Parser ρ α) := fun _ => .of_journal rfl rfl

theorem fail (e : ScriptError) : Consults (fail e : Parser ρ α) := fun _ => .of_journal rfl rfl

theorem failAt (t : Token) (fault : Fault) : Consults (failAt t fault : Parser ρ α) := fail _

theorem take (b : Bool) : Consults (take b : Parser ρ Token) := fun _ => .of_journal rfl rfl

theorem consult (f : Variables → α) : Consults (consult f : Parser ρ α) :=
  fun _ => .of_journal rfl rfl

theorem unknown (name : String) : Consults (note [Variables.unknown name] : Parser ρ Unit) :=
  fun _ => ⟨rfl, [name], rfl⟩

theorem bind (hp : Consults p) (hf : ∀ a, Consults (f a)) : Consults (p >>= f) := by
  intro s
  have hs := hp s
  rcases hrun : p.run s with ⟨e | a, t⟩
  · rw [run_bind_of_error hrun]
    rwa [hrun] at hs
  · rw [run_bind_of_ok hrun]
    rw [hrun] at hs
    exact hs.trans (hf a t)

theorem overTokens {body : α → Token → Parser ρ (Progress α β)} {finish : α → Token → Parser ρ β}
    (a : α) (hbody : ∀ a t, Consults (body a t)) (hfinish : ∀ a t, Consults (finish a t)) :
    Consults (overTokens body finish a) := fun s =>
  runOverTokens_keeps (I := s.Consulted) (fun _ h => h.trans (.of_journal rfl rfl))
    (fun a t _ h => h.trans (hbody a t _)) (fun a t _ h => h.trans (hfinish a t _))
    (.of_journal rfl rfl)

theorem unlessEnd (t : Token) : Consults (unlessEnd t : Parser ρ Token) := by
  unfold Parser.unlessEnd
  split
  · exact failAt _ _
  · exact pure t

theorem next : Consults (next : Parser ρ Token) := .bind (take true) unlessEnd

theorem termOnLine : Consults (termOnLine : Parser ρ Token) := by
  refine .bind next fun t => ?_
  split
  · exact failAt _ _
  · exact pure t

theorem variableName : Consults (variableName : Parser ρ String) := by
  refine .bind (take false) fun t => .bind (unlessEnd t) fun t => ?_
  split
  · exact pure _
  · exact failAt _ _

theorem numeral (t : Token) : Consults (numeral t : Parser ρ Float) := by
  unfold Parser.numeral
  split
  · exact pure _
  · exact failAt _ _

theorem operand (unbound : Value) (t : Token) : Consults (operand unbound t : Parser ρ Value) := by
  unfold Parser.operand
  split
  · exact .bind (numeral t) fun _ => pure _
  · exact .bind (numeral t) fun _ => pure _
  · exact pure _
  · refine .bind variableName fun name => .bind (consult _) fun found => ?_
    split
    · exact pure _
    · exact .bind (unknown name) fun _ => pure _
  · exact failAt _ _

theorem endOfNumber : Consults (endOfNumber : Parser ρ Unit) := by
  refine .bind (take true) fun t => ?_
  split
  · exact pure ()
  · split
    · exact failAt _ _
    · exact failAt _ _

theorem joined : Consults (joined : Parser ρ String) := by
  refine .bind termOnLine fun t => ?_
  split
  · exact failAt _ _
  · refine .bind (operand _ t) fun value => ?_
    split
    · exact pure _
    · exact failAt _ _

theorem restOfText (first : String) : Consults (restOfText first : Parser ρ String) := by
  refine overTokens _ (fun text t => ?_) fun _ _ => pure _
  split
  · exact pure _
  · split
    · exact .bind joined fun _ => pure _
    · exact failAt _ _

/-- **Evaluating an initializer binds nothing**, on every way out of it. -/
theorem initializer : Consults (initializer : Parser ρ Value) := by
  refine .bind (take true) fun t => ?_
  split
  · exact failAt _ _
  split
  · refine .bind termOnLine fun t => .bind (operand _ t) fun value => ?_
    split
    · exact .bind endOfNumber fun _ => pure _
    · exact failAt _ _
  · refine .bind (operand _ t) fun value => ?_
    split
    · exact .bind endOfNumber fun _ => pure _
    · exact .bind (restOfText _) fun _ => pure _

end Consults

/-! ## The line of a definition -/

namespace State

variable (s : State ρ)

/-- The name that stands right after the token read last, the `@` of a definition. -/
def definedName? : Option String :=
  let t := s.cursor.peek false
  if t.kind = .name then some t.text else none

/-- What is told of a definition once its name is read: whether it replaces a variable. -/
def redefinition : Journal :=
  match s.definedName? with
  | some name => if s.bindings.contains name then [Variables.redefined name] else []
  | none => []

/-- Where the name of a definition has been read. -/
def pastName : State ρ := { s.advance false with journal := s.journal ++ s.redefinition }

/-- Where the token after the name of a definition has been read. -/
def pastSign : State ρ := s.pastName.advance true

end State

/-- The line that follows in `s` defines `name` as `value`: after the name there is a `=`, and after
it what evaluates to `value` under the variables of `s`. -/
structure State.Defines (s : State ρ) (name : String) (value : Value) : Prop where
  name : s.definedName? = some name
  sign : s.pastSign.cursor.current.isSymbol .equal
  value : (initializer.run s.pastSign).1 = .ok value

/-- The ways the line of a definition can end. -/
inductive DefinitionRun (s : State ρ) : Except ScriptError Unit × State ρ → Prop
  | noName {e : ScriptError} : s.definedName? = none → DefinitionRun s (.error e, s.advance false)
  | noSign {name : String} {e : ScriptError} : s.definedName? = some name →
      s.pastSign.cursor.current.isSymbol .equal = false → DefinitionRun s (.error e, s.pastSign)
  | noValue {name : String} {e : ScriptError} {u : State ρ} : s.definedName? = some name →
      initializer.run s.pastSign = (.error e, u) → DefinitionRun s (.error e, u)
  | bound {name : String} {value : Value} {u : State ρ} : s.definedName? = some name →
      s.pastSign.cursor.current.isSymbol .equal → initializer.run s.pastSign = (.ok value, u) →
      DefinitionRun s (.ok (), { u with bindings := u.bindings.set name value })

theorem unlessEnd_cases (t : Token) (s : State ρ) :
    (unlessEnd t).run s = (.ok t, s) ∨
      t.isEndOfFile ∧ ∃ e, (unlessEnd t).run s = (.error e, s) := by
  unfold unlessEnd
  split
  · exact .inr ⟨‹_›, _, rfl⟩
  · exact .inl rfl

theorem variableName_cases (s : State ρ) :
    (∃ name, s.definedName? = some name ∧ variableName.run s = (.ok name, s.advance false)) ∨
      s.definedName? = none ∧ ∃ e, variableName.run s = (.error e, s.advance false) := by
  have htake : (take false).run s = (.ok (s.cursor.peek false), s.advance false) := rfl
  unfold variableName
  rw [run_bind_of_ok htake]
  rcases unlessEnd_cases (s.cursor.peek false) (s.advance false) with hrun | ⟨hend, e, hrun⟩
  · rw [run_bind_of_ok hrun]
    by_cases hname : (s.cursor.peek false).kind = .name
    · exact .inl ⟨_, if_pos hname, by rw [if_pos hname]; rfl⟩
    · exact .inr ⟨if_neg hname, _, by rw [if_neg hname]; rfl⟩
  · have hname : (s.cursor.peek false).kind ≠ .name := by
      intro hname
      simp [Token.isEndOfFile, hname] at hend
    exact .inr ⟨if_neg hname, e, run_bind_of_error hrun⟩

/-- The notice of a definition is added before its sign is looked at. -/
theorem redefinition_run {s : State ρ} {name : String} (hname : s.definedName? = some name) :
    (noteIf (s.bindings.contains name) [Variables.redefined name]).run (s.advance false) =
      (.ok (), s.pastName) := by
  unfold State.pastName State.redefinition
  rw [hname]
  cases hcontains : s.bindings.contains name
  · simp [noteIf, Parser.pure, hcontains, State.advance]
  · simp [noteIf, note, hcontains, State.advance]

theorem definitionLine_cases (s : State ρ) : DefinitionRun s (definitionLine.run s) := by
  rcases variableName_cases s with ⟨name, hname, hrun⟩ | ⟨hname, e, hrun⟩
  · have hconsult : (consult (·.contains name) : Parser ρ Bool).run (s.advance false) =
        (.ok (s.bindings.contains name), s.advance false) := rfl
    have hnote : (noteIf (s.bindings.contains name)
        [.warning ("Multiple definition of variable named \"" ++ name ++ "\"")]).run
          (s.advance false) = (.ok (), s.pastName) := redefinition_run hname
    have htake : (take true).run s.pastName = (.ok s.pastSign.cursor.current, s.pastSign) := rfl
    rw [definitionLine, run_bind_of_ok hrun, run_bind_of_ok hconsult, run_bind_of_ok hnote, next,
      run_bind_assoc, run_bind_of_ok htake]
    rcases unlessEnd_cases s.pastSign.cursor.current s.pastSign with hnext | ⟨hend, e, hnext⟩
    · rw [run_bind_of_ok hnext]
      split
      · rename_i hsign
        rcases hvalue : initializer.run s.pastSign with ⟨e | value, u⟩
        · rw [run_bind_of_error hvalue]
          exact .noValue hname hvalue
        · rw [run_bind_of_ok hvalue]
          exact .bound hname hsign hvalue
      · rename_i hsign
        exact .noSign hname (by simpa using hsign)
    · rw [run_bind_of_error hnext]
      refine .noSign hname ?_
      have hkind : s.pastSign.cursor.current.kind = .endOfFile := by
        simpa [Token.isEndOfFile] using hend
      simp [Token.isSymbol, hkind]
  · rw [definitionLine, run_bind_of_error hrun]
    exact .noName hname

/-! ## The definition -/

section Outcome

variable {s u : State ρ} {answer : Except ScriptError Value}

/-- What evaluating leaves after the sign. -/
theorem initializer_consulted (hrun : initializer.run s.pastSign = (answer, u)) :
    u.bindings = s.bindings ∧ ∃ names : List String,
      u.journal = s.journal ++ s.redefinition ++ names.map Variables.unknown := by
  have hconsulted := Consults.initializer s.pastSign
  rw [hrun] at hconsulted
  exact ⟨hconsulted.bindings, hconsulted.journal⟩

variable {r : Except ScriptError Unit × State ρ}

/-- On every way out, the notice of a second definition comes first. -/
theorem DefinitionRun.journal (h : DefinitionRun s r) : ∃ names : List String,
    r.2.journal = s.journal ++ s.redefinition ++ names.map Variables.unknown := by
  cases h with
  | noName hname => exact ⟨[], by simp [State.redefinition, hname, State.advance]⟩
  | noSign => exact ⟨[], by simp [State.pastSign, State.pastName, State.advance]⟩
  | noValue _ hrun => exact (initializer_consulted hrun).2
  | bound _ _ hrun => exact (initializer_consulted hrun).2

/-- The line binds its name, or nothing. -/
theorem DefinitionRun.bindings (h : DefinitionRun s r) :
    match r.1 with
    | .ok () => ∃ name value, s.Defines name value ∧ r.2.bindings = s.bindings.set name value
    | .error _ => (∀ name value, ¬ s.Defines name value) ∧ r.2.bindings = s.bindings := by
  cases h with
  | noName hname => exact ⟨fun _ _ h => by simpa [hname] using h.name, rfl⟩
  | noSign _ hsign => exact ⟨fun _ _ h => by simpa [hsign] using h.sign, rfl⟩
  | noValue _ hrun =>
    exact ⟨fun _ _ h => by simpa [hrun] using h.value, (initializer_consulted hrun).1⟩
  | @bound name value u hname hsign hrun =>
    refine ⟨name, value, ⟨hname, hsign, by rw [hrun]⟩, ?_⟩
    change u.bindings.set name value = _
    rw [(initializer_consulted hrun).1]

end Outcome

variable {σ : Type}

/-- Of a parser that changes nothing in the scene a loader takes over only variables and notices. -/
theorem absorb_of_scene_eq {s u : State (Scene σ)} (h : u.scene = s.scene) (l : Loader σ) :
    l.absorb u = { l.absorb s with bindings := u.bindings, journal := u.journal } := by
  simp only [Loader.absorb, h]

/-- **A variable definition is all or nothing.** Wherever it is read, and whatever follows the `@`,
- it succeeds where the line defines a name as a value, evaluated under the variables as they were,
  and then that name is bound to the value and all others are as before;
- it fails where the line defines nothing, and then the variables are as before.

Either way nothing else that a loader keeps is touched; the journal is only added to, first the
notice of a second definition if a name has been read that is bound already, and it is the only
one; and line breaks count as they did. -/
theorem variableDefinition_outcome (s : State (Scene σ)) :
    let (answer, u) := variableDefinition.run s
    (match answer with
      | .ok () => ∃ name value, (s.setLineBreaks true).Defines name value ∧
          u.bindings.get? name = some value ∧
          ∀ other, other ≠ name → u.bindings.get? other = s.bindings.get? other
      | .error _ => (∀ name value, ¬ (s.setLineBreaks true).Defines name value) ∧
          u.bindings = s.bindings) ∧
    u.scene = s.scene ∧
    (∀ l : Loader σ, l.absorb u =
      { l.absorb s with bindings := u.bindings, journal := u.journal }) ∧
    (∃ names : List String,
      u.journal = s.journal ++ s.redefinition ++ names.map Variables.unknown ∧
      ∀ name, Variables.redefined name ∉ names.map Variables.unknown) ∧
    u.cursor.lineBreaksCount = s.cursor.lineBreaksCount := by
  have hline := definitionLine_cases (s.setLineBreaks true)
  have hcomposed : Composed LooksOnly True (variableDefinition : Parser (Scene σ) Unit) :=
    variableDefinition_composed
  have hscene := hcomposed.scene_eq s
  have hbreaks := (variableDefinition.onward s).lineBreaks
  rcases hrun : definitionLine.run (s.setLineBreaks true) with ⟨answer, u⟩
  rw [variableDefinition, run_withLineBreaks hrun] at hscene hbreaks ⊢
  rw [hrun] at hline
  refine ⟨?_, hscene, absorb_of_scene_eq hscene, ?_, hbreaks⟩
  · have hbindings := hline.bindings
    match answer, hbindings with
    | .ok (), ⟨name, value, hdefines, hset⟩ =>
      refine ⟨name, value, hdefines, ?_, fun other hother => ?_⟩
      · exact hset ▸ Variables.get?_set_self _ _ _
      · exact hset ▸ Variables.get?_set_other _ _ hother
    | .error _, ⟨hnone, hsame⟩ => exact ⟨hnone, hsame⟩
  · obtain ⟨names, hnames⟩ := hline.journal
    refine ⟨names, hnames, fun name hmem => ?_⟩
    obtain ⟨other, -, heq⟩ := List.mem_map.1 hmem
    exact Variables.redefined_ne_unknown name other heq.symm

/-- The initializer of `@a = @a + "y"` reads the variable it replaces. -/
example :
    let symbol (s : Symbol) : Token := .bare (.symbol s) .start
    let line : List Token := [⟨.name, "a", .start⟩, symbol .equal, symbol .atSign,
      ⟨.name, "a", .start⟩, symbol .plus, ⟨.string, "y", .start⟩]
    let s : State Unit := ⟨.ofTokens line, .set .empty "a" (.text "x"), [], ()⟩
    ((variableDefinition.run s).2.bindings.lookupText "a").1 = "xy" := by
  decide +kernel

end Parser

end MaterialScript
