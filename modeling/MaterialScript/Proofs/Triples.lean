/-
What parsers do to what has been built.

`Triple P p Q E` relates the scene before a run of `p` to the one after it. A
parser that fails keeps what it has built, so a triple tells of both ends: `Q`
of the scene where `p` has answered, `E` of the one where it has failed. The
rules follow the operations of `Parser.Basic`; what does not touch the scene has
one rule for all (`of_looksOnly`).
-/
import MaterialScript.Proofs.Composition

namespace MaterialScript

namespace Parser

variable {ρ α β γ : Type}

/-- Where `P` holds of the scene, `p` leaves one of which `Q a` holds if it answers `a`, and `E` if
it fails. -/
def Triple (P : ρ → Prop) (p : Parser ρ α) (Q : α → ρ → Prop) (E : ρ → Prop) : Prop :=
  ∀ ⦃s : State ρ⦄, P s.scene →
    match p.run s with
    | (.ok a, u) => Q a u.scene
    | (.error _, u) => E u.scene

namespace Triple

variable {P P' I : ρ → Prop} {p : Parser ρ α} {f : α → Parser ρ β} {Q Q' : α → ρ → Prop}
  {R : β → ρ → Prop} {E E' : ρ → Prop} {s u : State ρ}

/-! ## Rules -/

theorem ok (h : Triple P p Q E) (hs : P s.scene) {a : α} (hrun : p.run s = (.ok a, u)) :
    Q a u.scene := by
  have hp := h hs
  rw [hrun] at hp
  exact hp

theorem failed (h : Triple P p Q E) (hs : P s.scene) {e : ScriptError}
    (hrun : p.run s = (.error e, u)) : E u.scene := by
  have hp := h hs
  rw [hrun] at hp
  exact hp

/-- What holds of both ends holds of the end. -/
theorem ends (h : Triple P p (fun _ => I) I) (hs : P s.scene) : I (p.run s).2.scene := by
  have hp := h hs
  split at hp <;> rename_i hrun <;> rwa [hrun]

theorem of_runs (hok : ∀ {s a u}, P s.scene → p.run s = (.ok a, u) → Q a u.scene)
    (hfailed : ∀ {s e u}, P s.scene → p.run s = (.error e, u) → E u.scene) : Triple P p Q E := by
  intro s hs
  split
  · exact hok hs ‹_›
  · exact hfailed hs ‹_›

theorem mono (h : Triple P p Q E) (hP : ∀ r, P' r → P r) (hQ : ∀ a r, Q a r → Q' a r)
    (hE : ∀ r, E r → E' r) : Triple P' p Q' E' :=
  of_runs (fun hs hrun => hQ _ _ (h.ok (hP _ hs) hrun))
    fun hs hrun => hE _ (h.failed (hP _ hs) hrun)

theorem pure {a : α} (h : ∀ r, P r → Q a r) : Triple P (Pure.pure a) Q E := fun _ hs => h _ hs

theorem fail (e : ScriptError) (h : ∀ r, P r → E r) : Triple P (Parser.fail e) Q E :=
  fun _ hs => h _ hs

theorem bind (hp : Triple P p Q E) (hf : ∀ a, Triple (Q a) (f a) R E) : Triple P (p >>= f) R E := by
  intro s hs
  rw [run_bind]
  rcases hrun : p.run s with ⟨e | a, t⟩
  · exact hp.failed hs hrun
  · exact hf a (hp.ok hs hrun)

theorem build {f : ρ → α × ρ} (h : ∀ r, P r → Q (f r).1 (f r).2) : Triple P (build f) Q E :=
  fun _ hs => h _ hs

theorem modify {f : ρ → ρ} {Q : Unit → ρ → Prop} (h : ∀ r, P r → Q () (f r)) :
    Triple P (modify f) Q E := build h

theorem inspect {f : ρ → α} (h : ∀ r, P r → Q (f r) r) : Triple P (inspect f) Q E := build h

theorem of_composed {may : ∀ α : Type, (ρ → α × ρ) → Prop} (hp : Composed may True p)
    (hmay : ∀ α f r, may α f → P r → P (f r).2) (hE : ∀ r, P r → E r) : Triple P p (fun _ => P) E :=
  of_runs (fun hs hrun => hp.keeps_of_run P hmay hrun hs)
    fun hs hrun => hE _ (hp.keeps_of_run P hmay hrun hs)

theorem of_looksOnly (hp : Composed LooksOnly True p) (hE : ∀ r, P r → E r) :
    Triple P p (fun _ => P) E :=
  of_composed hp (fun _ _ r hf hP => by rwa [hf r]) hE

/-- A loop keeps `I` from one round to the next. -/
theorem overTokens {body : α → Token → Parser ρ (Progress α β)} {finish : α → Token → Parser ρ β}
    {I : α → ρ → Prop}
    (hbody : ∀ a t, Triple (I a) (body a t)
      (fun r => match r with | .more a' => I a' | .done b => R b) E)
    (hfinish : ∀ a t, Triple (I a) (finish a t) R E) (a : α) :
    Triple (I a) (overTokens body finish a) R E := by
  intro s hs
  change match runOverTokens body finish a s with
    | (.ok b, u) => R b u.scene
    | (.error _, u) => E u.scene
  induction a, s using loop_induction body with
  | atEnd a s hend =>
    rw [runOverTokens_atEnd hend]
    exact hfinish a _ (s := s.advance true) hs
  | more a s a' u hend hround ih =>
    rw [runOverTokens_more hend hround]
    exact ih ((hbody a _).ok (s := s.advance true) hs hround)
  | done a s b u hend hround =>
    rw [runOverTokens_done hend hround]
    exact (hbody a _).ok (s := s.advance true) hs hround
  | error a s e u hend hround =>
    rw [runOverTokens_error hend hround]
    exact (hbody a _).failed (s := s.advance true) hs hround

/-! ## Lines -/

section Lines

variable {closing : TokenKind} {named : γ → Token → Parser ρ γ} {I : γ → ρ → Prop}
  (hnamed : ∀ c t, Triple (I c) (named c t) I E) (hE : ∀ c r, I c r → E r)
include hnamed hE

theorem line (c : γ) (t : Token) : Triple (I c) (line named c t) I E := by
  unfold Parser.line
  split
  · exact .bind (of_looksOnly variableDefinition_composed (hE c)) fun _ => .pure fun _ h => h
  · split
    · exact .bind (of_looksOnly discardedBlock_composed (hE c)) fun _ => .pure fun _ h => h
    · exact hnamed c t
  · exact .fail _ (hE c)

/-- Lines keep what each of them keeps. -/
theorem lines (c : γ) : Triple (I c) (lines closing named c) I E := by
  refine .overTokens (fun c t => ?_) (fun c t => ?_) c
  · unfold lineOrClose
    split
    · exact .pure fun _ h => h
    · exact .bind (line hnamed hE c t) fun _ => .pure fun _ h => h
  · unfold closeAtEnd
    split
    · exact .pure fun _ h => h
    · exact .fail _ (hE c)

theorem block (c : γ) : Triple (I c) (block named c) I E :=
  .bind (of_looksOnly (expect_composed _) (hE c)) fun _ => lines hnamed hE c

end Lines

end Triple

end Parser

/-! ## Attributes -/

namespace Attribute

variable {β : Type} {K : (β → β) → Prop}

/-- Every change that lines of the attribute make is in `K`. -/
def All (K : (β → β) → Prop) : Attribute β → Prop
  | color set => ∀ c, K (set c)
  | number set => ∀ v, K (set v)
  | flag set => ∀ b, K (set b)
  | text set => ∀ s, K (set s)
  | keyword changes => K changes.fallback ∧ ∀ e ∈ changes.words, K e.2

theorem all_ofVocabulary {α : Type} {vocabulary : Vocabulary α} {set : α → β → β}
    (h : ∀ v, K (set v)) : (ofVocabulary vocabulary set).All K := by
  refine ⟨h _, fun e he => ?_⟩
  obtain ⟨x, -, rfl⟩ := List.mem_map.1 he
  exact h x.2

end Attribute

/-- A word means what the vocabulary says, or its fallback. -/
theorem Vocabulary.resolve_cases {α : Type} (v : Vocabulary α) (word : String) :
    (v.resolve word).1 = v.fallback ∨ ∃ e ∈ v.words, (v.resolve word).1 = e.2 := by
  unfold resolve resolveOr
  split
  · rename_i meaning hfind
    obtain ⟨front, back, hwords, -⟩ := List.lookup_eq_some_iff.1 hfind
    exact .inr ⟨(word, meaning), by simp [hwords], rfl⟩
  · exact .inl rfl

namespace Parser.Triple

variable {β ρ : Type} {P E : ρ → Prop} {K : (β → β) → Prop}

theorem keyword (v : Vocabulary β) (hE : ∀ r, P r → E r) :
    Triple P (keyword v) (fun m r => (m = v.fallback ∨ ∃ e ∈ v.words, m = e.2) ∧ P r) E :=
  .bind (of_looksOnly word_composed hE) fun word => .bind (of_looksOnly (.note _) hE) fun _ =>
    .pure fun _ h => ⟨v.resolve_cases word, h⟩

theorem read {a : Attribute β} (ha : a.All K) (hE : ∀ r, P r → E r) :
    Triple P a.read (fun change r => K change ∧ P r) E := by
  have value : ∀ {α : Type} {p : Parser ρ α} {set : α → β → β}, Composed LooksOnly True p →
      (∀ v, K (set v)) → Triple P (do return set (← p)) (fun change r => K change ∧ P r) E :=
    fun hp hset => .bind (of_looksOnly hp hE) fun v => .pure fun _ h => ⟨hset v, h⟩
  cases a with
  | color set => exact value color_composed ha
  | number set => exact value number_composed ha
  | flag set => exact value flag_composed ha
  | text set => exact value text_composed ha
  | keyword changes =>
    refine (keyword changes hE).mono (fun _ h => h) (fun change r h => ⟨?_, h.2⟩) fun _ h => h
    rcases h.1 with rfl | ⟨e, he, rfl⟩
    · exact ha.1
    · exact ha.2 e he

theorem readLine {attributes : Attributes β} (h : ∀ e ∈ attributes, e.2.All K) (t : Token)
    (hE : ∀ r, P r → E r) :
    Triple P (Attribute.readLine attributes t) (fun change r => K change ∧ P r) E := by
  unfold Attribute.readLine
  split
  · rename_i a hlookup
    obtain ⟨front, back, hattributes, -⟩ := List.lookup_eq_some_iff.1 hlookup
    exact read (h (t.text, a) (by simp [hattributes])) hE
  · exact .fail _ hE

end Parser.Triple

end MaterialScript
