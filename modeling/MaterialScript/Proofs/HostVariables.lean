/-
Variables of the host.

A host binds variables and loads scripts in any order (`Request`). Every load
starts with the variables that calls of the host have bound, each with the value
of that call, and with the working directory, whatever scripts have assigned to
them (`host_definitions`). Two tables carry this: the host's own, to which only
a call that answers yes adds, and the bindings a call looks at. The names of the
first stay bound in the second because no parser unbinds a name
(`Composed.binds`) and a load binds them anew before it reads; so what a script
binds can keep the host from a name, but never gives the host's name away.
-/
import Mathlib.Data.List.Induction
import Mathlib.Data.List.Nodup
import MaterialScript.Proofs.Reachable

namespace MaterialScript

variable {σ : Type}

/-! ## Bound names -/

namespace Variables

theorem contains_set {vars : Variables} {name : String} (h : vars.contains name) (other : String)
    (value : Value) : (vars.set other value).contains name := by
  by_cases hname : name = other
  · subst hname
    simp [contains]
  · rwa [contains, get?_set_other vars value hname]

theorem define?_eq_none_iff {vars : Variables} {name : String} {value : Value} :
    vars.define? name value = none ↔ vars.contains name := by
  unfold define?
  split <;> simp_all

theorem define?_of_free {vars : Variables} {name : String} (value : Value)
    (h : vars.contains name = false) : vars.define? name value = some (vars.set name value) := by
  simp [define?, h]

end Variables

/-- No parser unbinds a name. -/
theorem Parser.Composed.binds {ρ α : Type} {may : ∀ α : Type, (ρ → α × ρ) → Prop} {looks : Prop}
    {p : Parser ρ α} (h : Composed may looks p) {s : State ρ} {name : String}
    (hs : s.bindings.contains name) : (p.run s).2.bindings.contains name := by
  have hcongruence : Congruence may fun s t : State ρ => s = t ∧ s.bindings.contains name :=
    { cursor := fun h => congrArg _ h.1
      bindings := fun h => h.1 ▸ .refl _
      move := fun h _ => ⟨by rw [h.1], h.2⟩
      note := fun h _ => ⟨by rw [h.1], h.2⟩
      setVariable := fun h other value => ⟨by rw [h.1], Variables.contains_set h.2 other value⟩
      build := fun _ _ _ h => ⟨by rw [h.1], by rw [h.1], h.2⟩ }
  exact (h.sameRun hcongruence ⟨rfl, hs⟩).2.2

variable [RenderSystem σ]

/-- What a host asks of a loader. -/
inductive Request where
  | define (name : String) (value : Value)
  | load (files : Files) (load : Load)

namespace Loader

/-! ## One load -/

/-- A load that starts to read in such a state, or fails before, leaves `k` of `l`: what is bound is
what has been bound when reading stops. -/
structure Leaves (l : Loader σ) (start? : Option (Parser.State (Scene σ))) (k : Loader σ) :
    Prop where
  workingDirectory : k.workingDirectory = l.workingDirectory
  definitions : k.definitions = l.definitions
  bindings : k.bindings =
    (start?.map fun s => (Parser.script.run s).2.bindings).getD l.initialVariables

section Begun

variable {l k : Loader σ} (files : Files)

theorem Leaves.readOn (hdirectory : k.workingDirectory = l.workingDirectory)
    (hdefinitions : k.definitions = l.definitions) (hbindings : k.bindings = l.initialVariables)
    (tokens : List Token) : l.Leaves (k.startOn? files tokens) (k.readOn files tokens).2 := by
  unfold startOn? Loader.readOn
  split
  · exact ⟨hdirectory, hdefinitions, hbindings⟩
  rcases Brackets.check tokens with _ | _
  · exact ⟨hdirectory, hdefinitions, hbindings⟩
  · rcases hrun : Parser.script.run (k.start files tokens) with ⟨_ | _, u⟩
    · simp only [readFrom, hrun]
      exact ⟨hdirectory, hdefinitions, by simp [absorb, hrun]⟩
    · simp only [readFrom, hrun]
      exact ⟨hdirectory, hdefinitions, by simp [absorb, note, hrun]⟩

theorem Leaves.readTextOn (hdirectory : k.workingDirectory = l.workingDirectory)
    (hdefinitions : k.definitions = l.definitions) (hbindings : k.bindings = l.initialVariables)
    (source : String) : l.Leaves (k.startOnText? files source) (k.readTextOn files source).2 := by
  unfold startOnText? Loader.readTextOn
  rcases Source.tokens source with _ | tokens
  · exact ⟨hdirectory, hdefinitions, hbindings⟩
  · exact .readOn files hdirectory hdefinitions hbindings tokens

end Begun

theorem Leaves.readScript (l : Loader σ) (files : Files) (path : String) :
    l.Leaves (l.start? files (.readScript path)) (l.readScript files path).2 := by
  simp only [start?, Loader.readScript]
  rcases files path with _ | source
  · exact ⟨rfl, rfl, rfl⟩
  · exact .readTextOn (l := l) (k := { l.begin with journal := [announcement path] }) files rfl rfl
      rfl source

theorem Leaves.conclude {l : Loader σ} {start? : Option (Parser.State (Scene σ))}
    {x : Except ScriptError Unit × Loader σ} (h : l.Leaves start? x.2) :
    l.Leaves start? (Loader.conclude x).2 := by
  obtain ⟨e | _, k⟩ := x
  · exact ⟨h.workingDirectory, h.definitions, h.bindings⟩
  · exact h

theorem perform_leaves (l : Loader σ) (files : Files) (load : Load) :
    l.Leaves (l.start? files load) (l.perform files load).2 := by
  cases load with
  | readTokens tokens => exact .readOn (l := l) (k := l.begin) files rfl rfl rfl tokens
  | readSource source => exact .readTextOn (l := l) (k := l.begin) files rfl rfl rfl source
  | readScript path => exact .readScript l files path
  | loadSource source =>
    exact (Leaves.readTextOn (l := l) (k := l.begin) files rfl rfl rfl source).conclude
  | loadScript path => exact (Leaves.readScript l files path).conclude

/-! ## Requests -/

/-- The loader after a request. -/
def handle (l : Loader σ) : Request → Loader σ
  | .define name value => (l.define name value).2
  | .load files load => (l.perform files load).2

/-- The loader after requests, oldest first. -/
def handleAll (l : Loader σ) (requests : List Request) : Loader σ := requests.foldl handle l

/-- One of the requests is a call to bind `name` to `value`, and it answers yes. -/
def Grants (l : Loader σ) (requests : List Request) (name : String) (value : Value) : Prop :=
  ∃ before after, requests = before ++ .define name value :: after ∧
    ((l.handleAll before).define name value).1 = true

theorem handleAll_snoc (l : Loader σ) (requests : List Request) (request : Request) :
    l.handleAll (requests ++ [request]) = (l.handleAll requests).handle request := by
  simp [handleAll]

theorem grants_snoc (l : Loader σ) (requests : List Request) (request : Request) (name : String)
    (value : Value) :
    l.Grants (requests ++ [request]) name value ↔ l.Grants requests name value ∨
      request = .define name value ∧ ((l.handleAll requests).define name value).1 = true := by
  constructor
  · rintro ⟨before, after, heq, hgranted⟩
    rcases List.eq_nil_or_concat after with rfl | ⟨after, last, rfl⟩
    · obtain ⟨rfl, hlast⟩ := List.append_inj' heq rfl
      exact .inr ⟨by simpa using hlast, hgranted⟩
    · rw [List.concat_eq_append, ← List.cons_append, ← List.append_assoc] at heq
      obtain ⟨rfl, -⟩ := List.append_inj' heq rfl
      exact .inl ⟨before, after, rfl, hgranted⟩
  · rintro (⟨before, after, rfl, hgranted⟩ | ⟨rfl, hgranted⟩)
    · exact ⟨before, after ++ [request], by simp, hgranted⟩
    · exact ⟨requests, [], rfl, hgranted⟩

/-! ## What the two tables hold -/

/-- What the requests have made of a loader that was new: its table of definitions holds the calls
that have been granted, each name once, and all its names are bound. -/
structure Hosts (directory : String) (l₀ : Loader σ) (requests : List Request) (l : Loader σ) :
    Prop where
  workingDirectory : l.workingDirectory = withSlash directory
  mem_definitions : ∀ name value, (name, value) ∈ l.definitions ↔ l₀.Grants requests name value
  distinct : (l.definitions.map (·.1)).Nodup
  bound : ∀ d ∈ l.definitions, l.bindings.contains d.1
  /-- A load has bound the working directory. -/
  loaded : ∀ files load, .load files load ∈ requests → l.bindings.contains workingDirectoryName
  /-- Before the first load nothing else is bound. -/
  unloaded : (∀ files load, .load files load ∉ requests) → ∀ name, l.bindings.contains name →
    ∃ value, l₀.Grants requests name value

omit [RenderSystem σ] in
/-- What the host has given a name is in its table, where each name stands once. -/
theorem hostValue?_eq_some_iff {l : Loader σ} (h : (l.definitions.map (·.1)).Nodup) (name : String)
    (value : Value) : l.hostValue? name = some value ↔ (name, value) ∈ l.definitions := by
  have hreverse : (l.definitions.reverse.map (·.1)).Nodup := by
    rw [List.map_reverse]
    exact List.nodup_reverse.2 h
  rw [hostValue?, Catalog.lookup_eq_some_iff_mem hreverse, List.mem_reverse]

omit [RenderSystem σ] in
theorem contains_initialVariables (l : Loader σ) (name : String) :
    l.initialVariables.contains name ↔
      (∃ value, (name, value) ∈ l.definitions) ∨ name = workingDirectoryName := by
  have hhost : (l.hostValue? name).isSome ↔ ∃ value, (name, value) ∈ l.definitions := by
    unfold hostValue?
    rw [Catalog.isSome_lookup_iff]
    simp
  rw [Variables.contains, get?_initialVariables, Option.isSome_or, Bool.or_eq_true, hhost]
  split <;> simp_all

/-- What is bound when a load starts to read stays bound. -/
theorem contains_perform {l : Loader σ} (files : Files) (load : Load) {name : String}
    (h : l.initialVariables.contains name) :
    (l.perform files load).2.bindings.contains name := by
  rw [(l.perform_leaves files load).bindings]
  cases hstart : l.start? files load with
  | none => exact h
  | some s =>
    rw [← bindings_of_start? hstart] at h
    exact Parser.script_composed.binds h

omit [RenderSystem σ] in
/-- A call to bind is granted, or it leaves all as it is and notes an error. -/
theorem define_cases (l : Loader σ) (name : String) (value : Value) :
    ((∀ v, (name, v) ∉ l.definitions) ∧ l.bindings.contains name = false ∧
      l.define name value =
        (true, { l with
          bindings := l.bindings.set name value
          definitions := l.definitions ++ [(name, value)] })) ∨
    (((∃ v, (name, v) ∈ l.definitions) ∨ l.bindings.contains name) ∧
      l.define name value = (false, l.note [Variables.taken name])) := by
  unfold define
  split
  · rename_i hany
    refine .inr ⟨.inl ?_, rfl⟩
    obtain ⟨d, hd, hname⟩ := List.any_eq_true.1 hany
    obtain rfl : d.1 = name := by simpa using hname
    exact ⟨d.2, hd⟩
  · rename_i hany
    cases hbound : l.bindings.contains name with
    | true =>
      rw [Variables.define?_eq_none_iff.2 hbound]
      exact .inr ⟨.inr rfl, rfl⟩
    | false =>
      rw [Variables.define?_of_free value hbound]
      refine .inl ⟨fun v hv => hany ?_, rfl, rfl⟩
      exact List.any_eq_true.2 ⟨_, hv, by simp⟩

namespace Hosts

variable {directory : String} {l₀ l : Loader σ} {requests : List Request}

omit [RenderSystem σ] in
theorem new [RenderSystem σ] (system : σ) (directory : String) :
    Hosts directory (Loader.new system directory) [] (Loader.new system directory) where
  workingDirectory := rfl
  mem_definitions name value := by simp [Loader.new, Grants]
  distinct := List.nodup_nil
  bound _ hd := nomatch hd
  loaded _ _ hload := nomatch hload
  unloaded _ _ hbound := nomatch hbound

/-- The host's names are bound, so a call is granted where its name is free. -/
theorem define_eq (h : Hosts directory l₀ requests l) (name : String) (value : Value) :
    l.define name value =
      if l.bindings.contains name then (false, l.note [Variables.taken name])
      else (true, { l with
        bindings := l.bindings.set name value
        definitions := l.definitions ++ [(name, value)] }) := by
  rcases l.define_cases name value with ⟨-, hfree, heq⟩ | ⟨htaken, heq⟩
  · rw [heq, hfree]
    rfl
  · have hbound : l.bindings.contains name := by
      rcases htaken with ⟨v, hv⟩ | hbound
      · exact h.bound _ hv
      · exact hbound
    rw [heq, if_pos hbound]

theorem define (h : Hosts directory l₀ requests l) (hl : l₀.handleAll requests = l)
    (name : String) (value : Value) :
    Hosts directory l₀ (requests ++ [.define name value]) (l.define name value).2 := by
  have hloaded : ∀ {files load}, Request.load files load ∈ requests ++ [.define name value] →
      Request.load files load ∈ requests := by simp
  rcases l.define_cases name value with ⟨hnew, hfree, heq⟩ | ⟨-, heq⟩
  · have hgrants : ∀ n v, l₀.Grants (requests ++ [.define name value]) n v ↔
        l₀.Grants requests n v ∨ (n, v) = (name, value) := by
      intro n v
      rw [grants_snoc, hl]
      refine or_congr_right ⟨?_, ?_⟩
      · rintro ⟨hcall, -⟩
        cases hcall
        rfl
      · rintro hcall
        cases hcall
        exact ⟨rfl, by rw [heq]⟩
    rw [heq]
    refine ⟨h.workingDirectory, fun n v => ?_, ?_, fun d hd => ?_, fun files load hload => ?_,
      fun hnone n hn => ?_⟩
    · rw [hgrants, ← h.mem_definitions]
      simp
    · rw [List.map_append, List.nodup_append]
      refine ⟨h.distinct, List.nodup_singleton _, fun n hn m hm => ?_⟩
      obtain ⟨d, hd, rfl⟩ := List.mem_map.1 hn
      rintro rfl
      obtain rfl : d.1 = name := by simpa using hm
      exact hnew d.2 hd
    · rcases List.mem_append.1 hd with hd | hd
      · exact Variables.contains_set (h.bound d hd) name value
      · obtain rfl := List.mem_singleton.1 hd
        simp [Variables.contains]
    · exact Variables.contains_set (h.loaded files load (hloaded hload)) name value
    · by_cases hname : n = name
      · exact ⟨value, (hgrants n value).2 (.inr (by rw [hname]))⟩
      · have hold : l.bindings.contains n := by
          rwa [Variables.contains, Variables.get?_set_other _ _ hname] at hn
        obtain ⟨v, hv⟩ := h.unloaded (fun files load hload => hnone files load (by simp [hload])) n
          hold
        exact ⟨v, (hgrants n v).2 (.inl hv)⟩
  · have hgrants : ∀ n v, l₀.Grants (requests ++ [.define name value]) n v ↔
        l₀.Grants requests n v := by
      intro n v
      rw [grants_snoc, hl]
      refine ⟨fun hcall => hcall.resolve_right ?_, .inl⟩
      rintro ⟨hcall, hgranted⟩
      cases hcall
      rw [heq] at hgranted
      cases hgranted
    rw [heq]
    refine ⟨h.workingDirectory, fun n v => ?_, h.distinct, h.bound,
      fun files load hload => h.loaded files load (hloaded hload), fun hnone n hn => ?_⟩
    · rw [hgrants]
      exact h.mem_definitions n v
    · obtain ⟨v, hv⟩ := h.unloaded (fun files load hload => hnone files load (by simp [hload])) n hn
      exact ⟨v, (hgrants n v).2 hv⟩

theorem load (h : Hosts directory l₀ requests l) (files : Files) (load : Load) :
    Hosts directory l₀ (requests ++ [.load files load]) (l.perform files load).2 := by
  have hleaves := l.perform_leaves files load
  refine ⟨hleaves.workingDirectory.trans h.workingDirectory, fun n v => ?_, ?_, fun d hd => ?_,
    fun _ _ _ => ?_, fun hnone => absurd (by simp) (hnone files load)⟩
  · rw [hleaves.definitions, h.mem_definitions, grants_snoc]
    simp
  · rw [hleaves.definitions]
    exact h.distinct
  · rw [hleaves.definitions] at hd
    exact contains_perform files load ((l.contains_initialVariables _).2 (.inl ⟨d.2, hd⟩))
  · exact contains_perform files load ((l.contains_initialVariables _).2 (.inr rfl))

end Hosts

theorem hosts_handleAll (system : σ) (directory : String) (requests : List Request) :
    Hosts directory (Loader.new system directory) requests
      ((Loader.new system directory).handleAll requests) := by
  induction requests using List.reverseRecOn with
  | nil => exact .new system directory
  | append_singleton requests request ih =>
    rw [handleAll_snoc]
    cases request with
    | define name value => exact ih.define rfl name value
    | load files load => exact ih.load files load

/-! ## What a load starts with -/

/-- The table binds what the host's calls have bound, and the working directory if the host has not
bound that name itself. -/
def StartsWith (l₀ : Loader σ) (requests : List Request) (directory : String) (vars : Variables) :
    Prop :=
  ∀ name value, vars.get? name = some value ↔
    l₀.Grants requests name value ∨
      (∀ v, ¬ l₀.Grants requests name v) ∧ name = workingDirectoryName ∧
        value = .text (withSlash directory)

theorem Hosts.startsWith {directory : String} {l₀ l : Loader σ} {requests : List Request}
    (h : Hosts directory l₀ requests l) : l₀.StartsWith requests directory l.initialVariables := by
  intro name value
  have hgiven : ∀ v, l.hostValue? name = some v ↔ l₀.Grants requests name v := fun v =>
    (hostValue?_eq_some_iff h.distinct name v).trans (h.mem_definitions name v)
  rw [get?_initialVariables, h.workingDirectory, ← hgiven]
  cases hvalue : l.hostValue? name with
  | some v =>
    have hgranted : l₀.Grants requests name v := (hgiven v).1 hvalue
    constructor
    · exact .inl
    · rintro (hv | ⟨hnone, -⟩)
      · exact hv
      · exact absurd hgranted (hnone v)
  | none =>
    have hnone : ∀ v, ¬ l₀.Grants requests name v := fun v hv => by
      rw [← hgiven, hvalue] at hv
      cases hv
    rw [Option.none_or]
    split
    · rename_i hname
      simp [hname ▸ hnone, hname, eq_comm]
    · rename_i hname
      simp [hname]

theorem Grants.append {l₀ : Loader σ} {requests : List Request} {name : String} {value : Value}
    (h : l₀.Grants requests name value) (more : List Request) :
    l₀.Grants (requests ++ more) name value := by
  obtain ⟨before, after, rfl, hgranted⟩ := h
  exact ⟨before, after ++ more, by simp, hgranted⟩

/-- **Host definitions survive every load, and nothing else does.** Whatever a host has asked of a
loader that was new, calls to bind and loads of any outcome in any order:
- a call to bind answers yes where the name is free among the loader's bindings; where it answers
  no, all it does is to note one error;
- every load starts with the definitions that calls have been granted, each with the value of its
  call, and with the configured working directory unless a call has bound that name: so it is in the
  state a script is read from, and, where a load fails before it reads, in what it leaves;
- a call has bound the name of the working directory just if there is one before the first load. -/
theorem host_definitions (system : σ) (directory : String) (requests : List Request) :
    let l₀ := Loader.new system directory
    let l := l₀.handleAll requests
    (∀ name value, ((l.define name value).1 = true ↔ l.bindings.contains name = false) ∧
      ((l.define name value).1 = false →
        (l.define name value).2 = l.note [Variables.taken name])) ∧
    (∀ files load,
      (∀ s, l.start? files load = some s → l₀.StartsWith requests directory s.bindings) ∧
      (l.start? files load = none →
        l₀.StartsWith requests directory (l.perform files load).2.bindings)) ∧
    ((∃ value, l₀.Grants requests workingDirectoryName value) ↔
      ∃ before value after, requests = before ++ .define workingDirectoryName value :: after ∧
        ∀ files load, .load files load ∉ before) := by
  intro l₀ l
  have hosts : ∀ requests, Hosts directory l₀ requests (l₀.handleAll requests) :=
    hosts_handleAll system directory
  refine ⟨fun name value => ?_, fun files load => ⟨fun s hs => ?_, fun hnone => ?_⟩, ?_, ?_⟩
  · have h : Hosts directory l₀ requests l := hosts requests
    rw [h.define_eq]
    split <;> simp_all
  · rw [bindings_of_start? hs]
    exact (hosts requests).startsWith
  · rw [(l.perform_leaves files load).bindings, hnone]
    exact (hosts requests).startsWith
  · rintro ⟨value, before, after, heq, hgranted⟩
    refine ⟨before, value, after, heq, fun files load hload => ?_⟩
    rw [(hosts before).define_eq, if_pos ((hosts before).loaded files load hload)] at hgranted
    cases hgranted
  · rintro ⟨before, value, after, rfl, hunloaded⟩
    by_cases hearlier : ∃ v, l₀.Grants before workingDirectoryName v
    · obtain ⟨v, hv⟩ := hearlier
      exact ⟨v, hv.append _⟩
    · have hfree : (l₀.handleAll before).bindings.contains workingDirectoryName = false := by
        rw [← Bool.not_eq_true]
        exact fun hbound => hearlier ((hosts before).unloaded hunloaded _ hbound)
      refine ⟨value, before, after, rfl, ?_⟩
      rw [(hosts before).define_eq, hfree]
      rfl

/-- A script that binds the host's names anew and breaks off, and calls that come too late. -/
theorem host_definitions_reassigned :
    let files : Files := fun _ => .error .notFound
    let l₀ := Loader.new Recorder.default "/data"
    let assigning := "@a = \"script\"\n@b = \"script\"\n@workingDir = \"gone\"\nnope"
    let requests : List Request :=
      [.define "a" (.text "host"), .load files (.readSource assigning),
        .define "b" (.text "late"), .define "workingDir" (.text "late"), .define "a" (.text "late")]
    let l := l₀.handleAll requests
    let load := Load.readSource "material \"m\" \x7b \x7d"
    (l.define "b" (.text "late")).1 = false ∧ l.bindings.contains "b" ∧
      (l.define "b" (.text "late")).2 = l.note [Variables.taken "b"] ∧
      ∃ s, l.start? files load = some s ∧ l₀.StartsWith requests "/data" s.bindings ∧
        s.bindings.get? "a" = some (.text "host") ∧
        (s.bindings.get? "workingDir").map Value.render = some "\"/data/\"" := by
  intro files l₀ assigning requests l load
  have htheorem := host_definitions Recorder.default "/data" requests
  have hrefused : (l.define "b" (.text "late")).1 = false := by decide +kernel
  have hstarts : (l.start? files load).isSome := by decide +kernel
  obtain ⟨s, hs⟩ := Option.isSome_iff_exists.1 hstarts
  have hstart := (htheorem.2.1 files load).1 s hs
  have hdirectory : ((l.start? files load).bind fun s => s.bindings.get? "workingDir").map
      Value.render = some "\"/data/\"" := by decide +kernel
  rw [hs] at hdirectory
  exact ⟨hrefused, by decide +kernel, (htheorem.1 _ _).2 hrefused, s, hs, hstart,
    (hstart _ _).2 (.inl ⟨[], _, rfl, by decide +kernel⟩), hdirectory⟩

end Loader

end MaterialScript
