/-
What a catalog holds after any requests.

Each request is answered by a truth value; an insertion tells whether it was
accepted. What a catalog holds is told from its requests and their answers alone
(`Request.heldBy`): the names accepted since it was last cleared, each with its
value as changed until the next one was accepted. The index of an
`IndexedCatalog` stays in step with its entries (`IndexedCatalog.Sound`), so such
a catalog answers as a `Catalog` does and holds the same
(`IndexedCatalog.holds_told`).
-/
import Mathlib.Data.List.DropRight
import Mathlib.Data.List.Induction
import Mathlib.Data.List.Nodup
import Std.Data.HashMap.Lemmas
import MaterialScript.Catalog.Indexed
import MaterialScript.Proofs.Names

namespace MaterialScript

namespace Catalog

variable {α γ : Type}

/-! ## Requests -/

/-- What can be asked of a catalog. -/
inductive Request (α : Type) where
  | insert (name : String) (value : α)
  | modify (f : α → α)
  | clear

namespace Request

/-- Adds an entry if its name is fresh, changes the current entry if there is one, or removes all
entries. -/
def perform (c : Catalog α) : Request α → Bool × Catalog α
  | insert name value => (!c.contains name, c.insert name value)
  | modify f => (c.current?.isSome, c.modifyCurrent f)
  | clear => (true, .empty)

/-- The same with an index. -/
def performIndexed (c : IndexedCatalog α) : Request α → Bool × IndexedCatalog α
  | insert name value => c.insert name value
  | modify f => (c.current?.isSome, c.modifyCurrent f)
  | clear => (true, .empty)

section Run

variable (perform : γ → Request α → Bool × γ) (c : γ)

/-- The catalog after requests, one after another. -/
def after (requests : List (Request α)) : γ := requests.foldl (fun c r => (perform c r).2) c

/-- The requests with their answers. -/
def told (c : γ) : List (Request α) → List (Request α × Bool)
  | [] => []
  | r :: requests => (r, (perform c r).1) :: told (perform c r).2 requests

theorem after_snoc (requests : List (Request α)) (r : Request α) :
    after perform c (requests ++ [r]) = (perform (after perform c requests) r).2 := by
  simp [after]

theorem told_snoc (requests : List (Request α)) (r : Request α) :
    told perform c (requests ++ [r]) =
      told perform c requests ++ [(r, (perform (after perform c requests) r).1)] := by
  induction requests generalizing c with
  | nil => rfl
  | cons q requests ih =>
    rw [List.cons_append, told, ih, told, List.cons_append]
    rfl

end Run

/-! ## What answers tell -/

/-- The name of an insertion that was accepted. -/
def accepted? : Request α × Bool → Option String
  | (insert name _, true) => some name
  | _ => none

/-- What a request does to the value of the current entry. -/
def effect : Request α × Bool → α → α
  | (modify f, _) => f
  | _ => id

def isClear : Request α × Bool → Bool
  | (clear, _) => true
  | _ => false

/-- What follows the last time the catalog was cleared. -/
def sinceClear (told : List (Request α × Bool)) : List (Request α × Bool) :=
  told.rtakeWhile fun e => !isClear e

/-- A value with the changes made before another name was accepted. -/
def changedBy (value : α) (later : List (Request α × Bool)) : α :=
  (later.takeWhile fun e => (accepted? e).isNone).foldl (fun v e => effect e v) value

/-- The names accepted, in order, each with its value as changed while it was the last. -/
def heldBy : List (Request α × Bool) → List (String × α)
  | [] => []
  | (insert name value, true) :: later => (name, changedBy value later) :: heldBy later
  | _ :: later => heldBy later

variable {told later : List (Request α × Bool)} {e : Request α × Bool} {name : String} {value v : α}

theorem heldBy_cons_of_accepted? (h : accepted? e = none) : heldBy (e :: later) = heldBy later := by
  obtain ⟨r, answer⟩ := e
  cases r <;> cases answer <;> first | rfl | cases h

theorem accepted?_eq_none (h : ∀ name value, e ≠ (insert name value, true)) :
    accepted? e = none := by
  unfold accepted?
  split
  · exact absurd rfl (h _ _)
  · rfl

theorem eq_of_accepted? (h : accepted? e = some name) : ∃ value, e = (insert name value, true) := by
  obtain ⟨r, answer⟩ := e
  cases r <;> cases answer <;> cases h
  exact ⟨_, rfl⟩

theorem names_heldBy (told : List (Request α × Bool)) :
    (heldBy told).map (·.1) = told.filterMap accepted? := by
  fun_induction heldBy told with
  | case1 => rfl
  | case2 name value later ih => simp [accepted?, ih]
  | case3 e later hother ih =>
    simp [accepted?_eq_none hother, ih]

theorem heldBy_eq_nil_iff : heldBy told = [] ↔ ∀ e ∈ told, accepted? e = none := by
  rw [← List.map_eq_nil_iff (f := (·.1)), names_heldBy, List.filterMap_eq_nil_iff]

/-- What is held is what was accepted. -/
theorem mem_heldBy : (name, v) ∈ heldBy told ↔
    ∃ before value later, told = before ++ (insert name value, true) :: later ∧
      v = changedBy value later := by
  induction told with
  | nil => simp [heldBy]
  | cons e later ih =>
    constructor
    · intro h
      cases haccepted : accepted? e with
      | none =>
        rw [heldBy_cons_of_accepted? haccepted, ih] at h
        obtain ⟨before, value, later, rfl, hv⟩ := h
        exact ⟨e :: before, value, later, rfl, hv⟩
      | some name' =>
        obtain ⟨value', rfl⟩ := eq_of_accepted? haccepted
        rcases List.mem_cons.1 h with h | h
        · cases h
          exact ⟨[], value', later, rfl, rfl⟩
        · obtain ⟨before, value, later, rfl, hv⟩ := ih.1 h
          exact ⟨_ :: before, value, later, rfl, hv⟩
    · rintro ⟨_ | ⟨d, before⟩, value, later', htold, rfl⟩
      · cases htold
        exact List.mem_cons_self
      · cases htold
        have hmem := ih.2 ⟨before, value, later', rfl, rfl⟩
        cases haccepted : accepted? e with
        | none => rwa [heldBy_cons_of_accepted? haccepted]
        | some name' =>
          obtain ⟨value', rfl⟩ := eq_of_accepted? haccepted
          exact List.mem_cons_of_mem _ hmem

/-! ## One more answer -/

/-- Once another name is accepted, nothing changes a value. -/
theorem changedBy_snoc_of_ne_nil (h : heldBy (later ++ [e]) ≠ []) :
    changedBy value (later ++ [e]) = changedBy value later := by
  obtain ⟨d, hd, haccepted⟩ : ∃ d ∈ later ++ [e], accepted? d ≠ none := by
    by_contra hnone
    push Not at hnone
    exact h (heldBy_eq_nil_iff.2 hnone)
  unfold changedBy
  rw [List.takeWhile_append]
  split
  · rename_i hall
    have hpassed := List.takeWhile_eq_self_iff.1 ((List.takeWhile_prefix _).eq_of_length hall)
    -- the one accepted can only be the new one
    obtain rfl : d = e := by
      rcases List.mem_append.1 hd with hd | hd
      · exact absurd (by simpa using hpassed d hd) haccepted
      · exact List.mem_singleton.1 hd
    rw [List.takeWhile_cons_of_neg (by simpa using haccepted), List.append_nil,
      (List.takeWhile_prefix _).eq_of_length hall]
  · rfl

/-- Until then every change counts. -/
theorem changedBy_snoc_of_eq_nil (h : heldBy (later ++ [e]) = []) :
    changedBy value (later ++ [e]) = effect e (changedBy value later) := by
  have hpassed : ∀ d ∈ later ++ [e], (accepted? d).isNone := by
    simpa [or_imp, forall_and] using heldBy_eq_nil_iff.1 h
  unfold changedBy
  rw [List.takeWhile_eq_self_iff.2 hpassed, List.takeWhile_eq_self_iff.2
    fun d hd => hpassed d (List.mem_append_left _ hd), List.foldl_append]
  rfl

theorem heldBy_snoc_of_accepted (told : List (Request α × Bool)) (name : String) (value : α) :
    heldBy (told ++ [(insert name value, true)]) = heldBy told ++ [(name, value)] := by
  have hlast : heldBy [(insert name value, true)] = [(name, value)] := rfl
  fun_induction heldBy told with
  | case1 => exact hlast
  | case2 name' value' later ih =>
    rw [List.cons_append, heldBy, changedBy_snoc_of_ne_nil (by simp [ih]), ih, List.cons_append]
  | case3 d later hother ih =>
    have hd : accepted? d = none := accepted?_eq_none hother
    rw [List.cons_append, heldBy_cons_of_accepted? hd, ih]

/-- A request that adds nothing has its effect on the entry accepted last. -/
theorem heldBy_snoc_of_accepted?_eq_none (he : accepted? e = none)
    (told : List (Request α × Bool)) :
    heldBy (told ++ [e]) = changeLast (effect e) (heldBy told) := by
  fun_induction heldBy told with
  | case1 => exact heldBy_cons_of_accepted? he
  | case2 name value later ih =>
    rw [List.cons_append, heldBy]
    cases hheld : heldBy later with
    | nil =>
      rw [hheld] at ih
      rw [changedBy_snoc_of_eq_nil ih, ih]
      rfl
    | cons d rest =>
      rw [hheld] at ih
      have hne : heldBy (later ++ [e]) ≠ [] := by
        rw [ih]
        cases rest <;> simp [changeLast]
      rw [changedBy_snoc_of_ne_nil hne, ih]
      rfl
  | case3 d later hother ih =>
    rw [List.cons_append, heldBy_cons_of_accepted? (accepted?_eq_none hother), ih]

end Request

theorem changeLast_id (entries : List (String × α)) : changeLast id entries = entries := by
  fun_induction changeLast id entries with
  | case1 => rfl
  | case2 => rfl
  | case3 e e' rest ih => rw [ih]

/-! ## What a catalog holds -/

open Request

/-- **A catalog holds what it was told.** -/
theorem entries_after (requests : List (Request α)) :
    (after perform (.empty : Catalog α) requests).entries =
      heldBy (sinceClear (told perform .empty requests)) := by
  induction requests using List.reverseRecOn with
  | nil => rfl
  | append_singleton requests r ih =>
    rw [after_snoc, told_snoc, sinceClear]
    cases r with
    | clear =>
      rw [List.rtakeWhile_concat_neg _ _ _ (by simp [isClear])]
      rfl
    | modify f =>
      rw [List.rtakeWhile_concat_pos _ _ _ (by simp [isClear]),
        heldBy_snoc_of_accepted?_eq_none rfl]
      exact congrArg (changeLast f) ih
    | insert name value =>
      rw [List.rtakeWhile_concat_pos _ _ _ (by simp [isClear])]
      by_cases hname : name ∈ (after perform .empty requests).names
      · have htaken := hname
        rw [← contains_iff] at htaken
        simp only [Request.perform, insert_of_mem hname, htaken, Bool.not_true]
        rw [heldBy_snoc_of_accepted?_eq_none rfl]
        exact ih.trans (changeLast_id _).symm
      · have hfresh := hname
        rw [← contains_iff, Bool.not_eq_true] at hfresh
        simp only [Request.perform, insert_of_not_mem hname, hfresh, Bool.not_false]
        rw [heldBy_snoc_of_accepted]
        exact congrArg (· ++ [(name, value)]) ih

end Catalog

namespace IndexedCatalog

open Catalog.Request

variable {α : Type} {c : IndexedCatalog α}

/-! ## Entries and index -/

/-- No name stands twice, and the index tells for each where it stands. -/
structure Sound (c : IndexedCatalog α) : Prop where
  distinct : c.names.Nodup
  indexed : ∀ (name : String) (i : Nat), c.index[name]? = some i ↔ c.names[i]? = some name

theorem Sound.empty : (empty : IndexedCatalog α).Sound where
  distinct := List.nodup_nil
  indexed name i := by simp [IndexedCatalog.empty, names]

theorem Sound.contains_iff (h : c.Sound) (name : String) : c.contains name ↔ name ∈ c.names := by
  rw [IndexedCatalog.contains, Std.HashMap.contains_eq_isSome_getElem?, Option.isSome_iff_exists,
    List.mem_iff_getElem?]
  exact exists_congr fun i => h.indexed name i

/-- The names of the entries without the index. -/
@[simp] theorem names_toCatalog (c : IndexedCatalog α) : c.toCatalog.names = c.names := rfl

theorem Sound.contains_toCatalog (h : c.Sound) (name : String) :
    c.contains name = c.toCatalog.contains name := by
  rw [Bool.eq_iff_iff, h.contains_iff, Catalog.contains_iff, names_toCatalog]

/-- The index leads to the entry that a search would find. -/
theorem Sound.get?_toCatalog (h : c.Sound) (name : String) :
    c.get? name = c.toCatalog.get? name := by
  cases hfound : c.index[name]? with
  | none =>
    have hmissing : c.toCatalog.contains name = false := by
      rw [← h.contains_toCatalog, IndexedCatalog.contains, Std.HashMap.contains_eq_isSome_getElem?,
        hfound, Option.isSome_none]
    have hget : c.toCatalog.get? name = none := by simpa [Catalog.contains] using hmissing
    rw [get?, hfound, Option.bind_none, hget]
  | some i =>
    have hname := (h.indexed name i).1 hfound
    rw [names, List.getElem?_map, Option.map_eq_some_iff] at hname
    obtain ⟨⟨name, value⟩, hentry, rfl⟩ := hname
    have hget : c.get? name = some value := by simp [get?, hfound, ← Array.getElem?_toList, hentry]
    have hlookup : c.toCatalog.get? name = some value :=
      (Catalog.lookup_eq_some_iff_mem h.distinct name value).2 (List.mem_of_getElem? hentry)
    rw [hget, hlookup]

theorem Sound.get?_eq_some_iff (h : c.Sound) (name : String) (value : α) :
    c.get? name = some value ↔ (name, value) ∈ c.entries.toList := by
  rw [h.get?_toCatalog]
  exact Catalog.lookup_eq_some_iff_mem h.distinct name value

theorem Sound.get?_eq_none_iff (h : c.Sound) (name : String) :
    c.get? name = none ↔ c.contains name = false := by
  rw [h.get?_toCatalog, h.contains_toCatalog, Catalog.contains, Option.isSome_eq_false_iff,
    Option.isNone_iff_eq_none]

/-- The index keeps a place for a name exactly if its entry stands there. -/
theorem Sound.index_eq_some_iff (h : c.Sound) (name : String) (i : Nat) :
    c.index[name]? = some i ↔ ∃ value, c.entries[i]? = some (name, value) := by
  rw [h.indexed, names, List.getElem?_map, Option.map_eq_some_iff, Array.getElem?_toList]
  exact ⟨fun ⟨⟨_, value⟩, hentry, heq⟩ => ⟨value, heq ▸ hentry⟩,
    fun ⟨value, hentry⟩ => ⟨(name, value), hentry, rfl⟩⟩

theorem toCatalog_modifyCurrent (f : α → α) (c : IndexedCatalog α) :
    (c.modifyCurrent f).toCatalog = c.toCatalog.modifyCurrent f := by
  obtain ⟨⟨entries⟩, index⟩ := c
  simp only [toCatalog, IndexedCatalog.modifyCurrent, Catalog.modifyCurrent, Catalog.mk.injEq,
    Array.toList_modify, List.size_toArray]
  rcases List.eq_nil_or_concat entries with rfl | ⟨front, ⟨name, value⟩, rfl⟩
  · rfl
  · rw [List.concat_eq_append, Catalog.changeLast_append,
      List.modify_eq_take_cons_drop (by simp)]
    simp

theorem Sound.modifyCurrent (h : c.Sound) (f : α → α) : (c.modifyCurrent f).Sound := by
  have hnames : (c.modifyCurrent f).names = c.names := by
    rw [← names_toCatalog, toCatalog_modifyCurrent, Catalog.names_modifyCurrent, names_toCatalog]
  exact ⟨hnames ▸ h.distinct, fun name i => hnames ▸ h.indexed name i⟩

/-- A fresh name is the last one, and no other place changes. -/
theorem getElem?_concat_eq_some_iff {names : List String} {name other : String}
    (hfresh : name ∉ names) (i : Nat) : (names ++ [name])[i]? = some other ↔
      if name = other then names.length = i else names[i]? = some other := by
  rw [List.getElem?_append]
  by_cases hi : i < names.length
  · rw [if_pos hi]
    split
    · rename_i heq
      subst heq
      refine ⟨fun hget => absurd (List.mem_of_getElem? hget) hfresh, fun h => ?_⟩
      omega
    · rfl
  · rw [if_neg hi, List.getElem?_eq_none (Nat.le_of_not_lt hi), List.getElem?_singleton]
    split <;> split <;> simp_all <;> omega

/-- The catalog with one more entry, which the index knows. -/
def push (c : IndexedCatalog α) (name : String) (value : α) : IndexedCatalog α :=
  ⟨c.entries.push (name, value), c.index.insert name c.entries.size⟩

@[simp] theorem toCatalog_push (c : IndexedCatalog α) (name : String) (value : α) :
    (c.push name value).toCatalog = c.toCatalog.push name value := by
  simp [push, toCatalog, Catalog.push]

theorem names_push (c : IndexedCatalog α) (name : String) (value : α) :
    (c.push name value).names = c.names ++ [name] := by
  simp [push, names]

theorem Sound.push (h : c.Sound) {name : String} (hfresh : name ∉ c.names) (value : α) :
    (c.push name value).Sound := by
  have hsize : c.entries.size = c.names.length := by simp [names]
  refine ⟨?_, fun other i => ?_⟩
  · rw [names_push, ← List.concat_eq_append, List.nodup_concat]
    exact ⟨hfresh, h.distinct⟩
  · rw [names_push, getElem?_concat_eq_some_iff hfresh, IndexedCatalog.push,
      Std.HashMap.getElem?_insert, hsize]
    by_cases heq : name = other
    · simp [heq]
    · simpa [heq] using h.indexed other i

theorem Sound.insert_of_mem (h : c.Sound) {name : String} (hname : name ∈ c.names) (value : α) :
    c.insert name value = (false, c) :=
  if_pos ((h.contains_iff name).2 hname)

theorem Sound.insert_of_not_mem (h : c.Sound) {name : String} (hname : name ∉ c.names) (value : α) :
    c.insert name value = (true, c.push name value) :=
  if_neg (mt (h.contains_iff name).1 hname)

/-- A name is accepted if it is fresh; one that is refused changes nothing. -/
theorem Sound.insert_cases (h : c.Sound) (name : String) (value : α) :
    ((c.insert name value).1 = true ↔ name ∉ c.names) ∧
      ((c.insert name value).1 = false → (c.insert name value).2 = c) := by
  by_cases hname : name ∈ c.names
  · simp [h.insert_of_mem hname value, hname]
  · simp [h.insert_of_not_mem hname value, hname]

/-- A request does the same with an index and without. -/
theorem Sound.perform_toCatalog (h : c.Sound) (r : Catalog.Request α) :
    (performIndexed c r).1 = (perform c.toCatalog r).1 ∧
      (performIndexed c r).2.toCatalog = (perform c.toCatalog r).2 := by
  cases r with
  | insert name value =>
    simp only [performIndexed, perform, ← h.contains_toCatalog]
    by_cases hname : name ∈ c.names
    · rw [h.insert_of_mem hname, Catalog.insert_of_mem (by simpa using hname),
        (h.contains_iff name).2 hname]
      exact ⟨rfl, rfl⟩
    · have hfresh : c.contains name = false := by
        rw [← Bool.not_eq_true, h.contains_iff]
        exact hname
      rw [h.insert_of_not_mem hname, Catalog.insert_of_not_mem (by simpa using hname), hfresh,
        toCatalog_push]
      exact ⟨rfl, rfl⟩
  | modify f =>
    refine ⟨?_, toCatalog_modifyCurrent f c⟩
    simp [performIndexed, perform, IndexedCatalog.current?, Catalog.current?, toCatalog]
  | clear => exact ⟨rfl, rfl⟩

theorem Sound.perform (h : c.Sound) (r : Catalog.Request α) : (performIndexed c r).2.Sound := by
  cases r with
  | insert name value =>
    by_cases hname : name ∈ c.names
    · rwa [performIndexed, h.insert_of_mem hname]
    · rw [performIndexed, h.insert_of_not_mem hname]
      exact h.push hname value
  | modify f => exact h.modifyCurrent f
  | clear => exact .empty

/-! ## Runs -/

/-- After any requests the index is in step, and entries and answers are those of a catalog without
one. -/
theorem after_toCatalog (requests : List (Catalog.Request α)) :
    (after performIndexed (empty : IndexedCatalog α) requests).Sound ∧
      (after performIndexed (empty : IndexedCatalog α) requests).toCatalog =
        after perform .empty requests ∧
      told performIndexed (empty : IndexedCatalog α) requests = told perform .empty requests := by
  induction requests using List.reverseRecOn with
  | nil => exact ⟨.empty, rfl, rfl⟩
  | append_singleton requests r ih =>
    obtain ⟨hsound, hentries, htold⟩ := ih
    obtain ⟨hanswer, hnext⟩ := hsound.perform_toCatalog r
    rw [hentries] at hanswer hnext
    simp only [after_snoc, told_snoc]
    exact ⟨hsound.perform r, hnext, by rw [htold, hanswer]⟩

/-- **A catalog with an index holds what it was told.** After any requests to an empty one, where
`recent` are those since it was last cleared, with their answers:
- no name stands twice, and the names are those accepted, in that order;
- a name is accepted if it is not there, and where it is refused nothing changes;
- a name has the value it was accepted with, as changed until the next name was accepted; it has
  none if it is not there;
- the index keeps a place for a name exactly if its entry stands there;
- the current entry is the last, which holds the name accepted last;
- entries, answers and look-ups are those of a catalog without an index. -/
theorem holds_told (requests : List (Catalog.Request α)) :
    let c := after performIndexed (empty : IndexedCatalog α) requests
    let recent := sinceClear (told performIndexed (empty : IndexedCatalog α) requests)
    (c.names.Nodup ∧ c.names = recent.filterMap accepted?) ∧
    (∀ name value, ((c.insert name value).1 = true ↔ name ∉ c.names) ∧
      ((c.insert name value).1 = false → (c.insert name value).2 = c)) ∧
    (∀ name v, c.get? name = some v ↔ ∃ before value later,
      recent = before ++ (.insert name value, true) :: later ∧ v = changedBy value later) ∧
    (∀ name, c.get? name = none ↔ c.contains name = false) ∧
    (∀ (name : String) (i : Nat), c.index[name]? = some i ↔
      ∃ v, c.entries[i]? = some (name, v)) ∧
    (c.current? = c.entries.toList.getLast? ∧ c.entries.toList = heldBy recent) ∧
    (c.toCatalog = after perform .empty requests ∧
      told performIndexed (empty : IndexedCatalog α) requests = told perform .empty requests ∧
      ∀ name, c.get? name = c.toCatalog.get? name ∧
        c.contains name = c.toCatalog.contains name) := by
  intro c recent
  obtain ⟨hsound, hentries, htold⟩ : c.Sound ∧ c.toCatalog = after perform .empty requests ∧ _ :=
    after_toCatalog requests
  have hheld : c.entries.toList = heldBy recent := by
    change c.toCatalog.entries = _
    rw [hentries, Catalog.entries_after, ← htold]
  have hnames : c.names = recent.filterMap accepted? := by
    rw [names, hheld, names_heldBy]
  refine ⟨⟨hsound.distinct, hnames⟩, hsound.insert_cases, fun name v => ?_, hsound.get?_eq_none_iff,
    hsound.index_eq_some_iff, ⟨by simp [current?], hheld⟩, hentries, htold, fun name =>
      ⟨hsound.get?_toCatalog name, hsound.contains_toCatalog name⟩⟩
  rw [hsound.get?_eq_some_iff, hheld, mem_heldBy]

end IndexedCatalog

end MaterialScript
