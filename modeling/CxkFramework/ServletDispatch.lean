import Mathlib.Data.List.AList
import Mathlib.Data.List.Induction

/-!
# The servlets of a server

`ServletDispatch`, its map and its list of patterns, against the history of the calls that added and
deleted servlets. Each call is made under the write lock.
-/

namespace CxkFramework

/-- A servlet: one of the caller's, a function, or the one that is there from the start. -/
inductive Servlet (α β : Type*) where
  | of (slt : α)
  | FunctionServlet (cb : β)
  | NotFoundServlet (name : String)
  deriving DecidableEq, Repr

structure ServletDispatch (α β : Type*) where
  datas : AList fun _ : String => Servlet α β
  globs : List (String × Servlet α β)
  default : Servlet α β

namespace ServletDispatch

variable {α β : Type*}

def create : ServletDispatch α β := ⟨∅, [], .NotFoundServlet "cxk/1.1"⟩

def setDefault (slt : Servlet α β) (d : ServletDispatch α β) : ServletDispatch α β :=
  { d with default := slt }

def addServlet (uri : String) (slt : Servlet α β) (d : ServletDispatch α β) :
    ServletDispatch α β :=
  { d with datas := d.datas.insert uri slt }

/-- The loop erases the first entry of the pattern and goes no further. -/
def delGlobServlet (uri : String) (d : ServletDispatch α β) : ServletDispatch α β :=
  { d with globs := d.globs.eraseP fun g => g.1 == uri }

def addGlobServlet (uri : String) (slt : Servlet α β) (d : ServletDispatch α β) :
    ServletDispatch α β :=
  { d with globs := (d.globs.eraseP fun g => g.1 == uri) ++ [(uri, slt)] }

def delServlet (uri : String) (d : ServletDispatch α β) : ServletDispatch α β :=
  { d with datas := d.datas.erase uri }

/-- `fnmatch` tells whether a pattern matches a path. -/
def getMatchedServlet (fnmatch : String → String → Bool) (uri : String)
    (d : ServletDispatch α β) : Servlet α β :=
  match d.datas.lookup uri with
  | some slt => slt
  | none =>
    match d.globs.find? fun g => fnmatch g.1 uri with
    | some g => g.2
    | none => d.default

/-- The calls, each with its overload for a callback. -/
inductive Call (α β : Type*) where
  | addServlet (uri : String) (slt : α)
  | addServletCallback (uri : String) (cb : β)
  | addGlobServlet (uri : String) (slt : α)
  | addGlobServletCallback (uri : String) (cb : β)
  | delServlet (uri : String)
  | delGlobServlet (uri : String)
  deriving DecidableEq, Repr

def Call.apply (d : ServletDispatch α β) : Call α β → ServletDispatch α β
  | .addServlet uri slt => d.addServlet uri (.of slt)
  | .addServletCallback uri cb => d.addServlet uri (.FunctionServlet cb)
  | .addGlobServlet uri slt => d.addGlobServlet uri (.of slt)
  | .addGlobServletCallback uri cb => d.addGlobServlet uri (.FunctionServlet cb)
  | .delServlet uri => d.delServlet uri
  | .delGlobServlet uri => d.delGlobServlet uri

/-- A dispatch after some calls. -/
def after (default : Servlet α β) (calls : List (Call α β)) : ServletDispatch α β :=
  calls.foldl Call.apply (create.setDefault default)

/-! ## What the history says -/

section Histories

variable {γ δ : Type*}

/-- What a call does to one key: nothing, or it sets the key to a value or to none. -/
structure Current (effect : γ → Option (Option δ)) (calls : List γ) (i : Nat) (v : δ) : Prop where
  set : ∃ c, calls[i]? = some c ∧ effect c = some (some v)
  kept : ∀ j c, i < j → calls[j]? = some c → effect c = none

theorem Current.lt {effect : γ → Option (Option δ)} {calls : List γ} {i : Nat} {v : δ}
    (h : Current effect calls i v) : i < calls.length := by
  obtain ⟨c, hc, -⟩ := h.set
  exact (List.getElem?_eq_some_iff.mp hc).1

/-- One more call either is the last to set the key or leaves it. -/
theorem current_snoc {effect : γ → Option (Option δ)} {calls : List γ} {c : γ} {i : Nat} {v : δ} :
    Current effect (calls ++ [c]) i v ↔
      i = calls.length ∧ effect c = some (some v) ∨
        effect c = none ∧ Current effect calls i v := by
  have hlast : (calls ++ [c])[calls.length]? = some c := by simp
  have hfront : ∀ j < calls.length, (calls ++ [c])[j]? = calls[j]? :=
    fun j hj => List.getElem?_append_left hj
  constructor
  · intro h
    have hlt := h.lt
    obtain ⟨c', hc', hset⟩ := h.set
    rw [List.length_append, List.length_singleton] at hlt
    by_cases hi : i = calls.length
    · left
      rw [hi, hlast] at hc'
      cases hc'
      exact ⟨hi, hset⟩
    · have hi' : i < calls.length := by omega
      right
      refine ⟨h.kept _ _ hi' hlast, ⟨c', (hfront i hi').symm.trans hc', hset⟩, ?_⟩
      intro j d hij hd
      have hj := (List.getElem?_eq_some_iff.mp hd).1
      exact h.kept j d hij ((hfront j hj).trans hd)
  · rintro (⟨rfl, hset⟩ | ⟨hnone, h⟩)
    · refine ⟨⟨c, hlast, hset⟩, ?_⟩
      intro j d hj hd
      have hlt := (List.getElem?_eq_some_iff.mp hd).1
      rw [List.length_append, List.length_singleton] at hlt
      omega
    · obtain ⟨c', hc', hset⟩ := h.set
      refine ⟨⟨c', (hfront i h.lt).trans hc', hset⟩, ?_⟩
      intro j d hij hd
      by_cases hj : j < calls.length
      · exact h.kept j d hij ((hfront j hj).symm.trans hd)
      · have hlt := (List.getElem?_eq_some_iff.mp hd).1
        rw [List.length_append, List.length_singleton] at hlt
        have hj' : j = calls.length := by omega
        rw [hj', hlast] at hd
        cases hd
        exact hnone

/-- The last value of a key is set by one call. -/
theorem Current.unique {effect : γ → Option (Option δ)} {calls : List γ} {i i' : Nat} {v v' : δ}
    (h : Current effect calls i v) (h' : Current effect calls i' v') : i = i' ∧ v = v' := by
  obtain ⟨c, hc, hset⟩ := h.set
  obtain ⟨c', hc', hset'⟩ := h'.set
  obtain hlt | heq | hgt := Nat.lt_trichotomy i i'
  · rw [h.kept i' c' hlt hc'] at hset'
    cases hset'
  · subst heq
    rw [hc'] at hc
    cases hc
    rw [hset'] at hset
    cases hset
    exact ⟨rfl, rfl⟩
  · rw [h'.kept i c hgt hc] at hset
    cases hset

end Histories

/-- What a call does to the servlet of exactly `uri`. -/
def dataEffect (uri : String) : Call α β → Option (Option (Servlet α β))
  | .addServlet uri' slt => if uri' = uri then some (some (.of slt)) else none
  | .addServletCallback uri' cb => if uri' = uri then some (some (.FunctionServlet cb)) else none
  | .delServlet uri' => if uri' = uri then some none else none
  | _ => none

/-- And to the servlet of the pattern `uri`. -/
def globEffect (uri : String) : Call α β → Option (Option (Servlet α β))
  | .addGlobServlet uri' slt => if uri' = uri then some (some (.of slt)) else none
  | .addGlobServletCallback uri' cb =>
    if uri' = uri then some (some (.FunctionServlet cb)) else none
  | .delGlobServlet uri' => if uri' = uri then some none else none
  | _ => none

/-- The servlet that a path should get: the last one added for exactly this path, else that of the
matching pattern whose latest addition is the earliest, else the default. -/
inductive Chosen (fnmatch : String → String → Bool) (default : Servlet α β)
    (calls : List (Call α β)) (path : String) : Servlet α β → Prop where
  | exact {i : Nat} {slt : Servlet α β} (h : Current (dataEffect path) calls i slt) :
      Chosen fnmatch default calls path slt
  | glob {uri : String} {i : Nat} {slt : Servlet α β}
      (hnone : ∀ i slt, ¬Current (dataEffect path) calls i slt)
      (h : Current (globEffect uri) calls i slt) (hmatch : fnmatch uri path = true)
      (hfirst : ∀ uri' i' slt', Current (globEffect uri') calls i' slt' →
        fnmatch uri' path = true → i ≤ i') :
      Chosen fnmatch default calls path slt
  | default (hnone : ∀ i slt, ¬Current (dataEffect path) calls i slt)
      (hnoglob : ∀ uri i slt, Current (globEffect uri) calls i slt → fnmatch uri path = false) :
      Chosen fnmatch default calls path default

/-! ## The state follows the history -/

section Follows

variable {d : ServletDispatch α β} {calls : List (Call α β)} {c : Call α β} {uri : String}
  {slt : Servlet α β} {fnmatch : String → String → Bool} {default : Servlet α β}

/-- Entries of `m_globs` with the place of the call that added each. -/
structure Ages (calls : List (Call α β)) (entries : List (Nat × String × Servlet α β)) : Prop where
  sorted : entries.Pairwise fun a b => a.1 < b.1
  mem_iff : ∀ i uri slt, (i, uri, slt) ∈ entries ↔ Current (globEffect uri) calls i slt

/-- What the map and the list are at any time. -/
structure Follows (calls : List (Call α β)) (d : ServletDispatch α β) : Prop where
  datas : ∀ uri slt, d.datas.lookup uri = some slt ↔ ∃ i, Current (dataEffect uri) calls i slt
  globs : ∃ entries, entries.map Prod.snd = d.globs ∧ Ages calls entries

/-! ### The map -/

theorem datas_keep (h : ∀ uri slt, d.datas.lookup uri = some slt ↔
      ∃ i, Current (dataEffect uri) calls i slt)
    (hc : ∀ uri, dataEffect uri c = none) (uri : String) (slt : Servlet α β) :
    d.datas.lookup uri = some slt ↔ ∃ i, Current (dataEffect uri) (calls ++ [c]) i slt := by
  simp [current_snoc, hc, h]

theorem datas_add (h : ∀ uri slt, d.datas.lookup uri = some slt ↔
      ∃ i, Current (dataEffect uri) calls i slt)
    {uri : String} {slt : Servlet α β}
    (hc : ∀ uri', dataEffect uri' c = if uri = uri' then some (some slt) else none)
    (uri' : String) (slt' : Servlet α β) :
    (d.addServlet uri slt).datas.lookup uri' = some slt' ↔
      ∃ i, Current (dataEffect uri') (calls ++ [c]) i slt' := by
  by_cases heq : uri' = uri
  · subst heq
    simp [addServlet, AList.lookup_insert, current_snoc, hc]
  · simp [addServlet, AList.lookup_insert_ne heq, current_snoc, hc, Ne.symm heq, h]

theorem datas_del (h : ∀ uri slt, d.datas.lookup uri = some slt ↔
      ∃ i, Current (dataEffect uri) calls i slt)
    {uri : String} (hc : ∀ uri', dataEffect uri' c = if uri = uri' then some none else none)
    (uri' : String) (slt' : Servlet α β) :
    (d.delServlet uri).datas.lookup uri' = some slt' ↔
      ∃ i, Current (dataEffect uri') (calls ++ [c]) i slt' := by
  by_cases heq : uri' = uri
  · subst heq
    simp [delServlet, AList.lookup_erase, current_snoc, hc]
  · simp [delServlet, AList.lookup_erase_ne heq, current_snoc, hc, Ne.symm heq, h]

/-! ### The list -/

/-- The patterns in the list are different. -/
theorem Ages.distinct {entries : List (Nat × String × Servlet α β)} (h : Ages calls entries) :
    entries.Pairwise fun a b => a.2.1 ≠ b.2.1 := by
  refine List.Pairwise.imp_of_mem ?_ h.sorted
  rintro ⟨i, uri, slt⟩ ⟨i', uri', slt'⟩ hmem hmem' hlt heq
  cases heq
  obtain ⟨hi, -⟩ := ((h.mem_iff i uri slt).mp hmem).unique ((h.mem_iff i' uri slt').mp hmem')
  exact absurd hi (Nat.ne_of_lt hlt)

/-- Where patterns are different, erasing the first entry of one erases them all. -/
theorem eraseP_distinct {entries : List (Nat × String × Servlet α β)}
    (h : entries.Pairwise fun a b => a.2.1 ≠ b.2.1) (uri : String) :
    entries.eraseP (fun e => e.2.1 == uri) = entries.filter fun e => e.2.1 != uri := by
  induction entries with
  | nil => rfl
  | cons e entries ih =>
    obtain ⟨hfirst, hrest⟩ := List.pairwise_cons.mp h
    by_cases he : e.2.1 = uri
    · subst he
      have hall : entries.filter (fun e' => e'.2.1 != e.2.1) = entries := by
        rw [List.filter_eq_self]
        intro e' he'
        exact bne_iff_ne.mpr (Ne.symm (hfirst e' he'))
      simp [hall]
    · simp [he, ih hrest]

theorem ages_keep {entries : List (Nat × String × Servlet α β)} (h : Ages calls entries)
    (hc : ∀ uri, globEffect uri c = none) : Ages (calls ++ [c]) entries where
  sorted := h.sorted
  mem_iff := by simp [current_snoc, hc, h.mem_iff]

theorem ages_del {entries : List (Nat × String × Servlet α β)} (h : Ages calls entries)
    {uri : String} (hc : ∀ uri', globEffect uri' c = if uri = uri' then some none else none) :
    Ages (calls ++ [c]) (entries.filter fun e => e.2.1 != uri) where
  sorted := h.sorted.filter _
  mem_iff := by
    intro i uri' slt'
    by_cases heq : uri' = uri
    · subst heq
      simp [current_snoc, hc]
    · simp [current_snoc, hc, h.mem_iff, heq, Ne.symm heq]

/-- The entry that is added is the youngest. -/
theorem ages_add {entries : List (Nat × String × Servlet α β)} (h : Ages calls entries)
    {uri : String} {slt : Servlet α β}
    (hc : ∀ uri', globEffect uri' c = if uri = uri' then some (some slt) else none) :
    Ages (calls ++ [c])
      ((entries.filter fun e => e.2.1 != uri) ++ [(calls.length, uri, slt)]) where
  sorted := by
    rw [List.pairwise_append]
    refine ⟨h.sorted.filter _, List.pairwise_singleton _ _, ?_⟩
    rintro ⟨i, uri', slt'⟩ hmem e he
    rw [List.mem_singleton] at he
    subst he
    exact ((h.mem_iff i uri' slt').mp (List.mem_of_mem_filter hmem)).lt
  mem_iff := by
    intro i uri' slt'
    by_cases heq : uri' = uri
    · subst heq
      simp [current_snoc, hc, eq_comm]
    · simp [current_snoc, hc, h.mem_iff, heq, Ne.symm heq]

theorem globs_erase {entries : List (Nat × String × Servlet α β)} (h : Ages calls entries)
    (hglobs : entries.map Prod.snd = d.globs) (uri : String) :
    (entries.filter fun e => e.2.1 != uri).map Prod.snd = d.globs.eraseP fun g => g.1 == uri := by
  rw [← hglobs, ← eraseP_distinct h.distinct, List.eraseP_map]
  rfl

/-! ### Every call -/

theorem follows_create (default : Servlet α β) :
    Follows ([] : List (Call α β)) (create.setDefault default) where
  datas := by
    intro uri slt
    simp [create, setDefault]
    intro i h
    simpa using h.lt
  globs := by
    refine ⟨[], rfl, .nil, ?_⟩
    intro i uri slt
    simp
    intro h
    simpa using h.lt

theorem follows_call (h : Follows calls d) (c : Call α β) :
    Follows (calls ++ [c]) (Call.apply d c) := by
  obtain ⟨entries, hglobs, hages⟩ := h.globs
  have herase := globs_erase hages hglobs
  cases c with
  | addServlet uri slt =>
    exact ⟨datas_add h.datas fun _ => rfl, entries, hglobs, ages_keep hages fun _ => rfl⟩
  | addServletCallback uri cb =>
    exact ⟨datas_add h.datas fun _ => rfl, entries, hglobs, ages_keep hages fun _ => rfl⟩
  | addGlobServlet uri slt =>
    refine ⟨datas_keep h.datas fun _ => rfl, _, ?_, ages_add hages fun _ => rfl⟩
    rw [List.map_append, herase]
    rfl
  | addGlobServletCallback uri cb =>
    refine ⟨datas_keep h.datas fun _ => rfl, _, ?_, ages_add hages fun _ => rfl⟩
    rw [List.map_append, herase]
    rfl
  | delServlet uri =>
    exact ⟨datas_del h.datas fun _ => rfl, entries, hglobs, ages_keep hages fun _ => rfl⟩
  | delGlobServlet uri =>
    exact ⟨datas_keep h.datas fun _ => rfl, _, herase uri, ages_del hages fun _ => rfl⟩

theorem follows_after (default : Servlet α β) (calls : List (Call α β)) :
    Follows calls (after default calls) := by
  induction calls using List.reverseRecOn with
  | nil => exact follows_create default
  | append_singleton calls c ih =>
    rw [after, List.foldl_append]
    exact follows_call ih c

/-- The first entry that matches was added before all others that match. -/
theorem find_first {entries : List (Nat × String × Servlet α β)} (h : Ages calls entries)
    (hglobs : entries.map Prod.snd = d.globs) {path : String} {g : String × Servlet α β}
    (hfind : (d.globs.find? fun g => fnmatch g.1 path) = some g) :
    ∃ i, Current (globEffect g.1) calls i g.2 ∧ fnmatch g.1 path = true ∧
      ∀ uri' i' slt', Current (globEffect uri') calls i' slt' → fnmatch uri' path = true →
        i ≤ i' := by
  rw [← hglobs, List.find?_map, Option.map_eq_some_iff] at hfind
  obtain ⟨⟨i, uri, slt⟩, hentry, rfl⟩ := hfind
  obtain ⟨hmatch, before, behind, rfl, hbefore⟩ := List.find?_eq_some_iff_append.mp hentry
  refine ⟨i, (h.mem_iff i uri slt).mp (by simp), hmatch, ?_⟩
  intro uri' i' slt' hcurrent hmatch'
  have hmem := (h.mem_iff i' uri' slt').mpr hcurrent
  obtain hmem | hmem := List.mem_append.mp hmem
  · have hno := hbefore _ hmem
    simp [hmatch'] at hno
  · obtain heq | hmem := List.mem_cons.mp hmem
    · cases heq
      exact Nat.le_refl _
    · obtain ⟨-, hsorted, -⟩ := List.pairwise_append.mp h.sorted
      exact Nat.le_of_lt ((List.pairwise_cons.mp hsorted).1 _ hmem)

theorem Follows.chosen (h : Follows calls d) (fnmatch : String → String → Bool) (path : String) :
    Chosen fnmatch d.default calls path (d.getMatchedServlet fnmatch path) := by
  obtain ⟨entries, hglobs, hages⟩ := h.globs
  rw [getMatchedServlet]
  cases hdata : d.datas.lookup path with
  | some slt =>
    obtain ⟨i, hcurrent⟩ := (h.datas path slt).mp hdata
    exact .exact hcurrent
  | none =>
    have hnone : ∀ i slt, ¬Current (dataEffect path) calls i slt := by
      intro i slt hcurrent
      rw [(h.datas path slt).mpr ⟨i, hcurrent⟩] at hdata
      cases hdata
    cases hfind : d.globs.find? fun g => fnmatch g.1 path with
    | some g =>
      obtain ⟨i, hcurrent, hmatch, hfirst⟩ := find_first hages hglobs hfind
      exact .glob hnone hcurrent hmatch hfirst
    | none =>
      apply Chosen.default hnone
      intro uri i slt hcurrent
      have hmem := List.mem_map_of_mem (f := Prod.snd) ((hages.mem_iff i uri slt).mpr hcurrent)
      rw [hglobs] at hmem
      simpa using List.find?_eq_none.mp hfind _ hmem

/-- One call adds one servlet. -/
theorem globEffect_inj {uri uri' : String} {slt slt' : Servlet α β}
    (h : globEffect uri c = some (some slt)) (h' : globEffect uri' c = some (some slt')) :
    slt = slt' := by
  cases c with
  | addGlobServlet u s =>
    simp only [globEffect, Option.ite_none_right_eq_some, Option.some.injEq] at h h'
    exact h.2.symm.trans h'.2
  | addGlobServletCallback u cb =>
    simp only [globEffect, Option.ite_none_right_eq_some, Option.some.injEq] at h h'
    exact h.2.symm.trans h'.2
  | delGlobServlet u => simp [globEffect] at h
  | addServlet | addServletCallback | delServlet => cases h

/-- The history leaves one servlet for a path. -/
theorem Chosen.unique {path : String} {slt slt' : Servlet α β}
    (h : Chosen fnmatch default calls path slt) (h' : Chosen fnmatch default calls path slt') :
    slt = slt' := by
  cases h with
  | exact h =>
    cases h' with
    | exact h' => exact (h.unique h').2
    | glob hnone => exact absurd h (hnone _ _)
    | default hnone => exact absurd h (hnone _ _)
  | glob hnone h hmatch hfirst =>
    cases h' with
    | exact h' => exact absurd h' (hnone _ _)
    | glob _ h' hmatch' hfirst' =>
      have hsame := Nat.le_antisymm (hfirst _ _ _ h' hmatch') (hfirst' _ _ _ h hmatch)
      subst hsame
      obtain ⟨c, hc, hset⟩ := h.set
      obtain ⟨c', hc', hset'⟩ := h'.set
      rw [hc] at hc'
      cases hc'
      exact globEffect_inj hset hset'
    | default _ hnoglob =>
      rw [hnoglob _ _ _ h] at hmatch
      cases hmatch
  | default hnone hnoglob =>
    cases h' with
    | exact h' => exact absurd h' (hnone _ _)
    | glob _ h' hmatch' =>
      rw [hnoglob _ _ _ h'] at hmatch'
      cases hmatch'
    | default => rfl

theorem default_after (default : Servlet α β) (calls : List (Call α β)) :
    (after default calls).default = default := by
  induction calls using List.reverseRecOn with
  | nil => rfl
  | append_singleton calls c ih =>
    rw [after, List.foldl_append]
    cases c <;> exact ih

theorem globs_nodup (h : Follows calls d) : (d.globs.map Prod.fst).Nodup := by
  obtain ⟨entries, hglobs, hages⟩ := h.globs
  rw [← hglobs, List.map_map, List.nodup_iff_pairwise_ne, List.pairwise_map]
  exact hages.distinct

/-- After any calls the patterns are different, and every path gets the servlet that the history
chooses. -/
theorem getMatchedServlet_chosen (fnmatch : String → String → Bool) (default : Servlet α β)
    (calls : List (Call α β)) :
    ((after default calls).globs.map Prod.fst).Nodup ∧
      ∀ path slt, (after default calls).getMatchedServlet fnmatch path = slt ↔
        Chosen fnmatch default calls path slt := by
  have hfollows := follows_after default calls
  constructor
  · exact globs_nodup hfollows
  · intro path slt
    have hchosen := hfollows.chosen fnmatch path
    rw [default_after] at hchosen
    constructor
    · rintro rfl
      exact hchosen
    · intro h
      exact hchosen.unique h

/-- The pattern that is added again goes behind the other; a path of its own comes first. -/
example : let calls : List (Call Nat Nat) := [.addGlobServlet "/*" 1, .addGlobServletCallback "/a*" 2,
      .addGlobServlet "/*" 3, .addServlet "/ab" 4]
    (after (.of 0) calls).getMatchedServlet (fun uri _ => uri != "/b*") "/ac" =
        .FunctionServlet 2 ∧
      (after (.of 0) calls).getMatchedServlet (fun uri _ => uri != "/b*") "/ab" = .of 4 := by
  decide

end Follows

end ServletDispatch

end CxkFramework
