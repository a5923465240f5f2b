import CxkFramework.Runs
import Mathlib.Data.Fintype.Basic

/-!
# Configuration variables

`ConfigVar::setValue` by any number of threads. It compares and tells the listeners with the lock
held for reading, lets it go, and assigns with the lock held for writing, so a second call can
tell the listeners before the first has assigned. Then the value that the listeners heard of last
is not the one that stays. Listeners come and go with the lock held for writing.
-/

namespace CxkFramework

namespace ConfigVar

/-- Where a thread is in `setValue`. -/
inductive Place (ν : Type) where
  | out
  /-- in the loop, with the lock for reading; so many listeners were called -/
  | notifying (value : ν) (called : Nat)
  /-- past the loop, with the write lock next -/
  | assigning (value : ν)
  deriving DecidableEq, Repr

/-- An entry of `m_cbs`, with the new value it was last called with, or the value of the variable
when it was added. -/
structure Listener (ν : Type) where
  id : Nat
  heard : ν
  deriving DecidableEq, Repr

end ConfigVar

open ConfigVar

structure ConfigVar (τ ν : Type) where
  value : ν
  /-- in the order of the keys -/
  cbs : List (Listener ν)
  /-- how many threads have the lock for reading -/
  readers : Nat
  place : τ → Place ν

namespace ConfigVar

open Runs

variable {τ ν : Type}

/-- Listeners that have read the value and were added. -/
def init (value : ν) (ids : List Nat) : ConfigVar τ ν where
  value := value
  cbs := ids.map fun id => ⟨id, value⟩
  readers := 0
  place _ := .out

inductive Op (τ ν : Type) where
  | compare (t : τ) (value : ν)
  /-- the next listener is called, or the loop ends -/
  | notify (t : τ)
  | assign (t : τ)
  | addListener (id : Nat)
  | delListener (id : Nat)
  deriving DecidableEq, Repr

/-- Why a step has no result. -/
inductive Halt where
  /-- the thread is elsewhere, or the lock is not free -/
  | disabled
  deriving DecidableEq, Repr

section Step

variable [DecidableEq τ] [DecidableEq ν]

/-- A new listener gets a key above all others, from `s_fun_id`. -/
def step (s : ConfigVar τ ν) : Op τ ν → Except Halt (ConfigVar τ ν)
  | .compare t value =>
    match s.place t with
    | .out =>
      if s.value = value then .ok s
      else
        .ok { s with
          readers := s.readers + 1
          place := Function.update s.place t (.notifying value 0) }
    | _ => .error .disabled
  | .notify t =>
    match s.place t with
    | .notifying value called =>
      match s.cbs[called]? with
      | some l =>
        .ok { s with
          cbs := s.cbs.set called { l with heard := value }
          place := Function.update s.place t (.notifying value (called + 1)) }
      | none =>
        .ok { s with
          readers := s.readers - 1
          place := Function.update s.place t (.assigning value) }
    | _ => .error .disabled
  | .assign t =>
    match s.place t with
    | .assigning value =>
      if s.readers = 0 then .ok { s with value, place := Function.update s.place t .out }
      else .error .disabled
    | _ => .error .disabled
  | .addListener id =>
    if s.readers = 0 ∧ ∀ l ∈ s.cbs, l.id < id then
      .ok { s with cbs := s.cbs ++ [⟨id, s.value⟩] }
    else .error .disabled
  | .delListener id =>
    if s.readers = 0 then .ok { s with cbs := s.cbs.filter fun l => l.id ≠ id }
    else .error .disabled

def Step (s : ConfigVar τ ν) (op : Op τ ν) (s' : ConfigVar τ ν) : Prop := s.step op = .ok s'

end Step

/-! ## Listeners that agree with the value -/

/-- When all calls have returned, every listener has heard of the value last. -/
def Agrees (s : ConfigVar τ ν) : Prop :=
  (∀ t, s.place t = .out) → ∀ l ∈ s.cbs, l.heard = s.value

/-- A listener is called with the old value that it heard of last as the new one. -/
def CallsFaithfully (s : ConfigVar τ ν) (op : Op τ ν) (_ : ConfigVar τ ν) : Prop :=
  match op with
  | .notify t =>
    match s.place t with
    | .notifying _ called => ∀ l, s.cbs[called]? = some l → l.heard = s.value
    | _ => True
  | _ => True

/-- Nobody is between a comparison and its assignment when a listener is added, nor when a
new value is compared while there are listeners. -/
def Undisturbed (s : ConfigVar τ ν) : Op τ ν → Prop
  | .compare _ value => s.value = value ∨ s.cbs = [] ∨ ∀ t, s.place t = .out
  | .addListener _ => ∀ t, s.place t = .out
  | _ => True

instance [Fintype τ] [DecidableEq ν] (s : ConfigVar τ ν) : ∀ op, Decidable (Undisturbed s op)
  | .compare _ value => inferInstanceAs (Decidable (s.value = value ∨ s.cbs = [] ∨ ∀ t, s.place t = .out))
  | .addListener _ => inferInstanceAs (Decidable (∀ t, s.place t = .out))
  | .notify _ | .assign _ | .delListener _ => isTrue trivial

/-! ## One call at a time -/

structure Idle (s : ConfigVar τ ν) : Prop where
  out : ∀ t, s.place t = .out
  heard : ∀ l ∈ s.cbs, l.heard = s.value

/-- One thread is in the loop, and the listeners called so far know its value. -/
structure Notifying (s : ConfigVar τ ν) (t : τ) (value : ν) (called : Nat) : Prop where
  place_eq : s.place t = .notifying value called
  others : ∀ u ≠ t, s.place u = .out
  reader : s.readers ≠ 0
  heard : ∀ i l, s.cbs[i]? = some l → l.heard = if i < called then value else s.value

structure Assigning (s : ConfigVar τ ν) (t : τ) (value : ν) : Prop where
  place_eq : s.place t = .assigning value
  others : ∀ u ≠ t, s.place u = .out
  heard : ∀ l ∈ s.cbs, l.heard = value

/-- Where there are listeners, one call is under way at most. -/
def Inv (s : ConfigVar τ ν) : Prop :=
  s.cbs = [] ∨ Idle s ∨ (∃ t value called, Notifying s t value called) ∨
    ∃ t value, Assigning s t value

theorem idle_init (value : ν) (ids : List Nat) : Idle (init value ids : ConfigVar τ ν) where
  out _ := rfl
  heard := by simp [init]

theorem Inv.agrees {s : ConfigVar τ ν} (h : Inv s) : Agrees s := by
  intro hout l hl
  rcases h with h | h | ⟨t, value, called, h⟩ | ⟨t, value, h⟩
  · simp [h] at hl
  · exact h.heard l hl
  · exact absurd ((hout t).symm.trans h.place_eq) (by simp)
  · exact absurd ((hout t).symm.trans h.place_eq) (by simp)

theorem update_others [DecidableEq τ] {s : ConfigVar τ ν} {t : τ}
    (h : ∀ u ≠ t, s.place u = .out) (p : Place ν) :
    ∀ u ≠ t, Function.update s.place t p u = .out := by
  intro u hu
  rw [Function.update_of_ne hu]
  exact h u hu

/-- A thread that is in `setValue` is the one the state is about. -/
theorem eq_of_place {s : ConfigVar τ ν} {t u : τ} (h : ∀ u ≠ t, s.place u = .out)
    (hu : s.place u ≠ .out) : u = t := by
  by_contra hne
  exact hu (h u hne)

/-! ## What a step keeps -/

section Keep

variable [DecidableEq τ] [DecidableEq ν] {s s' : ConfigVar τ ν}

theorem inv_compare {t : τ} {value : ν} (hi : Inv s) (hok : Undisturbed s (.compare t value))
    (h : Step s (.compare t value) s') : Inv s' := by
  rw [Step, step] at h
  cases hp : s.place t with
  | notifying value called => simp [hp] at h
  | assigning value => simp [hp] at h
  | out =>
    simp only [hp] at h
    split at h
    · cases h
      exact hi
    · rename_i hne
      cases h
      rcases hok with heq | hnone | hout
      · exact absurd heq hne
      · exact .inl hnone
      · refine .inr (.inr (.inl ⟨t, value, 0, ?_, ?_, ?_, ?_⟩))
        · exact Function.update_self t _ s.place
        · exact update_others (fun u _ => hout u) _
        · exact Nat.succ_ne_zero s.readers
        · intro i l hl
          rw [if_neg (Nat.not_lt_zero i)]
          exact hi.agrees hout l (List.mem_of_getElem? hl)

theorem inv_notify {t : τ} (hi : Inv s) (h : Step s (.notify t) s') : Inv s' := by
  rw [Step, step] at h
  cases hp : s.place t with
  | out => simp [hp] at h
  | assigning value => simp [hp] at h
  | notifying value called =>
    simp only [hp] at h
    have hne : s.place t ≠ .out := by simp [hp]
    rcases hi with hnone | hidle | ⟨t', value', called', hn⟩ | ⟨t', value', ha⟩
    · left
      split at h
      · rename_i l hl
        simp [hnone] at hl
      · cases h
        exact hnone
    · exact absurd (hidle.out t) hne
    · obtain rfl := eq_of_place hn.others hne
      obtain ⟨rfl, rfl⟩ : value = value' ∧ called = called' := by
        simpa [hp] using hn.place_eq
      split at h
      · rename_i l hl
        cases h
        refine .inr (.inr (.inl ⟨t, value, called + 1, ?_, ?_, hn.reader, ?_⟩))
        · exact Function.update_self t _ s.place
        · exact update_others hn.others _
        · intro i l' hl'
          rw [List.getElem?_set] at hl'
          by_cases hi : called = i
          · subst hi
            rw [if_pos (Nat.lt_succ_self called)]
            simp only [if_true] at hl'
            split at hl'
            · cases hl'
              rfl
            · cases hl'
          · rw [if_neg hi] at hl'
            rw [hn.heard i l' hl']
            exact if_congr (by omega) rfl rfl
      · rename_i hnone
        cases h
        refine .inr (.inr (.inr ⟨t, value, ?_, ?_, ?_⟩))
        · exact Function.update_self t _ s.place
        · exact update_others hn.others _
        · intro l hl
          obtain ⟨i, hi⟩ := List.getElem?_of_mem hl
          have hlt : i < s.cbs.length := (List.getElem?_eq_some_iff.mp hi).1
          have hall : s.cbs.length ≤ called := List.getElem?_eq_none_iff.mp hnone
          rw [hn.heard i l hi, if_pos (Nat.lt_of_lt_of_le hlt hall)]
    · obtain rfl := eq_of_place ha.others hne
      exact absurd (hp.symm.trans ha.place_eq) (by simp)

theorem inv_assign {t : τ} (hi : Inv s) (h : Step s (.assign t) s') : Inv s' := by
  rw [Step, step] at h
  cases hp : s.place t with
  | out => simp [hp] at h
  | notifying value called => simp [hp] at h
  | assigning value =>
    simp only [hp] at h
    split at h
    · cases h
      have hne : s.place t ≠ .out := by simp [hp]
      rcases hi with hnone | hidle | ⟨t', value', called', hn⟩ | ⟨t', value', ha⟩
      · exact .inl hnone
      · exact absurd (hidle.out t) hne
      · obtain rfl := eq_of_place hn.others hne
        exact absurd (hp.symm.trans hn.place_eq) (by simp)
      · obtain rfl := eq_of_place ha.others hne
        obtain rfl : value = value' := by simpa [hp] using ha.place_eq
        refine .inr (.inl ⟨?_, ha.heard⟩)
        intro u
        by_cases hu : u = t
        · rw [hu]
          exact Function.update_self t _ s.place
        · exact update_others ha.others _ u hu
    · cases h

theorem inv_addListener {id : Nat} (hi : Inv s) (hok : Undisturbed s (.addListener id))
    (h : Step s (.addListener id) s') : Inv s' := by
  rw [Step, step] at h
  split at h
  · cases h
    refine .inr (.inl ⟨hok, ?_⟩)
    intro l hl
    rcases List.mem_append.mp hl with hl | hl
    · exact hi.agrees hok l hl
    · rw [List.mem_singleton.mp hl]
  · cases h

theorem inv_delListener {id : Nat} (hi : Inv s) (h : Step s (.delListener id) s') : Inv s' := by
  rw [Step, step] at h
  split at h
  · rename_i hfree
    cases h
    rcases hi with hnone | hidle | ⟨t, value, called, hn⟩ | ⟨t, value, ha⟩
    · left
      simp [hnone]
    · exact .inr (.inl ⟨hidle.out, fun l hl => hidle.heard l (List.mem_of_mem_filter hl)⟩)
    · exact absurd hfree hn.reader
    · exact .inr (.inr (.inr ⟨t, value, ha.place_eq, ha.others,
        fun l hl => ha.heard l (List.mem_of_mem_filter hl)⟩))
  · cases h

theorem inv_step {op : Op τ ν} (hi : Inv s) (hok : Undisturbed s op) (h : Step s op s') :
    Inv s' := by
  cases op with
  | compare t value => exact inv_compare hi hok h
  | notify t => exact inv_notify hi h
  | assign t => exact inv_assign hi h
  | addListener id => exact inv_addListener hi hok h
  | delListener id => exact inv_delListener hi h

omit [DecidableEq τ] [DecidableEq ν] in
theorem callsFaithfully_step {op : Op τ ν} (hi : Inv s) : CallsFaithfully s op s' := by
  cases op with
  | notify t =>
    rw [CallsFaithfully]
    cases hp : s.place t with
    | notifying value called =>
      intro l hl
      have hne : s.place t ≠ .out := by simp [hp]
      rcases hi with hnone | hidle | ⟨t', value', called', hn⟩ | ⟨t', value', ha⟩
      · simp [hnone] at hl
      · exact absurd (hidle.out t) hne
      · obtain rfl := eq_of_place hn.others hne
        obtain ⟨rfl, rfl⟩ : value = value' ∧ called = called' := by
          simpa [hp] using hn.place_eq
        rw [hn.heard called l hl, if_neg (Nat.lt_irrefl called)]
      · obtain rfl := eq_of_place ha.others hne
        exact absurd (hp.symm.trans ha.place_eq) (by simp)
    | _ => trivial
  | _ => trivial

end Keep

/-- In every run in which no two calls that tell listeners overlap, the listeners agree with the
value whenever all calls have returned, and are called with the old value they know. -/
theorem run_agrees [DecidableEq τ] [DecidableEq ν] {value : ν} {ids : List Nat}
    {t : List (Op τ ν × ConfigVar τ ν)}
    (run : Run Step (init value ids) t) (hm : Meets Undisturbed (init value ids) t) :
    Always Agrees (init value ids) t ∧ Every CallsFaithfully (init value ids) t := by
  have hinit : Inv (init value ids : ConfigVar τ ν) := .inr (.inl (idle_init value ids))
  refine ⟨?_, ?_⟩
  · apply Always.mono _ fun s hs => Inv.agrees hs
    exact always_of_meets (fun s op s' hi hok h => inv_step hi hok h) run hinit hm
  · exact every_of_meets (fun s op s' hi hok h => inv_step hi hok h)
      (fun s op s' hi _ _ => callsFaithfully_step hi) run hinit hm

/-- One listener and two threads; the second call begins when the first has returned. -/
theorem run_agrees_in_turn :
    ∃ t, Run Step (init 0 [7] : ConfigVar Bool Nat) t ∧ Always Agrees (init 0 [7]) t ∧
      Every CallsFaithfully (init 0 [7]) t ∧ (last (init 0 [7]) t).value = 2 := by
  let ops : List (Op Bool Nat) :=
    [.compare true 1, .notify true, .notify true, .assign true, .addListener 8, .compare false 2,
      .notify false, .notify false, .notify false, .assign false, .compare true 2]
  have htrace : ∃ t, trace step (init 0 [7]) ops = .ok t := ⟨_, rfl⟩
  obtain ⟨t, ht⟩ := htrace
  have hm : Meets Undisturbed (init 0 [7]) t := by
    cases ht
    decide
  have hlast : (last (init 0 [7]) t).value = 2 := by
    cases ht
    rfl
  have run := run_of_trace ops ht
  exact ⟨t, run, (run_agrees run hm).1, (run_agrees run hm).2, hlast⟩

/-- The second call tells the listener before the first has assigned: the first value stays, and
the listener has heard of the second. -/
theorem run_overlap_breaks_agrees :
    ∃ t, Run Step (init 0 [7] : ConfigVar Bool Nat) t ∧ ¬Always Agrees (init 0 [7]) t := by
  let ops : List (Op Bool Nat) :=
    [.compare true 1, .notify true, .notify true, .compare false 2, .notify false, .notify false,
      .assign false, .assign true]
  have htrace : ∃ t, trace step (init 0 [7]) ops = .ok t := ⟨_, rfl⟩
  obtain ⟨t, ht⟩ := htrace
  refine ⟨t, run_of_trace ops ht, fun h => ?_⟩
  have hagrees := h.last
  cases ht
  exact absurd (hagrees (by decide) ⟨7, 2⟩ (by decide)) (by decide)

end ConfigVar

end CxkFramework
