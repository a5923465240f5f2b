import CxkFramework.ScannerTable
import Mathlib.Data.List.Dedup

/-!
# Words without actions

On a word on which a machine performs no action only its state changes. Where such a word leads is
found for single words by running the machine, for the words over a class of bytes by a set of
states that is closed under them, and for the words that take each byte from a class of its own by
following all the states there are.
-/

namespace CxkFramework.Scanner

variable {Q A D ε : Type*}

namespace Machine

variable (M : Machine Q A)

/-- The state behind a word on which no action is performed. -/
def glide : Q → List UInt8 → Option Q
  | q, [] => some q
  | q, b :: bs =>
    match M.next q b with
    | some (q', []) => glide q' bs
    | _ => none

variable {M}

theorem glide_cons_eq {q q' : Q} {b : UInt8} (bs : List UInt8) (h : M.next q b = some (q', [])) :
    M.glide q (b :: bs) = M.glide q' bs := by
  rw [glide, h]

theorem glide_cons {q q' : Q} {b : UInt8} {bs : List UInt8} (h : M.glide q (b :: bs) = some q') :
    ∃ q₁, M.next q b = some (q₁, []) ∧ M.glide q₁ bs = some q' := by
  rw [glide] at h
  split at h
  · rename_i q₁ hnext
    exact ⟨q₁, hnext, h⟩
  · cases h

theorem glide_append {q q' : Q} {u : List UInt8} (v : List UInt8) (h : M.glide q u = some q') :
    M.glide q (u ++ v) = M.glide q' v := by
  induction u generalizing q with
  | nil =>
    cases h
    rfl
  | cons b u ih =>
    obtain ⟨q₁, hnext, hu⟩ := glide_cons h
    rw [List.cons_append, glide_cons_eq _ hnext]
    exact ih hu

theorem after_of_glide {q q' : Q} {u : List UInt8} (h : M.glide q u = some q') :
    M.after q u = some q' := by
  induction u generalizing q with
  | nil => exact h
  | cons b u ih =>
    obtain ⟨q₁, hnext, hu⟩ := glide_cons h
    simp only [after, hnext, List.any_nil, Bool.false_eq_true, if_false]
    exact ih hu

theorem exec_glide {act : Nat → A → D → Except ε D} {q q' : Q} {u : List UInt8}
    (h : M.glide q u = some q') (v : List UInt8) (p : Nat) (d : D) :
    M.exec act q p (u ++ v) d = M.exec act q' (p + u.length) v d := by
  induction u generalizing q p with
  | nil =>
    cases h
    rfl
  | cons b u ih =>
    obtain ⟨q₁, hnext, hu⟩ := glide_cons h
    simp only [List.cons_append, exec, hnext, performAll, List.any_nil, Bool.false_eq_true, if_false]
    rw [ih hu, List.length_cons, Nat.add_assoc, Nat.add_comm 1]

theorem after_of_append {q q' : Q} {u v : List UInt8} (h : M.after q (u ++ v) = some q') :
    ∃ q₁, M.after q u = some q₁ ∧ M.after q₁ v = some q' := by
  induction u generalizing q with
  | nil => exact ⟨q, rfl, h⟩
  | cons b u ih =>
    obtain ⟨q₁, as, hnext, hstop, hrest⟩ := after_cons h
    obtain ⟨q₂, hfirst, hsecond⟩ := ih hrest
    refine ⟨q₂, ?_, hsecond⟩
    simp only [after, hnext, hstop, Bool.false_eq_true, if_false]
    exact hfirst

theorem after_append_none {q : Q} {u : List UInt8} (h : M.after q u = none) (v : List UInt8) :
    M.after q (u ++ v) = none := by
  cases hafter : M.after q (u ++ v) with
  | none => rfl
  | some q' =>
    obtain ⟨q₁, hfirst, -⟩ := after_of_append hafter
    rw [h] at hfirst
    cases hfirst

/-! ## Closed sets -/

/-- Without an action every byte of the class leads from the set into the set. -/
theorem glide_of_closed {S : Q → Prop} {C : UInt8 → Prop}
    (hclosed : ∀ q b, S q → C b → ∃ q', M.next q b = some (q', []) ∧ S q') {q : Q}
    {u : List UInt8} (hq : S q) (hu : ∀ b ∈ u, C b) : ∃ q', M.glide q u = some q' ∧ S q' := by
  induction u generalizing q with
  | nil => exact ⟨q, rfl, hq⟩
  | cons b u ih =>
    obtain ⟨q₁, hnext, hq₁⟩ := hclosed q b hq (hu b List.mem_cons_self)
    obtain ⟨q', hglide, hq'⟩ := ih hq₁ fun b' hb' => hu b' (List.mem_cons_of_mem b hb')
    exact ⟨q', (glide_cons_eq _ hnext).trans hglide, hq'⟩

/-- A run without an error stays in a set and performs no action, or leaves the set or performs one
on some byte. -/
theorem glide_or_leaves (S : Q → Prop) {q q' : Q} {u : List UInt8}
    (h : M.after q u = some q') (hq : S q) :
    M.glide q u = some q' ∧ S q' ∨
      ∃ u₁ b u₂ q₁ q₂ as, u = u₁ ++ b :: u₂ ∧ M.glide q u₁ = some q₁ ∧ S q₁ ∧
        M.next q₁ b = some (q₂, as) ∧ ¬(as = [] ∧ S q₂) ∧ M.after q₂ u₂ = some q' := by
  induction u generalizing q with
  | nil => exact .inl ⟨h, by cases h; exact hq⟩
  | cons b u ih =>
    obtain ⟨q₁, as, hnext, _, hrest⟩ := after_cons h
    by_cases hstays : as = [] ∧ S q₁
    · obtain ⟨rfl, hq₁⟩ := hstays
      cases ih hrest hq₁ with
      | inl hall => exact .inl ⟨(glide_cons_eq _ hnext).trans hall.1, hall.2⟩
      | inr hleaves =>
        obtain ⟨u₁, b', u₂, q₂, q₃, as, rfl, hglide, hstep⟩ := hleaves
        exact .inr ⟨b :: u₁, b', u₂, q₂, q₃, as, rfl, (glide_cons_eq _ hnext).trans hglide, hstep⟩
    · exact .inr ⟨[], b, u, q, q₁, as, rfl, rfl, hq, hnext, hstays, hrest⟩

/-- No run leaves a closed set. -/
theorem after_closed {S : Q → Prop} {C : UInt8 → Prop}
    (hclosed : ∀ q b q' as, S q → C b → M.next q b = some (q', as) → S q') {q q' : Q}
    {u : List UInt8} (h : M.after q u = some q') (hq : S q) (hu : ∀ b ∈ u, C b) : S q' := by
  induction u generalizing q with
  | nil =>
    cases h
    exact hq
  | cons b u ih =>
    obtain ⟨q₁, as, hnext, _, hrest⟩ := after_cons h
    exact ih hrest (hclosed q b q₁ as hq (hu b List.mem_cons_self) hnext)
      fun b' hb' => hu b' (List.mem_cons_of_mem b hb')

/-! ## Words over classes -/

section Classes

variable [DecidableEq Q] (M)

/-- Where one state leads on the bytes of a class, `none` if one of them is an error or performs an
action. -/
def leads (q : Q) : List UInt8 → Option (List Q)
  | [] => some []
  | b :: bs =>
    match M.next q b, leads q bs with
    | some (q', []), some qs => some (if q' ∈ qs then qs else q' :: qs)
    | _, _ => none

/-- Where some states lead on the bytes of a class. -/
def frontier (C : List UInt8) : List Q → Option (List Q)
  | [] => some []
  | q :: qs =>
    match M.leads q C, frontier C qs with
    | some qs', some qs'' => some (qs' ∪ qs'')
    | _, _ => none

/-- Where some states lead on the words with one byte from each class. -/
def frontiers : List (List UInt8) → List Q → Option (List Q)
  | [], qs => some qs
  | C :: Cs, qs => (M.frontier C qs).bind (frontiers Cs)

/-- Where some states lead on one to `n` bytes of a class. -/
def behind (C : List UInt8) : Nat → List Q → Option (List Q)
  | 0, _ => some []
  | n + 1, qs => (M.frontier C qs).bind fun qs' => (behind C n qs').map (qs' ∪ ·)

/-- Where some states lead on the words with one byte from each class, whatever is performed, when
errors are left out. -/
def spread : List (List UInt8) → List Q → List Q
  | [], qs => qs
  | C :: Cs, qs =>
    spread Cs (qs.flatMap fun q => C.filterMap fun b => (M.next q b).map Prod.fst).dedup

variable {M}

theorem next_of_leads {q : Q} {C : List UInt8} {qs : List Q} (h : M.leads q C = some qs) {b : UInt8}
    (hb : b ∈ C) : ∃ q' ∈ qs, M.next q b = some (q', []) := by
  induction C generalizing qs with
  | nil => cases hb
  | cons c C ih =>
    rw [leads] at h
    split at h
    · rename_i q' qs' hnext hleads
      cases h
      have hmem : ∀ q₁ ∈ q' :: qs', q₁ ∈ if q' ∈ qs' then qs' else q' :: qs' := by
        intro q₁ hq₁
        split
        · rename_i hin
          cases List.mem_cons.mp hq₁ with
          | inl heq => rwa [heq]
          | inr hold => exact hold
        · exact hq₁
      cases List.mem_cons.mp hb with
      | inl heq =>
        subst heq
        exact ⟨q', hmem q' List.mem_cons_self, hnext⟩
      | inr hb =>
        obtain ⟨q₁, hq₁, hnext₁⟩ := ih hleads hb
        exact ⟨q₁, hmem q₁ (List.mem_cons_of_mem q' hq₁), hnext₁⟩
    · cases h

theorem next_of_frontier {qs qs' : List Q} {C : List UInt8} (h : M.frontier C qs = some qs') {q : Q}
    {b : UInt8} (hq : q ∈ qs) (hb : b ∈ C) : ∃ q' ∈ qs', M.next q b = some (q', []) := by
  induction qs generalizing qs' with
  | nil => cases hq
  | cons q₀ qs ih =>
    rw [frontier] at h
    split at h
    · rename_i qs₁ qs₂ hleads hrest
      cases h
      cases List.mem_cons.mp hq with
      | inl heq =>
        subst heq
        obtain ⟨q', hq', hnext⟩ := next_of_leads hleads hb
        exact ⟨q', List.mem_union_iff.mpr (.inl hq'), hnext⟩
      | inr hq =>
        obtain ⟨q', hq', hnext⟩ := ih hrest hq
        exact ⟨q', List.mem_union_iff.mpr (.inr hq'), hnext⟩
    · cases h

theorem glide_of_frontiers {Cs : List (List UInt8)} {qs qs' : List Q}
    (h : M.frontiers Cs qs = some qs') {q : Q} (hq : q ∈ qs) {w : List UInt8}
    (hw : List.Forall₂ (fun b C => b ∈ C) w Cs) : ∃ q' ∈ qs', M.glide q w = some q' := by
  induction hw generalizing q qs with
  | nil =>
    cases h
    exact ⟨q, hq, rfl⟩
  | cons hb _ ih =>
    obtain ⟨qs₁, hfirst, hrest⟩ := Option.bind_eq_some_iff.mp h
    obtain ⟨q₁, hq₁, hnext⟩ := next_of_frontier hfirst hq hb
    obtain ⟨q', hq', hglide⟩ := ih hrest hq₁
    exact ⟨q', hq', (glide_cons_eq _ hnext).trans hglide⟩

theorem glide_of_behind {C : List UInt8} {n : Nat} {qs qs' : List Q}
    (h : M.behind C n qs = some qs') {q : Q} (hq : q ∈ qs) {w : List UInt8} (hne : w ≠ [])
    (hlength : w.length ≤ n) (hw : ∀ b ∈ w, b ∈ C) : ∃ q' ∈ qs', M.glide q w = some q' := by
  induction n generalizing q qs qs' w with
  | zero => exact absurd (List.length_eq_zero_iff.mp (Nat.le_zero.mp hlength)) hne
  | succ n ih =>
    obtain ⟨b, w, rfl⟩ := List.exists_cons_of_ne_nil hne
    obtain ⟨qs₁, hfirst, hrest⟩ := Option.bind_eq_some_iff.mp h
    obtain ⟨qs₂, hbehind, rfl⟩ := Option.map_eq_some_iff.mp hrest
    obtain ⟨q₁, hq₁, hnext⟩ := next_of_frontier hfirst hq (hw b List.mem_cons_self)
    by_cases hw' : w = []
    · subst hw'
      exact ⟨q₁, List.mem_union_iff.mpr (.inl hq₁), glide_cons_eq [] hnext⟩
    · obtain ⟨q', hq', hglide⟩ := ih hbehind hq₁ hw' (Nat.le_of_succ_le_succ hlength)
        fun b' hb' => hw b' (List.mem_cons_of_mem b hb')
      exact ⟨q', List.mem_union_iff.mpr (.inr hq'), (glide_cons_eq w hnext).trans hglide⟩

theorem mem_spread_of_after {Cs : List (List UInt8)} {qs : List Q} {q q' : Q} {w : List UInt8}
    (h : M.after q w = some q') (hq : q ∈ qs) (hw : List.Forall₂ (fun b C => b ∈ C) w Cs) :
    q' ∈ M.spread Cs qs := by
  induction hw generalizing q qs with
  | nil =>
    cases h
    exact hq
  | cons hb _ ih =>
    obtain ⟨q₁, as, hnext, -, hrest⟩ := after_cons h
    apply ih hrest
    apply List.mem_dedup.mpr
    apply List.mem_flatMap.mpr
    exact ⟨q, hq, List.mem_filterMap.mpr ⟨_, hb, by rw [hnext]; rfl⟩⟩

end Classes

end Machine

end CxkFramework.Scanner
