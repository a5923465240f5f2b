import Mathlib.Data.List.Basic

/-!
# Machines that act on what they read

A deterministic machine goes from state to state byte by byte and performs actions on the way.
The actions work on registers: some set one, others use what was set. When the bytes come in
several pieces and the registers do not outlive a piece, the run on the pieces agrees with the run
on all the bytes as long as no register is live where a piece ends.
-/

namespace CxkFramework.Scanner

/-- `next` gives where a byte leads and the actions on the way, `none` is an error. An action that
`stops` ends the run behind its byte. -/
structure Machine (Q A : Type*) where
  next : Q → UInt8 → Option (Q × List A)
  stops : A → Bool

/-- How a run ended: out of bytes, by an action, or by an error. -/
inductive Verdict (Q : Type*) where
  | running (q : Q)
  | stopped (q : Q)
  | failed
  deriving DecidableEq, Repr

variable {Q A R D F ε : Type*}

def performAll (act : A → D → Except ε D) : List A → D → Except ε D
  | [], d => .ok d
  | a :: as, d =>
    match act a d with
    | .ok d => performAll act as d
    | .error e => .error e

namespace Machine

variable (M : Machine Q A)

/-- The run from a state and a position on: how it ends, behind which byte, and the data. -/
def exec (act : Nat → A → D → Except ε D) :
    Q → Nat → List UInt8 → D → Except ε (Verdict Q × Nat × D)
  | q, p, [], d => .ok (.running q, p, d)
  | q, p, b :: bs, d =>
    match M.next q b with
    | none => .ok (.failed, p, d)
    | some (q', as) =>
      match performAll (act p) as d with
      | .error e => .error e
      | .ok d =>
        if as.any M.stops then .ok (.stopped q', p + 1, d)
        else exec act q' (p + 1) bs d

/-- The state after bytes that neither end the run nor are an error. -/
def after : Q → List UInt8 → Option Q
  | q, [] => some q
  | q, b :: bs =>
    match M.next q b with
    | none => none
    | some (q', as) => if as.any M.stops then none else after q' bs

/-- The last of the bytes, and none before it, ends the run. -/
def accepts : Q → List UInt8 → Bool
  | _, [] => false
  | q, b :: bs =>
    match M.next q b with
    | none => false
    | some (q', as) => if as.any M.stops then bs.isEmpty else accepts q' bs

def outcome : Q → List UInt8 → Verdict Q
  | q, [] => .running q
  | q, b :: bs =>
    match M.next q b with
    | none => .failed
    | some (q', as) => if as.any M.stops then .stopped q' else outcome q' bs

def consumed : Q → List UInt8 → Nat
  | _, [] => 0
  | q, b :: bs =>
    match M.next q b with
    | none => 0
    | some (q', as) => if as.any M.stops then 1 else consumed q' bs + 1

variable {M}

theorem after_cons {q q' : Q} {b : UInt8} {bs : List UInt8} (h : M.after q (b :: bs) = some q') :
    ∃ q₁ as, M.next q b = some (q₁, as) ∧ as.any M.stops = false ∧ M.after q₁ bs = some q' := by
  rw [after] at h
  split at h
  · simp at h
  · rename_i q₁ as hnext
    split at h
    · simp at h
    · rename_i hstop
      exact ⟨q₁, as, hnext, by simpa using hstop, h⟩

theorem accepts_cons {q : Q} {b : UInt8} {bs : List UInt8} (h : M.accepts q (b :: bs) = true) :
    ∃ q₁ as, M.next q b = some (q₁, as) ∧
      (as.any M.stops = true ∧ bs = [] ∨ as.any M.stops = false ∧ M.accepts q₁ bs = true) := by
  rw [accepts] at h
  split at h
  · simp at h
  · rename_i q₁ as hnext
    split at h
    · rename_i hstop
      exact ⟨q₁, as, hnext, .inl ⟨hstop, List.isEmpty_iff.mp h⟩⟩
    · rename_i hstop
      exact ⟨q₁, as, hnext, .inr ⟨by simpa using hstop, h⟩⟩

theorem after_append {q q' : Q} {u v : List UInt8} (h : M.after q u = some q') :
    M.after q (u ++ v) = M.after q' v := by
  induction u generalizing q with
  | nil =>
    cases h
    rfl
  | cons b u ih =>
    obtain ⟨q₁, as, hnext, hstop, hu⟩ := after_cons h
    simp only [List.cons_append, after, hnext, hstop, Bool.false_eq_true, if_false]
    exact ih hu

theorem accepts_append {q q' : Q} {u v : List UInt8} (h : M.after q u = some q') :
    M.accepts q (u ++ v) = M.accepts q' v := by
  induction u generalizing q with
  | nil =>
    cases h
    rfl
  | cons b u ih =>
    obtain ⟨q₁, as, hnext, hstop, hu⟩ := after_cons h
    simp only [List.cons_append, accepts, hnext, hstop, Bool.false_eq_true, if_false]
    exact ih hu

/-- Before the end of an accepted input the machine is running. -/
theorem after_of_accepts {q : Q} {u v : List UInt8} (h : M.accepts q (u ++ v) = true)
    (hv : v ≠ []) : ∃ q', M.after q u = some q' := by
  induction u generalizing q with
  | nil => exact ⟨q, rfl⟩
  | cons b u ih =>
    obtain ⟨q₁, as, hnext, ⟨_, hnil⟩ | ⟨hstop, hu⟩⟩ := accepts_cons h
    · exact absurd (List.append_eq_nil_iff.mp hnil).2 hv
    · simp only [after, hnext, hstop, Bool.false_eq_true, if_false]
      exact ih hu

theorem outcome_of_after {q q' : Q} {u : List UInt8} (h : M.after q u = some q') :
    M.outcome q u = .running q' ∧ M.consumed q u = u.length := by
  induction u generalizing q with
  | nil =>
    cases h
    exact ⟨rfl, rfl⟩
  | cons b u ih =>
    obtain ⟨q₁, as, hnext, hstop, hu⟩ := after_cons h
    obtain ⟨hout, hcount⟩ := ih hu
    simp only [outcome, consumed, hnext, hstop, Bool.false_eq_true, if_false, List.length_cons]
    exact ⟨hout, by rw [hcount]⟩

theorem outcome_of_accepts {q : Q} {u : List UInt8} (h : M.accepts q u = true) :
    (∃ q', M.outcome q u = .stopped q') ∧ M.consumed q u = u.length := by
  induction u generalizing q with
  | nil => simp [accepts] at h
  | cons b u ih =>
    obtain ⟨q₁, as, hnext, ⟨hstop, hnil⟩ | ⟨hstop, hu⟩⟩ := accepts_cons h
    · simp only [outcome, consumed, hnext, hstop, if_true, hnil]
      exact ⟨⟨q₁, rfl⟩, rfl⟩
    · obtain ⟨hout, hcount⟩ := ih hu
      simp only [outcome, consumed, hnext, hstop, Bool.false_eq_true, if_false, List.length_cons]
      exact ⟨hout, by rw [hcount]⟩

/-- What follows an accepted input is not looked at. -/
theorem exec_append_of_accepts {act : Nat → A → D → Except ε D} {q : Q} {u : List UInt8}
    (h : M.accepts q u = true) (v : List UInt8) (p : Nat) (d : D) :
    M.exec act q p (u ++ v) d = M.exec act q p u d := by
  induction u generalizing q p d with
  | nil => simp [accepts] at h
  | cons b u ih =>
    obtain ⟨q₁, as, hnext, ⟨hstop, _⟩ | ⟨hstop, hu⟩⟩ := accepts_cons h
    · simp only [List.cons_append, exec, hnext, hstop, if_true]
    · simp only [List.cons_append, exec, hnext, hstop, Bool.false_eq_true, if_false, ih hu]

/-- A run goes on behind bytes that leave it running. -/
theorem exec_append {act : Nat → A → D → Except ε D} {q q' : Q} {u v : List UInt8}
    (h : M.after q u = some q') {p n : Nat} {d d' : D}
    (hrun : M.exec act q p u d = .ok (.running q', n, d')) :
    M.exec act q p (u ++ v) d = M.exec act q' n v d' := by
  induction u generalizing q p d with
  | nil =>
    cases h
    cases hrun
    rfl
  | cons b u ih =>
    obtain ⟨q₁, as, hnext, hstop, hu⟩ := after_cons h
    simp only [List.cons_append, exec, hnext, hstop, Bool.false_eq_true, if_false] at hrun ⊢
    cases hall : performAll (act p) as d with
    | error e => simp [hall] at hrun
    | ok d₁ =>
      simp only [hall] at hrun ⊢
      exact ih hu hrun

/-- The state that a run stops in is reached by a transition that stops. -/
theorem next_of_stopped {q q' : Q} {u : List UInt8} (h : M.outcome q u = .stopped q') :
    ∃ q₁ b as, M.next q₁ b = some (q', as) ∧ as.any M.stops = true := by
  induction u generalizing q with
  | nil => simp [outcome] at h
  | cons b u ih =>
    rw [outcome] at h
    split at h
    · simp at h
    · rename_i q₁ as hnext
      split at h
      · rename_i hstop
        cases h
        exact ⟨q, b, as, hnext, hstop⟩
      · exact ih h

/-- The state behind some bytes is reached by a transition that does not. -/
theorem next_of_after {q q' : Q} {u : List UInt8} (hu : u ≠ []) (h : M.after q u = some q') :
    ∃ q₁ b as, M.next q₁ b = some (q', as) ∧ as.any M.stops = false := by
  induction u generalizing q with
  | nil => simp at hu
  | cons b u ih =>
    obtain ⟨q₁, as, hnext, hstop, hrest⟩ := after_cons h
    by_cases hnil : u = []
    · subst hnil
      cases hrest
      exact ⟨q, b, as, hnext, hstop⟩
    · exact ih hnil hrest

/-- What the actions on the transitions of some states keep, a run in these states keeps. -/
theorem exec_invariant_in {act : Nat → A → D → Except ε D} {S : Q → Prop} {P : D → Prop}
    (hact : ∀ {q b q' as}, S q → M.next q b = some (q', as) →
      S q' ∧ ∀ a ∈ as, ∀ {p d d'}, act p a d = .ok d' → P d → P d')
    {q : Q} {p n : Nat} {bs : List UInt8} {d d' : D} {v : Verdict Q} (hq : S q)
    (h : M.exec act q p bs d = .ok (v, n, d')) (hd : P d) : P d' := by
  have hall : ∀ {p : Nat} {as : List A} {d d' : D},
      (∀ a ∈ as, ∀ {p d d'}, act p a d = .ok d' → P d → P d') →
      performAll (act p) as d = .ok d' → P d → P d' := by
    intro p as
    induction as with
    | nil =>
      intro d d' _ h hd
      cases h
      exact hd
    | cons a as ih =>
      intro d d' has h hd
      rw [performAll] at h
      split at h
      · rename_i d₁ hd₁
        exact ih (fun a' ha' => has a' (List.mem_cons_of_mem a ha')) h
          (has a List.mem_cons_self hd₁ hd)
      · simp at h
  induction bs generalizing q p d with
  | nil =>
    cases h
    exact hd
  | cons b bs ih =>
    rw [exec] at h
    split at h
    · cases h
      exact hd
    · rename_i q' as hnext
      obtain ⟨hq', has⟩ := hact hq hnext
      split at h
      · simp at h
      · rename_i d₁ hd₁
        split at h
        · cases h
          exact hall has hd₁ hd
        · exact ih hq' h (hall has hd₁ hd)

/-- What every action keeps, a run keeps. -/
theorem exec_invariant {act : Nat → A → D → Except ε D} {P : D → Prop}
    (hact : ∀ {p a d d'}, act p a d = .ok d' → P d → P d') {q : Q} {p n : Nat} {bs : List UInt8}
    {d d' : D} {v : Verdict Q} (h : M.exec act q p bs d = .ok (v, n, d')) (hd : P d) : P d' :=
  exec_invariant_in (S := fun _ => True) (fun _ _ => ⟨trivial, fun _ _ => hact⟩) trivial h hd

/-- How a run ends and behind which byte does not depend on the actions. -/
theorem exec_outcome {act : Nat → A → D → Except ε D} {q : Q} {bs : List UInt8} {p n : Nat}
    {d d' : D} {v : Verdict Q} (h : M.exec act q p bs d = .ok (v, n, d')) :
    v = M.outcome q bs ∧ n = p + M.consumed q bs := by
  induction bs generalizing q p d with
  | nil =>
    cases h
    exact ⟨rfl, rfl⟩
  | cons b bs ih =>
    rw [exec] at h
    rw [outcome, consumed]
    split at h
    · cases h
      exact ⟨rfl, rfl⟩
    · split at h
      · simp at h
      · split at h
        · rename_i hstop
          cases h
          simp [hstop]
        · rename_i hstop
          obtain ⟨hv, hn⟩ := ih h
          simp only [hstop, Bool.false_eq_true, if_false]
          exact ⟨hv, by omega⟩

/-- A run that went well goes the same with other actions that do the same on the bytes of `text`.
`occurs` tells on which bytes an action may come, `P` is kept by the actions. -/
theorem exec_of_actions {act₁ act₂ : Nat → A → D → Except ε D} {P : Nat → D → Prop}
    {occurs : UInt8 → A → Bool} {text : List UInt8}
    (hoccurs : ∀ {q q' : Q} {b : UInt8} {as : List A}, M.next q b = some (q', as) →
      ∀ a ∈ as, occurs b a = true)
    (hact : ∀ {p : Nat} {b : UInt8} {a : A} {d d' : D}, text[p]? = some b → occurs b a = true →
      P p d → act₁ p a d = .ok d' → act₂ p a d = .ok d' ∧ P p d')
    (hnext : ∀ {p : Nat} {d : D}, P p d → P (p + 1) d) {q : Q} {p n : Nat} {bs : List UInt8}
    {d d' : D} {v : Verdict Q} (hbs : text.drop p = bs) (hd : P p d)
    (h : M.exec act₁ q p bs d = .ok (v, n, d')) : M.exec act₂ q p bs d = .ok (v, n, d') := by
  have hall : ∀ {p : Nat} {b : UInt8} {as : List A} {d d' : D}, text[p]? = some b →
      (∀ a ∈ as, occurs b a = true) → P p d → performAll (act₁ p) as d = .ok d' →
      performAll (act₂ p) as d = .ok d' ∧ P p d' := by
    intro p b as
    induction as with
    | nil =>
      intro d d' _ _ hd h
      cases h
      exact ⟨rfl, hd⟩
    | cons a as ih =>
      intro d d' hb has hd h
      rw [performAll] at h
      split at h
      · rename_i d₁ hd₁
        obtain ⟨ha, hd₁'⟩ := hact hb (has a List.mem_cons_self) hd hd₁
        rw [performAll, ha]
        exact ih hb (fun a' ha' => has a' (List.mem_cons_of_mem a ha')) hd₁' h
      · simp at h
  induction bs generalizing q p d with
  | nil => exact h
  | cons b bs ih =>
    have hb : text[p]? = some b := by
      have hhead := congrArg (·[0]?) hbs
      simpa using hhead
    have hbs' : text.drop (p + 1) = bs := by
      rw [← List.drop_drop, hbs, List.drop_one, List.tail_cons]
    rw [exec] at h ⊢
    split at h
    · exact h
    · rename_i q₁ as hsome
      split at h
      · simp at h
      · rename_i d₁ hd₁
        obtain ⟨has, hd₁'⟩ := hall hb (hoccurs hsome) hd hd₁
        simp only [has]
        split at h
        · rename_i hstop
          rw [if_pos hstop]
          exact h
        · rename_i hstop
          rw [if_neg hstop]
          exact ih hbs' (hnext hd₁') h

/-- An input that stops the run at its last byte is accepted. -/
theorem accepts_of_outcome {q q' : Q} {u : List UInt8} (h : M.outcome q u = .stopped q')
    (hall : M.consumed q u = u.length) : M.accepts q u = true := by
  induction u generalizing q with
  | nil => simp [outcome] at h
  | cons b u ih =>
    rw [outcome] at h
    rw [consumed] at hall
    rw [accepts]
    split at h
    · cases h
    · rename_i q₁ as hnext
      simp only [hnext] at hall
      by_cases hstop : as.any M.stops = true
      · rw [if_pos hstop, List.length_cons] at hall
        rw [if_pos hstop]
        exact List.isEmpty_iff.mpr (List.length_eq_zero_iff.mp (by omega))
      · rw [if_neg hstop] at h
        rw [if_neg hstop, List.length_cons] at hall
        rw [if_neg hstop]
        exact ih h (by omega)

end Machine

/-! ## Marks -/

section Marks

variable [DecidableEq A] (M : Machine Q A)

/-- The state behind bytes on which no action but `a` is performed, and the text since the last `a`
if there was one: `text` is that text when the bytes start. -/
def Machine.pass (a : A) : Q → Option (List UInt8) → List UInt8 → Option (Q × Option (List UInt8))
  | q, text, [] => some (q, text)
  | q, text, b :: bs =>
    match M.next q b with
    | some (q', []) => Machine.pass a q' (text.map (· ++ [b])) bs
    | some (q', [a']) => if a' = a then Machine.pass a q' (some [b]) bs else none
    | _ => none

/-- The data at position `p` behind the start of `text`. -/
def setBehind (set : Nat → D → D) (text : Option (List UInt8)) (p : Nat) (d : D) : D :=
  match text with
  | none => d
  | some t => set (p - t.length) d

variable {M}

theorem Machine.pass_cons {a : A} {q q' : Q} {text text' : Option (List UInt8)} {b : UInt8}
    {bs : List UInt8} (h : M.pass a q text (b :: bs) = some (q', text')) :
    ∃ q₁, (M.next q b = some (q₁, []) ∧
        M.pass a q₁ (text.map (· ++ [b])) bs = some (q', text')) ∨
      (M.next q b = some (q₁, [a]) ∧ M.pass a q₁ (some [b]) bs = some (q', text')) := by
  rw [Machine.pass] at h
  split at h
  · rename_i q₁ hnext
    exact ⟨q₁, .inl ⟨hnext, h⟩⟩
  · rename_i q₁ a' hnext
    split at h
    · rename_i ha
      exact ⟨q₁, .inr ⟨ha ▸ hnext, h⟩⟩
    · cases h
  · cases h

/-- The marked text is the end of what was passed. -/
theorem Machine.pass_suffix {a : A} {q q' : Q} {text : Option (List UInt8)} {t' bs : List UInt8}
    (h : M.pass a q text bs = some (q', some t')) : t' <:+ text.getD [] ++ bs := by
  induction bs generalizing q text with
  | nil =>
    cases h
    simp
  | cons b bs ih =>
    obtain ⟨q₁, ⟨_, hpass⟩ | ⟨_, hpass⟩⟩ := Machine.pass_cons h
    · have hsuffix := ih hpass
      cases text with
      | none =>
        rw [Option.map_none, Option.getD_none, List.nil_append] at hsuffix
        rw [Option.getD_none, List.nil_append]
        exact hsuffix.trans (List.suffix_cons b bs)
      | some t =>
        rw [Option.map_some, Option.getD_some, List.append_assoc] at hsuffix
        exact hsuffix
    · have hsuffix := ih hpass
      rw [Option.getD_some] at hsuffix
      exact hsuffix.trans (List.suffix_append _ _)

/-- A run over bytes that are passed sets the mark and nothing else. -/
theorem Machine.exec_pass {act : Nat → A → D → Except ε D} {a : A} {set : Nat → D → D}
    (hset : ∀ p d, act p a d = .ok (set p d)) (hover : ∀ i j d, set i (set j d) = set i d)
    (hstop : M.stops a = false) {q q' : Q} {text text' : Option (List UInt8)} {bs : List UInt8}
    (h : M.pass a q text bs = some (q', text')) {p : Nat} (hp : (text.getD []).length ≤ p)
    (rest : List UInt8) (d : D) :
    M.exec act q p (bs ++ rest) (setBehind set text p d) =
      M.exec act q' (p + bs.length) rest (setBehind set text' (p + bs.length) d) := by
  induction bs generalizing q text p with
  | nil =>
    cases h
    rfl
  | cons b bs ih =>
    have hlen : p + (b :: bs).length = p + 1 + bs.length := by
      rw [List.length_cons]
      omega
    rw [hlen, List.cons_append, Machine.exec]
    obtain ⟨q₁, ⟨hnext, hpass⟩ | ⟨hnext, hpass⟩⟩ := Machine.pass_cons h
    · have hmoved : setBehind set text p d = setBehind set (text.map (· ++ [b])) (p + 1) d := by
        cases text with
        | none => rfl
        | some t =>
          simp only [setBehind, Option.map_some, List.length_append, List.length_singleton]
          rw [Nat.add_sub_add_right]
      have hfits : ((text.map (· ++ [b])).getD []).length ≤ p + 1 := by
        cases text with
        | none => exact Nat.zero_le _
        | some t =>
          rw [Option.getD_some] at hp
          simp only [Option.map_some, Option.getD_some, List.length_append, List.length_singleton]
          omega
      simp only [hnext, performAll, List.any_nil, Bool.false_eq_true, if_false]
      rw [hmoved]
      exact ih hpass hfits
    · have hmarked : set p (setBehind set text p d) = setBehind set (some [b]) (p + 1) d := by
        cases text with
        | none => rfl
        | some t => exact hover _ _ d
      simp only [hnext, performAll, hset, List.any_cons, List.any_nil, hstop, Bool.or_false,
        Bool.false_eq_true, if_false]
      rw [hmarked]
      exact ih hpass (Nat.le_add_left 1 p)

end Marks

/-! ## Live registers -/

section Live

variable (M : Machine Q A) (uses sets : A → R → Bool)

/-- The register is used by the actions before they set it, or is live behind them. -/
def liveThrough (r : R) (later : Bool) : List A → Bool
  | [] => later
  | a :: as => uses a r || (!sets a r && liveThrough r later as)

/-- The register is used on the way over the bytes before it is set. -/
def live (r : R) : Q → List UInt8 → Bool
  | _, [] => false
  | q, b :: bs =>
    match M.next q b with
    | none => false
    | some (q', as) => liveThrough uses sets r (!as.any M.stops && live r q' bs) as

variable {M uses sets}

theorem liveThrough_mono {r : R} {later later' : Bool} (h : later = true → later' = true)
    {as : List A} (hl : liveThrough uses sets r later as = true) :
    liveThrough uses sets r later' as = true := by
  induction as with
  | nil => exact h hl
  | cons a as ih =>
    simp only [liveThrough, Bool.or_eq_true, Bool.and_eq_true] at hl ⊢
    exact hl.imp_right fun hl => ⟨hl.1, ih hl.2⟩

/-- More bytes make no register less live. -/
theorem live_append {r : R} {q : Q} {u : List UInt8} (v : List UInt8)
    (h : live M uses sets r q u = true) : live M uses sets r q (u ++ v) = true := by
  induction u generalizing q with
  | nil => simp [live] at h
  | cons b u ih =>
    rw [List.cons_append, live]
    rw [live] at h
    split at h
    · simp at h
    · refine liveThrough_mono ?_ h
      intro hl
      simp only [Bool.and_eq_true] at hl ⊢
      exact ⟨hl.1, ih hl.2⟩

end Live

/-! ## Two runs side by side -/

section Agreement

variable [LE F] {M : Machine Q A}

def trackAll (track : UInt8 → F → A → Option F) (b : UInt8) : F → List A → Option F
  | f, [] => some f
  | f, a :: as =>
    match track b f a with
    | some f => trackAll track b f as
    | none => none

/-- What is known in each state. `track` gives what is known behind an action on a byte, `none` if
what is known before does not suffice for the action. -/
structure Discipline (M : Machine Q A) (F : Type*) [LE F] where
  facts : Q → F
  track : UInt8 → F → A → Option F
  sound : ∀ {q q' : Q} {b : UInt8} {as : List A}, M.next q b = some (q', as) →
    ∃ f, trackAll track b (facts q) as = some f ∧ (as.any M.stops = false → facts q' ≤ f)

variable (K : Discipline M F) (uses sets : A → R → Bool) (text : List UInt8) (k : Nat)
  (act₁ act₂ : Nat → A → D → Except ε D) (Holds : F → Nat → D → Prop)
  (Same : D → D → Prop) (Agree : R → D → D → Prop)

/-- On the bytes of `text` the actions of the first run, `k` positions further on, do the same as
those of the second when the registers they use agree. -/
structure Simulates : Prop where
  weaken : ∀ {f f' : F} {p : Nat} {d : D}, f ≤ f' → Holds f' p d → Holds f (p + 1) d
  action : ∀ {p : Nat} {b : UInt8} {f f' : F} {a : A} {d₁ d₂ : D}, text[p]? = some b →
    K.track b f a = some f' → Holds f (k + p) d₁ → Same d₁ d₂ →
    (∀ r, uses a r = true → Agree r d₁ d₂) →
    ∃ d₁' d₂', act₁ (k + p) a d₁ = .ok d₁' ∧ act₂ p a d₂ = .ok d₂' ∧ Holds f' (k + p) d₁' ∧
      Same d₁' d₂' ∧ ∀ r, sets a r = true ∨ Agree r d₁ d₂ → Agree r d₁' d₂'

variable {K uses sets text k act₁ act₂ Holds Same Agree}

theorem Simulates.performAll (S : Simulates K uses sets text k act₁ act₂ Holds Same Agree)
    {p : Nat} {b : UInt8} (hb : text[p]? = some b) (later : R → Bool) {as : List A} {f f' : F}
    {d₁ d₂ : D} (hf : trackAll K.track b f as = some f') (hd : Holds f (k + p) d₁)
    (hs : Same d₁ d₂)
    (hl : ∀ r, liveThrough uses sets r (later r) as = true → Agree r d₁ d₂) :
    ∃ d₁' d₂', performAll (act₁ (k + p)) as d₁ = .ok d₁' ∧
      performAll (act₂ p) as d₂ = .ok d₂' ∧ Holds f' (k + p) d₁' ∧ Same d₁' d₂' ∧
      ∀ r, later r = true → Agree r d₁' d₂' := by
  induction as generalizing f d₁ d₂ with
  | nil =>
    cases hf
    exact ⟨d₁, d₂, rfl, rfl, hd, hs, hl⟩
  | cons a as ih =>
    rw [trackAll] at hf
    split at hf
    · rename_i f₁ htrack
      have huses : ∀ r, uses a r = true → Agree r d₁ d₂ := by
        intro r hr
        exact hl r (by simp [liveThrough, hr])
      obtain ⟨e₁, e₂, h₁, h₂, hd', hs', hagree⟩ := S.action hb htrack hd hs huses
      -- what is live behind the action was set by it or live before it
      have hlater : ∀ r, liveThrough uses sets r (later r) as = true → Agree r e₁ e₂ := by
        intro r hr
        apply hagree r
        cases hset : sets a r with
        | true => exact .inl rfl
        | false => exact .inr (hl r (by simp [liveThrough, hset, hr]))
      obtain ⟨d₁', d₂', hall₁, hall₂, hrest⟩ := ih hf hd' hs' hlater
      refine ⟨d₁', d₂', ?_, ?_, hrest⟩
      · simp only [Scanner.performAll, h₁, hall₁]
      · simp only [Scanner.performAll, h₂, hall₂]
    · simp at hf

/-- Two runs over the same bytes agree when they agree on the registers live at the start. -/
theorem Simulates.exec (S : Simulates K uses sets text k act₁ act₂ Holds Same Agree) {q : Q}
    {p : Nat} {bs : List UInt8} (hbs : text.drop p = bs) {d₁ d₂ : D}
    (hd : Holds (K.facts q) (k + p) d₁) (hs : Same d₁ d₂)
    (hl : ∀ r, live M uses sets r q bs = true → Agree r d₁ d₂) :
    ∃ d₁' d₂', M.exec act₁ q (k + p) bs d₁ =
        .ok (M.outcome q bs, k + p + M.consumed q bs, d₁') ∧
      M.exec act₂ q p bs d₂ = .ok (M.outcome q bs, p + M.consumed q bs, d₂') ∧ Same d₁' d₂' ∧
      ∀ q', M.after q bs = some q' → Holds (K.facts q') (k + p + bs.length) d₁' := by
  induction bs generalizing q p d₁ d₂ with
  | nil =>
    refine ⟨d₁, d₂, rfl, rfl, hs, ?_⟩
    intro q' hq
    cases hq
    exact hd
  | cons b bs ih =>
    have hb : text[p]? = some b := by
      have hhead := congrArg (·[0]?) hbs
      simpa using hhead
    have hbs' : text.drop (p + 1) = bs := by
      rw [← List.drop_drop, hbs, List.drop_one, List.tail_cons]
    cases hnext : M.next q b with
    | none =>
      refine ⟨d₁, d₂, ?_, ?_, hs, ?_⟩
      · simp [Machine.exec, Machine.outcome, Machine.consumed, hnext]
      · simp [Machine.exec, Machine.outcome, Machine.consumed, hnext]
      · simp [Machine.after, hnext]
    | some step =>
      obtain ⟨q', as⟩ := step
      obtain ⟨f, hf, hfacts⟩ := K.sound hnext
      obtain ⟨e₁, e₂, hall₁, hall₂, hd', hs', hagree⟩ := 
        S.performAll hb (fun r => !as.any M.stops && live M uses sets r q' bs) hf hd hs
          (fun r hr => hl r (by simpa only [live, hnext] using hr))
      cases hstop : as.any M.stops with
      | true =>
        refine ⟨e₁, e₂, ?_, ?_, hs', ?_⟩
        · simp [Machine.exec, Machine.outcome, Machine.consumed, hnext, hall₁, hstop]
        · simp [Machine.exec, Machine.outcome, Machine.consumed, hnext, hall₂, hstop]
        · simp [Machine.after, hnext, hstop]
      | false =>
        have hlater : ∀ r, live M uses sets r q' bs = true → Agree r e₁ e₂ := by
          intro r hr
          exact hagree r (by simp [hstop, hr])
        obtain ⟨d₁', d₂', h₁, h₂, hsame, hholds⟩ :=
          ih hbs' (S.weaken (hfacts hstop) hd') hs' hlater
        refine ⟨d₁', d₂', ?_, ?_, hsame, ?_⟩
        · simp only [Machine.exec, Machine.outcome, Machine.consumed, hnext, hall₁, hstop,
            Bool.false_eq_true, if_false]
          rw [Nat.add_assoc k p 1, h₁, ← Nat.add_assoc k p 1, Nat.add_right_comm (k + p) 1]
          rfl
        · simp only [Machine.exec, Machine.outcome, Machine.consumed, hnext, hall₂, hstop,
            Bool.false_eq_true, if_false]
          rw [h₂, Nat.add_right_comm p 1]
          rfl
        · intro q'' hq
          simp only [Machine.after, hnext, hstop, Bool.false_eq_true, if_false] at hq
          have hend := hholds q'' hq
          rw [List.length_cons]
          rwa [show k + (p + 1) + bs.length = k + p + (bs.length + 1) by omega] at hend

end Agreement

end CxkFramework.Scanner
