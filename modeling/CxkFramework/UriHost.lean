import CxkFramework.UriGrammar

/-!
# Hosts that are read

Which hosts of the grammar the machine takes. Of the addresses between brackets it refuses an IPv6
address with `::` that has groups before it but not seven groups altogether, one with an octet from
200 to 249, and the capital letter of a future version.
-/

namespace CxkFramework.Uri

open Scanner Machine Grammar

/-! ## Encoded text -/

section Encoded

variable {C u : List UInt8} {qs : List Nat} {q q₀ : Nat}

/-- There is a way on, and it stays in the states. -/
def staysIn (qs : List Nat) (r : Option (List Nat)) : Bool := r.any fun qs' => qs'.all qs.contains

/-- Characters and what is percent-encoded lead from the states into the states. -/
def closedOn (C : List UInt8) (qs : List Nat) : Bool :=
  staysIn qs (machine.frontier C qs) && staysIn qs (machine.frontiers [[37], hexdig, hexdig] qs)

/-- The first character or percent-encoded byte is marked and leads into the states. -/
def opensInto (C : List UInt8) (qs : List Nat) (q₀ : Nat) : Bool :=
  (C.all fun b => (machine.next q₀ b).any fun step => step.2 == [.mark] && qs.contains step.1) &&
    (machine.next q₀ 37).any fun step =>
      step.2 == [.mark] && staysIn qs (machine.frontiers [hexdig, hexdig] [step.1])

theorem mem_of_staysIn {r : Option (List Nat)} (h : staysIn qs r = true) :
    ∃ qs', r = some qs' ∧ ∀ q ∈ qs', q ∈ qs := by
  obtain ⟨qs', rfl, hall⟩ := (Option.any_eq_true _ _).mp h
  exact ⟨qs', rfl, fun q hq => List.contains_iff_mem.mp (List.all_eq_true.mp hall q hq)⟩

theorem glide_of_encoded (h : closedOn C qs = true) (hq : q ∈ qs) (hu : Encoded C u) :
    ∃ q' ∈ qs, machine.glide q u = some q' := by
  obtain ⟨hchar, hpct⟩ := Bool.and_eq_true_iff.mp h
  obtain ⟨qs₁, hfrontier, hqs₁⟩ := mem_of_staysIn hchar
  obtain ⟨qs₂, hfrontiers, hqs₂⟩ := mem_of_staysIn hpct
  induction hu generalizing q with
  | nil => exact ⟨q, hq, rfl⟩
  | char hb _ ih =>
    obtain ⟨q₁, hq₁, hnext⟩ := next_of_frontier hfrontier hq hb
    obtain ⟨q', hq', hglide⟩ := ih (hqs₁ q₁ hq₁)
    exact ⟨q', hq', (glide_cons_eq _ hnext).trans hglide⟩
  | @pct h l u hh hl _ ih =>
    obtain ⟨q₁, hq₁, hfirst⟩ := glide_of_frontiers (w := [37, h, l]) hfrontiers hq
      (.cons (by simp) (.cons hh (.cons hl .nil)))
    obtain ⟨q', hq', hglide⟩ := ih (hqs₂ q₁ hq₁)
    exact ⟨q', hq', (glide_append u hfirst).trans hglide⟩

theorem opened_of_encoded (h : closedOn C qs = true) (hopens : opensInto C qs q₀ = true)
    (hu : Encoded C u) (hne : u ≠ []) : ∃ q ∈ qs, Opened q₀ q u := by
  obtain ⟨hchar, hpct⟩ := Bool.and_eq_true_iff.mp hopens
  cases hu with
  | nil => exact absurd rfl hne
  | @char b u hb hu =>
    have hb' := List.all_eq_true.mp hchar b hb
    obtain ⟨⟨q₁, as⟩, hnext, hstep⟩ := (Option.any_eq_true _ _).mp hb'
    simp only [Bool.and_eq_true, beq_iff_eq, List.contains_iff_mem] at hstep
    obtain ⟨rfl, hq₁⟩ := hstep
    obtain ⟨q, hq, hglide⟩ := glide_of_encoded h hq₁ hu
    exact ⟨q, hq, b, u, q₁, rfl, hnext, hglide⟩
  | @pct x l u hx hl hu =>
    obtain ⟨⟨q₁, as⟩, hnext, hstep⟩ := (Option.any_eq_true _ _).mp hpct
    simp only [Bool.and_eq_true, beq_iff_eq] at hstep
    obtain ⟨rfl, hstays⟩ := hstep
    obtain ⟨qs₁, hfrontiers, hqs₁⟩ := mem_of_staysIn hstays
    obtain ⟨q₂, hq₂, hfirst⟩ := glide_of_frontiers (w := [x, l]) hfrontiers List.mem_cons_self
      (.cons hx (.cons hl .nil))
    obtain ⟨q, hq, hglide⟩ := glide_of_encoded h (hqs₁ q₂ hq₂) hu
    exact ⟨q, hq, 37, x :: l :: u, q₁, rfl, hnext, (glide_append u hfirst).trans hglide⟩

end Encoded

/-! ## Addresses -/

section Addresses

variable {v : List UInt8} {q r t top : Nat} {b : UInt8} {S : Nat → Nat} {ends : Nat → Bool}

/-- An octet of 200 to 249. -/
def High (o : DecOctet) : Prop := Spells o.word twoHundreds

/-- The other octets lead to a state, with a byte behind them. -/
def octetLeads (q : Nat) (b : UInt8) (t : Nat) : Bool :=
  (decOctet.all fun Cs => machine.frontiers (Cs ++ [[b]]) [q] == some [t]) &&
    machine.spread (twoHundreds ++ [[b]]) [q] == []

/-- All octets lead to an error, with a byte behind them. -/
def octetDies (q : Nat) (b : UInt8) : Bool :=
  (twoHundreds :: decOctet).all fun Cs => machine.spread (Cs ++ [[b]]) [q] == []

theorem spells_concat {u : List UInt8} {Cs : List (List UInt8)} (h : Spells u Cs) (b : UInt8) :
    Spells (u ++ [b]) (Cs ++ [[b]]) :=
  List.rel_append h (.cons (List.mem_singleton.mpr rfl) .nil)

theorem after_of_spread {u : List UInt8} {Cs : List (List UInt8)} (hu : Spells u Cs)
    (h : machine.spread (Cs ++ [[b]]) [q] = []) : machine.after q (u ++ b :: v) = none := by
  have hnone : machine.after q (u ++ [b]) = none := by
    cases hafter : machine.after q (u ++ [b]) with
    | none => rfl
    | some q' =>
      have hmem := mem_spread_of_after hafter (List.mem_singleton.mpr rfl) (spells_concat hu b)
      rw [h] at hmem
      cases hmem
  have hall := after_append_none hnone v
  rwa [List.append_assoc] at hall

theorem glide_octet (h : octetLeads q b t = true) {o : DecOctet} (ho : ¬High o) :
    machine.glide q (o.word ++ b :: v) = machine.glide t v := by
  obtain ⟨Cs, hCs, hspells⟩ := o.spelled
  cases List.mem_cons.mp hCs with
  | inl hhigh =>
    rw [hhigh] at hspells
    exact absurd hspells ho
  | inr hCs =>
    have hfrontier := List.all_eq_true.mp (Bool.and_eq_true_iff.mp h).1 Cs hCs
    rw [beq_iff_eq] at hfrontier
    obtain ⟨q', hq', hglide⟩ := glide_of_frontiers hfrontier List.mem_cons_self
      (spells_concat hspells b)
    rw [List.mem_singleton.mp hq'] at hglide
    have happend := glide_append v hglide
    rwa [List.append_assoc] at happend

theorem after_high_octet (h : octetLeads q b t = true) {o : DecOctet} (ho : High o) :
    machine.after q (o.word ++ b :: v) = none := by
  apply after_of_spread ho
  exact beq_iff_eq.mp (Bool.and_eq_true_iff.mp h).2

theorem after_dead_octet (h : octetDies q b = true) (o : DecOctet) :
    machine.after q (o.word ++ b :: v) = none := by
  obtain ⟨Cs, hCs, hspells⟩ := o.spelled
  exact after_of_spread hspells (beq_iff_eq.mp (List.all_eq_true.mp h Cs hCs))

/-- Between the octets of an address. -/
theorem octets_lead : octetLeads 294 46 298 = true ∧ octetLeads 298 46 302 = true ∧
    octetLeads 302 93 512 = true := by
  decide

/-- The octets of an IPv4 address between brackets, the last one with the bracket behind it. -/
theorem glide_address (h : octetLeads q 46 294 = true) {a : IPv4Address}
    (ha : ∀ o ∈ a.octets, ¬High o) : machine.glide q (a.text ++ [93]) = some 512 := by
  obtain ⟨hsecond, hthird, hfourth⟩ := octets_lead
  have htext : a.text ++ [93] = a.first.word ++ 46 :: (a.second.word ++ 46 :: (a.third.word ++
      46 :: (a.fourth.word ++ [93]))) := by
    simp [IPv4Address.text]
  simp only [IPv4Address.octets, List.forall_mem_cons] at ha
  rw [htext, glide_octet h ha.1, glide_octet hsecond ha.2.1, glide_octet hthird ha.2.2.1,
    glide_octet hfourth ha.2.2.2.1]
  rfl

theorem after_high_address (h : octetLeads q 46 294 = true) {a : IPv4Address}
    (ha : ∃ o ∈ a.octets, High o) (v : List UInt8) :
    machine.after q (a.text ++ 93 :: v) = none := by
  obtain ⟨hsecond, hthird, hfourth⟩ := octets_lead
  have htext : a.text ++ 93 :: v = a.first.word ++ 46 :: (a.second.word ++ 46 :: (a.third.word ++
      46 :: (a.fourth.word ++ 93 :: v))) := by
    simp [IPv4Address.text]
  have hread : ∀ {q t : Nat} {b : UInt8} {o : DecOctet} {u : List UInt8},
      octetLeads q b t = true → machine.after t u = none →
      machine.after q (o.word ++ b :: u) = none := by
    intro q t b o u hleads hnone
    by_cases ho : High o
    · exact after_high_octet hleads ho
    · have hglide := glide_octet (v := []) hleads ho
      have happend := after_append (v := u) (after_of_glide hglide)
      rw [List.append_assoc] at happend
      exact happend.trans hnone
  simp only [IPv4Address.octets, List.exists_mem_cons_iff] at ha
  rw [htext]
  rcases ha with ho | ho | ho | ho | ho
  · exact after_high_octet h ho
  · exact hread h (after_high_octet hsecond ho)
  · exact hread h (hread hsecond (after_high_octet hthird ho))
  · exact hread h (hread hsecond (hread hthird (after_high_octet hfourth ho)))
  · simp at ho

end Addresses

/-! ## Groups -/

/-- Where a colon and a bracket lead behind every group. -/
def groupLeads (q : Nat) (colon bracket : Option (Nat × List Action)) : Bool :=
  (machine.behind hexdig 4 [q]).any fun qs =>
    qs.all fun q' => decide (machine.next q' 58 = colon ∧ machine.next q' 93 = bracket)

/-- The states count down the pieces that are left, and `ends` says from which of them on a group
may be the last piece. -/
def Counter (S : Nat → Nat) (top : Nat) (ends : Nat → Bool) : Prop :=
  ∀ r < top + 1, 1 ≤ r →
    groupLeads (S r) (if r = 1 then none else some (S (r - 1), []))
        (if ends r then some (512, []) else none) = true ∧
      (2 ≤ r → if ends (r - 1) then octetLeads (S r) 46 294 = true else octetDies (S r) 46 = true)

instance (S : Nat → Nat) (top : Nat) (ends : Nat → Bool) : Decidable (Counter S top ends) :=
  inferInstanceAs (Decidable (∀ r < top + 1, _))

/-- Without `::` so far. -/
def whole : Nat → Nat
  | 8 => 260
  | 7 => 265
  | 6 => 270
  | 5 => 275
  | 4 => 280
  | 3 => 285
  | 2 => 290
  | _ => 322

/-- Behind `::` with groups before it. -/
def exactly : Nat → Nat
  | 6 => 363
  | 5 => 358
  | 4 => 353
  | 3 => 348
  | 2 => 335
  | 1 => 333
  | _ => 305

/-- Behind `::` with no groups before it. -/
def upTo : Nat → Nat
  | 7 => 369
  | 6 => 374
  | 5 => 379
  | 4 => 384
  | 3 => 389
  | 2 => 394
  | _ => 333

theorem counters : Counter whole 8 (· == 1) ∧ Counter exactly 6 (· == 1) ∧
    Counter upTo 7 fun _ => true := by
  decide +kernel

/-- Around `::`. -/
theorem next_elision :
    machine.next 260 58 = some (368, []) ∧ machine.next 368 58 = some (369, []) ∧
      machine.next 369 93 = some (512, []) ∧ machine.next 305 93 = some (512, []) ∧
      (∀ r < 8, 1 ≤ r → machine.next (whole r) 58 = some (exactly (r - 1), [])) ∧
      ∀ r < 7, 1 ≤ r → machine.next (exactly r) 93 = none := by
  decide

section Groups

variable {S : Nat → Nat} {ends : Nat → Bool} {r top : Nat}

theorem glide_group (h : Counter S top ends) (hr : 1 ≤ r) (htop : r ≤ top) (g : H16) :
    ∃ q, machine.glide (S r) g.word = some q ∧
      machine.next q 58 = (if r = 1 then none else some (S (r - 1), [])) ∧
      machine.next q 93 = if ends r then some (512, []) else none := by
  obtain ⟨qs, hbehind, hall⟩ := (Option.any_eq_true _ _).mp (h r (Nat.lt_succ_of_le htop) hr).1
  obtain ⟨q, hq, hglide⟩ := glide_of_behind hbehind (List.mem_singleton.mpr rfl) g.nonempty g.short
    g.hex
  exact ⟨q, hglide, of_decide_eq_true (List.all_eq_true.mp hall q hq)⟩

theorem glide_groups (h : Counter S top ends) (gs : List H16) (hlength : gs.length < r)
    (htop : r ≤ top) : machine.glide (S r) (Pieces.closed gs) = some (S (r - gs.length)) := by
  induction gs generalizing r with
  | nil => rfl
  | cons g gs ih =>
    rw [List.length_cons] at hlength
    obtain ⟨q, hglide, hcolon, -⟩ := glide_group h (by omega) htop g
    rw [if_neg (by omega)] at hcolon
    rw [Pieces.closed, List.flatMap_cons, List.append_assoc, glide_append _ hglide,
      List.singleton_append, glide_cons_eq _ hcolon]
    have hrest := ih (r := r - 1) (by omega) (by omega)
    rw [List.length_cons, Nat.add_comm, Nat.sub_add_eq]
    exact hrest

/-- Up to the closing bracket the text is taken if the condition holds, and is an error if not. -/
structure Settles (q : Nat) (u : List UInt8) (P : Prop) : Prop where
  taken : P → machine.glide q (u ++ [93]) = some 512
  refused : ¬P → ∀ v, machine.after q (u ++ 93 :: v) = none

section Settles

variable {q q' : Nat} {u v : List UInt8} {P P' : Prop}

theorem Settles.prepend (h : Settles q' u P) (hglide : machine.glide q v = some q') :
    Settles q (v ++ u) P where
  taken hP := by
    rw [List.append_assoc, glide_append _ hglide]
    exact h.taken hP
  refused hP w := by
    rw [List.append_assoc, after_append (after_of_glide hglide)]
    exact h.refused hP w

theorem Settles.congr (h : Settles q u P) (hiff : P' ↔ P) : Settles q u P' where
  taken hP := h.taken (hiff.mp hP)
  refused hP := h.refused fun hP' => hP (hiff.mpr hP')

/-- Where the text ends, the bracket decides. -/
theorem settles_nil (htaken : P → machine.next q 93 = some (512, []))
    (hrefused : ¬P → machine.next q 93 = none) : Settles q [] P where
  taken hP := glide_cons_eq [] (htaken hP)
  refused hP v := by
    rw [List.nil_append, after, hrefused hP]

theorem settles_address (h : octetLeads q 46 294 = true) (a : IPv4Address) :
    Settles q a.text (∀ o ∈ a.octets, ¬High o) where
  taken ha := glide_address h ha
  refused ha v := by
    apply after_high_address h
    push Not at ha
    exact ha

theorem settles_dead_address (h : octetDies q 46 = true) (a : IPv4Address) :
    Settles q a.text False where
  taken hfalse := hfalse.elim
  refused _ v := by
    rw [IPv4Address.text, List.append_assoc]
    exact after_dead_octet h a.first

end Settles

/-- No octet is from 200 to 249. -/
def Low (a : Pieces) : Prop := ∀ x ∈ a.address, ∀ o ∈ x.octets, ¬High o

theorem settles_pieces (h : Counter S top ends) (a : Pieces) (hne : 1 ≤ a.width)
    (hwidth : a.width ≤ r) (htop : r ≤ top) :
    Settles (S r) a.text (ends (r + 1 - a.width) = true ∧ Low a) := by
  obtain ⟨gs, address⟩ := a
  cases address with
  | none =>
    cases List.eq_nil_or_concat gs with
    | inl hnil =>
      subst hnil
      simp [Pieces.width] at hne
    | inr hconcat =>
      obtain ⟨gs, g, rfl⟩ := hconcat
      rw [List.concat_eq_append] at *
      simp only [Pieces.width, List.length_append, List.length_singleton, Option.isSome_none,
        Bool.false_eq_true, if_false, Nat.add_zero] at hwidth ⊢
      obtain ⟨q, hglide, -, hbracket⟩ := glide_group h (r := r - gs.length) (by omega) (by omega) g
      have hlast : Settles q [] (ends (r - gs.length) = true) :=
        settles_nil (fun hends => by rw [hbracket, if_pos hends])
          fun hends => by rw [hbracket, if_neg hends]
      have hall := (hlast.prepend hglide).prepend (glide_groups h gs (by omega) htop)
      rw [List.append_nil, ← Pieces.text_of_groups] at hall
      apply hall.congr
      rw [show r + 1 - (gs.length + 1) = r - gs.length by omega]
      simp [Low]
  | some x =>
    simp only [Pieces.width, Option.isSome_some, if_true] at hwidth ⊢
    have hread := (h (r - gs.length) (by omega) (by omega)).2 (by omega)
    have hends : r + 1 - (gs.length + 2) = r - gs.length - 1 := by omega
    rw [Pieces.text_of_address, hends]
    apply Settles.prepend _ (glide_groups h gs (by omega) htop)
    split at hread
    · rename_i hlast
      apply (settles_address hread x).congr
      simp [hlast, Low]
    · rename_i hlast
      apply (settles_dead_address hread x).congr
      simp [hlast]

theorem intercalate_colon (gs : List H16) (hne : gs ≠ []) (u : List UInt8) :
    [58].intercalate (gs.map H16.word) ++ 58 :: u = Pieces.closed gs ++ u := by
  cases List.eq_nil_or_concat gs with
  | inl hnil => exact absurd hnil hne
  | inr hconcat =>
    obtain ⟨gs, g, rfl⟩ := hconcat
    rw [List.concat_eq_append, List.map_append, List.map_singleton, Pieces.intercalate_concat]
    simp [Pieces.closed]

/-- Behind `::`. -/
theorem glide_elision (gs : List H16) (hlength : gs.length ≤ 7) :
    machine.glide 260 ([58].intercalate (gs.map H16.word) ++ [58, 58]) =
      some (if gs = [] then upTo 7 else exactly (7 - gs.length)) := by
  obtain ⟨hfirst, hsecond, -, -, hwhole, -⟩ := next_elision
  by_cases hne : gs = []
  · subst hne
    rw [if_pos rfl]
    exact (glide_cons_eq [58] hfirst).trans (glide_cons_eq [] hsecond)
  · have hpos := List.length_pos_of_ne_nil hne
    have hnext := hwhole (8 - gs.length) (by omega) (by omega)
    have hgroups : machine.glide 260 (Pieces.closed gs) = some (whole (8 - gs.length)) :=
      glide_groups counters.1 gs (r := 8) (by omega) (by omega)
    rw [if_neg hne, intercalate_colon gs hne, glide_append _ hgroups, glide_cons_eq [] hnext,
      show 8 - gs.length - 1 = 7 - gs.length by omega]
    rfl

end Groups

theorem text_of_width_zero {a : Pieces} (h : a.width = 0) : a.text = [] ∧ Low a := by
  obtain ⟨gs, address⟩ := a
  cases address with
  | none =>
    cases gs with
    | nil => exact ⟨rfl, by simp [Low]⟩
    | cons g gs => simp [Pieces.width] at h
  | some x => simp [Pieces.width] at h

/-- What the machine takes of an IPv6 address. -/
structure IPv6Plain (a : IPv6Address) : Prop where
  count : ∀ gs ∈ a.before, gs ≠ [] → gs.length + a.pieces.width = 7
  low : Low a.pieces

theorem settles_ipv6 (a : IPv6Address) : Settles 260 a.text (IPv6Plain a) := by
  obtain ⟨hwhole, hexactly, hupTo⟩ := counters
  obtain ⟨-, -, hclose, hclose', -, hopen⟩ := next_elision
  obtain ⟨before, pieces, hfull, helided⟩ := a
  cases before with
  | none =>
    have hwidth := hfull rfl
    have hread := settles_pieces hwhole pieces (r := 8) (by omega) (by omega) (by omega)
    apply hread.congr
    rw [hwidth]
    constructor
    · intro h
      exact ⟨rfl, h.low⟩
    · intro h
      exact ⟨by simp, h.2⟩
  | some gs =>
    have hlength := helided gs rfl
    have hsplit : IPv6Address.text ⟨some gs, pieces, hfull, helided⟩ =
        ([58].intercalate (gs.map H16.word) ++ [58, 58]) ++ pieces.text := by
      simp [IPv6Address.text]
    rw [hsplit]
    apply Settles.prepend _ (glide_elision gs (by omega))
    have hplain : IPv6Plain ⟨some gs, pieces, hfull, helided⟩ ↔
        (gs ≠ [] → gs.length + pieces.width = 7) ∧ Low pieces := by
      constructor
      · intro h
        exact ⟨h.count gs rfl, h.low⟩
      · intro h
        refine ⟨?_, h.2⟩
        rintro _ ⟨⟩
        exact h.1
    apply Settles.congr _ hplain
    by_cases hne : gs = []
    · rw [if_pos hne]
      by_cases hpieces : pieces.width = 0
      · obtain ⟨htext, hlow⟩ := text_of_width_zero hpieces
        rw [htext]
        apply settles_nil (fun _ => hclose)
        simp [hne, hlow]
      · apply (settles_pieces hupTo pieces (by omega) (by omega) (by omega)).congr
        simp [hne]
    · have hpos := List.length_pos_of_ne_nil hne
      rw [if_neg hne]
      by_cases hpieces : pieces.width = 0
      · obtain ⟨htext, hlow⟩ := text_of_width_zero hpieces
        have hseven : ((gs ≠ [] → gs.length + pieces.width = 7) ∧ Low pieces) ↔ gs.length = 7 := by
          simp [hne, hpieces, hlow]
        apply Settles.congr _ hseven
        rw [htext]
        apply settles_nil
        · intro h
          rw [h]
          exact hclose'
        · intro h
          exact hopen (7 - gs.length) (by omega) (by omega)
      · apply (settles_pieces hexactly pieces (by omega) (by omega) (by omega)).congr
        have hlast : 7 - gs.length + 1 - pieces.width = 1 ↔ gs.length + pieces.width = 7 := by
          omega
        simp [hne, hlast]

/-! ## Future versions -/

/-- In a future version of an address. -/
theorem next_future :
    machine.next 260 118 = some (447, []) ∧ machine.next 260 86 = none ∧
      machine.frontier hexdig [447] = some [448] ∧ machine.frontier hexdig [448] = some [448] ∧
      machine.next 448 46 = some (449, []) ∧
      machine.frontier userinfoChars [449] = some [450] ∧
      machine.frontier userinfoChars [450] = some [450] ∧ machine.next 450 93 = some (512, []) := by
  set_option maxRecDepth 1000 in decide

/-- A class that leads to one state and stays there. -/
theorem glide_loop {C u : List UInt8} {q q' : Nat} (hfirst : machine.frontier C [q] = some [q'])
    (hrest : machine.frontier C [q'] = some [q']) (hne : u ≠ []) (hu : ∀ b ∈ u, b ∈ C) :
    machine.glide q u = some q' := by
  obtain ⟨b, u, rfl⟩ := List.exists_cons_of_ne_nil hne
  obtain ⟨q₁, hq₁, hnext⟩ := next_of_frontier hfirst List.mem_cons_self (hu b List.mem_cons_self)
  have hclosed : ∀ q b, q = q' → b ∈ C → ∃ q'', machine.next q b = some (q'', []) ∧ q'' = q' := by
    rintro q b rfl hb
    obtain ⟨q₂, hq₂, hnext⟩ := next_of_frontier hrest List.mem_cons_self hb
    exact ⟨q₂, hnext, List.mem_singleton.mp hq₂⟩
  obtain ⟨q₂, hglide, hq₂⟩ := glide_of_closed hclosed (List.mem_singleton.mp hq₁)
    fun b' hb' => hu b' (List.mem_cons_of_mem b hb')
  rw [glide_cons_eq u hnext, hglide, hq₂]

theorem settles_ipvFuture (a : IPvFuture) : Settles 260 a.text (a.letter = 118) := by
  obtain ⟨hsmall, hcapital, hversion, hversion', hdot, haddress, haddress', hclose⟩ := next_future
  constructor
  · intro hletter
    rw [IPvFuture.text, hletter, List.cons_append, glide_cons_eq _ hsmall, List.append_assoc,
      glide_append _ (glide_loop hversion hversion' a.isVersion.1 a.isVersion.2), List.cons_append,
      glide_cons_eq _ hdot,
      glide_append _ (glide_loop haddress haddress' a.isAddress.1 a.isAddress.2)]
    exact glide_cons_eq [] hclose
  · intro hletter v
    have hv : a.letter = 118 ∨ a.letter = 86 := by
      have hmem := a.isLetter
      simpa [chars] using hmem
    rw [IPvFuture.text, List.cons_append, after, hv.resolve_left hletter, hcapital]

/-! ## Names -/

/-- The states in a name, at the start of the authority and behind a userinfo. -/
def nameStates (q₀ : Nat) : List Nat :=
  if q₀ = 511 then 520 :: (List.range 18).map (543 + ·) else (List.range 19).map (523 + ·)

theorem names_lead : ∀ q₀ ∈ [511, 522], closedOn regNameChars (nameStates q₀) = true ∧
    opensInto regNameChars (nameStates q₀) q₀ = true ∧
    (∀ q ∈ nameStates q₀, hostEnd q = true) ∧ machine.next q₀ 91 = some (260, [.mark]) := by
  decide +kernel

theorem encoded_of_forall {C u : List UInt8} (h : ∀ b ∈ u, b ∈ C) : Encoded C u := by
  induction u with
  | nil => exact .nil
  | cons b u ih =>
    apply Encoded.char (h b List.mem_cons_self)
    exact ih fun b' hb' => h b' (List.mem_cons_of_mem b hb')

theorem mem_of_spells {u : List UInt8} {Cs : List (List UInt8)} (h : Spells u Cs) {b : UInt8}
    (hb : b ∈ u) : ∃ C ∈ Cs, b ∈ C := by
  induction h with
  | nil => cases hb
  | @cons c C u Cs hc _ ih =>
    cases List.mem_cons.mp hb with
    | inl heq =>
      subst heq
      exact ⟨C, List.mem_cons_self, hc⟩
    | inr hmem =>
      obtain ⟨C', hC', hb'⟩ := ih hmem
      exact ⟨C', List.mem_cons_of_mem C hC', hb'⟩

theorem mem_of_octet {o : DecOctet} {b : UInt8} (hb : b ∈ o.word) : b ∈ regNameChars := by
  have hclasses : ∀ Cs ∈ twoHundreds :: decOctet, ∀ C ∈ Cs,
      C.all regNameChars.contains = true := by
    decide
  obtain ⟨Cs, hCs, hspells⟩ := o.spelled
  obtain ⟨C, hC, hmem⟩ := mem_of_spells hspells hb
  exact List.contains_iff_mem.mp (List.all_eq_true.mp (hclasses Cs hCs C hC) b hmem)

/-- An IPv4 address is read as a name. -/
theorem encoded_address (a : IPv4Address) : Encoded regNameChars a.text := by
  have hdot : (46 : UInt8) ∈ regNameChars := by decide
  apply encoded_of_forall
  intro b hb
  simp only [IPv4Address.text, List.mem_append, List.mem_cons] at hb
  rcases hb with hb | rfl | hb | rfl | hb | rfl | hb
  · exact mem_of_octet hb
  · exact hdot
  · exact mem_of_octet hb
  · exact hdot
  · exact mem_of_octet hb
  · exact hdot
  · exact mem_of_octet hb

/-! ## Hosts -/

/-- The hosts that the machine takes. -/
def HostPlain : Host → Prop
  | .ipv6 a => IPv6Plain a
  | .ipvFuture a => a.letter = 118
  | .ipv4 _ => True
  | .regName _ _ => True

section Hosts

variable {q₀ : Nat} {u : List UInt8} {P : Prop}

theorem isHost_of_encoded (hq₀ : q₀ = 511 ∨ q₀ = 522) (hu : Encoded regNameChars u) :
    ∃ q, IsHost q₀ q u := by
  obtain ⟨hclosed, hopens, hends, -⟩ := names_lead q₀ (by simpa using hq₀)
  by_cases hne : u = []
  · exact ⟨q₀, .inl ⟨hne, rfl⟩⟩
  · obtain ⟨q, hq, hopened⟩ := opened_of_encoded hclosed hopens hu hne
    exact ⟨q, .inr ⟨hopened, hends q hq⟩⟩

theorem isHost_of_settles (hq₀ : q₀ = 511 ∨ q₀ = 522) (h : Settles 260 u P) (hP : P) :
    ∃ q, IsHost q₀ q (91 :: (u ++ [93])) := by
  obtain ⟨-, -, -, hopen⟩ := names_lead q₀ (by simpa using hq₀)
  exact ⟨512, .inr ⟨⟨91, u ++ [93], 260, rfl, hopen, h.taken hP⟩, rfl⟩⟩

theorem after_of_settles (hq₀ : q₀ = 511 ∨ q₀ = 522) (h : Settles 260 u P) (hP : ¬P)
    (v : List UInt8) : machine.after q₀ (91 :: (u ++ [93]) ++ v) = none := by
  obtain ⟨-, -, -, hopen⟩ := names_lead q₀ (by simpa using hq₀)
  have hstops : [Action.mark].any machine.stops = false := rfl
  rw [List.cons_append, List.append_assoc, after, hopen]
  simp only [hstops, Bool.false_eq_true, if_false]
  exact h.refused hP v

theorem isHost_of_plain (hq₀ : q₀ = 511 ∨ q₀ = 522) {host : Host} (h : HostPlain host) :
    ∃ q, IsHost q₀ q host.text := by
  cases host with
  | ipv6 a => exact isHost_of_settles hq₀ (settles_ipv6 a) h
  | ipvFuture a => exact isHost_of_settles hq₀ (settles_ipvFuture a) h
  | ipv4 a => exact isHost_of_encoded hq₀ (encoded_address a)
  | regName name hname => exact isHost_of_encoded hq₀ hname

theorem after_of_not_plain (hq₀ : q₀ = 511 ∨ q₀ = 522) {host : Host} (h : ¬HostPlain host)
    (v : List UInt8) : machine.after q₀ (host.text ++ v) = none := by
  cases host with
  | ipv6 a => exact after_of_settles hq₀ (settles_ipv6 a) h v
  | ipvFuture a => exact after_of_settles hq₀ (settles_ipvFuture a) h v
  | ipv4 a => exact absurd trivial h
  | regName name hname => exact absurd trivial h

end Hosts

end CxkFramework.Uri
