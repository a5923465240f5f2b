import CxkFramework.Runs
import CxkFramework.Uri

/-!
# The parts of a URI

What the machine takes for a scheme, a host, a port, a path, a query and a fragment, and what
`create` returns for a text that is put together of these.
-/

namespace CxkFramework.Uri

open Scanner Machine Runs

/-! ## Reading on -/

section Scan

variable {text bs u v : List UInt8} {cs cs' p : Nat} {b : UInt8} {as : List Action} {d d' : Parse}

theorem scan_cons (hnext : machine.next cs b = some (cs', as))
    (hact : performAll (act text p) as d = .ok d') :
    scan text cs p (b :: bs) d = scan text cs' (p + 1) bs d' := by
  have hstops : as.any machine.stops = false := by simp [machine, ofBlocks]
  simp only [scan, exec, hnext, hact, hstops, Bool.false_eq_true, if_false]

theorem scan_fault {e : Fault} (hnext : machine.next cs b = some (cs', as))
    (hact : performAll (act text p) as d = .error e) : scan text cs p (b :: bs) d = .error e := by
  simp only [scan, exec, hnext, hact]

theorem scan_glide (h : machine.glide cs u = some cs') :
    scan text cs p (u ++ v) d = scan text cs' (p + u.length) v d := by
  rw [scan, exec_glide h]
  rfl

/-- The text is read to its end when a URI is returned. -/
theorem after_of_scan {uri : Uri} (h : scan text cs p bs d = .ok (some uri)) :
    ∃ cs', machine.after cs bs = some cs' ∧ firstFinal ≤ cs' := by
  rw [scan] at h
  split at h
  · cases h
  · rename_i r hexec
    obtain ⟨verdict, n, d'⟩ := r
    obtain ⟨hverdict, -⟩ := exec_outcome hexec
    cases verdict with
    | running q =>
      rw [finish] at h
      split at h
      · cases h
      · split at h
        · rename_i hfinal
          refine ⟨q, ?_, hfinal⟩
          have hafter : ∀ (bs : List UInt8) (cs : Nat), machine.outcome cs bs = .running q →
              machine.after cs bs = some q := by
            intro bs
            induction bs with
            | nil =>
              intro cs hrun
              cases hrun
              rfl
            | cons b bs ih =>
              intro cs hrun
              rw [outcome] at hrun
              rw [after]
              split at hrun
              · cases hrun
              · split at hrun
                · cases hrun
                · rename_i hstop
                  rw [if_neg hstop]
                  exact ih _ hrun
          exact hafter bs cs hverdict.symm
        · cases h
    | stopped q => cases h
    | failed => cases h

theorem cut_eq {m : Nat} (h : text.drop m = u ++ v) :
    cut text (some m) (m + u.length) = .ok u := by
  simp [cut, h]

theorem cut_self : cut text (some p) p = .ok [] := by simp [cut]

end Scan

/-! ## What the machine takes for a part -/

/-- The first byte is marked, and the machine comes from `q₀` to `q` over the text. -/
def Opened (q₀ q : Nat) (u : List UInt8) : Prop :=
  ∃ b v q₁, u = b :: v ∧ machine.next q₀ b = some (q₁, [.mark]) ∧ machine.glide q₁ v = some q

/-- The states behind a host that is not empty. -/
def hostEnd (cs : Nat) : Bool :=
  cs == 512 || 516 ≤ cs && cs ≤ 520 || 523 ≤ cs && cs ≤ 541 || 543 ≤ cs && cs ≤ 560

def IsScheme (u : List UInt8) : Prop := Opened 451 508 u

/-- A host behind `q₀`, with `q` behind it. -/
def IsHost (q₀ q : Nat) (u : List UInt8) : Prop :=
  u = [] ∧ q = q₀ ∨ Opened q₀ q u ∧ hostEnd q = true

def IsPath (u : List UInt8) : Prop := u = [] ∨ ∃ v, u = 47 :: v ∧ machine.glide 513 v = some 513

def IsQuery (u : List UInt8) : Prop := u = [] ∨ Opened 456 457 u

def IsFragment (u : List UInt8) : Prop := u = [] ∨ Opened 453 454 u

/-- A part with the character before it, if there is one. -/
def delimited (c : UInt8) : Option (List UInt8) → List UInt8
  | none => []
  | some u => c :: u

/-- The states that an authority may end in. -/
def authorityEnd (cs : Nat) : Bool := 511 ≤ cs && cs < 561 && cs != 513

/-- What is done where the text ends is done where the path, the query or the fragment starts. -/
theorem next_authorityEnd {q : Nat} (h : authorityEnd q = true) :
    machine.next q 47 = some (513, (eofActions q).dropLast) ∧
      machine.next q 63 = some (456, eofActions q) ∧
      machine.next q 35 = some (453, eofActions q) := by
  have hall : ∀ q < 561, authorityEnd q = true →
      machine.next q 47 = some (513, (eofActions q).dropLast) ∧
        machine.next q 63 = some (456, eofActions q) ∧
        machine.next q 35 = some (453, eofActions q) := by
    set_option maxRecDepth 2000 in decide
  refine hall q ?_ h
  simp only [authorityEnd, Bool.and_eq_true, decide_eq_true_eq] at h
  exact h.1.2

/-- The transitions between the other parts, and before the port. -/
theorem next_between :
    machine.next 508 58 = some (509, [.saveScheme]) ∧ machine.next 509 47 = some (510, []) ∧
      machine.next 510 47 = some (511, []) ∧ machine.next 513 63 = some (456, [.savePath]) ∧
      machine.next 513 35 = some (453, [.savePath]) ∧
      machine.next 456 35 = some (453, [.mark, .saveQuery]) ∧
      machine.next 457 35 = some (453, [.saveQuery]) ∧
      machine.next 511 58 = some (521, [.mark, .saveHost]) ∧
      machine.next 522 58 = some (514, [.mark, .saveHost]) ∧
      ∀ q < 561, hostEnd q = true → authorityEnd q = true ∧
        (machine.next q 58 = some (521, [.saveHost]) ∨
          machine.next q 58 = some (514, [.saveHost])) := by
  set_option maxRecDepth 2000 in decide

theorem range_of_hostEnd {q : Nat} (h : hostEnd q = true) :
    512 ≤ q ∧ q < 561 ∧ q ≠ 513 ∧ q ≠ 514 ∧ q ≠ 515 ∧ q ≠ 521 ∧ q ≠ 522 ∧ q ≠ 542 := by
  simp only [hostEnd, Bool.or_eq_true, Bool.and_eq_true, beq_iff_eq, decide_eq_true_eq] at h
  omega

theorem eofActions_of_hostEnd {q : Nat} (h : hostEnd q = true) :
    eofActions q = [.saveHost, .mark, .savePath] := by
  have hrange := range_of_hostEnd h
  have hlast : q = 512 ∨ 516 ≤ q ∧ q ≤ 520 ∨ 523 ≤ q ∧ q ≤ 541 ∨ 543 ≤ q ∧ q ≤ 560 := by omega
  rw [eofActions, if_pos hlast]
  repeat rw [if_neg (by omega)]

/-! ## Reading a part -/

section Parts

variable {text u v w digits path : List UInt8} {query fragment : Option (List UInt8)}
  {q q₀ p m : Nat} {d : Parse} {uri : Uri}

theorem scan_opened (h : Opened q₀ q u) :
    scan text q₀ p (u ++ v) d = scan text q (p + u.length) v { d with mark := some p } := by
  obtain ⟨b, w, q₁, rfl, hnext, hglide⟩ := h
  rw [List.cons_append, scan_cons hnext rfl, scan_glide hglide, List.length_cons, Nat.add_assoc,
    Nat.add_comm 1]

/-- The end of a part before the fragment: the part is saved where the text ends and where the
fragment starts. -/
structure Ends (text : List UInt8) (q p : Nat) (d : Parse) (uri : Uri) : Prop where
  final : firstFinal ≤ q
  eof : performAll (act text p) (eofActions q) d = .ok ⟨none, uri⟩
  hash : machine.next q 35 = some (453, eofActions q)

/-- The end of a part before the query. -/
structure EndsPath (text : List UInt8) (q p : Nat) (d : Parse) (uri : Uri) : Prop extends
    Ends text q p d uri where
  mark : machine.next q 63 = some (456, eofActions q)

/-- The end of a part before the path, which may be empty. -/
structure EndsAuthority (text : List UInt8) (q p : Nat) (d : Parse) (uri : Uri) : Prop where
  state : authorityEnd q = true
  eof : performAll (act text p) (eofActions q) d = .ok ⟨none, { uri with path := [] }⟩
  slash : performAll (act text p) (eofActions q).dropLast d = .ok ⟨some p, uri⟩

theorem Ends.scan_nil (h : Ends text q p d uri) : scan text q p [] d = .ok (some uri) := by
  simp only [scan, exec, finish, h.eof, if_pos h.final]

theorem scan_fragment (hf : IsFragment u) (htext : text.drop p = u) :
    scan text 453 p u d = .ok (some { d.uri with fragment := u }) := by
  cases hf with
  | inl hnil =>
    subst hnil
    simp [scan, exec, finish, eofActions, performAll, act, cut, firstFinal]
  | inr hopened =>
    have hrun : scan text 453 p (u ++ []) d =
        scan text 454 (p + u.length) [] { d with mark := some p } := scan_opened hopened
    have hcut : cut text (some p) (p + u.length) = .ok u := cut_eq (v := []) (by simpa using htext)
    rw [List.append_nil] at hrun
    rw [hrun]
    simp [scan, exec, finish, eofActions, performAll, act, hcut, firstFinal]

theorem Ends.scan_fragment (h : Ends text q p d uri) (hf : ∀ u ∈ fragment, IsFragment u)
    (htext : text.drop p = delimited 35 fragment) :
    scan text q p (delimited 35 fragment) d =
      .ok (some { uri with fragment := fragment.getD uri.fragment }) := by
  cases fragment with
  | none => exact h.scan_nil
  | some u =>
    rw [delimited, scan_cons h.hash h.eof]
    refine Uri.scan_fragment (hf u rfl) ?_
    rw [← List.drop_drop, htext]
    rfl

theorem ends_query (hq : IsQuery u) (htext : text.drop p = u ++ v) :
    ∃ q d', scan text 456 p (u ++ v) d = scan text q (p + u.length) v d' ∧
      Ends text q (p + u.length) d' { d.uri with query := u } := by
  cases hq with
  | inl hnil =>
    subst hnil
    exact ⟨456, d, rfl, by decide, by simp [eofActions, performAll, act, cut],
      next_between.2.2.2.2.2.1⟩
  | inr hopened =>
    have hcut : cut text (some p) (p + u.length) = .ok u := cut_eq htext
    exact ⟨457, _, scan_opened hopened, by decide, by simp [eofActions, performAll, act, hcut],
      next_between.2.2.2.2.2.2.1⟩

theorem EndsPath.scan (h : EndsPath text q p d uri) (hq : ∀ u ∈ query, IsQuery u)
    (hf : ∀ u ∈ fragment, IsFragment u)
    (htext : text.drop p = delimited 63 query ++ delimited 35 fragment) :
    scan text q p (delimited 63 query ++ delimited 35 fragment) d =
      .ok (some { uri with
        query := query.getD uri.query, fragment := fragment.getD uri.fragment }) := by
  cases query with
  | none => exact h.toEnds.scan_fragment hf htext
  | some u =>
    have hdrop : text.drop (p + 1) = u ++ delimited 35 fragment := by
      rw [← List.drop_drop, htext]
      rfl
    obtain ⟨q', d', hscan, hends⟩ := ends_query (d := ⟨none, uri⟩) (hq u rfl) hdrop
    rw [delimited, List.cons_append, scan_cons h.mark h.eof, hscan]
    refine hends.scan_fragment hf ?_
    rw [← List.drop_drop, hdrop, List.drop_left]

theorem endsPath_path (h : text.drop m = u ++ v) :
    EndsPath text 513 (m + u.length) ⟨some m, uri⟩ { uri with path := u } := by
  have hcut : cut text (some m) (m + u.length) = .ok u := cut_eq h
  exact ⟨⟨by decide, by simp [eofActions, performAll, act, hcut], next_between.2.2.2.2.1⟩,
    next_between.2.2.2.1⟩

theorem EndsAuthority.scan (h : EndsAuthority text q p d uri) (hp : IsPath path)
    (hq : ∀ u ∈ query, IsQuery u) (hf : ∀ u ∈ fragment, IsFragment u)
    (htext : text.drop p = path ++ (delimited 63 query ++ delimited 35 fragment)) :
    scan text q p (path ++ (delimited 63 query ++ delimited 35 fragment)) d =
      .ok (some { uri with path := path, query := query.getD uri.query,
                           fragment := fragment.getD uri.fragment }) := by
  obtain ⟨hslash, hmark, hhash⟩ := next_authorityEnd h.state
  have hfinal : firstFinal ≤ q := by
    have hstate := h.state
    simp only [authorityEnd, Bool.and_eq_true, decide_eq_true_eq] at hstate
    exact Nat.le_trans (by decide) hstate.1.1
  cases hp with
  | inl hnil =>
    subst hnil
    have hends : EndsPath text q p d { uri with path := [] } := ⟨⟨hfinal, h.eof, hhash⟩, hmark⟩
    exact hends.scan hq hf htext
  | inr hpath =>
    obtain ⟨w, rfl, hglide⟩ := hpath
    rw [List.cons_append, scan_cons hslash h.slash, scan_glide hglide, Nat.add_assoc, Nat.add_comm 1,
      ← List.length_cons]
    refine (endsPath_path htext).scan hq hf ?_
    rw [← List.drop_drop, htext, List.drop_left]

/-- A host is saved where it ends, and before the colon of a port. -/
theorem endsAuthority_host (hq₀ : q₀ = 511 ∨ q₀ = 522) (h : IsHost q₀ q u)
    (htext : text.drop p = u ++ v) :
    ∃ d', scan text q₀ p (u ++ v) d = scan text q (p + u.length) v d' ∧
      EndsAuthority text q (p + u.length) d' { d.uri with host := u } ∧
      ∃ c as m, (c = 521 ∨ c = 514) ∧ machine.next q 58 = some (c, as) ∧
        performAll (act text (p + u.length)) as d' = .ok ⟨m, { d.uri with host := u }⟩ := by
  obtain ⟨-, -, -, -, -, -, -, hfirst, hsecond, hends⟩ := next_between
  cases h with
  | inl hempty =>
    obtain ⟨rfl, rfl⟩ := hempty
    refine ⟨d, rfl, ?_⟩
    cases hq₀ with
    | inl heq =>
      subst heq
      exact ⟨⟨by decide, by simp [eofActions, performAll, act, cut],
        by simp [eofActions, performAll, act, cut]⟩, 521, _, some p, .inl rfl, hfirst,
        by simp [performAll, act, cut]⟩
    | inr heq =>
      subst heq
      exact ⟨⟨by decide, by simp [eofActions, performAll, act, cut],
        by simp [eofActions, performAll, act, cut]⟩, 514, _, some p, .inr rfl, hsecond,
        by simp [performAll, act, cut]⟩
  | inr hopened =>
    obtain ⟨hopened, hend⟩ := hopened
    have hcut : cut text (some p) (p + u.length) = .ok u := cut_eq htext
    obtain ⟨hstate, hcolon⟩ := hends q (range_of_hostEnd hend).2.1 hend
    have heof := eofActions_of_hostEnd hend
    refine ⟨_, scan_opened hopened, ⟨hstate, ?_, ?_⟩, ?_⟩
    · simp [heof, performAll, act, hcut, cut_self]
    · simp [heof, performAll, act, hcut]
    · cases hcolon with
      | inl hnext => exact ⟨521, _, some p, .inl rfl, hnext, by simp [performAll, act, hcut]⟩
      | inr hnext => exact ⟨514, _, some p, .inr rfl, hnext, by simp [performAll, act, hcut]⟩

/-! ## Ports -/

/-- What `save_port` makes of the digits of a port. -/
def portOf (digits : List UInt8) : UInt32 := UInt32.ofInt (atoi digits)

theorem portOf_append (hne : digits ≠ []) (hall : ∀ b ∈ digits, isDigit b = true)
    (hv : ∀ b ∈ v.head?, isDigit b = false) : portOf (digits ++ v) = portOf digits := by
  have hself := strtol_digits (v := []) hne hall (by simp)
  rw [List.append_nil] at hself
  rw [portOf, portOf, atoi, atoi, strtol_digits hne hall hv, hself]

theorem next_digit {b : UInt8} (hb : isDigit b = true) :
    machine.next 521 b = some (542, [.mark]) ∧ machine.next 542 b = some (542, []) ∧
      machine.next 514 b = some (515, [.mark]) ∧ machine.next 515 b = some (515, []) := by
  have hall : ∀ n < 256, isDigit (UInt8.ofNat n) = true →
      machine.next 521 (UInt8.ofNat n) = some (542, [.mark]) ∧
        machine.next 542 (UInt8.ofNat n) = some (542, []) ∧
        machine.next 514 (UInt8.ofNat n) = some (515, [.mark]) ∧
        machine.next 515 (UInt8.ofNat n) = some (515, []) := by
    set_option maxRecDepth 1000 in decide
  have hbyte := hall b.toNat b.toNat_lt
  rw [UInt8.ofNat_toNat] at hbyte
  exact hbyte hb

theorem opened_digits {c : Nat} (hc : c = 521 ∨ c = 514) (hne : digits ≠ [])
    (hall : ∀ b ∈ digits, isDigit b = true) :
    ∃ q, Opened c q digits ∧ (q = 542 ∨ q = 515) := by
  obtain ⟨b, w, rfl⟩ := List.exists_cons_of_ne_nil hne
  obtain ⟨hfirst, -, hsecond, -⟩ := next_digit (hall b List.mem_cons_self)
  have hrest : ∀ b' ∈ w, isDigit b' = true := fun b' hb' => hall b' (List.mem_cons_of_mem b hb')
  have hglide : ∀ e, e = 542 ∨ e = 515 → machine.glide e w = some e := by
    intro e he
    have hclosed : ∀ q b, q = e → isDigit b = true → ∃ q', machine.next q b = some (q', []) ∧ q' = e := by
      rintro q b rfl hb
      obtain ⟨-, hstays, -, hstays'⟩ := next_digit hb
      cases he with
      | inl heq =>
        subst heq
        exact ⟨542, hstays, rfl⟩
      | inr heq =>
        subst heq
        exact ⟨515, hstays', rfl⟩
    obtain ⟨q, hglide, rfl⟩ := glide_of_closed hclosed rfl hrest
    exact hglide
  cases hc with
  | inl heq =>
    subst heq
    exact ⟨542, ⟨b, w, 542, rfl, hfirst, hglide 542 (.inl rfl)⟩, .inl rfl⟩
  | inr heq =>
    subst heq
    exact ⟨515, ⟨b, w, 515, rfl, hsecond, hglide 515 (.inr rfl)⟩, .inr rfl⟩

theorem endsAuthority_port {c : Nat} (hc : c = 521 ∨ c = 514) (hne : digits ≠ [])
    (hall : ∀ b ∈ digits, isDigit b = true) (hv : ∀ b ∈ v.head?, isDigit b = false)
    (htext : text.drop p = digits ++ v) :
    ∃ q, scan text c p (digits ++ v) d =
        scan text q (p + digits.length) v { d with mark := some p } ∧
      EndsAuthority text q (p + digits.length) { d with mark := some p }
        { d.uri with port := portOf digits } := by
  obtain ⟨q, hopened, hq⟩ := opened_digits hc hne hall
  have heof : eofActions q = [.savePort, .mark, .savePath] := by
    cases hq with
    | inl heq => rw [heq]; rfl
    | inr heq => rw [heq]; rfl
  have hstate : authorityEnd q = true := by
    cases hq with
    | inl heq => rw [heq]; rfl
    | inr heq => rw [heq]; rfl
  have hport : UInt32.ofInt (atoi (text.drop p)) = portOf digits := by
    rw [htext]
    exact portOf_append hne hall hv
  refine ⟨q, scan_opened hopened, hstate, ?_, ?_⟩
  · simp [heof, performAll, act, hne, hport, cut_self]
  · simp [heof, performAll, act, hne, hport]

/-! ## The whole text -/

/-- What ends an authority. -/
def isDelim (b : UInt8) : Bool := b == 47 || b == 63 || b == 35

theorem isDigit_of_isDelim {b : UInt8} (h : isDelim b = true) : isDigit b = false := by
  simp only [isDelim, Bool.or_eq_true, beq_iff_eq] at h
  rcases h with (rfl | rfl) | rfl <;> rfl

/-- A path, a query and a fragment start with what ends an authority. -/
theorem head_tail (hp : IsPath path) :
    ∀ b ∈ (path ++ (delimited 63 query ++ delimited 35 fragment)).head?, isDelim b = true := by
  intro b hb
  cases hp with
  | inl hnil =>
    subst hnil
    cases query with
    | none =>
      cases fragment with
      | none => cases hb
      | some u =>
        cases hb
        rfl
    | some u =>
      cases hb
      rfl
  | inr hpath =>
    obtain ⟨w, rfl, -⟩ := hpath
    cases hb
    rfl

theorem scan_host {host : List UInt8} {port : Option (List UInt8)} (hq₀ : q₀ = 511 ∨ q₀ = 522)
    (hhost : IsHost q₀ q host)
    (hport : ∀ digits ∈ port, digits ≠ [] ∧ ∀ b ∈ digits, isDigit b = true) (hp : IsPath path)
    (hq : ∀ u ∈ query, IsQuery u) (hf : ∀ u ∈ fragment, IsFragment u)
    (htext : text.drop p = host ++ (delimited 58 port ++
      (path ++ (delimited 63 query ++ delimited 35 fragment)))) :
    scan text q₀ p (host ++ (delimited 58 port ++
        (path ++ (delimited 63 query ++ delimited 35 fragment)))) d =
      .ok (some { d.uri with
        host := host
        port := (port.map portOf).getD d.uri.port
        path := path
        query := query.getD d.uri.query
        fragment := fragment.getD d.uri.fragment }) := by
  obtain ⟨d', hscan, hends, c, as, m, hc, hcolon, hact⟩ := endsAuthority_host hq₀ hhost htext
  have hdrop : text.drop (p + host.length) = delimited 58 port ++
      (path ++ (delimited 63 query ++ delimited 35 fragment)) := by
    rw [← List.drop_drop, htext, List.drop_left]
  rw [hscan]
  cases port with
  | none => exact hends.scan hp hq hf hdrop
  | some digits =>
    obtain ⟨hne, hall⟩ := hport digits rfl
    have hdigits : text.drop (p + host.length + 1) = digits ++
        (path ++ (delimited 63 query ++ delimited 35 fragment)) := by
      rw [← List.drop_drop, hdrop]
      rfl
    obtain ⟨q', hread, hends'⟩ := endsAuthority_port (d := ⟨m, { d.uri with host := host }⟩) hc hne
      hall (fun b hb => isDigit_of_isDelim (head_tail hp b hb)) hdigits
    rw [delimited, List.cons_append, scan_cons hcolon hact, hread]
    refine hends'.scan hp hq hf ?_
    rw [← List.drop_drop, hdigits, List.drop_left]

/-- What is behind the scheme is read from state 511 on. -/
theorem create_scheme {scheme : List UInt8} (h : IsScheme scheme) (v : List UInt8) :
    create (scheme ++ 58 :: 47 :: 47 :: v) =
      scan (scheme ++ 58 :: 47 :: 47 :: v) 511 (scheme.length + 3) v
        ⟨none, { init with scheme := scheme }⟩ := by
  obtain ⟨hcolon, hslash, hslash', -⟩ := next_between
  have hsave : performAll (act (scheme ++ 58 :: 47 :: 47 :: v) scheme.length) [.saveScheme]
      ⟨some 0, init⟩ = .ok ⟨none, { init with scheme := scheme }⟩ := by
    simp [performAll, act, cut]
  rw [create, start, scan_opened h, Nat.zero_add, scan_cons hcolon hsave, scan_cons hslash rfl,
    scan_cons hslash' rfl]

end Parts

end CxkFramework.Uri
