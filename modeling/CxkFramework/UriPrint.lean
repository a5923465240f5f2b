import CxkFramework.UriParts

/-!
# Printing a URI and reading it back

A text with a scheme and an authority that `create` takes is put together of parts, and what
`toString` prints is put together of the same ones: the path of `/` stands for the empty one, and
the port is left out where it is the default.
-/

namespace CxkFramework.Uri

open Scanner Machine Runs

/-! ## The regions of the machine -/

/-- Inside the first segment of a relative path. -/
def inSegment (q : Nat) : Bool := q == 452 || q == 3 || q == 4

/-- Inside a host. -/
def inHost (q : Nat) : Bool :=
  229 ≤ q && q ≤ 450 && !(243 ≤ q && q ≤ 244) && !(255 ≤ q && q ≤ 257) || hostEnd q

/-- Inside a port or before it. -/
def inPort (q : Nat) : Bool := q == 521 || q == 542 || q == 514 || q == 515

/-- Inside what can only be a userinfo. -/
def inUserinfo (q : Nat) : Bool := 255 ≤ q && q ≤ 257

def inPath (q : Nat) : Bool := q == 513 || q == 243 || q == 244

def inQuery (q : Nat) : Bool := q == 457 || q == 7 || q == 8

def inFragment (q : Nat) : Bool := q == 454 || q == 1 || q == 2

/-- The edge is for one byte. -/
def single (e : Edge Action) (b : Nat) : Bool := e.lo == b && e.hi == b

/-- The edge is for `/`, `?` or `#`. -/
def delim (e : Edge Action) : Bool := single e 47 || single e 63 || single e 35

def hasNone (e : Edge Action) (bs : List Nat) : Bool := bs.all fun b => !(e.lo ≤ b && b ≤ e.hi)

/-! Where the transitions lead that start in a region. -/

def startRule (q : Nat) (e : Edge Action) : Bool :=
  q != 451 || delim e || hasNone e [58] &&
    (e.next == 508 && e.actions == [.mark] || inSegment e.next && e.actions == [])

def segmentRule (q : Nat) (e : Edge Action) : Bool :=
  !inSegment q || delim e || hasNone e [58] && inSegment e.next && e.actions == []

def schemeRule (q : Nat) (e : Edge Action) : Bool :=
  q != 508 || delim e || single e 58 || (inSegment e.next || e.next == 508) && e.actions == []

def authorityRule (q : Nat) (e : Edge Action) : Bool :=
  q != 511 || delim e || single e 64 || single e 58 && e.next == 521 ||
    inHost e.next && e.actions == [.mark]

def hostRule (q : Nat) (e : Edge Action) : Bool :=
  !inHost q || delim e && hostEnd q || single e 64 ||
    inHost e.next && e.actions == [] && hasNone e [47, 63, 35] ||
    single e 58 && hostEnd q && (e.next == 521 || e.next == 514)

def portRule (q : Nat) (e : Edge Action) : Bool :=
  !inPort q || delim e || single e 64 || inUserinfo e.next ||
    inPort e.next && 48 ≤ e.lo && e.hi ≤ 57

def userinfoRule (q : Nat) (e : Edge Action) : Bool :=
  !inUserinfo q || single e 64 || inUserinfo e.next && hasNone e [47, 63, 35]

def pathRule (q : Nat) (e : Edge Action) : Bool :=
  !inPath q || inPath e.next && e.actions == [] ||
    q == 513 && (single e 63 && e.next == 456 || single e 35 && e.next == 453)

def queryRule (q : Nat) (e : Edge Action) : Bool :=
  (q != 456 || single e 35 && e.next == 453 || inQuery e.next && e.actions == [.mark]) &&
    (!inQuery q || q == 457 && single e 35 && e.next == 453 || inQuery e.next && e.actions == [])

def fragmentRule (q : Nat) (e : Edge Action) : Bool :=
  (q != 453 || inFragment e.next && e.actions == [.mark]) &&
    (!inFragment q || inFragment e.next && e.actions == [])

def rules : List (Nat → Edge Action → Bool) :=
  [startRule, segmentRule, schemeRule, authorityRule, hostRule, portRule, userinfoRule, pathRule,
    queryRule, fragmentRule]

section Regions

variable {q q' : Nat} {b : UInt8} {as : List Action}

theorem edge_rules (h : machine.next q b = some (q', as)) :
    ∃ lo hi, lo ≤ b.toNat ∧ b.toNat ≤ hi ∧ ∀ r ∈ rules, r q ⟨lo, hi, q', as⟩ = true := by
  have hall : everyEdgeOf (fun q e => rules.all fun r => r q e) 20 table = true := by
    decide +kernel
  obtain ⟨⟨lo, hi, next, actions⟩, rfl, rfl, hlo, hhi, hcheck⟩ := next_of_blocks (by decide) hall h
  exact ⟨lo, hi, hlo, hhi, List.all_eq_true.mp hcheck⟩

theorem eq_of_single {lo hi n : Nat} (hn : n < 256) (hlo : lo ≤ b.toNat) (hhi : b.toNat ≤ hi)
    (h : single ⟨lo, hi, q', as⟩ n = true) : b = UInt8.ofNat n := by
  simp only [single, Bool.and_eq_true, beq_iff_eq] at h
  apply UInt8.toNat_inj.mp
  rw [UInt8.toNat_ofNat', Nat.mod_eq_of_lt hn]
  omega

theorem single_eq_false {lo hi n : Nat} (hn : n < 256) (hlo : lo ≤ b.toNat) (hhi : b.toNat ≤ hi)
    (hb : b ≠ UInt8.ofNat n) : single ⟨lo, hi, q', as⟩ n = false :=
  Bool.eq_false_iff.mpr fun h => hb (eq_of_single hn hlo hhi h)

theorem ne_of_hasNone {lo hi n : Nat} {ns : List Nat} (hn : n < 256) (hlo : lo ≤ b.toNat)
    (hhi : b.toNat ≤ hi) (h : hasNone ⟨lo, hi, q', as⟩ ns = true) (hmem : n ∈ ns) :
    b ≠ UInt8.ofNat n := by
  rintro rfl
  have hnone := List.all_eq_true.mp h n hmem
  rw [UInt8.toNat_ofNat', Nat.mod_eq_of_lt hn] at hlo hhi
  simp [hlo, hhi] at hnone

theorem delim_eq_false {lo hi : Nat} (hlo : lo ≤ b.toNat) (hhi : b.toNat ≤ hi)
    (hb : isDelim b = false) : delim ⟨lo, hi, q', as⟩ = false := by
  simp only [isDelim, Bool.or_eq_false_iff, beq_eq_false_iff_ne, ne_eq] at hb
  rw [delim, single_eq_false (by decide) hlo hhi hb.1.1, single_eq_false (by decide) hlo hhi hb.1.2,
    single_eq_false (by decide) hlo hhi hb.2]
  rfl

theorem isDelim_of_hasNone {lo hi : Nat} (hlo : lo ≤ b.toNat) (hhi : b.toNat ≤ hi)
    (h : hasNone ⟨lo, hi, q', as⟩ [47, 63, 35] = true) : isDelim b = false := by
  have hslash : b ≠ 47 := ne_of_hasNone (by decide) hlo hhi h (by simp)
  have hmark : b ≠ 63 := ne_of_hasNone (by decide) hlo hhi h (by simp)
  have hhash : b ≠ 35 := ne_of_hasNone (by decide) hlo hhi h (by simp)
  simp [isDelim, hslash, hmark, hhash]

theorem next_start (hb : isDelim b = false) (h : machine.next 451 b = some (q', as)) :
    b ≠ 58 ∧ (q' = 508 ∧ as = [.mark] ∨ inSegment q' = true ∧ as = []) := by
  obtain ⟨lo, hi, hlo, hhi, hrules⟩ := edge_rules h
  have hr := hrules startRule (by simp [rules])
  simp [startRule, delim_eq_false hlo hhi hb] at hr
  exact ⟨ne_of_hasNone (by decide) hlo hhi hr.1 (by simp), hr.2⟩

theorem next_segment (hq : inSegment q = true) (hb : isDelim b = false)
    (h : machine.next q b = some (q', as)) : b ≠ 58 ∧ inSegment q' = true ∧ as = [] := by
  obtain ⟨lo, hi, hlo, hhi, hrules⟩ := edge_rules h
  have hr := hrules segmentRule (by simp [rules])
  simp [segmentRule, hq, delim_eq_false hlo hhi hb] at hr
  exact ⟨ne_of_hasNone (by decide) hlo hhi hr.1.1 (by simp), hr.1.2, hr.2⟩

theorem next_scheme (hb : isDelim b = false) (hcolon : b ≠ 58)
    (h : machine.next 508 b = some (q', as)) :
    (inSegment q' = true ∨ q' = 508) ∧ as = [] := by
  obtain ⟨lo, hi, hlo, hhi, hrules⟩ := edge_rules h
  have hr := hrules schemeRule (by simp [rules])
  simpa [schemeRule, delim_eq_false hlo hhi hb, single_eq_false (by decide) hlo hhi hcolon] using hr

theorem next_authority (hb : isDelim b = false) (hat : b ≠ 64)
    (h : machine.next 511 b = some (q', as)) :
    b = 58 ∧ q' = 521 ∨ inHost q' = true ∧ as = [.mark] := by
  obtain ⟨lo, hi, hlo, hhi, hrules⟩ := edge_rules h
  have hr := hrules authorityRule (by simp [rules])
  simp [authorityRule, delim_eq_false hlo hhi hb, single_eq_false (by decide) hlo hhi hat] at hr
  cases hr with
  | inl hr => exact .inl ⟨eq_of_single (by decide) hlo hhi hr.1, hr.2⟩
  | inr hr => exact .inr hr

theorem next_host (hq : inHost q = true) (hat : b ≠ 64) (h : machine.next q b = some (q', as)) :
    isDelim b = true ∧ hostEnd q = true ∨
      (inHost q' = true ∧ as = []) ∧ isDelim b = false ∨
      b = 58 ∧ hostEnd q = true ∧ (q' = 521 ∨ q' = 514) := by
  obtain ⟨lo, hi, hlo, hhi, hrules⟩ := edge_rules h
  have hr := hrules hostRule (by simp [rules])
  simp [hostRule, hq, single_eq_false (by decide) hlo hhi hat] at hr
  rcases hr with (⟨hd, hend⟩ | hr) | ⟨⟨hcolon, hend⟩, hnext⟩
  · refine .inl ⟨?_, hend⟩
    by_contra hb
    rw [delim_eq_false hlo hhi (by simpa using hb)] at hd
    cases hd
  · exact .inr (.inl ⟨hr.1, isDelim_of_hasNone hlo hhi hr.2⟩)
  · exact .inr (.inr ⟨eq_of_single (by decide) hlo hhi hcolon, hend, hnext⟩)

theorem next_port (hq : inPort q = true) (hb : isDelim b = false) (hat : b ≠ 64)
    (h : machine.next q b = some (q', as)) :
    inUserinfo q' = true ∨ inPort q' = true ∧ isDigit b = true := by
  obtain ⟨lo, hi, hlo, hhi, hrules⟩ := edge_rules h
  have hr := hrules portRule (by simp [rules])
  simp [portRule, hq, delim_eq_false hlo hhi hb, single_eq_false (by decide) hlo hhi hat] at hr
  refine hr.imp_right fun hr => ⟨hr.1.1, ?_⟩
  simp only [isDigit, Bool.and_eq_true, decide_eq_true_eq, UInt8.le_iff_toNat_le]
  exact ⟨Nat.le_trans hr.1.2 hlo, Nat.le_trans hhi hr.2⟩

theorem next_userinfo (hq : inUserinfo q = true) (hat : b ≠ 64)
    (h : machine.next q b = some (q', as)) : inUserinfo q' = true ∧ isDelim b = false := by
  obtain ⟨lo, hi, hlo, hhi, hrules⟩ := edge_rules h
  have hr := hrules userinfoRule (by simp [rules])
  simp [userinfoRule, hq, single_eq_false (by decide) hlo hhi hat] at hr
  exact ⟨hr.1, isDelim_of_hasNone hlo hhi hr.2⟩

theorem next_path (hq : inPath q = true) (h : machine.next q b = some (q', as)) :
    inPath q' = true ∧ as = [] ∨ q = 513 ∧ (b = 63 ∧ q' = 456 ∨ b = 35 ∧ q' = 453) := by
  obtain ⟨lo, hi, hlo, hhi, hrules⟩ := edge_rules h
  have hr := hrules pathRule (by simp [rules])
  simp [pathRule, hq] at hr
  refine hr.imp_right fun hr => ⟨hr.1, ?_⟩
  exact hr.2.imp (fun h => ⟨eq_of_single (by decide) hlo hhi h.1, h.2⟩)
    fun h => ⟨eq_of_single (by decide) hlo hhi h.1, h.2⟩

theorem next_query_start (h : machine.next 456 b = some (q', as)) :
    b = 35 ∧ q' = 453 ∨ inQuery q' = true ∧ as = [.mark] := by
  obtain ⟨lo, hi, hlo, hhi, hrules⟩ := edge_rules h
  have hr := hrules queryRule (by simp [rules])
  simp [queryRule, inQuery] at hr
  exact hr.imp (fun h => ⟨eq_of_single (by decide) hlo hhi h.1, h.2⟩) fun h => by
    simpa [inQuery] using h

theorem next_query (hq : inQuery q = true) (h : machine.next q b = some (q', as)) :
    q = 457 ∧ b = 35 ∧ q' = 453 ∨ inQuery q' = true ∧ as = [] := by
  obtain ⟨lo, hi, hlo, hhi, hrules⟩ := edge_rules h
  have hr := hrules queryRule (by simp [rules])
  simp [queryRule, hq] at hr
  exact hr.2.imp_left fun h => ⟨h.1.1, eq_of_single (by decide) hlo hhi h.1.2, h.2⟩

theorem next_fragment_start (h : machine.next 453 b = some (q', as)) :
    inFragment q' = true ∧ as = [.mark] := by
  obtain ⟨lo, hi, hlo, hhi, hrules⟩ := edge_rules h
  have hr := hrules fragmentRule (by simp [rules])
  simp [fragmentRule] at hr
  exact hr.1

theorem next_fragment (hq : inFragment q = true) (h : machine.next q b = some (q', as)) :
    inFragment q' = true ∧ as = [] := by
  obtain ⟨lo, hi, hlo, hhi, hrules⟩ := edge_rules h
  have hr := hrules fragmentRule (by simp [rules])
  simp [fragmentRule, hq] at hr
  exact hr.2

end Regions

/-! ## A text that is taken is put together of parts -/

section Parts

variable {text u v w scheme authority rest : List UInt8} {q q' p : Nat} {d : Parse} {uri : Uri}

theorem isFragment_of_after (h : machine.after 453 v = some q) (hfinal : firstFinal ≤ q) :
    IsFragment v := by
  cases v with
  | nil => exact .inl rfl
  | cons b w =>
    obtain ⟨q₁, as, hnext, -, hrest⟩ := after_cons h
    obtain ⟨hq₁, rfl⟩ := next_fragment_start hnext
    cases glide_or_leaves (inFragment · = true) hrest hq₁ with
    | inl hall =>
      have hq : q = 454 := by
        have hin := hall.2
        simp only [inFragment, Bool.or_eq_true, beq_iff_eq] at hin
        simp only [firstFinal] at hfinal
        omega
      exact .inr ⟨b, w, q₁, rfl, hnext, hq ▸ hall.1⟩
    | inr hleaves =>
      obtain ⟨-, b', -, q₂, q₃, as, -, -, hq₂, hnext', hstays, -⟩ := hleaves
      obtain ⟨hq₃, has⟩ := next_fragment hq₂ hnext'
      exact absurd ⟨has, hq₃⟩ hstays

theorem isQuery_of_after (h : machine.after 456 v = some q) (hfinal : firstFinal ≤ q) :
    ∃ u fragment, v = u ++ delimited 35 fragment ∧ IsQuery u ∧ ∀ f ∈ fragment, IsFragment f := by
  cases v with
  | nil => exact ⟨[], none, rfl, .inl rfl, by simp⟩
  | cons b w =>
    obtain ⟨q₁, as, hnext, -, hrest⟩ := after_cons h
    cases next_query_start hnext with
    | inl hhash =>
      obtain ⟨rfl, rfl⟩ := hhash
      refine ⟨[], some w, rfl, .inl rfl, ?_⟩
      rintro f ⟨⟩
      exact isFragment_of_after hrest hfinal
    | inr hin =>
      obtain ⟨hq₁, rfl⟩ := hin
      cases glide_or_leaves (inQuery · = true) hrest hq₁ with
      | inl hall =>
        have hq : q = 457 := by
          have hin := hall.2
          simp only [inQuery, Bool.or_eq_true, beq_iff_eq] at hin
          simp only [firstFinal] at hfinal
          omega
        exact ⟨b :: w, none, (List.append_nil _).symm, .inr ⟨b, w, q₁, rfl, hnext, hq ▸ hall.1⟩,
          by simp⟩
      | inr hleaves =>
        obtain ⟨w₁, b', w₂, q₂, q₃, as, rfl, hglide, hq₂, hnext', hstays, hafter⟩ := hleaves
        cases next_query hq₂ hnext' with
        | inl hhash =>
          obtain ⟨rfl, rfl, rfl⟩ := hhash
          refine ⟨b :: w₁, some w₂, rfl, .inr ⟨b, w₁, q₁, rfl, hnext, hglide⟩, ?_⟩
          rintro f ⟨⟩
          exact isFragment_of_after hafter hfinal
        | inr hin => exact absurd ⟨hin.2, hin.1⟩ hstays

theorem isPath_of_after (h : machine.after 513 v = some q) (hfinal : firstFinal ≤ q) :
    ∃ u query fragment, v = u ++ (delimited 63 query ++ delimited 35 fragment) ∧
      machine.glide 513 u = some 513 ∧ (∀ f ∈ query, IsQuery f) ∧
        ∀ f ∈ fragment, IsFragment f := by
  cases glide_or_leaves (inPath · = true) h rfl with
  | inl hall =>
    have hq : q = 513 := by
      have hin := hall.2
      simp only [inPath, Bool.or_eq_true, beq_iff_eq] at hin
      simp only [firstFinal] at hfinal
      omega
    exact ⟨v, none, none, (List.append_nil _).symm, hq ▸ hall.1, by simp, by simp⟩
  | inr hleaves =>
    obtain ⟨w₁, b, w₂, q₂, q₃, as, rfl, hglide, hq₂, hnext, hstays, hafter⟩ := hleaves
    cases next_path hq₂ hnext with
    | inl hin => exact absurd ⟨hin.2, hin.1⟩ hstays
    | inr hend =>
      obtain ⟨rfl, ⟨rfl, rfl⟩ | ⟨rfl, rfl⟩⟩ := hend
      · obtain ⟨u, fragment, rfl, hquery, hfragment⟩ := isQuery_of_after hafter hfinal
        refine ⟨w₁, some u, fragment, rfl, hglide, ?_, hfragment⟩
        rintro f ⟨⟩
        exact hquery
      · refine ⟨w₁, none, some w₂, rfl, hglide, by simp, ?_⟩
        rintro f ⟨⟩
        exact isFragment_of_after hafter hfinal

/-- What is behind an authority. -/
theorem tail_of_after (hq : authorityEnd q = true) (hdelim : ∀ b ∈ rest.head?, isDelim b = true)
    (h : machine.after q rest = some q') (hfinal : firstFinal ≤ q') :
    ∃ path query fragment, rest = path ++ (delimited 63 query ++ delimited 35 fragment) ∧
      IsPath path ∧ (∀ f ∈ query, IsQuery f) ∧ ∀ f ∈ fragment, IsFragment f := by
  obtain ⟨hslash, hmark, hhash⟩ := next_authorityEnd hq
  cases rest with
  | nil => exact ⟨[], none, none, rfl, .inl rfl, by simp, by simp⟩
  | cons b w =>
    obtain ⟨q₁, as, hnext, -, hafter⟩ := after_cons h
    have hb := hdelim b rfl
    simp only [isDelim, Bool.or_eq_true, beq_iff_eq] at hb
    rcases hb with (rfl | rfl) | rfl
    · cases hslash.symm.trans hnext
      obtain ⟨u, query, fragment, rfl, hglide, hquery, hfragment⟩ := isPath_of_after hafter hfinal
      exact ⟨47 :: u, query, fragment, rfl, .inr ⟨u, rfl, hglide⟩, hquery, hfragment⟩
    · cases hmark.symm.trans hnext
      obtain ⟨u, fragment, rfl, hquery, hfragment⟩ := isQuery_of_after hafter hfinal
      refine ⟨[], some u, fragment, rfl, .inl rfl, ?_, hfragment⟩
      rintro f ⟨⟩
      exact hquery
    · cases hhash.symm.trans hnext
      refine ⟨[], none, some w, rfl, .inl rfl, by simp, ?_⟩
      rintro f ⟨⟩
      exact isFragment_of_after hafter hfinal

/-- From inside a userinfo no text is taken that has no `@`. -/
theorem not_final_of_userinfo (hq : inUserinfo q = true) (hu : ∀ b ∈ u, b ≠ 64)
    (hdelim : ∀ b ∈ rest.head?, isDelim b = true) (h : machine.after q (u ++ rest) = some q') :
    ¬firstFinal ≤ q' := by
  obtain ⟨q₁, hfirst, hsecond⟩ := after_of_append h
  have hq₁ : inUserinfo q₁ = true := after_closed (S := (inUserinfo · = true))
    (fun q b q' as hq hb hnext => (next_userinfo hq hb hnext).1) hfirst hq hu
  cases rest with
  | nil =>
    cases hsecond
    simp only [inUserinfo, Bool.and_eq_true, decide_eq_true_eq] at hq₁
    simp only [firstFinal]
    omega
  | cons b w =>
    obtain ⟨q₂, as, hnext, -, -⟩ := after_cons hsecond
    have hb := hdelim b rfl
    have hat : b ≠ 64 := by
      rintro rfl
      cases hb
    rw [(next_userinfo hq₁ hat hnext).2] at hb
    cases hb

theorem isDigit_of_after (hq : inPort q = true) (hu : ∀ b ∈ u, isDelim b = false ∧ b ≠ 64)
    (hdelim : ∀ b ∈ rest.head?, isDelim b = true) (h : machine.after q (u ++ rest) = some q')
    (hfinal : firstFinal ≤ q') : ∀ b ∈ u, isDigit b = true := by
  induction u generalizing q with
  | nil => simp
  | cons b u ih =>
    obtain ⟨q₁, as, hnext, -, hrest⟩ := after_cons h
    obtain ⟨hb, hat⟩ := hu b List.mem_cons_self
    have hu' : ∀ b' ∈ u, isDelim b' = false ∧ b' ≠ 64 := fun b' hb' =>
      hu b' (List.mem_cons_of_mem b hb')
    cases next_port hq hb hat hnext with
    | inl hdead =>
      exact absurd hfinal (not_final_of_userinfo hdead (fun b' hb' => (hu' b' hb').2) hdelim hrest)
    | inr hdigit =>
      intro b' hb'
      cases List.mem_cons.mp hb' with
      | inl heq => rw [heq]; exact hdigit.2
      | inr hmem => exact ih hdigit.1 hu' hrest b' hmem

theorem inHost_of_final (hq : inHost q = true) (hfinal : firstFinal ≤ q) : hostEnd q = true := by
  simp only [inHost, Bool.or_eq_true, Bool.and_eq_true, decide_eq_true_eq] at hq
  simp only [firstFinal] at hfinal
  cases hq with
  | inl hrange => omega
  | inr hend => exact hend

/-- An authority without userinfo is a host, and a port if there is a colon behind it. -/
theorem isHost_of_after (hu : ∀ b ∈ authority, isDelim b = false ∧ b ≠ 64)
    (hdelim : ∀ b ∈ rest.head?, isDelim b = true)
    (h : machine.after 511 (authority ++ rest) = some q') (hfinal : firstFinal ≤ q') :
    ∃ q host port, authority = host ++ delimited 58 port ∧ IsHost 511 q host ∧
      ∀ digits ∈ port, ∀ b ∈ digits, isDigit b = true := by
  cases authority with
  | nil => exact ⟨511, [], none, rfl, .inl ⟨rfl, rfl⟩, by simp⟩
  | cons b w =>
    obtain ⟨q₁, as, hnext, -, hrest⟩ := after_cons h
    obtain ⟨hb, hat⟩ := hu b List.mem_cons_self
    have hw : ∀ b' ∈ w, isDelim b' = false ∧ b' ≠ 64 := fun b' hb' =>
      hu b' (List.mem_cons_of_mem b hb')
    cases next_authority hb hat hnext with
    | inl hcolon =>
      obtain ⟨rfl, rfl⟩ := hcolon
      refine ⟨511, [], some w, rfl, .inl ⟨rfl, rfl⟩, ?_⟩
      rintro digits ⟨⟩
      exact isDigit_of_after rfl hw hdelim hrest hfinal
    | inr hin =>
      obtain ⟨hq₁, rfl⟩ := hin
      obtain ⟨q₂, hfirst, hsecond⟩ := after_of_append hrest
      cases glide_or_leaves (inHost · = true) hfirst hq₁ with
      | inl hall =>
        refine ⟨q₂, b :: w, none, (List.append_nil _).symm, .inr ⟨⟨b, w, q₁, rfl, hnext, hall.1⟩, ?_⟩,
          by simp⟩
        cases rest with
        | nil =>
          cases hsecond
          exact inHost_of_final hall.2 hfinal
        | cons c rest =>
          obtain ⟨q₃, as, hnext', -, -⟩ := after_cons hsecond
          have hc := hdelim c rfl
          have hat' : c ≠ 64 := by
            rintro rfl
            cases hc
          rcases next_host hall.2 hat' hnext' with hend | hin | hcolon
          · exact hend.2
          · rw [hin.2] at hc
            cases hc
          · rw [hcolon.1] at hc
            cases hc
      | inr hleaves =>
        obtain ⟨w₁, c, w₂, q₃, q₄, as, rfl, hglide, hq₃, hnext', hstays, hafter⟩ := hleaves
        obtain ⟨hc, hat'⟩ := hw c (by simp)
        rcases next_host hq₃ hat' hnext' with hend | hin | hcolon
        · rw [hend.1] at hc
          cases hc
        · exact absurd ⟨hin.1.2, hin.1.1⟩ hstays
        · obtain ⟨rfl, hend, hq₄⟩ := hcolon
          refine ⟨q₃, b :: w₁, some w₂, rfl, .inr ⟨⟨b, w₁, q₁, rfl, hnext, hglide⟩, hend⟩, ?_⟩
          rintro digits ⟨⟩
          have hport : inPort q₄ = true := by
            cases hq₄ with
            | inl heq => rw [heq]; rfl
            | inr heq => rw [heq]; rfl
          have hall : machine.after q₄ (w₂ ++ rest) = some q' := by
            rw [after_append hafter]
            exact hsecond
          exact isDigit_of_after hport (fun b' hb' => hw b' (by simp [hb'])) hdelim hall hfinal

theorem isScheme_of_after (hu : ∀ b ∈ scheme, isDelim b = false ∧ b ≠ 58)
    (h : machine.after 451 (scheme ++ 58 :: v) = some q') : IsScheme scheme := by
  have hnone : ∀ q, q = 451 ∨ inSegment q = true → machine.next q 58 = none := by
    intro q hq
    cases hnext : machine.next q 58 with
    | none => rfl
    | some step =>
      obtain ⟨q₁, as⟩ := step
      cases hq with
      | inl heq =>
        subst heq
        exact absurd rfl (next_start rfl hnext).1
      | inr hin => exact absurd rfl (next_segment hin rfl hnext).1
  obtain ⟨q₂, hfirst, hsecond⟩ := after_of_append h
  obtain ⟨q₃, as₃, hcolon, -, -⟩ := after_cons hsecond
  cases scheme with
  | nil =>
    cases hfirst
    rw [hnone 451 (.inl rfl)] at hcolon
    cases hcolon
  | cons b w =>
    obtain ⟨q₁, as, hnext, -, hrest⟩ := after_cons hfirst
    have hw : ∀ b' ∈ w, isDelim b' = false ∧ b' ≠ 58 := fun b' hb' =>
      hu b' (List.mem_cons_of_mem b hb')
    have hsegment : ∀ q, inSegment q = true → ∀ w, (∀ b ∈ w, isDelim b = false ∧ b ≠ 58) →
        machine.after q w = some q₂ → False := by
      intro q hq w hw hafter
      have hin : inSegment q₂ = true := after_closed (S := (inSegment · = true))
        (fun q b q' as hq hb hnext => (next_segment hq hb.1 hnext).2.1) hafter hq hw
      rw [hnone q₂ (.inr hin)] at hcolon
      cases hcolon
    rcases (next_start (hu b List.mem_cons_self).1 hnext).2 with ⟨rfl, rfl⟩ | ⟨hq₁, -⟩
    · cases glide_or_leaves (· = 508) hrest rfl with
      | inl hall =>
        obtain ⟨hglide, rfl⟩ := hall
        exact ⟨b, w, 508, rfl, hnext, hglide⟩
      | inr hleaves =>
        obtain ⟨w₁, c, w₂, q₃, q₄, as, rfl, -, rfl, hnext', hstays, hafter⟩ := hleaves
        obtain ⟨hc, hne⟩ := hw c (by simp)
        obtain ⟨hq₄, has⟩ := next_scheme hc hne hnext'
        cases hq₄ with
        | inl hin =>
          exact (hsegment q₄ hin w₂ (fun b' hb' => hw b' (by simp [hb'])) hafter).elim
        | inr heq => exact absurd ⟨has, heq⟩ hstays
    · exact (hsegment q₁ hq₁ w hw hrest).elim

/-- Without a mark there is no path to save. -/
theorem not_scan_null {uri' : Uri} : scan text 513 p v ⟨none, uri⟩ ≠ .ok (some uri') := by
  intro h
  obtain ⟨q, hafter, hfinal⟩ := after_of_scan h
  obtain ⟨-, -, -, hmark, hhash, -⟩ := next_between
  cases glide_or_leaves (inPath · = true) hafter rfl with
  | inl hall =>
    obtain ⟨hglide, hin⟩ := hall
    have hq : q = 513 := by
      simp only [inPath, Bool.or_eq_true, beq_iff_eq] at hin
      simp only [firstFinal] at hfinal
      omega
    subst hq
    have hread : scan text 513 p (v ++ []) ⟨none, uri⟩ =
        scan text 513 (p + v.length) [] ⟨none, uri⟩ := scan_glide hglide
    rw [List.append_nil, h] at hread
    simp [scan, exec, finish, eofActions, performAll, act, cut] at hread
  | inr hleaves =>
    obtain ⟨w₁, b, w₂, q₂, q₃, as, rfl, hglide, hq₂, hnext, hstays, -⟩ := hleaves
    rw [scan_glide hglide] at h
    rcases next_path hq₂ hnext with hin | ⟨rfl, ⟨rfl, -⟩ | ⟨rfl, -⟩⟩
    · exact absurd ⟨hin.2, hin.1⟩ hstays
    · rw [scan_fault hmark (e := .null) (by simp [performAll, act, cut])] at h
      cases h
    · rw [scan_fault hhash (e := .null) (by simp [performAll, act, cut])] at h
      cases h

/-- A port without digits takes the mark away. -/
theorem not_scan_empty_port {c : Nat} {uri' : Uri} (hc : c = 521 ∨ c = 514)
    (hdelim : ∀ b ∈ rest.head?, isDelim b = true) : scan text c p rest d ≠ .ok (some uri') := by
  intro h
  have heof : eofActions c = [.mark, .savePort, .savePath] := by
    cases hc with
    | inl heq => rw [heq]; rfl
    | inr heq => rw [heq]; rfl
  have hstate : authorityEnd c = true := by
    cases hc with
    | inl heq => rw [heq]; rfl
    | inr heq => rw [heq]; rfl
  obtain ⟨hslash, hmark, hhash⟩ := next_authorityEnd hstate
  have hfault : performAll (act text p) (eofActions c) d = .error .null := by
    simp [heof, performAll, act, cut]
  cases rest with
  | nil => simp [scan, exec, finish, hfault] at h
  | cons b w =>
    have hb := hdelim b rfl
    simp only [isDelim, Bool.or_eq_true, beq_iff_eq] at hb
    rcases hb with (rfl | rfl) | rfl
    · have hsave : performAll (act text p) (eofActions c).dropLast d = .ok ⟨none, d.uri⟩ := by
        simp [heof, performAll, act]
      rw [scan_cons hslash hsave] at h
      exact not_scan_null h
    · rw [scan_fault hmark hfault] at h
      cases h
    · rw [scan_fault hhash hfault] at h
      cases h

theorem after_of_opened {q₀ : Nat} (h : Opened q₀ q u) : machine.after q₀ u = some q := by
  obtain ⟨b, w, q₁, rfl, hnext, hglide⟩ := h
  have hstops : [Action.mark].any machine.stops = false := rfl
  simp only [after, hnext, hstops, Bool.false_eq_true, if_false]
  exact after_of_glide hglide

theorem after_of_isHost (h : IsHost 511 q u) :
    machine.after 511 u = some q ∧ authorityEnd q = true := by
  cases h with
  | inl hempty =>
    obtain ⟨rfl, rfl⟩ := hempty
    exact ⟨rfl, rfl⟩
  | inr hopened =>
    obtain ⟨-, -, -, -, -, -, -, -, -, hends⟩ := next_between
    exact ⟨after_of_opened hopened.1, (hends q (range_of_hostEnd hopened.2).2.1 hopened.2).1⟩

/-- A text with a scheme and an authority that is taken, and what is made of it. -/
theorem parts_of_create (hscheme : ∀ b ∈ scheme, isDelim b = false ∧ b ≠ 58)
    (hauthority : ∀ b ∈ authority, isDelim b = false ∧ b ≠ 64)
    (hdelim : ∀ b ∈ rest.head?, isDelim b = true)
    (h : create (scheme ++ 58 :: 47 :: 47 :: (authority ++ rest)) = .ok (some uri)) :
    IsScheme scheme ∧ ∃ q host port path query fragment, authority = host ++ delimited 58 port ∧
      rest = path ++ (delimited 63 query ++ delimited 35 fragment) ∧ IsHost 511 q host ∧
      (∀ digits ∈ port, digits ≠ [] ∧ ∀ b ∈ digits, isDigit b = true) ∧ IsPath path ∧
      (∀ f ∈ query, IsQuery f) ∧ (∀ f ∈ fragment, IsFragment f) ∧
      uri = { init with
        scheme := scheme
        host := host
        port := (port.map portOf).getD 0
        path := path
        query := query.getD []
        fragment := fragment.getD [] } := by
  obtain ⟨q₀, htaken, -⟩ := after_of_scan h
  have hs : IsScheme scheme := isScheme_of_after hscheme htaken
  rw [create_scheme hs] at h
  obtain ⟨q', hafter, hfinal⟩ := after_of_scan h
  obtain ⟨q, host, port, rfl, hhost, hport⟩ := isHost_of_after hauthority hdelim hafter hfinal
  obtain ⟨hread, hstate⟩ := after_of_isHost hhost
  rw [List.append_assoc] at h hafter
  rw [after_append hread] at hafter
  have hdrop : (scheme ++ 58 :: 47 :: 47 :: (host ++ (delimited 58 port ++ rest))).drop
      (scheme.length + 3) = host ++ (delimited 58 port ++ rest) := by
    rw [← List.drop_drop, List.drop_left]
    simp
  generalize scheme ++ 58 :: 47 :: 47 :: (host ++ (delimited 58 port ++ rest)) = text at h hdrop
  -- the state from which the rest is read
  have htail : ∃ q₁, authorityEnd q₁ = true ∧ machine.after q₁ rest = some q' ∧
      ∀ digits ∈ port, digits ≠ [] := by
    cases port with
    | none => exact ⟨q, hstate, hafter, by simp⟩
    | some digits =>
      obtain ⟨d', hscan, -, c, as, m, hc, hcolon, hact⟩ :=
        endsAuthority_host (d := ⟨none, { init with scheme := scheme }⟩) (.inl rfl) hhost hdrop
      by_cases hne : digits = []
      · subst hne
        rw [hscan, delimited, List.cons_append, scan_cons hcolon hact, List.nil_append] at h
        exact absurd h (not_scan_empty_port hc hdelim)
      · obtain ⟨q₂, hopened, hq₂⟩ := opened_digits hc hne (hport digits rfl)
        have hread : machine.after q (58 :: (digits ++ rest)) = some q' := hafter
        obtain ⟨q₃, as₃, hnext, -, hrest⟩ := after_cons hread
        cases hcolon.symm.trans hnext
        rw [after_append (after_of_opened hopened)] at hrest
        refine ⟨q₂, ?_, hrest, ?_⟩
        · cases hq₂ with
          | inl heq => rw [heq]; rfl
          | inr heq => rw [heq]; rfl
        · rintro _ ⟨⟩
          exact hne
  obtain ⟨q₁, hq₁, hrest, hne⟩ := htail
  obtain ⟨path, query, fragment, rfl, hpath, hquery, hfragment⟩ :=
    tail_of_after hq₁ hdelim hrest hfinal
  have hport' : ∀ digits ∈ port, digits ≠ [] ∧ ∀ b ∈ digits, isDigit b = true :=
    fun digits hd => ⟨hne digits hd, hport digits hd⟩
  refine ⟨hs, q, host, port, path, query, fragment, rfl, rfl, hhost, hport', hpath, hquery,
    hfragment, ?_⟩
  rw [scan_host (.inl rfl) hhost hport' hpath hquery hfragment hdrop] at h
  cases h
  rfl

end Parts

/-! ## Printed ports -/

/-- A port that is printed is read back, whatever its digits were before. -/
theorem portOf_decimal (port : UInt32) : portOf (decimal port.toNat) = port := by
  have hlt : port.toNat < 4294967296 := port.toNat_lt
  have hstrtol : strtol (decimal port.toNat) = port.toNat := by
    have hdigits := strtol_digits (v := []) (decimal_ne_nil port.toNat)
      (fun _ => isDigit_decimal) (by simp)
    rw [List.append_nil, number_decimal] at hdigits
    rw [hdigits]
    omega
  have hcut : ((port.toNat : Int).bmod (2 ^ 32) % 2 ^ 32).toNat = port.toNat := by
    have hmod := Int.bmod_emod (x := port.toNat) (m := 2 ^ 32)
    have hcast : ((2 ^ 32 : Nat) : Int) = 4294967296 := rfl
    have hpow : (2 ^ 32 : Int) = 4294967296 := rfl
    rw [hcast] at hmod
    rw [hpow, hmod]
    omega
  rw [portOf, atoi, hstrtol, UInt32.ofInt, hcut, UInt32.ofNat_toNat]

/-! ## The round trip -/

/-- A text with a scheme and an authority without userinfo. -/
def HasPlainAuthority (text : List UInt8) : Prop :=
  ∃ scheme authority rest, text = scheme ++ chars "://" ++ authority ++ rest ∧
    (∀ b ∈ scheme, b ∉ chars ":/?#") ∧ (∀ b ∈ authority, b ∉ chars "/?#@") ∧
    ∀ b ∈ rest.head?, b ∈ chars "/?#"

section RoundTrip

variable {u : Uri}

/-- What is printed of a URI without userinfo. -/
theorem toString_parts (h : u.userinfo = []) :
    u.toString = u.scheme ++ 58 :: 47 :: 47 :: (u.host ++
      (delimited 58 (if u.isDefaultPort then none else some (decimal u.port.toNat)) ++
        (u.getPath ++ (delimited 63 (if u.query = [] then none else some u.query) ++
          delimited 35 (if u.fragment = [] then none else some u.fragment))))) := by
  have hcolon : chars "://" = [58, 47, 47] := by decide
  have hport : (if u.isDefaultPort = true then [] else chars ":" ++ decimal u.port.toNat) =
      delimited 58 (if u.isDefaultPort = true then none else some (decimal u.port.toNat)) := by
    split <;> rfl
  have hquery : (if u.query = [] then [] else chars "?") ++ u.query =
      delimited 63 (if u.query = [] then none else some u.query) := by
    split
    · next hnil => rw [hnil]; rfl
    · rfl
  have hfragment : (if u.fragment = [] then [] else chars "#") ++ u.fragment =
      delimited 35 (if u.fragment = [] then none else some u.fragment) := by
    split
    · next hnil => rw [hnil]; rfl
    · rfl
  simp only [toString, h, hcolon, hport, ← hquery, ← hfragment, if_true, List.append_nil,
    List.append_assoc, List.cons_append, List.nil_append]

/-- The default port stands for the one that is left out. -/
theorem getPort_default {u' : Uri} (h : u.isDefaultPort = true) (hscheme : u'.scheme = u.scheme)
    (hport : u'.port = 0) : u'.getPort = u.getPort := by
  rw [isDefaultPort] at h
  split at h
  · next hzero => simp only [getPort, hscheme, hport, hzero]
  · next hne =>
    rw [getPort, getPort, hport, hscheme, if_neg (by simp), if_pos hne]
    split at h
    · next hhttp =>
      rw [if_pos hhttp, of_decide_eq_true h]
      rfl
    · next hhttp =>
      split at h
      · next hhttps =>
        rw [if_neg hhttp, if_pos hhttps, of_decide_eq_true h]
        rfl
      · cases h

theorem isPath_getPath (h : IsPath u.path) : IsPath u.getPath := by
  rw [getPath]
  split
  · exact .inr ⟨[], rfl, rfl⟩
  · exact h

/-- Reading what is printed of a URI that was read gives the same URI. -/
theorem create_toString {text : List UInt8} (hplain : HasPlainAuthority text)
    (h : create text = .ok (some u)) :
    ∃ u', create u.toString = .ok (some u') ∧ u'.scheme = u.scheme ∧ u'.host = u.host ∧
      u'.getPort = u.getPort ∧ u'.getPath = u.getPath ∧ u'.query = u.query ∧
      u'.fragment = u.fragment := by
  obtain ⟨scheme, authority, rest, rfl, hscheme, hauthority, hdelim⟩ := hplain
  have hcolon : chars "://" = [58, 47, 47] := by decide
  have hschemeChars : chars ":/?#" = [58, 47, 63, 35] := by decide
  have hauthorityChars : chars "/?#@" = [47, 63, 35, 64] := by decide
  have hdelimChars : chars "/?#" = [47, 63, 35] := by decide
  rw [hcolon, List.append_assoc, List.append_assoc, List.cons_append, List.cons_append,
    List.cons_append, List.nil_append] at h
  have hscheme' : ∀ b ∈ scheme, isDelim b = false ∧ b ≠ 58 := by
    intro b hb
    have hnot := hscheme b hb
    simp only [hschemeChars, List.mem_cons, List.not_mem_nil, or_false, not_or] at hnot
    simp [isDelim, hnot]
  have hauthority' : ∀ b ∈ authority, isDelim b = false ∧ b ≠ 64 := by
    intro b hb
    have hnot := hauthority b hb
    simp only [hauthorityChars, List.mem_cons, List.not_mem_nil, or_false, not_or] at hnot
    simp [isDelim, hnot]
  have hdelim' : ∀ b ∈ rest.head?, isDelim b = true := by
    intro b hb
    have hmem := hdelim b hb
    simp only [hdelimChars, List.mem_cons, List.not_mem_nil, or_false] at hmem
    simp only [isDelim, Bool.or_eq_true, beq_iff_eq]
    exact or_assoc.mpr hmem
  obtain ⟨hs, q, host, port, path, query, fragment, -, -, hhost, -, hpath, hquery, hfragment, hu⟩ :=
    parts_of_create hscheme' hauthority' hdelim' h
  have hu_query : ∀ f ∈ (if u.query = [] then none else some u.query), IsQuery f := by
    intro f hf
    split at hf
    · cases hf
    · cases hf
      cases query with
      | none => exact .inl (by rw [hu]; rfl)
      | some f =>
        rw [hu]
        exact hquery f rfl
  have hu_fragment : ∀ f ∈ (if u.fragment = [] then none else some u.fragment), IsFragment f := by
    intro f hf
    split at hf
    · cases hf
    · cases hf
      cases fragment with
      | none => exact .inl (by rw [hu]; rfl)
      | some f =>
        rw [hu]
        exact hfragment f rfl
  have hu_port : ∀ digits ∈ (if u.isDefaultPort then none else some (decimal u.port.toNat)),
      digits ≠ [] ∧ ∀ b ∈ digits, isDigit b = true := by
    intro digits hd
    split at hd
    · cases hd
    · cases hd
      exact ⟨decimal_ne_nil _, fun b hb => isDigit_decimal hb⟩
  have hu_host : IsHost 511 q u.host := by rw [hu]; exact hhost
  have hu_path : IsPath u.path := by rw [hu]; exact hpath
  have hu_scheme : IsScheme u.scheme := by rw [hu]; exact hs
  have hu_userinfo : u.userinfo = [] := by rw [hu]; rfl
  rw [toString_parts hu_userinfo, create_scheme hu_scheme, scan_host (.inl rfl) hu_host hu_port
    (isPath_getPath hu_path) hu_query hu_fragment (by rw [← List.drop_drop, List.drop_left]; rfl)]
  refine ⟨_, rfl, rfl, rfl, ?_, ?_, ?_, ?_⟩
  · by_cases hdefault : u.isDefaultPort = true
    · exact getPort_default hdefault rfl (by rw [if_pos hdefault]; rfl)
    · simp [getPort, hdefault, portOf_decimal]
  · by_cases hnil : u.path = []
    · simp [getPath, hnil]
    · simp [getPath, hnil]
  · by_cases hnil : u.query = []
    · simp [hnil, init]
    · simp [hnil]
  · by_cases hnil : u.fragment = []
    · simp [hnil, init]
    · simp [hnil]

set_option maxRecDepth 2000 in
/-- A text with a port behind a host in brackets, an empty query and no fragment. -/
theorem create_toString_brackets : ∃ u u', create (chars "ws://[::1]:080?") = .ok (some u) ∧
    create u.toString = .ok (some u') ∧ u'.host = u.host ∧ u'.getPort = u.getPort := by
  have hplain : HasPlainAuthority (chars "ws://[::1]:080?") :=
    ⟨chars "ws", chars "[::1]:080", chars "?", by decide, by decide, by decide, by decide⟩
  have hcreate : create (chars "ws://[::1]:080?") = .ok (some
      ⟨chars "ws", [], chars "[::1]", 80, [], [], []⟩) := by
    decide
  obtain ⟨u', hu', -, hhost, hport, -⟩ := create_toString hplain hcreate
  exact ⟨_, u', hcreate, hu', hhost, hport⟩

end RoundTrip

end CxkFramework.Uri
