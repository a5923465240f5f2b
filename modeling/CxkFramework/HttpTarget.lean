import CxkFramework.HttpRequestText

/-!
# The target of a request

Path, query and fragment as the grammar takes them, printed one behind the other and read back. A
path that starts with a scheme is reported without it.
-/

namespace CxkFramework

open Scanner

namespace HttpParser

/-! ## The grammar of a target -/

/-- A path is passed behind the method, and a space may end the target there. -/
def IsPath (uriRelaxed : Bool) (path : List UInt8) : Prop :=
  ∃ cs text as, (machine uriRelaxed).pass .mark 3 none path = some (cs, text) ∧
    (machine uriRelaxed).next cs 32 = some (4, as)

/-- A query is passed behind a question mark. -/
def IsQuery (uriRelaxed : Bool) (query : List UInt8) : Prop :=
  ∃ cs text as, (machine uriRelaxed).pass .startQuery 29 none query = some (cs, text) ∧
    (machine uriRelaxed).next cs 32 = some (4, as)

def IsFragment (uriRelaxed : Bool) (fragment : List UInt8) : Prop :=
  ∃ cs text as, (machine uriRelaxed).pass .mark 20 none fragment = some (cs, text) ∧
    (machine uriRelaxed).next cs 32 = some (4, as)

def isAlpha (b : UInt8) : Bool := (65 ≤ b && b ≤ 90) || (97 ≤ b && b ≤ 122)

/-- The bytes of a scheme behind its first. -/
def isScheme (b : UInt8) : Bool :=
  isAlpha b || (48 ≤ b && b ≤ 57) || b == 43 || b == 45 || b == 46

/-- What is behind the colon, when the bytes before it may be in a scheme. -/
def afterColon : List UInt8 → Option (List UInt8)
  | [] => none
  | b :: bs => if b = 58 then some bs else if isScheme b then afterColon bs else none

/-- What is behind a scheme and its colon. -/
def afterScheme : List UInt8 → Option (List UInt8)
  | [] => none
  | b :: bs => if isAlpha b then afterColon bs else none

/-- The path of which the parser hears. -/
def reportedPath (path : List UInt8) : List UInt8 := (afterScheme path).getD path

theorem length_afterColon {bs rest : List UInt8} (h : afterColon bs = some rest) :
    rest.length < bs.length := by
  induction bs with
  | nil => cases h
  | cons b bs ih =>
    rw [afterColon] at h
    split at h
    · cases h
      exact Nat.lt_succ_self _
    · split at h
      · exact (ih h).trans (Nat.lt_succ_self _)
      · cases h

theorem reportedPath_eq_iff {path : List UInt8} :
    reportedPath path = path ↔ afterScheme path = none := by
  constructor
  · intro heq
    cases hscheme : afterScheme path with
    | none => rfl
    | some rest =>
      rw [reportedPath, hscheme, Option.getD_some] at heq
      subst heq
      cases rest with
      | nil => cases hscheme
      | cons b bs =>
        rw [afterScheme] at hscheme
        split at hscheme
        · have hlt := length_afterColon hscheme
          rw [List.length_cons] at hlt
          omega
        · cases hscheme
  · intro hscheme
    rw [reportedPath, hscheme, Option.getD_none]

/-! ## States inside a target -/

/-- The part of the target that a state is in: 1 for the path, 2 for the query, 3 for the fragment.
In these states nothing is marked. -/
def part (cs : Nat) : Nat :=
  if cs = 19 ∨ 24 ≤ cs ∧ cs ≤ 28 ∨ 33 ≤ cs ∧ cs ≤ 172 then 1
  else if 30 ≤ cs ∧ cs ≤ 32 then 2
  else if 21 ≤ cs ∧ cs ≤ 23 then 3
  else 0

theorem lt_of_part {cs : Nat} (h : part cs ≠ 0) : cs < 173 := by
  by_contra hlt
  apply h
  rw [part, if_neg (by omega), if_neg (by omega), if_neg (by omega)]

/-- The part that starts in a state. -/
def opens (cs : Nat) : Nat :=
  if cs = 174 then 1 else if cs = 29 then 2 else if cs = 20 then 3 else 0

def isMark (a : Action) : Bool := a == .mark || a == .startQuery

/-- What may come behind a path, the state there and what it makes of the path. -/
def pathEnds : List (UInt8 × Nat × List Action) :=
  [(32, 4, [.requestPath, .requestUri]), (63, 29, [.requestPath]),
    (35, 20, [.requestPath, .requestUri])]

/-- The table inside a part, where a part opens, in a scheme, at the start of a target, and behind
each part. -/
theorem target_table :
    everyEdge (fun cs e => part cs == 0 || (!e.actions.any isMark &&
        (!(e.actions == []) || part e.next == part cs))) 0 table = true ∧
      everyEdge (fun cs e => opens cs == 0 || match e.actions with
        | [] => false
        | [a] => !isMark a || part e.next == opens cs
        | _ => true) 0 table = true ∧
      (∀ (r : Bool) (i : Fin 256), ∀ e ∈ (machine r).next 173 (UInt8.ofNat i),
        e.2 ≠ [.mark] ∧ (e.2 = [] → if UInt8.ofNat i = 58 then e.1 = 174
          else if isScheme (UInt8.ofNat i) then e.1 = 173 else part e.1 = 1)) ∧
      (∀ (r : Bool) (i : Fin 256), ∀ e ∈ (machine r).next 3 (UInt8.ofNat i),
        e.2 ≠ [] ∧ (e.2 = [.mark] →
          if isAlpha (UInt8.ofNat i) then e.1 = 173 else part e.1 = 1)) ∧
      (∀ (r : Bool) (i : Fin 174), i.val = 173 ∨ part i = 1 → (machine r).next i 32 = none ∨
        ∀ e ∈ pathEnds, (machine r).next i e.1 = some (e.2.1, e.2.2)) ∧
      (∀ (r : Bool), ∀ cs ∈ [3, 174], ∀ e ∈ pathEnds,
        (machine r).next cs e.1 = some (e.2.1, .mark :: e.2.2)) ∧
      (∀ (r : Bool) (i : Fin 173), part i = 2 → (machine r).next i 32 = none ∨
        (machine r).next i 32 = some (4, [.queryString, .requestUri]) ∧
          (machine r).next i 35 = some (20, [.queryString, .requestUri])) ∧
      ∀ (r : Bool) (i : Fin 173), part i = 3 → (machine r).next i 32 = none ∨
        (machine r).next i 32 = some (4, [.fragment]) := by
  refine ⟨?_, ?_, ?_, ?_, ?_, ?_, ?_, ?_⟩ <;> decide +kernel

theorem next_part {uriRelaxed : Bool} {cs cs' : Nat} {b : UInt8} {as : List Action}
    (hcs : part cs ≠ 0) (h : (machine uriRelaxed).next cs b = some (cs', as)) :
    as.any isMark = false ∧ (as = [] → part cs' = part cs) := by
  obtain ⟨e, rfl, rfl, _, _, he⟩ := next_of_table target_table.1 h
  simp only [Bool.or_eq_true, Bool.and_eq_true, beq_iff_eq, Bool.not_eq_true', hcs, false_or] at he
  refine ⟨he.1, fun hnil => ?_⟩
  cases he.2 with
  | inl hne => rw [hnil] at hne; cases hne
  | inr heq => exact heq

theorem next_opens {uriRelaxed : Bool} {cs cs' : Nat} {b : UInt8} {as : List Action}
    (hcs : opens cs ≠ 0) (h : (machine uriRelaxed).next cs b = some (cs', as)) :
    as ≠ [] ∧ ∀ a, as = [a] → isMark a = true → part cs' = opens cs := by
  obtain ⟨e, rfl, rfl, _, _, he⟩ := next_of_table target_table.2.1 h
  simp only [Bool.or_eq_true, beq_iff_eq, hcs, false_or] at he
  constructor
  · intro hnil
    rw [hnil] at he
    cases he
  · intro a ha hmark
    rw [ha] at he
    simpa only [hmark, Bool.not_true, Bool.false_or, beq_iff_eq] using he

section Pass

variable {uriRelaxed : Bool} {a : Action} {cs cs' : Nat} {t bs : List UInt8}
  {text text' : Option (List UInt8)}

/-- Inside a part the mark stays where it is. -/
theorem pass_part (ha : isMark a = true) (hcs : part cs ≠ 0)
    (h : (machine uriRelaxed).pass a cs (some t) bs = some (cs', text')) :
    part cs' = part cs ∧ text' = some (t ++ bs) := by
  induction bs generalizing cs t with
  | nil =>
    cases h
    exact ⟨rfl, by rw [List.append_nil]⟩
  | cons b bs ih =>
    obtain ⟨cs₁, ⟨hnext, hpass⟩ | ⟨hnext, _⟩⟩ := Machine.pass_cons h
    · have hpart := (next_part hcs hnext).2 rfl
      obtain ⟨hcs', htext⟩ := ih (hpart ▸ hcs) hpass
      rw [List.append_assoc, List.singleton_append] at htext
      exact ⟨hcs'.trans hpart, htext⟩
    · have hnone := (next_part hcs hnext).1
      rw [List.any_cons, ha] at hnone
      cases hnone

/-- A part starts at its first byte. -/
theorem pass_opens (ha : isMark a = true) (hcs : opens cs ≠ 0)
    (h : (machine uriRelaxed).pass a cs text bs = some (cs', text')) :
    bs = [] ∧ cs' = cs ∨ part cs' = opens cs ∧ text' = some bs := by
  cases bs with
  | nil =>
    cases h
    exact .inl ⟨rfl, rfl⟩
  | cons b bs =>
    obtain ⟨cs₁, ⟨hnext, _⟩ | ⟨hnext, hpass⟩⟩ := Machine.pass_cons h
    · exact absurd rfl (next_opens hcs hnext).1
    · have hpart := (next_opens hcs hnext).2 a rfl ha
      obtain ⟨hcs', htext⟩ := pass_part ha (hpart ▸ hcs) hpass
      exact .inr ⟨hcs'.trans hpart, htext⟩

theorem next_scheme {b : UInt8} {as : List Action}
    (h : (machine uriRelaxed).next 173 b = some (cs', as)) :
    as ≠ [.mark] ∧ (as = [] →
      if b = 58 then cs' = 174 else if isScheme b then cs' = 173 else part cs' = 1) := by
  obtain ⟨-, -, hscheme, -⟩ := target_table
  have hb := hscheme uriRelaxed ⟨b.toNat, b.toNat_lt⟩
  simp only [UInt8.ofNat_toNat] at hb
  exact hb (cs', as) h

theorem next_target {b : UInt8} {as : List Action}
    (h : (machine uriRelaxed).next 3 b = some (cs', as)) :
    as ≠ [] ∧ (as = [.mark] → if isAlpha b then cs' = 173 else part cs' = 1) := by
  obtain ⟨-, -, -, hstart, -⟩ := target_table
  have hb := hstart uriRelaxed ⟨b.toNat, b.toNat_lt⟩
  simp only [UInt8.ofNat_toNat] at hb
  exact hb (cs', as) h

/-- What a path has come to when it is passed: `v` is behind the mark, or will be. -/
def Reported (cs : Nat) (text : Option (List UInt8)) (v : List UInt8) : Prop :=
  (cs = 173 ∨ part cs = 1) ∧ text = some v ∨ (cs = 3 ∨ cs = 174) ∧ v = []

theorem pass_scheme (h : (machine uriRelaxed).pass .mark 173 (some t) bs = some (cs', text')) :
    Reported cs' text' ((afterColon bs).getD (t ++ bs)) := by
  induction bs generalizing t with
  | nil =>
    cases h
    exact .inl ⟨.inl rfl, by rw [afterColon, Option.getD_none, List.append_nil]⟩
  | cons b bs ih =>
    obtain ⟨cs₁, ⟨hnext, hpass⟩ | ⟨hnext, _⟩⟩ := Machine.pass_cons h
    · have hcs₁ := (next_scheme hnext).2 rfl
      rw [Option.map_some] at hpass
      rw [afterColon]
      by_cases hcolon : b = 58
      · rw [if_pos hcolon] at hcs₁ ⊢
        subst hcs₁
        rw [Option.getD_some]
        rcases pass_opens rfl (by decide) hpass with ⟨hnil, hcs'⟩ | ⟨hpart, htext⟩
        · exact .inr ⟨.inr hcs', hnil⟩
        · exact .inl ⟨.inr hpart, htext⟩
      · rw [if_neg hcolon] at hcs₁ ⊢
        by_cases hscheme : isScheme b = true
        · rw [if_pos hscheme] at hcs₁ ⊢
          subst hcs₁
          have hrest := ih hpass
          rw [List.append_assoc, List.singleton_append] at hrest
          exact hrest
        · rw [if_neg hscheme] at hcs₁ ⊢
          obtain ⟨hpart, htext⟩ := pass_part rfl (by omega) hpass
          rw [List.append_assoc, List.singleton_append] at htext
          exact .inl ⟨.inr (hpart.trans hcs₁), htext⟩
    · exact absurd rfl (next_scheme hnext).1

theorem pass_path (h : (machine uriRelaxed).pass .mark 3 none bs = some (cs', text')) :
    Reported cs' text' (reportedPath bs) := by
  cases bs with
  | nil =>
    cases h
    exact .inr ⟨.inl rfl, rfl⟩
  | cons b bs =>
    obtain ⟨cs₁, ⟨hnext, _⟩ | ⟨hnext, hpass⟩⟩ := Machine.pass_cons h
    · exact absurd rfl (next_target hnext).1
    · have hcs₁ := (next_target hnext).2 rfl
      rw [reportedPath, afterScheme]
      by_cases halpha : isAlpha b = true
      · rw [if_pos halpha] at hcs₁ ⊢
        subst hcs₁
        exact pass_scheme hpass
      · rw [if_neg halpha] at hcs₁ ⊢
        obtain ⟨hpart, htext⟩ := pass_part rfl (by omega) hpass
        exact .inl ⟨.inr (hpart.trans hcs₁), htext⟩

end Pass

/-! ## The byte behind a part -/

section Ends

variable {uriRelaxed : Bool} {cs : Nat} {as : List Action}

theorem next_pathEnds (hcs : cs = 173 ∨ part cs = 1)
    (h : (machine uriRelaxed).next cs 32 = some (4, as)) :
    ∀ e ∈ pathEnds, (machine uriRelaxed).next cs e.1 = some (e.2.1, e.2.2) := by
  obtain ⟨-, -, -, -, hpath, -⟩ := target_table
  have hlt : cs < 174 := by
    cases hcs with
    | inl heq => omega
    | inr hpart => exact (lt_of_part (by omega)).trans (by omega)
  refine (hpath uriRelaxed ⟨cs, hlt⟩ hcs).resolve_left ?_
  intro hnone
  exact absurd (h.symm.trans hnone) (by simp)

theorem next_pathEnds_empty (hcs : cs = 3 ∨ cs = 174) :
    ∀ e ∈ pathEnds, (machine uriRelaxed).next cs e.1 = some (e.2.1, .mark :: e.2.2) := by
  obtain ⟨-, -, -, -, -, hempty, -⟩ := target_table
  exact hempty uriRelaxed cs (by simpa using hcs)

theorem next_queryEnds (hcs : part cs = 2) (h : (machine uriRelaxed).next cs 32 = some (4, as)) :
    (machine uriRelaxed).next cs 32 = some (4, [.queryString, .requestUri]) ∧
      (machine uriRelaxed).next cs 35 = some (20, [.queryString, .requestUri]) := by
  obtain ⟨-, -, -, -, -, -, hquery, -⟩ := target_table
  refine (hquery uriRelaxed ⟨cs, lt_of_part (by omega)⟩ hcs).resolve_left ?_
  intro hnone
  exact absurd (h.symm.trans hnone) (by simp)

theorem next_fragmentEnd (hcs : part cs = 3)
    (h : (machine uriRelaxed).next cs 32 = some (4, as)) :
    (machine uriRelaxed).next cs 32 = some (4, [.fragment]) := by
  obtain ⟨-, -, -, -, -, -, -, hfragment⟩ := target_table
  refine (hfragment uriRelaxed ⟨cs, lt_of_part (by omega)⟩ hcs).resolve_left ?_
  intro hnone
  exact absurd (h.symm.trans hnone) (by simp)

end Ends

end HttpParser

namespace HttpRequestParser

open HttpParser

/-! ## Reading a target -/

section Target

variable {uriRelaxed : Bool} {req : HttpRequest} {path query fragment : List UInt8}

theorem reads_path_end (req : HttpRequest) (h : IsPath uriRelaxed path) {e : UInt8 × Nat × List Action}
    (he : e ∈ pathEnds) :
    Reads uriRelaxed 3 req (path ++ [e.1]) e.2.1 { req with path := reportedPath path } := by
  obtain ⟨cs, text, as, hpass, hspace⟩ := h
  have hactions : e.2.2 = [.requestPath] ∨ e.2.2 = [.requestPath, .requestUri] := by
    have hall : ∀ e ∈ pathEnds,
        e.2.2 = [.requestPath] ∨ e.2.2 = [.requestPath, .requestUri] := by
      decide
    exact hall e he
  rcases pass_path hpass with ⟨hcs, htext⟩ | ⟨hcs, hempty⟩
  · rw [htext] at hpass
    exact reads_path hpass (next_pathEnds hcs hspace e he) hactions
  · rw [hempty]
    refine reads_path_empty hpass (next_pathEnds_empty hcs e he) ?_
    exact hactions.imp (congrArg _) (congrArg _)

theorem reads_query_end (h : IsQuery uriRelaxed query) (hne : query ≠ []) :
    Reads uriRelaxed 29 req (query ++ [32]) 4 { req with query := query } ∧
      Reads uriRelaxed 29 req (query ++ [35]) 20 { req with query := query } := by
  obtain ⟨cs, text, as, hpass, hspace⟩ := h
  rcases pass_opens rfl (by decide) hpass with ⟨hnil, _⟩ | ⟨hpart, htext⟩
  · exact absurd hnil hne
  · rw [htext] at hpass
    obtain ⟨hend, hhash⟩ := next_queryEnds hpart hspace
    exact ⟨reads_query hpass hend (.inr rfl), reads_query hpass hhash (.inr rfl)⟩

theorem reads_fragment_end (h : IsFragment uriRelaxed fragment) (hne : fragment ≠ []) :
    Reads uriRelaxed 20 req (fragment ++ [32]) 4 { req with fragment := fragment } := by
  obtain ⟨cs, text, as, hpass, hspace⟩ := h
  rcases pass_opens rfl (by decide) hpass with ⟨hnil, _⟩ | ⟨hpart, htext⟩
  · exact absurd hnil hne
  · rw [htext] at hpass
    exact reads_fragment hpass (next_fragmentEnd hpart hspace) (.inl rfl)

/-- A target as it is printed, and the space behind it. -/
theorem reads_target (hp : IsPath uriRelaxed path) (hq : IsQuery uriRelaxed query)
    (hf : IsFragment uriRelaxed fragment) (hquery : req.query = []) (hfragment : req.fragment = []) :
    Reads uriRelaxed 3 req (path ++ ((if query = [] then [] else [63]) ++ query)
        ++ ((if fragment = [] then [] else [35]) ++ fragment) ++ [32]) 4
      { req with path := reportedPath path, query := query, fragment := fragment } := by
  have hneither : ∀ p, { req with path := p, query := [], fragment := [] } = { req with path := p } := by
    intro p
    rw [← hfragment, ← hquery.trans hfragment.symm]
  have hnoFragment : ∀ p q, { req with path := p, query := q, fragment := [] } =
      { req with path := p, query := q } := by
    intro p q
    rw [← hfragment]
  have hnoQuery : ∀ p f, { req with path := p, query := [], fragment := f } =
      { req with path := p, fragment := f } := by
    intro p f
    rw [← hquery]
  have hspace : (32, 4, [.requestPath, .requestUri]) ∈ pathEnds := by decide
  have hmark : (63, 29, [.requestPath]) ∈ pathEnds := by decide
  have hhash : (35, 20, [.requestPath, .requestUri]) ∈ pathEnds := by decide
  by_cases hnoq : query = []
  · subst hnoq
    by_cases hnof : fragment = []
    · subst hnof
      simp only [if_true, List.append_nil, hneither]
      exact reads_path_end req hp hspace
    · have hall := (reads_path_end req hp hhash).append (reads_fragment_end hf hnof)
      simp only [if_true, if_neg hnof, List.append_nil, List.append_assoc, hnoQuery] at hall ⊢
      exact hall
  · by_cases hnof : fragment = []
    · subst hnof
      have hall := (reads_path_end req hp hmark).append (reads_query_end hq hnoq).1
      simp only [if_true, if_neg hnoq, List.append_nil, List.append_assoc, hnoFragment] at hall ⊢
      exact hall
    · have hall := ((reads_path_end req hp hmark).append (reads_query_end hq hnoq).2).append
        (reads_fragment_end hf hnof)
      simp only [if_neg hnoq, if_neg hnof, List.append_assoc] at hall ⊢
      exact hall

end Target

end HttpRequestParser

end CxkFramework
