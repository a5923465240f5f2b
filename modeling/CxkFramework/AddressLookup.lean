import CxkFramework.IpNetwork
import CxkFramework.Substrings
import Mathlib.Data.List.TakeWhile

/-!
# Looking up a host

`Address::Lookup`, which cuts a host into the node and the service that `getaddrinfo` is called
with.
-/

namespace CxkFramework

open IpNetwork

/-- What `ai_addr` points to. -/
inductive Sockaddr where
  | inet (addr : IPv4Address)
  | inet6 (addr : IPv6Address)
  | other (sa_data : List UInt8)
  deriving DecidableEq, Repr

inductive Address where
  | ipv4 (addr : IPv4Address)
  | ipv6 (addr : IPv6Address)
  | unknown (sa_data : List UInt8)
  deriving DecidableEq, Repr

/-- The `addrinfo` that narrows the search; its other fields are zero. -/
structure Hints where
  ai_family : Int
  ai_socktype : Int
  ai_protocol : Int
  deriving DecidableEq, Repr

namespace Address

/-- A null pointer for a null pointer. -/
def create : Option Sockaddr → Option Address
  | none => none
  | some (.inet addr) => some (.ipv4 addr)
  | some (.inet6 addr) => some (.ipv6 addr)
  | some (.other sa_data) => some (.unknown sa_data)

/-! ## The two passes -/

/-- What a C string at the beginning of this is. -/
def cstr (s : List Char) : List Char := s.takeWhile (· != '\x00')

/-- The first pass: the part in brackets, and where the service begins. -/
def bracketPass (host : List Char) : List Char × Option Nat :=
  if host.head? = some '[' then
    match (host.drop 1).idxOf? ']' with
    | some endipv6 =>
      ((host.drop 1).take endipv6,
        if (host.drop (endipv6 + 2)).head? = some ':' then some (endipv6 + 3) else none)
    | none => ([], none)
  else ([], none)

/-- The second pass. Its pointer to the first colon stays when there is another one. -/
def colonPass (host : List Char) : List Char × Option Nat :=
  match host.idxOf? ':' with
  | some service =>
    if ':' ∈ host.drop (service + 1) then ([], some service)
    else (host.take service, some (service + 1))
  | none => ([], none)

/-- `node` and `service` as they are passed on. -/
def nodeService (host : List Char) : List Char × Option (List Char) :=
  let (node, service) := bracketPass host
  let (node, service) := if node = [] then colonPass host else (node, service)
  let node := if node = [] then host else node
  (cstr node, service.map fun i => cstr (host.drop i))

/-- What a call of `getaddrinfo` was given, and what `Lookup` makes of it. -/
structure Lookup where
  node : List Char
  service : Option (List Char)
  hints : Hints
  ok : Bool
  result : List (Option Address)
  deriving DecidableEq, Repr

/-- `Address::Lookup`, over what `getaddrinfo` gives: an error or a list of results. -/
def lookup
    (getaddrinfo : List Char → Option (List Char) → Hints → Option (List (Option Sockaddr)))
    (result : List (Option Address)) (host : List Char) (family type protocol : Int) : Lookup :=
  let (node, service) := nodeService host
  let hints := ⟨family, type, protocol⟩
  match getaddrinfo node service hints with
  | none => ⟨node, service, hints, false, result⟩
  | some results =>
    let result := result ++ results.map create
    ⟨node, service, hints, !result.isEmpty, result⟩

/-! ## How a host should be cut -/

/-- An address in brackets, alone or with a service. -/
def Bracketed (host : List Char) : Prop :=
  ∃ a, a ≠ [] ∧ ']' ∉ a ∧
    (host = '[' :: a ++ [']'] ∨ ∃ p, host = '[' :: a ++ ']' :: ':' :: p)

/-- The node and the service of a host. -/
structure Splits (host node : List Char) (service : Option (List Char)) : Prop where
  bracketService : ∀ a p, a ≠ [] → ']' ∉ a → host = '[' :: a ++ ']' :: ':' :: p →
    node = a ∧ service = some p
  bracket : ∀ a, a ≠ [] → ']' ∉ a → host = '[' :: a ++ [']'] → node = a ∧ service = none
  oneColon : ∀ h p, h ≠ [] → ':' ∉ h → ':' ∉ p → host = h ++ ':' :: p → ¬Bracketed host →
    node = h ∧ service = some p
  noColon : ':' ∉ host → ¬Bracketed host → node = host ∧ service = none
  bare : host.head? ≠ some '[' → 2 ≤ host.count ':' → node = host ∧ service = none

/-- No bare address, and nothing but a service behind brackets, unless two colons are there. -/
def Plain (host : List Char) : Prop :=
  (host.head? ≠ some '[' → host.count ':' < 2) ∧
    ∀ a x rest, a ≠ [] → ']' ∉ a → host = '[' :: a ++ ']' :: x :: rest →
      x = ':' ∨ 2 ≤ host.count ':'

/-! ## What the passes find -/

section Passes

variable {host a h p rest : List Char} {c x : Char}

theorem idxOf?_cut (hc : c ∉ a) (s : List Char) : (a ++ c :: s).idxOf? c = some a.length := by
  induction a with
  | nil => simp [List.idxOf?_cons]
  | cons d a ih =>
    simp only [List.mem_cons, not_or] at hc
    have hd : (d == c) = false := beq_eq_false_iff_ne.mpr (Ne.symm hc.1)
    simp [List.idxOf?_cons, hd, ih hc.2]

theorem cstr_eq {s : List Char} (hs : '\x00' ∉ s) : cstr s = s := by
  rw [cstr, List.takeWhile_eq_self_iff]
  intro d hd
  rw [bne_iff_ne]
  rintro rfl
  exact hs hd

theorem bracketPass_closed (ha : ']' ∉ a) (rest : List Char) :
    bracketPass ('[' :: a ++ ']' :: rest) =
      (a, if rest.head? = some ':' then some (a.length + 3) else none) := by
  have hdrop : ('[' :: a ++ ']' :: rest).drop (a.length + 2) = rest := by simp
  have hfind : (('[' :: a ++ ']' :: rest).drop 1).idxOf? ']' = some a.length := idxOf?_cut ha rest
  rw [bracketPass, if_pos (by rfl), hfind]
  dsimp only
  rw [hdrop]
  simp

/-- There is something in brackets at the beginning, or the first pass leaves no node. -/
theorem bracketPass_cases (host : List Char) :
    (∃ a rest, a ≠ [] ∧ ']' ∉ a ∧ host = '[' :: a ++ ']' :: rest) ∨ (bracketPass host).1 = [] := by
  cases host with
  | nil => exact .inr rfl
  | cons c s =>
    by_cases hc : c = '['
    · subst hc
      by_cases hclose : ']' ∈ s
      · obtain ⟨a, rest, rfl, ha⟩ := List.eq_append_cons_of_mem hclose
        cases a with
        | nil =>
          right
          rw [← List.cons_append, bracketPass_closed ha]
        | cons d a => exact .inl ⟨d :: a, rest, by simp, ha, rfl⟩
      · right
        have hnone : s.idxOf? ']' = none := List.idxOf?_eq_none_iff.mpr hclose
        simp [bracketPass, hnone]
    · right
      simp [bracketPass, hc]

/-- A node from the first pass is the node. -/
theorem nodeService_closed (ha : ']' ∉ a) (hne : a ≠ []) (rest : List Char) :
    nodeService ('[' :: a ++ ']' :: rest) =
      (cstr a, if rest.head? = some ':' then some (cstr (rest.drop 1)) else none) := by
  have hdrop : ('[' :: a ++ ']' :: rest).drop (a.length + 3) = rest.drop 1 := by
    have hadd : a.length + 3 = ('[' :: a).length + 2 := by simp
    rw [hadd, List.drop_length_add_append]
    rfl
  simp only [nodeService, bracketPass_closed ha, if_neg hne]
  split
  · rw [Option.map_some, hdrop]
  · rfl

/-- Without one the second pass decides. -/
theorem nodeService_open (hopen : (bracketPass host).1 = []) :
    nodeService host =
      (cstr (if (colonPass host).1 = [] then host else (colonPass host).1),
        (colonPass host).2.map fun i => cstr (host.drop i)) := by
  simp only [nodeService, hopen, if_true]

theorem colonPass_none (hhost : ':' ∉ host) : colonPass host = ([], none) := by
  have hnone : host.idxOf? ':' = none := List.idxOf?_eq_none_iff.mpr hhost
  rw [colonPass, hnone]

theorem colonPass_cut (hh : ':' ∉ h) (p : List Char) :
    colonPass (h ++ ':' :: p) =
      if ':' ∈ p then ([], some h.length) else (h, some (h.length + 1)) := by
  have hdrop : (h ++ ':' :: p).drop (h.length + 1) = p := by simp
  rw [colonPass, idxOf?_cut hh]
  dsimp only
  rw [hdrop, List.take_left]

/-- The first closing bracket ends what is in brackets. -/
theorem closed_unique {a' rest' : List Char} (ha : ']' ∉ a) (ha' : ']' ∉ a')
    (h : '[' :: a ++ ']' :: rest = '[' :: a' ++ ']' :: rest') : a = a' ∧ rest = rest' := by
  rw [List.cons_append, List.cons_append, List.cons.injEq] at h
  obtain ⟨rfl, hrest⟩ := Substrings.cut_unique ha ha' (by simp) (by simp) h.2
  exact ⟨rfl, (List.cons.inj hrest).2⟩

/-- A host with one colon or more is cut at the first. -/
theorem exists_cut (h : ':' ∈ host) : ∃ h p, host = h ++ ':' :: p ∧ ':' ∉ h :=
  List.eq_append_cons_of_mem h

theorem count_cut (hh : ':' ∉ h) (p : List Char) :
    (h ++ ':' :: p).count ':' = p.count ':' + 1 := by
  simp [List.count_eq_zero.mpr hh]

end Passes

section Hosts

variable {host a h p rest : List Char} {x : Char}

theorem Bracketed.head (h : Bracketed host) : host.head? = some '[' := by
  obtain ⟨a, -, -, rfl | ⟨p, rfl⟩⟩ := h <;> rfl

theorem Bracketed.plain (h : Bracketed host) : Plain host := by
  constructor
  · intro hhead
    exact absurd h.head hhead
  · intro a x rest _ ha hsame
    obtain ⟨a', -, ha', rfl | ⟨p, rfl⟩⟩ := h
    · cases (closed_unique ha' ha hsame).2
    · cases (closed_unique ha' ha hsame).2
      exact .inl rfl

/-- The other kinds of hosts have no brackets. -/
theorem Bracketed.splits (h : Bracketed host) {node : List Char} {service : Option (List Char)}
    (hservice : ∀ a p, a ≠ [] → ']' ∉ a → host = '[' :: a ++ ']' :: ':' :: p →
      node = a ∧ service = some p)
    (hbracket : ∀ a, a ≠ [] → ']' ∉ a → host = '[' :: a ++ [']'] → node = a ∧ service = none) :
    Splits host node service where
  bracketService := hservice
  bracket := hbracket
  oneColon := fun _ _ _ _ _ _ hnot => absurd h hnot
  noColon := fun _ hnot => absurd h hnot
  bare := fun hnot => absurd h.head hnot

theorem not_bracketed (ha : ']' ∉ a) (hx : x ≠ ':') (rest : List Char) :
    ¬Bracketed ('[' :: a ++ ']' :: x :: rest) := by
  rintro ⟨a', -, ha', hsame | ⟨p, hsame⟩⟩
  · cases (closed_unique ha ha' hsame).2
  · obtain ⟨-, hrest⟩ := closed_unique ha ha' hsame
    exact hx (List.cons.inj hrest).1

/-- Behind the brackets stands something that is not read. -/
theorem splits_behind (ha : ']' ∉ a) (hx : x ≠ ':') (rest : List Char) :
    Splits ('[' :: a ++ ']' :: x :: rest) a none ↔
      2 ≤ ('[' :: a ++ ']' :: x :: rest).count ':' := by
  have hnot := not_bracketed ha hx rest
  generalize hhost : '[' :: a ++ ']' :: x :: rest = host at hnot ⊢
  constructor
  · intro hsplits
    by_cases hcolon : ':' ∈ host
    · obtain ⟨h, p, hcut, hh⟩ := exists_cut hcolon
      have hcount := count_cut hh p
      rw [← hcut] at hcount
      by_cases hp : ':' ∈ p
      · have hpos := List.count_pos_iff.mpr hp
        omega
      · have hempty : h ≠ [] := by
          rintro rfl
          rw [← hhost] at hcut
          cases hcut
        cases (hsplits.oneColon h p hempty hh hp hcut hnot).2
    · have hnode := (hsplits.noColon hcolon hnot).1
      have hlength := congrArg List.length (hnode.trans hhost.symm)
      simp at hlength
      omega
  · intro htwo
    constructor
    · intro a' p _ ha' hsame
      rw [← hhost] at hsame
      exact absurd (List.cons.inj (closed_unique ha ha' hsame).2).1 hx
    · intro a' _ ha' hsame
      rw [← hhost] at hsame
      cases (closed_unique ha ha' hsame).2
    · intro h p _ hh hp hcut _
      have hcount := count_cut hh p
      rw [← hcut, List.count_eq_zero.mpr hp] at hcount
      omega
    · intro hcolon
      rw [List.count_eq_zero.mpr hcolon] at htwo
      cases htwo
    · intro hhead
      rw [← hhost] at hhead
      exact absurd rfl hhead

/-- What is in brackets is cut right, unless something but a service stands behind it. -/
theorem splits_closed (hnul : '\x00' ∉ '[' :: a ++ ']' :: rest) (ha : ']' ∉ a) (hne : a ≠ []) :
    Splits ('[' :: a ++ ']' :: rest) (nodeService ('[' :: a ++ ']' :: rest)).1
        (nodeService ('[' :: a ++ ']' :: rest)).2 ↔ Plain ('[' :: a ++ ']' :: rest) := by
  have hcstr : cstr a = a := cstr_eq fun h => hnul (by simp [h])
  have hcstr' : cstr (rest.drop 1) = rest.drop 1 :=
    cstr_eq fun h => hnul (by simp [List.mem_of_mem_drop h])
  rw [nodeService_closed ha hne, hcstr, hcstr']
  cases rest with
  | nil =>
    have hbracketed : Bracketed ('[' :: a ++ [']']) := ⟨a, hne, ha, .inl rfl⟩
    apply iff_of_true (hbracketed.splits ?_ ?_) hbracketed.plain
    · intro a' p _ ha' hsame
      cases (closed_unique ha ha' hsame).2
    · intro a' _ ha' hsame
      exact ⟨(closed_unique ha ha' hsame).1, rfl⟩
  | cons x rest =>
    by_cases hx : x = ':'
    · subst hx
      have hbracketed : Bracketed ('[' :: a ++ ']' :: ':' :: rest) := ⟨a, hne, ha, .inr ⟨rest, rfl⟩⟩
      apply iff_of_true (hbracketed.splits ?_ ?_) hbracketed.plain
      · intro a' p _ ha' hsame
        obtain ⟨rfl, hrest⟩ := closed_unique ha ha' hsame
        cases hrest
        exact ⟨rfl, rfl⟩
      · intro a' _ ha' hsame
        cases (closed_unique ha ha' hsame).2
    · have hhead : (x :: rest).head? ≠ some ':' := by simpa using hx
      rw [if_neg hhead, splits_behind ha hx]
      constructor
      · intro htwo
        constructor
        · intro hnot
          exact absurd rfl hnot
        · intro _ _ _ _ _ _
          exact .inr htwo
      · intro hplain
        exact (hplain.2 a x rest hne ha rfl).resolve_left hx

/-- Nothing is in brackets. -/
def Open (host : List Char) : Prop :=
  ∀ a rest, a ≠ [] → ']' ∉ a → host ≠ '[' :: a ++ ']' :: rest

theorem Open.splits (hopen : Open host) {node : List Char} {service : Option (List Char)}
    (hone : ∀ h p, h ≠ [] → ':' ∉ h → ':' ∉ p → host = h ++ ':' :: p →
      node = h ∧ service = some p)
    (hnone : ':' ∉ host → node = host ∧ service = none)
    (hbare : host.head? ≠ some '[' → 2 ≤ host.count ':' → node = host ∧ service = none) :
    Splits host node service where
  bracketService := fun a _ hne ha hsame => absurd hsame (hopen a _ hne ha)
  bracket := fun a hne ha hsame => absurd hsame (hopen a _ hne ha)
  oneColon := fun h p hne hh hp hsame _ => hone h p hne hh hp hsame
  noColon := fun hcolon _ => hnone hcolon
  bare := hbare

theorem Open.plain_iff (hopen : Open host) :
    Plain host ↔ (host.head? ≠ some '[' → host.count ':' < 2) :=
  ⟨And.left, fun h => ⟨h, fun a _ _ hne ha hsame => absurd hsame (hopen a _ hne ha)⟩⟩

theorem cut_host (hh : ':' ∉ h) {h' p' : List Char} (hh' : ':' ∉ h')
    (hsame : h ++ ':' :: p = h' ++ ':' :: p') : h' = h ∧ p' = p := by
  obtain ⟨rfl, hrest⟩ := Substrings.cut_unique hh hh' (by simp) (by simp) hsame
  exact ⟨rfl, (List.cons.inj hrest).2.symm⟩

/-- A second colon: the service is what begins at the first. -/
theorem splits_two_colons (hopen : Open (h ++ ':' :: p)) (hh : ':' ∉ h) (hp : ':' ∈ p)
    (node : List Char) (s : List Char) :
    Splits (h ++ ':' :: p) node (some s) ↔ Plain (h ++ ':' :: p) := by
  have hcount := count_cut hh p
  have hpos := List.count_pos_iff.mpr hp
  rw [hopen.plain_iff]
  constructor
  · intro hsplits hhead
    cases (hsplits.bare hhead (by omega)).2
  · intro hlt
    apply hopen.splits
    · intro h' p' _ hh' hp' hsame
      obtain ⟨-, rfl⟩ := cut_host hh hh' hsame
      exact absurd hp hp'
    · intro hnone
      simp at hnone
    · intro hhead htwo
      have hone := hlt hhead
      omega

theorem splits_one_colon (hopen : Open (h ++ ':' :: p)) (hh : ':' ∉ h) (hp : ':' ∉ p) :
    Splits (h ++ ':' :: p) (if h = [] then h ++ ':' :: p else h) (some p) ∧
      Plain (h ++ ':' :: p) := by
  have hcount := count_cut hh p
  have hzero := List.count_eq_zero.mpr hp
  constructor
  · apply hopen.splits
    · intro h' p' hne hh' _ hsame
      obtain ⟨rfl, rfl⟩ := cut_host hh hh' hsame
      exact ⟨if_neg hne, rfl⟩
    · intro hnone
      simp at hnone
    · intro _ htwo
      omega
  · rw [hopen.plain_iff]
    omega

theorem splits_no_colon (hopen : Open host) (hcolon : ':' ∉ host) :
    Splits host host none ∧ Plain host := by
  have hzero := List.count_eq_zero.mpr hcolon
  constructor
  · apply hopen.splits
    · rintro h p _ _ _ rfl
      simp at hcolon
    · intro _
      exact ⟨rfl, rfl⟩
    · intro _ htwo
      omega
  · rw [hopen.plain_iff]
    omega

/-- A host that the second pass cuts goes wrong with two colons and no bracket in front. -/
theorem splits_open (hnul : '\x00' ∉ host) (hpass : (bracketPass host).1 = []) :
    Splits host (nodeService host).1 (nodeService host).2 ↔ Plain host := by
  have hopen : Open host := by
    rintro a rest hne ha rfl
    rw [bracketPass_closed ha] at hpass
    exact hne hpass
  have hcstr : cstr host = host := cstr_eq hnul
  rw [nodeService_open hpass]
  by_cases hcolon : ':' ∈ host
  · obtain ⟨h, p, rfl, hh⟩ := exists_cut hcolon
    rw [colonPass_cut hh]
    by_cases hp : ':' ∈ p
    · rw [if_pos hp]
      exact splits_two_colons hopen hh hp _ _
    · obtain ⟨hsplits, hplain⟩ := splits_one_colon hopen hh hp
      have hservice : (h ++ ':' :: p).drop (h.length + 1) = p := by simp
      have hcstrp : cstr p = p := cstr_eq fun hmem => hnul (by simp [hmem])
      have hcstrh : cstr h = h := cstr_eq fun hmem => hnul (by simp [hmem])
      have hnode : cstr (if h = [] then h ++ ':' :: p else h) =
          if h = [] then h ++ ':' :: p else h := by
        split
        · exact hcstr
        · exact hcstrh
      simp only [if_neg hp, Option.map_some, hservice, hcstrp, hnode]
      exact iff_of_true hsplits hplain
  · obtain ⟨hsplits, hplain⟩ := splits_no_colon hopen hcolon
    simp only [colonPass_none hcolon, if_true, hcstr, Option.map_none]
    exact iff_of_true hsplits hplain

/-- The call of `getaddrinfo` gets the node and the service of every host but bare addresses and
those with something else behind brackets. -/
theorem lookup_splits_iff
    (getaddrinfo : List Char → Option (List Char) → Hints → Option (List (Option Sockaddr)))
    (result : List (Option Address)) (host : List Char) (family type protocol : Int)
    (hnul : '\x00' ∉ host) :
    Splits host (lookup getaddrinfo result host family type protocol).node
        (lookup getaddrinfo result host family type protocol).service ↔ Plain host := by
  have hcall : (lookup getaddrinfo result host family type protocol).node = (nodeService host).1 ∧
      (lookup getaddrinfo result host family type protocol).service = (nodeService host).2 := by
    rw [lookup]
    dsimp only
    split <;> exact ⟨rfl, rfl⟩
  rw [hcall.1, hcall.2]
  obtain ⟨a, rest, hne, ha, rfl⟩ | hopen := bracketPass_cases host
  · exact splits_closed hnul ha hne
  · exact splits_open hnul hopen

/-- A server on the host itself. -/
theorem lookup_splits_iff_localhost :
    Splits "localhost:80".toList "localhost".toList (some "80".toList) :=
  (lookup_splits_iff (fun _ _ _ => some [some (.inet ⟨0x0100007F#32, 0x5000#16⟩)]) []
    "localhost:80".toList 2 1 0 (by decide)).mpr ⟨by decide, fun a x rest _ _ hsame =>
      absurd (List.cons.inj hsame).1 (by decide)⟩

/-- The address ::1 becomes its own service. -/
theorem lookup_bare_address :
    (lookup (fun _ _ _ => none) [] "::1".toList 10 1 0).service = some "::1".toList ∧
      ¬Splits "::1".toList "::1".toList (some "::1".toList) := by
  constructor
  · decide
  · intro hsplits
    cases (hsplits.bare (by decide) (by decide)).2

end Hosts

end Address

end CxkFramework
