import CxkFramework.UriHost
import CxkFramework.UriPrint
import Mathlib.Data.List.TakeWhile

/-!
# Taking a URI apart

`create` on the text of any URI with an authority. The getters return its parts unless a part of
the host is refused, the port is there but empty, or the userinfo has a digit behind its first
colon: there the mark moves on, as it could be a port, and what is before it is lost.
-/

namespace CxkFramework.Uri

open Scanner Machine Grammar

/-! ## Userinfo -/

/-- What is behind the first colon. -/
def behindColon (u : List UInt8) : List UInt8 := (u.dropWhile (· != 58)).drop 1

/-- The first colon has a digit behind it. -/
def portLike (u : List UInt8) : Bool := (behindColon u).head?.any isDigit

/-- What `save_userinfo` makes of a userinfo. -/
def reported (u : List UInt8) : List UInt8 := if portLike u then behindColon u else u

set_option maxRecDepth 2000 in
/-- In a userinfo. -/
theorem next_in_userinfo :
    machine.next 511 64 = some (522, [.mark, .saveUserinfo]) ∧
      (∀ q ∈ nameStates 511, machine.next q 64 = some (522, [.saveUserinfo]) ∧
        machine.next q 58 = some (521, [.saveHost])) ∧
      (∀ q ∈ [521, 255, 542], machine.next q 64 = some (522, [.saveUserinfo])) ∧
      closedOn userinfoChars [255, 542] = true ∧
      (∀ b ∈ userinfoChars, isDigit b = false → machine.next 521 b = some (255, [])) ∧
      machine.frontiers [[37], hexdig, hexdig] [521] = some [255] := by
  refine ⟨rfl, by decide, by decide, by decide, List.all_iff_forall_prop.mp ?_, by decide⟩
  decide

section Userinfo

variable {text u v w : List UInt8} {p : Nat} {d : Parse}

theorem not_mem_of_encoded (hu : Encoded regNameChars u) : 58 ∉ u := by
  have hchar : ∀ b ∈ regNameChars, (58 : UInt8) ≠ b := List.all_iff_forall_prop.mp (by decide)
  have hhex : ∀ b ∈ hexdig, (58 : UInt8) ≠ b := List.all_iff_forall_prop.mp (by decide)
  induction hu with
  | nil => simp
  | char hb _ ih => exact List.not_mem_cons_of_ne_of_not_mem (hchar _ hb) ih
  | pct hh hl _ ih =>
    apply List.not_mem_cons_of_ne_of_not_mem (by decide)
    apply List.not_mem_cons_of_ne_of_not_mem (hhex _ hh)
    exact List.not_mem_cons_of_ne_of_not_mem (hhex _ hl) ih

/-- A userinfo is a name, or a name and a userinfo behind a colon. -/
theorem split_userinfo (hu : Encoded userinfoChars u) :
    Encoded regNameChars u ∨ ∃ name w, u = name ++ 58 :: w ∧ Encoded regNameChars name ∧
      Encoded userinfoChars w := by
  induction hu with
  | nil => exact .inl .nil
  | @char b u hb hu ih =>
    cases List.mem_cons.mp hb with
    | inl hcolon =>
      subst hcolon
      exact .inr ⟨[], u, rfl, .nil, hu⟩
    | inr hb =>
      cases ih with
      | inl hname => exact .inl (.char hb hname)
      | inr hsplit =>
        obtain ⟨name, w, rfl, hname, hw⟩ := hsplit
        exact .inr ⟨b :: name, w, rfl, .char hb hname, hw⟩
  | @pct h l u hh hl _ ih =>
    cases ih with
    | inl hname => exact .inl (.pct hh hl hname)
    | inr hsplit =>
      obtain ⟨name, w, rfl, hname, hw⟩ := hsplit
      exact .inr ⟨37 :: h :: l :: name, w, rfl, .pct hh hl hname, hw⟩

theorem behindColon_append (hu : 58 ∉ u) (w : List UInt8) : behindColon (u ++ 58 :: w) = w := by
  have hall : ∀ b ∈ u, (b != 58) = true := by
    intro b hb
    simp only [bne_iff_ne, ne_eq]
    rintro rfl
    exact hu hb
  rw [behindColon, List.dropWhile_append_of_pos hall]
  rfl

theorem portLike_of_not_mem (hu : 58 ∉ u) : portLike u = false := by
  have hall : ∀ b ∈ u, (b != 58) = true := by
    intro b hb
    simp only [bne_iff_ne, ne_eq]
    rintro rfl
    exact hu hb
  rw [portLike, behindColon, List.dropWhile_eq_nil_iff.mpr hall]
  rfl

theorem reported_eq_iff : reported u = u ↔ portLike u = false := by
  rw [reported]
  constructor
  · intro h
    by_contra hlike
    rw [Bool.not_eq_false] at hlike
    rw [if_pos hlike] at h
    have hnil : u ≠ [] := by
      rintro rfl
      cases hlike
    have hle := List.length_dropWhile_le (· != 58) u
    have hlength := congrArg List.length h
    have hpos := List.length_pos_of_ne_nil hnil
    rw [behindColon, List.length_drop] at hlength
    omega
  · intro h
    simp [h]

/-- The mark moves to a digit behind the colon. -/
theorem scan_behindColon (hw : Encoded userinfoChars w) :
    ∃ q ∈ [521, 255, 542], scan text 521 p (w ++ v) d =
      scan text q (p + w.length) v
        { d with mark := if w.head?.any isDigit then some p else d.mark } := by
  obtain ⟨-, -, -, hclosed, hchar, hpct⟩ := next_in_userinfo
  have hstates : ∀ q ∈ [255, 542], q ∈ [521, 255, 542] := by decide
  have hrest : ∀ q ∈ [255, 542], ∀ u, Encoded userinfoChars u → ∀ p d, ∃ q' ∈ [521, 255, 542],
      scan text q p (u ++ v) d = scan text q' (p + u.length) v d := by
    intro q hq u hu p d
    obtain ⟨q', hq', hglide⟩ := glide_of_encoded hclosed hq hu
    exact ⟨q', hstates q' hq', scan_glide hglide⟩
  cases hw with
  | nil => exact ⟨521, by simp, rfl⟩
  | @char b u hb hu =>
    cases hdigit : isDigit b with
    | true =>
      obtain ⟨q, hq, hscan⟩ := hrest 542 (by simp) u hu (p + 1) { d with mark := some p }
      refine ⟨q, hq, ?_⟩
      rw [List.cons_append, scan_cons (next_digit hdigit).1 rfl, hscan]
      simp [hdigit, Nat.add_assoc, Nat.add_comm 1]
    | false =>
      obtain ⟨q, hq, hscan⟩ := hrest 255 (by simp) u hu (p + 1) d
      refine ⟨q, hq, ?_⟩
      rw [List.cons_append, scan_cons (hchar b hb hdigit) rfl, hscan]
      simp [hdigit, Nat.add_assoc, Nat.add_comm 1]
  | @pct h l u hh hl hu =>
    obtain ⟨q₁, hq₁, hfirst⟩ := glide_of_frontiers (w := [37, h, l]) hpct List.mem_cons_self
      (.cons (by simp) (.cons hh (.cons hl .nil)))
    rw [List.mem_singleton.mp hq₁] at hfirst
    obtain ⟨q, hq, hscan⟩ := hrest 255 (by simp) u hu (p + 3) d
    refine ⟨q, hq, ?_⟩
    have hread : scan text 521 p ([37, h, l] ++ (u ++ v)) d = scan text 255 (p + 3) (u ++ v) d :=
      scan_glide hfirst
    have hdigit : isDigit 37 = false := rfl
    simp only [List.cons_append, List.nil_append, List.length_cons] at hread ⊢
    rw [hread, hscan]
    simp [hdigit, Nat.add_assoc, Nat.add_comm 3]

/-- The name before the first colon. -/
theorem scan_name (hu : Encoded regNameChars u) (htext : text.drop p = u ++ 58 :: w) :
    ∃ host, scan text 511 p (u ++ 58 :: w) d =
      scan text 521 (p + (u ++ [58]).length) w ⟨some p, { d.uri with host := host }⟩ := by
  obtain ⟨hclosed, hopens, -, -⟩ := names_lead 511 (by simp)
  obtain ⟨-, hname, -⟩ := next_in_userinfo
  obtain ⟨-, -, -, -, -, -, -, hcolon, -⟩ := next_between
  by_cases hne : u = []
  · subst hne
    refine ⟨[], ?_⟩
    rw [List.nil_append, scan_cons hcolon (by simp [performAll, act, cut_self]; rfl)]
    rfl
  · obtain ⟨q, hq, hopened⟩ := opened_of_encoded hclosed hopens hu hne
    have hcut : cut text (some p) (p + u.length) = .ok u := cut_eq htext
    refine ⟨u, ?_⟩
    rw [scan_opened hopened, scan_cons (hname q hq).2 (by simp [performAll, act, hcut]; rfl),
      List.length_append, Nat.add_assoc]
    rfl

theorem perform_saveUserinfo {m : Nat} {uri : Uri} (h : cut text (some m) p = .ok u) :
    performAll (act text p) [.saveUserinfo] ⟨some m, uri⟩ =
      .ok ⟨none, { uri with userinfo := u }⟩ := by
  simp [performAll, act, h]

theorem scan_userinfo (hu : Encoded userinfoChars u) (htext : text.drop p = u ++ 64 :: v) :
    ∃ host, scan text 511 p (u ++ 64 :: v) d =
      scan text 522 (p + u.length + 1) v
        ⟨none, { d.uri with userinfo := reported u, host := host }⟩ := by
  obtain ⟨hfirst, hname, hat, -⟩ := next_in_userinfo
  cases split_userinfo hu with
  | inl hu =>
    have hreported : reported u = u := by
      rw [reported, portLike_of_not_mem (not_mem_of_encoded hu)]
      rfl
    refine ⟨d.uri.host, ?_⟩
    rw [hreported]
    by_cases hne : u = []
    · subst hne
      rw [List.nil_append, scan_cons hfirst (by simp [performAll, act, cut_self]; rfl)]
      rfl
    · obtain ⟨hclosed, hopens, -, -⟩ := names_lead 511 (by simp)
      obtain ⟨q, hq, hopened⟩ := opened_of_encoded hclosed hopens hu hne
      have hcut : cut text (some p) (p + u.length) = .ok u := cut_eq htext
      exact (scan_opened hopened).trans (scan_cons (hname q hq).1 (perform_saveUserinfo hcut))
  | inr hsplit =>
    obtain ⟨name, w, rfl, hnm, hw⟩ := hsplit
    have htext' : text.drop p = name ++ 58 :: (w ++ 64 :: v) := by
      rw [htext]
      simp
    obtain ⟨host, hread⟩ := scan_name (d := d) hnm htext'
    obtain ⟨q, hq, hbehind⟩ : ∃ q ∈ [521, 255, 542],
        scan text 521 (p + (name ++ [58]).length) (w ++ 64 :: v)
            ⟨some p, { d.uri with host := host }⟩ =
          scan text q (p + (name ++ [58]).length + w.length) (64 :: v)
            ⟨if w.head?.any isDigit then some (p + (name ++ [58]).length) else some p,
              { d.uri with host := host }⟩ :=
      scan_behindColon hw
    have hsame : behindColon (name ++ 58 :: w) = w :=
      behindColon_append (not_mem_of_encoded hnm) w
    have hlength : p + (name ++ [58]).length + w.length = p + (name ++ 58 :: w).length := by
      simp only [List.length_append, List.length_cons, List.length_nil]
      omega
    refine ⟨host, ?_⟩
    rw [List.append_assoc, List.cons_append, hread, hbehind, hlength]
    rw [reported, portLike, hsame]
    cases hdigit : w.head?.any isDigit with
    | true =>
      have hcut : cut text (some (p + (name ++ [58]).length)) (p + (name ++ 58 :: w).length) =
          .ok w := by
        rw [← hlength]
        apply cut_eq (v := 64 :: v)
        rw [← List.drop_drop, htext', List.append_cons name 58 (w ++ 64 :: v), List.drop_left]
      exact scan_cons (hat q hq) (perform_saveUserinfo hcut)
    | false =>
      have hcut : cut text (some p) (p + (name ++ 58 :: w).length) = .ok (name ++ 58 :: w) :=
        cut_eq htext
      exact scan_cons (hat q hq) (perform_saveUserinfo hcut)

end Userinfo

/-! ## The other parts -/

set_option maxRecDepth 2000 in
/-- In a scheme, a path, a query and a fragment. -/
theorem parts_lead :
    (∀ b ∈ alpha, machine.next 451 b = some (508, [.mark])) ∧
      machine.frontier (alpha ++ digit ++ chars "+-.") [508] = some [508] ∧
      closedOn (47 :: pchar) [513] = true ∧ closedOn queryChars [457] = true ∧
      opensInto queryChars [457] 456 = true ∧ closedOn queryChars [454] = true ∧
      opensInto queryChars [454] 453 = true := by
  refine ⟨List.all_iff_forall_prop.mp ?_, ?_, ?_, ?_, ?_, ?_, ?_⟩ <;> decide

section Parts

variable {u : List UInt8}

theorem isQuery_of_encoded (hu : Encoded queryChars u) : IsQuery u := by
  obtain ⟨-, -, -, hclosed, hopens, -⟩ := parts_lead
  by_cases hne : u = []
  · exact .inl hne
  · obtain ⟨q, hq, hopened⟩ := opened_of_encoded hclosed hopens hu hne
    rw [List.mem_singleton.mp hq] at hopened
    exact .inr hopened

theorem isFragment_of_encoded (hu : Encoded queryChars u) : IsFragment u := by
  obtain ⟨-, -, -, -, -, hclosed, hopens⟩ := parts_lead
  by_cases hne : u = []
  · exact .inl hne
  · obtain ⟨q, hq, hopened⟩ := opened_of_encoded hclosed hopens hu hne
    rw [List.mem_singleton.mp hq] at hopened
    exact .inr hopened

theorem encoded_append {C v : List UInt8} (hu : Encoded C u) (hv : Encoded C v) :
    Encoded C (u ++ v) := by
  induction hu with
  | nil => exact hv
  | char hb _ ih => exact .char hb ih
  | pct hh hl _ ih => exact .pct hh hl ih

theorem encoded_cons {C : List UInt8} (hu : Encoded C u) (b : UInt8) : Encoded (b :: C) u := by
  induction hu with
  | nil => exact .nil
  | char hb _ ih => exact .char (List.mem_cons_of_mem b hb) ih
  | pct hh hl _ ih => exact .pct hh hl ih

theorem encoded_segments {segments : List (List UInt8)} (h : ∀ u ∈ segments, Encoded pchar u) :
    Encoded (47 :: pchar) (segments.flatMap (47 :: ·)) := by
  induction segments with
  | nil => exact .nil
  | cons u segments ih =>
    rw [List.forall_mem_cons] at h
    apply Encoded.char List.mem_cons_self
    exact encoded_append (encoded_cons h.1 47) (ih h.2)

theorem isPath_of_segments {segments : List (List UInt8)} (h : ∀ u ∈ segments, Encoded pchar u) :
    IsPath (segments.flatMap (47 :: ·)) := by
  obtain ⟨-, -, hclosed, -⟩ := parts_lead
  cases segments with
  | nil => exact .inl rfl
  | cons u segments =>
    rw [List.forall_mem_cons] at h
    have hrest := encoded_append (encoded_cons h.1 47) (encoded_segments h.2)
    obtain ⟨q, hq, hglide⟩ := glide_of_encoded hclosed List.mem_cons_self hrest
    rw [List.mem_singleton.mp hq] at hglide
    exact .inr ⟨_, rfl, hglide⟩

theorem isScheme_of_components (c : Components) : IsScheme c.scheme := by
  obtain ⟨hfirst, hrest, -⟩ := parts_lead
  obtain ⟨b, u, heq, hb, hu⟩ := c.isScheme
  have hclosed : ∀ q b, q = 508 → b ∈ alpha ++ digit ++ chars "+-." →
      ∃ q', machine.next q b = some (q', []) ∧ q' = 508 := by
    rintro q b rfl hb
    obtain ⟨q₂, hq₂, hnext⟩ := next_of_frontier hrest List.mem_cons_self hb
    exact ⟨q₂, hnext, List.mem_singleton.mp hq₂⟩
  obtain ⟨q, hglide, rfl⟩ := glide_of_closed hclosed rfl hu
  rw [heq]
  exact ⟨b, u, 508, rfl, hfirst b hb, hglide⟩

/-! ## Ports -/

set_option maxRecDepth 2000 in
theorem isDigit_of_mem {b : UInt8} (hb : b ∈ digit) : isDigit b = true := by
  have hall : ∀ b ∈ digit, isDigit b = true := by decide
  exact hall b hb

theorem toNat_portOf (hne : u ≠ []) (hu : ∀ b ∈ u, b ∈ digit) (hlt : number u < 2 ^ 31) :
    (portOf u).toNat = number u := by
  have hstrtol : strtol u = number u := by
    have hdigits := strtol_digits (v := []) hne (fun b hb => isDigit_of_mem (hu b hb)) (by simp)
    rw [List.append_nil] at hdigits
    rw [hdigits]
    omega
  have hbmod : (number u : Int).bmod (2 ^ 32) = number u := by
    apply Int.bmod_eq_of_le <;> omega
  rw [portOf, atoi, hstrtol, hbmod]
  simp [UInt32.ofInt]
  omega

/-- The port that is reported for one below `2 ^ 31`. -/
theorem toInt_getPort (c : Components) {uri : Uri} (hscheme : uri.scheme = c.scheme)
    (hport : uri.port.toNat = number (c.port.getD [])) (hlt : uri.port.toNat < 2 ^ 31) :
    uri.getPort.toInt = c.portNumber := by
  by_cases hzero : uri.port = 0
  · have hnumber : number (c.port.getD []) = 0 := by
      rw [← hport, hzero]
      rfl
    rw [getPort, if_neg (by simp [hzero]), hscheme, Components.portNumber, hnumber,
      Components.schemePort]
    simp only [List.mem_cons, List.not_mem_nil, or_false]
    split
    · rfl
    · split
      · rfl
      · rw [hzero]
        rfl
  · have hpos : uri.port.toNat ≠ 0 := fun h => hzero (UInt32.toNat_inj.mp h)
    have hcast : uri.port.toInt32.toInt = uri.port.toNat :=
      BitVec.toInt_eq_toNat_of_lt (x := uri.port.toBitVec) (by simpa using (by omega))
    rw [getPort, if_pos hzero, Components.portNumber, hcast, hport]
    split
    · omega
    · rfl

end Parts

/-! ## The whole text -/

/-- The components that `create` reads back. -/
structure Plain (c : Components) : Prop where
  host : HostPlain c.host
  port : c.port ≠ some []
  userinfo : ∀ u ∈ c.userinfo, portLike u = false

section Whole

variable (c : Components)

/-- What is behind the userinfo. -/
def hostAndRest : List UInt8 :=
  c.host.text ++ (delimited 58 c.port ++
    (c.path ++ (delimited 63 c.query ++ delimited 35 c.fragment)))

/-- Scheme and userinfo are read; the host starts at one of two states. -/
theorem create_hostAndRest : ∃ q₀ p m host, (q₀ = 511 ∨ q₀ = 522) ∧
    c.text.drop p = hostAndRest c ∧
    create c.text = scan c.text q₀ p (hostAndRest c) ⟨m, { init with
      scheme := c.scheme
      userinfo := (c.userinfo.map reported).getD []
      host := host }⟩ := by
  have hscheme := isScheme_of_components c
  have hcreate := create_scheme hscheme
  cases huser : c.userinfo with
  | none =>
    have htext : c.text = c.scheme ++ 58 :: 47 :: 47 :: hostAndRest c := by
      simp [Components.text, Components.authority, hostAndRest, huser, chars]
    refine ⟨511, c.scheme.length + 3, none, [], .inl rfl, ?_, ?_⟩
    · rw [htext, ← List.drop_drop, List.drop_left]
      rfl
    · rw [htext, hcreate]
      rfl
  | some u =>
    have htext : c.text = c.scheme ++ 58 :: 47 :: 47 :: (u ++ 64 :: hostAndRest c) := by
      simp [Components.text, Components.authority, hostAndRest, huser, chars]
    have hdrop : c.text.drop (c.scheme.length + 3) = u ++ 64 :: hostAndRest c := by
      rw [htext, ← List.drop_drop, List.drop_left]
      rfl
    obtain ⟨host, hread⟩ := scan_userinfo (d := ⟨none, { init with scheme := c.scheme }⟩)
      (c.isUserinfo u huser) hdrop
    refine ⟨522, c.scheme.length + 3 + u.length + 1, none, host, .inr rfl, ?_, ?_⟩
    · rw [← List.drop_drop, ← List.drop_drop, hdrop, List.drop_left]
      rfl
    · have hstart := hcreate (u ++ 64 :: hostAndRest c)
      rw [← htext] at hstart
      exact hstart.trans hread

theorem create_of_plain (hhost : HostPlain c.host) (hport : c.port ≠ some []) :
    create c.text = .ok (some {
      scheme := c.scheme
      userinfo := (c.userinfo.map reported).getD []
      host := c.host.text
      port := (c.port.map portOf).getD 0
      path := c.path
      query := c.query.getD []
      fragment := c.fragment.getD [] }) := by
  obtain ⟨q₀, p, m, host, hq₀, hdrop, hcreate⟩ := create_hostAndRest c
  obtain ⟨q, hq⟩ := isHost_of_plain hq₀ hhost
  have hdigits : ∀ u ∈ c.port, u ≠ [] ∧ ∀ b ∈ u, isDigit b = true := by
    intro u hu
    refine ⟨?_, fun b hb => isDigit_of_mem ((c.isPort u hu).1 b hb)⟩
    rintro rfl
    exact hport hu
  rw [hcreate, hostAndRest]
  exact scan_host hq₀ hq hdigits (isPath_of_segments c.isPath)
    (fun u hu => isQuery_of_encoded (c.isQuery u hu))
    (fun u hu => isFragment_of_encoded (c.isFragment u hu)) hdrop

theorem not_create_of_host (hhost : ¬HostPlain c.host) (uri : Uri) :
    create c.text ≠ .ok (some uri) := by
  obtain ⟨q₀, p, m, host, hq₀, -, hcreate⟩ := create_hostAndRest c
  rw [hcreate]
  intro h
  obtain ⟨q, hafter, -⟩ := after_of_scan h
  rw [hostAndRest, after_of_not_plain hq₀ hhost] at hafter
  cases hafter

theorem not_create_of_port (hhost : HostPlain c.host) (hport : c.port = some []) (uri : Uri) :
    create c.text ≠ .ok (some uri) := by
  obtain ⟨q₀, p, m, host, hq₀, hdrop, hcreate⟩ := create_hostAndRest c
  obtain ⟨q, hq⟩ := isHost_of_plain hq₀ hhost
  obtain ⟨d', hscan, -, e, as, m', he, hcolon, hact⟩ := endsAuthority_host hq₀ hq hdrop
  rw [hcreate, hostAndRest, hscan, hport, delimited, List.cons_append, scan_cons hcolon hact,
    List.nil_append]
  exact not_scan_empty_port he (head_tail (isPath_of_segments c.isPath))

/-- The URI is taken apart into its components exactly if they are plain. -/
theorem create_components_iff :
    (∃ uri, create c.text = .ok (some uri) ∧ c.ReadBy uri) ↔ Plain c := by
  constructor
  · intro h
    obtain ⟨uri, hcreate, hread⟩ := h
    have hhost : HostPlain c.host := by
      by_contra hhost
      exact not_create_of_host c hhost uri hcreate
    have hport : c.port ≠ some [] := by
      intro hport
      exact not_create_of_port c hhost hport uri hcreate
    refine ⟨hhost, hport, ?_⟩
    intro u hu
    rw [create_of_plain c hhost hport] at hcreate
    cases hcreate
    have huser := hread.userinfo
    rw [Option.mem_def.mp hu] at huser
    exact reported_eq_iff.mp huser
  · intro h
    refine ⟨_, create_of_plain c h.host h.port, rfl, ?_, rfl, ?_, rfl, rfl, rfl⟩
    · have huser := h.userinfo
      cases hc : c.userinfo with
      | none => rfl
      | some u => exact reported_eq_iff.mpr (huser u hc)
    · have hnumber : ((c.port.map portOf).getD 0).toNat = number (c.port.getD []) ∧
          number (c.port.getD []) < 2 ^ 31 := by
        cases hc : c.port with
        | none => exact ⟨rfl, by decide⟩
        | some u =>
          obtain ⟨hdigits, hlt⟩ := c.isPort u hc
          have hne : u ≠ [] := by
            rintro rfl
            exact h.port hc
          exact ⟨toNat_portOf hne hdigits hlt, hlt⟩
      apply toInt_getPort c rfl hnumber.1
      rw [hnumber.1]
      exact hnumber.2

end Whole

set_option maxRecDepth 2000 in
/-- `fe80::1`. -/
def linkLocal : IPv6Address where
  before := some [⟨chars "fe80", by decide, by decide, by decide⟩]
  pieces := ⟨[⟨chars "1", by decide, by decide, by decide⟩], none⟩
  full := by simp
  elided := by
    rintro _ ⟨⟩
    decide

set_option maxRecDepth 2000 in
def linkLocalUri : Components where
  scheme := chars "http"
  userinfo := none
  host := .ipv6 linkLocal
  port := none
  segments := [[]]
  query := none
  fragment := none
  isScheme := ⟨104, chars "ttp", rfl, by decide, by decide⟩
  isUserinfo := by simp
  isPort := by simp
  isPath := by simpa using Encoded.nil
  isQuery := by simp
  isFragment := by simp

/-- Two groups are fewer than seven. -/
theorem link_local_refused : linkLocalUri.text = chars "http://[fe80::1]/" ∧
    create linkLocalUri.text = .ok none ∧
    ¬∃ uri, create linkLocalUri.text = .ok (some uri) ∧ linkLocalUri.ReadBy uri := by
  have hcreate : create linkLocalUri.text = .ok none := by decide
  refine ⟨by decide, hcreate, ?_⟩
  rintro ⟨uri, huri, -⟩
  rw [hcreate] at huri
  cases huri

end CxkFramework.Uri
